import Stembot.Storage.Nvs

/-!
# The key-value store

`KVStore` object by object: every operation takes the object it is called on,
and only `begin` and `close` (the source's `end`) return a changed one.
-/

namespace Stembot

open Library

structure KVStore where
  handle : NvsHandle := 0
  started : Bool := false
  readOnly : Bool := false

namespace KVStore

variable (kv : KVStore)

def begin (name : String) (readOnly : Bool) : NvsProgram (Bool × KVStore) := do
  if kv.started then return (false, kv)
  let kv := { kv with readOnly := readOnly }
  let mut err ← nvs .flashInit
  if err = .noFreePages ∨ err = .newVersionFound then
    -- On the device a failed erase aborts. Here the storage stays as it is, and asks for it again.
    nvs .flashErase
    err ← nvs .flashInit
  if err ≠ .ok then return (false, kv)
  match ← nvs (.openNs name readOnly) with
  | none => return (false, kv)
  | some handle => return (true, { kv with handle := handle, started := true })

def close : NvsProgram KVStore := do
  if !kv.started then return kv
  nvs (.close kv.handle)
  return { kv with handle := 0, started := false }

def clear : NvsProgram Bool := do
  if !kv.started || kv.readOnly then return false
  if !(← nvs (.eraseAll kv.handle)) then return false
  nvs (.commit kv.handle)

def remove (key : String) : NvsProgram Bool := do
  if !kv.started || kv.readOnly then return false
  if !(← nvs (.eraseKey kv.handle key)) then return false
  nvs (.commit kv.handle)

def isKey (key : String) : NvsProgram Bool := do
  if !kv.started then return false
  nvs (.findKey kv.handle key)

/-- The body all writers share: the commit's own result is dropped. -/
def put (key : String) (v : NvsValue) (size : Nat) : NvsProgram Nat := do
  if !kv.started || kv.readOnly then return 0
  if !(← nvs (.set kv.handle key v)) then return 0
  let _ ← nvs (.commit kv.handle)
  return size

def putChar (key : String) (v : Int8) : NvsProgram Nat := kv.put key (.scalar .i8 v) 1
def putUChar (key : String) (v : UInt8) : NvsProgram Nat := kv.put key (.scalar .u8 v) 1
def putShort (key : String) (v : Int16) : NvsProgram Nat := kv.put key (.scalar .i16 v) 2
def putUShort (key : String) (v : UInt16) : NvsProgram Nat := kv.put key (.scalar .u16 v) 2
def putInt (key : String) (v : Int32) : NvsProgram Nat := kv.put key (.scalar .i32 v) 4
def putUInt (key : String) (v : UInt32) : NvsProgram Nat := kv.put key (.scalar .u32 v) 4
def putLong (key : String) (v : Int32) : NvsProgram Nat := kv.putInt key v
def putULong (key : String) (v : UInt32) : NvsProgram Nat := kv.putUInt key v
def putLong64 (key : String) (v : Int64) : NvsProgram Nat := kv.put key (.scalar .i64 v) 8
def putULong64 (key : String) (v : UInt64) : NvsProgram Nat := kv.put key (.scalar .u64 v) 8

/-- `value` is the buffer behind the pointer; a null pointer is `none`. -/
def putBytes (key : String) (value : Option Bytes) : NvsProgram Nat :=
  match value with
  | none => return 0
  | some b => if b.length = 0 then return 0 else kv.put key (.blob b) b.length

/-- A float is handled as its object representation. -/
def putFloat (key : String) (v : List.Vector UInt8 4) : NvsProgram Nat :=
  kv.putBytes key (some v.toList)
def putDouble (key : String) (v : List.Vector UInt8 8) : NvsProgram Nat :=
  kv.putBytes key (some v.toList)

def putBool (key : String) (v : Bool) : NvsProgram Nat := kv.putUChar key (if v then 1 else 0)

def putString (key : String) (value : Option CString) : NvsProgram Nat :=
  match value with
  | none => return 0
  | some s => kv.put key (.str s) s.1.length

/-- The overload for `std::string`, which goes through `c_str`. -/
def putStdString (key : String) (value : Bytes) : NvsProgram Nat :=
  kv.putString key (some (terminated value))

/-- The body all scalar readers share: a failing read leaves the default in place. -/
def getScalar (key : String) (ty : NvsType) (d : ty.Carrier) : NvsProgram ty.Carrier := do
  if !kv.started then return d
  return (← nvs (.getScalar kv.handle key ty)).getD d

def getChar (key : String) (d : Int8) : NvsProgram Int8 := kv.getScalar key .i8 d
def getUChar (key : String) (d : UInt8) : NvsProgram UInt8 := kv.getScalar key .u8 d
def getShort (key : String) (d : Int16) : NvsProgram Int16 := kv.getScalar key .i16 d
def getUShort (key : String) (d : UInt16) : NvsProgram UInt16 := kv.getScalar key .u16 d
def getInt (key : String) (d : Int32) : NvsProgram Int32 := kv.getScalar key .i32 d
def getUInt (key : String) (d : UInt32) : NvsProgram UInt32 := kv.getScalar key .u32 d
def getLong (key : String) (d : Int32) : NvsProgram Int32 := kv.getInt key d
def getULong (key : String) (d : UInt32) : NvsProgram UInt32 := kv.getUInt key d
def getLong64 (key : String) (d : Int64) : NvsProgram Int64 := kv.getScalar key .i64 d
def getULong64 (key : String) (d : UInt64) : NvsProgram UInt64 := kv.getScalar key .u64 d

def getBool (key : String) (d : Bool) : NvsProgram Bool := do
  return (← kv.getUChar key (if d then 1 else 0)) != 0

/-- Strip the terminator that the storage call counts. -/
def stripTerminator (s : Bytes) : Bytes := if s.getLast? = some 0 then s.dropLast else s

def getString (key : String) (d : Bytes) : NvsProgram Bytes := do
  if !kv.started then return d
  match ← nvs (.strLen kv.handle key) with
  | none => return d
  | some len =>
    match ← nvs (.getStr kv.handle key len) with
    | none => return d
    | some s => return stripTerminator (s ++ List.replicate (len - s.length) 0)

def getBytesLength (key : String) : NvsProgram Nat := do
  if !kv.started then return 0
  return (← nvs (.blobLen kv.handle key)).getD 0

/-- The number of bytes read, and the buffer with them copied in. -/
def getBytes {n : Nat} (key : String) (buf : List.Vector UInt8 n) :
    NvsProgram (Nat × List.Vector UInt8 n) := do
  if !kv.started || n = 0 then return (0, buf)
  match ← nvs (.getBlob kv.handle key n) with
  | none => return (0, buf)
  | some b => return (b.length, overwrite buf b)

def getFloat (key : String) (d : List.Vector UInt8 4) : NvsProgram (List.Vector UInt8 4) := do
  return (← kv.getBytes key d).2

def getDouble (key : String) (d : List.Vector UInt8 8) : NvsProgram (List.Vector UInt8 8) := do
  return (← kv.getBytes key d).2

end KVStore

end Stembot
