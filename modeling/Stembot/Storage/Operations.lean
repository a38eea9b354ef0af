import Stembot.Storage.KVStore

/-!
# The public operations of a store

Writers and readers as data, so that a program on a store can be any sequence of
calls to it.
-/

namespace Stembot

open Library

/-- The writers, each with the value it is given. -/
inductive Putter where
  | char (v : Int8)
  | uChar (v : UInt8)
  | short (v : Int16)
  | uShort (v : UInt16)
  | int (v : Int32)
  | uInt (v : UInt32)
  | long (v : Int32)
  | uLong (v : UInt32)
  | long64 (v : Int64)
  | uLong64 (v : UInt64)
  | float (v : List.Vector UInt8 4)
  | double (v : List.Vector UInt8 8)
  | bool (v : Bool)
  | string (v : Option CString)
  | stdString (v : Bytes)
  | bytes (v : Option Bytes)

def Putter.call (kv : KVStore) (key : String) : Putter → NvsProgram Nat
  | .char v => kv.putChar key v
  | .uChar v => kv.putUChar key v
  | .short v => kv.putShort key v
  | .uShort v => kv.putUShort key v
  | .int v => kv.putInt key v
  | .uInt v => kv.putUInt key v
  | .long v => kv.putLong key v
  | .uLong v => kv.putULong key v
  | .long64 v => kv.putLong64 key v
  | .uLong64 v => kv.putULong64 key v
  | .float v => kv.putFloat key v
  | .double v => kv.putDouble key v
  | .bool v => kv.putBool key v
  | .string v => kv.putString key v
  | .stdString v => kv.putStdString key v
  | .bytes v => kv.putBytes key v

/-- The readers that take a default. -/
inductive Getter where
  | char | uChar | short | uShort | int | uInt | long | uLong | long64 | uLong64
  | float | double | bool | string
  deriving DecidableEq

abbrev Getter.Carrier : Getter → Type
  | .char => Int8
  | .uChar => UInt8
  | .short => Int16
  | .uShort => UInt16
  | .int | .long => Int32
  | .uInt | .uLong => UInt32
  | .long64 => Int64
  | .uLong64 => UInt64
  | .float => List.Vector UInt8 4
  | .double => List.Vector UInt8 8
  | .bool => Bool
  | .string => Bytes

def Getter.call (kv : KVStore) (key : String) : (g : Getter) → g.Carrier → NvsProgram g.Carrier
  | .char => kv.getChar key
  | .uChar => kv.getUChar key
  | .short => kv.getShort key
  | .uShort => kv.getUShort key
  | .int => kv.getInt key
  | .uInt => kv.getUInt key
  | .long => kv.getLong key
  | .uLong => kv.getULong key
  | .long64 => kv.getLong64 key
  | .uLong64 => kv.getULong64 key
  | .float => kv.getFloat key
  | .double => kv.getDouble key
  | .bool => kv.getBool key
  | .string => kv.getString key

/-- The calls that can be made on an object. A null buffer for the bytes is `none`. -/
inductive Operation where
  | begin (name : String) (readOnly : Bool)
  | close
  | clear
  | remove (key : String)
  | isKey (key : String)
  | put (p : Putter) (key : String)
  | get (g : Getter) (key : String) (d : g.Carrier)
  | getBytesLength (key : String)
  | getBytes (key : String) (n : Nat) (buf : Option (List.Vector UInt8 n))

/-- The object after the call; what the call returns to its caller is dropped. -/
def Operation.call (kv : KVStore) : Operation → NvsProgram KVStore
  | .begin name readOnly => return (← kv.begin name readOnly).2
  | .close => kv.close
  | .clear => do let _ ← kv.clear; return kv
  | .remove key => do let _ ← kv.remove key; return kv
  | .isKey key => do let _ ← kv.isKey key; return kv
  | .put p key => do let _ ← p.call kv key; return kv
  | .get g key d => do let _ ← g.call kv key d; return kv
  | .getBytesLength key => do let _ ← kv.getBytesLength key; return kv
  | .getBytes key _ (some buf) => do let _ ← kv.getBytes key buf; return kv
  | .getBytes _ _ none => return kv

/-- Calls on one object, one after the other. -/
def KVStore.session (kv : KVStore) (ops : List Operation) : NvsProgram KVStore :=
  ops.foldlM Operation.call kv

/-- The storage is initialised, and once more after an erasure where that is called for. -/
def initialise : NvsProgram InitStatus := do
  let err ← nvs .flashInit
  if err = .noFreePages ∨ err = .newVersionFound then
    nvs .flashErase
    nvs .flashInit
  else return err

def KVStore.openNamespace (kv : KVStore) (name : String) (readOnly : Bool) :
    NvsProgram (Bool × KVStore) := do
  match ← nvs (.openNs name readOnly) with
  | none => return (false, kv)
  | some handle => return (true, { kv with handle := handle, started := true })

theorem KVStore.begin_eq (kv : KVStore) (name : String) (readOnly : Bool) :
    kv.begin name readOnly = if kv.started then pure (false, kv) else initialise >>= fun err =>
      let kv := { kv with readOnly }
      if err ≠ .ok then pure (false, kv) else kv.openNamespace name readOnly := by
  unfold begin
  split
  · rfl
  · simp only [initialise, openNamespace, bind_assoc]
    refine congrArg (nvs .flashInit >>= ·) (funext fun err => ?_)
    split
    · exact (bind_assoc _ _ _).symm
    · exact (pure_bind _ _).symm

/-- The entry a writer writes; nothing for a null pointer and for an empty blob. -/
def Putter.stored : Putter → Option NvsValue
  | .char v => some (.scalar .i8 v)
  | .uChar v => some (.scalar .u8 v)
  | .short v => some (.scalar .i16 v)
  | .uShort v => some (.scalar .u16 v)
  | .int v | .long v => some (.scalar .i32 v)
  | .uInt v | .uLong v => some (.scalar .u32 v)
  | .long64 v => some (.scalar .i64 v)
  | .uLong64 v => some (.scalar .u64 v)
  | .float v => some (.blob v.toList)
  | .double v => some (.blob v.toList)
  | .bool v => some (.scalar .u8 (if v then 1 else 0))
  | .string v => v.map .str
  | .stdString v => some (.str (terminated v))
  | .bytes v => v.bind fun b => if b.length = 0 then none else some (.blob b)

/-- The bytes a writer reports when it has written; for a string those in front of the
terminator. -/
def Putter.count : Putter → Nat
  | .char _ | .uChar _ | .bool _ => 1
  | .short _ | .uShort _ => 2
  | .int _ | .long _ | .uInt _ | .uLong _ | .float _ => 4
  | .long64 _ | .uLong64 _ | .double _ => 8
  | .string v => (v.map fun s => s.1.length).getD 0
  | .stdString v => (cstr v).length
  | .bytes v => (v.map List.length).getD 0

/-- A writer writes its entry, or does nothing. -/
theorem Putter.call_eq (p : Putter) (kv : KVStore) (key : String) :
    p.call kv key = match p.stored with
      | some v => kv.put key v p.count
      | none => pure 0 := by
  cases p with
  | float v => simp [call, KVStore.putFloat, KVStore.putBytes, stored, count]
  | double v => simp [call, KVStore.putDouble, KVStore.putBytes, stored, count]
  | string v =>
    cases v with
    | none => rfl
    | some s => rfl
  | bytes v =>
    cases v with
    | none => rfl
    | some b =>
      simp only [call, KVStore.putBytes, stored, Option.bind_some]
      split <;> rfl
  | _ => rfl

end Stembot
