import Mathlib.Logic.Function.Basic
import Stembot.Library.CString
import Stembot.Library.Trace

/-!
# Non-volatile storage

The calls of the ESP-IDF storage API the code makes, and a device that answers
them: a namespace maps keys to typed values, a typed read of another type fails,
a blob read fails when the buffer is too small, and a write is durable once it
has been committed. Any call may also fail for reasons of its own.
-/

namespace Stembot

open Library

inductive NvsType where
  | i8 | u8 | i16 | u16 | i32 | u32 | i64 | u64
  deriving DecidableEq

abbrev NvsType.Carrier : NvsType → Type
  | .i8 => Int8
  | .u8 => UInt8
  | .i16 => Int16
  | .u16 => UInt16
  | .i32 => Int32
  | .u32 => UInt32
  | .i64 => Int64
  | .u64 => UInt64

inductive NvsValue where
  | scalar (ty : NvsType) (v : ty.Carrier)
  | str (s : CString)
  | blob (b : Bytes)

def NvsValue.asScalar (ty : NvsType) : NvsValue → Option ty.Carrier
  | .scalar ty' v => if e : ty' = ty then some (e ▸ v) else none
  | _ => none

inductive InitStatus where
  | ok | noFreePages | newVersionFound | failed
  deriving DecidableEq

abbrev NvsHandle := Nat

/-- `strLen` and `blobLen` are the reads with a null buffer. -/
inductive NvsOp where
  | flashInit
  | flashErase
  | openNs (name : String) (readOnly : Bool)
  | close (h : NvsHandle)
  | eraseAll (h : NvsHandle)
  | eraseKey (h : NvsHandle) (key : String)
  | commit (h : NvsHandle)
  | findKey (h : NvsHandle) (key : String)
  | set (h : NvsHandle) (key : String) (v : NvsValue)
  | getScalar (h : NvsHandle) (key : String) (ty : NvsType)
  | strLen (h : NvsHandle) (key : String)
  | getStr (h : NvsHandle) (key : String) (len : Nat)
  | blobLen (h : NvsHandle) (key : String)
  | getBlob (h : NvsHandle) (key : String) (len : Nat)

abbrev NvsOp.Res : NvsOp → Type
  | .flashInit => InitStatus
  | .flashErase | .close _ => Unit
  | .openNs _ _ => Option NvsHandle
  | .eraseAll _ | .eraseKey _ _ | .commit _ | .findKey _ _ | .set _ _ _ => Bool
  | .getScalar _ _ ty => Option ty.Carrier
  | .strLen _ _ | .blobLen _ _ => Option Nat
  | .getStr _ _ _ | .getBlob _ _ _ => Option Bytes

/-- The answer of a call that fails. -/
def NvsOp.refused : (op : NvsOp) → op.Res
  | .flashInit => .failed
  | .flashErase | .close _ => ()
  | .openNs _ _ => none
  | .eraseAll _ | .eraseKey _ _ | .commit _ | .findKey _ _ | .set _ _ _ => false
  | .getScalar _ _ _ => none
  | .strLen _ _ | .blobLen _ _ => none
  | .getStr _ _ _ | .getBlob _ _ _ => none

abbrev NvsProgram := Program NvsOp NvsOp.Res

/-- One storage call. -/
abbrev nvs (op : NvsOp) : NvsProgram op.Res := Program.issue op

/-- A storage call with its answer. -/
abbrev NvsCall := Answered NvsOp NvsOp.Res

abbrev Entries := String → Option NvsValue

/-- The storage device. `faults` says, call by call, which of the next calls fail. -/
structure Nvs where
  live : String → Entries
  durable : String → Entries
  handles : NvsHandle → Option (String × Bool)
  opened : Nat
  init : InitStatus
  faults : List Bool

namespace Nvs

/-- The entry a handle gives access to. -/
def entry (w : Nvs) (h : NvsHandle) (key : String) : Option NvsValue :=
  (w.handles h).bind fun (name, _) => w.live name key

def write (w : Nvs) (h : NvsHandle) (f : Entries → Entries) : Bool × Nvs :=
  match w.handles h with
  | some (name, false) => (true, { w with live := Function.update w.live name (f (w.live name)) })
  | _ => (false, w)

/-- A call that meets no fault. A read-only open of a namespace that was never written, which the
storage refuses, counts as one that meets a fault. -/
def perform : (op : NvsOp) → Nvs → op.Res × Nvs
  | .flashInit, w => (w.init, w)
  | .flashErase, w =>
    ((), { w with live := fun _ _ => none, durable := fun _ _ => none, init := .ok })
  | .openNs name readOnly, w =>
    (some (w.opened + 1), { w with
      handles := Function.update w.handles (w.opened + 1) (some (name, readOnly))
      opened := w.opened + 1 })
  | .close h, w => ((), { w with handles := Function.update w.handles h none })
  | .eraseAll h, w => w.write h fun _ _ => none
  | .eraseKey h key, w =>
    if (w.entry h key).isSome then w.write h fun es => Function.update es key none else (false, w)
  | .commit h, w =>
    if (w.handles h).isSome then (true, { w with durable := w.live }) else (false, w)
  | .findKey h key, w => ((w.entry h key).isSome, w)
  | .set h key v, w => w.write h fun es => Function.update es key (some v)
  | .getScalar h key ty, w => ((w.entry h key).bind (NvsValue.asScalar ty), w)
  | .strLen h key, w =>
    match w.entry h key with
    | some (.str s) => (some (s.1.length + 1), w)
    | _ => (none, w)
  | .getStr h key len, w =>
    match w.entry h key with
    | some (.str s) => (if s.1.length + 1 ≤ len then some (s.1 ++ [0]) else none, w)
    | _ => (none, w)
  | .blobLen h key, w =>
    match w.entry h key with
    | some (.blob b) => (some b.length, w)
    | _ => (none, w)
  | .getBlob h key len, w =>
    match w.entry h key with
    | some (.blob b) => (if b.length ≤ len then some b else none, w)
    | _ => (none, w)

def answer : Program.Handler NvsOp NvsOp.Res Nvs := fun op w =>
  match w.faults with
  | [] => perform op w
  | false :: fs => perform op { w with faults := fs }
  | true :: fs => (op.refused, { w with faults := fs })

theorem answer_of_faultless {w : Nvs} (h : w.faults = []) (op : NvsOp) :
    answer op w = perform op w := by
  simp [answer, h]

/-- `w'` is the device when it is up again after a reset, and no call will fail: each entry is there
as it was last committed, or as it was last written. -/
structure Boots (w w' : Nvs) : Prop where
  entries : ∀ name key, w'.live name key = w.durable name key ∨ w'.live name key = w.live name key
  durable : w'.durable = w'.live
  init : w'.init = .ok
  faultless : w'.faults = []

/-- What is true of an entry as it was committed, and as it was written, is true of it
afterwards. -/
theorem Boots.either {w w' : Nvs} (boots : w.Boots w') {name key : String}
    {P : Option NvsValue → Prop} (durable : P (w.durable name key)) (live : P (w.live name key)) :
    P (w'.live name key) := by
  rcases boots.entries name key with committed | written
  · rw [committed]
    exact durable
  · rw [written]
    exact live

end Nvs

end Stembot
