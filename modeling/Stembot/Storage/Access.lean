import Stembot.Storage.KVStore

/-!
# The store on a device that meets no fault

One equation for each operation: what it returns, and the device it leaves.
-/

namespace Stembot

open Library

/-- `kv` holds an open handle to the namespace `name`, and no call will fail. -/
structure Nvs.Serves (w : Nvs) (kv : KVStore) (name : String) : Prop where
  faultless : w.faults = []
  started : kv.started = true
  handle : w.handles kv.handle = some (name, kv.readOnly)

/-- The device after a namespace was rewritten and committed. -/
def Nvs.replace (w : Nvs) (name : String) (es : Entries) : Nvs :=
  { w with live := Function.update w.live name es, durable := Function.update w.live name es }

/-- The device after one entry was written and committed. -/
def Nvs.store (w : Nvs) (name key : String) (v : NvsValue) : Nvs :=
  w.replace name (Function.update (w.live name) key (some v))

@[simp] theorem Nvs.replace_live_self (w : Nvs) (name : String) (es : Entries) :
    (w.replace name es).live name = es := by
  simp [Nvs.replace]

@[simp] theorem Nvs.replace_replace (w : Nvs) (name : String) (es es' : Entries) :
    (w.replace name es).replace name es' = w.replace name es' := by
  simp [Nvs.replace]

theorem Nvs.Serves.replace {w : Nvs} {kv : KVStore} {name : String} (s : w.Serves kv name)
    (name' : String) (es : Entries) : (w.replace name' es).Serves kv name :=
  ⟨s.faultless, s.started, s.handle⟩

def Entries.string (e : Option NvsValue) (d : Bytes) : Bytes :=
  match e with
  | some (.str s) => s.1
  | _ => d

def Entries.scalar (e : Option NvsValue) (ty : NvsType) (d : ty.Carrier) : ty.Carrier :=
  (e.bind (NvsValue.asScalar ty)).getD d

def Entries.bool (e : Option NvsValue) (d : Bool) : Bool :=
  Entries.scalar e .u8 (if d then 1 else 0) != 0

def Entries.bytes {n : Nat} (e : Option NvsValue) (buf : List.Vector UInt8 n) :
    Nat × List.Vector UInt8 n :=
  match e with
  | some (.blob b) => if b.length ≤ n then (b.length, overwrite buf b) else (0, buf)
  | _ => (0, buf)

@[simp] theorem Entries.bool_put (b d : Bool) :
    bool (some (.scalar .u8 (if b then 1 else 0))) d = b := by
  cases b <;> simp [bool, scalar, NvsValue.asScalar]

theorem cstr_stripTerminator (s : Bytes) : cstr (KVStore.stripTerminator s) = cstr s := by
  unfold KVStore.stripTerminator
  split
  · rename_i last
    obtain ⟨front, rfl⟩ := List.getLast?_eq_some_iff.mp last
    rw [List.dropLast_concat]
    exact (cstr_append_zeros front 1).symm
  · rfl

namespace KVStore

variable {w : Nvs} {kv : KVStore} {name : String}

theorem stripTerminator_append_zero (s : Bytes) : stripTerminator (s ++ [0]) = s := by
  simp [stripTerminator]

theorem getScalar_run (s : w.Serves kv name) (key : String) (ty : NvsType) (d : ty.Carrier) :
    (kv.getScalar key ty d).run Nvs.answer w = (Entries.scalar (w.live name key) ty d, w) := by
  simp [getScalar, s.started, Nvs.answer_of_faultless s.faultless, Nvs.perform, Nvs.entry, s.handle,
    Entries.scalar]

theorem getBool_run (s : w.Serves kv name) (key : String) (d : Bool) :
    (kv.getBool key d).run Nvs.answer w = (Entries.bool (w.live name key) d, w) := by
  simp [getBool, getUChar, getScalar_run s, Entries.bool]

theorem getString_run (s : w.Serves kv name) (key : String) (d : Bytes) :
    (kv.getString key d).run Nvs.answer w = (Entries.string (w.live name key) d, w) := by
  simp only [getString, s.started, Bool.not_true, Bool.false_eq_true, if_false, Program.run_bind,
    Program.run_issue, Nvs.answer_of_faultless s.faultless, Nvs.perform, Nvs.entry, s.handle,
    Option.bind_some]
  cases h : w.live name key with
  | none => simp [Entries.string]
  | some v =>
    cases v with
    | str t =>
      simp [Nvs.answer_of_faultless s.faultless, Nvs.perform, Nvs.entry,
        s.handle, h, Entries.string, stripTerminator_append_zero]
    | scalar _ _ | blob _ => simp [Entries.string]

theorem getBytes_run (s : w.Serves kv name) {n : Nat} (hn : n ≠ 0) (key : String)
    (buf : List.Vector UInt8 n) :
    (kv.getBytes key buf).run Nvs.answer w = (Entries.bytes (w.live name key) buf, w) := by
  simp only [getBytes, s.started, Bool.not_true, Bool.false_or, decide_eq_true_eq, if_neg hn,
    Program.run_bind, Program.run_issue, Nvs.answer_of_faultless s.faultless,
    Nvs.perform, Nvs.entry, s.handle, Option.bind_some]
  cases h : w.live name key with
  | none => simp [Entries.bytes]
  | some v =>
    cases v with
    | blob b => by_cases fits : b.length ≤ n <;> simp [Entries.bytes, fits]
    | scalar _ _ | str _ => simp [Entries.bytes]

theorem put_run (s : w.Serves kv name) (writable : kv.readOnly = false)
    (key : String) (v : NvsValue) (size : Nat) :
    (kv.put key v size).run Nvs.answer w = (size, w.store name key v) := by
  have handle := s.handle
  rw [writable] at handle
  simp [put, s.started, writable, Nvs.answer, s.faultless, Nvs.perform,
    Nvs.write, handle, Nvs.store, Nvs.replace]

theorem putString_run (s : w.Serves kv name) (writable : kv.readOnly = false) (key : String)
    (v : CString) : (kv.putString key (some v)).run Nvs.answer w =
      (v.1.length, w.store name key (.str v)) :=
  put_run s writable key _ _

theorem putStdString_run (s : w.Serves kv name) (writable : kv.readOnly = false) (key : String)
    (v : Bytes) : (kv.putStdString key v).run Nvs.answer w =
      ((cstr v).length, w.store name key (.str (terminated v))) :=
  put_run s writable key _ _

theorem putBytes_run (s : w.Serves kv name) (writable : kv.readOnly = false) (key : String)
    {b : Bytes} (full : b.length ≠ 0) :
    (kv.putBytes key (some b)).run Nvs.answer w = (b.length, w.store name key (.blob b)) := by
  simp only [putBytes, if_neg full]
  exact put_run s writable key _ _

theorem putBool_run (s : w.Serves kv name) (writable : kv.readOnly = false)
    (key : String) (v : Bool) :
    (kv.putBool key v).run Nvs.answer w =
      (1, w.store name key (.scalar .u8 (if v then 1 else 0))) :=
  put_run s writable key _ _

/-- A store that is already open asks for nothing when it is begun again. -/
theorem begin_of_started (started : kv.started = true) (name : String) (readOnly : Bool) :
    kv.begin name readOnly = pure (false, kv) := by
  simp [begin, started]

/-- Beginning a store that is already open changes nothing. -/
theorem begin_started (h : kv.started = true) (name : String) (readOnly : Bool) :
    (kv.begin name readOnly).run Nvs.answer w = ((false, kv), w) := by
  rw [begin_of_started h, Program.run_pure]

/-- A fresh store opens the namespace under a new handle. -/
theorem begin_fresh (h : kv.started = false) (faultless : w.faults = []) (init : w.init = .ok)
    (name : String) (readOnly : Bool) :
    (kv.begin name readOnly).run Nvs.answer w =
      ((true, ⟨w.opened + 1, true, readOnly⟩), { w with
        handles := Function.update w.handles (w.opened + 1) (some (name, readOnly))
        opened := w.opened + 1 }) := by
  simp [begin, h, Nvs.answer, faultless, Nvs.perform, init]

end KVStore

end Stembot
