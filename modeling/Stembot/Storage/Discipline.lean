import Stembot.Library.Monitor
import Stembot.Storage.Operations

/-!
# How the store uses the storage interface

A monitor keeps the handles that are open, each with its mode, over a trace whose
answers may be anything. The fields of the object tell what the monitor knows.
-/

namespace Stembot

open Library Program

/-- The handle a call is made on. -/
def NvsOp.target : NvsOp → Option NvsHandle
  | .flashInit | .flashErase | .openNs _ _ => none
  | .close h | .eraseAll h | .eraseKey h _ | .commit h | .findKey h _ | .set h _
    _ | .getScalar h _ _
  | .strLen h _ | .getStr h _ _ | .blobLen h _ | .getBlob h _ _ => some h

/-- The calls that change a namespace, or make a change durable. -/
def NvsOp.Modifies : NvsOp → Prop
  | .eraseAll _ | .eraseKey _ _ | .commit _ | .set _ _ _ => True
  | _ => False

/-- The open handles; the flag says that a handle was opened read-only. -/
abbrev Ledger := List (NvsHandle × Bool)

/-- A call is made on an open handle, one that may be written if the call writes. The storage is
initialised, and namespaces are opened, only while no handle is open. -/
structure Ledger.Allows (opened : Ledger) (op : NvsOp) : Prop where
  held : ∀ h, op.target = some h → ∃ readOnly, (h, readOnly) ∈ opened
  writable : op.Modifies → ∀ h, op.target = some h → (h, true) ∉ opened
  alone : op.target = none → opened = []

def Ledger.next (opened : Ledger) : NvsCall → Ledger
  | ⟨.openNs _ readOnly, some h⟩ => (h, readOnly) :: opened
  | ⟨.close h, _⟩ => opened.eraseP fun entry => entry.1 = h
  | _ => opened

/-- The access discipline of the storage interface. -/
def access : Monitor NvsOp NvsOp.Res Ledger where
  allows := Ledger.Allows
  next := Ledger.next

/-- The handles that an object holds open. -/
def KVStore.ledger (kv : KVStore) : Ledger := if kv.started then [(kv.handle, kv.readOnly)] else []

/-- A call that an open object makes on its handle. -/
structure KVStore.Uses (kv : KVStore) (op : NvsOp) : Prop where
  started : kv.started = true
  target : op.target = some kv.handle
  stays : op ≠ .close kv.handle
  writable : op.Modifies → kv.readOnly = false

section Obeys

variable {kv : KVStore}

theorem KVStore.ledger_of_started (started : kv.started = true) :
    kv.ledger = [(kv.handle, kv.readOnly)] :=
  if_pos started

theorem KVStore.ledger_of_stopped (stopped : kv.started = false) : kv.ledger = [] := by
  simp [ledger, stopped]

/-- An object with no handle open may try to open one. -/
theorem Ledger.allows_alone {op : NvsOp} (free : op.target = none) (passive : ¬op.Modifies) :
    Ledger.Allows [] op where
  held h target := by cases free.symm.trans target
  writable modifies := absurd modifies passive
  alone _ := rfl

theorem KVStore.Uses.allowed {op : NvsOp} (uses : kv.Uses op) : Ledger.Allows kv.ledger op := by
  rw [KVStore.ledger_of_started uses.started]
  refine ⟨?_, ?_, ?_⟩
  · intro h target
    obtain rfl : kv.handle = h := Option.some.inj (uses.target.symm.trans target)
    exact ⟨kv.readOnly, List.mem_singleton_self _⟩
  · intro modifies h target member
    have mode : kv.readOnly = true := (Prod.mk.inj (List.mem_singleton.mp member)).2.symm
    cases (uses.writable modifies).symm.trans mode
  · intro free
    cases uses.target.symm.trans free

theorem KVStore.Uses.known {op : NvsOp} (uses : kv.Uses op) (r : op.Res) :
    Ledger.next kv.ledger ⟨op, r⟩ = kv.ledger := by
  have target := uses.target
  cases op with
  | close h => exact absurd (congrArg NvsOp.close (Option.some.inj target)) uses.stays
  | openNs _ _ => cases target
  | _ => rfl

/-- An object that only uses its handle stays as it is. -/
theorem obeys_of_uses {α : Type} {p : NvsProgram α} (uses : p.Issues kv.Uses) :
    access.Obeys kv.ledger (do let _ ← p; return kv) KVStore.ledger := by
  have still : access.Obeys kv.ledger p fun _ => kv.ledger :=
    .of_issues uses (fun _ used => used.allowed) fun _ r used => used.known r
  exact still.bind fun _ => .pure rfl

/-- A call that writes, behind the guard of the writers. -/
theorem KVStore.uses_writing {op : NvsOp} (guarded : (!kv.started || kv.readOnly) = false)
    (target : op.target = some kv.handle) (stays : op ≠ .close kv.handle) :
    (nvs op).Issues kv.Uses := by
  obtain ⟨started, writable⟩ : kv.started = true ∧ kv.readOnly = false := by simpa using guarded
  exact issues_issue.mpr ⟨started, target, stays, fun _ => writable⟩

/-- A call that reads, behind the guard of the readers. -/
theorem KVStore.uses_reading {op : NvsOp} (guarded : (!kv.started) = false)
    (target : op.target = some kv.handle) (stays : op ≠ .close kv.handle) (passive : ¬op.Modifies) :
    (nvs op).Issues kv.Uses :=
  issues_issue.mpr ⟨by simpa using guarded, target, stays, fun modifies => absurd modifies passive⟩

theorem KVStore.put_uses (key : String) (v : NvsValue) (size : Nat) :
    (kv.put key v size).Issues kv.Uses := by
  refine Issues.unless fun guarded => Issues.bind (uses_writing guarded rfl nofun) fun written => ?_
  split
  · exact issues_pure _
  · exact Issues.bind (uses_writing guarded rfl nofun) fun _ => issues_pure _

theorem Putter.call_uses (p : Putter) (key : String) : (p.call kv key).Issues kv.Uses := by
  rw [p.call_eq]
  cases p.stored with
  | some v => exact KVStore.put_uses key v p.count
  | none => exact issues_pure _

/-- An erasure behind the guard of the writers, and its commit. -/
theorem KVStore.erasure_uses {erase : NvsProgram Bool}
    (uses : (!kv.started || kv.readOnly) = false → erase.Issues kv.Uses) :
    (if (!kv.started || kv.readOnly) = true then pure false
      else erase >>= fun erased =>
        if (!erased) = true then pure false else nvs (.commit kv.handle)).Issues kv.Uses := by
  refine Issues.unless fun guarded => (uses guarded).bind fun erased => ?_
  split
  · exact issues_pure _
  · exact uses_writing guarded rfl nofun

theorem KVStore.clear_uses : kv.clear.Issues kv.Uses :=
  erasure_uses fun guarded => uses_writing guarded rfl nofun

theorem KVStore.remove_uses (key : String) : (kv.remove key).Issues kv.Uses :=
  erasure_uses fun guarded => uses_writing guarded rfl nofun

theorem KVStore.isKey_uses (key : String) : (kv.isKey key).Issues kv.Uses :=
  Issues.unless fun guarded => uses_reading guarded rfl nofun nofun

theorem KVStore.getScalar_uses (key : String) (ty : NvsType) (d : ty.Carrier) :
    (kv.getScalar key ty d).Issues kv.Uses :=
  Issues.unless fun guarded => Issues.bind (uses_reading guarded rfl nofun nofun) fun _ =>
    issues_pure _

theorem KVStore.getString_uses (key : String) (d : Bytes) :
    (kv.getString key d).Issues kv.Uses := by
  refine Issues.unless fun guarded =>
    Issues.bind (uses_reading guarded rfl nofun nofun) fun len => ?_
  cases len with
  | none => exact issues_pure _
  | some len =>
    refine Issues.bind (uses_reading guarded rfl nofun nofun) fun s => ?_
    cases s with
    | none => exact issues_pure _
    | some s => exact issues_pure _

theorem KVStore.getBytesLength_uses (key : String) : (kv.getBytesLength key).Issues kv.Uses :=
  Issues.unless fun guarded => Issues.bind (uses_reading guarded rfl nofun nofun) fun _ =>
  issues_pure _

theorem KVStore.getBytes_uses {n : Nat} (key : String) (buf : List.Vector UInt8 n) :
    (kv.getBytes key buf).Issues kv.Uses := by
  refine Issues.unless fun guarded => ?_
  have started : (!kv.started) = false := (Bool.or_eq_false_iff.mp guarded).1
  refine Issues.bind (uses_reading started rfl nofun nofun) fun b => ?_
  cases b with
  | none => exact issues_pure _
  | some b => exact issues_pure _

theorem Getter.call_uses (g : Getter) (key : String) (d : g.Carrier) :
    (g.call kv key d).Issues kv.Uses := by
  cases g with
  | char => exact KVStore.getScalar_uses key .i8 d
  | uChar => exact KVStore.getScalar_uses key .u8 d
  | short => exact KVStore.getScalar_uses key .i16 d
  | uShort => exact KVStore.getScalar_uses key .u16 d
  | int | long => exact KVStore.getScalar_uses key .i32 d
  | uInt | uLong => exact KVStore.getScalar_uses key .u32 d
  | long64 => exact KVStore.getScalar_uses key .i64 d
  | uLong64 => exact KVStore.getScalar_uses key .u64 d
  | float | double => exact (KVStore.getBytes_uses key d).bind fun _ => issues_pure _
  | bool => exact (KVStore.getScalar_uses key .u8 _).bind fun _ => issues_pure _
  | string => exact KVStore.getString_uses key d

theorem initialise_obeys : access.Obeys [] initialise fun _ => [] := by
  have init : access.Obeys [] (nvs .flashInit) fun _ => [] :=
    .issue (Ledger.allows_alone rfl nofun) fun _ => rfl
  have erase : access.Obeys [] (nvs .flashErase) fun _ => [] :=
    .issue (Ledger.allows_alone rfl nofun) fun _ => rfl
  refine init.bind fun err => ?_
  split
  · exact erase.bind fun _ => init
  · exact .pure rfl

/-- A namespace is opened, or the object stays without a handle. -/
theorem KVStore.openNamespace_obeys (stopped : kv.started = false) (name : String) :
    access.Obeys [] (kv.openNamespace name kv.readOnly) fun r => r.2.ledger := by
  have opened : access.Obeys [] (nvs (.openNs name kv.readOnly))
      fun r => (r.map fun h => (h, kv.readOnly)).toList := by
    refine .issue (Ledger.allows_alone rfl nofun) fun r => ?_
    cases r with
    | none => rfl
    | some handle => rfl
  refine opened.bind fun r => ?_
  cases r with
  | none => exact .pure (KVStore.ledger_of_stopped stopped).symm
  | some handle => exact .pure rfl

theorem KVStore.begin_obeys (kv : KVStore) (name : String) (readOnly : Bool) :
    access.Obeys kv.ledger (kv.begin name readOnly) fun r => r.2.ledger := by
  rw [begin_eq]
  cases started : kv.started with
  | true => exact .pure rfl
  | false =>
    rw [KVStore.ledger_of_stopped started, if_neg Bool.false_ne_true]
    refine initialise_obeys.bind fun err => ?_
    split
    · exact .pure rfl
    · exact @openNamespace_obeys ⟨kv.handle, false, readOnly⟩ rfl name

theorem KVStore.close_obeys (kv : KVStore) : access.Obeys kv.ledger kv.close KVStore.ledger := by
  cases started : kv.started with
  | false =>
    simp only [close, started, Bool.not_false, if_true]
    exact .pure rfl
  | true =>
    simp only [close, started, Bool.not_true, Bool.false_eq_true, if_false]
    rw [KVStore.ledger_of_started started]
    have closed : access.Obeys [(kv.handle, kv.readOnly)] (nvs (.close kv.handle)) fun _ => [] := by
      refine .issue ⟨?_, nofun, nofun⟩ fun _ => ?_
      · rintro h ⟨⟩
        exact ⟨kv.readOnly, List.mem_singleton_self _⟩
      · simp [access, Ledger.next]
    exact closed.bind fun _ => .pure rfl

theorem KVStore.close_stops (kv : KVStore) :
    kv.close.Ensures (fun _ => True) fun kv' _ => kv'.started = false := by
  cases started : kv.started with
  | false =>
    simp only [close, started, Bool.not_false, if_true]
    exact .pure started
  | true =>
    simp only [close, started, Bool.not_true, Bool.false_eq_true, if_false]
    exact .andThen fun _ _ => .pure rfl

/-- An object that was begun is open in the mode asked for. -/
theorem KVStore.begin_mode (kv : KVStore) (name : String) (readOnly : Bool) :
    (kv.begin name readOnly).Ensures (fun _ => True)
      fun r _ => r.1 = true → r.2.started = true ∧ r.2.readOnly = readOnly := by
  rw [begin_eq]
  cases kv.started with
  | true => exact .pure nofun
  | false =>
    rw [if_neg Bool.false_ne_true]
    refine .andThen fun err _ => ?_
    split
    · exact .pure nofun
    · refine .andThen fun r _ => ?_
      cases r with
      | none => exact .pure nofun
      | some handle => exact .pure fun _ => ⟨rfl, rfl⟩

/-- The calls that may open or close the object. -/
def Operation.Lifecycle : Operation → Prop
  | .begin _ _ | .close => True
  | _ => False

/-- All other calls only use the handle and leave the object as it is. -/
theorem Operation.call_uses (kv : KVStore) {op : Operation} (plain : ¬op.Lifecycle) :
    ∃ (α : Type) (p : NvsProgram α), p.Issues kv.Uses ∧ op.call kv = do let _ ← p; return kv := by
  cases op with
  | begin _ _ | close => exact absurd trivial plain
  | clear => exact ⟨_, _, KVStore.clear_uses, rfl⟩
  | remove key => exact ⟨_, _, KVStore.remove_uses key, rfl⟩
  | isKey key => exact ⟨_, _, KVStore.isKey_uses key, rfl⟩
  | put p key => exact ⟨_, _, p.call_uses key, rfl⟩
  | get g key d => exact ⟨_, _, g.call_uses key d, rfl⟩
  | getBytesLength key => exact ⟨_, _, KVStore.getBytesLength_uses key, rfl⟩
  | getBytes key n buf =>
    cases buf with
    | none => exact ⟨_, pure (), issues_pure _, rfl⟩
    | some buf => exact ⟨_, _, KVStore.getBytes_uses key buf, rfl⟩

theorem Operation.call_obeys (kv : KVStore) (op : Operation) :
    access.Obeys kv.ledger (op.call kv) KVStore.ledger := by
  have plainly (plain : ¬op.Lifecycle) : access.Obeys kv.ledger (op.call kv) KVStore.ledger := by
    obtain ⟨_, p, uses, same⟩ := op.call_uses kv plain
    rw [same]
    exact obeys_of_uses uses
  cases op with
  | begin name readOnly => exact (kv.begin_obeys name readOnly).bind fun _ => .pure rfl
  | close => exact kv.close_obeys
  | _ => exact plainly nofun

theorem KVStore.session_obeys (kv : KVStore) (ops : List Operation) :
    access.Obeys kv.ledger (kv.session ops) KVStore.ledger :=
  Monitor.Obeys.foldlM Operation.call_obeys ops kv

/-- Until it is closed, an open object only uses its handle, and stays as it is. -/
theorem KVStore.session_eq (started : kv.started = true) {ops : List Operation}
    (open' : ∀ op ∈ ops, op ≠ .close) :
    ∃ p : NvsProgram Unit, p.Issues kv.Uses ∧ kv.session ops = do p; return kv := by
  induction ops with
  | nil => exact ⟨pure (), issues_pure _, rfl⟩
  | cons op ops ih =>
    obtain ⟨rest, restUses, restEq⟩ := ih fun op member => open' op (List.mem_cons_of_mem _ member)
    obtain ⟨_, p, uses, same⟩ : ∃ (α : Type) (p : NvsProgram α), p.Issues kv.Uses ∧
        op.call kv = do let _ ← p; return kv := by
      by_cases lifecycle : op.Lifecycle
      · cases op with
        | begin name readOnly =>
          exact ⟨_, pure (), issues_pure _, by simp [Operation.call, begin, started]⟩
        | close => exact absurd rfl (open' _ List.mem_cons_self)
        | _ => exact absurd lifecycle nofun
      · exact op.call_uses _ lifecycle
    refine ⟨do let _ ← p; rest, Issues.bind uses fun _ => restUses, ?_⟩
    calc kv.session (op :: ops)
        = op.call kv >>= fun kv' => kv'.session ops := List.foldlM_cons
      _ = p >>= fun _ => kv.session ops := by rw [same, bind_assoc]; simp only [pure_bind]
      _ = (p >>= fun _ => rest) >>= fun _ => pure kv := by rw [restEq, bind_assoc]

theorem KVStore.session_uses (started : kv.started = true) {ops : List Operation}
    (open' : ∀ op ∈ ops, op ≠ .close) : (kv.session ops).Issues kv.Uses := by
  obtain ⟨p, uses, same⟩ := session_eq started open'
  rw [same]
  exact Issues.bind uses fun _ => issues_pure kv

end Obeys

/-- A namespace is opened only when no handle is open. -/
theorem Ledger.length_next {opened : Ledger} {e : NvsCall} (allowed : opened.Allows e.1)
    (one : opened.length ≤ 1) : (opened.next e).length ≤ 1 := by
  obtain ⟨op, r⟩ := e
  cases op with
  | openNs name readOnly =>
    obtain rfl : opened = [] := allowed.alone rfl
    cases r with
    | none => exact Nat.zero_le 1
    | some h => exact Nat.le_refl 1
  | close h => exact (List.length_eraseP_le).trans one
  | _ => exact one

/-- A handle that is open, and later is not, was closed; until then only it is used. -/
theorem Ledger.closed_once {h : NvsHandle} {readOnly : Bool} {es : List NvsCall}
    (accepted : access.Accepts [(h, readOnly)] es) (none : access.after [(h, readOnly)] es = []) :
    ∃ during rest, es = during ++ ⟨.close h, ()⟩ :: rest ∧
      ∀ e ∈ during, e.1.target = some h ∧ e.1 ≠ .close h := by
  induction es with
  | nil => cases none
  | cons e es ih =>
    obtain ⟨op, r⟩ := e
    obtain ⟨allowed, later⟩ := accepted
    have target : op.target = some h := by
      cases targeted : op.target with
      | none => cases allowed.alone targeted
      | some h' =>
        obtain ⟨_, member⟩ := allowed.held h' targeted
        rw [(Prod.mk.inj (List.mem_singleton.mp member)).1]
    by_cases closes : op = .close h
    · subst closes
      exact ⟨[], es, rfl, nofun⟩
    · have same : Ledger.next [(h, readOnly)] ⟨op, r⟩ = [(h, readOnly)] := by
        cases op with
        | close h' => exact absurd (congrArg NvsOp.close (Option.some.inj target)) closes
        | openNs _ _ => cases target
        | _ => rfl
      have step : access.next [(h, readOnly)] ⟨op, r⟩ = [(h, readOnly)] := same
      change access.after (access.next [(h, readOnly)] ⟨op, r⟩) es = [] at none
      rw [step] at later none
      obtain ⟨during, rest, split, kept⟩ := ih later none
      refine ⟨⟨op, r⟩ :: during, rest, by rw [split]; rfl, ?_⟩
      intro e member
      rcases List.mem_cons.mp member with rfl | inside
      · exact ⟨target, closes⟩
      · exact kept e inside

/-- Only an erasure of the storage and the calls that modify a namespace change the contents. -/
theorem Nvs.answer_contents {op : NvsOp} (erases : op ≠ .flashErase)
    (passive : ¬op.Modifies) (w : Nvs) :
    (answer op w).2.live = w.live ∧ (answer op w).2.durable = w.durable := by
  have performed : ∀ w : Nvs, (perform op w).2.live = w.live ∧
      (perform op w).2.durable = w.durable := by
    intro w
    cases op with
    | flashErase => exact absurd rfl erases
    | eraseAll _ | eraseKey _ _ | commit _ | set _ _ _ => exact absurd trivial passive
    | strLen h key | getStr h key len | blobLen h key | getBlob h key len =>
      simp only [perform]
      split <;> exact ⟨rfl, rfl⟩
    | _ => exact ⟨rfl, rfl⟩
  unfold answer
  split
  · exact performed w
  · exact performed _
  · exact ⟨rfl, rfl⟩

/-- The calls that use a handle leave all handles as they are. -/
theorem KVStore.Uses.handles {kv : KVStore} {op : NvsOp} (uses : kv.Uses op) (w : Nvs) :
    (Nvs.answer op w).2.handles = w.handles := by
  have performed : ∀ w : Nvs, (Nvs.perform op w).2.handles = w.handles := by
    intro w
    have target := uses.target
    cases op with
    | flashInit | flashErase | openNs _ _ => cases target
    | close h => exact absurd (congrArg NvsOp.close (Option.some.inj target)) uses.stays
    | findKey _ _ | getScalar _ _ _ => rfl
    | eraseKey _ _ =>
      simp only [Nvs.perform, Nvs.write]
      split
      · split <;> rfl
      · rfl
    | _ =>
      simp only [Nvs.perform, Nvs.write]
      split <;> rfl
  unfold Nvs.answer
  split
  · exact performed w
  · exact performed _
  · rfl

/-- Whatever the storage answers: an object is started exactly while it holds its handle open, which
is the only one. Every call is made on the open handle, and none that modifies on one opened
read-only. Every handle that is opened is closed once, by the destructor at the latest. Between a
successful `begin` in read-only mode and the end, no fault changes any namespace. -/
theorem access_discipline {ops : List Operation} {calls closing : List NvsCall}
    {kv destroyed : KVStore} (ran : (KVStore.session {} ops).Traces calls kv)
    (destructed : kv.close.Traces closing destroyed) :
    (kv.started = true ↔ ∃ readOnly, access.after [] calls = [(kv.handle, readOnly)]) ∧
    (kv.started = false ↔ access.after [] calls = []) ∧
    (∀ before e after, calls ++ closing = before ++ e :: after →
      (access.after [] before).Allows e.1 ∧ (access.after [] before).length ≤ 1) ∧
    (∀ before name readOnly h after, calls ++ closing = before ++
      ⟨.openNs name readOnly, some h⟩ :: after →
      ∃ during rest, after = during ++ ⟨.close h, ()⟩ :: rest ∧
        ∀ e ∈ during, e.1.target = some h ∧ e.1 ≠ .close h) ∧
    access.after [] (calls ++ closing) = [] ∧
    ∀ (w : Nvs) (name : String) (ops' : List Operation), (∀ op ∈ ops', op ≠ .close) →
      let begun := (kv.begin name true).run Nvs.answer w
      begun.1.1 = true →
        let later := ((begun.1.2.session ops').run Nvs.answer begun.2).2
        later.live = begun.2.live ∧ later.durable = begun.2.durable := by
  obtain ⟨accepted, known⟩ := KVStore.session_obeys {} ops calls kv ran
  obtain ⟨accepted', known'⟩ := kv.close_obeys closing destroyed destructed
  have fresh : KVStore.ledger {} = [] := rfl
  rw [fresh] at accepted known
  have whole : access.Accepts [] (calls ++ closing) := by
    rw [Monitor.accepts_append, known]
    exact ⟨accepted, accepted'⟩
  have ended : access.after [] (calls ++ closing) = [] := by
    rw [Monitor.after_append, known, known']
    exact KVStore.ledger_of_stopped (kv.close_stops closing destroyed destructed fun _ _ => trivial)
  refine ⟨?_, ?_, ?_, ?_, ended, ?_⟩
  · rw [known, KVStore.ledger]
    cases kv.started <;> simp
  · rw [known, KVStore.ledger]
    cases kv.started <;> simp
  · intro before e after split
    refine ⟨whole.allowed split, ?_⟩
    rw [split, Monitor.accepts_append] at whole
    exact whole.1.after (fun _ _ => Ledger.length_next) (Nat.zero_le 1)
  · intro before name readOnly h after split
    have alone : access.after [] before = [] := (whole.allowed split).alone rfl
    rw [split, Monitor.accepts_append, alone] at whole
    rw [split, Monitor.after_append, alone] at ended
    exact Ledger.closed_once whole.2.2 ended
  · intro w name ops' open' begun succeeded later
    obtain ⟨started, readOnly⟩ := kv.begin_mode name true _ _ (traces_run Nvs.answer _ w)
      (fun _ _ => trivial) succeeded
    refine (KVStore.session_uses started open').run
      (I := fun w' : Nvs => w'.live = begun.2.live ∧ w'.durable = begun.2.durable) ?_ ⟨rfl, rfl⟩
    intro op w' uses same
    have erases : op ≠ .flashErase := by
      rintro rfl
      cases uses.target
    have passive : ¬op.Modifies := fun modifies => by
      cases readOnly.symm.trans (uses.writable modifies)
    obtain ⟨live, durable⟩ := Nvs.answer_contents erases passive w'
    exact ⟨live.trans same.1, durable.trans same.2⟩

/-- A session in read-only mode, on an empty device whose second call fails. -/
theorem access_discipline_sample :
    let w : Nvs :=
      { live := fun _ _ => none, durable := fun _ _ => none, handles := fun _ => none
        opened := 0, init := .ok, faults := [false, true] }
    let session := KVStore.session {}
      [.begin "config" true, .begin "config" true, .put (.bool true) "polling",
        .get .bool "polling" false]
    let calls := session.trace Nvs.answer w
    let kv := (session.run Nvs.answer w).1
    (∃ readOnly, access.after [] calls = [(kv.handle, readOnly)]) ∧
      access.after [] (calls ++ kv.close.trace Nvs.answer w) = [] := by
  intro w session calls kv
  obtain ⟨started, -, -, -, ended, -⟩ :=
    access_discipline (traces_run Nvs.answer session w) (traces_run Nvs.answer kv.close w)
  exact ⟨started.mp rfl, ended⟩

end Stembot
