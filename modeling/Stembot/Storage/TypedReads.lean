import Stembot.Storage.Access
import Stembot.Storage.Discipline

/-!
# What a reader makes of an entry

An entry denotes a value to the readers of its own type, and nothing to the
others. A reader of floating-point numbers does not look at the length it read.
-/

namespace Stembot

open Library Program

/-- The bytes of an entry of exactly this size. -/
def NvsValue.asBlob (n : Nat) : NvsValue → Option (List.Vector UInt8 n)
  | .blob b => if h : b.length = n then some ⟨b, h⟩ else none
  | _ => none

def NvsValue.asString : NvsValue → Option Bytes
  | .str s => some s.1
  | _ => none

/-- What an entry denotes to a reader. -/
def Getter.denoted (e : Option NvsValue) : (g : Getter) → Option g.Carrier
  | .char => e.bind (NvsValue.asScalar .i8)
  | .uChar => e.bind (NvsValue.asScalar .u8)
  | .short => e.bind (NvsValue.asScalar .i16)
  | .uShort => e.bind (NvsValue.asScalar .u16)
  | .int | .long => e.bind (NvsValue.asScalar .i32)
  | .uInt | .uLong => e.bind (NvsValue.asScalar .u32)
  | .long64 => e.bind (NvsValue.asScalar .i64)
  | .uLong64 => e.bind (NvsValue.asScalar .u64)
  | .float => e.bind (NvsValue.asBlob 4)
  | .double => e.bind (NvsValue.asBlob 8)
  | .bool => (e.bind (NvsValue.asScalar .u8)).map (· != 0)
  | .string => e.bind NvsValue.asString

/-- The default or the value of the entry, and nothing else. -/
def Getter.TypeSafe (g : Getter) (e : Option NvsValue) (d r : g.Carrier) : Prop :=
  r = d ∨ g.denoted e = some r

/-- A blob that covers only a part of the buffer, and differs from what is there. -/
def PartialBlob {n : Nat} (e : Option NvsValue) (d : List.Vector UInt8 n) : Prop :=
  ∃ b, e = some (.blob b) ∧ b.length < n ∧ ¬b <+: d.toList

/-- The readers of floating-point numbers meet a blob that is too short for them. -/
def Getter.Short (e : Option NvsValue) : (g : Getter) → g.Carrier → Prop
  | .float, d => PartialBlob e d
  | .double, d => PartialBlob e d
  | _, _ => False

section Reads

variable {kv : KVStore} {w : Nvs} {name : String}

/-- A call's answer depends on the faults only in whether it fails. -/
theorem Nvs.answer_fst (op : NvsOp) (w : Nvs) :
    (answer op w).1 = if w.faults.head? = some true then op.refused else (perform op w).1 := by
  have blind : ∀ fs, (perform op { w with faults := fs }).1 = (perform op w).1 := by
    intro fs
    have same : ∀ h key, entry { w with faults := fs } h key = w.entry h key := fun _ _ => rfl
    cases op with
    | eraseAll _ | set _ _ _ | commit _ | strLen _ _ | getStr _ _ _ | blobLen _ _ | getBlob _ _ _ =>
      simp only [perform, write, same]
      split <;> rfl
    | eraseKey _ _ =>
      simp only [perform, write, same]
      split
      · split <;> rfl
      · rfl
    | _ => rfl
  unfold answer
  split
  · rename_i none
    simp [none]
  · rename_i fs some
    simp [some, blind]
  · rename_i fs some
    simp [some]

/-- The object holds an open handle to the namespace; calls may fail. -/
structure Nvs.Opens (w : Nvs) (kv : KVStore) (name : String) : Prop where
  started : kv.started = true
  handle : w.handles kv.handle = some (name, kv.readOnly)

theorem KVStore.getScalar_safe (o : w.Opens kv name) (key : String)
    (ty : NvsType) (d : ty.Carrier) :
    let r := ((kv.getScalar key ty d).run Nvs.answer w).1
    r = d ∨ (w.live name key).bind (NvsValue.asScalar ty) = some r := by
  have value : ((kv.getScalar key ty d).run Nvs.answer w).1 =
      (Nvs.answer (.getScalar kv.handle key ty) w).1.getD d := by
    simp [getScalar, o.started]
  have read : (Nvs.perform (.getScalar kv.handle key ty) w).1 =
      (w.live name key).bind (NvsValue.asScalar ty) := by
    simp [Nvs.perform, Nvs.entry, o.handle]
  intro r
  simp only [r, value, Nvs.answer_fst, read]
  split
  · exact .inl rfl
  · cases (w.live name key).bind (NvsValue.asScalar ty) with
    | none => exact .inl rfl
    | some v => exact .inr rfl

/-- A call on the handle that only reads leaves the object open on the same entries. -/
theorem Nvs.Opens.reads (o : w.Opens kv name) (op : NvsOp) (target : op.target = some kv.handle)
    (stays : op ≠ .close kv.handle) (passive : ¬op.Modifies) :
    (answer op w).2.Opens kv name ∧ (answer op w).2.live = w.live := by
  have uses : kv.Uses op := ⟨o.started, target, stays, fun modifies => absurd modifies passive⟩
  have erases : op ≠ .flashErase := by
    rintro rfl
    cases target
  exact ⟨⟨o.started, (congrFun (uses.handles w) kv.handle).trans o.handle⟩,
    (answer_contents erases passive w).1⟩

theorem KVStore.getString_safe (o : w.Opens kv name) (key : String) (d : Bytes) :
    let r := ((kv.getString key d).run Nvs.answer w).1
    r = d ∨ (w.live name key).bind NvsValue.asString = some r := by
  intro r
  obtain ⟨o', same⟩ := o.reads (.strLen kv.handle key) rfl nofun nofun
  simp only [r, getString, o.started, Bool.not_true, Bool.false_eq_true, if_false, Program.run_bind,
    Program.run_issue]
  have unmeasured (none' : (Nvs.perform (.strLen kv.handle key) w).1 = none) :
      (Nvs.answer (.strLen kv.handle key) w).1 = none := by
    rw [Nvs.answer_fst, none']
    split <;> rfl
  cases entry : w.live name key with
  | none =>
    rw [unmeasured (by simp [Nvs.perform, Nvs.entry, o.handle, entry])]
    exact .inl rfl
  | some v =>
    cases v with
    | str s =>
      have measured : (Nvs.perform (.strLen kv.handle key) w).1 = some (s.1.length + 1) := by
        simp [Nvs.perform, Nvs.entry, o.handle, entry]
      have read : ∀ w' : Nvs, w'.Opens kv name → w'.live = w.live →
          (Nvs.perform (.getStr kv.handle key (s.1.length + 1)) w').1 = some (s.1 ++ [0]) := by
        intro w' o' same
        simp [Nvs.perform, Nvs.entry, o'.handle, same, entry]
      by_cases fault : w.faults.head? = some true
      · rw [Nvs.answer_fst, if_pos fault]
        exact .inl rfl
      · rw [Nvs.answer_fst, if_neg fault, measured]
        simp only [Program.run_bind, Program.run_issue]
        by_cases fault' : (Nvs.answer (.strLen kv.handle key) w).2.faults.head? = some true
        · rw [Nvs.answer_fst, if_pos fault']
          exact .inl rfl
        · rw [Nvs.answer_fst, if_neg fault', read _ o' same]
          simp [stripTerminator_append_zero, NvsValue.asString]
    | scalar _ _ | blob _ =>
      rw [unmeasured (by simp [Nvs.perform, Nvs.entry, o.handle, entry])]
      exact .inl rfl

/-- A blob is read whole, or not at all. -/
theorem KVStore.getBytes_fst (o : w.Opens kv name) {n : Nat} (hn : n ≠ 0) (key : String)
    (buf : List.Vector UInt8 n) : ((kv.getBytes key buf).run Nvs.answer w).1 =
      if w.faults.head? = some true then (0, buf) else Entries.bytes (w.live name key) buf := by
  simp only [getBytes, o.started, Bool.not_true, Bool.false_or, decide_eq_true_eq, if_neg hn,
    Program.run_bind, Program.run_issue, Nvs.answer_fst]
  by_cases fault : w.faults.head? = some true
  · simp [fault, NvsOp.refused]
  · simp only [fault, if_false, Nvs.perform, Nvs.entry, o.handle, Option.bind_some]
    cases w.live name key with
    | none => rfl
    | some v =>
      cases v with
      | blob b => by_cases fits : b.length ≤ n <;> simp [Entries.bytes, fits]
      | scalar _ _ | str _ => rfl

/-- A blob in a buffer is the buffer as it was, or the blob, unless it is too short. -/
theorem bytes_safe_iff {n : Nat} (e : Option NvsValue) (d : List.Vector UInt8 n) :
    (Entries.bytes e d).2 = d ∨ e.bind (NvsValue.asBlob n) = some (Entries.bytes e d).2 ↔
      ¬PartialBlob e d := by
  cases e with
  | none => exact ⟨fun _ => nofun, fun _ => .inl rfl⟩
  | some v =>
    cases v with
    | scalar _ _ | str _ => exact ⟨fun _ => nofun, fun _ => .inl rfl⟩
    | blob b =>
      have partially : PartialBlob (some (.blob b)) d ↔ b.length < n ∧ ¬b <+: d.toList := by
        constructor
        · rintro ⟨_, ⟨⟩, short, differs⟩
          exact ⟨short, differs⟩
        · rintro ⟨short, differs⟩
          exact ⟨b, rfl, short, differs⟩
      rw [partially]
      rcases Nat.lt_trichotomy b.length n with short | exactly | long
      · have denotes : (some (NvsValue.blob b)).bind (NvsValue.asBlob n) = none := dif_neg short.ne
        have read : (Entries.bytes (some (.blob b)) d).2 = overwrite d b := by
          simp [Entries.bytes, short.le]
        rw [denotes, read, overwrite_eq_self_iff short.le]
        simp [short]
      · have denotes : (some (NvsValue.blob b)).bind (NvsValue.asBlob n) = some ⟨b, exactly⟩ :=
          dif_pos exactly
        have read : (Entries.bytes (some (.blob b)) d).2 = ⟨b, exactly⟩ := by
          simp only [Entries.bytes, exactly.le, if_true]
          exact overwrite_full d exactly
        rw [denotes, read]
        simp [exactly]
      · have read : (Entries.bytes (some (.blob b)) d).2 = d := by
          simp [Entries.bytes, Nat.not_le.mpr long]
        rw [read]
        simp [Nat.not_lt.mpr long.le]

/-- A reader on an open object is safe if its call fails, or unless it meets a blob that
is too short. -/
theorem Getter.call_safe_iff (o : w.Opens kv name) (g : Getter) (key : String) (d : g.Carrier) :
    g.TypeSafe (w.live name key) d ((g.call kv key d).run Nvs.answer w).1 ↔
      (w.faults.head? = some true ∨ ¬g.Short (w.live name key) d) := by
  have blobs {n : Nat} (hn : n ≠ 0) (d : List.Vector UInt8 n) :
      ((((kv.getBytes key d).run Nvs.answer w).1.2 = d ∨
          (w.live name key).bind (NvsValue.asBlob n) =
          some ((kv.getBytes key d).run Nvs.answer w).1.2)) ↔
        (w.faults.head? = some true ∨ ¬PartialBlob (w.live name key) d) := by
    rw [KVStore.getBytes_fst o hn]
    by_cases fault : w.faults.head? = some true
    · simp [fault]
    · simpa [fault] using bytes_safe_iff (w.live name key) d
  cases g with
  | char => exact iff_of_true (KVStore.getScalar_safe o key .i8 d) (.inr id)
  | uChar => exact iff_of_true (KVStore.getScalar_safe o key .u8 d) (.inr id)
  | short => exact iff_of_true (KVStore.getScalar_safe o key .i16 d) (.inr id)
  | uShort => exact iff_of_true (KVStore.getScalar_safe o key .u16 d) (.inr id)
  | int | long => exact iff_of_true (KVStore.getScalar_safe o key .i32 d) (.inr id)
  | uInt | uLong => exact iff_of_true (KVStore.getScalar_safe o key .u32 d) (.inr id)
  | long64 => exact iff_of_true (KVStore.getScalar_safe o key .i64 d) (.inr id)
  | uLong64 => exact iff_of_true (KVStore.getScalar_safe o key .u64 d) (.inr id)
  | float =>
    have value : ((Getter.float.call kv key d).run Nvs.answer w).1 =
        ((kv.getBytes key d).run Nvs.answer w).1.2 := by
      simp [call, KVStore.getFloat]
    rw [value]
    exact blobs (by decide) d
  | double =>
    have value : ((Getter.double.call kv key d).run Nvs.answer w).1 =
        ((kv.getBytes key d).run Nvs.answer w).1.2 := by
      simp [call, KVStore.getDouble]
    rw [value]
    exact blobs (by decide) d
  | bool =>
    refine iff_of_true ?_ (.inr id)
    have value : ((Getter.bool.call kv key d).run Nvs.answer w).1 =
        (((kv.getUChar key (if d then 1 else 0)).run Nvs.answer w).1 != 0) := by
      simp [call, KVStore.getBool]
    rw [value]
    rcases KVStore.getScalar_safe o key .u8 (if d then 1 else 0) with default | denoted
    · refine .inl ?_
      rw [KVStore.getUChar, default]
      cases d <;> rfl
    · refine .inr ?_
      change Option.map _ _ = _
      rw [denoted]
      rfl
  | string => exact iff_of_true (KVStore.getString_safe o key d) (.inr id)

/-- The length of a blob, or zero. -/
theorem KVStore.getBytesLength_safe (o : w.Opens kv name) (key : String) :
    let r := ((kv.getBytesLength key).run Nvs.answer w).1
    r = 0 ∨ ∃ b, w.live name key = some (.blob b) ∧ r = b.length := by
  simp only [getBytesLength, o.started, Bool.not_true, Bool.false_eq_true,
    if_false, Program.run_bind, Program.run_issue, Program.run_pure, Nvs.answer_fst]
  split
  · exact .inl rfl
  · simp only [Nvs.perform, Nvs.entry, o.handle, Option.bind_some]
    split
    · exact .inr ⟨_, ‹_›, rfl⟩
    · exact .inl rfl

/-- Nothing, or a blob that fits; what is behind it in the buffer stays. -/
theorem KVStore.getBytes_safe (o : w.Opens kv name) (key : String) {n : Nat}
    (buf : List.Vector UInt8 n) :
    let r := ((kv.getBytes key buf).run Nvs.answer w).1
    r = (0, buf) ∨ ∃ b, w.live name key = some (.blob b) ∧ b.length ≤ n ∧
        r = (b.length, overwrite buf b) := by
  rcases Nat.eq_zero_or_pos n with rfl | pos
  · exact .inl (by simp [getBytes])
  · rw [getBytes_fst o pos.ne']
    split
    · exact .inl rfl
    · cases w.live name key with
      | none => exact .inl rfl
      | some v =>
        cases v with
        | blob b =>
          by_cases fits : b.length ≤ n
          · exact .inr ⟨b, rfl, fits, by simp [Entries.bytes, fits]⟩
          · exact .inl (by simp [Entries.bytes, fits])
        | scalar _ _ | str _ => exact .inl rfl

/-- An open object stays open on its namespace until it is closed. -/
theorem Nvs.Opens.session (o : w.Opens kv name) {ops : List Operation}
    (open' : ∀ op ∈ ops, op ≠ .close) :
    ((kv.session ops).run answer w).1 = kv ∧ ((kv.session ops).run answer w).2.Opens kv name := by
  obtain ⟨p, uses, same⟩ := KVStore.session_eq o.started open'
  have handles : (p.run answer w).2.handles = w.handles :=
    uses.run (I := fun w' => w'.handles = w.handles) (fun _ w' used kept =>
      (used.handles w').trans kept) rfl
  rw [same, Program.run_bind]
  exact ⟨rfl, o.started, (congrFun handles kv.handle).trans o.handle⟩

end Reads

/-- After any calls to an open object, with any faults, each reader returns the default or the value
of the entry, except the readers of floating-point numbers on a blob that is too short for them and
differs from the default where they overlap. Bytes are read whole or not at all. -/
theorem typed_reads_iff {w : Nvs} {kv : KVStore} {name : String} (o : w.Opens kv name)
    {ops : List Operation} (open' : ∀ op ∈ ops, op ≠ .close) :
    let after := (kv.session ops).run Nvs.answer w
    (∀ (g : Getter) key d, g.TypeSafe (after.2.live name key) d
      ((g.call after.1 key d).run Nvs.answer after.2).1 ↔
      (after.2.faults.head? = some true ∨ ¬g.Short (after.2.live name key) d)) ∧
    (∀ key, let r := ((after.1.getBytesLength key).run Nvs.answer after.2).1
      r = 0 ∨ ∃ b, after.2.live name key = some (.blob b) ∧ r = b.length) ∧
    ∀ key n (buf : List.Vector UInt8 n),
      let r := ((after.1.getBytes key buf).run Nvs.answer after.2).1
      r = (0, buf) ∨
        ∃ b, after.2.live name key = some (.blob b) ∧ b.length ≤ n ∧
        r = (b.length, overwrite buf b) := by
  intro after
  obtain ⟨same, o'⟩ := o.session open'
  rw [show after.1 = kv from same]
  exact ⟨fun g : Getter => g.call_safe_iff o', KVStore.getBytesLength_safe o', fun key _ =>
    KVStore.getBytes_safe o' key⟩

/-- An open store on an empty namespace. -/
def sampleStore : KVStore × Nvs :=
  ({ handle := 1, started := true },
    { live := fun _ _ => none, durable := fun _ _ => none, opened := 1, init := .ok, faults := []
      handles := fun h => if h = 1 then some ("app", false) else none })

/-- What this reader makes of what these operations leave. -/
def sampleRead (ops : List Operation) (g : Getter) (key : String) (d : g.Carrier) :
    Option NvsValue × g.Carrier :=
  let after := (sampleStore.1.session ops).run Nvs.answer sampleStore.2
  (after.2.live "app" key, ((g.call after.1 key d).run Nvs.answer after.2).1)

/-- The sample store after a short integer was put. -/
theorem typed_reads_iff_sample :
    let read := sampleRead [.put (.short 7) "k"] .int "k" 5
    Getter.int.TypeSafe read.1 5 read.2 := by
  have opened : sampleStore.2.Opens sampleStore.1 "app" := ⟨rfl, rfl⟩
  have open' : ∀ op ∈ [Operation.put (.short 7) "k"], op ≠ .close := by simp
  obtain ⟨safe, -⟩ := typed_reads_iff opened open'
  exact (safe .int "k" 5).mpr (.inr id)

/-- Two bytes are stored, and `1.0F` is the default: the number read has its lower half from the
entry and its upper half from the default. -/
theorem short_blob_is_torn :
    let d : Getter.float.Carrier := ⟨[0x00, 0x00, 0x80, 0x3f], rfl⟩
    let read := sampleRead [.put (.bytes (some [0x01, 0x02])) "k"] .float "k" d
    read.2.toList = [0x01, 0x02, 0x80, 0x3f] ∧ ¬Getter.float.TypeSafe read.1 d read.2 := by
  intro d read
  have value : read.2.toList = [0x01, 0x02, 0x80, 0x3f] := by decide
  refine ⟨value, ?_⟩
  rintro (default | denoted)
  · rw [default] at value
    exact absurd value (by decide)
  · cases denoted

end Stembot
