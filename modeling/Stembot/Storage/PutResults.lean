import Stembot.Storage.TypedReads

/-!
# What a writer's result tells

A count of bytes says that a value was written, and zero that none was. A writer
looks at the result of the write only, and not at that of the commit.
-/

namespace Stembot

open Library Program

/-- The reader that belongs to a writer, with the value given to the writer; bytes have one
of their own. -/
def Putter.matching : Putter → Option ((g : Getter) × g.Carrier)
  | .char v => some ⟨.char, v⟩
  | .uChar v => some ⟨.uChar, v⟩
  | .short v => some ⟨.short, v⟩
  | .uShort v => some ⟨.uShort, v⟩
  | .int v => some ⟨.int, v⟩
  | .uInt v => some ⟨.uInt, v⟩
  | .long v => some ⟨.long, v⟩
  | .uLong v => some ⟨.uLong, v⟩
  | .long64 v => some ⟨.long64, v⟩
  | .uLong64 v => some ⟨.uLong64, v⟩
  | .float v => some ⟨.float, v⟩
  | .double v => some ⟨.double, v⟩
  | .bool v => some ⟨.bool, v⟩
  | .string v => v.map fun s => ⟨.string, s.1⟩
  | .stdString v => some ⟨.string, v⟩
  | .bytes _ => none

/-- The matching reader returns the writer's value, whatever the default is, and into any buffer
that has room for it. -/
def Putter.ReadBack (p : Putter) (kv : KVStore) (key : String) (w : Nvs) : Prop :=
  match p with
  | .bytes v => ∃ b, v = some b ∧ ∀ n (buf : List.Vector UInt8 n), b.length ≤ n →
      ((kv.getBytes key buf).run Nvs.answer w).1 = (b.length, overwrite buf b)
  | p => ∃ r, p.matching = some r ∧ ∀ d, ((r.1.call kv key d).run Nvs.answer w).1 = r.2

/-- The entry denotes the writer's value. -/
def Putter.Denoted (p : Putter) (e : Option NvsValue) : Prop :=
  match p with
  | .bytes v => ∃ b, v = some b ∧ e = some (.blob b)
  | p => ∃ r, p.matching = some r ∧ r.1.denoted e = some r.2

/-- Among the calls to come, the one with this number fails. -/
def Nvs.Fails (w : Nvs) (n : Nat) : Prop := w.faults[n]? = some true

/-- The device as it is when no call fails any more. -/
def Nvs.healthy (w : Nvs) : Nvs := { w with faults := [] }

/-- The matching reader returns the value on a store that is opened after any reset of
the device. -/
def Putter.Survives (p : Putter) (name key : String) (w : Nvs) : Prop :=
  ∀ w', w.Boots w' → ∀ readOnly,
    let ((_, kv), w'') := (({} : KVStore).begin name readOnly).run Nvs.answer w'
    p.ReadBack kv key w''

/-- The results of a writer are true: a count says that the value can be read, now and after a
reset, and zero that the entry is as it was. -/
structure Putter.Truthful (p : Putter) (kv : KVStore) (key : String) (w : Nvs) : Prop where
  counted : ((p.call kv key).run Nvs.answer w).1 ≠ 0 →
    let after := ((p.call kv key).run Nvs.answer w).2
    p.ReadBack kv key after.healthy ∧
      ∀ name mode, w.handles kv.handle = some (name, mode) → p.Survives name key after
  zero : ((p.call kv key).run Nvs.answer w).1 = 0 →
    let after := ((p.call kv key).run Nvs.answer w).2
    ∀ name mode, w.handles kv.handle = some (name, mode) →
      after.live name key = w.live name key ∧ after.durable name key = w.durable name key

/-- The object may write to the namespace, and its next write does not fail. -/
structure Nvs.Writes (w : Nvs) (kv : KVStore) (name : String) : Prop where
  started : kv.started = true
  writable : kv.readOnly = false
  handle : w.handles kv.handle = some (name, false)
  succeeds : ¬w.Fails 0

def emptyString : NvsValue := .str (terminated [])

/-- Nothing of the value is cut off by a zero byte in it. -/
def Putter.Complete : Putter → Prop
  | .stdString v => 0 ∉ v
  | _ => True

/-- If the writer writes: a value other than the empty string is complete, and committed unless the
entry that is durable denotes it already; and the empty string is what the entry was before. -/
structure Putter.Sound (p : Putter) (kv : KVStore) (key : String) (w : Nvs) : Prop where
  full : ∀ name x, w.Writes kv name → p.stored = some x → x ≠ emptyString →
    p.Complete ∧ (w.Fails 1 → p.Denoted (w.durable name key))
  empty : ∀ name, w.Writes kv name → p.stored = some emptyString →
    w.live name key = some emptyString ∧ (¬w.Fails 1 → w.durable name key = some emptyString)

section Put

variable {w : Nvs} {kv : KVStore} {name key : String} {x : NvsValue} {size : Nat}

/-- The device after its next answer has been decided. -/
def Nvs.next (w : Nvs) : Nvs := { w with faults := w.faults.tail }

theorem Nvs.answer_of_fails {op : NvsOp} (fails : w.Fails 0) :
    answer op w = (op.refused, w.next) := by
  obtain ⟨live, durable, handles, opened, init, faults⟩ := w
  cases faults with
  | nil => cases fails
  | cons fault faults =>
    obtain rfl : fault = true := Option.some.inj fails
    rfl

theorem Nvs.answer_of_succeeds {op : NvsOp} (succeeds : ¬w.Fails 0) :
    answer op w = perform op w.next := by
  obtain ⟨live, durable, handles, opened, init, faults⟩ := w
  cases faults with
  | nil => rfl
  | cons fault faults =>
    cases fault with
    | true => exact absurd rfl succeeds
    | false => rfl

theorem Nvs.next_fails (n : Nat) : w.next.Fails n ↔ w.Fails (n + 1) := by
  simp [Fails, next, List.getElem?_tail]

/-- A writer that may write does, and its value is durable if the commit succeeds. -/
theorem put_writes (writes : w.Writes kv name) (key : String) (size : Nat) :
    ∃ after, (kv.put key x size).run Nvs.answer w = (size, after) ∧
    after.live = Function.update w.live name (Function.update (w.live name) key (some x)) ∧
    after.handles = w.handles ∧ (w.Fails 1 → after.durable = w.durable) ∧
    (¬w.Fails 1 → after.durable = after.live) := by
  let written : Nvs :=
    { w.next with live := Function.update w.live name (Function.update (w.live name) key (some x)) }
  have set : Nvs.answer (.set kv.handle key x) w = (true, written) := by
    rw [Nvs.answer_of_succeeds writes.succeeds]
    simp [Nvs.perform, Nvs.write, Nvs.next, writes.handle, written]
  have run : (kv.put key x size).run Nvs.answer w =
      (size, (Nvs.answer (.commit kv.handle) written).2) := by
    simp [KVStore.put, writes.started, writes.writable, set]
  have fails : written.Fails 0 ↔ w.Fails 1 := Nvs.next_fails 0
  refine ⟨_, run, ?_⟩
  by_cases lost : w.Fails 1
  · rw [Nvs.answer_of_fails (fails.mpr lost)]
    exact ⟨rfl, rfl, fun _ => rfl, fun kept => absurd lost kept⟩
  · have committed :
        Nvs.answer (.commit kv.handle) written =
        (true, { written.next with durable := written.live }) := by
      rw [Nvs.answer_of_succeeds (fails.not.mpr lost)]
      simp [Nvs.perform, Nvs.next, written, writes.handle]
    rw [committed]
    exact ⟨rfl, rfl, fun kept => absurd kept lost, fun _ => rfl⟩

/-- A writer that may not write, or whose write fails, changes nothing. -/
theorem put_refused (refused : ∀ name, ¬w.Writes kv name) : ∃ after,
    (kv.put key x size).run Nvs.answer w = (0, after) ∧ after.live = w.live ∧
      after.durable = w.durable := by
  cases guarded : !kv.started || kv.readOnly with
  | true => exact ⟨w, by simp [KVStore.put, guarded], rfl, rfl⟩
  | false =>
    obtain ⟨started, writable⟩ : kv.started = true ∧ kv.readOnly = false := by simpa using guarded
    have set : Nvs.answer (.set kv.handle key x) w = (false, w.next) := by
      by_cases fails : w.Fails 0
      · exact Nvs.answer_of_fails fails
      · rw [Nvs.answer_of_succeeds fails]
        simp only [Nvs.perform, Nvs.write, Nvs.next]
        cases handle : w.handles kv.handle with
        | none => rfl
        | some opened =>
          obtain ⟨name, mode⟩ := opened
          cases mode with
          | true => rfl
          | false => exact absurd ⟨started, writable, handle, fails⟩ (refused name)
    exact ⟨w.next, by simp [KVStore.put, guarded, set], rfl, rfl⟩

end Put

section Read

variable {w : Nvs} {kv : KVStore} {name : String}

instance NvsType.nontrivial (ty : NvsType) : Nontrivial ty.Carrier := by
  cases ty <;> exact ⟨0, 1, by decide⟩

/-- An absent value shows in some default. -/
theorem getD_all_iff {α : Type} [Nontrivial α] {o : Option α} {v : α} :
    (∀ d, o.getD d = v) ↔ o = some v := by
  constructor
  · intro always
    cases o with
    | none =>
      obtain ⟨d, differs⟩ := exists_ne v
      exact absurd (always d) differs
    | some u => exact congrArg some (always v)
  · intro same d
    rw [same, Option.getD_some]

theorem scalar_all_iff (s : w.Serves kv name) (key : String) (ty : NvsType) (v : ty.Carrier) :
    (∀ d, ((kv.getScalar key ty d).run Nvs.answer w).1 = v) ↔
      (w.live name key).bind (NvsValue.asScalar ty) = some v := by
  simp only [KVStore.getScalar_run s]
  exact getD_all_iff

theorem bool_all_iff (s : w.Serves kv name) (key : String) (v : Bool) :
    (∀ d, ((kv.getBool key d).run Nvs.answer w).1 = v) ↔
      ((w.live name key).bind (NvsValue.asScalar .u8)).map (· != 0) = some v := by
  have mapped : ∀ d, Entries.bool (w.live name key) d =
      (((w.live name key).bind (NvsValue.asScalar .u8)).map (· != 0)).getD d := by
    intro d
    unfold Entries.bool Entries.scalar
    cases (w.live name key).bind (NvsValue.asScalar .u8) with
    | none => cases d <;> rfl
    | some u => rfl
  simp only [KVStore.getBool_run s, mapped]
  exact getD_all_iff

theorem string_all_iff (s : w.Serves kv name) (key : String) (v : Bytes) :
    (∀ d, ((kv.getString key d).run Nvs.answer w).1 = v) ↔
      (w.live name key).bind NvsValue.asString = some v := by
  have mapped : ∀ d, Entries.string (w.live name key) d =
      ((w.live name key).bind NvsValue.asString).getD d := by
    intro d
    match w.live name key with
    | none => rfl
    | some (.str _) => rfl
    | some (.scalar _ _) => rfl
    | some (.blob _) => rfl
  have : Nontrivial Bytes := ⟨[], [0], by simp⟩
  simp only [KVStore.getString_run s, mapped]
  exact getD_all_iff

theorem map_add_one_ne {l : Bytes} (h : l ≠ []) : l.map (· + 1) ≠ l := by
  obtain ⟨b, l, rfl⟩ := List.exists_cons_of_ne_nil h
  intro same
  have head : b + 1 = b := (List.cons.inj same).1
  simp at head

/-- What a blob that is too short leaves of the default shows in some default. -/
theorem blob_all_iff (s : w.Serves kv name) (key : String) {n : Nat} (pos : n ≠ 0)
    (v : List.Vector UInt8 n) :
    (∀ d, ((kv.getBytes key d).run Nvs.answer w).1.2 = v) ↔
      (w.live name key).bind (NvsValue.asBlob n) = some v := by
  simp only [KVStore.getBytes_run s pos]
  let other : List.Vector UInt8 n := v.map (· + 1)
  have shown : ∀ k < n, other.toList.drop k ≠ v.toList.drop k := by
    intro k small
    rw [List.Vector.toList_map, ← List.map_drop]
    refine map_add_one_ne (List.ne_nil_of_length_pos ?_)
    rw [List.length_drop, v.toList_length]
    omega
  have default : other ≠ v := fun same => shown 0 (Nat.pos_of_ne_zero pos) (by rw [same])
  have absent : ¬(none : Option (List.Vector UInt8 n)) = some v := (Option.some_ne_none v).symm
  rcases w.live name key with _ | _ | _ | b
  · exact iff_of_false (fun always => default (always other)) absent
  · exact iff_of_false (fun always => default (always other)) absent
  · exact iff_of_false (fun always => default (always other)) absent
  · rcases Nat.lt_trichotomy b.length n with short | exactly | long
    · have denotes : (some (NvsValue.blob b)).bind (NvsValue.asBlob n) = none := dif_neg short.ne
      have read : (Entries.bytes (some (.blob b)) other).2 = overwrite other b := by
        simp [Entries.bytes, short.le]
      rw [denotes]
      refine iff_of_false (fun always => shown b.length short ?_) absent
      have behind : (overwrite other b).toList.drop b.length = other.toList.drop b.length := by
        change (b.take n ++ other.toList.drop b.length).drop b.length = _
        rw [List.take_of_length_le short.le, List.drop_left]
      rw [← behind, ← read, always]
    · have denotes : (some (NvsValue.blob b)).bind (NvsValue.asBlob n) = some ⟨b, exactly⟩ :=
        dif_pos exactly
      have read : ∀ d : List.Vector UInt8 n,
          (Entries.bytes (some (.blob b)) d).2 = ⟨b, exactly⟩ := by
        intro d
        simp only [Entries.bytes, exactly.le, if_true]
        exact overwrite_full d exactly
      simp only [denotes, read]
      exact ⟨fun always => congrArg some (always v), fun same _ => Option.some.inj same⟩
    · have denotes : (some (NvsValue.blob b)).bind (NvsValue.asBlob n) = none := dif_neg long.ne'
      have read : (Entries.bytes (some (.blob b)) other).2 = other := by
        simp [Entries.bytes, Nat.not_le.mpr long]
      rw [denotes]
      exact iff_of_false (fun always => default (read.symm.trans (always other))) absent

/-- Bytes come out of an entry into every buffer with room for them if it holds just these bytes. -/
theorem bytes_all_iff (s : w.Serves kv name) (key : String) {b : Bytes} (full : b.length ≠ 0) :
    (∀ n (buf : List.Vector UInt8 n), b.length ≤ n →
      ((kv.getBytes key buf).run Nvs.answer w).1 = (b.length, overwrite buf b)) ↔
      w.live name key = some (.blob b) := by
  constructor
  · intro always
    have read := always b.length (.replicate b.length 0) le_rfl
    rw [KVStore.getBytes_run s full] at read
    match entry : w.live name key with
    | none | some (.str _) | some (.scalar _ _) =>
      rw [entry] at read
      exact absurd (congrArg Prod.fst read).symm full
    | some (.blob b') =>
      rw [entry] at read
      by_cases fits : b'.length ≤ b.length
      · simp only [Entries.bytes, fits, if_true, Prod.mk.injEq] at read
        obtain ⟨size, copied⟩ := read
        rw [overwrite_full _ size, overwrite_full _ rfl] at copied
        rw [show b' = b from congrArg Subtype.val copied]
      · simp only [Entries.bytes, fits, if_false] at read
        exact absurd (congrArg Prod.fst read).symm full
  · intro holds n buf fits
    rw [KVStore.getBytes_run s (by omega), holds]
    simp [Entries.bytes, fits]

/-- A reader returns a value whatever its default is if the entry denotes it to that reader. -/
theorem Getter.call_all_iff (s : w.Serves kv name) (g : Getter) (key : String) (v : g.Carrier) :
    (∀ d, ((g.call kv key d).run Nvs.answer w).1 = v) ↔ g.denoted (w.live name key) = some v := by
  cases g with
  | char => exact scalar_all_iff s key .i8 v
  | uChar => exact scalar_all_iff s key .u8 v
  | short => exact scalar_all_iff s key .i16 v
  | uShort => exact scalar_all_iff s key .u16 v
  | int | long => exact scalar_all_iff s key .i32 v
  | uInt | uLong => exact scalar_all_iff s key .u32 v
  | long64 => exact scalar_all_iff s key .i64 v
  | uLong64 => exact scalar_all_iff s key .u64 v
  | float =>
    have read : ∀ d, ((Getter.float.call kv key d).run Nvs.answer w).1 =
        ((kv.getBytes key d).run Nvs.answer w).1.2 := by
      intro d
      simp [Getter.call, KVStore.getFloat]
    simp only [read]
    exact blob_all_iff s key (by decide) v
  | double =>
    have read : ∀ d, ((Getter.double.call kv key d).run Nvs.answer w).1 =
        ((kv.getBytes key d).run Nvs.answer w).1.2 := by
      intro d
      simp [Getter.call, KVStore.getDouble]
    simp only [read]
    exact blob_all_iff s key (by decide) v
  | bool => exact bool_all_iff s key v
  | string => exact string_all_iff s key v

/-- The matching reader returns the value of a writer that writes if the entry denotes it,
and only then. -/
theorem readBack_iff (s : w.Serves kv name) {p : Putter} {x : NvsValue} (stored : p.stored = some x)
    (key : String) :
    p.ReadBack kv key w ↔ p.Denoted (w.live name key) := by
  cases p with
  | bytes v =>
    cases v with
    | none => cases stored
    | some b =>
      have full : b.length ≠ 0 := by
        intro empty
        obtain rfl := List.length_eq_zero_iff.mp empty
        cases stored
      have same := bytes_all_iff s key full
      constructor
      · intro readBack
        obtain ⟨_, ⟨⟩, always⟩ := readBack
        exact ⟨b, rfl, same.mp always⟩
      · intro denoted
        obtain ⟨_, ⟨⟩, holds⟩ := denoted
        exact ⟨b, rfl, same.mpr holds⟩
  | _ => simp only [Putter.ReadBack, Putter.Denoted, Getter.call_all_iff s]

end Read

section Truth

variable {p : Putter} {x : NvsValue}

/-- Zero is reported for the empty string only. -/
theorem count_eq_zero_iff (stored : p.stored = some x) : p.count = 0 ↔ x = emptyString := by
  have empty : ∀ s : CString, s.1.length = 0 ↔ NvsValue.str s = emptyString := by
    intro s
    rw [List.length_eq_zero_iff, emptyString, NvsValue.str.injEq]
    exact ⟨fun none => Subtype.ext none, fun same => congrArg Subtype.val same⟩
  cases p with
  | string v =>
    cases v with
    | none => cases stored
    | some s =>
      obtain rfl := Option.some.inj stored
      exact empty s
  | stdString v =>
    obtain rfl := Option.some.inj stored
    exact empty (terminated v)
  | bytes v =>
    cases v with
    | none => cases stored
    | some b =>
      obtain ⟨full, rfl⟩ : ¬b = [] ∧ NvsValue.blob b = x := by simpa [Putter.stored] using stored
      refine iff_of_false ?_ (by simp [emptyString])
      simpa [Putter.count] using full
  | _ =>
    obtain rfl := Option.some.inj stored
    exact iff_of_false (by simp [Putter.count]) (by simp [emptyString])

/-- What is written denotes the value, unless a zero byte has cut it. -/
theorem denoted_stored_iff (stored : p.stored = some x) : p.Denoted (some x) ↔ p.Complete := by
  cases p with
  | string v =>
    cases v with
    | none => cases stored
    | some s =>
      obtain rfl := Option.some.inj stored
      exact iff_of_true ⟨_, rfl, rfl⟩ trivial
  | stdString v =>
    obtain rfl := Option.some.inj stored
    constructor
    · intro denoted
      obtain ⟨_, ⟨⟩, same⟩ := denoted
      have whole : cstr v = v := Option.some.inj same
      change 0 ∉ v
      rw [← whole]
      exact zero_notMem_cstr v
    · intro complete
      exact ⟨_, rfl, congrArg some (cstr_of_notMem complete)⟩
  | bytes v =>
    cases v with
    | none => cases stored
    | some b =>
      obtain ⟨full, rfl⟩ : ¬b = [] ∧ NvsValue.blob b = x := by simpa [Putter.stored] using stored
      exact iff_of_true ⟨b, rfl, rfl⟩ trivial
  | float v | double v =>
    obtain rfl := Option.some.inj stored
    exact iff_of_true ⟨_, rfl, dif_pos v.toList_length⟩ trivial
  | bool v =>
    obtain rfl := Option.some.inj stored
    refine iff_of_true ⟨_, rfl, ?_⟩ trivial
    cases v <;> rfl
  | _ =>
    obtain rfl := Option.some.inj stored
    exact iff_of_true ⟨_, rfl, rfl⟩ trivial

variable {kv : KVStore} {key name : String} {w after : Nvs}

/-- A value can be read after every reset if what was written last and what is durable
both denote it. -/
theorem survives_iff (stored : p.stored = some x) :
    p.Survives name key after ↔ p.Denoted (after.durable name key) ∧
      p.Denoted (after.live name key) := by
  have each : ∀ w' readOnly, w'.faults = [] → w'.init = .ok →
      ((let ((_, kv), w'') := (({} : KVStore).begin name readOnly).run Nvs.answer w'
        p.ReadBack kv key w'') ↔ p.Denoted (w'.live name key)) := by
    intro w' readOnly faultless init
    have serves : Nvs.Serves { w' with
        handles := Function.update w'.handles (w'.opened + 1) (some (name, readOnly))
        opened := w'.opened + 1 } ⟨w'.opened + 1, true, readOnly⟩ name := ⟨faultless, rfl, by simp⟩
    rw [KVStore.begin_fresh (show ({} : KVStore).started = false from rfl) faultless init]
    exact readBack_iff serves stored key
  constructor
  · intro survives
    let up (entries : String → Entries) : Nvs :=
      { live := entries, durable := entries, handles := fun _ => none, opened := 0,
        init := .ok, faults := [] }
    have older : after.Boots (up after.durable) := ⟨fun _ _ => .inl rfl, rfl, rfl, rfl⟩
    have newer : after.Boots (up after.live) := ⟨fun _ _ => .inr rfl, rfl, rfl, rfl⟩
    exact ⟨(each (up after.durable) false rfl rfl).mp (survives _ older false),
      (each (up after.live) false rfl rfl).mp (survives _ newer false)⟩
  · intro both w' boots readOnly
    apply (each w' readOnly boots.faultless boots.init).mpr
    exact boots.either both.1 both.2

/-- The results are those of the run. -/
theorem truthful_iff_of_run {n : Nat} (run : (p.call kv key).run Nvs.answer w = (n, after)) :
    p.Truthful kv key w ↔
      (n ≠ 0 → p.ReadBack kv key after.healthy ∧
        ∀ name mode, w.handles kv.handle = some (name, mode) → p.Survives name key after) ∧
      (n = 0 → ∀ name mode, w.handles kv.handle = some (name, mode) →
        after.live name key = w.live name key ∧ after.durable name key = w.durable name key) := by
  constructor
  · intro truthful
    obtain ⟨counted, zero⟩ := truthful
    rw [run] at counted zero
    exact ⟨counted, zero⟩
  · intro results
    obtain ⟨counted, zero⟩ := results
    constructor <;> rw [run]
    · exact counted
    · exact zero

/-- A writer that does not write says so. -/
theorem truthful_of_still (run : (p.call kv key).run Nvs.answer w = (0, after))
    (live : after.live = w.live) (durable : after.durable = w.durable) : p.Truthful kv key w := by
  refine (truthful_iff_of_run run).mpr ⟨fun counted => absurd rfl counted, fun _ name mode _ => ?_⟩
  rw [live, durable]
  exact ⟨rfl, rfl⟩

/-- A writer that writes reports a value other than the empty string, and zero for that. -/
theorem truthful_of_writes (stored : p.stored = some x) (writes : w.Writes kv name) :
    p.Truthful kv key w ↔
      (x ≠ emptyString → p.Complete ∧ (w.Fails 1 → p.Denoted (w.durable name key))) ∧
      (x = emptyString → w.live name key = some x ∧
        (¬w.Fails 1 → w.durable name key = some x)) := by
  obtain ⟨after, run, live, handles, lost, committed⟩ := put_writes (x := x) writes key p.count
  have call : p.call kv key = kv.put key x p.count := by rw [p.call_eq, stored]
  rw [← call] at run
  have entry : after.live name key = some x := by
    rw [live, Function.update_self, Function.update_self]
  have here : ∀ {P : String → Prop},
      (∀ name' mode, w.handles kv.handle = some (name', mode) → P name') ↔ P name := by
    intro P
    constructor
    · intro all
      exact all name false writes.handle
    · intro holds name' mode handle
      rwa [show name' = name from congrArg Prod.fst
        (Option.some.inj (handle.symm.trans writes.handle))]
  have serves : after.healthy.Serves kv name :=
    ⟨rfl, writes.started, by rw [writes.writable, ← writes.handle, ← handles]; rfl⟩
  have now : after.healthy.live name key = some x := entry
  rw [truthful_iff_of_run run, here, here (P := fun name => after.live name key = w.live name key ∧
    after.durable name key = w.durable name key), readBack_iff serves stored,
    survives_iff stored, now, entry, denoted_stored_iff stored, ne_eq, count_eq_zero_iff stored]
  by_cases fails : w.Fails 1
  · rw [lost fails]
    have older : (some x = w.live name key ∧ w.durable name key = w.durable name key) ↔
        (w.live name key = some x ∧ (¬w.Fails 1 → w.durable name key = some x)) := by
      simp [fails, eq_comm]
    rw [older]
    refine and_congr_left fun _ => forall_congr' fun _ => ?_
    constructor
    · rintro ⟨complete, kept, -⟩
      exact ⟨complete, fun _ => kept⟩
    · rintro ⟨complete, kept⟩
      exact ⟨complete, kept fails, complete⟩
  · rw [committed fails, entry, denoted_stored_iff stored]
    simp [fails, eq_comm]

theorem Nvs.Writes.unique {name' : String} (writes : w.Writes kv name)
    (writes' : w.Writes kv name') :
    name' = name :=
  congrArg Prod.fst (Option.some.inj (writes'.handle.symm.trans writes.handle))

theorem sound_of_writes (stored : p.stored = some x) (writes : w.Writes kv name) :
    p.Sound kv key w ↔
      (x ≠ emptyString → p.Complete ∧ (w.Fails 1 → p.Denoted (w.durable name key))) ∧
      (x = emptyString → w.live name key = some x ∧
        (¬w.Fails 1 → w.durable name key = some x)) := by
  constructor
  · intro sound
    refine ⟨sound.full name x writes stored, ?_⟩
    intro same
    subst same
    exact sound.empty name writes stored
  · intro both
    obtain ⟨full, empty⟩ := both
    constructor
    · intro name' x' writes' stored' some
      obtain rfl := writes.unique writes'
      obtain rfl := Option.some.inj (stored.symm.trans stored')
      exact full some
    · intro name' writes' stored'
      obtain rfl := writes.unique writes'
      obtain rfl := Option.some.inj (stored.symm.trans stored')
      exact empty rfl

/-- The results of a writer are true if its writes are sound, and only then. -/
theorem put_truthful_iff (p : Putter) (kv : KVStore) (key : String) (w : Nvs) :
    p.Truthful kv key w ↔ p.Sound kv key w := by
  by_cases writes : ∃ name x, w.Writes kv name ∧ p.stored = some x
  · obtain ⟨name, x, writes, stored⟩ := writes
    rw [truthful_of_writes stored writes, sound_of_writes stored writes]
  · push Not at writes
    have still : ∃ after, (p.call kv key).run Nvs.answer w = (0, after) ∧ after.live = w.live ∧
        after.durable = w.durable := by
      rw [p.call_eq]
      cases stored : p.stored with
      | none => exact ⟨w, rfl, rfl, rfl⟩
      | some x => exact put_refused fun name may => writes name x may stored
    obtain ⟨after, run, live, durable⟩ := still
    refine iff_of_true (truthful_of_still run live durable) ⟨?_, ?_⟩
    · intro name x may stored
      exact absurd stored (writes name x may)
    · intro name may stored
      exact absurd stored (writes name emptyString may)

end Truth

/-- A commit that fails is not reported, an empty string is reported like a failure, and a text with
a zero byte in it is stored in part. -/
theorem put_results_untrue :
    let kv := sampleStore.1
    let w := sampleStore.2
    let uncommitted : Nvs := { w with faults := [false, true] }
    (((Putter.int 7).call kv "k").run Nvs.answer uncommitted).1 = 4 ∧
      ¬(Putter.int 7).Truthful kv "k" uncommitted ∧
    (((Putter.stdString []).call kv "k").run Nvs.answer w).1 = 0 ∧
      ¬(Putter.stdString []).Truthful kv "k" w ∧
    (((Putter.stdString [97, 0, 98]).call kv "k").run Nvs.answer w).1 = 1 ∧
      ¬(Putter.stdString [97, 0, 98]).Truthful kv "k" w := by
  intro kv w uncommitted
  have writes : w.Writes kv "app" := ⟨rfl, rfl, rfl, nofun⟩
  have writes' : uncommitted.Writes kv "app" := ⟨rfl, rfl, rfl, nofun⟩
  refine ⟨by decide, ?_, by decide, ?_, by decide, ?_⟩
  · rw [truthful_of_writes rfl writes']
    intro truthful
    obtain ⟨full, -⟩ := truthful
    obtain ⟨_, ⟨⟩, ⟨⟩⟩ := (full nofun).2 rfl
  · rw [truthful_of_writes rfl writes]
    intro truthful
    cases (truthful.2 rfl).1
  · rw [truthful_of_writes rfl writes]
    intro truthful
    have complete : (0 : UInt8) ∉ [97, 0, 98] := (truthful.1 nofun).1
    simp at complete

end Stembot
