import Stembot.Models.Persistence
import Stembot.Storage.TypedReads

/-!
# Loads whose reads may fail

The storage answers from settings that were saved, or not at all. A load then
takes each setting from the storage if every call for it was answered, and
otherwise falls back to the setting's default.
-/

namespace Stembot

open Library Program

/-- The key that a call reads a value of. -/
def NvsOp.readKey : NvsOp → Option String
  | .getScalar _ key _ | .strLen _ key | .getStr _ key _ | .getBlob _ key _ => some key
  | _ => none

/-- A read of a value under this key, on this handle. -/
def NvsOp.ReadsAt (h : NvsHandle) (key : String) : NvsOp → Prop
  | .getScalar h' key' _ | .strLen h' key' | .getStr h' key' _ | .getBlob h' key' _ =>
    h' = h ∧ key' = key
  | _ => False

theorem NvsOp.ReadsAt.readKey {op : NvsOp} {h : NvsHandle} {key : String}
    (reads : op.ReadsAt h key) : op.readKey = some key := by
  cases op with
  | getScalar _ _ _ | strLen _ _ | getStr _ _ _ | getBlob _ _ _ => exact congrArg some reads.2
  | _ => exact reads.elim

section Asked

variable (kv : KVStore) (key : String)

theorem KVStore.getScalar_asks (ty : NvsType) (d : ty.Carrier) :
    (kv.getScalar key ty d).Issues (NvsOp.ReadsAt kv.handle key) :=
  Issues.unless fun _ => Issues.bind (issues_issue.mpr ⟨rfl, rfl⟩) fun _ => issues_pure _

theorem KVStore.getString_asks (d : Bytes) :
    (kv.getString key d).Issues (NvsOp.ReadsAt kv.handle key) := by
  refine Issues.unless fun _ => Issues.bind (issues_issue.mpr ⟨rfl, rfl⟩) fun len => ?_
  cases len with
  | none => exact issues_pure _
  | some len =>
    refine Issues.bind (issues_issue.mpr ⟨rfl, rfl⟩) fun s => ?_
    cases s with
    | none => exact issues_pure _
    | some s => exact issues_pure _

theorem KVStore.getBytes_asks {n : Nat} (buf : List.Vector UInt8 n) :
    (kv.getBytes key buf).Issues (NvsOp.ReadsAt kv.handle key) := by
  refine Issues.unless fun _ => Issues.bind (issues_issue.mpr ⟨rfl, rfl⟩) fun read => ?_
  cases read with
  | none => exact issues_pure _
  | some b => exact issues_pure _

/-- One setting is read under its own key. -/
theorem Config.loadOne_asks (sha256 : Sha256) (c : Config) (s : Setting) :
    (c.loadOne sha256 s).Issues (NvsOp.ReadsAt c.kvstore.handle s.name) := by
  cases s with
  | agtuuid | peerUrl | wifiSSID | wifiPassword =>
    exact (KVStore.getString_asks ..).bind fun _ => issues_pure _
  | key => exact (KVStore.getBytes_asks ..).bind fun _ => issues_pure _
  | debug | polling =>
    refine Issues.bind ?_ fun _ => issues_pure _
    exact (KVStore.getScalar_asks ..).bind fun _ => issues_pure _

/-- Behind the opening, a load only reads, on one handle. -/
theorem Config.loadFrom_asks (sha256 : Sha256) (c : Config) :
    (c.loadFrom sha256 kv).Issues fun op => ∃ key, op.ReadsAt kv.handle key := by
  have text : ∀ key d, (kv.getString key d).Issues fun op => ∃ key, op.ReadsAt kv.handle key :=
    fun key d => (kv.getString_asks key d).mono fun _ reads => ⟨key, reads⟩
  have flag : ∀ key d, (kv.getBool key d).Issues fun op => ∃ key, op.ReadsAt kv.handle key :=
    fun key d => ((kv.getScalar_asks key .u8 _).mono fun _ reads => ⟨key, reads⟩).bind
      fun _ => issues_pure _
  refine (text _ _).bind fun _ => ?_
  refine ((kv.getBytes_asks _ _).mono fun _ reads => ⟨_, reads⟩).bind fun _ => ?_
  refine (text _ _).bind fun _ => (text _ _).bind fun _ => (text _ _).bind fun _ => ?_
  exact (flag _ _).bind fun _ => (flag _ _).bind fun _ => issues_pure _

end Asked

/-- A device on which every handle gives access to these entries. -/
def holding (es : Entries) : Nvs where
  live _ := es
  durable _ := es
  handles _ := some ("config", false)
  opened := 0
  init := .ok
  faults := []

/-- A read is answered from these entries, or fails. -/
def AnswersFrom (es : Entries) (e : NvsCall) : Prop :=
  e.1.readKey ≠ none → e.2 = e.1.refused ∨ e.2 = (Nvs.perform e.1 (holding es)).1

/-- A read is answered from these entries. -/
def Heard (es : Entries) (e : NvsCall) : Prop :=
  e.1.readKey ≠ none → e.2 = (Nvs.perform e.1 (holding es)).1

instance NvsType.decidableEqCarrier : (ty : NvsType) → DecidableEq ty.Carrier
  | .i8 => inferInstanceAs (DecidableEq Int8)
  | .u8 => inferInstanceAs (DecidableEq UInt8)
  | .i16 => inferInstanceAs (DecidableEq Int16)
  | .u16 => inferInstanceAs (DecidableEq UInt16)
  | .i32 => inferInstanceAs (DecidableEq Int32)
  | .u32 => inferInstanceAs (DecidableEq UInt32)
  | .i64 => inferInstanceAs (DecidableEq Int64)
  | .u64 => inferInstanceAs (DecidableEq UInt64)

instance NvsOp.decidableEqRes : (op : NvsOp) → DecidableEq op.Res
  | .flashInit => inferInstanceAs (DecidableEq InitStatus)
  | .flashErase | .close _ => inferInstanceAs (DecidableEq Unit)
  | .openNs _ _ => inferInstanceAs (DecidableEq (Option NvsHandle))
  | .eraseAll _ | .eraseKey _ _ | .commit _ | .findKey _ _ | .set _ _ _ =>
    inferInstanceAs (DecidableEq Bool)
  | .getScalar _ _ ty => inferInstanceAs (DecidableEq (Option ty.Carrier))
  | .strLen _ _ | .blobLen _ _ => inferInstanceAs (DecidableEq (Option Nat))
  | .getStr _ _ _ | .getBlob _ _ _ => inferInstanceAs (DecidableEq (Option Bytes))

instance AnswersFrom.decidable (es : Entries) (e : NvsCall) : Decidable (AnswersFrom es e) :=
  inferInstanceAs (Decidable (e.1.readKey ≠ none → e.2 = e.1.refused ∨
    e.2 = (Nvs.perform e.1 (holding es)).1))

/-- These entries hold what a save of `c` leaves. -/
def Config.SavedIn (c : Config) (es : Entries) : Prop := ∀ s : Setting, es s.name = some (c.value s)

theorem Config.savedIn_entries (c : Config) (es : Entries) : c.SavedIn (c.entries es) := by
  intro s
  rw [entries_eq_foldl, foldl_write_name, if_pos s.mem_all]

/-- There are calls, and none of them failed. -/
def WellRead (calls : List NvsCall) : Prop := calls ≠ [] ∧ ∀ e ∈ calls, e.2 ≠ e.1.refused

/-- What is read under one key is what was saved if its calls were answered, and else
the default. -/
structure Reading {α : Type} (key : String) (saved default r : α) (calls : List NvsCall) :
    Prop where
  only : ∀ e ∈ calls, e.1.readKey = some key
  well : WellRead calls → r = saved
  badly : ¬WellRead calls → r = default

section Reading

variable {α β : Type} {key : String} {saved default r : α} {calls : List NvsCall}
  {es : Entries} {kv : KVStore}

theorem Reading.map (reading : Reading key saved default r calls) (f : α → β) :
    Reading key (f saved) (f default) (f r) calls :=
  ⟨reading.only, fun well => congrArg f (reading.well well), fun badly =>
    congrArg f (reading.badly badly)⟩

/-- Nothing is asked of a store that is not open. -/
theorem Reading.nothing : Reading key saved default default [] :=
  ⟨nofun, fun well => absurd rfl well.1, fun _ => rfl⟩

theorem Reading.refused (only : ∀ e ∈ calls, e.1.readKey = some key) {e : NvsCall}
    (member : e ∈ calls) (refused : e.2 = e.1.refused) : Reading key saved default default calls :=
  ⟨only, fun well => absurd refused (well.2 e member), fun _ => rfl⟩

theorem Reading.value (only : ∀ e ∈ calls, e.1.readKey = some key) (well : WellRead calls) :
    Reading key saved default saved calls :=
  ⟨only, fun _ => rfl, fun badly => absurd well badly⟩

/-- A read that did not fail. -/
theorem AnswersFrom.answer {op : NvsOp} {r : op.Res} (answers : AnswersFrom es ⟨op, r⟩)
    (reads : op.readKey ≠ none) (heard : r ≠ op.refused) : r = (Nvs.perform op (holding es)).1 :=
  (answers reads).resolve_left heard

theorem getScalar_reading {ty : NvsType} {v d : ty.Carrier} (stored : es key = some (.scalar ty v))
    {r : ty.Carrier} (traced : (kv.getScalar key ty d).Traces calls r)
    (answers : ∀ e ∈ calls, AnswersFrom es e) :
    Reading key v d r calls := by
  cases started : kv.started with
  | false =>
    simp only [KVStore.getScalar, started, Bool.not_false, if_true] at traced
    obtain ⟨rfl, rfl⟩ := traces_pure.mp traced
    exact .nothing
  | true =>
    simp only [KVStore.getScalar, started, Bool.not_true, Bool.false_eq_true, if_false] at traced
    obtain ⟨answer, _, _, asked, returned, rfl⟩ := traces_bind.mp traced
    obtain rfl := traces_issue.mp asked
    obtain ⟨rfl, rfl⟩ := traces_pure.mp returned
    have only : ∀ e ∈ [(⟨.getScalar kv.handle key ty, answer⟩ : NvsCall)] ++ [],
        e.1.readKey = some key := by
      simp [NvsOp.readKey]
    cases answer with
    | none => exact .refused only List.mem_cons_self rfl
    | some u =>
      have found := (answers _ List.mem_cons_self).answer (Option.some_ne_none _)
        (Option.some_ne_none _)
      obtain rfl : u = v := by
        simpa [Nvs.perform, Nvs.entry, holding, stored, NvsValue.asScalar] using found
      exact .value only ⟨List.cons_ne_nil _ _, by simp [NvsOp.refused]⟩

theorem getBool_reading {b d : Bool} (stored : es key = some (.scalar .u8 (Config.flag b)))
    {r : Bool} (traced : (kv.getBool key d).Traces calls r)
    (answers : ∀ e ∈ calls, AnswersFrom es e) :
    Reading key b d r calls := by
  obtain ⟨u, read, rfl⟩ := traces_map.mp traced
  have reading := (getScalar_reading stored read answers).map (· != 0)
  have values : ∀ b : Bool, ((if b then 1 else 0 : UInt8) != 0) = b := by decide
  rw [values, Config.flag, values] at reading
  exact reading

/-- The default if the store is not open or one of the two calls fails, and else what
they answer. -/
theorem getString_cases {d r : Bytes} (traced : (kv.getString key d).Traces calls r) :
    (calls = [] ∧ r = d) ∨ (calls = [⟨.strLen kv.handle key, none⟩] ∧ r = d) ∨
    (∃ len, calls = [⟨.strLen kv.handle key, some len⟩, ⟨.getStr kv.handle key len, none⟩] ∧
      r = d) ∨
    ∃ len s, calls = [⟨.strLen kv.handle key, some len⟩, ⟨.getStr kv.handle key len, some s⟩] ∧
      r = KVStore.stripTerminator (s ++ List.replicate (len - s.length) 0) := by
  cases started : kv.started with
  | false =>
    simp only [KVStore.getString, started, Bool.not_false, if_true] at traced
    exact .inl (traces_pure.mp traced)
  | true =>
    simp only [KVStore.getString, started, Bool.not_true, Bool.false_eq_true, if_false] at traced
    obtain ⟨len, _, _, asked, rest, rfl⟩ := traces_bind.mp traced
    obtain rfl := traces_issue.mp asked
    cases len with
    | none =>
      obtain ⟨rfl, rfl⟩ := traces_pure.mp rest
      exact .inr (.inl ⟨rfl, rfl⟩)
    | some len =>
      obtain ⟨s, _, _, read, ended, rfl⟩ := traces_bind.mp rest
      obtain rfl := traces_issue.mp read
      cases s with
      | none =>
        obtain ⟨rfl, rfl⟩ := traces_pure.mp ended
        exact .inr (.inr (.inl ⟨len, rfl, rfl⟩))
      | some s =>
        obtain ⟨rfl, rfl⟩ := traces_pure.mp ended
        exact .inr (.inr (.inr ⟨len, s, rfl, rfl⟩))

theorem getString_reading {t : CString} {d : Bytes} (stored : es key = some (.str t)) {r : Bytes}
    (traced : (kv.getString key d).Traces calls r) (answers : ∀ e ∈ calls, AnswersFrom es e) :
    Reading key t.1 d r calls := by
  rcases getString_cases traced with
    ⟨rfl, rfl⟩ | ⟨rfl, rfl⟩ | ⟨len, rfl, rfl⟩ | ⟨len, s, rfl, rfl⟩
  · exact .nothing
  · exact .refused (by simp [NvsOp.readKey]) List.mem_cons_self rfl
  · exact .refused (by simp [NvsOp.readKey]) (List.mem_cons_of_mem _ List.mem_cons_self) rfl
  · have measured := (answers _ List.mem_cons_self).answer (Option.some_ne_none _)
      (Option.some_ne_none _)
    obtain rfl : len = t.1.length + 1 := by
      simpa [Nvs.perform, Nvs.entry, holding, stored] using measured
    have copied := (answers _ (List.mem_cons_of_mem _ List.mem_cons_self)).answer
      (Option.some_ne_none _) (Option.some_ne_none _)
    obtain rfl : s = t.1 ++ [0] := by
      simpa [Nvs.perform, Nvs.entry, holding, stored] using copied
    have stripped : KVStore.stripTerminator
        (t.1 ++ [0] ++ List.replicate (t.1.length + 1 - (t.1 ++ [0]).length) 0) = t.1 := by
      simp [KVStore.stripTerminator_append_zero]
    rw [stripped]
    exact .value (by simp [NvsOp.readKey]) ⟨List.cons_ne_nil _ _, by simp [NvsOp.refused]⟩

theorem getBytes_reading {b buf : Key} (stored : es key = some (.blob b.toList)) {r : Nat × Key}
    (traced : (kv.getBytes key buf).Traces calls r) (answers : ∀ e ∈ calls, AnswersFrom es e) :
    Reading key (32, b) (0, buf) r calls := by
  cases started : kv.started with
  | false =>
    simp only [KVStore.getBytes, started, Bool.not_false, Bool.true_or, if_true] at traced
    obtain ⟨rfl, rfl⟩ := traces_pure.mp traced
    exact .nothing
  | true =>
    simp only [KVStore.getBytes, started, Bool.not_true, Bool.false_or, decide_eq_true_eq,
      if_neg (show ¬32 = 0 by decide)] at traced
    obtain ⟨read, _, _, asked, ended, rfl⟩ := traces_bind.mp traced
    obtain rfl := traces_issue.mp asked
    cases read with
    | none =>
      obtain ⟨rfl, rfl⟩ := traces_pure.mp ended
      exact .refused (by simp [NvsOp.readKey]) List.mem_cons_self rfl
    | some read =>
      obtain ⟨rfl, rfl⟩ := traces_pure.mp ended
      have found := (answers _ List.mem_cons_self).answer (Option.some_ne_none _)
        (Option.some_ne_none _)
      obtain rfl : read = b.toList := by
        simpa [Nvs.perform, Nvs.entry, holding, stored] using found
      have whole : (b.toList.length, overwrite buf b.toList) = (32, b) :=
        Prod.ext b.toList_length (overwrite_full buf b.toList_length)
      rw [whole]
      exact .value (by simp [NvsOp.readKey]) ⟨List.cons_ne_nil _ _, by simp [NvsOp.refused]⟩

end Reading

/-- What a load falls back to. -/
def Setting.fallback (sha256 : Sha256) (s : Setting) : s.Carrier := s.ofEntry sha256 none

/-- All calls made for a setting were answered, and there were some. -/
def Setting.ReadWell (s : Setting) (calls : List NvsCall) : Prop :=
  WellRead (calls.filter fun e => e.1.readKey = some s.name)

section Load

variable {sha256 : Sha256} {saved c c' : Config} {es : Entries} {calls : List NvsCall}

theorem loadOne_reading (holds : saved.SavedIn es) (s : Setting)
    (traced : (c.loadOne sha256 s).Traces calls c') (answers : ∀ e ∈ calls, AnswersFrom es e) :
    Reading s.name (c.assign s ((saved.asSaved sha256).get s)) (c.assign s (s.fallback sha256)) c'
      calls := by
  have entry := holds s
  rw [Config.asSaved_get]
  cases s with
  | agtuuid =>
    obtain ⟨v, read, rfl⟩ := traces_map.mp traced
    have reading := (getString_reading entry read answers).map
      fun v => { c with agtuuid := strncpySizeof c.agtuuid v }
    simp only [strncpySizeof_eq c.agtuuid (.replicate 36 0)] at reading ⊢
    exact reading
  | key =>
    obtain ⟨⟨keyLen, key⟩, read, rfl⟩ := traces_map.mp traced
    have whole : Setting.key.ofEntry sha256 (some (saved.value .key)) = saved.key :=
      dif_pos saved.key.toList_length
    rw [whole]
    exact (getBytes_reading entry read answers).map
      fun r => { c with key := if r.1 ≠ 32 then defaultKey sha256 else r.2 }
  | peerUrl =>
    obtain ⟨v, read, rfl⟩ := traces_map.mp traced
    exact (getString_reading entry read answers).map fun v => { c with peerUrl := v }
  | wifiSSID =>
    obtain ⟨v, read, rfl⟩ := traces_map.mp traced
    exact (getString_reading entry read answers).map fun v => { c with wifiSSID := v }
  | wifiPassword =>
    obtain ⟨v, read, rfl⟩ := traces_map.mp traced
    exact (getString_reading entry read answers).map fun v => { c with wifiPassword := v }
  | debug =>
    obtain ⟨v, read, rfl⟩ := traces_map.mp traced
    have flag : Setting.debug.ofEntry sha256 (some (saved.value .debug)) = saved.debug :=
      Entries.bool_put _ _
    rw [flag]
    exact (getBool_reading entry read answers).map fun v => { c with debug := v }
  | polling =>
    obtain ⟨v, read, rfl⟩ := traces_map.mp traced
    have flag : Setting.polling.ofEntry sha256 (some (saved.value .polling)) = saved.polling :=
      Entries.bool_put _ _
    rw [flag]
    exact (getBool_reading entry read answers).map fun v => { c with polling := v }

/-- A setting is read by its own calls only. -/
theorem Setting.readWell_append {s : Setting} {first rest : List NvsCall}
    (others : ∀ e ∈ rest, e.1.readKey ≠ some s.name) : s.ReadWell (first ++ rest) ↔
      s.ReadWell first := by
  have none : rest.filter (fun e => e.1.readKey = some s.name) = [] := by
    simpa [List.filter_eq_nil_iff] using others
  rw [ReadWell, List.filter_append, none, List.append_nil, ReadWell]

theorem Setting.readWell_append_right {s : Setting} {first rest : List NvsCall}
    (others : ∀ e ∈ first, e.1.readKey ≠ some s.name) : s.ReadWell (first ++ rest) ↔
      s.ReadWell rest := by
  have none : first.filter (fun e => e.1.readKey = some s.name) = [] := by
    simpa [List.filter_eq_nil_iff] using others
  rw [ReadWell, List.filter_append, none, List.nil_append, ReadWell]

theorem Reading.readWell {s : Setting} {α : Type} {x d r : α}
    (reading : Reading s.name x d r calls) :
    s.ReadWell calls ↔ WellRead calls := by
  have all : calls.filter (fun e => e.1.readKey = some s.name) = calls := by
    simpa [List.filter_eq_self] using reading.only
  rw [Setting.ReadWell, all]

/-- Reads made one behind the other, with failures. -/
theorem loadAll_reading (holds : saved.SavedIn es) {todo : List Setting} (nodup : todo.Nodup)
    (traced : (todo.foldlM (Config.loadOne sha256) c).Traces calls c')
    (answers : ∀ e ∈ calls, AnswersFrom es e) :
    (∀ e ∈ calls, ∃ s ∈ todo, e.1.readKey = some s.name) ∧
    (∀ s, s ∉ todo → c'.get s = c.get s) ∧
    ∀ s ∈ todo, (s.ReadWell calls → c'.get s = (saved.asSaved sha256).get s) ∧
      (¬s.ReadWell calls → c'.get s = s.fallback sha256) := by
  induction todo generalizing c calls with
  | nil =>
    obtain ⟨rfl, rfl⟩ := traces_pure.mp traced
    exact ⟨nofun, fun _ _ => rfl, nofun⟩
  | cons s todo ih =>
    rw [List.foldlM_cons] at traced
    obtain ⟨next, first, rest, one, later, rfl⟩ := traces_bind.mp traced
    obtain ⟨fresh, nodup⟩ := List.nodup_cons.mp nodup
    have reading := loadOne_reading holds s one fun e member =>
      answers e (List.mem_append_left _ member)
    obtain ⟨only, kept, loaded⟩ := ih nodup later fun e member =>
      answers e (List.mem_append_right _ member)
    have elsewhere : ∀ t, t ≠ s → next.get t = c.get t := by
      intro t ne
      by_cases well : WellRead first
      · rw [reading.well well, Config.get_assign, Function.update_of_ne ne]
      · rw [reading.badly well, Config.get_assign, Function.update_of_ne ne]
    refine ⟨?_, ?_, ?_⟩
    · intro e member
      rcases List.mem_append.mp member with here | there
      · exact ⟨s, List.mem_cons_self, reading.only e here⟩
      · obtain ⟨t, inside, reads⟩ := only e there
        exact ⟨t, List.mem_cons_of_mem _ inside, reads⟩
    · intro t outside
      rw [kept t fun inside => outside (List.mem_cons_of_mem _ inside)]
      exact elsewhere t fun same => outside (same ▸ List.mem_cons_self)
    · intro t inside
      rcases List.mem_cons.mp inside with rfl | inside
      · have others : ∀ e ∈ rest, e.1.readKey ≠ some t.name := by
          intro e member same
          obtain ⟨u, inside, reads⟩ := only e member
          have named : u = t := Setting.name_injective (Option.some.inj (reads.symm.trans same))
          exact fresh (named ▸ inside)
        rw [Setting.readWell_append others, reading.readWell, kept t fresh]
        constructor
        · intro well
          rw [reading.well well, Config.get_assign, Function.update_self]
        · intro badly
          rw [reading.badly badly, Config.get_assign, Function.update_self]
      · have ne : t ≠ s := fun same => fresh (same ▸ inside)
        have others : ∀ e ∈ first, e.1.readKey ≠ some t.name := by
          intro e member same
          exact ne (Setting.name_injective
            (Option.some.inj (same.symm.trans (reading.only e member))))
        rw [Setting.readWell_append_right others]
        exact loaded t inside

/-- Opening a namespace reads nothing. -/
theorem begin_reads_nothing (kv : KVStore) (name : String) (readOnly : Bool) :
    (kv.begin name readOnly).Issues fun op => op.readKey = none := by
  have initialised : initialise.Issues fun op => op.readKey = none := by
    refine Issues.bind (issues_issue.mpr rfl) fun err => ?_
    split
    · exact Issues.bind (issues_issue.mpr rfl) fun _ => issues_issue.mpr rfl
    · exact issues_pure _
  rw [KVStore.begin_eq]
  refine Issues.unless fun _ => initialised.bind fun err => ?_
  split
  · exact issues_pure _
  · refine Issues.bind (issues_issue.mpr rfl) fun r => ?_
    cases r with
    | none => exact issues_pure _
    | some handle => exact issues_pure _

/-- A load takes each setting from the storage, or falls back. -/
theorem load_reading (holds : saved.SavedIn es) (traced : (c.load sha256).Traces calls c')
    (answers : ∀ e ∈ calls, AnswersFrom es e) (s : Setting) :
    (s.ReadWell calls → c'.get s = (saved.asSaved sha256).get s) ∧
      (¬s.ReadWell calls → c'.get s = s.fallback sha256) := by
  rw [Config.load_eq] at traced
  obtain ⟨begun, opening, reads, opened, loaded, rfl⟩ := traces_bind.mp traced
  have none : ∀ e ∈ opening, e.1.readKey ≠ some s.name := by
    intro e member reads
    cases ((begin_reads_nothing _ _ _).of_mem opened e member).symm.trans reads
  obtain ⟨-, -, each⟩ := loadAll_reading holds Setting.all_nodup loaded
    fun e member => answers e (List.mem_append_right _ member)
  rw [Setting.readWell_append_right none]
  exact each s s.mem_all

/-- Each field is the saved one, or as it was before the load. -/
def Config.Undowngraded (sha256 : Sha256) (saved before after : Config) : Prop :=
  ∀ s, after.get s = (saved.asSaved sha256).get s ∨ after.get s = before.get s

/-- Each setting is read without a failure, or its default is the saved value or the
one in memory. -/
def Config.Spared (sha256 : Sha256) (saved before : Config) (calls : List NvsCall) : Prop :=
  ∀ s : Setting, s.ReadWell calls ∨
    s.fallback sha256 = (saved.asSaved sha256).get s ∨ s.fallback sha256 = before.get s

theorem load_undowngraded_iff (holds : saved.SavedIn es) (traced : (c.load sha256).Traces calls c')
    (answers : ∀ e ∈ calls, AnswersFrom es e) :
    Config.Undowngraded sha256 saved c c' ↔ Config.Spared sha256 saved c calls := by
  refine forall_congr' fun s => ?_
  obtain ⟨well, badly⟩ := load_reading holds traced answers s
  by_cases read : s.ReadWell calls
  · simp [read, well read]
  · simp [read, badly read]

end Load

end Stembot
