import Stembot.Console.Operator
import Stembot.Models.ReadFailures
import Stembot.Processor.World

/-!
# The histories of a configuration object

An object is constructed, loaded and set in any order, and whatever the storage
answers its loads. `load` and `cmd_set` both fill `agtuuid`, and only `cmd_set`
terminates it in every case.
-/

namespace Stembot

open Library Program

/-- The object's `agtuuid` holds a terminator. -/
def Config.Terminated (c : Config) : Prop := 0 ∈ c.agtuuid.toList

/-- What is done to an object; a load is given as the storage calls it makes, with their answers. -/
inductive Deed where
  | load (calls : List NvsCall)
  | set (args : Option (CString × CString))

/-- A load is answered, for `agtuuid`, with a string that is shorter than the buffer. -/
def Deed.Short : Deed → Prop
  | .load calls => ∃ h len s, ⟨.getStr h "agtuuid" len, some s⟩ ∈ calls ∧ (cstr s).length < 36
  | .set _ => True

/-- `c'` is what `c` is after the deed. -/
def Config.Does (sha256 : Sha256) (c : Config) (c' : Config) : Deed → Prop
  | .load calls => (c.load sha256).Traces calls c'
  | .set args => (cmdSet sha256 c args).2 = c'

/-- The states an object has gone through, and what has been done to it, the latest first. -/
inductive Lived (sha256 : Sha256) : List Config → List Deed → Prop
  | created {calls : List NvsCall} {c : Config} :
      (Config.create sha256).Traces calls c → Lived sha256 [c] [.load calls]
  | next {c c' : Config} {past : List Config} {deeds : List Deed} {deed : Deed} :
      Lived sha256 (c :: past) deeds → c.Does sha256 c' deed →
        Lived sha256 (c' :: c :: past) (deed :: deeds)

/-- A read of a terminated buffer stays in it. -/
theorem Config.Terminated.uuid {c : Config} (terminated : c.Terminated) :
    c.uuid = cstr c.agtuuid.toList :=
  cstr_append_of_mem terminated _

section Reads

variable {kv : KVStore} {key : String} {calls : List NvsCall}

/-- The text of a string, if the storage has answered both reads of it. -/
theorem getString_traces {d r : Bytes} (traced : (kv.getString key d).Traces calls r) :
    (r = d ∧ ∀ h k len s, ⟨.getStr h k len, some s⟩ ∉ calls) ∨
    ∃ len s, calls = [⟨.strLen kv.handle key, some len⟩, ⟨.getStr kv.handle key len, some s⟩] ∧
      cstr r = cstr s := by
  rcases getString_cases traced with
    ⟨rfl, same⟩ | ⟨rfl, same⟩ | ⟨len, rfl, same⟩ | ⟨len, s, rfl, rfl⟩
  · exact .inl ⟨same, by simp⟩
  · exact .inl ⟨same, by simp⟩
  · exact .inl ⟨same, by simp⟩
  · refine .inr ⟨len, s, rfl, ?_⟩
    rw [cstr_stripTerminator, cstr_append_zeros]

end Reads

section Load

variable {sha256 : Sha256} {c c' : Config} {calls : List NvsCall}

/-- The other settings leave the buffer as it is. -/
theorem loadOne_agtuuid {s : Setting} (other : s ≠ .agtuuid)
    (traced : (c.loadOne sha256 s).Traces calls c') :
    c'.agtuuid = c.agtuuid := by
  cases s with
  | agtuuid => exact absurd rfl other
  | _ =>
    obtain ⟨v, -, rfl⟩ := traces_map.mp traced
    rfl

theorem loadAll_agtuuid {todo : List Setting} (others : .agtuuid ∉ todo)
    (traced : (todo.foldlM (Config.loadOne sha256) c).Traces calls c') :
    c'.agtuuid = c.agtuuid ∧ ∀ e ∈ calls, e.1.readKey ≠ some "agtuuid" := by
  induction todo generalizing c calls with
  | nil =>
    obtain ⟨rfl, rfl⟩ := traces_pure.mp traced
    exact ⟨rfl, by simp⟩
  | cons s todo ih =>
    rw [List.foldlM_cons] at traced
    obtain ⟨next, first, rest, one, later, rfl⟩ := traces_bind.mp traced
    have other : s ≠ .agtuuid := by
      rintro rfl
      exact others List.mem_cons_self
    obtain ⟨kept, quiet⟩ := ih (fun inside => others (List.mem_cons_of_mem _ inside)) later
    refine ⟨kept.trans (loadOne_agtuuid other one), ?_⟩
    intro e member
    rcases List.mem_append.mp member with here | there
    · rw [((c.loadOne_asks sha256 s).of_mem one e here).readKey]
      intro same
      exact other (Setting.name_injective (Option.some.inj same))
    · exact quiet e there

/-- A load terminates the buffer if it is answered with a shorter string, and in no other case. -/
theorem load_terminated_iff (traced : (c.load sha256).Traces calls c') :
    c'.Terminated ↔ (Deed.load calls).Short := by
  rw [Config.load_eq] at traced
  obtain ⟨begun, first, _, begins, loads, rfl⟩ := traces_bind.mp traced
  rw [Setting.all, List.foldlM_cons] at loads
  obtain ⟨next, read, rest, one, later, rfl⟩ := traces_bind.mp loads
  obtain ⟨text, reads, rfl⟩ := traces_map.mp one
  obtain ⟨kept, quiet⟩ := loadAll_agtuuid (by decide) later
  -- Only the two calls for the text itself can have been answered with it.
  have only : ∀ h len s, ⟨.getStr h "agtuuid" len, some s⟩ ∈ first ++ (read ++ rest) ↔
      ⟨.getStr h "agtuuid" len, some s⟩ ∈ read := by
    intro h len s
    have before : ⟨.getStr h "agtuuid" len, some s⟩ ∉ first := by
      intro member
      cases (begin_reads_nothing c.kvstore "config" false).of_mem begins _ member
    have behind : ⟨.getStr h "agtuuid" len, some s⟩ ∉ rest := fun member => quiet _ member rfl
    simp [before, behind]
  rw [Config.Terminated, kept, zero_mem_strncpySizeof_iff]
  simp only [Deed.Short, only]
  rcases getString_traces reads with ⟨rfl, unanswered⟩ | ⟨len, s, rfl, same⟩
  · constructor
    · intro short
      exact absurd short (by decide)
    · intro answered
      obtain ⟨h, len, s, member, -⟩ := answered
      exact absurd member (unanswered _ _ _ _)
  · rw [same]
    constructor
    · intro short
      exact ⟨_, len, s, List.mem_cons_of_mem _ List.mem_cons_self, short⟩
    · intro answered
      obtain ⟨h, len', s', member, short⟩ := answered
      obtain ⟨-, rfl⟩ : _ ∧ s' = s := by simpa using member
      exact short

end Load

/-- A `set` copies one byte less than the buffer has. -/
theorem cmdSet_terminated {sha256 : Sha256} {c : Config} (terminated : c.Terminated)
    (args : Option (CString × CString)) : (cmdSet sha256 c args).2.Terminated := by
  rcases cmdSet_cases sha256 c (fun _ => none) args with ⟨-, same⟩ | ⟨s, v, -, put⟩
  · rw [same]
    exact terminated
  · rw [put]
    cases s with
    | agtuuid =>
      have cut : (cstr (v.1.take 35)).length ≤ 35 :=
        (List.takeWhile_prefix _).length_le.trans (List.length_take_le ..)
      exact (zero_mem_strncpySizeof_iff _ _).mpr (Nat.lt_succ_of_le cut)
    | _ => exact terminated

/-- What the commands do to the two configurations of the device are histories of these objects. -/
theorem Machine.lived (sha256 : Sha256) (w : Nvs) (commands : List Command) :
    let m := (boot sha256 w).run sha256 commands
    (∃ past deeds, Lived sha256 (m.console :: past) deeds) ∧
      ∃ past deeds, Lived sha256 (m.processor.config :: past) deeds := by
  suffices goes : ∀ m : Machine,
      (∃ past deeds, Lived sha256 (m.console :: past) deeds) →
      (∃ past deeds, Lived sha256 (m.processor.config :: past) deeds) →
      (∃ past deeds, Lived sha256 ((m.run sha256 commands).console :: past) deeds) ∧
        ∃ past deeds, Lived sha256 ((m.run sha256 commands).processor.config :: past) deeds by
    exact goes (boot sha256 w) ⟨[], _, .created (traces_run ..)⟩ ⟨[], _, .created (traces_run ..)⟩
  induction commands with
  | nil => exact fun m console processor => ⟨console, processor⟩
  | cons command commands ih =>
    intro m console processor
    refine ih (m.step sha256 command) ?_ ?_
    · cases command with
      | set args =>
        obtain ⟨past, deeds, lived⟩ := console
        exact ⟨_, _, lived.next (show Config.Does sha256 _ _ (.set args) from rfl)⟩
      | save | reload => exact console
    · cases command with
      | reload =>
        obtain ⟨past, deeds, lived⟩ := processor
        have loaded : (m.step sha256 .reload).processor.config =
            ((m.processor.config.load sha256).run Nvs.answer m.nvs).1 := by
          simp [step, refresh]
        rw [loaded]
        exact ⟨_, _, lived.next (show Config.Does sha256 _ _ (.load _) from traces_run ..)⟩
      | set _ | save => exact processor

/-- An object's uuid is terminated all the time, and read within its buffer, if each load is
answered with a uuid of fewer than 36 bytes, and only then. -/
theorem uuid_terminated_iff {sha256 : Sha256} {states : List Config} {deeds : List Deed}
    (lived : Lived sha256 states deeds) :
    (∀ c ∈ states, c.Terminated ∧ c.uuid = cstr c.agtuuid.toList) ↔ ∀ deed ∈ deeds, deed.Short := by
  have terminated : (∀ c ∈ states, c.Terminated) ↔ ∀ deed ∈ deeds, deed.Short := by
    induction lived with
    | created traced => simpa using load_terminated_iff traced
    | @next c c' past deeds deed lived does ih =>
      rw [List.forall_mem_cons (a := c'), List.forall_mem_cons (a := deed), ih]
      refine and_congr_left fun short => ?_
      have before : c.Terminated := ih.mpr short c List.mem_cons_self
      cases deed with
      | load calls => exact load_terminated_iff does
      | set args =>
        obtain rfl := does
        exact iff_of_true (cmdSet_terminated before args) trivial
  rw [← terminated]
  refine forall₂_congr fun c _ => and_iff_left_of_imp ?_
  intro terminated
  exact terminated.uuid

/-- An object that has been constructed from these entries. -/
def constructed (es : Entries) : Config :=
  ((Config.create sampleSha256).run Nvs.answer (sampleNvs es)).1

theorem constructed_lived (es : Entries) :
    ∃ calls, (Config.create sampleSha256).Traces calls (constructed es) :=
  ⟨_, traces_run ..⟩

/-- A stored uuid is loaded, and one that does not fit is set. -/
theorem uuid_terminated_sample :
    let c := (cmdSet sampleSha256 (constructed (sampleEntries sampleUuid sampleKey))
      (some (terminated (bytes "agtuuid"), terminated (List.replicate 40 97)))).2
    c.Terminated ∧ c.uuid = cstr c.agtuuid.toList := by
  intro c
  obtain ⟨calls, traced⟩ := constructed_lived (sampleEntries sampleUuid sampleKey)
  have loaded : 0 ∈ (constructed (sampleEntries sampleUuid sampleKey)).agtuuid.toList := by
    decide +kernel
  have short : (Deed.load calls).Short := (load_terminated_iff traced).mp loaded
  have lived : Lived sampleSha256 [c, constructed (sampleEntries sampleUuid sampleKey)]
      [.set _, .load calls] :=
    .next (.created traced) rfl
  refine (uuid_terminated_iff lived).mpr ?_ c List.mem_cons_self
  rw [List.forall_mem_cons, List.forall_mem_singleton]
  exact ⟨trivial, short⟩

/-- With no uuid stored, the default one fills the buffer, and a read of it goes on behind it. -/
theorem default_uuid_is_unterminated :
    let c := constructed fun _ => none
    (∃ calls, Lived sampleSha256 [c] [.load calls]) ∧ ¬c.Terminated ∧ 36 < c.uuid.length := by
  intro c
  obtain ⟨calls, traced⟩ := constructed_lived fun _ => none
  have full : 0 ∉ c.agtuuid.toList := by decide +kernel
  exact ⟨⟨calls, .created traced⟩, full, by decide +kernel⟩

end Stembot
