import Stembot.Firmware.Discipline
import Stembot.Models.ReadFailures

/-!
# The settings are out of the peer's reach

The task only reads the storage. Whatever is posted, replied or fails, the stored
entries stay as they are, unless the storage itself asks to be erased.
-/

namespace Stembot

open Library Program

/-- A call that leaves the contents of the storage alone, and opens nothing. -/
def NvsOp.Reads : NvsOp → Prop
  | .flashErase | .openNs _ _ => False
  | op => ¬op.Modifies

/-- The storage asks to be erased. -/
def InitStatus.Asks (status : InitStatus) : Prop :=
  status = .noFreePages ∨ status = .newVersionFound

/-- A call that modifies nothing, erases nothing unless the storage may have asked for it, and opens
the namespace of the settings only. -/
structure NvsOp.Harmless (asking : Prop) (op : NvsOp) : Prop where
  keeps : ¬op.Modifies
  erases : op = .flashErase → asking
  opens : ∀ name readOnly, op = .openNs name readOnly → name = "config"

/-- The storage does not ask to be erased unless it may. -/
def NvsCall.Calm (asking : Prop) : NvsCall → Prop
  | ⟨.flashInit, status⟩ => status.Asks → asking
  | _ => True

/-- The contents are the first ones, or were erased because the storage asked for it. -/
def Untouched (first w : Nvs) : Prop :=
  (w.live = first.live ∧ w.durable = first.durable ∧ w.init = first.init) ∨
    (first.init = .noFreePages ∨ first.init = .newVersionFound) ∧
      w.live = (fun _ _ => none) ∧ w.durable = (fun _ _ => none) ∧ w.init = .ok

section Calls

variable {first w : Nvs} {op : NvsOp} {asking : Prop}

theorem NvsOp.Reads.harmless (reads : op.Reads) : op.Harmless asking := by
  cases op with
  | flashErase | openNs _ _ => exact reads.elim
  | _ => exact ⟨reads, nofun, nofun⟩

theorem Nvs.answer_init (erases : op ≠ .flashErase) (w : Nvs) : (answer op w).2.init = w.init := by
  have performed : ∀ w : Nvs, (perform op w).2.init = w.init := by
    intro w
    cases op with
    | flashErase => exact absurd rfl erases
    | eraseAll _ | set _ _ _ =>
      simp only [perform, write]
      split <;> rfl
    | eraseKey _ _ =>
      simp only [perform, write]
      split
      · split <;> rfl
      · rfl
    | commit _ | strLen _ _ | getStr _ _ _ | blobLen _ _ | getBlob _ _ _ =>
      simp only [perform]
      split <;> rfl
    | _ => rfl
  unfold answer
  split
  · exact performed w
  · exact performed _
  · rfl

/-- The storage asks only if it is in such a state. -/
theorem Nvs.answer_calm (own : w.init.Asks → asking) (op : NvsOp) :
    NvsCall.Calm asking ⟨op, (answer op w).1⟩ := by
  cases op with
  | flashInit =>
    intro asks
    unfold answer at asks
    split at asks
    · exact own asks
    · exact own asks
    · rcases asks with asks | asks <;> cases asks
  | _ => trivial

/-- An erasure may fail, or it leaves the storage as new. -/
theorem Nvs.answer_erase (w : Nvs) :
    ((answer .flashErase w).2.live = w.live ∧ (answer .flashErase w).2.durable = w.durable ∧
      (answer .flashErase w).2.init = w.init) ∨
    (answer .flashErase w).2.live = (fun _ _ => none) ∧
      (answer .flashErase w).2.durable = (fun _ _ => none) ∧
      (answer .flashErase w).2.init = .ok := by
  unfold answer
  split
  · exact .inr ⟨rfl, rfl, rfl⟩
  · exact .inr ⟨rfl, rfl, rfl⟩
  · exact .inl ⟨rfl, rfl, rfl⟩

/-- No call makes the storage ask. -/
theorem Nvs.asks_of_answer {w : Nvs} (asks : (answer op w).2.init.Asks) : w.init.Asks := by
  by_cases erases : op = .flashErase
  · subst erases
    rcases w.answer_erase with ⟨-, -, same⟩ | ⟨-, -, ok⟩
    · rwa [← same]
    · rcases ok ▸ asks with asks | asks <;> cases asks
  · rwa [← Nvs.answer_init erases w]

theorem Untouched.asks (untouched : Untouched first w) (asks : w.init.Asks) : first.init.Asks := by
  rcases untouched with ⟨-, -, same⟩ | ⟨own, -⟩
  · rwa [← same]
  · exact own

theorem Untouched.call (untouched : Untouched first w) (harmless : op.Harmless first.init.Asks) :
    Untouched first (Nvs.answer op w).2 := by
  by_cases erases : op = .flashErase
  · subst erases
    rcases w.answer_erase with ⟨live, durable, init⟩ | erased
    · unfold Untouched
      rw [live, durable, init]
      exact untouched
    · exact .inr ⟨harmless.erases rfl, erased⟩
  · obtain ⟨live, durable⟩ := Nvs.answer_contents erases harmless.keeps w
    have init := Nvs.answer_init erases w
    unfold Untouched
    rw [live, durable, init]
    exact untouched

end Calls

/-- A storage program that stays harmless. -/
abbrev Mild (asking : Prop) {α : Type} (p : NvsProgram α) : Prop :=
  p.IssuesWhile (NvsCall.Calm asking) (NvsOp.Harmless asking)

section Storage

variable {asking : Prop} {α : Type} (sha256 : Sha256)

theorem mild_of_reads {p : NvsProgram α} (reads : p.Issues NvsOp.Reads) : Mild asking p :=
  reads.while fun _ only => only.harmless

/-- The storage is erased only when it asks for it. -/
theorem initialise_mild : Mild asking initialise := by
  refine ⟨⟨nofun, nofun, nofun⟩, fun status calm => ?_⟩
  change Mild asking (if status = .noFreePages ∨ status = .newVersionFound then _ else _)
  split
  · rename_i asks
    have erase : Mild asking (nvs .flashErase) :=
      issuesWhile_issue ⟨nofun, fun _ => calm asks, nofun⟩
    have init : Mild asking (nvs .flashInit) := issuesWhile_issue ⟨nofun, nofun, nofun⟩
    exact erase.bind fun _ => init
  · exact issuesWhile_pure status

theorem KVStore.begin_mild (kv : KVStore) (readOnly : Bool) :
    Mild asking (kv.begin "config" readOnly) := by
  rw [begin_eq]
  split
  · exact issuesWhile_pure _
  · apply initialise_mild.bind
    intro err
    split
    · exact issuesWhile_pure _
    · have opens : Mild asking (nvs (.openNs "config" readOnly)) := by
        refine issuesWhile_issue ⟨nofun, nofun, ?_⟩
        rintro _ _ ⟨⟩
        rfl
      apply opens.bind
      intro r
      cases r with
      | none => exact issuesWhile_pure _
      | some handle => exact issuesWhile_pure _

theorem NvsOp.ReadsAt.reads {op : NvsOp} {h : NvsHandle} {key : String} (reads : op.ReadsAt h key) :
    op.Reads := by
  cases op with
  | getScalar _ _ _ | strLen _ _ | getStr _ _ _ | getBlob _ _ _ => exact id
  | _ => exact reads.elim

theorem Config.load_mild (c : Config) : Mild asking (c.load sha256) := by
  refine (c.kvstore.begin_mild false).bind fun r => mild_of_reads ?_
  exact (loadFrom_asks r.2 sha256 c).mono fun op ⟨_, reads⟩ => reads.reads

theorem Config.destroy_mild (c : Config) : Mild asking c.destroy := by
  refine mild_of_reads (Issues.bind ?_ fun _ => issues_pure _)
  exact Issues.unless fun _ => Issues.bind (issues_issue.mpr nofun) fun _ => issues_pure _

end Storage

def ProcessorOp.Harmless (asking : Prop) : ProcessorOp → Prop
  | .nvs op => op.Harmless asking
  | _ => True

def TaskCall.Calm (asking : Prop) : TaskCall → Prop
  | ⟨.nvs op, r⟩ => NvsCall.Calm asking ⟨op, r⟩
  | _ => True

/-- The same for a program of the task. -/
abbrev Tame (asking : Prop) {α : Type} (p : ProcessorProgram α) : Prop :=
  p.IssuesWhile (TaskCall.Calm asking) (ProcessorOp.Harmless asking)

section Task

variable {asking : Prop} {α : Type} (A : ArduinoJson) (sha256 : Sha256) (maxSize : Nat)

theorem onNvs_tame {p : NvsProgram α} (mild : Mild asking p) : Tame asking (onNvs p) := by
  induction p with
  | done a => exact issuesWhile_pure a
  | call op next ih => exact ⟨mild.1, fun r calm => ih r (mild.2 r calm)⟩

/-- What does not touch the storage. -/
theorem aside_tame {p : ProcessorProgram α} (aside : p.Issues ProcessorOp.Aside) :
    Tame asking p := by
  refine aside.while fun op free => ?_
  cases op with
  | nvs op => exact free.elim
  | _ => trivial

theorem parse_tame (text : Bytes) : Tame asking (parse text) :=
  aside_tame ⟨trivial, fun _ => trivial⟩

theorem processControlForm_tame (config : Config) (formJson : Bytes) :
    Tame asking (processControlForm A sha256 maxSize config formJson) := by
  apply (parse_tame formJson).bind
  intro doc
  cases controlFormTypeOf (typeOfDoc doc) with
  | GetConfig =>
    refine (parse_tame formJson).bind fun _ =>
      (onNvs_tame (Config.blank.load_mild sha256)).bind fun saved => ?_
    exact (onNvs_tame saved.destroy_mild).bind fun _ => issuesWhile_pure _
  | Benchmark => exact (parse_tame formJson).bind fun _ => issuesWhile_pure _
  | Unknown =>
    cases config.debug with
    | true => exact (parse_tame formJson).bind fun _ => issuesWhile_pure _
    | false => exact issuesWhile_pure _

theorem processNetworkMessage_tame (config : Config) (client : AgentClient) (msgJson : Bytes) :
    Tame asking (processNetworkMessage A sha256 maxSize config client msgJson) := by
  apply (parse_tame msgJson).bind
  intro doc
  cases networkMessageTypeOf (typeOfDoc doc) with
  | TicketRequest =>
    refine (parse_tame msgJson).bind fun doc => ?_
    refine (aside_tame (sendTrace_aside A config client _ _)).bind fun _ => ?_
    refine (processControlForm_tame A sha256 maxSize config _).bind fun reply => ?_
    cases reply with
    | none => exact issuesWhile_pure _
    | some formJson =>
      refine (aside_tame (sendTrace_aside A config client _ _)).bind fun _ => ?_
      refine (aside_tame (ticketToJson_aside A _ _)).bind fun text => ?_
      exact (aside_tame (sendNetworkMessage_aside A client text)).bind fun _ => issuesWhile_pure _
  | Ping =>
    refine (parse_tame msgJson).bind fun doc => aside_tame ⟨trivial, fun _ => ?_⟩
    exact (sendNetworkMessage_aside A client _).bind fun _ => issues_pure _
  | _ => exact (parse_tame msgJson).bind fun _ => issuesWhile_pure _

theorem processMessages_tame (config : Config) (client : AgentClient) (msgJsons : List Bytes) :
    Tame asking (processMessages A sha256 maxSize config client msgJsons) := by
  induction msgJsons with
  | nil => exact issuesWhile_pure _
  | cons msgJson rest ih =>
    apply (processNetworkMessage_tame A sha256 maxSize config client msgJson).bind
    intro done
    cases done with
    | none => exact issuesWhile_pure _
    | some _ => exact ih

theorem wake_tame (t : Task) : Tame asking (wake sha256 t) := by
  unfold wake
  split
  · have load : Mild asking (refresh sha256 t) :=
      (t.config.load_mild sha256).bind fun _ => issuesWhile_pure _
    exact (onNvs_tame load).bind fun t => aside_tame ⟨trivial, fun _ => trivial⟩
  · exact issuesWhile_pure _

theorem iteration_tame (t : Task) : Tame asking (iteration A sha256 maxSize t) := by
  rw [iteration_eq]
  apply (wake_tame sha256 t).bind
  intro t
  split
  · have poll : (sendPoll A t).Issues ProcessorOp.Aside :=
      ⟨trivial, fun _ => sendNetworkMessage_aside A t.client _⟩
    apply (aside_tame poll).bind
    intro reply
    split
    · exact issuesWhile_pure _
    · apply (parse_tame reply).bind
      intro doc
      exact (processMessages_tame A sha256 maxSize t.config t.client _).bind fun _ =>
        issuesWhile_pure _
  · exact issuesWhile_pure _

theorem startProcessor_tame (n : Nat) : Tame asking (startProcessor A sha256 maxSize n) := by
  apply (onNvs_tame (Config.blank.load_mild sha256)).bind
  intro config
  generalize Task.initial config = t
  induction n generalizing t with
  | zero => exact issuesWhile_pure _
  | succ n ih =>
    apply (iteration_tame A sha256 maxSize t).bind
    intro r
    cases r with
    | none => exact issuesWhile_pure _
    | some t => exact ih t

end Task

section Runs

variable {σ : Type} {A : ArduinoJson} {P : Psa} {h : HttpLibrary σ}

theorem Board.serve_aside {op : ProcessorOp} (aside : op.Aside) (b : Board σ) :
    (serve A P h op b).2.nvs = b.nvs := by
  cases op with
  | nvs _ => exact aside.elim
  | post client text =>
    have onward := run_onTransport A P h (Transport.postEncrypted client text) b
    exact congrArg (fun r => r.2.nvs) onward
  | _ => rfl

/-- A tame program leaves the contents of the storage as they are. -/
theorem Board.run_untouched {first : Nvs} {α : Type} {p : ProcessorProgram α}
    (tame : Tame first.init.Asks p) {b : Board σ} (untouched : Untouched first b.nvs) :
    Untouched first (p.run (serve A P h) b).2.nvs := by
  apply tame.run (I := fun b : Board σ => Untouched first b.nvs)
  · intro op b harmless untouched
    cases op with
    | nvs op => exact Nvs.answer_calm untouched.asks op
    | _ => trivial
  · intro op b harmless untouched
    cases op with
    | nvs op => exact untouched.call harmless
    | _ =>
      rw [serve_aside]
      · exact untouched
      · trivial
  · exact untouched

end Runs

/-- In every run of the firmware, whatever the peer replies and whatever fails, all entries of the
storage stay as they are, both the written and the committed ones. Only a storage that asks for it
at its initialisation is erased, and then it stays empty. -/
theorem settings_untouched {σ : Type} (A : ArduinoJson) (P : Psa)
    (h : HttpLibrary σ) (sha256 : Sha256) (maxSize n : Nat) (b : Board σ) :
    Untouched b.nvs ((firmware A sha256 maxSize n).run (Board.answer A P h) b).2.nvs := by
  rw [Board.run_firmware]
  exact Board.run_untouched (startProcessor_tame A sha256 maxSize n) (.inl ⟨rfl, rfl, rfl⟩)

end Stembot
