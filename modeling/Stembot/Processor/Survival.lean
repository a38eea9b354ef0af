import Stembot.Processor.Identity

/-!
# What ends the task

An exception that escapes ends the task for good. There is one way to bring it
about from outside: a ticket whose benchmark asks for a string that cannot be made.
-/

namespace Stembot

open Library Program

/-- A ticket with a benchmark form that asks for more than a string can hold. -/
def Overwhelms (A : ArduinoJson) (maxSize : Nat) (msgJson : Bytes) : Prop :=
  networkMessageType A msgJson = .TicketRequest ∧
    controlFormTypeOf (typeOfDoc ((A.read msgJson).get (bytes "form"))) = .Benchmark ∧
    ∃ n, (Benchmark.ofDoc A ((A.read msgJson).get (bytes "form"))).inboundSize = some n ∧
      maxSize < (n.toInt % 2 ^ 32).toNat

/-- The answering of messages was ended by one of them: those before it had been answered, and those
behind it were not looked at. -/
structure EndedBy (A : ArduinoJson) (sha256 : Sha256) (maxSize : Nat) (config : Config)
    (client : AgentClient) (calls : List TaskCall) (handled : List Bytes) (msgJson : Bytes) :
    Prop where
  spared : ∀ s ∈ handled, ¬Overwhelms A maxSize s
  overwhelms : Overwhelms A maxSize msgJson
  calls : ∃ first rest, calls = first ++ rest ∧
    (processMessages A sha256 maxSize config client handled).Traces first (some ()) ∧
    (processNetworkMessage A sha256 maxSize config client msgJson).Traces rest none

section Survival

variable {A : ArduinoJson} {sha256 : Sha256} {maxSize : Nat} {config : Config}
  {client : AgentClient}

theorem zeros_eq_none_iff {n : Int64} :
    zeros maxSize n = none ↔ maxSize < (n.toInt % 2 ^ 32).toNat := by
  simp only [zeros]
  split
  · rename_i large
    exact ⟨fun _ => large, fun _ => rfl⟩
  · rename_i fits
    exact ⟨nofun, fun large => absurd large fits⟩

theorem fillPayload_eq_none_iff {form : Benchmark} :
    fillPayload maxSize form = none ↔ ∃ n, form.inboundSize = some n ∧
      maxSize < (n.toInt % 2 ^ 32).toNat := by
  unfold fillPayload
  cases form.inboundSize with
  | none => simp
  | some n => simp [zeros_eq_none_iff]

theorem Handled.eq_none_iff {form : Json} {es : List TaskCall} {out : Option Json}
    (handled : Handled A sha256 maxSize form es out) : out = none ↔
      controlFormTypeOf (typeOfDoc form) = .Benchmark ∧
        ∃ n, (Benchmark.ofDoc A form).inboundSize = some n ∧
          maxSize < (n.toInt % 2 ^ 32).toNat := by
  cases handled with
  | getConfig type _ _ => simp [type]
  | benchmark type => simp [type, fillPayload_eq_none_iff]
  | unknown type => simp [type]

variable (lawful : A.Lawful)
include lawful

theorem processNetworkMessage_ends {msgJson : Bytes} (h : (A.read msgJson).Within nestingLimit) :
    Sends A (processNetworkMessage A sha256 maxSize config client msgJson) fun r _ =>
      r = none ↔ Overwhelms A maxSize msgJson := by
  intro es r traced honest
  obtain ⟨_, -, -, answered⟩ :=
    processNetworkMessage_sends client lawful sha256 maxSize config h es r traced honest
  by_cases ticket : networkMessageType A msgJson = .TicketRequest
  · obtain ⟨out, handled, rfl, -⟩ := answered ticket
    rw [Option.map_eq_none_iff, handled.eq_none_iff]
    exact ⟨fun asks => ⟨ticket, asks⟩, And.right⟩
  · have spared : ¬Overwhelms A maxSize msgJson := fun overwhelms => ticket overwhelms.1
    have done : Sends A (processNetworkMessage A sha256 maxSize config client msgJson) fun r _ =>
      r = some () := by
      refine (parse_sends client msgJson).bind ?_
      rintro _ _ ⟨rfl, -⟩
      cases type : networkMessageTypeOf (typeOfDoc (A.read msgJson)) with
      | TicketRequest => exact absurd type ticket
      | Ping =>
        exact Ensures.andThen fun _ _ => Ensures.andThen fun _ _ =>
        Ensures.andThen fun _ _ => Ensures.pure rfl
      | _ => exact Ensures.andThen fun _ _ => Ensures.pure rfl
    rw [done es r traced honest]
    exact ⟨nofun, fun overwhelms => absurd overwhelms spared⟩

theorem processMessages_ends {msgJsons : List Bytes}
    (h : ∀ s ∈ msgJsons, (A.read s).Within nestingLimit) {calls : List TaskCall} {r : Option Unit}
    (traced : (processMessages A sha256 maxSize config client msgJsons).Traces calls r)
    (honest : ∀ e ∈ calls, Honest A e) :
    (r = none ∧ ∃ handled msgJson lost, msgJsons = handled ++ msgJson :: lost ∧
      EndedBy A sha256 maxSize config client calls handled msgJson) ∨
    (r = some () ∧ ∀ s ∈ msgJsons, ¬Overwhelms A maxSize s) := by
  induction msgJsons generalizing calls with
  | nil =>
    obtain ⟨rfl, rfl⟩ := traces_pure.mp traced
    exact .inr ⟨rfl, nofun⟩
  | cons msgJson rest ih =>
    obtain ⟨done, first, later, one, others, rfl⟩ := traces_bind.mp traced
    have ends := processNetworkMessage_ends lawful (h msgJson List.mem_cons_self) first done one
      fun e member => honest e (List.mem_append_left _ member)
    cases done with
    | none =>
      obtain ⟨rfl, rfl⟩ := traces_pure.mp others
      refine .inl ⟨rfl, [], msgJson, rest, rfl, nofun, ends.mp rfl, [], first, ?_, .done _, one⟩
      rw [List.append_nil, List.nil_append]
    | some _ =>
      have spared : ¬Overwhelms A maxSize msgJson := fun overwhelms => by cases ends.mpr overwhelms
      rcases ih (fun s member => h s (List.mem_cons_of_mem _ member)) others
        (fun e member => honest e (List.mem_append_right _ member)) with
        ⟨rfl, handled, last, lost, rfl, ended⟩ | ⟨rfl, none⟩
      · obtain ⟨before, fatal, rfl, answered, escaped⟩ := ended.calls
        refine .inl ⟨rfl, msgJson :: handled, last, lost, rfl, ?_, ended.overwhelms,
          first ++ before, fatal, ?_, ?_, escaped⟩
        · exact List.forall_mem_cons.mpr ⟨spared, ended.spared⟩
        · rw [List.append_assoc]
        · exact traces_bind.mpr ⟨some (), first, before, one, answered, rfl⟩
      · exact .inr ⟨rfl, List.forall_mem_cons.mpr ⟨spared, none⟩⟩

/-- A lap was ended by one of the messages of its reply. -/
def Lap.Ended (A : ArduinoJson) (sha256 : Sha256) (maxSize : Nat) (lap : Lap) : Prop :=
  ∃ poll handled msgJson lost parsing answering, lap.poll = some poll ∧
    poll.messages = handled ++ msgJson :: lost ∧ poll.answering = parsing ++ answering ∧
    EndedBy A sha256 maxSize lap.awake.config lap.awake.client answering handled msgJson

theorem Lap.Runs.ends {lap : Lap} {r : Option Task} (runs : lap.Runs A sha256 maxSize r)
    (honest : ∀ e ∈ lap.calls, Honest A e) :
    (r = none ∧ lap.Ended A sha256 maxSize) ∨
      (r.isSome ∧ ∀ s ∈ lap.messages, ¬Overwhelms A maxSize s) := by
  cases runs with
  | off _ _ => exact .inr ⟨rfl, nofun⟩
  | @polled _ awake _ poll r _ _ polled =>
    cases polled with
    | unanswered _ => exact .inr ⟨rfl, nofun⟩
    | @answered sending parsing answering reply doc done _ _ parsed answered =>
      obtain ⟨rfl, -⟩ := parse_sends awake.client reply _ _ parsed fun e member =>
        honest e (List.mem_append_right _ (List.mem_append_right _ (List.mem_append_left _ member)))
      rcases processMessages_ends lawful (messageJsons_within lawful reply) answered fun e member =>
        honest e (List.mem_append_right _
            (List.mem_append_right _ (List.mem_append_right _ member))) with
        ⟨rfl, handled, msgJson, lost, split, ended⟩ | ⟨rfl, spared⟩
      · exact .inl ⟨rfl, _, handled, msgJson, lost, parsing, answering, rfl, split, rfl, ended⟩
      · exact .inr ⟨rfl, spared⟩

omit lawful in
theorem Lap.Ended.overwhelmed {lap : Lap} (ended : lap.Ended A sha256 maxSize) :
    ∃ s ∈ lap.messages, Overwhelms A maxSize s := by
  obtain ⟨poll, handled, msgJson, lost, parsing, answering, polled, split, -, cut⟩ := ended
  refine ⟨msgJson, ?_, cut.overwhelms⟩
  rw [Lap.messages, polled, Option.elim, split]
  exact List.mem_append_right _ List.mem_cons_self

theorem Run.ends {t : Task} {laps : List Lap} {r : Option Task}
    (run : Run A sha256 maxSize t laps r) (honest : ∀ e ∈ laps.flatMap Lap.calls, Honest A e) :
    (r = none ∧ ∃ before last, laps = before ++ [last] ∧ last.Ended A sha256 maxSize ∧
      ∀ lap ∈ before, ∀ s ∈ lap.messages, ¬Overwhelms A maxSize s) ∨
    (r.isSome ∧ ∀ lap ∈ laps, ∀ s ∈ lap.messages, ¬Overwhelms A maxSize s) := by
  induction run with
  | nil t => exact .inr ⟨rfl, fun lap member => absurd member List.not_mem_nil⟩
  | @lap lap t laps r runs _ ih =>
    rw [List.flatMap_cons] at honest
    rcases runs.ends lawful fun e member => honest e (List.mem_append_left _ member) with
      ⟨escaped, -⟩ | ⟨-, spared⟩
    · cases escaped
    · rcases ih fun e member => honest e (List.mem_append_right _ member) with
        ⟨rfl, before, last, rfl, ended, none⟩ | ⟨some, none⟩
      · exact .inl ⟨rfl, lap :: before, last, rfl, ended, List.forall_mem_cons.mpr ⟨spared, none⟩⟩
      · exact .inr ⟨some, List.forall_mem_cons.mpr ⟨spared, none⟩⟩
  | @escaped lap runs =>
    rw [List.flatMap_singleton] at honest
    rcases runs.ends lawful honest with ⟨-, ended⟩ | ⟨some, -⟩
    · exact .inl ⟨rfl, [], lap, rfl, ended, fun _ member => absurd member List.not_mem_nil⟩
    · cases some

end Survival

/-- As long as no parse is cut short, the task ends exactly when a reply holds a ticket whose
benchmark form asks for more than a string can hold. The messages in front of the first such ticket
have been answered, those behind it are lost, and there is no further lap. -/
theorem task_ends_iff {A : ArduinoJson} (lawful : A.Lawful) {sha256 : Sha256}
    {maxSize n : Nat} {config : Config} {calls : List TaskCall} {r : Option Task}
    (ran : (loop A sha256 maxSize n (.initial config)).Traces calls r)
    (honest : ∀ e ∈ calls, Honest A e) :
    ∃ laps : List Lap, calls = laps.flatMap Lap.calls ∧
      Run A sha256 maxSize (.initial config) laps r ∧
      Complete n laps r ∧
      (r = none ↔ ∃ lap ∈ laps, ∃ s ∈ lap.messages, Overwhelms A maxSize s) ∧
      ∀ before lap after, laps = before ++ lap :: after →
        (∃ s ∈ lap.messages, Overwhelms A maxSize s) →
        after = [] ∧ lap.Ended A sha256 maxSize := by
  obtain ⟨laps, rfl, run, complete⟩ := loop_traces ran
  refine ⟨laps, rfl, run, complete, ?_⟩
  rcases run.ends lawful honest with ⟨rfl, before, last, rfl, ended, spared⟩ | ⟨some, spared⟩
  · have overwhelmed := ended.overwhelmed
    refine ⟨⟨fun _ => ⟨last, by simp, overwhelmed⟩, fun _ => rfl⟩, ?_⟩
    rintro before' lap after split ⟨s, member, overwhelms⟩
    rcases List.append_eq_append_iff.mp split with ⟨between, rfl, later⟩ | ⟨between, rfl, later⟩
    · cases between with
      | nil =>
        obtain ⟨rfl, rfl⟩ := List.cons.inj later
        exact ⟨rfl, ended⟩
      | cons _ _ => simp at later
    · cases between with
      | nil =>
        obtain ⟨rfl, rfl⟩ := List.cons.inj later
        exact ⟨rfl, ended⟩
      | cons lap' between =>
        obtain ⟨rfl, -⟩ := List.cons.inj later
        exact absurd overwhelms (spared lap (by simp) s member)
  · refine ⟨⟨fun none => ?_, ?_⟩, ?_⟩
    · rw [none] at some
      cases some
    · rintro ⟨lap, inside, s, member, overwhelms⟩
      exact absurd overwhelms (spared lap inside s member)
    · rintro before lap after rfl ⟨s, member, overwhelms⟩
      exact absurd overwhelms (spared lap (by simp) s member)

/-- A ping, and a benchmark whose size is negative. -/
theorem task_ends_iff_sample :
    let run := loop textLibrary sampleSha256 100 3 (.initial Config.blank)
    let reply := "\x7b\"messages\":[\x7b\"type\":\"ping\"\x7d," ++
      "\x7b\"type\":\"ticket_request\",\"form\":\x7b\"type\":\"benchmark\"," ++
      "\"inbound_size\":-1\x7d\x7d]\x7d"
    let world := sampleWorld (sampleEntries sampleUuid sampleKey) [bytes reply]
    ∃ laps : List Lap, run.trace (World.answer textLibrary) world = laps.flatMap Lap.calls ∧
      ∃ lap ∈ laps, ∃ s ∈ lap.messages, Overwhelms textLibrary 100 s := by
  intro run reply world
  obtain ⟨laps, made, -, -, ends, -⟩ :=
    task_ends_iff textLibrary_lawful (traces_run (World.answer textLibrary) run world)
    (World.Sound.honest run fun _ => rfl)
  refine ⟨laps, made, ends.mp ?_⟩
  have none : (run.run (World.answer textLibrary) world).1.isNone = true := by decide +kernel
  exact Option.isNone_iff_eq_none.mp none

end Stembot
