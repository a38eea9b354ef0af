import Stembot.Processor.Task

/-!
# Laps of the task

A run of the task's loop, whatever its surroundings answer, is a sequence of
laps: a reload and a pause when the task is idle, then a poll when polling is on,
and what is made of its reply.
-/

namespace Stembot

open Library Program

abbrev TaskCall := Answered ProcessorOp ProcessorOp.Res

/-- A storage call as the task makes it. -/
def byTask (call : NvsCall) : TaskCall := ⟨.nvs call.1, call.2⟩

theorem traces_onNvs {α : Type} {p : NvsProgram α} {es : List TaskCall} {a : α} :
    (onNvs p).Traces es a ↔ ∃ calls, p.Traces calls a ∧ es = calls.map byTask := by
  constructor
  · intro traced
    induction p generalizing es with
    | done b =>
      obtain ⟨rfl, rfl⟩ := traces_pure.mp traced
      exact ⟨[], .done a, rfl⟩
    | call op next ih =>
      cases traced with
      | call r rest =>
        obtain ⟨calls, traced, rfl⟩ := ih r rest
        exact ⟨⟨op, r⟩ :: calls, @Traces.call _ _ _ op next r _ _ traced, rfl⟩
  · rintro ⟨calls, traced, rfl⟩
    induction traced with
    | done a => exact .done a
    | @call op next r _ _ _ ih =>
      exact @Traces.call _ _ _ (ProcessorOp.nvs op) (fun r => onNvs (next r)) r _ _ ih

section Laps

variable (A : ArduinoJson) (sha256 : Sha256) (maxSize : Nat)

/-- The request for messages, whose reply is returned. -/
def sendPoll (t : Task) : ProcessorProgram Bytes := do
  let timestamp ← getCurrentTime
  sendNetworkMessage A t.client ((pollRequest t.config timestamp).toJson A)

/-- What becomes of a reply that has come. -/
def takeReply (t : Task) (reply : Bytes) : ProcessorProgram (Option Task) := do
  let response := NetworkMessagesResponse.ofDoc A (← parse reply)
  let done ← processMessages A sha256 maxSize t.config t.client response.messageJsons
  return done.map fun _ => { t with idle := response.messageJsons.isEmpty }

theorem iteration_eq (t : Task) : iteration A sha256 maxSize t = wake sha256 t >>= fun t =>
    if t.config.polling = true then sendPoll A t >>= fun reply =>
      if reply = [] then pure (some { t with idle := true }) else takeReply A sha256 maxSize t reply
    else pure (some { t with idle := true }) := by
  refine congrArg (wake sha256 t >>= ·) (funext fun t => ?_)
  cases t.config.polling with
  | false => rfl
  | true =>
    simp only [sendPoll, bind_assoc, if_true, Bool.not_true, Bool.false_eq_true, if_false]
    refine congrArg (getCurrentTime >>= ·) (funext fun timestamp => ?_)
    refine congrArg (sendNetworkMessage A t.client _ >>= ·) (funext fun reply => ?_)
    split
    · rfl
    · refine congrArg (parse reply >>= ·) (funext fun doc => ?_)
      refine congrArg (processMessages A sha256 maxSize t.config t.client _ >>= ·)
        (funext fun done => ?_)
      cases done <;> rfl

/-- A poll with its reply, the messages read out of it, and the calls around them. -/
structure Poll where
  sending : List TaskCall
  reply : Bytes
  messages : List Bytes := []
  answering : List TaskCall := []

/-- One iteration as it went. -/
structure Lap where
  start : Task
  waking : List TaskCall
  awake : Task
  poll : Option Poll

def Poll.calls (p : Poll) : List TaskCall := p.sending ++ p.answering

def Lap.calls (lap : Lap) : List TaskCall := lap.waking ++ (lap.poll.elim [] Poll.calls)

/-- The poll of an awake task, and the task it leaves unless an exception escapes. -/
inductive Poll.Runs (t : Task) : Poll → Option Task → Prop
  | unanswered {sending : List TaskCall} : (sendPoll A t).Traces sending [] →
      Poll.Runs t { sending, reply := [] } (some { t with idle := true })
  | answered {sending parsing answering : List TaskCall} {reply : Bytes}
    {doc : Json} {r : Option Unit} :
      (sendPoll A t).Traces sending reply → reply ≠ [] → (parse reply).Traces parsing doc →
      (processMessages A sha256 maxSize t.config t.client
        (NetworkMessagesResponse.ofDoc A doc).messageJsons).Traces answering r →
      Poll.Runs t
        { sending, reply, messages := (NetworkMessagesResponse.ofDoc A doc).messageJsons
          answering := parsing ++ answering }
        (r.map fun _ =>
          { t with idle := (NetworkMessagesResponse.ofDoc A doc).messageJsons.isEmpty })

inductive Lap.Runs : Lap → Option Task → Prop
  | off {start awake : Task} {waking : List TaskCall} : (wake sha256 start).Traces waking awake →
      awake.config.polling = false →
      Lap.Runs { start, waking, awake, poll := none } (some { awake with idle := true })
  | polled {start awake : Task} {waking : List TaskCall} {poll : Poll} {r : Option Task} :
      (wake sha256 start).Traces waking awake → awake.config.polling = true →
      poll.Runs A sha256 maxSize awake r → Lap.Runs { start, waking, awake, poll := some poll } r

/-- Laps one behind the other; an exception ends them. -/
inductive Run : Task → List Lap → Option Task → Prop
  | nil (t : Task) : Run t [] (some t)
  | lap {lap : Lap} {t : Task} {laps : List Lap} {r : Option Task} :
      lap.Runs A sha256 maxSize (some t) → Run t laps r → Run lap.start (lap :: laps) r
  | escaped {lap : Lap} : lap.Runs A sha256 maxSize none → Run lap.start [lap] none

/-- There is a lap for each of `n` iterations, unless an exception has ended the run before. -/
structure Complete (n : Nat) (laps : List Lap) (r : Option Task) : Prop where
  most : laps.length ≤ n
  whole : r.isSome → laps.length = n

variable {A sha256 maxSize}

theorem poll_traces {t : Task} {es : List TaskCall} {r : Option Task} :
    (sendPoll A t >>= fun reply => if reply = [] then pure (some { t with idle := true })
      else takeReply A sha256 maxSize t reply).Traces es r ↔
    ∃ poll : Poll, es = poll.calls ∧ poll.Runs A sha256 maxSize t r := by
  constructor
  · intro traced
    obtain ⟨reply, sending, es₁, sent, taken, rfl⟩ := traces_bind.mp traced
    by_cases empty : reply = []
    · subst empty
      obtain ⟨rfl, rfl⟩ := traces_pure.mp taken
      exact ⟨_, rfl, .unanswered sent⟩
    · rw [if_neg empty] at taken
      obtain ⟨doc, parsing, es₂, parsed, processed, rfl⟩ := traces_bind.mp taken
      obtain ⟨done, answering, es₃, answered, returned, rfl⟩ := traces_bind.mp processed
      obtain ⟨rfl, rfl⟩ := traces_pure.mp returned
      exact ⟨_, by simp [Poll.calls], .answered sent empty parsed answered⟩
  · rintro ⟨poll, rfl, runs⟩
    cases runs with
    | unanswered sent => exact traces_bind.mpr ⟨[], _, [], sent, traces_pure.mpr ⟨rfl, rfl⟩, rfl⟩
    | @answered sending parsing answering reply doc done sent heard parsed answered =>
      refine traces_bind.mpr ⟨reply, sending, parsing ++ answering, sent, ?_, rfl⟩
      rw [if_neg heard]
      refine traces_bind.mpr ⟨doc, parsing, answering, parsed, ?_, rfl⟩
      exact traces_bind.mpr ⟨done, answering, [], answered, traces_pure.mpr ⟨rfl, rfl⟩, by simp⟩

theorem iteration_traces {t : Task} {es : List TaskCall} {r : Option Task}
    (traced : (iteration A sha256 maxSize t).Traces es r) :
    ∃ lap : Lap, lap.start = t ∧ es = lap.calls ∧ lap.Runs A sha256 maxSize r := by
  rw [iteration_eq] at traced
  obtain ⟨awake, waking, es₁, woken, worked, rfl⟩ := traces_bind.mp traced
  by_cases polling : awake.config.polling = true
  · rw [if_pos polling] at worked
    obtain ⟨poll, rfl, polled⟩ := poll_traces.mp worked
    exact ⟨_, rfl, rfl, .polled woken polling polled⟩
  · rw [if_neg polling] at worked
    obtain ⟨rfl, rfl⟩ := traces_pure.mp worked
    exact ⟨_, rfl, rfl, .off woken (by simpa using polling)⟩

/-- Every run of the loop is made of laps, one for each of its iterations up to the one that an
exception escapes. -/
theorem loop_traces {n : Nat} {t : Task} {es : List TaskCall} {r : Option Task}
    (traced : (loop A sha256 maxSize n t).Traces es r) :
    ∃ laps : List Lap, es = laps.flatMap Lap.calls ∧ Run A sha256 maxSize t laps r ∧
      Complete n laps r := by
  induction n generalizing t es with
  | zero =>
    obtain ⟨rfl, rfl⟩ := traces_pure.mp traced
    exact ⟨[], rfl, .nil t, Nat.le_refl _, fun _ => rfl⟩
  | succ n ih =>
    obtain ⟨next, es₁, es₂, iterated, looped, rfl⟩ := traces_bind.mp traced
    obtain ⟨lap, rfl, rfl, ran⟩ := iteration_traces iterated
    cases next with
    | none =>
      obtain ⟨rfl, rfl⟩ := traces_pure.mp looped
      exact ⟨[lap], by simp, .escaped ran, by simp, fun escaped => by cases escaped⟩
    | some t =>
      obtain ⟨laps, rfl, later, complete⟩ := ih looped
      refine ⟨lap :: laps, by simp, .lap ran later, ?_, fun finished => ?_⟩
      · exact Nat.succ_le_succ complete.most
      · exact congrArg Nat.succ (complete.whole finished)

def Lap.messages (lap : Lap) : List Bytes := lap.poll.elim [] Poll.messages

theorem Poll.Runs.outcome {poll : Poll} {t t' : Task}
    (runs : poll.Runs A sha256 maxSize t (some t')) :
    t' = { t with idle := poll.messages.isEmpty } := by
  generalize returned : some t' = r at runs
  cases runs with
  | unanswered _ => exact Option.some.inj returned
  | @answered _ _ _ _ _ done _ _ _ _ =>
    cases done with
    | none => cases returned
    | some _ => exact Option.some.inj returned

/-- A lap that no exception escapes leaves the task as it was when awake, idle unless it was given
messages. -/
theorem Lap.Runs.outcome {lap : Lap} {t : Task} (runs : lap.Runs A sha256 maxSize (some t)) :
    t = { lap.awake with idle := lap.messages.isEmpty } := by
  cases runs with
  | off _ _ => rfl
  | polled _ _ polled => exact polled.outcome

theorem Lap.Runs.wakes {lap : Lap} {r : Option Task} (runs : lap.Runs A sha256 maxSize r) :
    (wake sha256 lap.start).Traces lap.waking lap.awake := by
  cases runs with
  | off woken _ => exact woken
  | polled woken _ _ => exact woken

/-- The identity a configuration gives to the client. -/
def Config.client (c : Config) : AgentClient :=
  { url := c.peerUrl, key := c.key, agtuuid := c.uuid }

/-- An idle task loads its configuration, hands it to the client and pauses; any other goes on. -/
theorem wake_traces {t awake : Task} {es : List TaskCall}
    (traced : (wake sha256 t).Traces es awake) :
    (t.idle = false ∧ es = [] ∧ awake = t) ∨
      (t.idle = true ∧ ∃ calls, (t.config.load sha256).Traces calls awake.config ∧
        es = calls.map byTask ++ [⟨.delay awake.config.pollTicks, ()⟩] ∧
        awake.client = awake.config.client) := by
  unfold wake at traced
  cases idle : t.idle with
  | false =>
    rw [idle] at traced
    obtain ⟨rfl, rfl⟩ := traces_pure.mp traced
    exact .inl ⟨rfl, rfl, rfl⟩
  | true =>
    rw [idle, if_pos rfl] at traced
    obtain ⟨t₁, es₁, es₂, refreshed, delayed, rfl⟩ := traces_bind.mp traced
    obtain ⟨calls, refreshing, rfl⟩ := traces_onNvs.mp refreshed
    obtain ⟨config, loaded, rfl⟩ := traces_map.mp refreshing
    obtain ⟨_, paused, rfl⟩ := traces_map.mp delayed
    obtain rfl := traces_issue.mp paused
    exact .inr ⟨rfl, calls, loaded, rfl, rfl⟩

/-- The configuration that a lap loaded, if it did. -/
def Lap.loaded (lap : Lap) : Option Config := if lap.start.idle then some lap.awake.config else none

/-- The configuration loaded last, in these laps or before them. -/
def latest (before : Option Config) (laps : List Lap) : Option Config :=
  laps.foldl (fun last lap => lap.loaded.or last) before

/-- A task that goes on without a reload uses the configuration loaded last, and so does
its client. -/
def Task.Holds (t : Task) (last : Option Config) : Prop :=
  t.idle = false → last = some t.config ∧ t.client = t.config.client

theorem Lap.Runs.holds {lap : Lap} {r : Option Task} (runs : lap.Runs A sha256 maxSize r)
    {last : Option Config} (holds : lap.start.Holds last) :
    lap.loaded.or last = some lap.awake.config ∧ lap.awake.client = lap.awake.config.client := by
  rcases wake_traces runs.wakes with ⟨awake, -, same⟩ | ⟨idle, -, -, -, client⟩
  · rw [Lap.loaded, awake, same]
    exact holds awake
  · simp [Lap.loaded, idle, client]

/-- In every lap of a run, the task and its client use the configuration loaded last. -/
theorem Run.holds {t : Task} {laps : List Lap} {r : Option Task}
    (run : Run A sha256 maxSize t laps r) {last : Option Config} (holds : t.Holds last)
    {before after : List Lap} {lap : Lap} (split : laps = before ++ lap :: after) :
    latest last (before ++ [lap]) = some lap.awake.config ∧
      lap.awake.client = lap.awake.config.client ∧ ∃ r', lap.Runs A sha256 maxSize r' := by
  induction run generalizing last before with
  | nil t => simp at split
  | @lap first t' laps r runs _ ih =>
    cases before with
    | nil =>
      obtain ⟨rfl, rfl⟩ := List.cons.inj split
      exact ⟨(runs.holds holds).1, (runs.holds holds).2, _, runs⟩
    | cons u before =>
      obtain ⟨rfl, rfl⟩ := List.cons.inj split
      have next : t'.Holds (first.loaded.or last) := by
        rw [runs.outcome]
        exact fun _ => runs.holds holds
      exact ih next rfl
  | @escaped first runs =>
    cases before with
    | nil =>
      obtain ⟨rfl, -⟩ := List.cons.inj split
      exact ⟨(runs.holds holds).1, (runs.holds holds).2, _, runs⟩
    | cons u before => simp at split

/-- A task that has just been started holds nothing, and is idle. -/
theorem Task.initial_holds (config : Config) : (Task.initial config).Holds none :=
  fun awake => by cases awake

end Laps

end Stembot
