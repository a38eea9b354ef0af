import Stembot.Processor.Answers
import Stembot.Processor.Identity

/-!
# Agents among themselves

What an agent says calls for no answer: another agent that is given it, or the
agent itself, stays silent. Only what comes from elsewhere is answered, so the
posts of any number of agents are bounded by what they were given from elsewhere.
-/

namespace Stembot

open Library Program

/-- The types of what an agent posts. -/
def spokenTypes : List Bytes :=
  [bytes "messages_request", bytes "acknowledgement", bytes "ticket_trace_response",
    bytes "ticket_response"]

/-- A document of one of these types, with no messages in it. -/
structure Spoken (d : Json) : Prop where
  type : ∃ tag ∈ spokenTypes, d.get (bytes "type") = .str tag
  messages : d.get (bytes "messages") = .null

/-- The text of such a document, which can be read and written again without a change. -/
structure Utterance (A : ArduinoJson) (text : Bytes) : Prop where
  spoken : Spoken (A.read text)
  whole : A.serializeJson (A.read text) = text

section Documents

theorem NetworkMessagesRequest.toDoc_spoken (m : NetworkMessagesRequest) : Spoken m.toDoc := by
  refine ⟨⟨bytes "messages_request", by simp [spokenTypes], ?_⟩, ?_⟩ <;>
    simp [toDoc, setOptStr, setOptF64, setOptI64, setOptStrArray, Json.get_set]

theorem Acknowledgement.toDoc_spoken (a : Acknowledgement) : Spoken a.toDoc := by
  refine ⟨⟨bytes "acknowledgement", by simp [spokenTypes], ?_⟩, ?_⟩ <;>
    simp [toDoc, setOptStr, setOptF64, Json.get_set]

theorem TicketTraceResponse.toDoc_spoken (t : TicketTraceResponse) : Spoken t.toDoc := by
  refine ⟨⟨bytes "ticket_trace_response", by simp [spokenTypes], ?_⟩, ?_⟩ <;>
    simp [toDoc, setOptStr, setOptF64, Json.get_set]

theorem responseDoc_spoken (A : ArduinoJson) (config : Config) (m form : Json) :
    Spoken (responseDoc A config m form) := by
  refine ⟨⟨bytes "ticket_response", by simp [spokenTypes], ?_⟩, ?_⟩ <;>
    simp [responseDoc, NetworkTicket.docAround, setOptStr, setOptF64, Json.get_set]

/-- The last hop is named without a change to the type. -/
theorem Spoken.signed {d : Json} (spoken : Spoken d) (isrc : Bytes) :
    Spoken (d.set (bytes "isrc") (.str isrc)) := by
  obtain ⟨⟨tag, member, type⟩, messages⟩ := spoken
  have writable : d.Writable := by
    cases d with
    | obj | null => trivial
    | _ => cases type
  refine ⟨⟨tag, member, ?_⟩, ?_⟩
  · rw [Json.get_set writable, if_neg (by decide)]
    exact type
  · rw [Json.get_set writable, if_neg (by decide)]
    exact messages

/-- No type that is spoken is that of a message to answer. -/
theorem Spoken.ignored {d : Json} (spoken : Spoken d) :
    networkMessageTypeOf (typeOfDoc d) ≠ .TicketRequest ∧
      networkMessageTypeOf (typeOfDoc d) ≠ .Ping := by
  obtain ⟨⟨tag, member, type⟩, -⟩ := spoken
  have known : 0 ∉ tag ∧ tag ≠ [] ∧ tag ≠ bytes "ticket_request" ∧ tag ≠ bytes "ping" := by
    simp only [spokenTypes, List.mem_cons, List.not_mem_nil, or_false] at member
    rcases member with rfl | rfl | rfl | rfl <;> decide
  have read : typeOfDoc d = tag := (typeOfDoc_eq_iff known.1 known.2.1).mpr (.inl type)
  rw [ne_eq, networkMessageTypeOf_eq_ticketRequest, ne_eq, networkMessageTypeOf_eq_ping, read]
  exact known.2.2

/-- Taken for a reply, it brings no messages. -/
theorem Spoken.empty {A : ArduinoJson} {d : Json} (spoken : Spoken d) :
    (NetworkMessagesResponse.ofDoc A d).messageJsons = [] := by
  simp [NetworkMessagesResponse.ofDoc, spoken.messages, Json.items]

end Documents

section Messages

variable {A : ArduinoJson} (client : AgentClient)

/-- What is posted is spoken, and there are no more documents than this. -/
def Utters (A : ArduinoJson) (client : AgentClient) (n : Nat) (es : List TaskCall) : Prop :=
  ∃ docs, Posts A client docs es ∧ (∀ d ∈ docs, Spoken d) ∧ docs.length ≤ n

variable {client} {es es' : List TaskCall} {n n' : Nat}

theorem Utters.silent (posts : Posts A client [] es) : Utters A client 0 es :=
  ⟨[], posts, by simp, le_rfl⟩

theorem Utters.one {d : Json} (posts : Posts A client [d] es) (spoken : Spoken d) :
    Utters A client 1 es := by
  refine ⟨[d], posts, fun d' member => ?_, le_rfl⟩
  rwa [List.mem_singleton.mp member]

theorem Utters.append (first : Utters A client n es) (second : Utters A client n' es') :
    Utters A client (n + n') (es ++ es') := by
  obtain ⟨docs, posts, spoken, few⟩ := first
  obtain ⟨docs', posts', spoken', few'⟩ := second
  refine ⟨docs ++ docs', posts.append posts', fun d member => ?_, ?_⟩
  · exact (List.mem_append.mp member).elim (spoken d) (spoken' d)
  · rw [List.length_append]
    exact Nat.add_le_add few few'

theorem Utters.mono (utters : Utters A client n es) (fewer : n ≤ n') : Utters A client n' es := by
  obtain ⟨docs, posts, spoken, few⟩ := utters
  exact ⟨docs, posts, spoken, few.trans fewer⟩

variable (client) (lawful : A.Lawful)
include lawful

theorem sendTrace_utters (config : Config) (ticket : NetworkTicket) (type : Bytes) :
    Sends A (sendTrace A config client ticket type) fun _ es => Utters A client 1 es := by
  unfold sendTrace
  split
  · refine (getCurrentTime_sends client).bind ?_
    intro hopTime es silent
    let trace : TicketTraceResponse :=
      { tckuuid := ticket.tckuuid, networkTicketType := type, hopTime, src := config.uuid,
        dest := some ticket.src }
    refine (sendNetworkMessage_sends client lawful trace.toDoc_within).bind ?_
    intro _ es₁ posted
    exact Ensures.pure (.one (by simpa using silent.append posted) trace.toDoc_spoken)
  · exact Ensures.pure ((Utters.silent .nil).mono (Nat.zero_le 1))

/-- A message is answered by three documents at most. -/
theorem processNetworkMessage_utters (sha256 : Sha256) (maxSize : Nat)
    (config : Config) {msgJson : Bytes} (h : (A.read msgJson).Within nestingLimit) :
    Sends A (processNetworkMessage A sha256 maxSize config client msgJson) fun _ es =>
      Utters A client 3 es := by
  refine (parse_sends client _).bind ?_
  rintro doc es ⟨rfl, silent⟩
  cases networkMessageTypeOf (typeOfDoc (A.read msgJson)) with
  | TicketRequest =>
    have formWithin : ((A.read msgJson).get (bytes "form")).Within (nestingLimit - 1) :=
      Json.Within.get h _
    refine (parse_sends client _).bind ?_
    rintro doc es₁ ⟨rfl, silent₁⟩
    refine (sendTrace_utters client lawful config _ _).bind ?_
    intro _ es₂ uttered₂
    refine (processControlForm_sends client lawful sha256 maxSize config
      (formWithin.mono (by decide))).bind ?_
    rintro reply es₃ ⟨silent₃, out, handled, rfl⟩
    have sofar := (Utters.silent silent).append
      ((Utters.silent silent₁).append (uttered₂.append (.silent silent₃)))
    cases out with
    | none =>
      refine Ensures.pure (Utters.mono ?_ (by decide : 0 + (0 + (1 + 0)) ≤ 3))
      simpa using sofar
    | some form =>
      have within : form.Within (nestingLimit - 1) := handled.within formWithin
      refine (sendTrace_utters client lawful config _ _).bind ?_
      intro _ es₄ uttered₄
      refine (sendResponse_sends client lawful config (A.read msgJson) within).mono ?_
      rintro _ es₅ ⟨rfl, posted₅⟩
      have later := uttered₄.append (.one posted₅ (responseDoc_spoken A config _ form))
      simpa using sofar.append later
  | Ping =>
    refine (parse_sends client _).bind ?_
    rintro doc es₁ ⟨rfl, silent₁⟩
    refine (getCurrentTime_sends client).bind ?_
    intro timestamp es₂ silent₂
    let ack : Acknowledgement :=
      { ackType := bytes "ping", src := config.uuid,
        dest := some (Ping.ofDoc A (A.read msgJson)).src
        timestamp := some timestamp }
    refine (sendNetworkMessage_sends client lawful ack.toDoc_within).bind ?_
    intro _ es₃ posted₃
    have all := silent.append (silent₁.append (silent₂.append posted₃))
    exact Ensures.pure ((Utters.one (by simpa using all) ack.toDoc_spoken).mono (by decide))
  | _ =>
    refine (parse_sends client _).bind ?_
    rintro doc es₁ ⟨-, silent₁⟩
    exact Ensures.pure ((Utters.silent (by simpa using silent.append silent₁)).mono (Nat.zero_le 3))

omit lawful in
/-- What is spoken is not answered. -/
theorem processNetworkMessage_ignores (sha256 : Sha256) (maxSize : Nat)
    (config : Config) {msgJson : Bytes} (spoken : Spoken (A.read msgJson)) :
    Sends A (processNetworkMessage A sha256 maxSize config client msgJson) fun _ es =>
      Utters A client 0 es := by
  refine (parse_sends client _).bind ?_
  rintro doc es ⟨rfl, silent⟩
  have ignored := spoken.ignored
  cases type : networkMessageTypeOf (typeOfDoc (A.read msgJson)) with
  | TicketRequest => exact absurd type ignored.1
  | Ping => exact absurd type ignored.2
  | _ =>
    refine (parse_sends client _).bind ?_
    rintro doc es₁ ⟨-, silent₁⟩
    exact Ensures.pure (.silent (by simpa using silent.append silent₁))

/-- Among the messages of a reply, those that are known to be spoken are not answered. -/
theorem processMessages_utters {sha256 : Sha256} {maxSize : Nat} (config : Config)
    {known : List Bytes} (spoken : ∀ text ∈ known, Utterance A text) {msgJsons : List Bytes}
    (h : ∀ s ∈ msgJsons, (A.read s).Within nestingLimit) :
    Sends A (processMessages A sha256 maxSize config client msgJsons) fun _ es =>
      Utters A client (3 * msgJsons.countP fun s => s ∉ known) es := by
  induction msgJsons with
  | nil => exact Ensures.pure (.silent .nil)
  | cons msgJson rest ih =>
    have first : Sends A (processNetworkMessage A sha256 maxSize config client msgJson) fun _ es =>
        Utters A client (if msgJson ∉ known then 3 else 0) es := by
      split
      · exact processNetworkMessage_utters client lawful sha256 maxSize config
          (h msgJson List.mem_cons_self)
      · rename_i heard
        exact processNetworkMessage_ignores client sha256 maxSize config
          (spoken msgJson (not_not.mp heard)).spoken
    have count : 3 * (msgJson :: rest).countP (fun s => s ∉ known) =
        (if msgJson ∉ known then 3 else 0) + 3 * rest.countP fun s => s ∉ known := by
      rw [List.countP_cons]
      simp only [decide_eq_true_eq]
      split <;> omega
    refine first.bind fun r es uttered => ?_
    cases r with
    | none =>
      refine Ensures.pure ?_
      rw [List.append_nil, count]
      exact uttered.mono (Nat.le_add_right _ _)
    | some _ =>
      refine (ih fun s member => h s (List.mem_cons_of_mem _ member)).mono fun r es' uttered' => ?_
      rw [count]
      exact uttered.append uttered'

omit lawful in
/-- The messages of a reply are handled one behind the other, up to an exception. -/
theorem processMessages_each {sha256 : Sha256} {maxSize : Nat} {config : Config}
    {msgJsons : List Bytes} {calls : List TaskCall} {r : Option Unit}
    (traced : (processMessages A sha256 maxSize config client msgJsons).Traces calls r) :
    ∃ each : List (Bytes × List TaskCall), calls = each.flatMap Prod.snd ∧
      each.map Prod.fst <+: msgJsons ∧
      ∀ m ∈ each, ∃ r, (processNetworkMessage A sha256 maxSize config client m.1).Traces m.2 r := by
  induction msgJsons generalizing calls with
  | nil =>
    obtain ⟨rfl, -⟩ := traces_pure.mp traced
    exact ⟨[], rfl, List.nil_prefix, fun m member => absurd member List.not_mem_nil⟩
  | cons msgJson rest ih =>
    obtain ⟨done, first, later, one, others, rfl⟩ := traces_bind.mp traced
    cases done with
    | none =>
      obtain ⟨rfl, -⟩ := traces_pure.mp others
      refine ⟨[(msgJson, first)], by simp, ⟨rest, rfl⟩, fun m member => ?_⟩
      rw [List.mem_singleton.mp member]
      exact ⟨none, one⟩
    | some _ =>
      obtain ⟨each, rfl, front, handled⟩ := ih others
      refine ⟨(msgJson, first) :: each, rfl, List.cons_prefix_cons.mpr ⟨rfl, front⟩, ?_⟩
      exact List.forall_mem_cons.mpr ⟨⟨_, one⟩, handled⟩

end Messages

/-- The texts posted. -/
def said (es : List TaskCall) : List Bytes := (outgoing es).map Prod.snd

@[simp] theorem said_append (es es' : List TaskCall) : said (es ++ es') = said es ++ said es' := by
  simp [said]

/-- What is made of the messages of a reply, one by one: three texts at most are posted for each,
and none for one of these texts. -/
def Poll.Deals (A : ArduinoJson) (sha256 : Sha256) (maxSize : Nat) (t : Task) (known : List Bytes)
    (poll : Poll) : Prop :=
  ∃ parsing, ∃ each : List (Bytes × List TaskCall),
    poll.answering = parsing ++ each.flatMap Prod.snd ∧ said parsing = [] ∧
    each.map Prod.fst <+: poll.messages ∧
    ∀ m ∈ each, (∃ r, (processNetworkMessage A sha256 maxSize t.config t.client m.1).Traces m.2 r) ∧
      (said m.2).length ≤ 3 ∧ (m.1 ∈ known → said m.2 = [])

/-- The messages given to the agent that are none of these texts, nor its own request. -/
def Lap.foreign (known : List Bytes) (lap : Lap) : Nat :=
  lap.poll.elim 0 fun poll => poll.messages.countP fun text => text ∉ known ++ said poll.sending

section Laps

variable {A : ArduinoJson} (lawful : A.Lawful) {client : AgentClient} {es : List TaskCall} {n : Nat}
include lawful

theorem Utters.voiced (utters : Utters A client n es) :
    (said es).length ≤ n ∧ ∀ text ∈ said es, Utterance A text := by
  obtain ⟨docs, posts, spoken, few⟩ := utters
  have texts : said es = docs.map (signed A client) := by
    rw [said, posts.texts, List.map_map]
    rfl
  rw [texts]
  refine ⟨by rwa [List.length_map], fun text member => ?_⟩
  obtain ⟨d, inside, rfl⟩ := List.mem_map.mp member
  have read := read_signed client lawful (posts.within d inside)
  constructor <;> rw [read]
  · exact (spoken d inside).signed client.agtuuid
  · rfl

theorem sendPoll_utters (t : Task) : Sends A (sendPoll A t) fun _ es => Utters A t.client 1 es := by
  refine (getCurrentTime_sends t.client).bind ?_
  intro timestamp es silent
  let request := pollRequest t.config timestamp
  refine (sendNetworkMessage_sends t.client lawful request.toDoc_within).mono ?_
  intro _ es' posted
  exact .one (silent.append posted) request.toDoc_spoken

variable {sha256 : Sha256} {maxSize : Nat} {lap : Lap} {r : Option Task}

/-- The messages of a reply are dealt with one by one. -/
theorem Poll.Runs.deals {poll : Poll} {t : Task} (runs : poll.Runs A sha256 maxSize t r)
    (honest : ∀ e ∈ poll.calls, Honest A e) {known : List Bytes}
    (spoken : ∀ text ∈ known, Utterance A text) : poll.Deals A sha256 maxSize t known := by
  cases runs with
  | unanswered sent =>
    exact ⟨[], [], rfl, rfl, List.nil_prefix, fun m member => absurd member List.not_mem_nil⟩
  | @answered sending parsing answering reply doc _ sent _ parsed answered =>
    obtain ⟨rfl, silent⟩ := parse_sends t.client reply _ _ parsed
      fun e member => honest e (List.mem_append_right _ (List.mem_append_left _ member))
    have parsed : said parsing = [] :=
      List.eq_nil_of_length_eq_zero (Nat.le_zero.mp ((Utters.silent silent).voiced lawful).1)
    obtain ⟨each, rfl, front, handled⟩ := processMessages_each t.client answered
    refine ⟨parsing, each, rfl, parsed, front, fun m member => ?_⟩
    obtain ⟨r, ran⟩ := handled m member
    have own : ∀ e ∈ m.2, Honest A e := fun e inside => honest e (List.mem_append_right _
      (List.mem_append_right _ (List.mem_flatMap.mpr ⟨m, member, inside⟩)))
    have within : (A.read m.1).Within nestingLimit := messageJsons_within lawful reply m.1
      (front.subset (List.mem_map_of_mem member))
    refine ⟨⟨r, ran⟩, ?_, fun heard => ?_⟩
    · exact ((processNetworkMessage_utters t.client lawful sha256 maxSize t.config within _ _ ran
        own).voiced lawful).1
    · have none := processNetworkMessage_ignores t.client sha256 maxSize t.config
        (spoken m.1 heard).spoken _ _ ran own
      exact List.eq_nil_of_length_eq_zero (Nat.le_zero.mp (none.voiced lawful).1)

/-- What a poll and its answers say is spoken; it is the request, and three answers at most to each
foreign message. A reply that somebody has said, or the request itself, brings no messages. -/
theorem Poll.Runs.utters {poll : Poll} {t : Task} (runs : poll.Runs A sha256 maxSize t r)
    (honest : ∀ e ∈ poll.calls, Honest A e) {known : List Bytes}
    (spoken : ∀ text ∈ known, Utterance A text) :
    (∀ text ∈ said poll.calls, Utterance A text) ∧
      (said poll.calls).length ≤ 1 +
        3 * poll.messages.countP (fun text => text ∉ known ++ said poll.sending) ∧
      (poll.reply ∈ known ++ said poll.sending → poll.messages = []) ∧
      poll.Deals A sha256 maxSize t (known ++ said poll.sending) := by
  have dealt (request : ∀ text ∈ said poll.sending, Utterance A text) :
      poll.Deals A sha256 maxSize t (known ++ said poll.sending) :=
    runs.deals lawful honest fun text member =>
      (List.mem_append.mp member).elim (spoken text) (request text)
  cases runs with
  | unanswered sent =>
    have asked := sendPoll_utters lawful t _ _ sent fun e member =>
      honest e (List.mem_append_left _ member)
    obtain ⟨one, request⟩ := asked.voiced lawful
    simp only [Poll.calls, List.append_nil]
    exact ⟨request, Nat.le_add_right_of_le one, fun _ => trivial, dealt request⟩
  | @answered sending parsing answering reply doc _ sent _ parsed answered =>
    have asked := sendPoll_utters lawful t _ _ sent fun e member =>
      honest e (List.mem_append_left _ member)
    obtain ⟨-, request⟩ := asked.voiced lawful
    obtain ⟨rfl, silent⟩ := parse_sends t.client reply _ _ parsed
      fun e member => honest e (List.mem_append_right _ (List.mem_append_left _ member))
    have heard : ∀ text ∈ known ++ said sending, Utterance A text := fun text member =>
      (List.mem_append.mp member).elim (spoken text) (request text)
    have answers := processMessages_utters t.client lawful t.config heard
      (messageJsons_within lawful reply) _ _ answered
      fun e member => honest e (List.mem_append_right _ (List.mem_append_right _ member))
    obtain ⟨few, all⟩ := (asked.append ((Utters.silent silent).append answers)).voiced lawful
    refine ⟨all, few.trans ?_, fun member => (heard reply member).spoken.empty, dealt request⟩
    rw [Nat.zero_add]

theorem Lap.Runs.utters (runs : lap.Runs A sha256 maxSize r) (honest : ∀ e ∈ lap.calls, Honest A e)
    {known : List Bytes} (spoken : ∀ text ∈ known, Utterance A text) :
    (∀ text ∈ said lap.calls, Utterance A text) ∧
      (said lap.calls).length ≤ 1 + 3 * lap.foreign known ∧
      ∀ poll, lap.poll = some poll →
        (poll.reply ∈ known ++ said poll.sending → poll.messages = []) ∧
        poll.Deals A sha256 maxSize lap.awake (known ++ said poll.sending) := by
  have silent : said lap.waking = [] := by rw [said, runs.outgoing_waking, List.map_nil]
  have whole : said lap.calls = said (lap.poll.elim [] Poll.calls) := by
    rw [Lap.calls, said_append, silent, List.nil_append]
  rw [whole]
  cases runs with
  | off _ _ => exact ⟨nofun, Nat.zero_le _, nofun⟩
  | @polled start awake waking poll r _ _ polled =>
    have calls : ∀ e ∈ poll.calls, Honest A e :=
      fun e member => honest e (List.mem_append_right _ member)
    obtain ⟨all, few, echo, dealt⟩ := polled.utters lawful calls spoken
    refine ⟨all, few, ?_⟩
    rintro _ ⟨⟩
    exact ⟨echo, dealt⟩

end Laps

section Agents

variable {ι : Type}

/-- The laps of one agent among those of all. -/
def laps [DecidableEq ι] (i : ι) (history : List (ι × Lap)) : List Lap :=
  history.filterMap fun e => if e.1 = i then some e.2 else none

/-- What the agents have said. -/
def sayings (history : List (ι × Lap)) : List Bytes := history.flatMap fun e => said e.2.calls

/-- How often a message was given to an agent that no agent had said before. -/
def deliveries : List Bytes → List (ι × Lap) → Nat
  | _, [] => 0
  | known, e :: history => e.2.foreign known + deliveries (known ++ said e.2.calls) history

variable {A : ArduinoJson} (lawful : A.Lawful) {sha256 : ι → Sha256} {maxSize : ι → Nat}
include lawful

theorem sayings_le {history : List (ι × Lap)}
    (runs : ∀ e ∈ history, ∃ r, e.2.Runs A (sha256 e.1) (maxSize e.1) r)
    (honest : ∀ e ∈ history, ∀ call ∈ e.2.calls, Honest A call) {known : List Bytes}
    (spoken : ∀ text ∈ known, Utterance A text) :
    (∀ text ∈ sayings history, Utterance A text) ∧
      (sayings history).length ≤ history.length + 3 * deliveries known history := by
  induction history generalizing known with
  | nil => exact ⟨nofun, le_rfl⟩
  | cons e history ih =>
    obtain ⟨r, ran⟩ := runs e List.mem_cons_self
    obtain ⟨first, few, -⟩ := ran.utters lawful (honest e List.mem_cons_self) spoken
    have known' : ∀ text ∈ known ++ said e.2.calls, Utterance A text := fun text member =>
      (List.mem_append.mp member).elim (spoken text) (first text)
    obtain ⟨later, few'⟩ := ih (fun e member => runs e (List.mem_cons_of_mem _ member))
      (fun e member => honest e (List.mem_cons_of_mem _ member)) known'
    refine ⟨fun text member => (List.mem_append.mp member).elim (first text) (later text), ?_⟩
    calc (sayings (e :: history)).length
        = (said e.2.calls).length + (sayings history).length := List.length_append
      _ ≤ (1 + 3 * e.2.foreign known) +
          (history.length + 3 * deliveries (known ++ said e.2.calls) history) :=
        Nat.add_le_add few few'
      _ = (e :: history).length + 3 * deliveries known (e :: history) := by
        simp only [deliveries, List.length_cons]
        omega

omit lawful in
theorem Run.each {sha256 : Sha256} {maxSize : Nat} {t : Task} {laps : List Lap} {r : Option Task}
    (run : Run A sha256 maxSize t laps r) : ∀ lap ∈ laps, ∃ r, lap.Runs A sha256 maxSize r := by
  induction run with
  | nil t =>
    intro lap member
    cases member
  | lap runs _ ih =>
    intro lap member
    rcases List.mem_cons.mp member with rfl | later
    · exact ⟨_, runs⟩
    · exact ih lap later
  | escaped runs =>
    intro lap member
    rw [List.mem_singleton.mp member]
    exact ⟨_, runs⟩

/-- Any number of agents, each with a run of its own, in any order. A post that is passed on among
the messages of a reply arrives as the text it was. Whoever passes posts on, as often and to
whomever, the calls made for one post nothing, and a reply that is one brings no messages: the
agents post their requests, and three answers at most to each message that came from elsewhere. -/
theorem echoes_unanswered [DecidableEq ι] {history : List (ι × Lap)}
    (runs : ∀ i, ∃ start r, Run A (sha256 i) (maxSize i) start (laps i history) r)
    (honest : ∀ e ∈ history, ∀ call ∈ e.2.calls, Honest A call) :
    (∀ text ∈ sayings history, A.serializeJson (A.read text) = text) ∧
      (sayings history).length ≤ history.length + 3 * deliveries [] history ∧
      ∀ before e after, history = before ++ e :: after →
        (said e.2.calls).length ≤ 1 + 3 * e.2.foreign (sayings before) ∧
        ∀ poll, e.2.poll = some poll →
          (poll.reply ∈ sayings before ++ said poll.sending → poll.messages = []) ∧
          poll.Deals A (sha256 e.1) (maxSize e.1) e.2.awake
            (sayings before ++ said poll.sending) := by
  have each : ∀ e ∈ history, ∃ r, e.2.Runs A (sha256 e.1) (maxSize e.1) r := by
    intro e member
    obtain ⟨start, r, run⟩ := runs e.1
    exact run.each e.2 (List.mem_filterMap.mpr ⟨e, member, if_pos rfl⟩)
  have none : ∀ text ∈ ([] : List Bytes), Utterance A text := nofun
  obtain ⟨uttered, few⟩ := sayings_le lawful each honest none
  refine ⟨fun text member => (uttered text member).whole, few, ?_⟩
  rintro before e after rfl
  have inside : ∀ e' ∈ before, e' ∈ before ++ e :: after := fun e' member =>
    List.mem_append_left _ member
  have spoken := (sayings_le lawful (fun e' member => each e' (inside e' member))
    (fun e' member => honest e' (inside e' member)) none).1
  obtain ⟨r, ran⟩ := each e (by simp)
  obtain ⟨-, few, echo⟩ := ran.utters lawful (honest e (by simp)) spoken
  exact ⟨few, echo⟩

end Agents

theorem echoes_unanswered_sample :
    let calls (reply : String) := (loop textLibrary sampleSha256 0 2 (.initial Config.blank)).trace
      (World.answer textLibrary) (sampleWorld (sampleEntries sampleUuid sampleKey) [bytes reply])
    ∃ one other : List Lap,
      one.flatMap Lap.calls = calls "\x7b\"messages\":[\x7b\"type\":\"ping\"\x7d]\x7d" ∧
      other.flatMap Lap.calls = calls
      "\x7b\"messages\":[\x7b\"type\":\"acknowledgement\"\x7d]\x7d" ∧
      (sayings (one.map (Prod.mk true) ++ other.map (Prod.mk false))).length ≤
        one.length + other.length + 3 * deliveries []
        (one.map (Prod.mk true) ++ other.map (Prod.mk false)) := by
  intro calls
  let world (reply : String) := sampleWorld (sampleEntries sampleUuid sampleKey) [bytes reply]
  have made : ∀ reply, ∃ laps : List Lap, calls reply = laps.flatMap Lap.calls ∧
      (∃ r, Run textLibrary sampleSha256 0 (.initial Config.blank) laps r) ∧
      ∀ lap ∈ laps, ∀ call ∈ lap.calls, Honest textLibrary call := by
    intro reply
    let program := loop textLibrary sampleSha256 0 2 (.initial Config.blank)
    obtain ⟨laps, split, run, -⟩ :=
      loop_traces (traces_run (World.answer textLibrary) program (world reply))
    have sound : (world reply).Sound := fun _ => rfl
    refine ⟨laps, split, ⟨_, run⟩, fun lap member call inside => sound.honest program call ?_⟩
    rw [split]
    exact List.mem_flatMap.mpr ⟨lap, member, inside⟩
  obtain ⟨one, first, ⟨r, run⟩, honest⟩ := made "\x7b\"messages\":[\x7b\"type\":\"ping\"\x7d]\x7d"
  obtain ⟨other, second, ⟨r', run'⟩, honest'⟩ :=
    made "\x7b\"messages\":[\x7b\"type\":\"acknowledgement\"\x7d]\x7d"
  refine ⟨one, other, first.symm, second.symm, ?_⟩
  have runs : ∀ i : Bool, ∃ start r, Run textLibrary sampleSha256 0 start
      (laps i (one.map (Prod.mk true) ++ other.map (Prod.mk false))) r := by
    intro i
    refine ⟨.initial Config.blank, ?_⟩
    cases i with
    | true => exact ⟨r, by simpa [laps, Function.comp_def] using run⟩
    | false => exact ⟨r', by simpa [laps, Function.comp_def] using run'⟩
  have relied : ∀ e ∈ one.map (Prod.mk true) ++ other.map (Prod.mk false), ∀ call ∈ e.2.calls,
      Honest textLibrary call := by
    intro e member
    rcases List.mem_append.mp member with here | there
    · obtain ⟨lap, inside, rfl⟩ := List.mem_map.mp here
      exact honest lap inside
    · obtain ⟨lap, inside, rfl⟩ := List.mem_map.mp there
      exact honest' lap inside
  have bound := (@echoes_unanswered Bool textLibrary textLibrary_lawful (fun _ => sampleSha256)
    (fun _ => 0) _ _ runs
    relied).2.1
  simpa using bound

end Stembot
