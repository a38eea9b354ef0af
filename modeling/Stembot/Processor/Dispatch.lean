import Stembot.Processor.Answers

/-!
# One message at a time

What each function of the task emits when no parse is made to fail: its posts,
as texts, and no parse error except that of an absent form.
-/

namespace Stembot

open Library

/-- The only texts that were parsed with an error are empty. -/
def Quiet (es : List Event) : Prop := ∀ text, .parsed text true ∈ es → text = []

/-- Quiet events that give these answers. -/
def Tells (A : ArduinoJson) (answers : List Answer) (es : List Event) : Prop :=
  Quiet es ∧ (posts es).map (fun post => answerOf A post.1) = answers

theorem Quiet.append {es es' : List Event} (h : Quiet es) (h' : Quiet es') : Quiet (es ++ es') := by
  intro text member
  rcases List.mem_append.mp member with first | second
  · exact h text first
  · exact h' text second

theorem Tells.nil {A : ArduinoJson} : Tells A [] [] := by
  refine ⟨?_, rfl⟩
  intro text member
  cases member

theorem Tells.append {A : ArduinoJson} {as as' : List Answer}
    {es es' : List Event} (h : Tells A as es) (h' : Tells A as' es') :
    Tells A (as ++ as') (es ++ es') := by
  refine ⟨h.1.append h'.1, ?_⟩
  rw [posts_append, List.map_append, h.2, h'.2]

/-- What a program emits in a sound world. -/
abbrev Says (A : ArduinoJson) {α : Type} (p : ProcessorProgram α)
    (Q : α → List Event → Prop) : Prop :=
  Program.Emits (World.answer A) World.log World.Sound p Q

/-- A text the parser reads to its end: nothing, or the serialisation of a document. -/
def Whole (A : ArduinoJson) (text : Bytes) : Prop :=
  text = [] ∨ ∃ d : Json, d.Within nestingLimit ∧ text = A.serializeJson d

theorem FormText.whole {A : ArduinoJson} {text : Bytes} (h : FormText A text) : Whole A text := by
  rcases h with empty | ⟨d, -, within, serialized⟩
  · exact .inl empty
  · exact .inr ⟨d, within.mono (by decide), serialized⟩

theorem formText_serialize {A : ArduinoJson} {d : Json} (notNull : d ≠ .null)
    (h : d.Within (nestingLimit - 1)) :
    FormText A (A.serializeJson d) := .inr ⟨d, notNull, h, rfl⟩

/-- The form of a ticket that was read from a message. -/
theorem formText_ofDoc {A : ArduinoJson} {m : Json} (h : m.Within (nestingLimit - 1)) :
    FormText A (NetworkTicket.ofDoc A m).formJson := by
  have form : (m.get (bytes "form")).Within (nestingLimit - 2) := Json.Within.get h _
  change FormText A ((textUnlessNull A (m.get (bytes "form"))).getD [])
  by_cases null : m.get (bytes "form") = .null
  · rw [null]
    exact .inl rfl
  · rw [textUnlessNull_of_ne null]
    exact formText_serialize null (form.mono (by decide))

section Programs

variable {A : ArduinoJson} {α β : Type}

theorem speaks_pure {a : α} {Q : α → List Event → Prop} (h : Q a []) :
    Says A (pure a : ProcessorProgram α) Q := Program.Emits.pure h

/-- One step that tells some texts, and what follows it. -/
theorem Says.then {p : ProcessorProgram α} {k : α → ProcessorProgram β} {P : α → Prop}
    {as : List Answer} {Q : β → List Event → Prop}
    (first : Says A p fun a es => P a ∧ Tells A as es)
    (rest : ∀ a es, P a → Tells A as es → Says A (k a) fun b es' => Q b (es ++ es')) :
    Says A (p >>= k) Q :=
  Program.Emits.bind first fun a es h => rest a es h.1 h.2

theorem getCurrentTime_speaks : Says A getCurrentTime fun _ es => True ∧ Tells A [] es := by
  intro w sound
  exact ⟨sound, [], by simp [getCurrentTime, World.answer], trivial, Tells.nil⟩

theorem onNvs_speaks (p : NvsProgram α) : Says A (onNvs p) fun _ es => True ∧ Tells A [] es := by
  intro w sound
  rw [World.run_onNvs]
  exact ⟨sound, [], by simp, trivial, Tells.nil⟩

/-- The document of any text, with the error the library reports for it. -/
theorem parse_emits (text : Bytes) : Says A (parse text) fun doc es =>
    doc = A.read text ∧ es = [.parsed text (A.deserializeJson text).error] := by
  intro w sound
  have none : w.failures.head = none := sound 0
  refine ⟨fun n => sound (n + 1), _, rfl, ?_, ?_⟩
  · simp [parse, World.answer, World.parseAs, none, ArduinoJson.read]
  · simp [World.parseAs, none]

variable (lawful : A.Lawful)
include lawful

theorem parse_speaks {text : Bytes} (whole : Whole A text) :
    Says A (parse text) fun doc es => doc = A.read text ∧ Tells A [] es := by
  refine (parse_emits text).mono ?_
  rintro doc es ⟨rfl, rfl⟩
  refine ⟨rfl, ?_, by simp⟩
  intro text' member
  obtain ⟨rfl, error⟩ : text' = text ∧ true = (A.deserializeJson text).error := by
    simpa using member
  rcases whole with empty | ⟨d, within, rfl⟩
  · exact empty
  · rw [lawful.parse_serialize within] at error
    cases error

/-- Sending a message posts its patched text and returns the reply. -/
theorem sendNetworkMessage_emits (client : AgentClient) {d : Json} (h : d.Within nestingLimit) :
    Says A (sendNetworkMessage A client (A.serializeJson d)) fun reply es =>
      Quiet es ∧ posts es = [(setIsrcJson A (A.serializeJson d) client.agtuuid, reply)] := by
  apply Says.then (parse_speaks lawful (.inr ⟨d, h, rfl⟩))
  rintro doc es rfl told
  intro w sound
  refine ⟨sound, [.posted client _ w.replies.head], rfl, ?_, ?_⟩
  · exact told.1.append fun text member => by simp at member
  · rw [posts_append, List.map_eq_nil_iff.mp told.2]
    rfl

theorem sendNetworkMessage_speaks (client : AgentClient) {d : Json} (h : d.Within nestingLimit)
    {a : Answer} (decoded : answerOf A (setIsrcJson A (A.serializeJson d) client.agtuuid) = a) :
    Says A (sendNetworkMessage A client (A.serializeJson d)) fun _ es => True ∧ Tells A [a] es := by
  refine (sendNetworkMessage_emits lawful client h).mono ?_
  rintro reply es ⟨quiet, posted⟩
  refine ⟨trivial, quiet, ?_⟩
  rw [posted, List.map_singleton, decoded]

/-- A form is answered by a form, and nothing is posted. -/
theorem processControlForm_speaks (sha256 : Sha256) (maxSize : Nat)
    (config : Config) {formJson : Bytes} (form : FormText A formJson) :
    Says A (processControlForm A sha256 maxSize config formJson) fun r es =>
      (∀ out, r = some out → FormText A out) ∧ Tells A [] es := by
  apply Says.then (parse_speaks lawful form.whole)
  rintro doc es rfl told
  cases controlFormTypeOf (typeOfDoc (A.read formJson)) with
  | GetConfig =>
    apply Says.then (parse_speaks lawful form.whole)
    rintro doc es₁ rfl told₁
    apply Says.then (onNvs_speaks _)
    intro saved es₂ _ told₂
    apply Says.then (onNvs_speaks _)
    intro _ es₃ _ told₃
    apply speaks_pure
    refine ⟨?_, by simpa using told.append (told₁.append (told₂.append told₃))⟩
    rintro out ⟨⟩
    rw [Config.toJson, GetConfig.toJson_serialized lawful]
    exact formText_serialize (GetConfig.docAround_ne_null _ _)
      (GetConfig.docAround_within _ saved.toDoc_within)
  | Benchmark =>
    apply Says.then (parse_speaks lawful form.whole)
    rintro doc es₁ rfl told₁
    apply speaks_pure
    refine ⟨?_, by simpa using told.append told₁⟩
    intro out made
    obtain ⟨f, -, rfl⟩ := Option.map_eq_some_iff.mp made
    exact formText_serialize f.toDoc_ne_null f.toDoc_within
  | Unknown =>
    have echo : ∀ out, some formJson = some out → FormText A out := by
      rintro out ⟨⟩
      exact form
    cases config.debug with
    | true =>
      apply Says.then (parse_speaks lawful form.whole)
      rintro doc es₁ rfl told₁
      apply speaks_pure
      exact ⟨echo, by simpa using told.append told₁⟩
    | false =>
      apply speaks_pure
      exact ⟨echo, by simpa using told⟩

/-- The answers of a traced ticket on either side of its work. -/
def traced (ticket : NetworkTicket) (type : Bytes) : List Answer :=
  if ticket.tracing then [.ticketTraceResponse ticket.tckuuid type (some ticket.src)] else []

omit lawful in
/-- The answers due are those of the ticket as it is decoded, around whatever its form becomes. -/
theorem ticketAnswers_eq (A : ArduinoJson) (m : Json) (formJson : Bytes) : ticketAnswers m =
    traced (NetworkTicket.ofDoc A m) (bytes "ticket_request") ++
      (traced { NetworkTicket.ofDoc A m with formJson } (bytes "ticket_response") ++
        [.ticketResponse (NetworkTicket.ofDoc A m).tckuuid
          (some (NetworkTicket.ofDoc A m).src)]) := by
  by_cases tracing : orBool (m.get (bytes "tracing")) false = true <;>
    simp [ticketAnswers, traced, NetworkTicket.ofDoc, tracing]

theorem sendTrace_speaks (config : Config) (client : AgentClient)
    (ticket : NetworkTicket) (type : Bytes) :
    Says A (sendTrace A config client ticket type) fun _ es =>
      True ∧ Tells A (traced ticket type) es := by
  unfold sendTrace traced
  split
  · apply Says.then getCurrentTime_speaks
    intro hopTime es _ told
    let trace : TicketTraceResponse :=
      { tckuuid := ticket.tckuuid, networkTicketType := type, hopTime, src := config.uuid,
        dest := some ticket.src }
    have decoded : answerOf A (setIsrcJson A (trace.toJson A) client.agtuuid) =
        .ticketTraceResponse ticket.tckuuid type (some ticket.src) := by
      obtain ⟨fields, kind⟩ := trace.decode_sent lawful client.agtuuid
      rw [answerOf, kind]
      simp only [fields]
      rfl
    apply Says.then (sendNetworkMessage_speaks lawful client trace.toDoc_within decoded)
    intro _ es' _ told'
    apply speaks_pure
    exact ⟨trivial, by simpa using told.append told'⟩
  · apply speaks_pure
    exact ⟨trivial, Tells.nil⟩

theorem ticketToJson_speaks (typeTag : Bytes) {ticket : NetworkTicket}
    (form : FormText A ticket.formJson) :
    Says A (ticketToJson A typeTag ticket) fun text es =>
      text = ticket.toJson A typeTag ∧ Tells A [] es := by
  by_cases empty : ticket.formJson = []
  · simp only [ticketToJson, if_pos empty]
    apply speaks_pure
    exact ⟨by simp [NetworkTicket.toJson, NetworkTicket.toDoc, empty], Tells.nil⟩
  · simp only [ticketToJson, if_neg empty]
    apply Says.then (parse_speaks lawful form.whole)
    rintro doc es rfl told
    apply speaks_pure
    exact ⟨by simp [NetworkTicket.toJson, NetworkTicket.toDoc, empty], by simpa using told⟩

theorem FormText.read_within {text : Bytes} (form : FormText A text) :
    (A.read text).Within (nestingLimit - 1) := by
  rcases form with rfl | ⟨d, -, within, rfl⟩
  · rw [lawful.read_nil]
    exact .null
  · rw [lawful.read_serialize (within.mono (by decide))]
    exact within

/-- The response to a ticket goes out under the ticket's own number, to the requester. -/
theorem sendResponse_speaks (client : AgentClient) {ticket : NetworkTicket}
    (form : FormText A ticket.formJson) :
    Says A (sendNetworkMessage A client (ticket.toJson A (bytes "ticket_response"))) fun _ es =>
      True ∧ Tells A [.ticketResponse ticket.tckuuid ticket.dest] es := by
  refine sendNetworkMessage_speaks lawful client
    (NetworkTicket.toDoc_within (bytes "ticket_response") ticket (form.read_within lawful)) ?_
  obtain ⟨fields, named⟩ := ticket.decode_sent lawful client.agtuuid form
  have kind : networkMessageType A (setIsrcJson A (ticket.toJson A (bytes "ticket_response"))
      client.agtuuid) = .TicketResponse := named
  have decoded := congrArg (fun t : NetworkTicket => Answer.ticketResponse t.tckuuid t.dest) fields
  rw [answerOf, show A.serializeJson (ticket.toDoc A (bytes "ticket_response")) =
    ticket.toJson A (bytes "ticket_response") from rfl, kind]
  exact decoded

theorem sendAcknowledgement_speaks (client : AgentClient) (ack : Acknowledgement) :
    Says A (sendNetworkMessage A client (ack.toJson A)) fun _ es =>
      True ∧ Tells A [.acknowledgement ack.ackType ack.dest] es := by
  refine sendNetworkMessage_speaks lawful client ack.toDoc_within ?_
  obtain ⟨fields, kind⟩ := ack.decode_sent lawful client.agtuuid
  have decoded := congrArg (fun a : Acknowledgement =>
    Answer.acknowledgement a.ackType a.dest) fields
  rw [answerOf, show A.serializeJson ack.toDoc = ack.toJson A from rfl, kind]
  exact decoded

/-- One message gives its own answers, unless an exception escapes. -/
theorem processNetworkMessage_speaks (sha256 : Sha256) (maxSize : Nat) (config : Config)
    (client : AgentClient) {m : Json} (h : m.Within (nestingLimit - 1)) :
    Says A (processNetworkMessage A sha256 maxSize config client (A.serializeJson m)) fun r es =>
      Quiet es ∧ (r = some () → Tells A (given m) es) := by
  have whole : Whole A (A.serializeJson m) := .inr ⟨m, h.mono (by decide), rfl⟩
  have read : A.read (A.serializeJson m) = m := lawful.read_serialize (h.mono (by decide))
  apply Says.then (parse_speaks lawful whole)
  rintro doc es rfl told
  rw [read]
  cases kind : networkMessageTypeOf (typeOfDoc m) with
  | TicketRequest =>
    apply Says.then (parse_speaks lawful whole)
    rintro doc es₁ rfl told₁
    rw [read]
    apply Says.then (sendTrace_speaks lawful config client _ _)
    intro _ es₂ _ told₂
    apply Says.then (processControlForm_speaks lawful sha256 maxSize config (formText_ofDoc h))
    rintro reply es₃ form told₃
    cases reply with
    | none =>
      apply speaks_pure
      exact ⟨(told.append (told₁.append (told₂.append (told₃.append Tells.nil)))).1,
        fun h => by cases h⟩
    | some formJson =>
      apply Says.then (sendTrace_speaks lawful config client _ _)
      intro _ es₄ _ told₄
      apply Says.then (ticketToJson_speaks lawful _ (form formJson rfl))
      rintro text es₅ rfl told₅
      apply Says.then (sendResponse_speaks lawful client (form formJson rfl))
      intro _ es₆ _ told₆
      apply speaks_pure
      have all := told.append (told₁.append (told₂.append (told₃.append (told₄.append
        (told₅.append (told₆.append Tells.nil))))))
      refine ⟨all.1, fun _ => ?_⟩
      rw [given, kind]
      exact ticketAnswers_eq A m formJson ▸ all
  | Ping =>
    apply Says.then (parse_speaks lawful whole)
    rintro doc es₁ rfl told₁
    apply Says.then getCurrentTime_speaks
    intro timestamp es₂ _ told₂
    apply Says.then (sendAcknowledgement_speaks lawful client _)
    intro _ es₃ _ told₃
    apply speaks_pure
    have all := told.append (told₁.append (told₂.append (told₃.append Tells.nil)))
    refine ⟨all.1, fun _ => ?_⟩
    rw [given, kind]
    rw [read] at all
    exact all
  | _ =>
    apply Says.then (parse_speaks lawful whole)
    rintro doc es₁ rfl told₁
    apply speaks_pure
    have all := told.append (told₁.append Tells.nil)
    refine ⟨all.1, fun _ => ?_⟩
    rw [given, kind]
    exact all

/-- A batch gives the answers of its messages one behind the other. -/
theorem processMessages_speaks (sha256 : Sha256) (maxSize : Nat) (config : Config)
    (client : AgentClient) {ms : List Json} (h : ∀ m ∈ ms, m.Within (nestingLimit - 1)) :
    Says A (processMessages A sha256 maxSize config client (ms.map A.serializeJson)) fun r es =>
      Quiet es ∧ (r = some () → Tells A (ms.flatMap given) es) := by
  induction ms with
  | nil =>
    have silent : Tells A [] [] := Tells.nil
    apply speaks_pure
    exact ⟨silent.1, fun _ => silent⟩
  | cons m ms ih =>
    apply Program.Emits.bind
      (processNetworkMessage_speaks lawful sha256 maxSize config client (h m List.mem_cons_self))
    rintro r es ⟨quiet, told⟩
    cases r with
    | none =>
      apply speaks_pure
      exact ⟨by simpa using quiet, fun h => by cases h⟩
    | some _ =>
      refine (ih fun m' member => h m' (List.mem_cons_of_mem _ member)).mono ?_
      rintro r' es' ⟨quiet', told'⟩
      exact ⟨quiet.append quiet', fun done => (told rfl).append (told' done)⟩

/-- The messages of a reply. -/
def messages (A : ArduinoJson) (reply : Bytes) : List Json :=
  ((A.read reply).get (bytes "messages")).items

omit lawful in
theorem reload_speaks (sha256 : Sha256) (t : Task) :
    Says A (reload sha256 t) fun _ es => True ∧ Tells A [] es := by
  apply Says.then (onNvs_speaks _)
  intro t es _ told
  have delayed : Says A (vTaskDelay t.config.pollTicks) fun _ es => True ∧ Tells A [] es := by
    intro w sound
    refine ⟨sound, [.delayed t.config.pollTicks], rfl, trivial, ?_, rfl⟩
    intro text member
    simp at member
  apply Says.then delayed
  intro _ es' _ told'
  apply speaks_pure
  exact ⟨trivial, by simpa using told.append told'⟩

theorem messages_within (reply : Bytes) : ∀ m ∈ messages A reply, m.Within (nestingLimit - 1) :=
  Json.Within.items (Json.Within.get (lawful.doc_within reply) _)

omit lawful in
/-- A reload when the task is idle, and nothing otherwise. -/
theorem wake_speaks (sha256 : Sha256) (t : Task) :
    Says A (wake sha256 t) fun _ es => True ∧ Tells A [] es := by
  unfold wake
  split
  · exact reload_speaks sha256 t
  · apply speaks_pure
    exact ⟨trivial, Tells.nil⟩

end Programs

/-- A poll with the reply to it, and what is posted before the next poll. -/
structure Round where
  poll : Bytes × Bytes
  answers : List (Bytes × Bytes)

def Round.posts (r : Round) : List (Bytes × Bytes) := r.poll :: r.answers

/-- The poll is one, and the messages of its reply are answered in order. -/
structure Round.Answered (A : ArduinoJson) (r : Round) : Prop where
  poll : networkMessageType A r.poll.1 = .MessagesRequest
  answers : r.answers.map (fun post => answerOf A post.1) = (messages A r.poll.2).flatMap given

/-- Every text that was parsed with an error is empty or came as a reply. -/
def Excused (es : List Event) : Prop :=
  ∀ text, .parsed text true ∈ es → text = [] ∨ ∃ client post, .posted client post text ∈ es

theorem Quiet.excused {es : List Event} (h : Quiet es) : Excused es :=
  fun text member => .inl (h text member)

theorem Excused.append {es es' : List Event} (h : Excused es) (h' : Excused es') :
    Excused (es ++ es') := by
  intro text member
  rcases List.mem_append.mp member with first | second
  · refine (h text first).imp_right ?_
    rintro ⟨client, post, posted⟩
    exact ⟨client, post, List.mem_append_left _ posted⟩
  · refine (h' text second).imp_right ?_
    rintro ⟨client, post, posted⟩
    exact ⟨client, post, List.mem_append_right _ posted⟩

/-- A reply that is cut off is excused by the post it answers. -/
theorem Excused.of_reply {es es' : List Event} {reply : Bytes} (error : Bool) (before : Quiet es)
    (after : Quiet es') (posted : ∃ client post, .posted client post reply ∈ es) :
    Excused (es ++ (.parsed reply error :: es')) := by
  intro text member
  rcases List.mem_append.mp member with first | second
  · exact .inl (before text first)
  · rcases List.mem_cons.mp second with cut | later
    · obtain ⟨rfl, -⟩ : text = reply ∧ true = error := by simpa using cut
      obtain ⟨client, post, sent⟩ := posted
      exact .inr ⟨client, post, List.mem_append_left _ sent⟩
    · exact .inl (after text later)

theorem mem_posts {es : List Event} {text reply : Bytes} (h : (text, reply) ∈ posts es) :
    ∃ client, Event.posted client text reply ∈ es := by
  obtain ⟨e, member, posted⟩ := List.mem_filterMap.mp h
  cases e with
  | posted client text' reply' =>
    obtain ⟨rfl, rfl⟩ : text' = text ∧ reply' = reply := by simpa using posted
    exact ⟨client, member⟩
  | parsed _ _ | delayed _ => cases posted

/-- One iteration is silent, or a round whose reply is the only text that may be cut off. -/
theorem iteration_speaks {A : ArduinoJson} (lawful : A.Lawful) (sha256 : Sha256)
    (maxSize : Nat) (t : Task) :
    Says A (iteration A sha256 maxSize t) fun r es =>
      Excused es ∧ (r.isSome → posts es = [] ∨ ∃ round : Round, posts es = round.posts ∧
          round.Answered A) := by
  apply Says.then (wake_speaks sha256 t)
  intro t es _ told
  have silent : posts es = [] := List.map_eq_nil_iff.mp told.2
  by_cases polling : t.config.polling = true
  · simp only [polling, Bool.not_true, Bool.false_eq_true, if_false]
    apply Says.then getCurrentTime_speaks
    intro timestamp es₁ _ told₁
    let request := pollRequest t.config timestamp
    let text := setIsrcJson A (request.toJson A) t.client.agtuuid
    have kind : networkMessageType A text = .MessagesRequest :=
      (request.decode_sent lawful t.client.agtuuid).2
    apply Program.Emits.bind (sendNetworkMessage_emits lawful t.client request.toDoc_within)
    rintro reply es₂ ⟨quiet₂, posted⟩
    have quiet : Quiet (es ++ (es₁ ++ es₂)) := told.1.append (told₁.1.append quiet₂)
    have poll : posts (es ++ (es₁ ++ es₂)) = [(text, reply)] := by
      simp only [posts_append, silent, List.map_eq_nil_iff.mp told₁.2, List.nil_append]
      exact posted
    by_cases empty : reply = []
    · simp only [empty, if_true]
      apply speaks_pure
      rw [List.append_nil]
      refine ⟨quiet.excused, fun _ => .inr ⟨⟨(text, reply), []⟩, poll, kind, ?_⟩⟩
      simp [messages, empty, lawful.read_nil, Json.items]
    · simp only [empty, if_false]
      have sent : ∃ client post, .posted client post reply ∈ es ++ (es₁ ++ es₂) := by
        obtain ⟨client, member⟩ := mem_posts (show (text, reply) ∈ posts (es ++ (es₁ ++ es₂)) by
          rw [poll]
          exact List.mem_singleton_self _)
        exact ⟨client, text, member⟩
      apply Program.Emits.bind (parse_emits reply)
      rintro doc es₃ ⟨rfl, rfl⟩
      apply Program.Emits.bind (processMessages_speaks lawful sha256 maxSize t.config t.client
        (messages_within lawful reply))
      rintro r es₄ ⟨quiet₄, told₄⟩
      have excused := Excused.of_reply (A.deserializeJson reply).error quiet quiet₄ sent
      cases r with
      | none =>
        apply speaks_pure
        exact ⟨by simpa using excused, fun h => by cases h⟩
      | some _ =>
        apply speaks_pure
        let parsed : Event := .parsed reply (A.deserializeJson reply).error
        have posted' : posts (es ++ (es₁ ++ (es₂ ++ ([parsed] ++ (es₄ ++ []))))) =
            (text, reply) :: posts es₄ :=
          calc posts (es ++ (es₁ ++ (es₂ ++ ([parsed] ++ (es₄ ++ [])))))
              = posts (es ++ (es₁ ++ es₂)) ++ posts es₄ := by simp [parsed]
            _ = (text, reply) :: posts es₄ := by rw [poll, List.singleton_append]
        exact ⟨by simpa using excused,
          fun _ => .inr ⟨⟨(text, reply), posts es₄⟩, posted', kind, (told₄ rfl).2⟩⟩
  · simp only [polling, Bool.not_false, if_true]
    apply speaks_pure
    rw [List.append_nil]
    exact ⟨told.1.excused, fun _ => .inl silent⟩

end Stembot
