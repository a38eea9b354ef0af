import Stembot.Processor.Laps

/-!
# What an awake task posts

Whatever the surroundings answer: between two loads the task does not pause, and
what it posts has been made in the name of its configuration. Only the parse in
front of the post may have left less than that.
-/

namespace Stembot

open Library Program

/-- Neither a pause nor a post. -/
def ProcessorOp.Inward : ProcessorOp → Prop
  | .delay _ | .post _ _ => False
  | _ => True

/-- No pauses; each post is made by this client, of a message that names this source, as the parse
in front of the post left it. -/
inductive Identified (A : ArduinoJson) (client : AgentClient) (src : Bytes) : List TaskCall → Prop
  | nil : Identified A client src []
  | inward {e : TaskCall} {es : List TaskCall} :
      e.1.Inward → Identified A client src es → Identified A client src (e :: es)
  | post {d : Json} {es : List TaskCall} (parsed : Parsed) (reply : Bytes) :
      d.get (bytes "src") = .str src → Identified A client src es →
      Identified A client src (⟨.deserializeJson (A.serializeJson d), parsed⟩ ::
        ⟨.post client (patchIsrc A parsed.doc client.agtuuid), reply⟩ :: es)

section Identified

variable {A : ArduinoJson} {client : AgentClient} {src : Bytes} {es es' : List TaskCall}

theorem Identified.append (first : Identified A client src es)
    (second : Identified A client src es') :
    Identified A client src (es ++ es') := by
  induction first with
  | nil => exact second
  | inward quiet _ ih => exact .inward quiet ih
  | post parsed reply named _ ih => exact .post parsed reply named ih

theorem Identified.of_inward (inward : ∀ e ∈ es, e.1.Inward) : Identified A client src es := by
  induction es with
  | nil => exact .nil
  | cons e es ih =>
    exact .inward (inward e List.mem_cons_self)
      (ih fun e member => inward e (List.mem_cons_of_mem _ member))

/-- The message that a post was made of. -/
theorem Identified.of_post (identified : Identified A client src es) {done rest : List TaskCall}
    {client' : AgentClient} {text reply : Bytes}
    (split : es = done ++ ⟨.post client' text, reply⟩ :: rest) :
    client' = client ∧ ∃ d parsed done',
      done = done' ++ [⟨.deserializeJson (A.serializeJson d), parsed⟩] ∧
      d.get (bytes "src") = .str src ∧ text = patchIsrc A parsed.doc client.agtuuid := by
  induction identified generalizing done with
  | nil => simp at split
  | inward quiet _ ih =>
    cases done with
    | nil =>
      obtain ⟨rfl, -⟩ := List.cons.inj split
      exact quiet.elim
    | cons e done =>
      obtain ⟨rfl, later⟩ := List.cons.inj split
      obtain ⟨same, d, parsed, done', rfl, named, text⟩ := ih later
      exact ⟨same, d, parsed, _ :: done', rfl, named, text⟩
  | @post d es parsed reply' named _ ih =>
    match done with
    | [] => cases (List.cons.inj split).1
    | [e] =>
      obtain ⟨rfl, behind⟩ := List.cons.inj split
      obtain ⟨same, -⟩ := List.cons.inj behind
      obtain ⟨rfl, rfl⟩ := ProcessorOp.post.inj (congrArg Sigma.fst same)
      exact ⟨rfl, d, parsed, [], rfl, named, rfl⟩
    | e :: e' :: done =>
      obtain ⟨rfl, behind⟩ := List.cons.inj split
      obtain ⟨rfl, later⟩ := List.cons.inj behind
      obtain ⟨same, d, parsed, done', rfl, named, text⟩ := ih later
      exact ⟨same, d, parsed, _ :: _ :: done', rfl, named, text⟩

end Identified

section Inward

variable {α : Type}

theorem onNvs_inward (p : NvsProgram α) : (onNvs p).Issues ProcessorOp.Inward := by
  induction p with
  | done a => trivial
  | call op next ih => exact ⟨trivial, ih⟩

theorem parse_inward (text : Bytes) : (parse text).Issues ProcessorOp.Inward :=
  ⟨trivial, fun _ => trivial⟩

theorem getCurrentTime_inward : getCurrentTime.Issues ProcessorOp.Inward :=
  ⟨trivial, fun _ => trivial⟩

theorem processControlForm_inward (A : ArduinoJson) (sha256 : Sha256)
    (maxSize : Nat) (config : Config) (formJson : Bytes) :
    (processControlForm A sha256 maxSize config formJson).Issues ProcessorOp.Inward := by
  refine (parse_inward formJson).bind fun doc => ?_
  cases controlFormTypeOf (typeOfDoc doc) with
  | GetConfig =>
    refine (parse_inward formJson).bind fun _ => (onNvs_inward _).bind fun saved => ?_
    exact (onNvs_inward _).bind fun _ => trivial
  | Benchmark => exact (parse_inward formJson).bind fun _ => trivial
  | Unknown =>
    cases config.debug with
    | true => exact (parse_inward formJson).bind fun _ => trivial
    | false => trivial

end Inward

/-- What a program posts is identified, and its value is as `Q` says. -/
def Identifies (A : ArduinoJson) (client : AgentClient) (src : Bytes) {α : Type}
    (p : ProcessorProgram α) (Q : α → Prop) : Prop :=
  ∀ es a, p.Traces es a → Identified A client src es ∧ Q a

section Identifies

variable {A : ArduinoJson} {client : AgentClient} {src : Bytes} {α β : Type}
  {Q : α → Prop} {Q' : β → Prop}

theorem Identifies.pure {a : α} (holds : Q a) : Identifies A client src (pure a) Q := by
  intro es b traced
  obtain ⟨rfl, rfl⟩ := traces_pure.mp traced
  exact ⟨.nil, holds⟩

theorem Identifies.bind {p : ProcessorProgram α} {k : α → ProcessorProgram β}
    (first : Identifies A client src p Q) (rest : ∀ a, Q a → Identifies A client src (k a) Q') :
    Identifies A client src (p >>= k) Q' := by
  intro es b traced
  obtain ⟨a, es₁, es₂, traced₁, traced₂, rfl⟩ := traces_bind.mp traced
  obtain ⟨identified₁, holds⟩ := first es₁ a traced₁
  obtain ⟨identified₂, holds'⟩ := rest a holds es₂ b traced₂
  exact ⟨identified₁.append identified₂, holds'⟩

theorem Identifies.of_issues {p : ProcessorProgram α} (inward : p.Issues ProcessorOp.Inward) :
    Identifies A client src p fun _ => True :=
  fun _ _ traced => ⟨.of_inward (inward.of_mem traced), trivial⟩

end Identifies

section Functions

variable (A : ArduinoJson) (client : AgentClient) (sha256 : Sha256)
  (maxSize : Nat) (config : Config)

theorem sendNetworkMessage_identifies {src : Bytes} {d : Json}
    (named : d.get (bytes "src") = .str src) :
    Identifies A client src (sendNetworkMessage A client (A.serializeJson d)) fun _ => True := by
  intro es reply traced
  obtain ⟨doc, es₁, es₂, parse, posted, rfl⟩ := traces_bind.mp traced
  obtain rfl := traces_issue.mp posted
  obtain ⟨parsed, asked, rfl⟩ := traces_map.mp parse
  obtain rfl := traces_issue.mp asked
  exact ⟨.post parsed reply named .nil, trivial⟩

theorem sendTrace_identifies (ticket : NetworkTicket) (type : Bytes) :
    Identifies A client config.uuid (sendTrace A config client ticket type) fun _ => True := by
  unfold sendTrace
  split
  · refine (Identifies.of_issues getCurrentTime_inward).bind fun hopTime _ => ?_
    refine (sendNetworkMessage_identifies A client (TicketTraceResponse.toDoc_src _)).bind
      fun _ _ => ?_
    exact Identifies.pure trivial
  · exact Identifies.pure trivial

/-- A ticket's text is made of its fields, and of whatever the parse of its form left. -/
theorem ticketToJson_identifies {src : Bytes} (typeTag : Bytes) (ticket : NetworkTicket) :
    Identifies A client src (ticketToJson A typeTag ticket) fun text =>
      ∃ form, text = A.serializeJson (ticket.docAround typeTag form) := by
  unfold ticketToJson
  split
  · exact Identifies.pure ⟨_, rfl⟩
  · exact (Identifies.of_issues (parse_inward _)).bind fun form _ => Identifies.pure ⟨form, rfl⟩

theorem processNetworkMessage_identifies (msgJson : Bytes) :
    Identifies A client config.uuid (processNetworkMessage A sha256 maxSize config client msgJson)
      fun _ => True := by
  refine (Identifies.of_issues (parse_inward msgJson)).bind fun doc _ => ?_
  cases networkMessageTypeOf (typeOfDoc doc) with
  | TicketRequest =>
    refine (Identifies.of_issues (parse_inward msgJson)).bind fun doc _ => ?_
    refine (sendTrace_identifies A client config _ _).bind fun _ _ => ?_
    refine (Identifies.of_issues (processControlForm_inward A sha256 maxSize config _)).bind
      fun reply _ => ?_
    cases reply with
    | none => exact Identifies.pure trivial
    | some formJson =>
      refine (sendTrace_identifies A client config _ _).bind fun _ _ => ?_
      refine (ticketToJson_identifies A client _ _).bind fun text made => ?_
      obtain ⟨form, rfl⟩ := made
      refine (sendNetworkMessage_identifies A client (NetworkTicket.docAround_src _ _ form)).bind
        fun _ _ => ?_
      exact Identifies.pure trivial
  | Ping =>
    refine (Identifies.of_issues (parse_inward msgJson)).bind fun doc _ => ?_
    refine (Identifies.of_issues getCurrentTime_inward).bind fun timestamp _ => ?_
    refine (sendNetworkMessage_identifies A client (Acknowledgement.toDoc_src _)).bind fun _ _ => ?_
    exact Identifies.pure trivial
  | _ => exact (Identifies.of_issues (parse_inward msgJson)).bind fun _ _ => Identifies.pure trivial

theorem processMessages_identifies (msgJsons : List Bytes) :
    Identifies A client config.uuid (processMessages A sha256 maxSize config client msgJsons)
      fun _ => True := by
  induction msgJsons with
  | nil => exact Identifies.pure trivial
  | cons msgJson rest ih =>
    refine (processNetworkMessage_identifies A client sha256 maxSize config msgJson).bind
      fun done _ => ?_
    cases done with
    | none => exact Identifies.pure trivial
    | some _ => exact ih

theorem sendPoll_identifies (t : Task) :
    Identifies A t.client t.config.uuid (sendPoll A t) fun _ => True := by
  refine (Identifies.of_issues getCurrentTime_inward).bind fun timestamp _ => ?_
  exact sendNetworkMessage_identifies A t.client
    (NetworkMessagesRequest.toDoc_src (pollRequest t.config timestamp))

end Functions

/-- A poll, and the answers to its reply. -/
theorem Poll.Runs.identified {A : ArduinoJson} {sha256 : Sha256} {maxSize : Nat}
    {poll : Poll} {t : Task} {r : Option Task} (runs : poll.Runs A sha256 maxSize t r) :
    Identified A t.client t.config.uuid poll.calls := by
  cases runs with
  | unanswered sending => exact (sendPoll_identifies A t _ _ sending).1.append .nil
  | answered sending _ parsed answered =>
    have heard := (parse_inward _).of_mem parsed
    have processed := processMessages_identifies A t.client sha256 maxSize t.config _ _ _ answered
    exact (sendPoll_identifies A t _ _ sending).1.append
      ((Identified.of_inward heard).append processed.1)

end Stembot
