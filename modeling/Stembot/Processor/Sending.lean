import Stembot.Models.Embedding
import Stembot.Processor.Posting
import Stembot.Processor.World

/-!
# What is sent, document by document

Each function of the task is given by the documents it posts, in surroundings of
which only this is known: a parse leaves what the library makes of its text.
-/

namespace Stembot

open Library Program

/-- A parse that is not cut short for want of memory. -/
def Honest (A : ArduinoJson) : TaskCall → Prop
  | ⟨.deserializeJson text, parsed⟩ => parsed = A.deserializeJson text
  | _ => True

/-- Every call can be answered without a parse being cut short. -/
theorem honest_answerable (A : ArduinoJson) (op : ProcessorOp) : ∃ r, Honest A ⟨op, r⟩ := by
  cases op with
  | nvs op => exact ⟨op.refused, trivial⟩
  | deserializeJson text => exact ⟨A.deserializeJson text, rfl⟩
  | currentTime => exact ⟨.ofInt 0, trivial⟩
  | delay _ => exact ⟨(), trivial⟩
  | post _ _ => exact ⟨[], trivial⟩

/-- In a sound world no parse is cut short. -/
theorem World.Sound.honest {A : ArduinoJson} {α : Type} (p : ProcessorProgram α)
    {w : World} (sound : w.Sound) :
    ∀ e ∈ p.trace (World.answer A) w, Honest A e := by
  induction p generalizing w with
  | done a => simp [Program.trace]
  | call op next ih =>
    intro e member
    rcases List.mem_cons.mp member with rfl | later
    · cases op with
      | deserializeJson text =>
        have none : w.failures.head = none := sound 0
        simp [Honest, World.answer, World.parseAs, none]
      | _ => trivial
    · refine ih _ ?_ e later
      cases op with
      | deserializeJson text => exact fun n => sound (n + 1)
      | _ => exact sound

/-- The texts posted, each with the client that posted it. -/
def outgoing (es : List TaskCall) : List (AgentClient × Bytes) :=
  es.filterMap fun
    | ⟨.post client text, _⟩ => some (client, text)
    | _ => none

@[simp] theorem outgoing_nil : outgoing [] = [] := rfl

@[simp] theorem outgoing_append (es es' : List TaskCall) :
    outgoing (es ++ es') = outgoing es ++ outgoing es' :=
  List.filterMap_append

@[simp] theorem outgoing_byTask (calls : List NvsCall) : outgoing (calls.map byTask) = [] := by
  simp [outgoing, byTask, List.filterMap_eq_nil_iff]

/-- The text in which a client posts a document. -/
def signed (A : ArduinoJson) (client : AgentClient) (d : Json) : Bytes :=
  A.serializeJson (d.set (bytes "isrc") (.str client.agtuuid))

/-- The documents posted are these, and every one of them can be read back. -/
structure Posts (A : ArduinoJson) (client : AgentClient) (docs : List Json) (es : List TaskCall) :
    Prop where
  within : ∀ d ∈ docs, d.Within nestingLimit
  texts : outgoing es = docs.map fun d => (client, signed A client d)

/-- The text of a document as a form: nothing for null. -/
def formTextOf (A : ArduinoJson) (form : Json) : Bytes := (textUnlessNull A form).getD []

/-- What a form becomes; nothing when an exception escapes. A `get_config` form carries the
configuration that was constructed meanwhile. -/
inductive Handled (A : ArduinoJson) (sha256 : Sha256) (maxSize : Nat) (form : Json)
    (es : List TaskCall) :
    Option Json → Prop
  | getConfig {calls : List NvsCall} {saved : Config} :
      controlFormTypeOf (typeOfDoc form) = .GetConfig → (Config.create sha256).Traces calls saved →
      calls.map byTask <:+: es →
      Handled A sha256 maxSize form es (some ((GetConfig.ofDoc A form).docAround saved.toDoc))
  | benchmark : controlFormTypeOf (typeOfDoc form) = .Benchmark →
      Handled A sha256 maxSize form es
        ((fillPayload maxSize (Benchmark.ofDoc A form)).map Benchmark.toDoc)
  | unknown : controlFormTypeOf (typeOfDoc form) = .Unknown →
    Handled A sha256 maxSize form es (some form)

/-- Documents that name this sender. -/
def FromSender (src : Bytes) (docs : List Json) : Prop := ∀ d ∈ docs, d.get (bytes "src") = .str src

/-- A ticket on its way back to its sender. -/
def NetworkTicket.turned (t : NetworkTicket) (src : Bytes) : NetworkTicket :=
  { t with dest := some t.src, src }

/-- The document of the response to a ticket, around what its form has become. -/
def responseDoc (A : ArduinoJson) (config : Config) (m form : Json) : Json :=
  ((NetworkTicket.ofDoc A m).turned config.uuid).docAround (bytes "ticket_response") form

section Sending

variable {A : ArduinoJson} {client : AgentClient} {es es' : List TaskCall} {docs docs' : List Json}

theorem Posts.nil : Posts A client [] [] := ⟨by simp, rfl⟩

theorem Posts.silent (silent : outgoing es = []) : Posts A client [] es := ⟨by simp, silent⟩

theorem Posts.append (first : Posts A client docs es) (second : Posts A client docs' es') :
    Posts A client (docs ++ docs') (es ++ es') where
  within d member := (List.mem_append.mp member).elim (first.within d) (second.within d)
  texts := by rw [outgoing_append, first.texts, second.texts, List.map_append]

theorem Handled.mono {sha256 : Sha256} {maxSize : Nat} {form : Json} {out : Option Json}
    (handled : Handled A sha256 maxSize form es out) (inside : es <:+: es') :
    Handled A sha256 maxSize form es' out := by
  cases handled with
  | getConfig type created part => exact .getConfig type created (part.trans inside)
  | benchmark type => exact .benchmark type
  | unknown type => exact .unknown type

section Inversion

variable {sha256 : Sha256} {maxSize : Nat} {form : Json} {out : Option Json}
  (handled : Handled A sha256 maxSize form es out)
include handled

theorem Handled.of_benchmark (type : controlFormTypeOf (typeOfDoc form) = .Benchmark) :
    out = (fillPayload maxSize (Benchmark.ofDoc A form)).map Benchmark.toDoc := by
  cases handled with
  | getConfig other _ _ => cases type.symm.trans other
  | benchmark _ => rfl
  | unknown other => cases type.symm.trans other

theorem Handled.of_unknown (type : controlFormTypeOf (typeOfDoc form) = .Unknown) :
    out = some form := by
  cases handled with
  | getConfig other _ _ => cases type.symm.trans other
  | benchmark other => cases type.symm.trans other
  | unknown _ => rfl

theorem Handled.of_getConfig (type : controlFormTypeOf (typeOfDoc form) = .GetConfig) :
    ∃ calls saved, (Config.create sha256).Traces calls saved ∧ calls.map byTask <:+: es ∧
      out = some ((GetConfig.ofDoc A form).docAround saved.toDoc) := by
  cases handled with
  | getConfig _ created part => exact ⟨_, _, created, part, rfl⟩
  | benchmark other => cases type.symm.trans other
  | unknown other => cases type.symm.trans other

end Inversion

/-- What is handed out is as deep as the form, or no deeper than the forms of the two
known types. -/
theorem Handled.within {sha256 : Sha256} {maxSize n : Nat} {form out : Json}
    (handled : Handled A sha256 maxSize form es (some out)) (h : form.Within (n + 2)) :
    out.Within (n + 2) := by
  generalize given : some out = given at handled
  cases handled with
  | getConfig _ _ _ =>
    obtain rfl := Option.some.inj given
    exact GetConfig.docAround_within _ (Config.toDoc_within _)
  | benchmark _ =>
    obtain ⟨f, -, rfl⟩ := Option.map_eq_some_iff.mp given.symm
    exact f.toDoc_within
  | unknown _ =>
    obtain rfl := Option.some.inj given
    exact h

/-- What a program does as long as no parse is cut short. -/
abbrev Sends (A : ArduinoJson) {α : Type} (p : ProcessorProgram α)
    (Q : α → List TaskCall → Prop) : Prop :=
  Ensures (Honest A) p Q

variable (client)

theorem parse_sends (text : Bytes) :
    Sends A (parse text) fun doc es => doc = A.read text ∧ Posts A client [] es := by
  have asked : Sends A (ask (.deserializeJson text)) fun parsed es =>
      parsed = A.deserializeJson text ∧ outgoing es = [] :=
    Ensures.issue fun _ honest => ⟨honest, rfl⟩
  refine Ensures.bind asked ?_
  rintro _ es ⟨rfl, silent⟩
  exact Ensures.pure ⟨rfl, .silent (by simp [silent])⟩

theorem getCurrentTime_sends : Sends A getCurrentTime fun _ es => Posts A client [] es :=
  Ensures.issue fun _ _ => .silent rfl

theorem onNvs_sends {α : Type} (p : NvsProgram α) :
    Sends A (onNvs p) fun a es => Posts A client [] es ∧ ∃ calls, p.Traces calls a ∧
      es = calls.map byTask := by
  intro es a traced _
  obtain ⟨calls, issued, rfl⟩ := traces_onNvs.mp traced
  exact ⟨.silent (outgoing_byTask calls), calls, issued, rfl⟩

variable (lawful : A.Lawful)
include lawful

/-- Sending the text of a document posts the document. -/
theorem sendNetworkMessage_sends {d : Json} (h : d.Within nestingLimit) :
    Sends A (sendNetworkMessage A client (A.serializeJson d)) fun _ es =>
      Posts A client [d] es := by
  refine (parse_sends client _).bind ?_
  rintro _ es ⟨rfl, silent⟩
  refine Ensures.issue fun reply _ => ?_
  have posted :
      Posts A client [d] [⟨.post client (patchIsrc A (A.read (A.serializeJson d)) client.agtuuid),
        reply⟩] := by
    refine ⟨by simpa using h, ?_⟩
    simp [outgoing, signed, patchIsrc, lawful.read_serialize h]
  exact silent.append posted

/-- What the peer reads of a posted document. -/
theorem read_signed {d : Json} (h : d.Within nestingLimit) :
    A.read (signed A client d) = d.set (bytes "isrc") (.str client.agtuuid) :=
  lawful.read_serialize (Json.Within.set (n := 9) h _ (.str _))

omit client in
theorem read_formTextOf {form : Json} (h : form.Within nestingLimit) :
    A.read (formTextOf A form) = form := by
  by_cases null : form = .null
  · rw [null]
    exact lawful.read_nil
  · rw [formTextOf, textUnlessNull_of_ne null]
    exact lawful.read_serialize h

/-- A form is handled without a post. -/
theorem processControlForm_sends (sha256 : Sha256) (maxSize : Nat) (config : Config) {form : Json}
    (h : form.Within nestingLimit) :
    Sends A (processControlForm A sha256 maxSize config (formTextOf A form)) fun r es =>
      Posts A client [] es ∧
        ∃ out, Handled A sha256 maxSize form es out ∧ r = out.map (formTextOf A) := by
  have read : A.read (formTextOf A form) = form := read_formTextOf lawful h
  refine (parse_sends client _).bind ?_
  rintro doc es ⟨rfl, silent⟩
  rw [read]
  cases type : controlFormTypeOf (typeOfDoc form) with
  | GetConfig =>
    refine (parse_sends client _).bind ?_
    rintro doc es₁ ⟨rfl, silent₁⟩
    refine (onNvs_sends client _).bind ?_
    rintro saved es₂ ⟨silent₂, calls, created, rfl⟩
    refine (onNvs_sends client _).bind ?_
    rintro _ es₃ ⟨silent₃, -⟩
    refine Ensures.pure ⟨?_, _, .getConfig type created ?_, ?_⟩
    · simpa using silent.append (silent₁.append (silent₂.append silent₃))
    · exact ⟨es ++ es₁, es₃, by simp⟩
    · rw [read, Option.map_some, formTextOf, textUnlessNull_of_ne (GetConfig.docAround_ne_null _ _)]
      exact congrArg some (GetConfig.toJson_serialized lawful _ _)
  | Benchmark =>
    refine (parse_sends client _).bind ?_
    rintro doc es₁ ⟨rfl, silent₁⟩
    refine Ensures.pure ⟨by simpa using silent.append silent₁, _, .benchmark type, ?_⟩
    rw [read, Option.map_map]
    refine congrArg (Option.map · _) (funext fun f => ?_)
    rw [Function.comp_apply, formTextOf, textUnlessNull_of_ne f.toDoc_ne_null]
    rfl
  | Unknown =>
    have echo : ∀ es, ∃ out, Handled A sha256 maxSize form es out ∧
        some (formTextOf A form) = out.map (formTextOf A) :=
        fun es => ⟨some form, .unknown type, rfl⟩
    cases config.debug with
    | true =>
      refine (parse_sends client _).bind ?_
      rintro doc es₁ ⟨-, silent₁⟩
      exact Ensures.pure ⟨by simpa using silent.append silent₁, echo _⟩
    | false => exact Ensures.pure ⟨by simpa using silent, echo _⟩

omit lawful client in
theorem FromSender.append {src : Bytes} (first : FromSender src docs)
    (second : FromSender src docs') :
    FromSender src (docs ++ docs') := by
  intro d member
  exact (List.mem_append.mp member).elim (first d) (second d)

omit lawful client in
theorem FromSender.single {src : Bytes} {d : Json} (named : d.get (bytes "src") = .str src) :
    FromSender src [d] := by
  intro d' member
  rw [List.mem_singleton.mp member, named]

theorem sendTrace_sends (config : Config) (ticket : NetworkTicket) (type : Bytes) :
    Sends A (sendTrace A config client ticket type) fun _ es =>
      ∃ docs, Posts A client docs es ∧ FromSender config.uuid docs := by
  unfold sendTrace
  split
  · refine (getCurrentTime_sends client).bind ?_
    intro hopTime es silent
    let trace : TicketTraceResponse :=
      { tckuuid := ticket.tckuuid, networkTicketType := type, hopTime, src := config.uuid,
        dest := some ticket.src }
    refine (sendNetworkMessage_sends client lawful trace.toDoc_within).bind ?_
    intro _ es₁ posted
    exact Ensures.pure ⟨[trace.toDoc], by simpa using silent.append posted, .single trace.toDoc_src⟩
  · exact Ensures.pure ⟨[], .nil, by simp [FromSender]⟩

/-- The ticket's text is the serialisation of its document. -/
theorem ticketToJson_sends (typeTag : Bytes) (ticket : NetworkTicket) {form : Json}
    (h : form.Within nestingLimit) :
    Sends A (ticketToJson A typeTag { ticket with formJson := formTextOf A form }) fun text es =>
      text = A.serializeJson (ticket.docAround typeTag form) ∧ Posts A client [] es := by
  have read : A.read (formTextOf A form) = form := read_formTextOf lawful h
  by_cases empty : formTextOf A form = []
  · simp only [ticketToJson, if_pos empty]
    have null : form = .null := by rw [← read, empty, lawful.read_nil]
    exact Ensures.pure ⟨by rw [null]; rfl, .nil⟩
  · simp only [ticketToJson, if_neg empty]
    refine (parse_sends client _).bind ?_
    rintro doc es ⟨rfl, silent⟩
    exact Ensures.pure ⟨by rw [read]; rfl, by simpa using silent⟩

omit lawful client in
theorem responseDoc_src (config : Config) (m form : Json) :
    (responseDoc A config m form).get (bytes "src") = .str config.uuid :=
      NetworkTicket.docAround_src _ _ form

/-- The end of a ticket request: the response, around what its form has become. -/
theorem sendResponse_sends (config : Config) (m : Json) {form : Json}
    (h : form.Within (nestingLimit - 1)) :
    Sends A (do
      let text ← ticketToJson A (bytes "ticket_response")
        { (NetworkTicket.ofDoc A m).turned config.uuid with formJson := formTextOf A form }
      let _ ← sendNetworkMessage A client text
      return some ()) fun r es => r = some () ∧
        Posts A client [responseDoc A config m form] es := by
  refine (ticketToJson_sends client lawful (bytes "ticket_response")
    ((NetworkTicket.ofDoc A m).turned config.uuid) (h.mono (by decide))).bind ?_
  rintro text es ⟨rfl, silent⟩
  have response : (responseDoc A config m form).Within nestingLimit :=
    NetworkTicket.docAround_within _ _ h
  refine (sendNetworkMessage_sends client lawful response).bind ?_
  intro _ es₁ posted
  exact Ensures.pure ⟨rfl, by simpa using silent.append posted⟩

/-- A message is answered under the task's own name, and a ticket last by its response, unless an
exception escapes. -/
theorem processNetworkMessage_sends (sha256 : Sha256) (maxSize : Nat)
    (config : Config) {msgJson : Bytes} (h : (A.read msgJson).Within nestingLimit) :
    Sends A (processNetworkMessage A sha256 maxSize config client msgJson) fun r es =>
      ∃ docs, Posts A client docs es ∧ FromSender config.uuid docs ∧
        (networkMessageType A msgJson = .TicketRequest →
          ∃ out, Handled A sha256 maxSize ((A.read msgJson).get (bytes "form")) es out ∧
            r = out.map (fun _ => ()) ∧
            ∀ form, out = some form → docs.getLast? =
            some (responseDoc A config (A.read msgJson) form)) := by
  refine (parse_sends client _).bind ?_
  rintro doc es ⟨rfl, silent⟩
  cases type : networkMessageTypeOf (typeOfDoc (A.read msgJson)) with
  | TicketRequest =>
    have formWithin : ((A.read msgJson).get (bytes "form")).Within (nestingLimit - 1) :=
      Json.Within.get h _
    refine (parse_sends client _).bind ?_
    rintro doc es₁ ⟨rfl, silent₁⟩
    refine (sendTrace_sends client lawful config _ _).bind ?_
    rintro _ es₂ ⟨docs₂, posted₂, source₂⟩
    refine (processControlForm_sends client lawful sha256 maxSize config
      (formWithin.mono (by decide))).bind ?_
    rintro reply es₃ ⟨silent₃, out, handled, rfl⟩
    cases out with
    | none =>
      refine Ensures.pure ⟨docs₂, ?_, source₂, fun _ => ⟨none, handled.mono ?_, rfl, by simp⟩⟩
      · simpa using silent.append (silent₁.append (posted₂.append silent₃))
      · exact ⟨es ++ (es₁ ++ es₂), [], by simp⟩
    | some form =>
      have within : form.Within (nestingLimit - 1) := handled.within formWithin
      refine (sendTrace_sends client lawful config _ _).bind ?_
      rintro _ es₄ ⟨docs₄, posted₄, source₄⟩
      refine (sendResponse_sends client lawful config (A.read msgJson) within).mono ?_
      rintro _ es₅ ⟨rfl, posted₅⟩
      refine ⟨docs₂ ++ (docs₄ ++ [responseDoc A config (A.read msgJson) form]), ?_, ?_, ?_⟩
      · simpa using silent.append (silent₁.append
          (posted₂.append (silent₃.append (posted₄.append posted₅))))
      · exact source₂.append (source₄.append (.single (responseDoc_src config _ form)))
      · refine fun _ => ⟨some form, handled.mono ?_, rfl, ?_⟩
        · exact ⟨es ++ (es₁ ++ es₂), es₄ ++ es₅, by simp⟩
        · rintro _ ⟨⟩
          simp
  | Ping =>
    refine (parse_sends client _).bind ?_
    rintro doc es₁ ⟨rfl, silent₁⟩
    refine (getCurrentTime_sends client).bind ?_
    intro timestamp es₂ silent₂
    let ack : Acknowledgement :=
      { ackType := bytes "ping", src := config.uuid,
        dest := some (Ping.ofDoc A (A.read msgJson)).src
        timestamp := some timestamp }
    refine (sendNetworkMessage_sends client lawful ack.toDoc_within).bind ?_
    intro _ es₃ posted₃
    refine Ensures.pure ⟨[ack.toDoc], ?_, .single ack.toDoc_src, ?_⟩
    · simpa using silent.append (silent₁.append (silent₂.append posted₃))
    · intro ticket
      cases type.symm.trans ticket
  | _ =>
    refine (parse_sends client _).bind ?_
    rintro doc es₁ ⟨-, silent₁⟩
    refine Ensures.pure ⟨[], by simpa using silent.append silent₁, by simp [FromSender], ?_⟩
    intro ticket
    cases type.symm.trans ticket

end Sending

end Stembot
