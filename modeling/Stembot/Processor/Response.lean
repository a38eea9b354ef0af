import Stembot.Processor.Forms

/-!
# What a response keeps of its request

The response is the request turned round: its own fields stay, and its form is
handed on as it stands, or rewritten from the fields of its type.
-/

namespace Stembot

open Library Program

/-- What a form becomes in a response, seen from the peer. A form of a known type is written anew
from its fields, with the one replaced. -/
structure FormAnswered (A : ArduinoJson) (sha256 : Sha256) (calls : List TaskCall)
    (form form' : Json) :
    Prop where
  null : form = .null → form' = .null
  unknown : controlFormTypeOf (typeOfDoc form) = .Unknown → form' = form
  getConfig : controlFormTypeOf (typeOfDoc form) = .GetConfig →
    ∃ created saved, (Config.create sha256).Traces created saved ∧ created.map byTask <:+: calls ∧
      form' = (GetConfig.ofDoc A form).docAround saved.toDoc ∧
      GetConfig.ofDoc A form' = { GetConfig.ofDoc A form with configJson := some (saved.toJson A) }
  benchmark : controlFormTypeOf (typeOfDoc form) = .Benchmark →
    let answered : Benchmark := { Benchmark.ofDoc A form with
      payload := (Benchmark.ofDoc A form).inboundSize.map fun n => List.replicate n.toInt.toNat 48 }
    form' = answered.toDoc ∧ Benchmark.ofDoc A form' = answered

section Response

variable {A : ArduinoJson} (lawful : A.Lawful) {sha256 : Sha256} {maxSize : Nat}
include lawful

theorem Handled.answered {form form' : Json} {calls : List TaskCall}
    (handled : Handled A sha256 maxSize form calls (some form')) (target : maxSize < 2 ^ 32)
    (served : controlFormTypeOf (typeOfDoc form) = .Benchmark →
      ∀ n, (Benchmark.ofDoc A form).inboundSize = some n → Served maxSize n) :
    FormAnswered A sha256 calls form form' where
  null := by
    rintro rfl
    exact Option.some.inj (handled.of_unknown rfl)
  unknown type := Option.some.inj (handled.of_unknown type)
  getConfig type := by
    obtain ⟨created, saved, traced, part, out⟩ := handled.of_getConfig type
    obtain rfl := Option.some.inj out
    refine ⟨created, saved, traced, part, rfl, ?_⟩
    have notNull : saved.toDoc ≠ .null := by simp [Config.toDoc, Json.set]
    rw [GetConfig.ofDoc_docAround, textUnlessNull_of_ne notNull]
    rfl
  benchmark type := by
    have out := handled.of_benchmark type
    rw [fillPayload_of_served target _ (served type)] at out
    obtain rfl := Option.some.inj out
    exact ⟨rfl, Benchmark.ofDoc_toDoc lawful _⟩

omit lawful in
/-- A form whose size is served is answered. -/
theorem Handled.isSome {form : Json} {out : Option Json} {calls : List TaskCall}
    (handled : Handled A sha256 maxSize form calls out) (target : maxSize < 2 ^ 32)
    (served : controlFormTypeOf (typeOfDoc form) = .Benchmark →
      ∀ n, (Benchmark.ofDoc A form).inboundSize = some n → Served maxSize n) : out.isSome := by
  cases handled with
  | getConfig _ _ _ => rfl
  | benchmark type =>
    rw [fillPayload_of_served target _ (served type)]
    rfl
  | unknown _ => rfl

end Response

/-- The last text that a ticket request gives rise to is its response: the fields are those the
request decodes to, addressed to its sender, in the agent's own name, around the answered form. -/
theorem ticket_response_kept {A : ArduinoJson} (lawful : A.Lawful) {sha256 : Sha256} {maxSize : Nat}
    (target : maxSize < 2 ^ 32) {config : Config} {msgJson : Bytes}
    (within : (A.read msgJson).Within nestingLimit)
    (ticket : networkMessageType A msgJson = .TicketRequest)
    (served : controlFormTypeOf (typeOfDoc ((A.read msgJson).get (bytes "form"))) = .Benchmark →
      ∀ n, (Benchmark.ofDoc A ((A.read msgJson).get (bytes "form"))).inboundSize = some n →
        0 ≤ n.toInt ∧ n.toInt ≤ maxSize)
    {calls : List TaskCall} {r : Option Unit}
    (ran : (processNetworkMessage A sha256 maxSize config config.client msgJson).Traces calls r)
    (honest : ∀ e ∈ calls, Honest A e) :
    r = some () ∧ ∃ text, (outgoing calls).getLast? = some (config.client, text) ∧
      networkMessageType A text = .TicketResponse ∧
      let request := NetworkTicket.fromJson A msgJson
      let response := NetworkTicket.fromJson A text
      response = { request with
        dest := some request.src, src := config.uuid, isrc := some config.uuid
        formJson := response.formJson } ∧
      FormAnswered A sha256 calls ((A.read msgJson).get (bytes "form"))
          ((A.read text).get (bytes "form")) := by
  obtain ⟨docs, posted, -, answered⟩ :=
    processNetworkMessage_sends config.client lawful sha256 maxSize config within calls r ran honest
  obtain ⟨out, handled, rfl, last⟩ := answered ticket
  obtain ⟨form, rfl⟩ := Option.isSome_iff_exists.mp (handled.isSome target served)
  have response : docs.getLast? = some (responseDoc A config (A.read msgJson) form) := last form rfl
  have read := read_signed config.client lawful (posted.within _ (List.mem_of_getLast? response))
  refine ⟨rfl, signed A config.client (responseDoc A config (A.read msgJson) form), ?_, ?_, ?_, ?_⟩
  · rw [posted.texts, List.getLast?_map, response]
    rfl
  · have tag : (A.read (signed A config.client (responseDoc A config (A.read msgJson) form))).get
      (bytes "type") =
        .str (bytes "ticket_response") := by
      rw [read]
      simp [responseDoc, NetworkTicket.docAround, setOptStr, setOptF64, Json.get_set]
    rw [networkMessageType, typeOfDoc, tag]
    decide
  · have decoded :
      NetworkTicket.fromJson A (signed A config.client
        (responseDoc A config (A.read msgJson) form)) =
        { (NetworkTicket.ofDoc A (A.read msgJson)).turned config.uuid with
          isrc := some config.uuid, formJson := formTextOf A form } := by
      rw [NetworkTicket.fromJson, read]
      exact NetworkTicket.ofDoc_docAround lawful _ _ _ _
    rw [decoded]
    rfl
  · have answer : (A.read (signed A config.client (responseDoc A config (A.read msgJson) form))).get
        (bytes "form") = form := by
      rw [read]
      simp [responseDoc, NetworkTicket.docAround, setOptStr, setOptF64, Json.get_set]
    rw [answer]
    exact handled.answered lawful target served

/-- A form of unknown type comes back as it was. -/
def sampleForm : Json :=
  .obj [(bytes "type", .str (bytes "benchmark")), (bytes "inbound_size", .num (.ofInt 3)),
    (bytes "error", .str (bytes "e"))]

theorem sampleForm_within : sampleForm.Within (nestingLimit - 1) := by
  refine .obj (by decide) fun m member => ?_
  simp only [List.mem_cons, List.not_mem_nil, or_false] at member
  rcases member with rfl | rfl | rfl
  · exact .str _
  · exact .num _
  · exact .str _

/-- A traced ticket with a benchmark. -/
theorem ticket_response_kept_sample :
    let request : NetworkTicket := { src := bytes "p", tckuuid := bytes "t", tracing := true }
    let msgJson := textLibrary.serializeJson (request.docAround (bytes "ticket_request") sampleForm)
    let run := processNetworkMessage textLibrary sampleSha256 100 Config.blank
      Config.blank.client msgJson
    ∃ text,
      (outgoing (run.trace (World.answer textLibrary) (sampleWorld (fun _ => none) []))).getLast? =
        some (Config.blank.client, text) ∧
      (NetworkTicket.fromJson textLibrary text).tckuuid = bytes "t" ∧
      (NetworkTicket.fromJson textLibrary text).dest = some (bytes "p") ∧
      (NetworkTicket.fromJson textLibrary text).tracing = true ∧
      (textLibrary.read text).get (bytes "form") =
        Benchmark.toDoc
          { inboundSize := some 3, payload := some (bytes "000"), error := some (bytes "e") } := by
  intro request msgJson run
  have within : (request.docAround (bytes "ticket_request") sampleForm).Within nestingLimit :=
    NetworkTicket.docAround_within _ _ sampleForm_within
  have read : textLibrary.read msgJson = request.docAround (bytes "ticket_request") sampleForm :=
    textLibrary_lawful.read_serialize within
  have ticket : networkMessageType textLibrary msgJson = .TicketRequest := by
    rw [networkMessageType, read]
    decide
  have form : (textLibrary.read msgJson).get (bytes "form") = sampleForm := by
    rw [read]
    simp [NetworkTicket.docAround, setOptStr, setOptF64, Json.get_set]
  have benchmark : controlFormTypeOf (typeOfDoc sampleForm) = .Benchmark := by decide
  have asked : Benchmark.ofDoc textLibrary sampleForm =
      { inboundSize := some 3, error := some (bytes "e") } := rfl
  obtain ⟨-, text, sent, -, kept, answered⟩ := ticket_response_kept textLibrary_lawful
    (show 100 < 2 ^ 32 by decide) (read ▸ within) ticket
    (by
      rw [form, asked]
      rintro - n ⟨⟩
      decide)
    (traces_run (World.answer textLibrary) run (sampleWorld (fun _ => none) []))
    (World.Sound.honest run fun _ => rfl)
  have decoded : NetworkTicket.fromJson textLibrary msgJson =
      { request with formJson := formTextOf textLibrary sampleForm } := by
    rw [NetworkTicket.fromJson, read]
    simp [NetworkTicket.ofDoc, NetworkTicket.docAround, setOptStr, setOptF64, Json.get_set, request,
      formTextOf, textLibrary_lawful.getOptF64_optJson]
  simp only [decoded] at kept
  rw [form] at answered
  refine ⟨text, sent, congrArg NetworkTicket.tckuuid kept, congrArg NetworkTicket.dest kept,
    congrArg NetworkTicket.tracing kept, ?_⟩
  · rw [(answered.benchmark benchmark).1, asked]
    rfl

/-- The form of the response to a ticket request with this form, in the sample world. -/
def sampleAnswer (form : String) : Option Json :=
  let msgJson := bytes ("\x7b\"type\":\"ticket_request\",\"src\":\"p\",\"form\":" ++ form ++ "\x7d")
  let run := processNetworkMessage textLibrary sampleSha256 100 Config.blank
    Config.blank.client msgJson
  (outgoing (run.trace (World.answer textLibrary) (sampleWorld (fun _ => none) []))).getLast?.map
    fun post => (textLibrary.read post.2).get (bytes "form")

/-- A member that forms of the type do not have is dropped, and a size that is not whole is rounded
towards zero. -/
theorem response_form_is_rewritten :
    (sampleAnswer "\x7b\"type\":\"get_config\",\"x\":\"y\"\x7d").map
      (fun form => textLibrary.serializeJson (form.get (bytes "x"))) = some (bytes "null") ∧
    (sampleAnswer "\x7b\"type\":\"benchmark\",\"inbound_size\":1.5\x7d").map
      (fun form => textLibrary.serializeJson (form.get (bytes "inbound_size"))) =
        some (bytes "1") := by
  decide +kernel

end Stembot
