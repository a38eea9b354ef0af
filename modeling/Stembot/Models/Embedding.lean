import Stembot.Models.Control
import Stembot.Models.RoundTrip

/-!
# Forms inside tickets inside responses

A form is spliced into or parsed into a ticket, the ticket is parsed into a
response, and the peer undoes the layers one by one. Each layer is given by the
document it carries.
-/

namespace Stembot

open Library

theorem GetConfig.ofDoc_docAround (A : ArduinoJson) (f : GetConfig) (config : Json) :
    ofDoc A (f.docAround config) = { f with configJson := textUnlessNull A config } := by
  simp [ofDoc, docAround, setOptStr, Json.get_set]

theorem GetConfig.typeOfDoc_docAround (f : GetConfig) (config : Json) :
    controlFormTypeOf (typeOfDoc (f.docAround config)) = .GetConfig := by
  have tag : (f.docAround config).get (bytes "type") = .str (bytes "get_config") := by
    simp [docAround, setOptStr, Json.get_set]
  rw [typeOfDoc, tag]
  decide

theorem Benchmark.typeOfDoc_toDoc (f : Benchmark) :
    controlFormTypeOf (typeOfDoc f.toDoc) = .Benchmark := by
  have tag : f.toDoc.get (bytes "type") = .str (bytes "benchmark") := by
    simp [toDoc, setOptStr, setOptI64, Json.get_set]
  rw [typeOfDoc, tag]
  decide

section Layers

variable {A : ArduinoJson} (lawful : A.Lawful)
include lawful

theorem Benchmark.ofDoc_toDoc (f : Benchmark) : ofDoc A f.toDoc = f := by
  simp [ofDoc, toDoc, setOptStr, setOptI64, Json.get_set, lawful.getOptI64_optJson]

/-- An absent form and the document that nothing is read as are the same to a ticket. -/
theorem NetworkTicket.toDoc_eq (typeTag : Bytes) (t : NetworkTicket) :
    t.toDoc A typeTag = t.docAround typeTag (A.read t.formJson) := by
  by_cases absent : t.formJson = []
  · simp [toDoc, absent, lawful.read_nil]
  · simp [toDoc, absent]

/-- A ticket's text gives back the document of its form. -/
theorem NetworkTicket.fromJson_docAround (typeTag : Bytes) (t : NetworkTicket) {form : Json}
    (h : form.Within (nestingLimit - 1)) :
    fromJson A (A.serializeJson (t.docAround typeTag form)) =
      { t with formJson := (textUnlessNull A form).getD [] } := by
  rw [fromJson, lawful.read_serialize (docAround_within typeTag t h)]
  simp [ofDoc, docAround, setOptStr, setOptF64, Json.get_set, lawful.getOptF64_optJson]

/-- The messages of a response come back as the documents their texts were read as. -/
theorem NetworkMessagesResponse.messageJsons_fromJson (r : NetworkMessagesResponse)
    (room : ∀ s ∈ r.messageJsons, (A.read s).Within (nestingLimit - 2)) :
    (fromJson A (r.toJson A)).messageJsons = r.messageJsons.map fun s =>
      A.serializeJson (A.read s) := by
  rw [fromJson, toJson, lawful.read_serialize (r.toDoc_within room)]
  simp [ofDoc, toDoc, setOptStr, setOptF64, Json.get_set, Json.items]

end Layers

/-- The form of the ticket at a position of a response. -/
def NetworkMessagesResponse.formAt (A : ArduinoJson) (responseJson : Bytes) (i : Nat) :
    Option Bytes :=
  ((fromJson A responseJson).messageJsons[i]?).map fun msgJson =>
    (NetworkTicket.fromJson A msgJson).formJson

/-- The response with a ticket for this form among other messages, as text. -/
def NetworkMessagesResponse.around (A : ArduinoJson) (r : NetworkMessagesResponse)
    (before after : List Bytes) (typeTag : Bytes) (t : NetworkTicket) (formJson : Bytes) : Bytes :=
  toJson A { r with messageJsons := before ++ { t with formJson }.toJson A typeTag :: after }

/-- The config value is absent, or a value other than null that leaves room for the containers
around it. -/
def GetConfig.Embeddable (A : ArduinoJson) (f : GetConfig) : Prop :=
  ∀ text, f.configJson = some text →
    ∃ d : Json, d ≠ .null ∧ d.Within (nestingLimit - 4) ∧ text = A.serializeJson d

section Embedded

variable {A : ArduinoJson} (lawful : A.Lawful)
include lawful

/-- A form's text goes through the three layers unchanged. -/
theorem formAt_around (r : NetworkMessagesResponse) {before after : List Bytes}
    (room : ∀ s ∈ before ++ after, (A.read s).Within (nestingLimit - 2)) (typeTag : Bytes)
    (t : NetworkTicket) {form : Json} (notNull : form ≠ .null)
    (h : form.Within (nestingLimit - 3)) :
    NetworkMessagesResponse.formAt A (r.around A before after typeTag t (A.serializeJson form))
      before.length = some (A.serializeJson form) := by
  let ticket : NetworkTicket := { t with formJson := A.serializeJson form }
  have doc : ticket.toDoc A typeTag = ticket.docAround typeTag form := by
    rw [NetworkTicket.toDoc_eq lawful, lawful.read_serialize (h.mono (by decide))]
  have within : (ticket.docAround typeTag form).Within (nestingLimit - 2) :=
    NetworkTicket.docAround_within typeTag ticket h
  have read : A.read (ticket.toJson A typeTag) = ticket.docAround typeTag form := by
    rw [NetworkTicket.toJson, doc, lawful.read_serialize (within.mono (by decide))]
  have texts : ∀ s ∈ before ++ ticket.toJson A typeTag :: after,
      (A.read s).Within (nestingLimit - 2) := by
    intro s member
    rcases List.mem_append.mp member with first | later
    · exact room s (List.mem_append_left _ first)
    · rcases List.mem_cons.mp later with rfl | last
      · rw [read]
        exact within
      · exact room s (List.mem_append_right _ last)
  have message : (NetworkMessagesResponse.fromJson A
      (r.around A before after typeTag t (A.serializeJson form))).messageJsons[before.length]? =
      some (A.serializeJson (A.read (ticket.toJson A typeTag))) := by
    rw [NetworkMessagesResponse.around,
      NetworkMessagesResponse.messageJsons_fromJson lawful _ texts]
    simp [ticket]
  rw [NetworkMessagesResponse.formAt, message, Option.map_some, read,
    NetworkTicket.fromJson_docAround lawful typeTag ticket (h.mono (by decide)),
    textUnlessNull_of_ne notNull]
  rfl

/-- A form's document, whether its config is absent or spliced in as text. -/
theorem GetConfig.Embeddable.toJson_eq {f : GetConfig} (embeddable : f.Embeddable A) :
    ∃ config : Json, config.Within (nestingLimit - 4) ∧
      f.toJson A = A.serializeJson (f.docAround config) ∧
        f.configJson = textUnlessNull A config := by
  cases absent : f.configJson with
  | none =>
    refine ⟨.null, .null, ?_, rfl⟩
    simp [toJson, toDoc, absent, optJson]
  | some text =>
    obtain ⟨config, notNull, within, rfl⟩ := embeddable text absent
    refine ⟨config, within, ?_, (textUnlessNull_of_ne notNull).symm⟩
    rw [← f.toJson_serialized lawful config, ← absent]

end Embedded

/-- A form put into a ticket, and the ticket among any other messages of a response, is decoded as
the form it was. -/
theorem forms_survive {A : ArduinoJson} (lawful : A.Lawful) (r : NetworkMessagesResponse)
    (before after : List Bytes)
    (room : ∀ s ∈ before ++ after, (A.read s).Within (nestingLimit - 2)) (typeTag : Bytes)
    (t : NetworkTicket) :
    (∀ f : GetConfig, f.Embeddable A →
      ∃ formJson, NetworkMessagesResponse.formAt A (r.around A before after typeTag t (f.toJson A))
          before.length = some formJson ∧
        controlFormType A formJson = .GetConfig ∧ GetConfig.fromJson A formJson = f) ∧
    ∀ f : Benchmark,
      ∃ formJson, NetworkMessagesResponse.formAt A (r.around A before after typeTag t (f.toJson A))
          before.length = some formJson ∧
        controlFormType A formJson = .Benchmark ∧ Benchmark.fromJson A formJson = f := by
  constructor
  · intro f embeddable
    obtain ⟨config, within, text, configJson⟩ := embeddable.toJson_eq lawful
    have form : (f.docAround config).Within (nestingLimit - 3) := f.docAround_within within
    rw [text]
    refine ⟨_, formAt_around lawful r room typeTag t (f.docAround_ne_null config) form, ?_, ?_⟩
    · rw [controlFormType, lawful.read_serialize (form.mono (by decide)), f.typeOfDoc_docAround]
    · rw [GetConfig.fromJson, lawful.read_serialize (form.mono (by decide)),
        GetConfig.ofDoc_docAround, ← configJson]
  · intro f
    have form : f.toDoc.Within (nestingLimit - 3) := f.toDoc_within
    refine ⟨_, formAt_around lawful r room typeTag t f.toDoc_ne_null form, ?_, ?_⟩
    · rw [controlFormType, lawful.read_serialize (form.mono (by decide)), f.typeOfDoc_toDoc]
    · rw [Benchmark.fromJson, lawful.read_serialize (form.mono (by decide)), f.ofDoc_toDoc lawful]

/-- A scalar config, and a payload that is the empty string, between a null message and
no message. -/
theorem forms_survive_text :
    (∃ formJson, NetworkMessagesResponse.formAt textLibrary
          (NetworkMessagesResponse.around textLibrary {} [bytes "null"] []
            (bytes "ticket_response") {}
            (GetConfig.toJson textLibrary { configJson := some (bytes "\"\"") })) 1 =
              some formJson ∧
        controlFormType textLibrary formJson = .GetConfig ∧
        GetConfig.fromJson textLibrary formJson = { configJson := some (bytes "\"\"") }) ∧
    ∃ formJson, NetworkMessagesResponse.formAt textLibrary
          (NetworkMessagesResponse.around textLibrary {} [bytes "null"] []
            (bytes "ticket_response") {}
            (Benchmark.toJson textLibrary { inboundSize := some (-1), payload := some [] })) 1 =
            some formJson ∧
        controlFormType textLibrary formJson = .Benchmark ∧
        Benchmark.fromJson textLibrary formJson =
        { inboundSize := some (-1), payload := some [] } := by
  have null : textLibrary.read (bytes "null") = .null :=
    textLibrary_lawful.read_serialize (d := .null) .null
  have survive := forms_survive textLibrary_lawful {} [bytes "null"] [] ?_
    (bytes "ticket_response") {}
  · refine ⟨survive.1 _ ?_, survive.2 _⟩
    rintro text ⟨⟩
    exact ⟨.str [], by simp, .str [], by decide⟩
  · intro s member
    rw [List.append_nil, List.mem_singleton] at member
    rw [member, null]
    exact .null

end Stembot
