import Stembot.Models.Network
import Stembot.Models.TextLibrary

/-!
# The send path loses nothing

Every message is encoded, patched with the sender's `isrc`, and decoded by its
peer. The three passes compose to the message with that one field replaced.
-/

namespace Stembot

open Library

@[simp] theorem orStr_str (s default : Bytes) : orStr (.str s) default = s := rfl

@[simp] theorem orBool_bool (b default : Bool) : orBool (.bool b) default = b := rfl

@[simp] theorem getOptStr_str (A : ArduinoJson) (s : Bytes) : getOptStr A (.str s) = some s := rfl

theorem ArduinoJson.Lawful.orDouble_num {A : ArduinoJson} (lawful : A.Lawful)
    (d default : Decimal) :
    orDouble A (.num d) default = d := lawful.asDouble_num d

/-- The members every message starts with. -/
theorem header_within {n : Nat} (tag src : Bytes) (dest isrc : Option Bytes) (t : Option Decimal) :
    (setOptF64 (setOptStr ((setOptStr (Json.null.set (bytes "type") (.str tag)) "dest" dest).set
      (bytes "src") (.str src)) "isrc" isrc) "timestamp" t).Within (n + 1) :=
  setOptF64_within (setOptStr_within ((setOptStr_within (Json.Within.null.set _ (.str _)) _ _).set
    _ (.str _)) _ _) _ _

theorem Ping.toDoc_within {n : Nat} (p : Ping) : p.toDoc.Within (n + 1) :=
  setOptStr_within (setOptStr_within (header_within _ _ _ _ _) _ _) _ _

theorem NetworkMessagesRequest.toDoc_within {n : Nat} (m : NetworkMessagesRequest) :
    m.toDoc.Within (n + 2) :=
  setOptStr_within (setOptStr_within (setOptStrArray_within (setOptStrArray_within
    (setOptI64_within (header_within _ _ _ _ _) _ _) _ _) _ _) _ _) _ _

theorem Acknowledgement.toDoc_within {n : Nat} (a : Acknowledgement) : a.toDoc.Within (n + 1) :=
  setOptStr_within (setOptStr_within ((setOptStr_within (setOptStr_within
    (header_within _ _ _ _ _) _ _) _ _).set _ (.str _)) _ _) _ _

theorem TicketTraceResponse.toDoc_within {n : Nat} (t : TicketTraceResponse) :
    t.toDoc.Within (n + 1) :=
  (((setOptStr_within (setOptStr_within (header_within _ _ _ _ _) _ _) _ _).set _ (.str _)).set
    _ (.num _)).set _ (.str _)

theorem NetworkMessagesResponse.toDoc_within {A : ArduinoJson} {n : Nat}
    (r : NetworkMessagesResponse) (h : ∀ s ∈ r.messageJsons, (A.read s).Within n) :
    (r.toDoc A).Within (n + 2) := by
  refine (setOptStr_within (setOptStr_within (header_within _ _ _ _ _) _ _) _ _).set _ (.arr ?_)
  intro d hd
  obtain ⟨s, hs, rfl⟩ := List.mem_map.mp hd
  exact h s hs

theorem NetworkTicket.docAround_within {n : Nat} (typeTag : Bytes) (t : NetworkTicket) {form : Json}
    (h : form.Within n) : (t.docAround typeTag form).Within (n + 1) :=
  ((setOptF64_within (setOptF64_within (setOptStr_within ((setOptStr_within (setOptStr_within
    (header_within _ _ _ _ _) _ _) _ _).set _ (.str _)) _ _) _ _) _ _).set _ (.bool _)).set _ h

theorem NetworkTicket.toDoc_within {A : ArduinoJson} {n : Nat} (typeTag : Bytes) (t : NetworkTicket)
    (h : (A.read t.formJson).Within n) : (t.toDoc A typeTag).Within (n + 1) := by
  refine docAround_within typeTag t ?_
  split
  · exact .null
  · exact h

section Decode

variable {A : ArduinoJson} (lawful : A.Lawful) (u : Bytes)
include lawful

theorem setIsrcJson_read {d : Json} (h : d.Within nestingLimit) :
    setIsrcJson A (A.serializeJson d) u = A.serializeJson (d.set (bytes "isrc") (.str u)) := by
  rw [setIsrcJson, patchIsrc, lawful.read_serialize h]

/-- What the peer reads from a patched document. -/
theorem read_setIsrcJson {d : Json} (h : d.Within nestingLimit) :
    A.read (setIsrcJson A (A.serializeJson d) u) = d.set (bytes "isrc") (.str u) := by
  rw [setIsrcJson_read lawful u h]
  exact lawful.read_serialize (Json.Within.set (n := 9) h _ (.str u))

theorem Ping.ofDoc_toDoc (p : Ping) :
    Ping.ofDoc A (p.toDoc.set (bytes "isrc") (.str u)) = { p with isrc := some u } := by
  simp [ofDoc, toDoc, setOptStr, setOptF64, Json.get_set, lawful.getOptF64_optJson]

theorem NetworkMessagesRequest.ofDoc_toDoc (m : NetworkMessagesRequest) :
    ofDoc A (m.toDoc.set (bytes "isrc") (.str u)) = { m with isrc := some u } := by
  simp [ofDoc, toDoc, setOptStr, setOptF64, setOptI64, setOptStrArray, Json.get_set,
    lawful.getOptF64_optJson, lawful.getOptI64_optJson]

theorem Acknowledgement.ofDoc_toDoc (a : Acknowledgement) :
    ofDoc A (a.toDoc.set (bytes "isrc") (.str u)) = { a with isrc := some u } := by
  simp [ofDoc, toDoc, setOptStr, setOptF64, Json.get_set, lawful.getOptF64_optJson]

theorem TicketTraceResponse.ofDoc_toDoc (t : TicketTraceResponse) :
    ofDoc A (t.toDoc.set (bytes "isrc") (.str u)) = { t with isrc := some u } := by
  simp [ofDoc, toDoc, setOptStr, setOptF64, Json.get_set, lawful.getOptF64_optJson,
    lawful.orDouble_num]

/-- The embedded messages survive when each text is what its own document serialises to. -/
theorem NetworkMessagesResponse.ofDoc_toDoc (r : NetworkMessagesResponse)
    (h : ∀ s ∈ r.messageJsons, A.serializeJson (A.read s) = s) :
    ofDoc A ((r.toDoc A).set (bytes "isrc") (.str u)) = { r with isrc := some u } := by
  have texts : (r.messageJsons.map A.read).map A.serializeJson = r.messageJsons := by
    rw [List.map_map]
    exact (List.map_congr_left h).trans (List.map_id _)
  simp [ofDoc, toDoc, setOptStr, setOptF64, Json.get_set,
    lawful.getOptF64_optJson, Json.items, texts]

theorem NetworkTicket.ofDoc_docAround (typeTag : Bytes) (t : NetworkTicket) (form : Json) :
    ofDoc A ((t.docAround typeTag form).set (bytes "isrc") (.str u)) =
      { t with isrc := some u, formJson := (textUnlessNull A form).getD [] } := by
  simp [ofDoc, docAround, setOptStr, setOptF64, Json.get_set, lawful.getOptF64_optJson]

theorem NetworkTicket.ofDoc_toDoc (typeTag : Bytes) (t : NetworkTicket)
    (h : t.formJson ≠ [] → A.read t.formJson ≠ .null ∧
    A.serializeJson (A.read t.formJson) = t.formJson) :
    ofDoc A ((t.toDoc A typeTag).set (bytes "isrc") (.str u)) = { t with isrc := some u } := by
  have form : (textUnlessNull A (if t.formJson = [] then .null else A.read t.formJson)).getD [] =
      t.formJson := by
    by_cases empty : t.formJson = []
    · simp [empty]
    · obtain ⟨notNull, text⟩ := h empty
      simp [empty, textUnlessNull_of_ne notNull, text]
  rw [toDoc, NetworkTicket.ofDoc_docAround lawful, form]

end Decode

section SendPath

variable {A : ArduinoJson} (lawful : A.Lawful) (u : Bytes)
include lawful

/-- One message: the peer's decoder and its type detection both see the patched document. -/
theorem decode_sent {d : Json} (h : d.Within nestingLimit) {M : Type} (ofDoc : Json → M) {m : M}
    (decodes : ofDoc (d.set (bytes "isrc") (.str u)) = m) (tag : Bytes) {kind : NetworkMessageType}
    (named : networkMessageTypeOf (cstr tag) = kind)
    (tagged : (d.set (bytes "isrc") (.str u)).get (bytes "type") = .str tag) :
    ofDoc (A.read (setIsrcJson A (A.serializeJson d) u)) = m ∧
      networkMessageType A (setIsrcJson A (A.serializeJson d) u) = kind := by
  rw [networkMessageType, read_setIsrcJson lawful u h, typeOfDoc, tagged]
  exact ⟨decodes, named⟩

/-- Texts that serialise a document read back as that document. -/
theorem read_of_serialized {n : Nat} (hn : n ≤ nestingLimit) {s : Bytes}
    (h : ∃ d : Json, d.Within n ∧ s = A.serializeJson d) :
    (A.read s).Within n ∧ A.serializeJson (A.read s) = s := by
  obtain ⟨d, within, rfl⟩ := h
  rw [lawful.read_serialize (within.mono hn)]
  exact ⟨within, rfl⟩

theorem Ping.decode_sent (m : Ping) :
    fromJson A (setIsrcJson A (m.toJson A) u) = { m with isrc := some u } ∧
      networkMessageType A (setIsrcJson A (m.toJson A) u) = .Ping :=
  Stembot.decode_sent lawful u m.toDoc_within (ofDoc A) (m.ofDoc_toDoc lawful u)
    (bytes "ping") (by decide) (by simp [toDoc, setOptStr, setOptF64, Json.get_set])

theorem NetworkMessagesRequest.decode_sent (m : NetworkMessagesRequest) :
    fromJson A (setIsrcJson A (m.toJson A) u) = { m with isrc := some u } ∧
      networkMessageType A (setIsrcJson A (m.toJson A) u) = .MessagesRequest :=
  Stembot.decode_sent lawful u m.toDoc_within (ofDoc A) (m.ofDoc_toDoc lawful u)
    (bytes "messages_request") (by decide)
    (by simp [toDoc, setOptStr, setOptF64, setOptI64, setOptStrArray, Json.get_set])

theorem Acknowledgement.decode_sent (m : Acknowledgement) :
    fromJson A (setIsrcJson A (m.toJson A) u) = { m with isrc := some u } ∧
      networkMessageType A (setIsrcJson A (m.toJson A) u) = .Acknowledgement :=
  Stembot.decode_sent lawful u m.toDoc_within (ofDoc A) (m.ofDoc_toDoc lawful u)
    (bytes "acknowledgement") (by decide) (by simp [toDoc, setOptStr, setOptF64, Json.get_set])

theorem TicketTraceResponse.decode_sent (m : TicketTraceResponse) :
    fromJson A (setIsrcJson A (m.toJson A) u) = { m with isrc := some u } ∧
      networkMessageType A (setIsrcJson A (m.toJson A) u) = .TicketTraceResponse :=
  Stembot.decode_sent lawful u m.toDoc_within (ofDoc A) (m.ofDoc_toDoc lawful u)
    (bytes "ticket_trace_response") (by decide)
    (by simp [toDoc, setOptStr, setOptF64, Json.get_set])

end SendPath

/-- The embedded texts serialise JSON values that leave room for the message around them. -/
def NetworkMessagesResponse.Sendable (A : ArduinoJson) (r : NetworkMessagesResponse) : Prop :=
  ∀ s ∈ r.messageJsons, ∃ d : Json, d.Within (nestingLimit - 2) ∧ s = A.serializeJson d

/-- A form's text: absent, or the serialisation of a value other than null. -/
def FormText (A : ArduinoJson) (text : Bytes) : Prop :=
  text = [] ∨ ∃ d : Json, d ≠ .null ∧ d.Within (nestingLimit - 1) ∧ text = A.serializeJson d

def NetworkTicket.Sendable (A : ArduinoJson) (t : NetworkTicket) : Prop := FormText A t.formJson

theorem NetworkMessagesResponse.decode_sent {A : ArduinoJson} (lawful : A.Lawful) (u : Bytes)
    (r : NetworkMessagesResponse) (h : r.Sendable A) :
    fromJson A (setIsrcJson A (r.toJson A) u) = { r with isrc := some u } ∧
      networkMessageType A (setIsrcJson A (r.toJson A) u) = .MessagesResponse := by
  have texts := fun s hs => read_of_serialized lawful (by decide) (h s hs)
  exact Stembot.decode_sent lawful u (NetworkMessagesResponse.toDoc_within r fun s hs =>
    (texts s hs).1)
    (ofDoc A) (NetworkMessagesResponse.ofDoc_toDoc lawful u r fun s hs => (texts s hs).2)
    (bytes "messages_response") (by decide) (by simp [toDoc, setOptStr, setOptF64, Json.get_set])

theorem NetworkTicket.decode_sent {A : ArduinoJson} (lawful : A.Lawful)
    (u : Bytes) {typeTag : Bytes} (t : NetworkTicket) (h : t.Sendable A) :
    fromJson A (setIsrcJson A (t.toJson A typeTag) u) = { t with isrc := some u } ∧
      networkMessageType A (setIsrcJson A (t.toJson A typeTag) u) =
      networkMessageTypeOf (cstr typeTag) := by
  have form : (A.read t.formJson).Within (nestingLimit - 1) ∧
      (t.formJson ≠ [] → A.read t.formJson ≠ .null ∧
        A.serializeJson (A.read t.formJson) = t.formJson) := by
    rcases h with absent | ⟨d, notNull, within, text⟩
    · rw [absent, lawful.read_nil]
      exact ⟨.null, fun h => absurd rfl h⟩
    · rw [text, lawful.read_serialize (within.mono (by decide))]
      exact ⟨within, fun _ => ⟨notNull, rfl⟩⟩
  exact Stembot.decode_sent lawful u (NetworkTicket.toDoc_within typeTag t form.1) (ofDoc A)
    (NetworkTicket.ofDoc_toDoc lawful u typeTag t form.2)
    typeTag rfl (by simp [toDoc, docAround, setOptStr, setOptF64, Json.get_set])

/-- Encoding, patching `isrc` and decoding give back the message with `isrc` replaced, and the
text names the message's own kind. -/
theorem send_path_lossless {A : ArduinoJson} (lawful : A.Lawful) (u : Bytes) :
    (∀ m : Ping, Ping.fromJson A (setIsrcJson A (m.toJson A) u) = { m with isrc := some u } ∧
      networkMessageType A (setIsrcJson A (m.toJson A) u) = .Ping) ∧
    (∀ m : NetworkMessagesRequest,
      NetworkMessagesRequest.fromJson A (setIsrcJson A (m.toJson A) u) = { m with isrc := some u } ∧
      networkMessageType A (setIsrcJson A (m.toJson A) u) = .MessagesRequest) ∧
    (∀ m : Acknowledgement,
      Acknowledgement.fromJson A (setIsrcJson A (m.toJson A) u) = { m with isrc := some u } ∧
      networkMessageType A (setIsrcJson A (m.toJson A) u) = .Acknowledgement) ∧
    (∀ m : NetworkMessagesResponse, m.Sendable A →
      NetworkMessagesResponse.fromJson A (setIsrcJson A (m.toJson A) u) =
        { m with isrc := some u } ∧
      networkMessageType A (setIsrcJson A (m.toJson A) u) = .MessagesResponse) ∧
    (∀ m : TicketTraceResponse,
      TicketTraceResponse.fromJson A (setIsrcJson A (m.toJson A) u) = { m with isrc := some u } ∧
      networkMessageType A (setIsrcJson A (m.toJson A) u) = .TicketTraceResponse) ∧
    (∀ m : NetworkTicket, m.Sendable A →
      (NetworkTicket.fromJson A (setIsrcJson A (m.toJson A (bytes "ticket_request")) u) =
          { m with isrc := some u } ∧
        networkMessageType A (setIsrcJson A (m.toJson A (bytes "ticket_request")) u) =
          .TicketRequest) ∧
      (NetworkTicket.fromJson A (setIsrcJson A (m.toJson A (bytes "ticket_response")) u) =
          { m with isrc := some u } ∧
        networkMessageType A (setIsrcJson A (m.toJson A (bytes "ticket_response")) u) =
          .TicketResponse)) :=
  ⟨fun m => m.decode_sent lawful u, fun m => m.decode_sent lawful u, fun m =>
    m.decode_sent lawful u, fun m h => m.decode_sent lawful u h, fun m => m.decode_sent lawful u,
    fun m h => ⟨m.decode_sent lawful u h, m.decode_sent lawful u h⟩⟩

theorem send_path_lossless_text :
    Ping.fromJson textLibrary (setIsrcJson textLibrary
      (Ping.toJson textLibrary { src := bytes "a" })
        (bytes "u")) = { src := bytes "a", isrc := some (bytes "u") } ∧
      networkMessageType textLibrary (setIsrcJson textLibrary (NetworkTicket.toJson textLibrary
        (bytes "ticket_response") { formJson := bytes "[0]" }) (bytes "u")) = .TicketResponse ∧
      networkMessageType textLibrary
        (setIsrcJson textLibrary (NetworkMessagesResponse.toJson textLibrary
        { messageJsons := [bytes "null"] }) (bytes "u")) = .MessagesResponse := by
  obtain ⟨ping, -, -, response, -, ticket⟩ := send_path_lossless textLibrary_lawful (bytes "u")
  refine ⟨(ping _).1, (ticket _ (.inr ⟨.arr [.num (.ofInt 0)], ?_, ?_, ?_⟩)).2.2,
    (response _ fun s hs => ⟨.null, .null, ?_⟩).2⟩
  · simp
  · exact .arr fun x hx => (List.mem_singleton.mp hx) ▸ .num _
  · decide
  · rw [List.mem_singleton.mp hs]
    decide

end Stembot
