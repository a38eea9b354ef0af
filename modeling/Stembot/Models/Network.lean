import Stembot.Models.ArduinoJson

/-!
# Network messages

The six message structures of `network.cpp`, with the document each one writes
(`toDoc`) and reads (`ofDoc`). Embedded messages and forms are kept as JSON text.
-/

namespace Stembot

open Library

structure Ping where
  src : Bytes := []
  dest : Option Bytes := none
  isrc : Option Bytes := none
  timestamp : Option Decimal := none
  objuuid : Option Bytes := none
  coluuid : Option Bytes := none

namespace Ping

def toDoc (p : Ping) : Json :=
  let doc := Json.null.set (bytes "type") (.str (bytes "ping"))
  let doc := setOptStr doc "dest" p.dest
  let doc := doc.set (bytes "src") (.str p.src)
  let doc := setOptStr doc "isrc" p.isrc
  let doc := setOptF64 doc "timestamp" p.timestamp
  let doc := setOptStr doc "objuuid" p.objuuid
  setOptStr doc "coluuid" p.coluuid

def toJson (A : ArduinoJson) (p : Ping) : Bytes := A.serializeJson p.toDoc

def ofDoc (A : ArduinoJson) (doc : Json) : Ping where
  src := orStr (doc.get (bytes "src")) []
  dest := getOptStr A (doc.get (bytes "dest"))
  isrc := getOptStr A (doc.get (bytes "isrc"))
  timestamp := getOptF64 A (doc.get (bytes "timestamp"))
  objuuid := getOptStr A (doc.get (bytes "objuuid"))
  coluuid := getOptStr A (doc.get (bytes "coluuid"))

def fromJson (A : ArduinoJson) (json : Bytes) : Ping := ofDoc A (A.read json)

end Ping

structure NetworkMessagesRequest where
  src : Bytes := []
  dest : Option Bytes := none
  isrc : Option Bytes := none
  timestamp : Option Decimal := none
  limit : Option Int64 := none
  networkWhitelist : Option (List Bytes) := none
  controlWhitelist : Option (List Bytes) := none
  objuuid : Option Bytes := none
  coluuid : Option Bytes := none

namespace NetworkMessagesRequest

def toDoc (m : NetworkMessagesRequest) : Json :=
  let doc := Json.null.set (bytes "type") (.str (bytes "messages_request"))
  let doc := setOptStr doc "dest" m.dest
  let doc := doc.set (bytes "src") (.str m.src)
  let doc := setOptStr doc "isrc" m.isrc
  let doc := setOptF64 doc "timestamp" m.timestamp
  let doc := setOptI64 doc "limit" m.limit
  let doc := setOptStrArray doc "network_whitelist" m.networkWhitelist
  let doc := setOptStrArray doc "control_whitelist" m.controlWhitelist
  let doc := setOptStr doc "objuuid" m.objuuid
  setOptStr doc "coluuid" m.coluuid

def toJson (A : ArduinoJson) (m : NetworkMessagesRequest) : Bytes := A.serializeJson m.toDoc

def ofDoc (A : ArduinoJson) (doc : Json) : NetworkMessagesRequest where
  src := orStr (doc.get (bytes "src")) []
  dest := getOptStr A (doc.get (bytes "dest"))
  isrc := getOptStr A (doc.get (bytes "isrc"))
  timestamp := getOptF64 A (doc.get (bytes "timestamp"))
  limit := getOptI64 A (doc.get (bytes "limit"))
  networkWhitelist := getOptStrArray A (doc.get (bytes "network_whitelist"))
  controlWhitelist := getOptStrArray A (doc.get (bytes "control_whitelist"))
  objuuid := getOptStr A (doc.get (bytes "objuuid"))
  coluuid := getOptStr A (doc.get (bytes "coluuid"))

def fromJson (A : ArduinoJson) (json : Bytes) : NetworkMessagesRequest := ofDoc A (A.read json)

end NetworkMessagesRequest

structure Acknowledgement where
  ackType : Bytes := bytes "ping"
  src : Bytes := []
  dest : Option Bytes := none
  isrc : Option Bytes := none
  timestamp : Option Decimal := none
  forwarded : Option Bytes := none
  error : Option Bytes := none
  objuuid : Option Bytes := none
  coluuid : Option Bytes := none

namespace Acknowledgement

def toDoc (a : Acknowledgement) : Json :=
  let doc := Json.null.set (bytes "type") (.str (bytes "acknowledgement"))
  let doc := setOptStr doc "dest" a.dest
  let doc := doc.set (bytes "src") (.str a.src)
  let doc := setOptStr doc "isrc" a.isrc
  let doc := setOptF64 doc "timestamp" a.timestamp
  let doc := setOptStr doc "objuuid" a.objuuid
  let doc := setOptStr doc "coluuid" a.coluuid
  let doc := doc.set (bytes "ack_type") (.str a.ackType)
  let doc := setOptStr doc "forwarded" a.forwarded
  setOptStr doc "error" a.error

def toJson (A : ArduinoJson) (a : Acknowledgement) : Bytes := A.serializeJson a.toDoc

def ofDoc (A : ArduinoJson) (doc : Json) : Acknowledgement where
  ackType := orStr (doc.get (bytes "ack_type")) (bytes "ping")
  src := orStr (doc.get (bytes "src")) []
  dest := getOptStr A (doc.get (bytes "dest"))
  isrc := getOptStr A (doc.get (bytes "isrc"))
  timestamp := getOptF64 A (doc.get (bytes "timestamp"))
  forwarded := getOptStr A (doc.get (bytes "forwarded"))
  error := getOptStr A (doc.get (bytes "error"))
  objuuid := getOptStr A (doc.get (bytes "objuuid"))
  coluuid := getOptStr A (doc.get (bytes "coluuid"))

def fromJson (A : ArduinoJson) (json : Bytes) : Acknowledgement := ofDoc A (A.read json)

end Acknowledgement

structure NetworkMessagesResponse where
  messageJsons : List Bytes := []
  src : Bytes := []
  dest : Option Bytes := none
  isrc : Option Bytes := none
  timestamp : Option Decimal := none
  objuuid : Option Bytes := none
  coluuid : Option Bytes := none

namespace NetworkMessagesResponse

def toDoc (A : ArduinoJson) (r : NetworkMessagesResponse) : Json :=
  let doc := Json.null.set (bytes "type") (.str (bytes "messages_response"))
  let doc := setOptStr doc "dest" r.dest
  let doc := doc.set (bytes "src") (.str r.src)
  let doc := setOptStr doc "isrc" r.isrc
  let doc := setOptF64 doc "timestamp" r.timestamp
  let doc := setOptStr doc "objuuid" r.objuuid
  let doc := setOptStr doc "coluuid" r.coluuid
  doc.set (bytes "messages") (.arr (r.messageJsons.map A.read))

def toJson (A : ArduinoJson) (r : NetworkMessagesResponse) : Bytes := A.serializeJson (r.toDoc A)

def ofDoc (A : ArduinoJson) (doc : Json) : NetworkMessagesResponse where
  src := orStr (doc.get (bytes "src")) []
  dest := getOptStr A (doc.get (bytes "dest"))
  isrc := getOptStr A (doc.get (bytes "isrc"))
  timestamp := getOptF64 A (doc.get (bytes "timestamp"))
  objuuid := getOptStr A (doc.get (bytes "objuuid"))
  coluuid := getOptStr A (doc.get (bytes "coluuid"))
  messageJsons := (doc.get (bytes "messages")).items.map A.serializeJson

def fromJson (A : ArduinoJson) (json : Bytes) : NetworkMessagesResponse := ofDoc A (A.read json)

end NetworkMessagesResponse

structure TicketTraceResponse where
  tckuuid : Bytes := []
  networkTicketType : Bytes := []
  hopTime : Decimal := .ofInt 0
  src : Bytes := []
  dest : Option Bytes := none
  isrc : Option Bytes := none
  timestamp : Option Decimal := none
  objuuid : Option Bytes := none
  coluuid : Option Bytes := none

namespace TicketTraceResponse

def toDoc (t : TicketTraceResponse) : Json :=
  let doc := Json.null.set (bytes "type") (.str (bytes "ticket_trace_response"))
  let doc := setOptStr doc "dest" t.dest
  let doc := doc.set (bytes "src") (.str t.src)
  let doc := setOptStr doc "isrc" t.isrc
  let doc := setOptF64 doc "timestamp" t.timestamp
  let doc := setOptStr doc "objuuid" t.objuuid
  let doc := setOptStr doc "coluuid" t.coluuid
  let doc := doc.set (bytes "tckuuid") (.str t.tckuuid)
  let doc := doc.set (bytes "hop_time") (.num t.hopTime)
  doc.set (bytes "network_ticket_type") (.str t.networkTicketType)

def toJson (A : ArduinoJson) (t : TicketTraceResponse) : Bytes := A.serializeJson t.toDoc

def ofDoc (A : ArduinoJson) (doc : Json) : TicketTraceResponse where
  tckuuid := orStr (doc.get (bytes "tckuuid")) []
  networkTicketType := orStr (doc.get (bytes "network_ticket_type")) []
  hopTime := orDouble A (doc.get (bytes "hop_time")) (.ofInt 0)
  src := orStr (doc.get (bytes "src")) []
  dest := getOptStr A (doc.get (bytes "dest"))
  isrc := getOptStr A (doc.get (bytes "isrc"))
  timestamp := getOptF64 A (doc.get (bytes "timestamp"))
  objuuid := getOptStr A (doc.get (bytes "objuuid"))
  coluuid := getOptStr A (doc.get (bytes "coluuid"))

def fromJson (A : ArduinoJson) (json : Bytes) : TicketTraceResponse := ofDoc A (A.read json)

end TicketTraceResponse

structure NetworkTicket where
  tckuuid : Bytes := []
  formJson : Bytes := []
  tracing : Bool := false
  src : Bytes := []
  dest : Option Bytes := none
  isrc : Option Bytes := none
  timestamp : Option Decimal := none
  createTime : Option Decimal := none
  serviceTime : Option Decimal := none
  error : Option Bytes := none
  objuuid : Option Bytes := none
  coluuid : Option Bytes := none

namespace NetworkTicket

/-- The ticket's document around a form that has been parsed. -/
def docAround (typeTag : Bytes) (t : NetworkTicket) (form : Json) : Json :=
  let doc := Json.null.set (bytes "type") (.str typeTag)
  let doc := setOptStr doc "dest" t.dest
  let doc := doc.set (bytes "src") (.str t.src)
  let doc := setOptStr doc "isrc" t.isrc
  let doc := setOptF64 doc "timestamp" t.timestamp
  let doc := setOptStr doc "objuuid" t.objuuid
  let doc := setOptStr doc "coluuid" t.coluuid
  let doc := doc.set (bytes "tckuuid") (.str t.tckuuid)
  let doc := setOptStr doc "error" t.error
  let doc := setOptF64 doc "create_time" t.createTime
  let doc := setOptF64 doc "service_time" t.serviceTime
  let doc := doc.set (bytes "tracing") (.bool t.tracing)
  doc.set (bytes "form") form

def toDoc (A : ArduinoJson) (typeTag : Bytes) (t : NetworkTicket) : Json :=
  t.docAround typeTag (if t.formJson = [] then .null else A.read t.formJson)

def toJson (A : ArduinoJson) (typeTag : Bytes) (t : NetworkTicket) : Bytes :=
  A.serializeJson (t.toDoc A typeTag)

def ofDoc (A : ArduinoJson) (doc : Json) : NetworkTicket where
  tckuuid := orStr (doc.get (bytes "tckuuid")) []
  tracing := orBool (doc.get (bytes "tracing")) false
  src := orStr (doc.get (bytes "src")) []
  dest := getOptStr A (doc.get (bytes "dest"))
  isrc := getOptStr A (doc.get (bytes "isrc"))
  timestamp := getOptF64 A (doc.get (bytes "timestamp"))
  createTime := getOptF64 A (doc.get (bytes "create_time"))
  serviceTime := getOptF64 A (doc.get (bytes "service_time"))
  error := getOptStr A (doc.get (bytes "error"))
  objuuid := getOptStr A (doc.get (bytes "objuuid"))
  coluuid := getOptStr A (doc.get (bytes "coluuid"))
  formJson := (textUnlessNull A (doc.get (bytes "form"))).getD []

def fromJson (A : ArduinoJson) (json : Bytes) : NetworkTicket := ofDoc A (A.read json)

end NetworkTicket

inductive NetworkMessageType where
  | Ping | MessagesRequest | MessagesResponse | Acknowledgement | TicketTraceResponse
  | TicketRequest | TicketResponse | Unknown
  deriving DecidableEq

def networkMessageTypeOf (type : Bytes) : NetworkMessageType :=
  if type = bytes "ping" then .Ping
  else if type = bytes "messages_request" then .MessagesRequest
  else if type = bytes "messages_response" then .MessagesResponse
  else if type = bytes "acknowledgement" then .Acknowledgement
  else if type = bytes "ticket_trace_response" then .TicketTraceResponse
  else if type = bytes "ticket_request" then .TicketRequest
  else if type = bytes "ticket_response" then .TicketResponse
  else .Unknown

def networkMessageType (A : ArduinoJson) (json : Bytes) : NetworkMessageType :=
  networkMessageTypeOf (typeOfDoc (A.read json))

theorem NetworkMessagesRequest.toDoc_src (m : NetworkMessagesRequest) :
    m.toDoc.get (bytes "src") = .str m.src := by
  simp [toDoc, setOptStr, setOptF64, setOptI64, setOptStrArray, Json.get_set]

theorem Acknowledgement.toDoc_src (a : Acknowledgement) :
    a.toDoc.get (bytes "src") = .str a.src := by
  simp [toDoc, setOptStr, setOptF64, Json.get_set]

theorem TicketTraceResponse.toDoc_src (t : TicketTraceResponse) :
    t.toDoc.get (bytes "src") = .str t.src := by
  simp [toDoc, setOptStr, setOptF64, Json.get_set]

theorem NetworkTicket.docAround_src (typeTag : Bytes) (t : NetworkTicket) (form : Json) :
    (t.docAround typeTag form).get (bytes "src") = .str t.src := by
  simp [docAround, setOptStr, setOptF64, Json.get_set]

/-- The text of a document whose `isrc` has been set. -/
def patchIsrc (A : ArduinoJson) (doc : Json) (isrc : Bytes) : Bytes :=
  A.serializeJson (doc.set (bytes "isrc") (.str isrc))

def setIsrcJson (A : ArduinoJson) (msgJson isrc : Bytes) : Bytes :=
  patchIsrc A (A.read msgJson) isrc

end Stembot
