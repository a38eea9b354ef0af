import Stembot.Agent.Client
import Stembot.Models.Config
import Stembot.Models.Control

/-!
# The processor task

`processor.cpp` as programs over what the task asks of its surroundings: the
storage, the JSON parser, the clock, the scheduler and the encrypted exchange.
-/

namespace Stembot

open Library

/-- `post` hands a plaintext to the client's encryption step and returns the decrypted reply. -/
inductive ProcessorOp where
  | nvs (op : NvsOp)
  | deserializeJson (text : Bytes)
  | currentTime
  | delay (ticks : UInt32)
  | post (client : AgentClient) (plaintextJson : Bytes)

abbrev ProcessorOp.Res : ProcessorOp → Type
  | .nvs op => op.Res
  | .deserializeJson _ => Parsed
  | .currentTime => Decimal
  | .delay _ => Unit
  | .post _ _ => Bytes

abbrev ProcessorProgram := Program ProcessorOp ProcessorOp.Res

/-- One request to the surroundings. -/
abbrev ask (op : ProcessorOp) : ProcessorProgram op.Res := Program.issue op

/-- Storage calls made by the task. -/
def onNvs {α : Type} : NvsProgram α → ProcessorProgram α
  | .done a => .done a
  | .call op next => .call (.nvs op) fun r => onNvs (next r)

/-- The document a parse leaves. Its error code is not looked at. -/
def parse (text : Bytes) : ProcessorProgram Json := do
  let parsed : Parsed ← ask (.deserializeJson text)
  return parsed.doc

def getCurrentTime : ProcessorProgram Decimal := ask .currentTime

def vTaskDelay (ticks : UInt32) : ProcessorProgram Unit := ask (.delay ticks)

section Processor

variable (A : ArduinoJson) (sha256 : Sha256) (maxSize : Nat)

def sendNetworkMessage (client : AgentClient) (msgJson : Bytes) : ProcessorProgram Bytes := do
  let doc ← parse msgJson
  ask (.post client (patchIsrc A doc client.agtuuid))

/-- `std::string(n, '0')` where `size_t` has 32 bits; `none` when it throws `length_error`. -/
def zeros (n : Int64) : Option Bytes :=
  let count := (n.toInt % 2 ^ 32).toNat
  if count > maxSize then none else some (List.replicate count 48)

/-- The payload of a benchmark reply; `none` when the string cannot be made. -/
def fillPayload (form : Benchmark) : Option Benchmark :=
  match form.inboundSize with
  | some n => (zeros maxSize n).map fun payload => { form with payload := some payload }
  | none => some { form with payload := none }

/-- `none` when an exception escapes. -/
def processControlForm (config : Config) (formJson : Bytes) : ProcessorProgram (Option Bytes) := do
  match controlFormTypeOf (typeOfDoc (← parse formJson)) with
  | .GetConfig =>
    let form := GetConfig.ofDoc A (← parse formJson)
    let saved ← onNvs (Config.create sha256)
    let form := { form with configJson := some (saved.toJson A) }
    onNvs saved.destroy
    return some (form.toJson A)
  | .Benchmark =>
    let form := Benchmark.ofDoc A (← parse formJson)
    return (fillPayload maxSize form).map (Benchmark.toJson A)
  | .Unknown =>
    if config.debug then
      let _ ← parse formJson
    return some formJson

/-- One trace message, if the ticket is traced. -/
def sendTrace (config : Config) (client : AgentClient) (ticket : NetworkTicket) (type : Bytes) :
    ProcessorProgram Unit :=
  if ticket.tracing then do
    let hopTime ← getCurrentTime
    let trace : TicketTraceResponse :=
      { tckuuid := ticket.tckuuid, networkTicketType := type, hopTime, src := config.uuid,
        dest := some ticket.src }
    let _ ← sendNetworkMessage A client (trace.toJson A)
  else return ()

/-- `to_json`, whose parse of the form is one more that can go wrong. -/
def ticketToJson (typeTag : Bytes) (ticket : NetworkTicket) : ProcessorProgram Bytes := do
  let form ← if ticket.formJson = [] then pure .null else parse ticket.formJson
  return A.serializeJson (ticket.docAround typeTag form)

/-- `none` when an exception escapes. -/
def processNetworkMessage (config : Config) (client : AgentClient) (msgJson : Bytes) :
    ProcessorProgram (Option Unit) := do
  match networkMessageTypeOf (typeOfDoc (← parse msgJson)) with
  | .TicketRequest =>
    let ticket := NetworkTicket.ofDoc A (← parse msgJson)
    sendTrace A config client ticket (bytes "ticket_request")
    match ← processControlForm A sha256 maxSize config ticket.formJson with
    | none => return none
    | some formJson =>
      let ticket := { ticket with formJson }
      sendTrace A config client ticket (bytes "ticket_response")
      let ticket := { ticket with dest := some ticket.src }
      let ticket := { ticket with src := config.uuid }
      let msgJson ← ticketToJson A (bytes "ticket_response") ticket
      let _ ← sendNetworkMessage A client msgJson
      return some ()
  | .Ping =>
    let ping := Ping.ofDoc A (← parse msgJson)
    let timestamp ← getCurrentTime
    let ack : Acknowledgement :=
      { ackType := bytes "ping", src := config.uuid, dest := some ping.src,
        timestamp := some timestamp }
    let _ ← sendNetworkMessage A client (ack.toJson A)
    return some ()
  | _ =>
    let _ ← parse msgJson
    return some ()

/-- The loop over one reply; an exception ends it. -/
def processMessages (config : Config) (client : AgentClient) :
    List Bytes → ProcessorProgram (Option Unit)
  | [] => return some ()
  | msgJson :: rest => do
    match ← processNetworkMessage A sha256 maxSize config client msgJson with
    | none => return none
    | some () => processMessages config client rest

/-- The variables that live across iterations of the task's loop. -/
structure Task where
  config : Config
  client : AgentClient
  idle : Bool

/-- The globals as they are when the task starts. -/
def Task.initial (config : Config) : Task :=
  { config, client := { url := [], key := .replicate 32 0, agtuuid := [] }, idle := true }

/-- What an idle task does before it pauses. -/
def refresh (t : Task) : NvsProgram Task := do
  let config ← t.config.load sha256
  let client : AgentClient := { url := config.peerUrl, key := config.key, agtuuid := config.uuid }
  return { t with config, client }

def reload (t : Task) : ProcessorProgram Task := do
  let t ← onNvs (refresh sha256 t)
  vTaskDelay t.config.pollTicks
  return t

/-- The start of an iteration. -/
def wake (t : Task) : ProcessorProgram Task := if t.idle then reload sha256 t else return t

def pollRequest (config : Config) (timestamp : Decimal) : NetworkMessagesRequest where
  src := config.uuid
  timestamp := some timestamp
  limit := some 1
  networkWhitelist := some [bytes "ping", bytes "messages_request", bytes "acknowledgement",
    bytes "ticket_request"]
  controlWhitelist := some [bytes "get_config", bytes "benchmark"]

/-- One iteration of the loop; `none` when an exception escapes. -/
def iteration (t : Task) : ProcessorProgram (Option Task) := do
  let t ← wake sha256 t
  if !t.config.polling then return some { t with idle := true }
  let timestamp ← getCurrentTime
  let reply ← sendNetworkMessage A t.client ((pollRequest t.config timestamp).toJson A)
  if reply = [] then return some { t with idle := true }
  let response := NetworkMessagesResponse.ofDoc A (← parse reply)
  match ← processMessages A sha256 maxSize t.config t.client response.messageJsons with
  | none => return none
  | some () => return some { t with idle := response.messageJsons.isEmpty }

/-- The first `n` iterations, or up to the one that an exception escapes. -/
def loop : Nat → Task → ProcessorProgram (Option Task)
  | 0, t => return some t
  | n + 1, t => do
    match ← iteration A sha256 maxSize t with
    | none => return none
    | some t => loop n t

/-- The construction of the configuration, and the first `n` iterations of the task. -/
def startProcessor (n : Nat) : ProcessorProgram (Option Task) := do
  let config ← onNvs (Config.create sha256)
  loop A sha256 maxSize n (.initial config)

end Processor

end Stembot
