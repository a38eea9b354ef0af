import Stembot.Models.RoundTrip
import Stembot.Processor.World

/-!
# What the processor answers

Every message of a reply contributes its own answers, in order, whatever the
others are and whatever becomes of the posts. Each function is given by the
events it emits in a world whose parses do not fail.
-/

namespace Stembot

open Library

inductive Answer where
  | ticketResponse (tckuuid : Bytes) (dest : Option Bytes)
  | ticketTraceResponse (tckuuid networkTicketType : Bytes) (dest : Option Bytes)
  | acknowledgement (ackType : Bytes) (dest : Option Bytes)
  | other
  deriving DecidableEq

def answerOf (A : ArduinoJson) (text : Bytes) : Answer :=
  match networkMessageType A text with
  | .TicketResponse =>
    let t := NetworkTicket.fromJson A text
    .ticketResponse t.tckuuid t.dest
  | .TicketTraceResponse =>
    let t := TicketTraceResponse.fromJson A text
    .ticketTraceResponse t.tckuuid t.networkTicketType t.dest
  | .Acknowledgement =>
    let a := Acknowledgement.fromJson A text
    .acknowledgement a.ackType a.dest
  | _ => .other

/-- The answers to a ticket: two traces around the work if it is traced, then the response. -/
def ticketAnswers (m : Json) : List Answer :=
  let tckuuid := orStr (m.get (bytes "tckuuid")) []
  let dest := some (orStr (m.get (bytes "src")) [])
  (if orBool (m.get (bytes "tracing")) false then
    [.ticketTraceResponse tckuuid (bytes "ticket_request") dest,
      .ticketTraceResponse tckuuid (bytes "ticket_response") dest] else []) ++
    [.ticketResponse tckuuid dest]

def pingAnswers (m : Json) : List Answer :=
  [.acknowledgement (bytes "ping") (some (orStr (m.get (bytes "src")) []))]

/-- The answers given, by the type as it is read. -/
def given (m : Json) : List Answer :=
  match networkMessageTypeOf (typeOfDoc m) with
  | .TicketRequest => ticketAnswers m
  | .Ping => pingAnswers m
  | _ => []

theorem networkMessageTypeOf_eq_ticketRequest (type : Bytes) :
    networkMessageTypeOf type = .TicketRequest ↔ type = bytes "ticket_request" := by
  unfold networkMessageTypeOf
  split_ifs <;> simp_all

theorem networkMessageTypeOf_eq_ping (type : Bytes) :
    networkMessageTypeOf type = .Ping ↔ type = bytes "ping" := by
  unfold networkMessageTypeOf
  split_ifs <;> simp_all

end Stembot
