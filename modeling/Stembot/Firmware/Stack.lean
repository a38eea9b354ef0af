import Stembot.Agent.Link
import Stembot.Library.Lowering
import Stembot.Models.TextLibrary
import Stembot.Processor.Laps
import Stembot.Processor.World

/-!
# The task and its client in one program

The task's program with each post carried out by the client, call by call. What
is left are the calls to the devices.
-/

namespace Stembot

open Library Program

inductive FirmwareOp where
  | nvs (op : NvsOp)
  | deserializeJson (text : Bytes)
  | currentTime
  | delay (ticks : UInt32)
  | transport (op : TransportOp)

abbrev FirmwareOp.Res : FirmwareOp → Type
  | .nvs op => op.Res
  | .deserializeJson _ => Parsed
  | .currentTime => Decimal
  | .delay _ => Unit
  | .transport op => op.Res

abbrev FirmwareProgram := Program FirmwareOp FirmwareOp.Res

abbrev FirmwareAnswer := Answered FirmwareOp FirmwareOp.Res

/-- Calls of the client made by the task. -/
def onTransport {α : Type} (p : TransportProgram α) : FirmwareProgram α :=
  p.lower fun op => Program.issue (FirmwareOp.transport op)

/-- A post is carried out by the client; anything else goes to its device. -/
def carryOut : Implementation ProcessorOp ProcessorOp.Res FirmwareOp FirmwareOp.Res
  | .nvs op => Program.issue (FirmwareOp.nvs op)
  | .deserializeJson text => Program.issue (FirmwareOp.deserializeJson text)
  | .currentTime => Program.issue FirmwareOp.currentTime
  | .delay ticks => Program.issue (FirmwareOp.delay ticks)
  | .post client text => onTransport (Transport.postEncrypted client text)

/-- The construction of the configuration, and the first `n` iterations of the task. -/
def firmware (A : ArduinoJson) (sha256 : Sha256) (maxSize n : Nat) :
    FirmwareProgram (Option Task) :=
  (startProcessor A sha256 maxSize n).lower carryOut

/-- The devices of the firmware: storage, clock, parser outcomes as in a `World`, and what the
client works with. -/
structure Board (σ : Type) where
  nvs : Nvs
  times : Stream' Decimal
  failures : Stream' (Option Parsed)
  link : Link σ

namespace Board

variable {σ : Type} (A : ArduinoJson) (P : Psa) (h : HttpLibrary σ)

def answer : Handler FirmwareOp FirmwareOp.Res (Board σ)
  | .nvs op, b => ((Nvs.answer op b.nvs).1, { b with nvs := (Nvs.answer op b.nvs).2 })
  | .deserializeJson text, b =>
    (World.parseAs A b.failures.head text, { b with failures := b.failures.tail })
  | .currentTime, b => (b.times.head, { b with times := b.times.tail })
  | .delay _, b => ((), b)
  | .transport op, b =>
    ((Link.answer P h op b.link).1, { b with link := (Link.answer P h op b.link).2 })

/-- The client works with its own devices alone. -/
theorem run_onTransport {α : Type} (p : TransportProgram α) (b : Board σ) :
    (onTransport p).run (answer A P h) b =
      ((p.run (Link.answer P h) b.link).1,
        { b with link := (p.run (Link.answer P h) b.link).2 }) := by
  have part : ∀ op l, (Program.issue (FirmwareOp.transport op)).run (answer A P h)
    { b with link := l } =
      ((Link.answer P h op l).1, { b with link := (Link.answer P h op l).2 }) := fun op l => rfl
  rw [onTransport, run_lower]
  exact run_embed part p b.link

/-- What the task sees of the devices: a post is a run of the client. -/
def serve : Handler ProcessorOp ProcessorOp.Res (Board σ) :=
  fun op b => (carryOut op).run (answer A P h) b

theorem run_firmware (sha256 : Sha256) (maxSize n : Nat) (b : Board σ) :
    (firmware A sha256 maxSize n).run (answer A P h) b =
      (startProcessor A sha256 maxSize n).run (serve A P h) b :=
  run_lower carryOut (answer A P h) _ b

end Board

/-- A device with these settings, whose peer answers every request alike. -/
def sampleBoard (es : Entries) : Board Unit where
  nvs := sampleNvs es
  times _ := .ofInt 0
  failures _ := none
  link := { psa := samplePsaDevice, library := (), calls := [] }

namespace FirmwareAnswer

def nvs : FirmwareAnswer → Option NvsCall
  | ⟨.nvs op, r⟩ => some ⟨op, r⟩
  | _ => none

def psa : FirmwareAnswer → Option PsaAnswer
  | ⟨.transport (.psa op), r⟩ => some ⟨op, r⟩
  | _ => none

def http : FirmwareAnswer → Option HttpAnswer
  | ⟨.transport (.http op), r⟩ => some ⟨op, r⟩
  | _ => none

end FirmwareAnswer

end Stembot
