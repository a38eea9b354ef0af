import Stembot.Models.Control
import Stembot.Models.Network
import Stembot.Models.TextLibrary

/-!
# Type detection

Both detectors read the type of a text and compare it with the tags of the kinds, as
a C string. What they should tell is a matter of the text's own document, and of the
tag as a whole string.
-/

namespace Stembot

open Library

/-- The tag a kind has on the wire; the unknown kind has none. -/
def NetworkMessageType.tag : NetworkMessageType → Option Bytes
  | .Ping => some (bytes "ping")
  | .MessagesRequest => some (bytes "messages_request")
  | .MessagesResponse => some (bytes "messages_response")
  | .Acknowledgement => some (bytes "acknowledgement")
  | .TicketTraceResponse => some (bytes "ticket_trace_response")
  | .TicketRequest => some (bytes "ticket_request")
  | .TicketResponse => some (bytes "ticket_response")
  | .Unknown => none

def ControlFormType.tag : ControlFormType → Option Bytes
  | .Benchmark => some (bytes "benchmark")
  | .GetConfig => some (bytes "get_config")
  | .Unknown => none

/-- The document is an object whose type is this string. -/
def Tagged (doc : Json) (tag : Bytes) : Prop :=
  ∃ members, doc = .obj members ∧ Json.lookup (bytes "type") members = .str tag

section Detection

variable {Kind : Type} (tag : Kind → Option Bytes)

/-- What was kept of a document bears a tag, alone or in front of a zero byte, exactly if the
document bears it. -/
def Shows (kept doc : Json) : Prop :=
  ∀ kind t, tag kind = some t → ((Tagged kept t ∨ ∃ rest, Tagged kept (t ++ 0 :: rest)) ↔
    Tagged doc t)

/-- The detector compares a string with the tags, and one kind is left for the other strings. -/
structure Compares (kindOf : Bytes → Kind) : Prop where
  known : ∀ kind t, tag kind = some t → ∀ type, kindOf type = kind ↔ type = t
  rest : ∀ kind kind', tag kind = none → tag kind' = none → kind = kind'
  proper : ∀ kind t, tag kind = some t → 0 ∉ t ∧ t ≠ []

variable {tag} {kindOf : Bytes → Kind}

theorem Compares.unknown (compares : Compares tag kindOf) {kind : Kind} (untagged : tag kind = none)
    (type : Bytes) : kindOf type = kind ↔ ∀ kind' t, tag kind' = some t → type ≠ t := by
  constructor
  · intro detected kind' t known spelt
    have same : kindOf type = kind' := (compares.known kind' t known type).mpr spelt
    rw [← same, detected, untagged] at known
    cases known
  · intro differs
    cases known : tag (kindOf type) with
    | some t => exact absurd ((compares.known _ t known type).mp rfl) (differs _ t known)
    | none => exact compares.rest _ _ known untagged

end Detection

/-- Arrays one in the other. -/
def nested : Nat → Json
  | 0 => .arr []
  | n + 1 => .arr [nested n]

end Stembot
