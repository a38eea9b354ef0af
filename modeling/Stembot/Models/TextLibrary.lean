import Stembot.Library.JsonText
import Stembot.Models.ArduinoJson

/-!
# A lawful JSON library

The compact text format meets everything the code relies on.
-/

namespace Stembot

open Library

/-- A number out of range, and anything that is not a number, converts to zero. -/
def textLibrary : ArduinoJson where
  serializeJson := Json.write
  deserializeJson s := ⟨(Json.readText nestingLimit s).error, (Json.readText nestingLimit s).value⟩
  asInt64
    | .num d =>
      let n := d.mantissa.tdiv (10 ^ d.places)
      if Int64.minValue.toInt ≤ n ∧ n ≤ Int64.maxValue.toInt then .ofInt n else 0
    | _ => 0
  asDouble
    | .num d => d
    | _ => .ofInt 0

theorem textLibrary_lawful : textLibrary.Lawful where
  parse_serialize h := by
    simp only [textLibrary, (Json.readText_write h).1, (Json.readText_write h).2]
  doc_within s := Json.readText_within nestingLimit s
  parse_nil := rfl
  serialize_raw := Json.write_raw
  asInt64_num n := by
    have range : Int64.minValue.toInt ≤ n.toInt ∧ n.toInt ≤ Int64.maxValue.toInt :=
      ⟨n.minValue_le_toInt, n.toInt_le⟩
    simp only [textLibrary, Decimal.ofInt, pow_zero, Int.tdiv_one, if_pos range, Int64.ofInt_toInt]
  asDouble_num _ := rfl

end Stembot
