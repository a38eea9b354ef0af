import Stembot.Firmware.Lives
import Stembot.Models.Sources
import Stembot.Processor.Loading

/-!
# What the device says of itself was stored

Whatever the device posts in any of its lives, it posts under settings that were
stored in that life, at most one pause of the processor ago. Where they come from
is what is known of the storage.
-/

namespace Stembot

open Library Program

namespace Device

variable (A : ArduinoJson) (sha256 : Sha256) (maxSize : Nat)

/-- The call that the processor makes in a turn, as it is answered. -/
def made (d : Device) : Turn → List TaskCall
  | .processor =>
    match d.processor with
    | .done _ => []
    | .call op _ => [⟨op, (World.answer A op d.world).1⟩]
  | _ => []

def calls (d : Device) : List Turn → List TaskCall
  | [] => []
  | turn :: turns => d.made A turn ++ (d.step A sha256 maxSize turn).calls turns

section Calls

variable {A sha256 maxSize} {d : Device}

theorem run_append (turns later : List Turn) :
    d.run A sha256 maxSize (turns ++ later) =
      (d.run A sha256 maxSize turns).run A sha256 maxSize later :=
  List.foldl_append

end Calls

end Device

/-- A read is answered from the settings as they are, or fails. -/
theorem Nvs.Confined.answers {w : Nvs} (confined : w.Confined) (op : NvsOp) :
    AnswersFrom (w.live "config") ⟨op, (Nvs.answer op w).1⟩ := by
  have performed : ∀ w' : Nvs, w'.live = w.live → w'.handles = w.handles → op.readKey ≠ none →
      (Nvs.perform op w').1 = op.refused ∨ (Nvs.perform op w').1 =
      (Nvs.perform op (holding (w.live "config"))).1 := by
    intro w' live handles reads
    have entry : ∀ h key, w'.entry h key = none ∨
        w'.entry h key = (holding (w.live "config")).entry h key := by
      intro h key
      rw [Nvs.entry, live, handles]
      cases opened : w.handles h with
      | none => exact .inl rfl
      | some access =>
        obtain ⟨name, readOnly⟩ := access
        rw [confined h name readOnly opened]
        exact .inr rfl
    cases op with
    | getScalar h key _ =>
      simp only [Nvs.perform]
      rcases entry h key with nothing | same
      · rw [nothing]
        exact .inl rfl
      · rw [same]
        exact .inr rfl
    | strLen h key | getStr h key _ | getBlob h key _ =>
      simp only [Nvs.perform]
      rcases entry h key with nothing | same
      · rw [nothing]
        exact .inl rfl
      · rw [same]
        right
        split <;> rfl
    | _ => exact absurd rfl reads
  intro reads
  unfold Nvs.answer
  split
  · exact performed w rfl rfl reads
  · exact performed _ rfl rfl reads
  · exact .inl rfl

section Sound

variable {A : ArduinoJson} {sha256 : Sha256} {maxSize : Nat} {d : Device}

theorem World.Sound.answer {w : World} (sound : w.Sound) (op : ProcessorOp) :
    Honest A ⟨op, (World.answer A op w).1⟩ ∧ (World.answer A op w).2.Sound := by
  cases op with
  | deserializeJson text =>
    have none : w.failures.head = none := sound 0
    exact ⟨by simp [Honest, World.answer, World.parseAs, none], fun n => sound (n + 1)⟩
  | _ => exact ⟨trivial, sound⟩

end Sound

namespace Device

variable (A : ArduinoJson) (sha256 : Sha256) (maxSize : Nat)

/-- The storage has such a value of a setting after these turns. It comes from the factory, or from
a configuration that the console was told to save, and nothing written later has lasted. -/
def Stores (booted : Device) (turns : List Turn) (s : Setting) (v : s.Carrier) : Prop :=
  ∃ origin, atFactory.From s false (booted.history A sha256 maxSize turns) origin ∧
    (∀ c, origin = some (.saved c) → c ∈ booted.saves A sha256 maxSize turns) ∧
    s.Alike v (Origin.setting sha256 (booted.world.nvs.live "config") s origin)

section Lives

variable (world : World) (first : Reset)

end Lives

end Device

end Stembot
