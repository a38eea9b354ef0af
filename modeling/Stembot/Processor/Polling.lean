import Stembot.Library.Pacing
import Stembot.Models.TextLibrary
import Stembot.Processor.Posting
import Stembot.Processor.World

/-!
# The task is paced

Every lap pauses, unless the poll before it brought messages. What bounds the
polls by the pauses and the arrivals is the pacing of loops in general.
-/

namespace Stembot

open Library Program

def isDelay : TaskCall → Bool
  | ⟨.delay _, _⟩ => true
  | _ => false

/-- The pauses of a lap, and whether its poll brought a message. -/
def Lap.paces (lap : Lap) : Paces where
  pauses := lap.waking.countP isDelay
  attempt := lap.poll.map fun p => !p.messages.isEmpty

theorem Lap.succeeds_paces (lap : Lap) : lap.paces.succeeds = !lap.messages.isEmpty := by
  simp only [paces, Paces.succeeds, messages]
  cases lap.poll <;> rfl

section Polling

variable {A : ArduinoJson} {sha256 : Sha256} {maxSize : Nat}

/-- An idle task pauses once, and no other pauses. -/
theorem Lap.Runs.pauses_eq {lap : Lap} {r : Option Task} (runs : lap.Runs A sha256 maxSize r) :
    lap.paces.pauses = lap.start.idle.toNat := by
  have storage : ∀ calls : List NvsCall, (calls.map byTask).countP isDelay = 0 := by
    intro calls
    simp [List.countP_eq_zero, byTask, isDelay]
  rcases wake_traces runs.wakes with ⟨awake, silent, -⟩ | ⟨idle, calls, -, waking, -⟩
  · simp [paces, silent, awake]
  · simp [paces, waking, idle, storage, isDelay]

theorem Run.paced {t : Task} {laps : List Lap} {r : Option Task}
    (run : Run A sha256 maxSize t laps r) :
    Paced (!t.idle) (laps.map Lap.paces) := by
  have licensed : ∀ {lap : Lap} {r : Option Task}, lap.Runs A sha256 maxSize r →
      lap.paces.pauses = 0 → (!lap.start.idle) = true := by
    intro lap r runs unpaused
    rw [runs.pauses_eq] at unpaused
    simpa using unpaused
  induction run with
  | nil t => trivial
  | lap runs _ ih =>
    rw [runs.outcome] at ih
    refine ⟨licensed runs, ?_⟩
    rw [Lap.succeeds_paces]
    exact ih
  | escaped runs => exact ⟨licensed runs, trivial⟩

/-- A lap polls only when its configuration says so. -/
theorem Lap.Runs.polling {lap : Lap} {r : Option Task} (runs : lap.Runs A sha256 maxSize r)
    (polled : lap.poll.isSome) : lap.awake.config.polling = true := by
  cases runs with
  | off _ _ => cases polled
  | polled _ polling _ => exact polling

end Polling

/-- What can be seen of the pace of a run: pauses, polls, and whether they brought messages. -/
def beats (laps : List Lap) : List Beat := (laps.map Lap.paces).flatMap Paces.beats

end Stembot
