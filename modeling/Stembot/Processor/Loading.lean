import Stembot.Processor.Identity
import Stembot.Processor.Polling

/-!
# The load behind a post

Whenever the task is about to post, the configuration that speaks has been loaded
by some of the calls made so far, and the task has paused once since then.
-/

namespace Stembot

open Library Program

/-- Among these calls are those of a load of the configuration, and a single pause behind them. -/
def LoadedIn (sha256 : Sha256) (c : Config) (calls : List TaskCall) : Prop :=
  ∃ (before : List TaskCall) (old : Config) (loading : List NvsCall) (later : List TaskCall),
    calls = before ++ (loading.map byTask ++ later) ∧ (old.load sha256).Traces loading c ∧
    later.countP isDelay = 1

section Loading

variable {A : ArduinoJson} {sha256 : Sha256} {maxSize : Nat} {c : Config}
  {past calls : List TaskCall}

theorem LoadedIn.append (loaded : LoadedIn sha256 c calls) {more : List TaskCall}
    (unpaused : more.countP isDelay = 0) :
    LoadedIn sha256 c (calls ++ more) := by
  obtain ⟨before, old, loading, later, rfl, traced, pause⟩ := loaded
  refine ⟨before, old, loading, later ++ more, by simp only [List.append_assoc], traced, ?_⟩
  rw [List.countP_append, pause, unpaused]

end Loading

end Stembot
