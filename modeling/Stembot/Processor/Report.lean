import Stembot.Processor.Downgrade

/-!
# What a controller is told of the settings

A ticket with a `get_config` form makes the agent construct a configuration. The
response tells of it what was saved, or a default for what could not be read.
-/

namespace Stembot

open Library Program

/-- A configuration read where settings have been saved: each is the saved one if all calls for it
were answered, and otherwise the default. -/
structure Config.ReadFrom (sha256 : Sha256) (c saved : Config) (loading : List NvsCall) : Prop where
  well : ∀ s : Setting, s.ReadWell loading → c.get s = (saved.asSaved sha256).get s
  badly : ∀ s : Setting, ¬s.ReadWell loading → c.get s = s.fallback sha256

section Read

variable {sha256 : Sha256} {saved c : Config} {es : Entries} {loading : List NvsCall}

/-- Where nothing fails, what is told is what was saved. -/
theorem Config.ReadFrom.same (read : c.ReadFrom sha256 saved loading) (plain : saved.Plain)
    (well : ∀ s : Setting, s.ReadWell loading) : c.Same saved := by
  have fields : c.get = (saved.asSaved sha256).get := funext fun s => read.well s (well s)
  refine same_of_get (fields.trans ?_)
  rw [asSaved, get_ofEntries, plain.stored_entries]

end Read

end Stembot
