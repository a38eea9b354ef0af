import Stembot.Models.Settings
import Stembot.Processor.Task

/-!
# The serial commands

`cmd_set` and `cmd_save` of `configure.cpp`, and the device on which the console
and the processor each hold a configuration of their own.
-/

namespace Stembot

open Library

/-- `args` is the field and the value, if `arg_parse` accepts the line. The result is the command's
exit status and the console's configuration. -/
def cmdSet (sha256 : Sha256) (gConfig : Config) (args : Option (CString × CString)) :
    Nat × Config :=
  match args with
  | none => (1, gConfig)
  | some (field, value) =>
    if field.1 = bytes "agtuuid" then
      (0, { gConfig with agtuuid := (strncpy gConfig.agtuuid value.1 35 (by decide)).set 35 0 })
    else if field.1 = bytes "peerUrl" then (0, { gConfig with peerUrl := value.1 })
    else if field.1 = bytes "wifiSSID" then (0, { gConfig with wifiSSID := value.1 })
    else if field.1 = bytes "wifiPassword" then (0, { gConfig with wifiPassword := value.1 })
    else if field.1 = bytes "passphrase" then (0, gConfig.setPassphrase sha256 value.1)
    else if field.1 = bytes "polling" then
      if value.1 = bytes "true" then (0, { gConfig with polling := true })
      else if value.1 = bytes "false" then (0, { gConfig with polling := false })
      else (1, gConfig)
    else if field.1 = bytes "debug" then
      if value.1 = bytes "true" then (0, { gConfig with debug := true })
      else if value.1 = bytes "false" then (0, { gConfig with debug := false })
      else (1, gConfig)
    else (1, gConfig)

def cmdSave (gConfig : Config) : NvsProgram Nat := do
  gConfig.save
  return 0

/-- What happens on the device: a serial command, or a reload by the processor. -/
inductive Command where
  | set (args : Option (CString × CString))
  | save
  | reload

/-- The storage, the console's `g_config` and the processor's globals. -/
structure Machine where
  nvs : Nvs
  console : Config
  processor : Task

namespace Machine

variable (sha256 : Sha256)

/-- Both configurations are constructed before the tasks start. -/
def boot (nvs : Nvs) : Machine :=
  let (console, nvs) := (Config.create sha256).run Nvs.answer nvs
  let (config, nvs) := (Config.create sha256).run Nvs.answer nvs
  { nvs, console, processor := .initial config }

theorem boot_eq {w : Nvs} (faultless : w.faults = []) (init : w.init = .ok) :
    boot sha256 w =
      { nvs := Config.opened (Config.opened w)
        console := ({ Config.blank with kvstore := ⟨w.opened + 1, true, false⟩ } : Config).ofEntries
          sha256 (w.live "config")
        processor := .initial (({ Config.blank with kvstore := ⟨w.opened + 2, true, false⟩ } :
          Config).ofEntries sha256 (w.live "config")) } := by
  have second : (Config.opened w).faults = [] := faultless
  simp only [boot, Config.create_run faultless init, Config.create_run second init]
  rfl

def step (m : Machine) : Command → Machine
  | .set args => { m with console := (cmdSet sha256 m.console args).2 }
  | .save => { m with nvs := ((cmdSave m.console).run Nvs.answer m.nvs).2 }
  | .reload =>
    let (processor, nvs) := (refresh sha256 m.processor).run Nvs.answer m.nvs
    { m with nvs, processor }

def run (m : Machine) (commands : List Command) : Machine := commands.foldl (step sha256) m

theorem run_append (m : Machine) (commands later : List Command) :
    m.run sha256 (commands ++ later) = (m.run sha256 commands).run sha256 later :=
  List.foldl_append

theorem run_singleton (m : Machine) (command : Command) :
    m.run sha256 [command] = m.step sha256 command :=
  rfl

/-- Only a reload changes what the processor uses. -/
theorem run_processor (m : Machine) {later : List Command} (unloaded : ∀ c ∈ later, c ≠ .reload) :
    (m.run sha256 later).processor = m.processor := by
  induction later generalizing m with
  | nil => rfl
  | cons command later ih =>
    refine (ih (m.step sha256 command) fun c member =>
      unloaded c (List.mem_cons_of_mem _ member)).trans ?_
    cases command with
    | set args | save => rfl
    | reload => exact absurd rfl (unloaded .reload List.mem_cons_self)

end Machine

end Stembot
