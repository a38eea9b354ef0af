import Stembot.Console.Interrupted
import Stembot.Firmware.Untouched
import Stembot.Library.Durable
import Stembot.Models.ReadFailures

/-!
# The lives of a device

A device runs until it is reset, which may be at any moment, and comes up again.
Meanwhile its tasks take turns call by call, and any call may fail. What is stored
for a setting comes from a save all the same, and nothing written later has lasted.
-/

namespace Stembot

open Library Program

/-- A reset: which of the uncommitted writes are kept, what the storage is like afterwards, and for
how many laps of the processor there will be time. -/
structure Reset where
  kept : String → String → Bool
  init : InitStatus
  faults : List Bool
  laps : Nat

def Nvs.reset (w : Nvs) (r : Reset) : Nvs :=
  let left name key := if r.kept name key then w.live name key else w.durable name key
  { live := left, durable := left, handles := fun _ => none, opened := 0, init := r.init,
    faults := r.faults }

/-- What each task still has to do. The console awaits a command when there is nothing left, and
`saving` is what it was told to save last. -/
structure Device where
  world : World
  console : NvsProgram Config
  main : NvsProgram Unit
  processor : ProcessorProgram (Option Task)
  saving : Option Config := none

/-- Who is next: the console is given a line, a task makes a call, or the device is reset. -/
inductive Turn where
  | set (args : Option (CString × CString))
  | save
  | console
  | main
  | processor
  | reset (r : Reset)

/-- The configuration of `app_main`, which is destroyed when it returns. -/
def appMainStorage (sha256 : Sha256) : NvsProgram Unit := do
  let config ← Config.create sha256
  config.destroy

namespace Device

variable (A : ArduinoJson) (sha256 : Sha256) (maxSize : Nat)

/-- The constructors of the two global configurations come first in their tasks. The code runs them
one after the other, which is one of the orders in which they may take turns here. -/
def boot (world : World) (r : Reset) : Device where
  world := { world with nvs := world.nvs.reset r }
  console := Config.create sha256
  main := appMainStorage sha256
  processor := startProcessor A sha256 maxSize r.laps

def step (d : Device) : Turn → Device
  | .set args =>
    match d.console with
    | .done gConfig => { d with console := .done (cmdSet sha256 gConfig args).2 }
    | .call _ _ => d
  | .save =>
    match d.console with
    | .done gConfig =>
      { d with
        console := do
          let _ ← cmdSave gConfig
          return gConfig
        saving := some gConfig }
    | .call _ _ => d
  | .console =>
    match d.console with
    | .done _ => d
    | .call op next =>
      let (r, nvs) := Nvs.answer op d.world.nvs
      { d with world := { d.world with nvs }, console := next r }
  | .main =>
    match d.main with
    | .done _ => d
    | .call op next =>
      let (r, nvs) := Nvs.answer op d.world.nvs
      { d with world := { d.world with nvs }, main := next r }
  | .processor =>
    match d.processor with
    | .done _ => d
    | .call op next =>
      let (r, world) := World.answer A op d.world
      { d with world, processor := next r }
  | .reset r => boot A sha256 maxSize d.world r

def run (d : Device) (turns : List Turn) : Device := turns.foldl (step A sha256 maxSize) d

end Device

/-- Where an entry comes from. -/
inductive Origin where
  | factory
  | saved (c : Config)

/-- The entry, when those at the factory were `es`. There is none after the storage was erased. -/
def Origin.entry (es : Entries) (s : Setting) : Option Origin → Option NvsValue
  | none => none
  | some .factory => es s.name
  | some (.saved c) => some (c.value s)

/-- What a load makes of it. -/
def Origin.setting (sha256 : Sha256) (es : Entries) (s : Setting) : Option Origin → s.Carrier
  | none => s.fallback sha256
  | some .factory => s.stored sha256 es
  | some (.saved c) => (c.asSaved sha256).get s

theorem Origin.ofEntry_entry (sha256 : Sha256) (es : Entries) (s : Setting)
    (origin : Option Origin) :
    s.ofEntry sha256 (entry es s origin) = setting sha256 es s origin := by
  match origin with
  | none | some .factory => rfl
  | some (.saved c) => exact (c.asSaved_get sha256 s).symm

/-- The settings as they are at the factory. -/
def atFactory : Cells Setting Origin := ⟨fun _ => some .factory, fun _ => some .factory⟩

/-- What a call that meets no fault does to the settings, while this configuration is
being saved. -/
def Nvs.strokesOf (w : Nvs) (saving : Option Config) : NvsOp → List (Stroke Setting Origin)
  | .set h key _ =>
    if w.handles h = some ("config", false) then
      saving.toList.flatMap fun c => (Setting.all.filter fun s => s.name = key).map fun s =>
        .write s (.saved c)
    else []
  | .commit h => if (w.handles h).isSome then [.flush] else []
  | .flashErase => [.clear]
  | _ => []

def Nvs.strokes (w : Nvs) (saving : Option Config) (op : NvsOp) : List (Stroke Setting Origin) :=
  if w.faults.head? = some true then [] else w.strokesOf saving op

namespace Device

variable (A : ArduinoJson) (sha256 : Sha256) (maxSize : Nat)

/-- The storage call of a turn, and what is being saved by it. -/
def storageCall (d : Device) : Turn → Option (Option Config × NvsOp)
  | .set _ | .save | .reset _ => none
  | .console =>
    match d.console with
    | .done _ => none
    | .call op _ => some (d.saving, op)
  | .main =>
    match d.main with
    | .done _ => none
    | .call op _ => some (none, op)
  | .processor =>
    match d.processor with
    | .call (.nvs op) _ => some (none, op)
    | _ => none

/-- What a turn does to the settings. -/
def strokes (d : Device) : Turn → List (Stroke Setting Origin)
  | .reset r => [.crash fun s => r.kept "config" s.name]
  | turn => (d.storageCall turn).elim [] fun (saving, op) => d.world.nvs.strokes saving op

/-- The configuration that the console is told to save. -/
def told (d : Device) : Turn → List Config
  | .save =>
    match d.console with
    | .done gConfig => [gConfig]
    | .call _ _ => []
  | _ => []

def history (d : Device) : List Turn → List (Stroke Setting Origin)
  | [] => []
  | turn :: turns => d.strokes turn ++ (d.step A sha256 maxSize turn).history turns

def saves (d : Device) : List Turn → List Config
  | [] => []
  | turn :: turns => d.told turn ++ (d.step A sha256 maxSize turn).saves turns

end Device

/-- The device holds the settings so. -/
structure Nvs.Holds (es : Entries) (w : Nvs) (cells : Cells Setting Origin) : Prop where
  live : ∀ s : Setting, w.live "config" s.name = Origin.entry es s (cells.live s)
  durable : ∀ s : Setting, w.durable "config" s.name = Origin.entry es s (cells.durable s)

section Call

variable {es : Entries} {w : Nvs} {cells : Cells Setting Origin}
  {saving : Option Config} {op : NvsOp}

theorem Setting.filter_name (s : Setting) :
    (Setting.all.filter fun t => t.name = s.name) = [s] := by
  cases s <;> decide

theorem Nvs.Holds.set {c : Config} (holds : w.Holds es cells) (h : NvsHandle) (t : Setting) :
    (Nvs.perform (.set h t.name (c.value t)) w).2.Holds es
      (cells.run (w.strokesOf (some c) (.set h t.name (c.value t)))) := by
  by_cases handle : w.handles h = some ("config", false)
  · have strokes : w.strokesOf (some c) (.set h t.name (c.value t)) = [.write t (.saved c)] := by
      simp [Nvs.strokesOf, handle, Setting.filter_name]
    have written : (Nvs.perform (.set h t.name (c.value t)) w).2 = { w with
        live := Function.update w.live "config"
          (Function.update (w.live "config") t.name (some (c.value t))) } := by
      simp [Nvs.perform, Nvs.write, handle]
    rw [strokes, written]
    refine ⟨fun s => ?_, holds.durable⟩
    have entry : Function.update w.live "config"
      (Function.update (w.live "config") t.name (some (c.value t)))
        "config" s.name = Origin.entry es s (Function.update cells.live t (some (.saved c)) s) := by
      rw [Function.update_self]
      by_cases same : s = t
      · subst same
        rw [Function.update_self, Function.update_self]
        rfl
      · rw [Function.update_of_ne (Setting.name_injective.ne same), Function.update_of_ne same]
        exact holds.live s
    exact entry
  · have strokes : w.strokesOf (some c) (.set h t.name (c.value t)) = [] := by
      simp [Nvs.strokesOf, handle]
    rw [strokes]
    simp only [Nvs.perform, Nvs.write]
    split
    · rename_i name opened
      have other : name ≠ "config" := fun same => handle (same ▸ opened)
      refine ⟨fun s => ?_, holds.durable⟩
      change Function.update w.live name _ "config" s.name = _
      rw [Function.update_of_ne (Ne.symm other)]
      exact holds.live s
    · exact holds

/-- A call that is part of the save, or modifies nothing, does to the settings what it is
said to do. -/
theorem Nvs.Holds.call (holds : w.Holds es cells)
    (known : (∃ c, saving = some c ∧ c.SaveCall op) ∨ ¬op.Modifies) :
    (Nvs.answer op w).2.Holds es (cells.run (w.strokes saving op)) := by
  have performed : ∀ w : Nvs, w.Holds es cells →
      (Nvs.perform op w).2.Holds es (cells.run (w.strokesOf saving op)) := by
    intro w holds
    rcases known with ⟨c, rfl, part⟩ | passive
    · cases op with
      | set h key v =>
        obtain ⟨t, rfl, rfl⟩ := part
        exact holds.set h t
      | commit h =>
        simp only [Nvs.perform, Nvs.strokesOf]
        split
        · exact ⟨holds.live, holds.live⟩
        · exact holds
      | _ => cases part
    · cases op with
      | flashErase => exact ⟨fun _ => rfl, fun _ => rfl⟩
      | eraseAll _ | eraseKey _ _ | set _ _ _ | commit _ => exact absurd trivial passive
      | strLen _ _ | getStr _ _ _ | blobLen _ _ | getBlob _ _ _ =>
        simp only [Nvs.perform]
        split <;> exact holds
      | _ => exact ⟨holds.live, holds.durable⟩
  unfold Nvs.answer Nvs.strokes
  split
  · rename_i none
    rw [none]
    exact performed w holds
  · rename_i later faults
    rw [faults]
    exact performed { w with faults := later } ⟨holds.live, holds.durable⟩
  · rename_i later faults
    rw [faults]
    exact ⟨holds.live, holds.durable⟩

end Call

/-- Every handle gives access to the settings. -/
def Nvs.Confined (w : Nvs) : Prop :=
  ∀ h name readOnly, w.handles h = some (name, readOnly) → name = "config"

theorem Nvs.Confined.call {w : Nvs} (confined : w.Confined) {op : NvsOp}
    (opens : ∀ name readOnly, op = .openNs name readOnly → name = "config") :
    (answer op w).2.Confined := by
  have performed : ∀ w : Nvs, w.Confined → (perform op w).2.Confined := by
    intro w confined
    cases op with
    | openNs name readOnly =>
      intro h _ _ handle
      simp only [perform, Function.update_apply] at handle
      split at handle
      · obtain ⟨rfl, -⟩ := Prod.mk.inj (Option.some.inj handle)
        exact opens _ _ rfl
      · exact confined _ _ _ handle
    | close h =>
      intro h' _ _ handle
      simp only [perform, Function.update_apply] at handle
      split at handle
      · cases handle
      · exact confined _ _ _ handle
    | eraseAll _ | set _ _ _ =>
      simp only [perform, write]
      split <;> exact confined
    | eraseKey _ _ =>
      simp only [perform, write]
      split
      · split <;> exact confined
      · exact confined
    | commit _ | strLen _ _ | getStr _ _ _ | blobLen _ _ | getBlob _ _ _ =>
      simp only [perform]
      split <;> exact confined
    | _ => exact confined
  unfold answer
  split
  · exact performed w confined
  · exact performed _ confined
  · exact confined

/-- What the tasks may still ask for; `asking` says that the storage may ask to be erased. -/
structure Device.Contained (asking : Prop) (d : Device) : Prop where
  asks : d.world.nvs.init.Asks → asking
  confined : d.world.nvs.Confined
  console : d.console.IssuesWhile (NvsCall.Calm asking) fun op =>
    (∃ c, d.saving = some c ∧ c.SaveCall op) ∨ op.Harmless asking
  main : Mild asking d.main
  processor : Tame asking d.processor

section Steps

variable (A : ArduinoJson) (sha256 : Sha256) (maxSize : Nat) {asking : Prop}
  {es : Entries} {d : Device} {cells : Cells Setting Origin}

theorem Device.boot_contained {world : World} {r : Reset} (calm : r.init.Asks → asking) :
    (boot A sha256 maxSize world r).Contained asking where
  asks := calm
  confined := nofun
  console := (Config.blank.load_mild sha256).mono fun _ => .inr
  main := (Config.blank.load_mild sha256).bind fun config => config.destroy_mild
  processor := startProcessor_tame A sha256 maxSize r.laps

theorem Nvs.Holds.reset {w : Nvs} (holds : w.Holds es cells) (r : Reset) :
    (w.reset r).Holds es (cells.run [.crash fun s => r.kept "config" s.name]) := by
  have either : ∀ s : Setting, (w.reset r).live "config" s.name = Origin.entry es s
      (if r.kept "config" s.name then cells.live s else cells.durable s) := by
    intro s
    simp only [Nvs.reset]
    split
    · exact holds.live s
    · exact holds.durable s
  exact ⟨either, either⟩

/-- A turn keeps the tasks contained, and does to the settings what it is said to do. -/
theorem Device.Contained.step (contained : d.Contained asking) (holds : d.world.nvs.Holds es cells)
    (turn : Turn) (calm : ∀ r, turn = .reset r → r.init.Asks → asking) :
    (d.step A sha256 maxSize turn).Contained asking ∧
      (d.step A sha256 maxSize turn).world.nvs.Holds es (cells.run (d.strokes turn)) := by
  obtain ⟨asks, confined, console, main, processor⟩ := contained
  cases turn with
  | set args =>
    cases todo : d.console with
    | done gConfig =>
      simp only [Device.step, Device.strokes, Device.storageCall, todo]
      exact ⟨⟨asks, confined, issuesWhile_pure _, main, processor⟩, holds⟩
    | call op next =>
      simp only [Device.step, Device.strokes, Device.storageCall, todo]
      exact ⟨⟨asks, confined, console, main, processor⟩, holds⟩
  | save =>
    cases todo : d.console with
    | done gConfig =>
      simp only [Device.step, Device.strokes, Device.storageCall, todo]
      refine ⟨⟨asks, confined, ?_, main, processor⟩, holds⟩
      apply IssuesWhile.bind
      · exact (cmdSave_issues gConfig).while fun op part => .inl ⟨gConfig, rfl, part⟩
      · exact fun _ => issuesWhile_pure gConfig
    | call op next =>
      simp only [Device.step, Device.strokes, Device.storageCall, todo]
      exact ⟨⟨asks, confined, console, main, processor⟩, holds⟩
  | console =>
    cases todo : d.console with
    | done gConfig =>
      simp only [Device.step, Device.strokes, Device.storageCall, todo]
      exact ⟨⟨asks, confined, console, main, processor⟩, holds⟩
    | call op next =>
      simp only [Device.step, Device.strokes, Device.storageCall, todo]
      rw [todo] at console
      refine ⟨⟨fun later => asks (Nvs.asks_of_answer later), confined.call ?_, ?_, main, processor⟩,
        ?_⟩
      · rintro name readOnly rfl
        rcases console.1 with ⟨c, -, part⟩ | harmless
        · exact part.elim
        · exact harmless.opens name readOnly rfl
      · exact console.2 _ (Nvs.answer_calm asks op)
      · exact holds.call (console.1.imp_right NvsOp.Harmless.keeps)
  | main =>
    cases todo : d.main with
    | done _ =>
      simp only [Device.step, Device.strokes, Device.storageCall, todo]
      exact ⟨⟨asks, confined, console, main, processor⟩, holds⟩
    | call op next =>
      simp only [Device.step, Device.strokes, Device.storageCall, todo]
      rw [todo] at main
      refine ⟨⟨fun later => asks (Nvs.asks_of_answer later), confined.call main.1.opens,
        console, ?_, processor⟩, ?_⟩
      · exact main.2 _ (Nvs.answer_calm asks op)
      · exact holds.call (.inr main.1.keeps)
  | processor =>
    cases todo : d.processor with
    | done _ =>
      simp only [Device.step, Device.strokes, Device.storageCall, todo]
      exact ⟨⟨asks, confined, console, main, processor⟩, holds⟩
    | call op next =>
      rw [todo] at processor
      cases op with
      | nvs op =>
        simp only [Device.step, Device.strokes, Device.storageCall, todo]
        refine ⟨⟨fun later => asks (Nvs.asks_of_answer later), confined.call processor.1.opens,
          console, main, ?_⟩, ?_⟩
        · exact processor.2 _ (Nvs.answer_calm asks op)
        · exact holds.call (.inr processor.1.keeps)
      | _ =>
        simp only [Device.step, Device.strokes, Device.storageCall, todo]
        exact ⟨⟨asks, confined, console, main, processor.2 _ trivial⟩, holds⟩
  | reset r => exact ⟨boot_contained A sha256 maxSize (calm r rfl), holds.reset r⟩

/-- A write is one of the save in progress, and only a storage that may ask for it is cleared. -/
theorem Nvs.strokes_mem {w : Nvs} {saving : Option Config} {op : NvsOp}
    {stroke : Stroke Setting Origin} (member : stroke ∈ w.strokes saving op) :
    (stroke = .clear → op = .flashErase) ∧
      ∀ s v, stroke = .write s v → ∃ c, saving = some c ∧ v = .saved c := by
  unfold Nvs.strokes at member
  split at member
  · cases member
  · cases op with
    | set h key v =>
      simp only [Nvs.strokesOf] at member
      split at member
      · obtain ⟨c, inProgress, written⟩ := List.mem_flatMap.mp member
        obtain ⟨s, -, rfl⟩ := List.mem_map.mp written
        refine ⟨nofun, ?_⟩
        rintro _ _ ⟨⟩
        exact ⟨c, Option.mem_toList.mp inProgress, rfl⟩
      · cases member
    | commit h =>
      simp only [Nvs.strokesOf] at member
      split at member
      · obtain rfl := List.mem_singleton.mp member
        exact ⟨nofun, nofun⟩
      · cases member
    | flashErase =>
      exact ⟨fun _ => rfl, fun s v same => by cases List.mem_singleton.mp member ▸ same⟩
    | _ => cases member

theorem Device.Contained.storageCall (contained : d.Contained asking) {turn : Turn}
    {saving : Option Config} {op : NvsOp} (made : d.storageCall turn = some (saving, op)) :
    ((∃ c, saving = some c ∧ c.SaveCall op) ∨ op.Harmless asking) ∧ ∀ c, saving = some c →
      d.saving = some c := by
  obtain ⟨-, -, console, main, processor⟩ := contained
  cases turn with
  | set _ | save | reset _ => cases made
  | console =>
    cases todo : d.console with
    | done _ => simp [Device.storageCall, todo] at made
    | call op next =>
      simp only [Device.storageCall, todo, Option.some.injEq, Prod.mk.injEq] at made
      obtain ⟨rfl, rfl⟩ := made
      rw [todo] at console
      exact ⟨console.1, fun _ => id⟩
  | main =>
    cases todo : d.main with
    | done _ => simp [Device.storageCall, todo] at made
    | call op next =>
      simp only [Device.storageCall, todo, Option.some.injEq, Prod.mk.injEq] at made
      obtain ⟨rfl, rfl⟩ := made
      rw [todo] at main
      exact ⟨.inr main.1, nofun⟩
  | processor =>
    cases todo : d.processor with
    | done _ => simp [Device.storageCall, todo] at made
    | call op next =>
      cases op with
      | nvs op =>
        simp only [Device.storageCall, todo, Option.some.injEq, Prod.mk.injEq] at made
        obtain ⟨rfl, rfl⟩ := made
        rw [todo] at processor
        exact ⟨.inr processor.1, nofun⟩
      | _ => simp [Device.storageCall, todo] at made

theorem Device.Contained.strokes_mem (contained : d.Contained asking) {turn : Turn}
    {stroke : Stroke Setting Origin} (member : stroke ∈ d.strokes turn) :
    (stroke = .clear → asking) ∧ ∀ s v, stroke = .write s v → ∃ c, d.saving = some c ∧
      v = .saved c := by
  have made : ∀ {call : Option (Option Config × NvsOp)}, d.storageCall turn = call →
      stroke ∈ call.elim [] (fun (saving, op) => d.world.nvs.strokes saving op) →
      (stroke = .clear → asking) ∧ ∀ s v, stroke = .write s v → ∃ c, d.saving = some c ∧
      v = .saved c := by
    intro call made member
    match call with
    | none => cases member
    | some (saving, op) =>
      obtain ⟨known, own⟩ := contained.storageCall made
      obtain ⟨erases, writes⟩ := Nvs.strokes_mem member
      constructor
      · intro clear
        rcases known with ⟨c, -, part⟩ | harmless
        · rw [erases clear] at part
          cases part
        · exact harmless.erases (erases clear)
      · intro s v write
        obtain ⟨c, saving, origin⟩ := writes s v write
        exact ⟨c, own c saving, origin⟩
  cases turn with
  | reset r =>
    obtain rfl := List.mem_singleton.mp member
    exact ⟨nofun, nofun⟩
  | _ => exact made rfl member

/-- What is being saved after a turn was being saved before, or the console has just
been told to. -/
theorem Device.saving_step {turn : Turn} {c : Config}
    (saving : (d.step A sha256 maxSize turn).saving = some c) :
    d.saving = some c ∨ c ∈ d.told turn := by
  cases turn with
  | save =>
    cases todo : d.console with
    | done gConfig =>
      simp only [Device.step, todo] at saving
      simp only [Device.told, todo]
      exact .inr (List.mem_singleton.mpr (Option.some.inj saving).symm)
    | call op next =>
      simp only [Device.step, todo] at saving
      exact .inl saving
  | reset r => cases saving
  | set _ | console | main | processor =>
    left
    simp only [Device.step] at saving
    split at saving <;> exact saving

theorem Device.Contained.run (contained : d.Contained asking) (holds : d.world.nvs.Holds es cells)
    (turns : List Turn) (calm : ∀ r, .reset r ∈ turns → r.init.Asks → asking) :
    (d.run A sha256 maxSize turns).Contained asking ∧
    (d.run A sha256 maxSize turns).world.nvs.Holds es
      (cells.run (d.history A sha256 maxSize turns)) ∧
      ∀ stroke ∈ d.history A sha256 maxSize turns, (stroke = .clear → asking) ∧
        ∀ s v, stroke = .write s v →
          ∃ c, (d.saving = some c ∨ c ∈ d.saves A sha256 maxSize turns) ∧ v = .saved c := by
  induction turns generalizing d cells with
  | nil => exact ⟨contained, holds, fun stroke member => by cases member⟩
  | cons turn turns ih =>
    obtain ⟨contained', holds'⟩ := contained.step A sha256 maxSize holds turn
      fun r same => calm r (same ▸ List.mem_cons_self)
    obtain ⟨kept, held, later⟩ := ih contained' holds' fun r member =>
      calm r (List.mem_cons_of_mem _ member)
    refine ⟨kept, ?_, ?_⟩
    · rw [Device.history, Cells.run_append]
      exact held
    · intro stroke member
      rcases List.mem_append.mp member with now | after
      · obtain ⟨clears, writes⟩ := contained.strokes_mem now
        refine ⟨clears, fun s v write => ?_⟩
        obtain ⟨c, saving, origin⟩ := writes s v write
        exact ⟨c, .inl saving, origin⟩
      · obtain ⟨clears, writes⟩ := later stroke after
        refine ⟨clears, fun s v write => ?_⟩
        obtain ⟨c, saved, origin⟩ := writes s v write
        refine ⟨c, ?_, origin⟩
        rcases saved with saving | member
        · exact (Device.saving_step A sha256 maxSize saving).imp_right (List.mem_append_left _)
        · exact .inr (List.mem_append_right _ member)

/-- What is known of a device since it was first booted. -/
theorem Device.boot_run (world : World) (first : Reset) (turns : List Turn) :
    let booted := boot A sha256 maxSize world first
    let d := booted.run A sha256 maxSize turns
    d.Contained True ∧
      d.world.nvs.Holds (booted.world.nvs.live "config")
      (atFactory.run (booted.history A sha256 maxSize turns)) ∧
      ∀ s v, .write s v ∈ booted.history A sha256 maxSize turns →
        ∃ c ∈ booted.saves A sha256 maxSize turns, v = .saved c := by
  intro booted d
  have holds : booted.world.nvs.Holds (booted.world.nvs.live "config") atFactory :=
    ⟨fun _ => rfl, fun _ => rfl⟩
  have contained : booted.Contained True := boot_contained A sha256 maxSize fun _ => trivial
  obtain ⟨contained, held, strokes⟩ :=
    contained.run A sha256 maxSize holds turns fun _ _ _ => trivial
  refine ⟨contained, held, fun s v member => ?_⟩
  obtain ⟨c, saving | told, origin⟩ := (strokes _ member).2 s v rfl
  · cases saving
  · exact ⟨c, told, origin⟩

end Steps

/-- Over any number of lives, with the tasks taking turns call by call, any call failing and a reset
at any moment: what a setting is comes from the factory, from an erasure or from the value that a
save wrote for it, and everything written for it since has been undone by a reset. A write that was
committed before a reset stays until the next one. All that is written comes from the configurations
that the console was told to save, and nothing is erased if the storage never asks for it. -/
theorem settings_survive (A : ArduinoJson) (sha256 : Sha256) (maxSize : Nat)
    (world : World) (first : Reset) (turns : List Turn) :
    let booted := Device.boot A sha256 maxSize world first
    let d := booted.run A sha256 maxSize turns
    let history := booted.history A sha256 maxSize turns
    let es := booted.world.nvs.live "config"
    (∀ s : Setting, ∃ origin, atFactory.From s false history origin ∧
      d.world.nvs.live "config" s.name = Origin.entry es s origin ∧
      (d.world.nvs.faults = [] → d.world.nvs.init = .ok →
        ((Config.create sha256).run Nvs.answer d.world.nvs).1.get s =
        Origin.setting sha256 es s origin)) ∧
    (∀ s c before between after,
      history = before ++ .write s (.saved c) :: (between ++ .flush :: after) →
      (∀ kept, .crash kept ∉ between) → .clear ∉ between ++ after →
      (∀ v, .write s v ∉ between ++ after) →
        d.world.nvs.live "config" s.name = some (c.value s)) ∧
    (∀ s v, .write s v ∈ history → ∃ c ∈ booted.saves A sha256 maxSize turns, v = .saved c) ∧
    (¬first.init.Asks → (∀ r, .reset r ∈ turns → ¬r.init.Asks) → .clear ∉ history) := by
  intro booted d history es
  obtain ⟨-, held, told⟩ := Device.boot_run A sha256 maxSize world first turns
  refine ⟨fun s => ?_, ?_, told, ?_⟩
  · refine ⟨(atFactory.run history).live s, (Cells.run_from rfl history s).1, held.live s, ?_⟩
    intro faultless init
    rw [Config.create_run faultless init,
      Config.get_ofEntries, ← Origin.ofEntry_entry, ← held.live s]
    rfl
  · intro s c before between after split steady uncleared unwritten
    rw [held.live s]
    change Origin.entry es s ((atFactory.run history).live s) = _
    rw [split, Cells.run_flushed _ _ steady uncleared unwritten]
    rfl
  · intro calm calmLater cleared
    have holds : booted.world.nvs.Holds es atFactory := ⟨fun _ => rfl, fun _ => rfl⟩
    have contained : booted.Contained False := Device.boot_contained A sha256 maxSize calm
    obtain ⟨-, -, strokes⟩ := contained.run A sha256 maxSize holds turns calmLater
    exact (strokes _ cleared).1 rfl

/-- A device that keeps only what was committed. -/
def forgetful : Reset := { kept := fun _ _ => false, init := .ok, faults := [], laps := 1 }

def setUrl (url : String) : Turn :=
  .set (some (terminated (bytes "peerUrl"), terminated (bytes url)))

/-- A url is saved, and another between its write and its commit when the device is reset. -/
def resetTurns : List Turn :=
  List.replicate 10 .console ++ [setUrl "http://a", .save] ++ List.replicate 14 .console ++
    [setUrl "http://b", .save] ++ List.replicate 5 .console ++ [.reset forgetful]

def resetDevice : Device :=
  Device.boot textLibrary sampleSha256 0 (sampleWorld (sampleEntries sampleUuid sampleKey) [])
  forgetful

theorem resetDevice_factory :
    resetDevice.world.nvs.live "config" = sampleEntries sampleUuid sampleKey := by
  funext key
  simp [resetDevice, Device.boot, Nvs.reset, forgetful, sampleWorld, sampleNvs]

def resetEntries : Entries :=
  (resetDevice.run textLibrary sampleSha256 0 resetTurns).world.nvs.live "config"

/-- The url is that of the first save, and what is left of the other settings is as it
was or saved. -/
theorem settings_survive_sample :
    Setting.ofEntry sampleSha256 .peerUrl (resetEntries "peer_url") = bytes "http://a" ∧
      (resetDevice.saves textLibrary sampleSha256 0 resetTurns).length = 2 ∧
      ∀ s : Setting, resetEntries s.name = sampleEntries sampleUuid sampleKey s.name ∨
        ∃ c ∈ resetDevice.saves textLibrary sampleSha256 0 resetTurns,
          resetEntries s.name = some (c.value s) := by
  refine ⟨by decide +kernel, by decide +kernel, fun s => ?_⟩
  have factory := resetDevice_factory
  rw [resetEntries]
  rw [resetDevice] at factory ⊢
  obtain ⟨origins, -, told, uncleared⟩ := settings_survive textLibrary sampleSha256 0
    (sampleWorld (sampleEntries sampleUuid sampleKey) []) forgetful resetTurns
  obtain ⟨origin, ⟨before, after, split, source, -⟩, entry, -⟩ := origins s
  rw [split] at told uncleared
  rw [entry, factory]
  have part : ∀ stroke ∈ before, stroke ∈ before ++ after := fun _ => List.mem_append_left _
  cases source with
  | start => exact .inl rfl
  | written before v =>
    obtain ⟨c, saved, rfl⟩ := told s v (part _ (by simp))
    exact .inr ⟨c, saved, rfl⟩
  | cleared before =>
    have calm : ¬forgetful.init.Asks := by
      rintro (asks | asks) <;> cases asks
    refine absurd (part _ (by simp)) (uncleared calm fun r member => ?_)
    have only : r = forgetful := by simpa [resetTurns, setUrl] using member
    rwa [only]

end Stembot
