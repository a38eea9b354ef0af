import Stembot.Models.ReadFailures
import Stembot.Models.TextLibrary
import Stembot.Processor.Sending

/-!
# Reloads while reads may fail

The task loads its configuration again whenever it is idle. Its settings stay the
saved ones as long as no load falls back to a default.
-/

namespace Stembot

open Library Program

/-- The storage calls among the calls of the task. -/
def nvsCalls (calls : List TaskCall) : List NvsCall :=
  calls.filterMap fun
    | ⟨.nvs op, r⟩ => some ⟨op, r⟩
    | _ => none

@[simp] theorem nvsCalls_append (calls calls' : List TaskCall) :
    nvsCalls (calls ++ calls') = nvsCalls calls ++ nvsCalls calls' := List.filterMap_append

@[simp] theorem nvsCalls_byTask (calls : List NvsCall) : nvsCalls (calls.map byTask) = calls := by
  rw [nvsCalls, List.filterMap_map]
  exact List.filterMap_some

theorem nvsCalls_subset {calls calls' : List TaskCall} (inside : calls ⊆ calls') :
    nvsCalls calls ⊆ nvsCalls calls' := by
  intro e member
  obtain ⟨call, called, same⟩ := List.mem_filterMap.mp member
  exact List.mem_filterMap.mpr ⟨call, inside called, same⟩

/-- A lap wakes with calls of its run. -/
theorem Lap.nvsCalls_waking {laps : List Lap} {lap : Lap} (member : lap ∈ laps) :
    nvsCalls lap.waking ⊆ nvsCalls (laps.flatMap Lap.calls) :=
  nvsCalls_subset fun _ waking => List.mem_flatMap.mpr ⟨lap, member, List.mem_append_left _ waking⟩

section Downgrade

variable {A : ArduinoJson} {sha256 : Sha256} {maxSize : Nat} {saved : Config} {es : Entries}

/-- The load of a lap that starts idle. -/
theorem Lap.Runs.loads {lap : Lap} {r : Option Task} (runs : lap.Runs A sha256 maxSize r)
    (idle : lap.start.idle = true) :
    (lap.start.config.load sha256).Traces (nvsCalls lap.waking) lap.awake.config := by
  rcases wake_traces runs.wakes with ⟨awake, -, -⟩ | ⟨-, calls, loaded, waking, -⟩
  · cases idle.symm.trans awake
  · have silent : nvsCalls [⟨.delay lap.awake.config.pollTicks, ()⟩] = [] := rfl
    rw [waking, nvsCalls_append, nvsCalls_byTask, silent, List.append_nil]
    exact loaded

/-- A lap that does not fall back keeps the saved settings. -/
theorem Lap.Runs.keeps (holds : saved.SavedIn es) {lap : Lap} {r : Option Task}
    (runs : lap.Runs A sha256 maxSize r) (answers : ∀ e ∈ nvsCalls lap.waking, AnswersFrom es e)
    (spared : lap.start.idle = true →
    Config.Spared sha256 saved lap.start.config (nvsCalls lap.waking)) (start :
    lap.start.config.get = (saved.asSaved sha256).get) :
    lap.awake.config.get = (saved.asSaved sha256).get := by
  cases idle : lap.start.idle with
  | false =>
    rcases wake_traces runs.wakes with ⟨-, -, same⟩ | ⟨busy, -⟩
    · rw [same, start]
    · cases idle.symm.trans busy
  | true =>
    funext s
    have loaded := (load_undowngraded_iff holds (runs.loads idle) answers).mpr (spared idle) s
    rw [start] at loaded
    exact loaded.elim id id

/-- The laps of a run, each from where the one before it ended. -/
theorem Run.laps {t : Task} {laps : List Lap} {r : Option Task}
    (run : Run A sha256 maxSize t laps r) {I : Task → Prop}
    (step : ∀ lap ∈ laps, ∀ r', lap.Runs A sha256 maxSize r' → I lap.start → I lap.awake)
    (resting : ∀ t idle, I t → I { t with idle }) (start : I t) :
    ∀ lap ∈ laps, I lap.awake ∧ ∃ r', lap.Runs A sha256 maxSize r' := by
  induction run with
  | nil t => exact fun lap member => absurd member List.not_mem_nil
  | @lap first t' laps r runs _ ih =>
    have awake := step first List.mem_cons_self _ runs start
    have next : I t' := by
      rw [runs.outcome]
      exact resting _ _ awake
    intro lap member
    rcases List.mem_cons.mp member with rfl | later
    · exact ⟨awake, _, runs⟩
    · exact ih (fun lap inside => step lap (List.mem_cons_of_mem _ inside)) next lap later
  | @escaped first runs =>
    intro lap member
    obtain rfl := List.mem_singleton.mp member
    exact ⟨step lap List.mem_cons_self _ runs start, _, runs⟩

end Downgrade

/-- A load, of whichever configuration and with whichever of its reads failing, leaves every field
the saved one or as it was exactly if each setting is read without a failure or falls back to such a
value. So does every load of a run of the task; and where all of them do, a task that started with
the saved settings has them in every lap, and so has its client. -/
theorem reloads_keep_saved {A : ArduinoJson} {sha256 : Sha256} {maxSize n : Nat}
    {saved config : Config} {es : Entries} (holds : saved.SavedIn es)
    {calls : List TaskCall} {r : Option Task}
    (ran : (loop A sha256 maxSize n (.initial config)).Traces calls r)
    (answers : ∀ e ∈ nvsCalls calls, AnswersFrom es e) :
    (∀ c loading c', (Config.load sha256 c).Traces loading c' → (∀ e ∈ loading, AnswersFrom es e) →
      (Config.Undowngraded sha256 saved c c' ↔ Config.Spared sha256 saved c loading)) ∧
    ∃ laps : List Lap, calls = laps.flatMap Lap.calls ∧
      Run A sha256 maxSize (.initial config) laps r ∧
      Complete n laps r ∧
      (∀ lap ∈ laps, lap.start.idle = true →
        (Config.Undowngraded sha256 saved lap.start.config lap.awake.config ↔
          Config.Spared sha256 saved lap.start.config (nvsCalls lap.waking))) ∧
      (config.get = (saved.asSaved sha256).get →
        (∀ lap ∈ laps, lap.start.idle = true →
          Config.Spared sha256 saved lap.start.config (nvsCalls lap.waking)) →
        ∀ lap ∈ laps, lap.awake.config.get = (saved.asSaved sha256).get ∧
          lap.awake.client = lap.awake.config.client) := by
  refine ⟨fun c loading c' loaded heard => load_undowngraded_iff holds loaded heard, ?_⟩
  obtain ⟨laps, rfl, run, complete⟩ := loop_traces ran
  have heard : ∀ lap ∈ laps, ∀ e ∈ nvsCalls lap.waking, AnswersFrom es e :=
    fun lap member e called => answers e (Lap.nvsCalls_waking member called)
  refine ⟨laps, rfl, run, complete, ?_, ?_⟩
  · intro lap member idle
    obtain ⟨-, r', runs⟩ := run.laps (I := fun _ => True) (fun _ _ _ _ _ => trivial)
      (fun _ _ _ => trivial) trivial
      lap member
    exact load_undowngraded_iff holds (runs.loads idle) (heard lap member)
  · intro start spared lap member
    have kept := run.laps (I := fun t => t.config.get = (saved.asSaved sha256).get)
      (fun lap member _ runs => runs.keeps holds (heard lap member) (spared lap member))
      (fun _ _ same => same)
      start lap member
    obtain ⟨before, after, split⟩ := List.append_of_mem member
    exact ⟨kept.1, (run.holds (Task.initial_holds config) split).2.1⟩

/-- Settings that were saved. -/
def sampleSaved : Config :=
  { Config.blank with
    agtuuid := strncpySizeof (.replicate 36 0) (bytes "a")
    key := .replicate 32 1
    polling := true
    peerUrl := bytes "u" }

/-- The first lap of a task that has the saved settings, on a device whose calls fail as listed. -/
def sampleLap (faults : List Bool) : List TaskCall :=
  let world := sampleWorld (sampleSaved.entries fun _ => none) []
  (loop textLibrary (fun _ => some (.replicate 32 9)) 0 1 (.initial sampleSaved)).trace
    (World.answer textLibrary)
    { world with nvs := { world.nvs with faults } }

theorem reloads_keep_saved_sample :
    ∃ laps : List Lap, sampleLap [false, false, false, true] = laps.flatMap Lap.calls ∧
      laps.length = 1 ∧
      ∀ lap ∈ laps, lap.start.idle = true →
        (Config.Undowngraded (fun _ => some (.replicate 32 9)) sampleSaved
          lap.start.config lap.awake.config ↔
          Config.Spared (fun _ => some (.replicate 32 9)) sampleSaved lap.start.config
            (nvsCalls lap.waking)) := by
  let run := loop textLibrary (fun _ => some (.replicate 32 9)) 0 1 (.initial sampleSaved)
  have answers : ∀ e ∈ nvsCalls (sampleLap [false, false, false, true]),
      AnswersFrom (sampleSaved.entries fun _ => none) e := by
    decide +kernel
  obtain ⟨-, laps, made, -, complete, each, -⟩ :=
    reloads_keep_saved (sampleSaved.savedIn_entries fun _ => none)
    (traces_run (World.answer textLibrary) run _) answers
  exact ⟨laps, made, complete.whole (by decide +kernel), each⟩

/-- The read of the key fails once, and the task polls with the key of the default passphrase. -/
theorem failed_read_downgrades :
    (outgoing (sampleLap [false, false, false, false, true])).map (fun post => post.1.key) =
      [defaultKey fun _ => some (.replicate 32 9)] ∧
    (outgoing (sampleLap [])).map (fun post => post.1.key) = [sampleSaved.key] := by
  decide +kernel

end Stembot
