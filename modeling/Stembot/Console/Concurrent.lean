import Stembot.Console.Interrupted
import Stembot.Console.Operator
import Stembot.Library.Registers
import Stembot.Models.Sources
import Stembot.Processor.World

/-!
# Saves and loads side by side

The console and the processor are two tasks without a lock between them, and the
scheduler may switch after each call that a save or a load makes. The settings are
shared registers: a save copies one tuple into them, a load looks at them once or
twice for each setting.
-/

namespace Stembot

open Library Program

/-- The storage, the console's configuration, and what is left of the save and of the load in
progress. The processor's configuration is what the last load returned. -/
structure Tasks where
  nvs : Nvs
  console : Config
  saving : NvsProgram Unit := .done ()
  loading : NvsProgram Config

/-- What the scheduler lets one of the tasks do: a command, or the next storage call. -/
inductive Action where
  | set (args : Option (CString × CString))
  | save
  | console
  | load
  | processor

namespace Tasks

variable (sha256 : Sha256)

/-- Neither task goes on to its next command or load before it is done with the last one. -/
def step (t : Tasks) : Action → Tasks
  | .set args =>
    match t.saving with
    | .done _ => { t with console := (cmdSet sha256 t.console args).2 }
    | .call _ _ => t
  | .save =>
    match t.saving with
    | .done _ => { t with saving := t.console.save }
    | .call _ _ => t
  | .console =>
    match t.saving with
    | .done _ => t
    | .call op next =>
      let (r, nvs) := Nvs.answer op t.nvs
      { t with nvs, saving := next r }
  | .load =>
    match t.loading with
    | .done c => { t with loading := c.load sha256 }
    | .call _ _ => t
  | .processor =>
    match t.loading with
    | .done _ => t
    | .call op next =>
      let (r, nvs) := Nvs.answer op t.nvs
      { t with nvs, loading := next r }

def run (t : Tasks) (schedule : List Action) : Tasks := schedule.foldl (step sha256) t

def boot (nvs : Nvs) : Tasks :=
  let m := Machine.boot sha256 nvs
  { nvs := m.nvs, console := m.console, loading := .done m.processor.config }

theorem run_console (t : Tasks) : ∃ n, t.run sha256 (.replicate n .console) =
    { t with nvs := (t.saving.run Nvs.answer t.nvs).2, saving := .done () } := by
  obtain ⟨nvs, console, saving, loading⟩ := t
  induction saving generalizing nvs with
  | done _ => exact ⟨0, rfl⟩
  | call op next ih =>
    obtain ⟨n, rest⟩ := ih (Nvs.answer op nvs).1 (Nvs.answer op nvs).2
    exact ⟨n + 1, rest⟩

theorem run_processor (t : Tasks) : ∃ n, t.run sha256 (.replicate n .processor) =
    { t with
      nvs := (t.loading.run Nvs.answer t.nvs).2
      loading := .done (t.loading.run Nvs.answer t.nvs).1 } := by
  obtain ⟨nvs, console, saving, loading⟩ := t
  induction loading generalizing nvs with
  | done c => exact ⟨0, rfl⟩
  | call op next ih =>
    obtain ⟨n, rest⟩ := ih (Nvs.answer op nvs).1 (Nvs.answer op nvs).2
    exact ⟨n + 1, rest⟩

/-- A save that is not interrupted is `Config::save`. -/
theorem run_save (t : Tasks) (idle : t.saving = .done ()) :
    ∃ n, t.run sha256 (.save :: .replicate n .console) =
      { t with nvs := (t.console.save.run Nvs.answer t.nvs).2 } := by
  obtain ⟨n, ran⟩ := run_console sha256 { t with saving := t.console.save }
  refine ⟨n, ?_⟩
  rw [run, List.foldl_cons, step, idle]
  rw [run] at ran
  rw [ran, ← idle]

/-- A load that is not interrupted is `Config::load`. -/
theorem run_load (t : Tasks) {c : Config} (idle : t.loading = .done c) :
    ∃ n, t.run sha256 (.load :: .replicate n .processor) =
      { t with
        nvs := ((c.load sha256).run Nvs.answer t.nvs).2
        loading := .done ((c.load sha256).run Nvs.answer t.nvs).1 } := by
  obtain ⟨n, ran⟩ := run_processor sha256 { t with loading := c.load sha256 }
  refine ⟨n, ?_⟩
  rw [run, List.foldl_cons, step, idle]
  exact ran

/-- What an action does to the registers. A load is over with its last call. -/
def access (t : Tasks) : Action → List (Access Setting.Carrier)
  | .set _ => []
  | .save =>
    match t.saving with
    | .done _ => [.begin t.console.get]
    | .call _ _ => []
  | .console =>
    match t.saving with
    | .call (.set _ _ _) _ => [.write]
    | _ => []
  | .load =>
    match t.loading with
    | .done _ => [.look]
    | .call _ _ => []
  | .processor =>
    match t.loading with
    | .done _ => []
    | .call op next =>
      match next (Nvs.answer op t.nvs).1 with
      | .done _ => [.rest]
      | .call _ _ => []

def accesses (t : Tasks) : List Action → List (Access Setting.Carrier)
  | [] => []
  | action :: schedule => t.access action ++ (t.step sha256 action).accesses schedule

end Tasks

/-- Each setting of the configuration is one of the reader's sources has it, except that a string
may have fallen back to its default. Without an overlapping save all of them are those of one
tuple. -/
structure Config.Obtains (sha256 : Sha256) (r : Registers Setting.Carrier) (c : Config) : Prop where
  each : ∀ s : Setting, (∃ tuple ∈ r.sources, s.Alike (c.get s) (tuple s)) ∨
    s.Text ∧ c.get s = s.fallback sha256
  whole : r.overlapping = [] → c.get = r.base

/-- The store of the configuration is open, and no call will fail. -/
structure Config.Ready (c : Config) (w : Nvs) : Prop where
  serves : w.Serves c.kvstore "config"
  writable : c.kvstore.readOnly = false

section Calls

variable {sha256 : Sha256} {c : Config} {w : Nvs}

theorem Config.Ready.kept (ready : c.Ready w) {w' : Nvs} (faults : w'.faults = w.faults)
    (handles : w'.handles = w.handles) : c.Ready w' :=
  ⟨⟨faults.trans ready.serves.faultless, ready.serves.started, by
    rw [handles]
    exact ready.serves.handle⟩, ready.writable⟩

/-- The device after a save's write, which is not committed yet. -/
def Config.written (c : Config) (w : Nvs) (s : Setting) : Nvs :=
  { w with live := Function.update w.live "config" (c.write (w.live "config") s) }

theorem Config.written_live (c : Config) (w : Nvs) (s : Setting) :
    (c.written w s).live "config" = c.write (w.live "config") s := by
  simp [written]

/-- A write, and what is left of a save. -/
theorem Config.forM_saveOne (ready : c.Ready w) (s : Setting) (todo : List Setting) :
    (s :: todo).forM c.saveOne =
      .call (.set c.kvstore.handle s.name (c.value s)) fun written =>
        if written then .call (.commit c.kvstore.handle) fun _ => todo.forM c.saveOne
        else todo.forM c.saveOne := by
  obtain ⟨size, one⟩ := c.saveOne_eq s
  change (c.saveOne s >>= fun _ => todo.forM c.saveOne) = _
  rw [one]
  simp only [KVStore.put, ready.serves.started, ready.writable, Bool.not_true, Bool.or_self,
    Bool.false_eq_true, if_false]
  refine congrArg (Program.call _) (funext fun written => ?_)
  cases written <;> rfl

theorem Config.Ready.set (ready : c.Ready w) (s : Setting) :
    Nvs.answer (.set c.kvstore.handle s.name (c.value s)) w = (true, c.written w s) := by
  have handle := ready.serves.handle
  rw [ready.writable] at handle
  rw [Nvs.answer_of_faultless ready.serves.faultless]
  simp [Nvs.perform, Nvs.write, handle, written, Config.write]

theorem Config.Ready.commit (ready : c.Ready w) :
    Nvs.answer (.commit c.kvstore.handle) w = (true, { w with durable := w.live }) := by
  rw [Nvs.answer_of_faultless ready.serves.faultless]
  simp [Nvs.perform, ready.serves.handle]

/-- A load's read is answered from the entries as they are. -/
theorem NvsOp.ReadsAt.answer {op : NvsOp} {kv : KVStore} {key : String}
    (reads : op.ReadsAt kv.handle key) (serves : w.Serves kv "config") :
    Nvs.answer op w = ((Nvs.perform op (holding (w.live "config"))).1, w) := by
  have entry : ∀ key, w.entry kv.handle key = w.live "config" key := by
    intro key
    rw [Nvs.entry, serves.handle, Option.bind_some]
  rw [Nvs.answer_of_faultless serves.faultless]
  cases op with
  | getScalar h key' ty =>
    obtain ⟨rfl, rfl⟩ := reads
    simp only [Nvs.perform, entry]
    rfl
  | strLen h key' | getStr h key' _ | getBlob h key' _ =>
    obtain ⟨rfl, rfl⟩ := reads
    simp only [Nvs.perform, entry]
    rw [show (holding (w.live "config")).entry kv.handle key' = w.live "config" key' from rfl]
    split <;> rfl
  | _ => exact reads.elim

theorem Config.load_of_started (started : c.kvstore.started = true) :
    c.load sha256 = c.loadFrom sha256 c.kvstore := by
  rw [load, KVStore.begin_of_started started]
  rfl

/-- A load on an open store begins with a read. -/
theorem Config.load_call (started : c.kvstore.started = true) :
    ∃ next, c.load sha256 = .call (.strLen c.kvstore.handle "agtuuid") next := by
  rw [load_of_started started, loadFrom]
  simp only [KVStore.getString, started, Bool.not_true, Bool.false_eq_true, if_false]
  exact ⟨_, rfl⟩

theorem Config.load_asks (started : c.kvstore.started = true) :
    (c.load sha256).Issues fun op => ∃ key, op.ReadsAt c.kvstore.handle key := by
  rw [load_of_started started]
  exact loadFrom_asks c.kvstore sha256 c

/-- A load keeps the store. -/
theorem Config.Ready.load {c' : Config} {calls : List NvsCall} (ready : c.Ready w)
    (traced : (c.load sha256).Traces calls c') : c'.Ready w := by
  rw [load_of_started ready.serves.started, loadFrom_eq] at traced
  obtain ⟨-, -, kvstore, -⟩ := loadAll_sourced Setting.all_nodup traced
  exact ⟨kvstore ▸ ready.serves, kvstore ▸ ready.writable⟩

/-- The reads of a load that were all answered from the same entries make one tuple. -/
theorem Config.get_of_heard {c' : Config} {es : Entries} {calls : List NvsCall} (ready : c.Ready w)
    (traced : (c.load sha256).Traces calls c') (heard : ∀ e ∈ calls, Heard es e) :
    c'.get = Setting.stored sha256 es := by
  have serves : (holding es).Serves c.kvstore "config" :=
    ⟨rfl, ready.serves.started, by rw [ready.writable]; rfl⟩
  have answered : ∀ e ∈ calls, Nvs.answer e.1 (holding es) = (e.2, holding es) := by
    intro e member
    obtain ⟨key, reads⟩ := (load_asks ready.serves.started).of_mem traced e member
    rw [reads.answer serves, heard e member (by simp [reads.readKey])]
    rfl
  have ran := (traced.run_eq answered).symm.trans (load_run serves)
  rw [(Prod.mk.inj ran).1, get_ofEntries]
  rfl

/-- Each read of a load was answered from entries that hold a setting of a source each. -/
theorem Config.obtains_of_heard {c' : Config} {r : Registers Setting.Carrier} {calls : List NvsCall}
    (ready : c.Ready w) (traced : (c.load sha256).Traces calls c')
    (heard : ∀ e ∈ calls, ∃ es, Heard es e ∧
      ∀ s : Setting, ∃ tuple ∈ r.sources, s.stored sha256 es = tuple s) (s : Setting) :
    (∃ tuple ∈ r.sources, s.Alike (c'.get s) (tuple s)) ∨ s.Text ∧
      c'.get s = s.fallback sha256 := by
  obtain ⟨-, badly, sourced⟩ := load_sourced traced s
  rcases sourced ready.serves.started with ⟨e, member, alike⟩ | torn
  · obtain ⟨es, from_es, sources⟩ := heard e member
    obtain ⟨tuple, source, stored⟩ := sources s
    exact .inl ⟨tuple, source, stored ▸ alike es from_es⟩
  · exact .inr ⟨torn.text, badly torn.unread⟩

end Calls

namespace Tasks

/-- What is left of a save that has these settings to write; it may have to commit one first. -/
def Saves (c : Config) (todo : List Setting) (p : NvsProgram Unit) : Prop :=
  p = todo.forM c.saveOne ∨ p = .call (.commit c.kvstore.handle) fun _ => todo.forM c.saveOne

/-- What a load in progress has heard so far. -/
structure Hears (sha256 : Sha256) (w : Nvs) (r : Registers Setting.Carrier)
    (p : NvsProgram Config) (c : Config) (calls : List NvsCall) : Prop where
  reading : r.reading = true
  ready : c.Ready w
  made : (c.load sha256).After calls p
  heard : ∀ e ∈ calls, ∃ es, Heard es e ∧
    ∀ s : Setting, ∃ tuple ∈ r.sources, s.stored sha256 es = tuple s
  alone : r.overlapping = [] → ∀ e ∈ calls, Heard (w.live "config") e

/-- What is known of a load, finished or not. -/
def Loads (sha256 : Sha256) (w : Nvs) (r : Registers Setting.Carrier) : NvsProgram Config → Prop
  | .done c => r.reading = false ∧ c.Ready w ∧ c.Obtains sha256 r
  | .call op next => ∃ c calls, Hears sha256 w r (.call op next) c calls

/-- The tasks as a writer and a reader of the registers. -/
structure Mirrors (sha256 : Sha256) (t : Tasks) (r : Registers Setting.Carrier) : Prop where
  consistent : r.Consistent Setting.all
  ready : t.console.Ready t.nvs
  proper : t.console.Proper
  cells : Setting.stored sha256 (t.nvs.live "config") = r.cells
  saves : Saves t.console r.unwritten t.saving
  tuple : r.unwritten ≠ [] → t.console.get = r.tuple
  loads : Loads sha256 t.nvs r t.loading

section Invariant

variable {sha256 : Sha256} {t : Tasks} {r : Registers Setting.Carrier} {w : Nvs}
  {p : NvsProgram Config}

/-- A save that is done has nothing to write. -/
theorem Saves.idle {c : Config} {todo : List Setting} (saves : Saves c todo (.done ()))
    (ready : c.Ready w) : todo = [] := by
  rcases saves with same | same
  · cases todo with
    | nil => rfl
    | cons s todo => cases same.trans (Config.forM_saveOne ready s todo)
  · cases same

/-- What is known of a load is kept where the reader's sources grow and the entries stay. -/
theorem Loads.kept {w' : Nvs} {r' : Registers Setting.Carrier} (loads : Loads sha256 w r p)
    (faults : w'.faults = w.faults) (handles : w'.handles = w.handles)
    (reading : r'.reading = r.reading) (settled : r.reading = false → r'.base = r.base ∧
      r'.overlapping = r.overlapping)
    (sources : r.sources ⊆ r'.sources)
    (alone : r.reading = true → r'.overlapping = [] → r.overlapping = [] ∧ w'.live = w.live) :
    Loads sha256 w' r' p := by
  cases p with
  | done c =>
    obtain ⟨idle, ready, each, whole⟩ := loads
    obtain ⟨base, overlapping⟩ := settled idle
    refine ⟨reading.trans idle, ready.kept faults handles, ?_, ?_⟩
    · intro s
      refine (each s).imp_left ?_
      rintro ⟨tuple, source, alike⟩
      exact ⟨tuple, sources source, alike⟩
    · rw [base, overlapping]
      exact whole
  | call op next =>
    obtain ⟨c, calls, busy, ready, made, heard, single⟩ := loads
    refine ⟨c, calls, reading.trans busy, ready.kept faults handles, made, ?_, ?_⟩
    · intro e member
      obtain ⟨es, from_es, stored⟩ := heard e member
      refine ⟨es, from_es, fun s => ?_⟩
      obtain ⟨tuple, source, same⟩ := stored s
      exact ⟨tuple, sources source, same⟩
    · intro none e member
      obtain ⟨none, live⟩ := alone busy none
      rw [live]
      exact single none e member

theorem Mirrors.set (mirrors : Mirrors sha256 t r) (args : Option (CString × CString)) :
    Mirrors sha256 (t.step sha256 (.set args)) r := by
  cases idle : t.saving with
  | call op next => simpa only [step, idle] using mirrors
  | done _ =>
    have saves := mirrors.saves
    rw [idle] at saves
    have nothing := saves.idle mirrors.ready
    obtain ⟨proper, kvstore⟩ := cmdSet_proper sha256 mirrors.proper args
    simp only [step, idle]
    exact { mirrors with
      ready := ⟨kvstore ▸ mirrors.ready.serves, kvstore ▸ mirrors.ready.writable⟩
      proper
      saves := by
        rw [nothing]
        exact .inl rfl
      tuple := fun busy => absurd nothing busy }

theorem Mirrors.save (mirrors : Mirrors sha256 t r) :
    Mirrors sha256 (t.step sha256 .save) (r.run Setting.all (t.access .save)) := by
  cases idle : t.saving with
  | call op next =>
    simp only [step, access, idle]
    exact mirrors
  | done _ =>
    have saves := mirrors.saves
    rw [idle] at saves
    have nothing := saves.idle mirrors.ready
    have consistent := mirrors.consistent.begin t.console.get
    have sources : r.sources ⊆ (r.step Setting.all (.begin t.console.get)).sources :=
      r.sources_begin t.console.get
    simp only [step, access, idle]
    change Mirrors sha256 _ (r.step Setting.all (.begin t.console.get))
    simp only [Registers.step, nothing, if_true] at consistent sources ⊢
    exact {
      consistent
      ready := mirrors.ready
      proper := mirrors.proper
      cells := mirrors.cells
      saves := .inl t.console.save_eq
      tuple := fun _ => rfl
      loads := mirrors.loads.kept rfl rfl rfl
        (fun resting => ⟨rfl, if_neg (by simp [resting])⟩) sources
        fun busy none => absurd none (by simp [busy]) }

/-- The console's next call writes a setting, or commits the one before. -/
theorem Mirrors.console (mirrors : Mirrors sha256 t r) :
    Mirrors sha256 (t.step sha256 .console) (r.run Setting.all (t.access .console)) := by
  have ready := mirrors.ready
  have saves := mirrors.saves
  rcases saves with writes | commits
  · cases todo : r.unwritten with
    | nil =>
      rw [todo] at writes
      have idle : t.saving = .done () := writes
      simp only [step, access, idle]
      exact mirrors
    | cons s rest =>
      rw [todo, Config.forM_saveOne ready] at writes
      have tuple : t.console.get = r.tuple := mirrors.tuple (by simp [todo])
      have consistent := mirrors.consistent.write Setting.all_nodup
      have sources : (r.step Setting.all .write).sources = r.sources := r.sources_write
      simp only [step, access, writes, ready.set s]
      change Mirrors sha256 _ (r.step Setting.all .write)
      simp only [Registers.step, todo] at consistent sources ⊢
      exact {
        consistent
        ready := ready.kept rfl rfl
        proper := mirrors.proper
        cells := by
          funext s'
          change s'.stored sha256 ((t.console.written t.nvs s).live "config") =
            Function.update r.cells s (r.tuple s) s'
          rw [Config.written_live]
          by_cases hit : s' = s
          · subst hit
            rw [mirrors.proper.stored_write, Function.update_self, tuple]
          · rw [Config.stored_write_of_ne _ _ _ hit, Function.update_of_ne hit, mirrors.cells]
        saves := .inr rfl
        tuple := fun _ => tuple
        loads := mirrors.loads.kept rfl rfl rfl (fun _ => ⟨rfl, rfl⟩) (List.Subset.refl _)
          fun busy none => by cases todo.symm.trans (mirrors.consistent.alone busy none) }
  · simp only [step, access, commits, ready.commit]
    exact { mirrors with
      ready := ready.kept rfl rfl
      saves := .inl rfl
      loads := mirrors.loads.kept rfl rfl rfl (fun _ => ⟨rfl, rfl⟩) (List.Subset.refl _)
        fun _ none => ⟨none, rfl⟩ }

theorem Mirrors.load (mirrors : Mirrors sha256 t r) :
    Mirrors sha256 (t.step sha256 .load) (r.run Setting.all (t.access .load)) := by
  have loads := mirrors.loads
  cases idle : t.loading with
  | call op next =>
    simp only [step, access, idle]
    exact mirrors
  | done c =>
    rw [idle] at loads
    obtain ⟨-, ready, -⟩ := loads
    obtain ⟨next, asks⟩ : ∃ next, c.load sha256 = .call (.strLen _ "agtuuid") next :=
      Config.load_call ready.serves.started
    simp only [step, access, idle]
    exact { mirrors with
      consistent := mirrors.consistent.look
      loads := by
        simp only [asks]
        refine ⟨c, [], rfl, ready, ?_, nofun, fun _ => nofun⟩
        rw [asks]
        exact .nil _ }

/-- The processor's next call reads a register. -/
theorem Mirrors.processor (mirrors : Mirrors sha256 t r) :
    Mirrors sha256 (t.step sha256 .processor) (r.run Setting.all (t.access .processor)) := by
  have loads := mirrors.loads
  cases todo : t.loading with
  | done c =>
    simp only [step, access, todo]
    exact mirrors
  | call op next =>
    rw [todo] at loads
    obtain ⟨c, calls, busy, ready, made, heard, alone⟩ := loads
    obtain ⟨⟨key, reads⟩, -⟩ := (Config.load_asks ready.serves.started).after made
    obtain ⟨answer, unchanged⟩ := Prod.ext_iff.mp (reads.answer ready.serves)
    have from_live : Heard (t.nvs.live "config") ⟨op, (Nvs.answer op t.nvs).1⟩ := fun _ => answer
    have further : (c.load sha256).After (calls ++ [⟨op, (Nvs.answer op t.nvs).1⟩])
        (next (Nvs.answer op t.nvs).1) :=
      made.append (.call _ (.nil _))
    have all_heard : ∀ e ∈ calls ++ [(⟨op, (Nvs.answer op t.nvs).1⟩ : NvsCall)],
        ∃ es, Heard es e ∧ ∀ s : Setting, ∃ tuple ∈ r.sources, s.stored sha256 es = tuple s := by
      intro e member
      rcases List.mem_append.mp member with before | now
      · exact heard e before
      · obtain rfl := List.mem_singleton.mp now
        refine ⟨_, from_live, fun s => ?_⟩
        rw [mirrors.cells]
        exact mirrors.consistent.cells_mem busy s.mem_all
    have single : r.overlapping = [] →
        ∀ e ∈ calls ++ [(⟨op, (Nvs.answer op t.nvs).1⟩ : NvsCall)],
        Heard (t.nvs.live "config") e := by
      intro none e member
      rcases List.mem_append.mp member with before | now
      · exact alone none e before
      · rw [List.mem_singleton.mp now]
        exact from_live
    simp only [step, access, todo, unchanged]
    cases left : next (Nvs.answer op t.nvs).1 with
    | call op' next' =>
      rw [left] at further
      exact { mirrors with
        loads := ⟨c, _, busy, ready, further, all_heard, single⟩ }
    | done c' =>
      rw [left] at further
      have traced := further.traces (.done c')
      rw [List.append_nil] at traced
      exact { mirrors with
        consistent := mirrors.consistent.rest
        loads := by
          refine ⟨rfl, ?_, ?_, ?_⟩
          · exact ready.load traced
          · exact Config.obtains_of_heard ready traced all_heard
          · intro none
            rw [Config.get_of_heard ready traced (single none), mirrors.cells]
            exact funext fun s => mirrors.consistent.cells_alone busy none s.mem_all }

/-- Each action of a task is one access to the registers, or none. -/
theorem Mirrors.step (mirrors : Mirrors sha256 t r) (action : Action) :
    Mirrors sha256 (t.step sha256 action) (r.run Setting.all (t.access action)) := by
  cases action with
  | set args => exact mirrors.set args
  | save => exact mirrors.save
  | console => exact mirrors.console
  | load => exact mirrors.load
  | processor => exact mirrors.processor

theorem Mirrors.run (mirrors : Mirrors sha256 t r) (schedule : List Action) :
    Mirrors sha256 (t.run sha256 schedule)
      (r.run Setting.all (t.accesses sha256 schedule)) := by
  induction schedule generalizing t r with
  | nil => exact mirrors
  | cons action schedule ih =>
    have rest := ih (mirrors.step action)
    rw [accesses, Registers.run, List.foldl_append]
    exact rest

theorem boot_mirrors (faultless : w.faults = []) (init : w.init = .ok) :
    Mirrors sha256 (boot sha256 w) (.holding (Setting.stored sha256 (w.live "config"))) := by
  obtain ⟨writes, reads⟩ := Config.opened_serves faultless
  simp only [boot, Machine.boot_eq sha256 faultless init]
  exact {
    consistent := Registers.consistent_holding _ _
    ready := ⟨writes, rfl⟩
    proper := Config.proper_ofEntries _ _ _
    cells := rfl
    saves := .inl rfl
    tuple := fun busy => absurd rfl busy
    loads := by
      refine ⟨rfl, ⟨reads, rfl⟩, fun s => .inl ⟨_, List.mem_cons_self, ?_⟩, fun _ => ?_⟩
      · exact Setting.alike_of_eq (congrFun (Config.get_ofEntries _ _ _) s)
      · exact Config.get_ofEntries _ _ _ }

end Invariant

/-- What the last load has obtained. -/
def obtained (t : Tasks) : Option Config :=
  match t.loading with
  | .done c => some c
  | .call _ _ => none

end Tasks

/-- The registers after the tasks have run under a schedule, with the record of the saves. -/
def registers (sha256 : Sha256) (w : Nvs) (schedule : List Action) : Registers Setting.Carrier :=
  (Registers.holding (Setting.stored sha256 (w.live "config"))).run Setting.all
    ((Tasks.boot sha256 w).accesses sha256 schedule)

/-- Under every schedule of the single calls, each setting that a load obtained is that of the save
that was complete last when the load began, or of the initial contents, or of a save in progress
during the load; only a string may be its default instead. So a load that no save overlaps obtains
the settings of one save, or the initial contents. -/
theorem load_obtains (sha256 : Sha256) (w : Nvs) (faultless : w.faults = []) (init : w.init = .ok)
    (schedule : List Action) {c : Config}
    (obtained : ((Tasks.boot sha256 w).run sha256 schedule).obtained = some c) :
    let r := registers sha256 w schedule
    (∀ s : Setting, (∃ tuple ∈ r.sources, s.Alike (c.get s) (tuple s)) ∨
      s.Text ∧ c.get s = s.fallback sha256) ∧
    (r.overlapping = [] → c.get = r.base) ∧
    ∀ tuple ∈ r.sources, tuple = Setting.stored sha256 (w.live "config") ∨
      tuple ∈ Registers.begun ((Tasks.boot sha256 w).accesses sha256 schedule) := by
  intro r
  have mirrors : Tasks.Mirrors sha256 _ r := (Tasks.boot_mirrors faultless init).run schedule
  have loads := mirrors.loads
  unfold Tasks.obtained at obtained
  split at obtained
  · rename_i c' finished
    obtain rfl := Option.some.inj obtained
    rw [finished] at loads
    obtain ⟨-, -, each, whole⟩ := loads
    exact ⟨each, whole, Registers.sources_run _ _⟩
  · cases obtained

/-- A passphrase and a url are set and saved. -/
def saving (passphrase url : CString) : List Action :=
  [.set (some (literal "passphrase", passphrase)), .set (some (literal "peerUrl", url)), .save] ++
    .replicate 14 .console

/-- A second save is made behind so many calls of a load. -/
def overlappingSchedule (calls : Nat) : List Action :=
  saving (literal "first") (literal "http://a") ++ .load :: .replicate calls .processor ++
    saving (literal "second") (literal "http://bb") ++ .replicate (11 - calls) .processor

/-- Were the load not overlapped, it would obtain what the first save has written. -/
theorem load_obtains_sample :
    let w := sampleNvs fun _ => none
    let schedule := (overlappingSchedule 11).take 29
    ∃ c, ((Tasks.boot sampleSha256 w).run sampleSha256 schedule).obtained = some c ∧
      c.get .peerUrl = bytes "http://a" := by
  intro w schedule
  have done : ((Tasks.boot sampleSha256 w).run sampleSha256 schedule).obtained.isSome := by
    decide +kernel
  obtain ⟨c, obtained⟩ := Option.isSome_iff_exists.mp done
  have whole := (load_obtains sampleSha256 w rfl rfl schedule obtained).2.1 (by decide +kernel)
  refine ⟨c, obtained, ?_⟩
  rw [whole]
  decide +kernel

/-- Overlapped behind its third call, the load obtains the key of the first save and the peer's url
of the second. Overlapped behind its fourth, it has no url, since the new one does not fit the
buffer that was made for the old one. -/
theorem load_is_torn :
    let sha256 : Sha256 := fun text => some (.replicate 32 (text.headD 0))
    let booted := Tasks.boot sha256 (sampleNvs fun _ => none)
    let loaded := fun calls => (booted.run sha256 (overlappingSchedule calls)).obtained.map
      fun c => (c.get .key, c.get .peerUrl)
    let tuples := Setting.stored sha256 (fun _ => none) ::
      Registers.begun (booted.accesses sha256 (overlappingSchedule 3))
    loaded 3 = some (.replicate 32 102, bytes "http://bb") ∧
    loaded 4 = some (.replicate 32 102, []) ∧
    ∀ tuple ∈ tuples, loaded 3 ≠ some (tuple .key, tuple .peerUrl) ∧
      loaded 4 ≠ some (tuple .key, tuple .peerUrl) := by
  decide +kernel

end Stembot
