import Stembot.Console.Operator
import Stembot.Processor.World

/-!
# What the operator sets is what the processor uses

The device with its two configurations follows the operator's tables command by
command, and a reload gives the processor what was saved, up to the one place
where a buffer is too small.
-/

namespace Stembot

open Library

/-- The device as the operator's tables say it is, for the entries stored at the start. -/
structure Follows (sha : Bytes → Key) (atStart : Entries) (m : Machine) (op : Operator) : Prop where
  writes : m.nvs.Serves m.console.kvstore "config"
  writable : m.console.kvstore.readOnly = false
  proper : m.console.Proper
  current : m.console.get = op.current.held sha atStart
  reads : m.nvs.Serves m.processor.config.kvstore "config"
  ticks : m.processor.config.pollTicks = 100
  saved : Setting.stored (hashing sha) (m.nvs.live "config") = op.saved.held sha atStart

section Runs

variable (sha : Bytes → Key) {w : Nvs}

theorem boot_follows (faultless : w.faults = []) (init : w.init = .ok) :
    Follows sha (w.live "config") (Machine.boot (hashing sha) w) {} := by
  obtain ⟨writes, reads⟩ := Config.opened_serves faultless
  rw [Machine.boot_eq _ faultless init]
  exact {
    writes
    writable := rfl
    proper := Config.proper_ofEntries _ _ _
    current := Config.get_ofEntries _ _ _
    reads
    ticks := rfl
    saved := rfl }

theorem step_follows {atStart : Entries} {m : Machine} {op : Operator}
    (follows : Follows sha atStart m op) (command : Command) :
    Follows sha atStart (m.step (hashing sha) command) (op.step sha command) := by
  cases command with
  | set args =>
    have outcome := cmdSet_cases (hashing sha) m.console op.current args
    rw [setKeyWithPassphrase_hashing] at outcome
    rcases outcome with ⟨rejected, same⟩ | ⟨s, v, recorded, put⟩
    · simp only [Machine.step, Operator.step, rejected, same]
      exact follows
    · simp only [Machine.step, Operator.step, recorded, put]
      exact { follows with
        writes := by simpa using follows.writes
        writable := by simpa using follows.writable
        proper := proper_assign follows.proper s v
        current := by
          simp only [Config.get_assign, follows.current, Option.getD_some, Requests.held_update] }
  | save =>
    simp only [Machine.step, Operator.step, cmdSave, Program.run_bind,
      Config.save_run follows.writes follows.writable]
    exact { follows with
      writes := follows.writes.replace _ _
      reads := follows.reads.replace _ _
      saved := by
        simp only [Program.run_pure, Nvs.replace_live_self, follows.proper.stored_entries,
          follows.current] }
  | reload =>
    simp only [Machine.step, Operator.step, refresh, Program.run_bind,
      Config.load_run follows.reads]
    exact { follows with reads := follows.reads, ticks := follows.ticks }

theorem run_follows (faultless : w.faults = []) (init : w.init = .ok) (commands : List Command) :
    Follows sha (w.live "config")
      ((Machine.boot (hashing sha) w).run (hashing sha) commands)
      (Operator.run sha {} commands) :=
  List.foldl_rel (boot_follows sha faultless init) fun command _ _ _ follows =>
    step_follows sha follows command

/-- Whatever happens without a `save`, the next reload gives the same. -/
theorem run_unsaved {atStart : Entries} {m : Machine} {op : Operator}
    (follows : Follows sha atStart m op) {later : List Command} (unsaved : ∀ c ∈ later, c ≠ .save) :
    ((m.run (hashing sha) later).step (hashing sha) .reload).processor =
      (m.step (hashing sha) .reload).processor := by
  induction later generalizing m op with
  | nil => rfl
  | cons command later ih =>
    have rest : ∀ c ∈ later, c ≠ .save := fun c member => unsaved c (List.mem_cons_of_mem _ member)
    refine (ih (step_follows sha follows command) rest).trans ?_
    cases command with
    | set args => rfl
    | save => exact absurd rfl (unsaved .save List.mem_cons_self)
    | reload =>
      have again := (step_follows sha follows .reload).reads
      simp only [Machine.step, refresh, Program.run_bind, Program.run_pure,
        Config.load_run follows.reads]
        at again ⊢
      rw [Config.load_run again]
      rfl

end Runs

namespace Requests

variable (sha : Bytes → Key) (stored : Entries) (r : Requests)

theorem inUse_url : (r.inUse sha stored).url = r.held sha stored .peerUrl := by
  simp only [inUse, held]
  cases r .peerUrl <;> rfl

theorem inUse_key : (r.inUse sha stored).key = r.held sha stored .key := by
  simp only [inUse, held]
  cases r .key <;> rfl

theorem inUse_polling : (r.inUse sha stored).polling = r.held sha stored .polling := by
  simp only [inUse, held]
  cases r .polling <;> rfl

theorem inUse_debug : (r.inUse sha stored).debug = r.held sha stored .debug := by
  simp only [inUse, held]
  cases r .debug <;> rfl

theorem inUse_agtuuid_iff :
    cstr ((r.held sha stored .agtuuid).toList ++ r.behind sha stored) =
      (r.inUse sha stored).agtuuid ↔
      r.Fits sha stored := by
  simp only [Fits, held]
  cases given : r .agtuuid with
  | some v =>
    have whole : cstr (v.1.take 35) = v.1.take 35 :=
      cstr_of_notMem fun h => v.2 (List.mem_of_mem_take h)
    have short : (cstr (v.1.take 35)).length < 36 := by
      rw [whole, List.length_take]
      omega
    simp only [Option.elim, Setting.kept, inUse, given, Option.map_some, Option.getD_some,
      cstr_strncpySizeof_of_lt _ _ short, whole]
    exact List.take_eq_self_iff v.1
  | none =>
    simp only [Option.elim, inUse, given, Option.map_none, Option.getD_none]
    change cstr ((strncpySizeof (.replicate 36 0) (Entries.string (stored "agtuuid")
      Config.defaultUuid)).toList ++ r.behind sha stored) = Config.storedUuid stored ↔ _
    rcases Nat.lt_or_ge (Config.storedUuid stored).length 36 with short | long
    · rw [cstr_strncpySizeof_of_lt _ _ short]
      exact iff_of_true rfl (.inl short)
    · rw [cstr_strncpySizeof_of_le _ _ long, or_iff_right (not_lt.mpr long)]
      change (Config.storedUuid stored).take 36 ++ _ = _ ↔ _
      constructor
      · intro same
        exact (List.append_cancel_left (same.trans (List.take_append_drop 36 _).symm)).symm
      · intro rest
        rw [← rest, List.take_append_drop]

theorem inUse_eq :
    r.inUse sha stored =
      { url := r.held sha stored .peerUrl
        agtuuid := (r.inUse sha stored).agtuuid
        key := r.held sha stored .key
        polling := r.held sha stored .polling
        debug := r.held sha stored .debug } := by
  rw [← inUse_url, ← inUse_key, ← inUse_polling, ← inUse_debug]

end Requests

/-- A reload gives the processor what was saved, as the code holds it. -/
theorem reload_holds {sha : Bytes → Key} {stored : Entries} {m : Machine} {op : Operator}
    (follows : Follows sha stored m op) :
    (m.step (hashing sha) .reload).processor.inUse =
      { url := op.saved.held sha stored .peerUrl
        agtuuid := cstr ((op.saved.held sha stored .agtuuid).toList ++ op.saved.behind sha stored)
        key := op.saved.held sha stored .key
        polling := op.saved.held sha stored .polling
        debug := op.saved.held sha stored .debug } := by
  have loaded : ∀ s, Setting.stored (hashing sha) (m.nvs.live "config") s =
      op.saved.held sha stored s := congrFun follows.saved
  simp only [Machine.step, refresh, Program.run_bind, Program.run_pure,
    Config.load_run follows.reads, Task.inUse]
  rw [← loaded .peerUrl, ← loaded .agtuuid, ← loaded .key, ← loaded .polling, ← loaded .debug]
  simp only [Config.uuid, Config.behind, Requests.behind, Requests.inUse_key,
    Requests.inUse_polling, Requests.inUse_debug]
  rw [← loaded .key, ← loaded .polling, ← loaded .debug, ← follows.ticks]
  rfl

theorem reload_inUse_iff {sha : Bytes → Key} {stored : Entries} {m : Machine} {op : Operator}
    (follows : Follows sha stored m op) :
    (m.step (hashing sha) .reload).processor.inUse = op.saved.inUse sha stored ↔
      op.saved.Fits sha stored := by
  rw [reload_holds follows, Requests.inUse_eq]
  simp only [InUse.mk.injEq, true_and, and_true]
  exact Requests.inUse_agtuuid_iff sha stored op.saved

/-- A `set` that returns 1 leaves the console's configuration as it is. -/
theorem cmdSet_rejected (sha : Bytes → Key) (c : Config) {args : Option (CString × CString)}
    (rejected : (cmdSet (hashing sha) c args).1 = 1) :
    (cmdSet (hashing sha) c args).2 = c := by
  rcases cmdSet_cases (hashing sha) c (fun _ => none) args with ⟨-, same⟩ | ⟨s, v, -, put⟩
  · rw [same]
  · simp [put] at rejected

/-- After every sequence of commands, a reload gives the processor what had been given to `set` when
the settings were last saved exactly if the agent uuid fits. Nothing after the `save` changes this,
nor does anything but a reload change what the processor uses, and a `set` that returns 1 leaves the
device as it is. -/
theorem reload_uses_saved_iff (sha : Bytes → Key) (w : Nvs) (faultless : w.faults = [])
    (init : w.init = .ok) (commands : List Command) :
    let sha256 : Sha256 := hashing sha
    let after := (Machine.boot sha256 w).run sha256
    let saved := (Operator.run sha {} commands).saved
    ((after (commands ++ [.reload])).processor.inUse = saved.inUse sha (w.live "config") ↔
        saved.Fits sha (w.live "config")) ∧
      (∀ later, (∀ c ∈ later, c ≠ .save) →
        (after (commands ++ later ++ [.reload])).processor =
        (after (commands ++ [.reload])).processor) ∧
      (∀ later, (∀ c ∈ later, c ≠ .reload) →
        (after (commands ++ later)).processor = (after commands).processor) ∧
      ∀ args, (cmdSet sha256 (after commands).console args).1 = 1 →
        after (commands ++ [.set args]) = after commands := by
  intro sha256 after saved
  have follows := run_follows sha faultless init commands
  simp only [after, Machine.run_append, Machine.run_singleton]
  refine ⟨reload_inUse_iff follows, ?_, ?_, ?_⟩
  · intro later unsaved
    exact run_unsaved sha follows unsaved
  · intro later unloaded
    exact Machine.run_processor sha256 _ unloaded
  · intro args rejected
    simp only [Machine.step, sha256, cmdSet_rejected sha _ rejected]

/-- Settings stored before, and two that are given and saved. -/
theorem reload_uses_saved_sample :
    let sha256 : Sha256 := hashing fun _ => sampleKey
    let commands : List Command :=
      [.set (some (literal "peerUrl", literal "http://peer")),
        .set (some (literal "polling", literal "true")), .save,
        .set (some (literal "polling", literal "maybe"))]
    let stored := sampleEntries (literal "agent") sampleKey
    (((Machine.boot sha256 (sampleNvs stored)).run sha256 (commands ++ [.reload])).processor.inUse =
      { url := bytes "http://peer", agtuuid := bytes "agent", key := sampleKey, polling := true,
        debug := false }) := by
  intro sha256 commands stored
  refine ((reload_uses_saved_iff (fun _ => sampleKey) (sampleNvs stored) rfl rfl commands).1.mpr
    ?_).trans ?_
  · decide +kernel
  · decide +kernel

/-- A UUID that is given in full loses its last character. -/
theorem full_uuid_is_cut :
    let sha256 : Sha256 := hashing fun _ => sampleKey
    let uuid := literal "00000000-0000-0000-0000-000000000001"
    let commands : List Command := [.set (some (literal "agtuuid", uuid)), .save, .reload]
    uuid.1.length = 36 ∧
      ((Machine.boot sha256 (sampleNvs fun _ => none)).run sha256
        commands).processor.inUse.agtuuid =
        uuid.1.take 35 ∧ uuid.1.take 35 ≠ uuid.1 := by
  decide +kernel

end Stembot
