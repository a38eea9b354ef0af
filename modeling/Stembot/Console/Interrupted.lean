import Stembot.Console.Commands
import Stembot.Models.Persistence

/-!
# A save that is cut short

A save is fourteen calls, a write and a commit for each setting. After a reset
each setting is loaded as it was or as it was to be saved, whatever failed; where
nothing failed, the saved ones come before the others.
-/

namespace Stembot

open Library Program

/-- An entry as it was on the device before. -/
def Nvs.Old (w : Nvs) (s : Setting) (e : Option NvsValue) : Prop :=
  e = w.durable "config" s.name ∨ e = w.live "config" s.name

/-- An entry as it was on the device before, or as it is saved. -/
def Config.Mixed (c : Config) (w : Nvs) (s : Setting) (e : Option NvsValue) : Prop :=
  e = some (c.value s) ∨ w.Old s e

/-- A configuration that is constructed after a reset has each setting as it is stored. -/
theorem Nvs.Boots.create_get {sha256 : Sha256} {w w' : Nvs} (boots : w.Boots w') (s : Setting) :
    ((Config.create sha256).run Nvs.answer w').1.get s =
      s.ofEntry sha256 (w'.live "config" s.name) := by
  rw [Config.create_run boots.faultless boots.init, Config.get_ofEntries]
  rfl

/-- Every setting's entry is mixed, as it was last written and as it was last committed. -/
def Config.MixedOver (c : Config) (w d : Nvs) : Prop :=
  ∀ s : Setting, c.Mixed w s (d.live "config" s.name) ∧ c.Mixed w s (d.durable "config" s.name)

/-- The calls of a save. -/
def Config.SaveCall (c : Config) : NvsOp → Prop
  | .set _ key v => ∃ s : Setting, key = s.name ∧ v = c.value s
  | .commit _ => True
  | _ => False

section Interrupted

variable {sha256 : Sha256} {c : Config} {w : Nvs}

/-- Each write of a save puts the setting's own value under the setting's own name. -/
theorem Config.saveOne_eq (c : Config) (s : Setting) :
    ∃ size, c.saveOne s = (do let _ ← c.kvstore.put s.name (c.value s) size) := by
  cases s with
  | key =>
    refine ⟨32, ?_⟩
    have full : c.key.toList.length = 32 := c.key.toList_length
    simp [saveOne, KVStore.putBytes, full, Setting.name, value]
  | _ => exact ⟨_, rfl⟩

theorem Config.saveOne_issues (c : Config) (s : Setting) : (c.saveOne s).Issues c.SaveCall := by
  obtain ⟨size, same⟩ := c.saveOne_eq s
  rw [same]
  refine Issues.bind (Issues.unless fun _ => ?_) fun _ => issues_pure _
  refine Issues.bind (issues_issue.mpr ⟨s, rfl, rfl⟩) fun written => ?_
  split
  · exact issues_pure _
  · exact Issues.bind (issues_issue.mpr trivial) fun _ => issues_pure _

theorem cmdSave_issues (c : Config) : (cmdSave c).Issues c.SaveCall := by
  have all : ∀ todo : List Setting, (todo.forM c.saveOne).Issues c.SaveCall := by
    intro todo
    induction todo with
    | nil => exact issues_pure _
    | cons s todo ih => exact Issues.bind (c.saveOne_issues s) fun _ => ih
  rw [cmdSave, Config.save_eq]
  exact Issues.bind (all Setting.all) fun _ => issues_pure _

/-- What every call of a save keeps, also when it fails. -/
theorem Config.SaveCall.kept {op : NvsOp} (call : c.SaveCall op) {w₀ : Nvs}
    (mixed : c.MixedOver w₀ w) : c.MixedOver w₀ (Nvs.answer op w).2 := by
  have performed : ∀ w' : Nvs, w'.live = w.live → w'.durable = w.durable →
      c.MixedOver w₀ (Nvs.perform op w').2 := by
    intro w' live durable s
    cases op with
    | set h key v =>
      obtain ⟨t, rfl, rfl⟩ := call
      simp only [Nvs.perform, Nvs.write]
      split
      · rename_i name _
        refine ⟨?_, durable ▸ (mixed s).2⟩
        change c.Mixed w₀ s (Function.update w'.live name
          (Function.update (w'.live name) t.name (some (c.value t))) "config" s.name)
        rw [live]
        by_cases settings : name = "config"
        · subst settings
          rw [Function.update_self]
          by_cases same : s = t
          · subst same
            exact .inl (Function.update_self ..)
          · rw [Function.update_of_ne (Setting.name_injective.ne same)]
            exact (mixed s).1
        · rw [Function.update_of_ne (Ne.symm settings)]
          exact (mixed s).1
      · exact ⟨live ▸ (mixed s).1, durable ▸ (mixed s).2⟩
    | commit h =>
      simp only [Nvs.perform]
      split
      · exact ⟨live ▸ (mixed s).1, live ▸ (mixed s).1⟩
      · exact ⟨live ▸ (mixed s).1, durable ▸ (mixed s).2⟩
    | _ => cases call
  unfold Nvs.answer
  split
  · exact performed w rfl rfl
  · exact performed _ rfl rfl
  · exact mixed

/-- The device when a save of `c` has been cut short: some settings are saved, at most one was
written without having been committed, and the others are as they were. -/
structure Config.CutBehind (c : Config) (w w' : Nvs) (done begun : List Setting) : Prop where
  one : begun.length ≤ 1
  saved : ∀ s ∈ done, w'.live "config" s.name = some (c.value s) ∧
    w'.durable "config" s.name = some (c.value s)
  written : ∀ s ∈ begun, w'.live "config" s.name = some (c.value s) ∧
    w.Old s (w'.durable "config" s.name)
  others : ∀ s, s ∉ done → s ∉ begun →
    w'.live "config" s.name = w.live "config" s.name ∧ w.Old s (w'.durable "config" s.name)

theorem Config.cutBehind_refl (c : Config) (w : Nvs) : c.CutBehind w w [] [] :=
  ⟨Nat.zero_le 1, nofun, nofun, fun _ _ _ => ⟨rfl, .inl rfl⟩⟩

/-- The first call of a write changes the entry, the second makes it durable. -/
theorem KVStore.put_cut {kv : KVStore} {name : String} (o : w.Serves kv name)
    (writable : kv.readOnly = false) (key : String) (v : NvsValue) (size : Nat) {α : Type}
    (k : Nat → NvsProgram α) (n : Nat) :
    ((kv.put key v size >>= k).cut Nvs.answer 1 w =
      { w with live := Function.update w.live name (Function.update (w.live name) key (some v)) }) ∧
    (kv.put key v size >>= k).cut Nvs.answer (n + 2) w =
        (k size).cut Nvs.answer n (w.store name key v) := by
  have handle := o.handle
  rw [writable] at handle
  have opened : (!kv.started || kv.readOnly) = false := by simp [o.started, writable]
  have set : Nvs.answer (.set kv.handle key v) w = (true, { w with
      live := Function.update w.live name (Function.update (w.live name) key (some v)) }) := by
    rw [Nvs.answer_of_faultless o.faultless]
    simp [Nvs.perform, Nvs.write, handle]
  let written :
    Nvs :=
    { w with live := Function.update w.live name (Function.update (w.live name) key (some v)) }
  have commit : Nvs.answer (.commit kv.handle) written = (true, w.store name key v) := by
    rw [Nvs.answer_of_faultless (show written.faults = [] from o.faultless)]
    simp [Nvs.perform, written, handle, Nvs.store, Nvs.replace]
  simp only [put, opened, Bool.false_eq_true, if_false, bind_assoc, cut_issue_bind, set]
  refine ⟨cut_zero .., ?_⟩
  simp only [Bool.not_true, Bool.false_eq_true, if_false, bind_assoc, pure_bind, cut_issue_bind]
  rw [show Nvs.answer (.commit kv.handle) _ = _ from commit]

/-- After one setting was saved, its entry is the new one, and all others are what was
live before. -/
theorem Nvs.Old.of_store {s t : Setting} {v : NvsValue} {e : Option NvsValue}
    (old : (w.store "config" s.name v).Old t e) :
    e = if t = s then some v else w.live "config" t.name := by
  have written :
      Function.update w.live "config" (Function.update (w.live "config") s.name (some v))
        "config" t.name = if t = s then some v else w.live "config" t.name := by
    rw [Function.update_self]
    by_cases same : t = s
    · rw [if_pos same, same, Function.update_self]
    · rw [if_neg same, Function.update_of_ne (Setting.name_injective.ne same)]
  rcases old with durable | live
  · exact durable.trans written
  · exact live.trans written

/-- A save of these settings, cut short anywhere on a device that meets no fault. -/
theorem Config.saveAll_cut (c : Config) {todo : List Setting} (nodup : todo.Nodup)
    (o : w.Serves c.kvstore "config") (writable : c.kvstore.readOnly = false)
    {α : Type} (a : α) (n : Nat) :
    ∃ done begun after, todo = done ++ begun ++ after ∧
      c.CutBehind w ((todo.forM c.saveOne >>= fun _ => (pure a : NvsProgram α)).cut Nvs.answer n w)
        done begun := by
  induction todo generalizing w n with
  | nil => exact ⟨[], [], [], rfl, by simpa using c.cutBehind_refl w⟩
  | cons s todo ih =>
    obtain ⟨fresh, nodup⟩ := List.nodup_cons.mp nodup
    obtain ⟨size, one⟩ := c.saveOne_eq s
    have split : ((s :: todo).forM c.saveOne >>= fun _ => (pure a : NvsProgram α)) =
        c.kvstore.put s.name (c.value s) size >>= fun _ =>
          todo.forM c.saveOne >>= fun _ => (pure a : NvsProgram α) := by
      change (c.saveOne s >>= fun _ => todo.forM c.saveOne) >>= _ = _
      rw [one]
      simp only [bind_assoc, pure_bind]
    rw [split]
    match n with
    | 0 =>
      refine ⟨[], [], s :: todo, rfl, ?_⟩
      rw [cut_zero]
      exact c.cutBehind_refl w
    | 1 =>
      refine ⟨[], [s], todo, rfl, ?_⟩
      rw [(KVStore.put_cut o writable s.name (c.value s) size _ 0).1]
      refine ⟨Nat.le_refl 1, nofun, ?_, ?_⟩
      · intro t member
        obtain rfl := List.mem_singleton.mp member
        exact ⟨by simp, .inl rfl⟩
      · intro t _ other
        have ne : t ≠ s := fun same => other (List.mem_singleton.mpr same)
        exact ⟨by simp [Function.update_of_ne (Setting.name_injective.ne ne)], .inl rfl⟩
    | n + 2 =>
      rw [(KVStore.put_cut o writable s.name (c.value s) size _ n).2]
      have o' : (w.store "config" s.name (c.value s)).Serves c.kvstore "config" :=
        o.replace "config" _
      obtain ⟨done, begun, after, rfl, cut⟩ := ih nodup o' n
      have elsewhere : s ∉ done ∧ s ∉ begun := by
        constructor <;> intro member <;> exact fresh (by simp [member])
      refine ⟨s :: done, begun, after, rfl, cut.one, ?_, ?_, ?_⟩
      · intro t member
        rcases List.mem_cons.mp member with rfl | earlier
        · obtain ⟨live, durable⟩ := cut.others t elsewhere.1 elsewhere.2
          exact ⟨(Nvs.Old.of_store (.inr live)).trans (if_pos rfl),
            durable.of_store.trans (if_pos rfl)⟩
        · exact cut.saved t earlier
      · intro t member
        have ne : t ≠ s := fun same => elsewhere.2 (same ▸ member)
        obtain ⟨live, durable⟩ := cut.written t member
        exact ⟨live, .inr (durable.of_store.trans (if_neg ne))⟩
      · intro t notDone notBegun
        have ne : t ≠ s := fun same => notDone (same ▸ List.mem_cons_self)
        obtain ⟨live, durable⟩ := cut.others t
          (fun member => notDone (List.mem_cons_of_mem _ member)) notBegun
        exact ⟨(Nvs.Old.of_store (.inr live)).trans (if_neg ne),
          .inr (durable.of_store.trans (if_neg ne))⟩

/-- After the reset, the saved settings come before the others. -/
theorem Config.CutBehind.boots {d w' : Nvs} {done begun after : List Setting}
    (cut : c.CutBehind w d done begun) (boots : d.Boots w')
    (fresh : (done ++ begun ++ after).Nodup) :
    ∃ before rest, done ++ begun ++ after = before ++ rest ∧
      (∀ s ∈ before, w'.live "config" s.name = some (c.value s)) ∧
      ∀ s ∈ rest, w.Old s (w'.live "config" s.name) := by
  have saved : ∀ s ∈ done, w'.live "config" s.name = some (c.value s) := by
    intro s member
    obtain ⟨live, durable⟩ := cut.saved s member
    exact boots.either (P := (· = some (c.value s))) durable live
  have others : ∀ s, s ∉ done → s ∉ begun → w.Old s (w'.live "config" s.name) := by
    intro s notDone notBegun
    obtain ⟨same, old⟩ := cut.others s notDone notBegun
    exact boots.either old (.inr same)
  have untouched : ∀ s ∈ after, s ∉ done ∧ s ∉ begun := by
    intro s member
    have apart := List.disjoint_of_nodup_append fresh
    constructor <;> intro earlier <;> exact apart (by simp [earlier]) member
  have behind : ∀ s ∈ after, w.Old s (w'.live "config" s.name) :=
    fun s member => others s (untouched s member).1 (untouched s member).2
  match begun with
  | [] => exact ⟨done, after, by rw [List.append_nil], saved, behind⟩
  | [t] =>
    obtain ⟨written, old⟩ := cut.written t List.mem_cons_self
    rcases boots.entries "config" t.name with durable | live
    · refine ⟨done, t :: after, by simp, saved, ?_⟩
      intro s member
      rcases List.mem_cons.mp member with rfl | later
      · exact durable ▸ old
      · exact behind s later
    · refine ⟨done ++ [t], after, rfl, ?_, behind⟩
      intro s member
      rcases List.mem_append.mp member with earlier | here
      · exact saved s earlier
      · rw [List.mem_singleton.mp here]
        exact live.trans written
  | _ :: _ :: _ => exact absurd cut.one (by simp)

end Interrupted

/-- A save may be cut short after any of its calls, and any of them may fail: after the reset each
setting is loaded as it was to be saved, or as it was before. Where nothing fails before the cut,
the saved settings are the first ones; where nothing fails and nothing is cut, all are saved, and
the command's exit status is zero. -/
theorem interrupted_save {sha256 : Sha256} {c : Config} {w w' : Nvs} {n : Nat}
    (boots : ((cmdSave c).cut Nvs.answer n w).Boots w') :
    let loaded := ((Config.create sha256).run Nvs.answer w').1
    let Saved (s : Setting) := loaded.get s = (c.asSaved sha256).get s
    let Kept (s : Setting) := loaded.get s = s.stored sha256 (w.durable "config") ∨
      loaded.get s = s.stored sha256 (w.live "config")
    (∀ s, Saved s ∨ Kept s) ∧ (c.Plain → (c.asSaved sha256).Same c) ∧
    (w.Serves c.kvstore "config" → c.kvstore.readOnly = false →
      ∃ before rest, Setting.all = before ++ rest ∧ (∀ s ∈ before, Saved s) ∧ ∀ s ∈ rest, Kept s) ∧
    (w.Serves c.kvstore "config" → c.kvstore.readOnly = false →
      ((cmdSave c).run Nvs.answer w).1 = 0 ∧
      ∀ w₂, ((cmdSave c).run Nvs.answer w).2.Boots w₂ →
        ((Config.create sha256).run Nvs.answer w₂).1.get = (c.asSaved sha256).get) := by
  intro loaded Saved Kept
  have fields : ∀ s, loaded.get s = s.ofEntry sha256 (w'.live "config" s.name) := boots.create_get
  have saved : ∀ s, w'.live "config" s.name = some (c.value s) → Saved s := by
    intro s entry
    change loaded.get s = _
    rw [fields, entry, Config.asSaved_get]
  have kept : ∀ s, w.Old s (w'.live "config" s.name) → Kept s := by
    intro s old
    rcases old with durable | live
    · exact .inl ((fields s).trans (congrArg (s.ofEntry sha256) durable))
    · exact .inr ((fields s).trans (congrArg (s.ofEntry sha256) live))
  refine ⟨?_, fun plain => plain.asSaved_same sha256, ?_, ?_⟩
  · intro s
    have mixed : c.MixedOver w ((cmdSave c).cut Nvs.answer n w) :=
      (cmdSave_issues c).cut (fun _ _ call => call.kept) n fun _ =>
      ⟨.inr (.inr rfl), .inr (.inl rfl)⟩
    have entry : c.Mixed w s (w'.live "config" s.name) := boots.either (mixed s).2 (mixed s).1
    exact entry.imp (saved s) (kept s)
  · intro serves writable
    obtain ⟨done, begun, after, all, cut⟩ := c.saveAll_cut Setting.all_nodup serves writable 0 n
    have program : cmdSave c = Setting.all.forM c.saveOne >>= fun _ => pure 0 := by
      rw [cmdSave, Config.save_eq]
    rw [← program] at cut
    obtain ⟨before, rest, split, first, last⟩ := cut.boots boots (all ▸ Setting.all_nodup)
    exact ⟨before, rest, all.trans split, fun s member => saved s (first s member), fun s member =>
      kept s (last s member)⟩
  · intro serves writable
    have ran : (cmdSave c).run Nvs.answer w =
        (0, w.replace "config" (c.entries (w.live "config"))) := by
      rw [cmdSave, Program.run_bind, Config.save_run serves writable]
      rfl
    rw [ran]
    refine ⟨rfl, fun w₂ boots₂ => funext fun s => ?_⟩
    have entry : w₂.live "config" s.name = some (c.value s) := by
      have written : c.entries (w.live "config") s.name = some (c.value s) := by
        rw [Config.entries_eq_foldl, Config.foldl_write_name, if_pos s.mem_all]
      have replaced := (congrFun (Nvs.replace_live_self w "config" _) s.name).trans written
      exact boots₂.either (P := (· = some (c.value s))) replaced replaced
    rw [boots₂.create_get, Config.asSaved_get, entry]

/-- A configuration whose store is open. -/
def sampleSettings (key : UInt8) (peerUrl : String) : Config :=
  { Config.blank with
    key := .replicate 32 key
    peerUrl := bytes peerUrl
    kvstore := { handle := 1, started := true } }

/-- A device that holds other settings. -/
def sampleDevice (faults : List Bool) : Nvs :=
  let es := (sampleSettings 1 "a").entries fun _ => none
  { live := fun _ => es, durable := fun _ => es, opened := 1, init := .ok, faults
    handles := fun h => if h = 1 then some ("config", false) else none }

/-- What is loaded after a save that was cut short after `n` calls. -/
def sampleLoad (n : Nat) (faults : List Bool) : Config :=
  let saved := (cmdSave (sampleSettings 2 "b")).cut Nvs.answer n (sampleDevice faults)
  ((Config.create fun _ => none).run Nvs.answer (Config.restarted saved)).1

theorem interrupted_save_sample :
    ∃ before rest, Setting.all = before ++ rest ∧
      (∀ s ∈ before, (sampleLoad 4 []).get s =
        ((sampleSettings 2 "b").asSaved fun _ => none).get s) ∧
      ∀ s ∈ rest, (sampleLoad 4 []).get s =
        s.stored (fun _ => none) ((sampleDevice []).durable "config") ∨
        (sampleLoad 4 []).get s = s.stored (fun _ => none) ((sampleDevice []).live "config") := by
  let saved := (cmdSave (sampleSettings 2 "b")).cut Nvs.answer 4 (sampleDevice [])
  obtain ⟨-, -, ordered, -⟩ := @interrupted_save (fun _ => none) _ _ _ _
    (Config.boots_restarted saved)
  exact ordered ⟨rfl, rfl, rfl⟩ rfl

/-- A reset behind the fourth call leaves the new key with the old url. A save that does nothing,
since every call fails, ends with status zero. -/
theorem save_is_not_atomic :
    (sampleLoad 4 []).key = .replicate 32 2 ∧ (sampleLoad 4 []).peerUrl = bytes "a" ∧
    ((cmdSave (sampleSettings 2 "b")).run Nvs.answer (sampleDevice (List.replicate 7 true))).1 = 0 ∧
    (sampleLoad 14 (List.replicate 7 true)).key = .replicate 32 1 := by
  decide +kernel

end Stembot
