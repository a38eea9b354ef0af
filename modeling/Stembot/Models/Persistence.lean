import Mathlib.Logic.Relation
import Stembot.Models.Settings

/-!
# Saving and loading again

The strings of a configuration end at the first zero, so what is saved of it is
what would be saved of a padded one. Nothing that happens after a save, short of
an edit, changes what is loaded.
-/

namespace Stembot

open Library

namespace Config

/-- No string goes on behind a zero. -/
structure Plain (c : Config) : Prop where
  peerUrl : 0 ∉ c.peerUrl
  wifiSSID : 0 ∉ c.wifiSSID
  wifiPassword : 0 ∉ c.wifiPassword

/-- The same in all seven fields; the agent uuid is compared up to the first zero, or in full. -/
structure Same (c c' : Config) : Prop where
  agtuuid : cstr c.agtuuid.toList = cstr c'.agtuuid.toList
  key : c.key = c'.key
  peerUrl : c.peerUrl = c'.peerUrl
  wifiSSID : c.wifiSSID = c'.wifiSSID
  wifiPassword : c.wifiPassword = c'.wifiPassword
  debug : c.debug = c'.debug
  polling : c.polling = c'.polling

/-- The configuration with its agent uuid padded with zeros. -/
def padded (c : Config) : Config :=
  { c with agtuuid := strncpySizeof (.replicate 36 0) c.agtuuid.toList }

section Same

variable {c c' : Config} {sha256 : Sha256} {es : Entries}

theorem Same.refl (c : Config) : c.Same c := ⟨rfl, rfl, rfl, rfl, rfl, rfl, rfl⟩

theorem padded_same (c : Config) : c.padded.Same c where
  agtuuid := by
    have reads := cstr_strncpySizeof_self (.replicate 36 0) c.agtuuid []
    rwa [List.append_nil, List.append_nil] at reads
  key := rfl
  peerUrl := rfl
  wifiSSID := rfl
  wifiPassword := rfl
  debug := rfl
  polling := rfl

theorem Same.padded_get (same : c.Same c') : c.padded.get = c'.padded.get := by
  funext s
  cases s with
  | agtuuid => exact strncpySizeof_congr same.agtuuid
  | key => exact same.key
  | peerUrl => exact same.peerUrl
  | wifiSSID => exact same.wifiSSID
  | wifiPassword => exact same.wifiPassword
  | debug => exact same.debug
  | polling => exact same.polling

/-- A configuration whose fields are those of the padded one. -/
theorem same_of_get (fields : c.get = c'.padded.get) : c.Same c' where
  agtuuid := by
    rw [← (padded_same c').agtuuid]
    exact congrArg (fun v : List.Vector UInt8 36 => cstr v.toList) (congrFun fields .agtuuid)
  key := congrFun fields .key
  peerUrl := congrFun fields .peerUrl
  wifiSSID := congrFun fields .wifiSSID
  wifiPassword := congrFun fields .wifiPassword
  debug := congrFun fields .debug
  polling := congrFun fields .polling

theorem Same.plain (same : c.Same c') (plain : c'.Plain) : c.Plain :=
  ⟨same.peerUrl ▸ plain.peerUrl, same.wifiSSID ▸ plain.wifiSSID,
    same.wifiPassword ▸ plain.wifiPassword⟩

/-- What is saved, the over-read of the agent uuid included, depends on the fields only. -/
theorem Same.value (same : c.Same c') (ticks : c.pollTicks = c'.pollTicks) :
    c.value = c'.value := by
  have behind : c.behind = c'.behind := by
    rw [Config.behind, Config.behind, same.key, same.debug, same.polling, ticks]
  funext s
  cases s with
  | agtuuid =>
    refine congrArg NvsValue.str (Subtype.ext ?_)
    change cstr (c.agtuuid.toList ++ c.behind) = cstr (c'.agtuuid.toList ++ c'.behind)
    rw [← cstr_strncpySizeof_self (.replicate 36 0) c.agtuuid, strncpySizeof_congr same.agtuuid,
      cstr_strncpySizeof_self, behind]
  | key => exact congrArg (fun key : Key => NvsValue.blob key.toList) same.key
  | peerUrl => exact congrArg (NvsValue.str ∘ terminated) same.peerUrl
  | wifiSSID => exact congrArg (NvsValue.str ∘ terminated) same.wifiSSID
  | wifiPassword => exact congrArg (NvsValue.str ∘ terminated) same.wifiPassword
  | debug => exact congrArg (NvsValue.scalar .u8 ∘ flag) same.debug
  | polling => exact congrArg (NvsValue.scalar .u8 ∘ flag) same.polling

theorem Plain.stored_entries (plain : c.Plain) (sha256 : Sha256) (es : Entries) :
    Setting.stored sha256 (c.entries es) = c.padded.get := by
  have proper : c.padded.Proper := ⟨⟨_, rfl⟩, plain.peerUrl, plain.wifiSSID, plain.wifiPassword⟩
  have written : c.padded.write = c.write := by
    funext es s
    rw [write, write, (padded_same c).value rfl]
  rw [← proper.stored_entries sha256 es, entries_eq_foldl, entries_eq_foldl, written]

/-- A save writes the entries of the seven settings. -/
theorem foldl_write_name (c : Config) (todo : List Setting) (es : Entries) (s : Setting) :
    todo.foldl c.write es s.name = if s ∈ todo then some (c.value s) else es s.name := by
  induction todo generalizing es with
  | nil => simp
  | cons s' todo ih =>
    rw [List.foldl_cons, ih]
    by_cases later : s ∈ todo
    · simp [later]
    · by_cases first : s = s'
      · simp [first, write]
      · simp [later, first, write, Function.update_of_ne (Setting.name_injective.ne first)]

/-- A save leaves all other entries alone. -/
theorem foldl_write_other (c : Config) (todo : List Setting) (es : Entries) {key : String}
    (other : ∀ s : Setting, key ≠ s.name) : todo.foldl c.write es key = es key := by
  induction todo generalizing es with
  | nil => rfl
  | cons s' todo ih => rw [List.foldl_cons, ih, write, Function.update_of_ne (other s')]

/-- Saving the same values again changes no entry. -/
theorem entries_entries (value : c.value = c'.value) (es : Entries) :
    c.entries (c'.entries es) = c'.entries es := by
  rw [entries_eq_foldl, entries_eq_foldl]
  funext key
  by_cases named : ∃ s : Setting, key = s.name
  · obtain ⟨s, rfl⟩ := named
    rw [foldl_write_name, foldl_write_name, if_pos s.mem_all, if_pos s.mem_all, value]
  · exact foldl_write_other c _ _ (not_exists.mp named)

end Same

/-- The configuration that a load gives after an undisturbed save. -/
def asSaved (sha256 : Sha256) (c : Config) : Config := c.ofEntries sha256 (c.entries fun _ => none)

theorem asSaved_get (sha256 : Sha256) (c : Config) (s : Setting) :
    (c.asSaved sha256).get s = s.ofEntry sha256 (some (c.value s)) := by
  rw [asSaved, get_ofEntries, Setting.stored, entries_eq_foldl, foldl_write_name, if_pos s.mem_all]

/-- A plain configuration is what is loaded after it was saved. -/
theorem Plain.asSaved_same {c : Config} (plain : c.Plain) (sha256 : Sha256) :
    (c.asSaved sha256).Same c := by
  refine same_of_get ?_
  rw [asSaved, get_ofEntries, plain.stored_entries]

/-- What can happen to a configuration in memory, and to the device, when nobody edits it: it
is saved; an object that holds its store open is reloaded; or one is constructed, possibly
after a reset. -/
inductive Persists (sha256 : Sha256) : Config × Nvs → Config × Nvs → Prop
  | save (c : Config) (w : Nvs) : Persists sha256 (c, w) (c, (c.save.run Nvs.answer w).2)
  | load {c c₂ : Config} {w : Nvs} : w.Serves c₂.kvstore "config" → c₂.kvstore.readOnly = false →
      c₂.pollTicks = c.pollTicks → Persists sha256 (c, w) ((c₂.load sha256).run Nvs.answer w)
  | create (c : Config) (w : Nvs) : Persists sha256 (c, w) ((create sha256).run Nvs.answer w)
  | boot {c : Config} {w w' : Nvs} :
  w.Boots w' → Persists sha256 (c, w) ((create sha256).run Nvs.answer w')

/-- What is kept after a save of `c` over the entries `es`. -/
structure Kept (sha256 : Sha256) (c : Config) (es : Entries) (c' : Config) (w : Nvs) : Prop where
  serves : w.Serves c'.kvstore "config"
  writable : c'.kvstore.readOnly = false
  init : w.init = .ok
  same : c'.Same c
  stored : Setting.stored sha256 (w.live "config") = c.padded.get
  durable : w.durable "config" = w.live "config"
  entries : c.pollTicks = 100 → c'.pollTicks = 100 ∧ w.live "config" = c.entries es

section Kept

variable {sha256 : Sha256} {c c' : Config} {es : Entries} {w w' : Nvs}

theorem Kept.save (plain : c.Plain) (kept : Kept sha256 c es c' w) :
    Kept sha256 c es c' (c'.save.run Nvs.answer w).2 := by
  rw [save_run kept.serves kept.writable]
  have stored : Setting.stored sha256 (c'.entries (w.live "config")) = c.padded.get := by
    rw [(kept.same.plain plain).stored_entries, kept.same.padded_get]
  refine ⟨kept.serves.replace "config" _, kept.writable, kept.init, kept.same, ?_,
    rfl, fun ticks => ?_⟩
  · rw [Nvs.replace_live_self, stored]
  · obtain ⟨ticks', live⟩ := kept.entries ticks
    refine ⟨ticks', ?_⟩
    rw [Nvs.replace_live_self, live]
    exact entries_entries (kept.same.value (ticks'.trans ticks.symm)) es

/-- What is read out of kept entries is kept. -/
theorem Kept.ofEntries (kept : Kept sha256 c es c' w) {c₂ : Config}
    (serves : w.Serves c₂.kvstore "config") (writable : c₂.kvstore.readOnly = false)
    (ticks : c.pollTicks = 100 → c₂.pollTicks = 100) :
    Kept sha256 c es (c₂.ofEntries sha256 (w.live "config")) w where
  serves := serves
  writable := writable
  init := kept.init
  same := same_of_get ((get_ofEntries sha256 _ c₂).trans kept.stored)
  stored := kept.stored
  durable := kept.durable
  entries is100 := ⟨ticks is100, (kept.entries is100).2⟩

/-- A configuration constructed over kept entries. -/
theorem kept_create (stored : Setting.stored sha256 (w.live "config") = c.padded.get)
    (durable : w.durable "config" = w.live "config")
    (entries : c.pollTicks = 100 → w.live "config" = c.entries es) (faultless : w.faults = [])
    (init : w.init = .ok) :
    Kept sha256 c es ((create sha256).run Nvs.answer w).1 ((create sha256).run Nvs.answer w).2 := by
  rw [create_run faultless init]
  exact
    { serves := ⟨faultless, rfl, by simp [ofEntries, opened]⟩
      writable := rfl
      init
      same := same_of_get ((get_ofEntries sha256 _ _).trans stored)
      stored
      durable
      entries := fun is100 => ⟨rfl, entries is100⟩ }

theorem Kept.step (plain : c.Plain) (kept : Kept sha256 c es c' w) {after : Config × Nvs}
    (step : Persists sha256 (c', w) after) : Kept sha256 c es after.1 after.2 := by
  cases step with
  | save => exact kept.save plain
  | load serves writable ticks =>
    rw [load_run serves]
    exact kept.ofEntries serves writable fun is100 => ticks.trans (kept.entries is100).1
  | create =>
    exact kept_create kept.stored kept.durable (fun is100 => (kept.entries is100).2)
      kept.serves.faultless kept.init
  | @boot _ _ w' boots =>
    have live : w'.live "config" = w.live "config" := by
      funext key
      exact boots.either (P := (· = w.live "config" key)) (congrFun kept.durable key) rfl
    refine kept_create ?_ (congrFun boots.durable "config") ?_ boots.faultless boots.init
    · rw [live, kept.stored]
    · rw [live]
      exact fun is100 => (kept.entries is100).2

end Kept

/-- After a save, whatever the device held before: any number of further saves, reloads,
constructions and resets, in any order, leaves the seven fields as they were saved, all entries
durable, and the entries as the first save left them. A stored key of any other length than 32 gives
the default key in full. -/
theorem persistence_round_trip {sha256 : Sha256} {c : Config} {w : Nvs} {after : Config × Nvs}
    (serves : w.Serves c.kvstore "config") (writable : c.kvstore.readOnly = false)
    (init : w.init = .ok) (plain : c.Plain)
    (steps : Relation.ReflTransGen (Persists sha256) (c, (c.save.run Nvs.answer w).2) after) :
    after.1.Same c ∧ after.2.durable "config" = after.2.live "config" ∧
    (c.pollTicks = 100 → after.2.live "config" = c.entries (w.live "config")) ∧
    ∀ (c₂ : Config) (w₂ : Nvs) (b : Bytes), w₂.live "config" "key" = some (.blob b) →
      b.length ≠ 32 →
      (w₂.Serves c₂.kvstore "config" → ((c₂.load sha256).run Nvs.answer w₂).1.key =
        defaultKey sha256) ∧
      (w₂.faults = [] → w₂.init = .ok → ((create sha256).run Nvs.answer w₂).1.key =
        defaultKey sha256) := by
  have saved : Kept sha256 c (w.live "config") c (c.save.run Nvs.answer w).2 := by
    rw [save_run serves writable]
    exact
      { serves := serves.replace "config" _
        writable
        init
        same := .refl c
        stored := by rw [Nvs.replace_live_self, plain.stored_entries]
        durable := rfl
        entries := fun is100 => ⟨is100, Nvs.replace_live_self w "config" _⟩ }
  have kept : Kept sha256 c (w.live "config") after.1 after.2 := by
    induction steps with
    | refl => exact saved
    | tail _ step ih => exact ih.step plain step
  refine ⟨kept.same, kept.durable, fun is100 => (kept.entries is100).2, ?_⟩
  intro c₂ w₂ b stored short
  have default : loadedKey sha256 (w₂.live "config" "key") = defaultKey sha256 := by
    rw [stored]
    exact dif_neg short
  constructor
  · intro serves₂
    rw [load_run serves₂]
    exact default
  · intro faultless init₂
    rw [create_run faultless init₂]
    exact default

/-- A device on which everything written has survived the reset. -/
def restarted (w : Nvs) : Nvs where
  live := w.live
  durable := w.live
  handles _ := none
  opened := 0
  init := .ok
  faults := []

theorem boots_restarted (w : Nvs) : w.Boots (restarted w) := ⟨fun _ _ => .inr rfl, rfl, rfl, rfl⟩

/-- An agent uuid that fills its buffer is saved, and loaded after a reset. -/
theorem persistence_round_trip_sample :
    let c : Config := { blank with
      agtuuid := .replicate 36 0x61, key := .replicate 32 7, kvstore :=
        { handle := 1, started := true } }
    let w : Nvs :=
      { live := fun _ _ => none, durable := fun _ _ => none, opened := 1, init := .ok, faults := []
        handles := fun h => if h = 1 then some ("config", false) else none }
    ((create fun _ => none).run Nvs.answer (restarted (c.save.run Nvs.answer w).2)).1.Same c := by
  intro c w
  have plain : c.Plain := ⟨List.not_mem_nil, List.not_mem_nil, List.not_mem_nil⟩
  have serves : w.Serves c.kvstore "config" := ⟨rfl, rfl, rfl⟩
  have boot : Persists (fun _ => none) (c, (c.save.run Nvs.answer w).2)
      ((create fun _ => none).run Nvs.answer (restarted (c.save.run Nvs.answer w).2)) :=
    .boot (boots_restarted _)
  exact (persistence_round_trip serves rfl rfl plain (.single boot)).1

end Config

end Stembot
