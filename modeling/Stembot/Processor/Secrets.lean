import Stembot.Models.Settings
import Stembot.Models.TextLibrary
import Stembot.Processor.SideBySide

/-!
# The key is not spoken, unless it is in reach

Two devices whose storage differs in the secrets alone post the same texts, as
long as a read of the agent uuid stops before it gets to a byte of the key that
differs. A uuid of 36 bytes does not stop there.
-/

namespace Stembot

open Library Program

/-- The contents differ in the key and the Wi-Fi password at most. -/
def SameButSecrets (es es' : Entries) : Prop :=
  ∀ key, key ≠ "key" → key ≠ "wifi_password" → es key = es' key

/-- A read of the uuid does not tell the two contents apart: it ends inside the buffer, or what
lies behind the buffer reads the same. -/
def OutOfReach (sha256 : Sha256) (es es' : Entries) : Prop :=
  (Config.storedUuid es).length < 36 ∨
    cstr (Config.blank.ofEntries sha256 es).behind = cstr (Config.blank.ofEntries sha256 es').behind

/-- The stored polling flag. -/
def Polls (es : Entries) : Prop := Entries.bool (es "polling") false = true

section Loaded

variable {sha256 : Sha256} {es es' : Entries} (same : SameButSecrets es es')
include same

theorem ofEntries_uuid (guarded : OutOfReach sha256 es es') {c c' : Config}
    (ticks : c.pollTicks = Config.blank.pollTicks)
    (ticks' : c'.pollTicks = Config.blank.pollTicks) :
    (c.ofEntries sha256 es).uuid = (c'.ofEntries sha256 es').uuid := by
  have stored : Config.storedUuid es' = Config.storedUuid es := by
    rw [Config.storedUuid, Config.storedUuid, same "agtuuid" (by decide) (by decide)]
  by_cases short : (Config.storedUuid es).length < 36
  · rw [Config.uuid_of_short sha256 c short,
      Config.uuid_of_short sha256 c' (by rwa [stored]), stored]
  · have behind : (c.ofEntries sha256 es).behind = (Config.blank.ofEntries sha256 es).behind := by
      simp [Config.behind, Config.ofEntries, ticks]
    have behind' : (c'.ofEntries sha256 es').behind =
        (Config.blank.ofEntries sha256 es').behind := by
      simp [Config.behind, Config.ofEntries, ticks']
    rw [Config.uuid_of_long sha256 c (not_lt.mp short),
      Config.uuid_of_long sha256 c' (by rw [stored]; exact not_lt.mp short),
      stored, behind, behind', guarded.resolve_left short]

theorem ofEntries_speaksAlike (guarded : Polls es → OutOfReach sha256 es es') {c c' : Config}
    (ticks : c.pollTicks = Config.blank.pollTicks) (ticks' : c'.pollTicks = Config.blank.pollTicks)
    (kvstore : c.kvstore = c'.kvstore) :
    SpeaksAlike (Polls es) (c.ofEntries sha256 es) (c'.ofEntries sha256 es') where
  kvstore := kvstore
  polling := congrArg (Entries.bool · false) (same "polling" (by decide) (by decide))
  uuid polls := ⟨polls, ofEntries_uuid same (guarded polls) ticks ticks'⟩
  debug := congrArg (Entries.bool · false) (same "debug" (by decide) (by decide))

theorem ofEntries_toDoc (guarded : OutOfReach sha256 es es') {c c' : Config}
    (ticks : c.pollTicks = Config.blank.pollTicks)
    (ticks' : c'.pollTicks = Config.blank.pollTicks) :
    (c.ofEntries sha256 es).toDoc = (c'.ofEntries sha256 es').toDoc := by
  have peerUrl : (c.ofEntries sha256 es).peerUrl = (c'.ofEntries sha256 es').peerUrl :=
    congrArg (Entries.string · []) (same "peer_url" (by decide) (by decide))
  have wifiSSID : (c.ofEntries sha256 es).wifiSSID = (c'.ofEntries sha256 es').wifiSSID :=
    congrArg (Entries.string · []) (same "wifi_ssid" (by decide) (by decide))
  have debug : (c.ofEntries sha256 es).debug = (c'.ofEntries sha256 es').debug :=
    congrArg (Entries.bool · false) (same "debug" (by decide) (by decide))
  have polling : (c.ofEntries sha256 es).polling = (c'.ofEntries sha256 es').polling :=
    congrArg (Entries.bool · false) (same "polling" (by decide) (by decide))
  rw [Config.toDoc, Config.toDoc, ofEntries_uuid same guarded ticks ticks', peerUrl,
    wifiSSID, debug, polling]

end Loaded

/-- Two devices that meet no fault, hold these settings, and have opened the same handles. -/
structure Holding (kv : KVStore) (es es' : Entries) (w w' : Nvs) : Prop where
  serves : w.Serves kv "config" ∧ w'.Serves kv "config"
  init : w.init = .ok ∧ w'.init = .ok
  live : w.live "config" = es ∧ w'.live "config" = es'
  opened : w.opened = w'.opened
  older : kv.handle ≤ w.opened

/-- Configurations over the task's own handle. -/
def Reloadable (kv : KVStore) (c c' : Config) : Prop :=
  (c.kvstore = kv ∧ c'.kvstore = kv) ∧
    c.pollTicks = Config.blank.pollTicks ∧ c'.pollTicks = Config.blank.pollTicks

/-- Configurations that have just been constructed, over a newer handle. -/
def Fresh (sha256 : Sha256) (kv : KVStore) (es es' : Entries) (c c' : Config) : Prop :=
  ∃ handle, kv.handle < handle ∧
    c = { Config.blank with kvstore := ⟨handle, true, false⟩ }.ofEntries sha256 es ∧
    c' = { Config.blank with kvstore := ⟨handle, true, false⟩ }.ofEntries sha256 es'

theorem serves_of_other_handle {w : Nvs} {kv : KVStore} (s : w.Serves kv "config")
    {handle : NvsHandle} (other : kv.handle ≠ handle) (v : Option (String × Bool)) :
    ({ w with handles := Function.update w.handles handle v } : Nvs).Serves kv "config" :=
  ⟨s.faultless, s.started, by simpa [Function.update_of_ne other] using s.handle⟩

theorem Holding.opened_holding {kv : KVStore} {es es' : Entries} {w w' : Nvs}
    (h : Holding kv es es' w w') : Holding kv es es' (Config.opened w) (Config.opened w') where
  serves := by
    have newer : kv.handle ≠ w.opened + 1 := Nat.ne_of_lt (Nat.lt_succ_of_le h.older)
    have first := serves_of_other_handle h.serves.1 newer (some ("config", false))
    have second := serves_of_other_handle h.serves.2 (h.opened ▸ newer) (some ("config", false))
    exact ⟨⟨first.faultless, first.started, first.handle⟩,
      ⟨second.faultless, second.started, second.handle⟩⟩
  init := h.init
  live := h.live
  opened := congrArg (· + 1) h.opened
  older := Nat.le_succ_of_le h.older

/-- Reloading, constructing and destroying keep the devices alike, and the configurations speak
alike when the key is out of reach. -/
theorem holding_views {sha256 : Sha256} {kv : KVStore} {es es' : Entries}
    (same : SameButSecrets es es') (guarded : Polls es → OutOfReach sha256 es es') :
    Views sha256 (Polls es) (Holding kv es es') (Reloadable kv) (Fresh sha256 kv es es') where
  load := by
    rintro c c' ⟨⟨kvstore, kvstore'⟩, ticks, ticks'⟩ w w' h
    rw [Config.load_run (kvstore ▸ h.serves.1), Config.load_run (kvstore' ▸ h.serves.2), h.live.1,
      h.live.2]
    refine ⟨⟨⟨⟨kvstore, kvstore'⟩, ticks, ticks'⟩, ?_⟩, h⟩
    exact ofEntries_speaksAlike same guarded ticks ticks' (kvstore.trans kvstore'.symm)
  create := by
    intro w w' h
    rw [Config.create_run h.serves.1.faultless h.init.1,
      Config.create_run h.serves.2.faultless h.init.2, h.live.1, h.live.2, ← h.opened]
    refine ⟨⟨w.opened + 1, ?_, rfl, rfl⟩, h.opened_holding⟩
    exact Nat.lt_succ_of_le h.older
  destroy := by
    rintro c c' ⟨handle, newer, rfl, rfl⟩ w w' h
    have other : kv.handle ≠ handle := Nat.ne_of_lt newer
    have closed : ∀ (w : Nvs) (es : Entries), w.faults = [] →
        let made : Config := { Config.blank with kvstore := ⟨handle, true, false⟩ }
        ((made.ofEntries sha256 es).destroy.run Nvs.answer w).2 =
          { w with handles := Function.update w.handles handle none } := by
      intro w es faultless
      simp [Config.destroy, Config.ofEntries, KVStore.close, Nvs.answer_of_faultless faultless,
        Nvs.perform]
    rw [closed w es h.serves.1.faultless, closed w' es' h.serves.2.faultless]
    exact ⟨trivial, ⟨serves_of_other_handle h.serves.1 other none,
      serves_of_other_handle h.serves.2 other none⟩, h.init, h.live, h.opened, h.older⟩
  doc := by
    rintro polls c c' ⟨handle, -, rfl, rfl⟩
    exact ofEntries_toDoc same (guarded polls) rfl rfl

/-- Two worlds that differ in the stored secrets alone, on devices that meet no fault. -/
structure SecretsApart (w w' : World) : Prop where
  faultless : w.nvs.faults = [] ∧ w'.nvs.faults = []
  init : w.nvs.init = .ok ∧ w'.nvs.init = .ok
  opened : w.nvs.opened = w'.nvs.opened
  stored : SameButSecrets (w.nvs.live "config") (w'.nvs.live "config")
  times : w.times = w'.times
  failures : w.failures = w'.failures
  replies : w.replies = w'.replies
  posted : texts w.log = texts w'.log

/-- From the construction of the configuration on, the two runs post the same texts, in runs whose
loads find polling off or the key out of reach. -/
theorem secrets_unspoken (A : ArduinoJson) (sha256 : Sha256) (maxSize n : Nat) {w w' : World}
    (apart : SecretsApart w w')
    (guarded : Polls (w.nvs.live "config") →
      OutOfReach sha256 (w.nvs.live "config") (w'.nvs.live "config")) :
    texts ((startProcessor A sha256 maxSize n).run (World.answer A) w).2.log =
      texts ((startProcessor A sha256 maxSize n).run (World.answer A) w').2.log := by
  let kv : KVStore := ⟨w.nvs.opened + 1, true, false⟩
  have views : Views sha256 _ (Holding kv _ _) _ _ := holding_views apart.stored guarded
  have holding : Holding kv (w.nvs.live "config") (w'.nvs.live "config") (Config.opened w.nvs)
      (Config.opened w'.nvs) :=
    ⟨⟨⟨apart.faultless.1, rfl, by simp [kv, Config.opened]⟩,
      ⟨apart.faultless.2, rfl, by simp [kv, Config.opened, apart.opened]⟩⟩,
      apart.init, ⟨rfl, rfl⟩, congrArg (· + 1) apart.opened, le_rfl⟩
  simp only [startProcessor, run_bind, World.run_onNvs,
    Config.create_run apart.faultless.1 apart.init.1,
    Config.create_run apart.faultless.2 apart.init.2, ← apart.opened]
  have tasks : TasksAlike (Polls (w.nvs.live "config")) (Reloadable kv)
      ⟨({ Config.blank with kvstore := kv }).ofEntries sha256 (w.nvs.live "config"),
        ⟨[], .replicate 32 0, []⟩, true⟩
      ⟨({ Config.blank with kvstore := kv }).ofEntries sha256 (w'.nvs.live "config"),
          ⟨[], .replicate 32 0, []⟩, true⟩ :=
    ⟨rfl, ⟨⟨rfl, rfl⟩, rfl, rfl⟩, fun awake => by cases awake⟩
  have alike : Alike A A (Holding kv (w.nvs.live "config") (w'.nvs.live "config"))
      { w with nvs := Config.opened w.nvs } { w' with nvs := Config.opened w'.nvs } :=
    ⟨holding, apart.times, apart.replies, fun _ _ => by rw [apart.failures], apart.posted⟩
  exact (loop_alongside A views maxSize n tasks _ _ alike).2.posted

/-- The sample settings under two keys. -/
def keyed (agtuuid : String) (noZero : 0 ∉ bytes agtuuid) (byte : UInt8) : World :=
  sampleWorld (sampleEntries ⟨bytes agtuuid, noZero⟩ (.replicate 32 byte)) []

theorem keyed_apart (agtuuid : String) (noZero : 0 ∉ bytes agtuuid) (b b' : UInt8) :
    SecretsApart (keyed agtuuid noZero b) (keyed agtuuid noZero b') where
  faultless := ⟨rfl, rfl⟩
  init := ⟨rfl, rfl⟩
  opened := rfl
  stored := by
    intro key notKey _
    simp only [keyed, sampleWorld, sampleNvs, Function.update_self, sampleEntries]
    split <;> simp_all
  times := rfl
  failures := rfl
  replies := rfl
  posted := rfl

theorem secrets_unspoken_sample :
    texts ((startProcessor textLibrary sampleSha256 0 2).run (World.answer textLibrary)
        (keyed "a" (by decide) 1)).2.log =
      texts ((startProcessor textLibrary sampleSha256 0 2).run (World.answer textLibrary)
        (keyed "a" (by decide) 2)).2.log :=
  secrets_unspoken textLibrary sampleSha256 0 2 (keyed_apart "a" (by decide) 1 2) fun _ =>
    .inl (by decide)

/-- With a uuid of 36 bytes the first poll already differs. -/
theorem full_uuid_speaks_key :
    SecretsApart (keyed "00000000-0000-0000-0000-000000000001" (by decide) 1)
        (keyed "00000000-0000-0000-0000-000000000001" (by decide) 2) ∧
      texts ((startProcessor textLibrary sampleSha256 0 1).run (World.answer textLibrary)
          (keyed "00000000-0000-0000-0000-000000000001" (by decide) 1)).2.log ≠
        texts ((startProcessor textLibrary sampleSha256 0 1).run (World.answer textLibrary)
          (keyed "00000000-0000-0000-0000-000000000001" (by decide) 2)).2.log :=
  ⟨keyed_apart _ _ 1 2, by decide +kernel⟩

end Stembot
