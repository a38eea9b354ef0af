import Stembot.Models.Config

/-!
# Settings, one by one

`Config::save` and `Config::load` handle seven members in the same order. Each
member is a setting here, with the entry that holds it and the calls that write and
read it. What is saved is what is loaded.
-/

namespace Stembot

open Library

/-- In the order of `save` and `load`. -/
inductive Setting where
  | agtuuid | key | peerUrl | wifiSSID | wifiPassword | debug | polling
  deriving DecidableEq

namespace Setting

abbrev Carrier : Setting → Type
  | .agtuuid => List.Vector UInt8 36
  | .key => Key
  | .peerUrl | .wifiSSID | .wifiPassword => Bytes
  | .debug | .polling => Bool

def all : List Setting := [.agtuuid, .key, .peerUrl, .wifiSSID, .wifiPassword, .debug, .polling]

theorem mem_all (s : Setting) : s ∈ all := by cases s <;> decide

theorem all_nodup : all.Nodup := by decide

/-- The key of the entry. -/
def name : Setting → String
  | .agtuuid => "agtuuid"
  | .key => "key"
  | .peerUrl => "peer_url"
  | .wifiSSID => "wifi_ssid"
  | .wifiPassword => "wifi_password"
  | .debug => "debug"
  | .polling => "polling"

theorem name_injective : Function.Injective name := by
  intro s s'
  cases s <;> cases s' <;> simp [name]

/-- What a load makes of an entry. -/
def ofEntry (sha256 : Sha256) : (s : Setting) → Option NvsValue → s.Carrier
  | .agtuuid, e => strncpySizeof (.replicate 36 0) (Entries.string e Config.defaultUuid)
  | .key, e => Config.loadedKey sha256 e
  | .peerUrl, e | .wifiSSID, e | .wifiPassword, e => Entries.string e []
  | .debug, e | .polling, e => Entries.bool e false

/-- The settings that a namespace holds. -/
def stored (sha256 : Sha256) (es : Entries) (s : Setting) : s.Carrier :=
  s.ofEntry sha256 (es s.name)

end Setting

namespace Config

def get (c : Config) : (s : Setting) → s.Carrier
  | .agtuuid => c.agtuuid
  | .key => c.key
  | .peerUrl => c.peerUrl
  | .wifiSSID => c.wifiSSID
  | .wifiPassword => c.wifiPassword
  | .debug => c.debug
  | .polling => c.polling

def assign (c : Config) : (s : Setting) → s.Carrier → Config
  | .agtuuid, v => { c with agtuuid := v }
  | .key, v => { c with key := v }
  | .peerUrl, v => { c with peerUrl := v }
  | .wifiSSID, v => { c with wifiSSID := v }
  | .wifiPassword, v => { c with wifiPassword := v }
  | .debug, v => { c with debug := v }
  | .polling, v => { c with polling := v }

@[simp] theorem get_assign (c : Config) (s : Setting) (v : s.Carrier) :
    (c.assign s v).get = Function.update c.get s v := by
  funext s'
  cases s <;> cases s' <;> rfl

@[simp] theorem kvstore_assign (c : Config) (s : Setting) (v : s.Carrier) :
    (c.assign s v).kvstore = c.kvstore := by
  cases s <;> rfl

theorem get_ofEntries (sha256 : Sha256) (es : Entries) (c : Config) :
    (c.ofEntries sha256 es).get = Setting.stored sha256 es := by
  funext s
  cases s <;> rfl

/-- What a save makes of a setting. -/
def value (c : Config) : Setting → NvsValue
  | .agtuuid => .str (terminated (c.agtuuid.toList ++ c.behind))
  | .key => .blob c.key.toList
  | .peerUrl => .str (terminated c.peerUrl)
  | .wifiSSID => .str (terminated c.wifiSSID)
  | .wifiPassword => .str (terminated c.wifiPassword)
  | .debug => .scalar .u8 (flag c.debug)
  | .polling => .scalar .u8 (flag c.polling)

/-- The entries after one write of a save. -/
def write (c : Config) (es : Entries) (s : Setting) : Entries :=
  Function.update es s.name (some (c.value s))

/-- The entries that a save leaves, write by write. -/
theorem entries_eq_foldl (c : Config) (es : Entries) :
    c.entries es = Setting.all.foldl c.write es := rfl

theorem stored_write_of_ne (c : Config) (sha256 : Sha256) (es : Entries) {s s' : Setting}
    (ne : s ≠ s') : Setting.stored sha256 (c.write es s') s = Setting.stored sha256 es s := by
  rw [Setting.stored, write, Function.update_of_ne (Setting.name_injective.ne ne), Setting.stored]

/-- What every configuration in use satisfies: the agent uuid is padded with zeros, and no string
goes on behind a zero. -/
structure Proper (c : Config) : Prop where
  agtuuid : ∃ src, c.agtuuid = strncpySizeof (.replicate 36 0) src
  peerUrl : 0 ∉ c.peerUrl
  wifiSSID : 0 ∉ c.wifiSSID
  wifiPassword : 0 ∉ c.wifiPassword

theorem zero_notMem_string (e : Option NvsValue) : 0 ∉ Entries.string e [] := by
  match e with
  | none | some (.scalar _ _) | some (.blob _) => simp [Entries.string]
  | some (.str s) => exact s.2

theorem proper_ofEntries (sha256 : Sha256) (es : Entries) (c : Config) :
    (c.ofEntries sha256 es).Proper :=
  ⟨⟨_, rfl⟩, zero_notMem_string _, zero_notMem_string _, zero_notMem_string _⟩

/-- What is saved is what is loaded. -/
theorem Proper.stored_write {c : Config} (proper : c.Proper) (sha256 : Sha256) (es : Entries)
    (s : Setting) : Setting.stored sha256 (c.write es s) s = c.get s := by
  rw [Setting.stored, write, Function.update_self]
  cases s with
  | agtuuid =>
    obtain ⟨src, buffer⟩ := proper.agtuuid
    simp only [value, get, buffer]
    exact strncpySizeof_reread _ _ _ src _
  | key => exact dif_pos c.key.toList_length
  | peerUrl => exact cstr_of_notMem proper.peerUrl
  | wifiSSID => exact cstr_of_notMem proper.wifiSSID
  | wifiPassword => exact cstr_of_notMem proper.wifiPassword
  | debug => exact Entries.bool_put c.debug false
  | polling => exact Entries.bool_put c.polling false

theorem stored_foldl {c : Config} (proper : c.Proper) (sha256 : Sha256) (todo : List Setting)
    (es : Entries) (s : Setting) :
    Setting.stored sha256 (todo.foldl c.write es) s =
      if s ∈ todo then c.get s else Setting.stored sha256 es s := by
  induction todo generalizing es with
  | nil => simp
  | cons s' todo ih =>
    rw [List.foldl_cons, ih]
    by_cases later : s ∈ todo
    · simp [later]
    · by_cases same : s = s'
      · subst same
        simp [later, proper.stored_write]
      · simp [later, same, c.stored_write_of_ne sha256 es same]

/-- A save leaves entries that read as the configuration did. -/
theorem Proper.stored_entries {c : Config} (proper : c.Proper) (sha256 : Sha256) (es : Entries) :
    Setting.stored sha256 (c.entries es) = c.get := by
  funext s
  rw [entries_eq_foldl, stored_foldl proper]
  exact if_pos (Setting.mem_all s)

def saveOne (c : Config) : Setting → NvsProgram Unit
  | .agtuuid => do
    let _ ← c.kvstore.putString "agtuuid" (some (terminated (c.agtuuid.toList ++ c.behind)))
  | .key => do
    let _ ← c.kvstore.putBytes "key" (some c.key.toList)
  | .peerUrl => do
    let _ ← c.kvstore.putStdString "peer_url" c.peerUrl
  | .wifiSSID => do
    let _ ← c.kvstore.putStdString "wifi_ssid" c.wifiSSID
  | .wifiPassword => do
    let _ ← c.kvstore.putStdString "wifi_password" c.wifiPassword
  | .debug => do
    let _ ← c.kvstore.putBool "debug" c.debug
  | .polling => do
    let _ ← c.kvstore.putBool "polling" c.polling

/-- A save is its seven writes. -/
theorem save_eq (c : Config) : c.save = Setting.all.forM c.saveOne := by
  simp [save, saveOne, Setting.all]

def loadOne (sha256 : Sha256) (c : Config) : Setting → NvsProgram Config
  | .agtuuid => do
    let agtuuid ← c.kvstore.getString "agtuuid" defaultUuid
    return { c with agtuuid := strncpySizeof c.agtuuid agtuuid }
  | .key => do
    let (keyLen, key) ← c.kvstore.getBytes "key" c.key
    return { c with key := if keyLen ≠ 32 then defaultKey sha256 else key }
  | .peerUrl => do
    return { c with peerUrl := ← c.kvstore.getString "peer_url" [] }
  | .wifiSSID => do
    return { c with wifiSSID := ← c.kvstore.getString "wifi_ssid" [] }
  | .wifiPassword => do
    return { c with wifiPassword := ← c.kvstore.getString "wifi_password" [] }
  | .debug => do
    return { c with debug := ← c.kvstore.getBool "debug" false }
  | .polling => do
    return { c with polling := ← c.kvstore.getBool "polling" false }

/-- A load is its seven reads. -/
theorem loadFrom_eq (sha256 : Sha256) (c : Config) (kvstore : KVStore) :
    c.loadFrom sha256 kvstore = Setting.all.foldlM (loadOne sha256) { c with kvstore } := by
  simp [loadFrom, loadOne, Setting.all]

theorem load_eq (sha256 : Sha256) (c : Config) :
    c.load sha256 = c.kvstore.begin "config" false >>= fun begun =>
      Setting.all.foldlM (loadOne sha256) { c with kvstore := begun.2 } := by
  simp only [load, loadFrom_eq]

section Run

variable {sha256 : Sha256} {w : Nvs} {c : Config}

theorem saveOne_run (s : w.Serves c.kvstore "config") (writable : c.kvstore.readOnly = false)
    (setting : Setting) :
    (c.saveOne setting).run Nvs.answer w =
      ((), w.replace "config" (c.write (w.live "config") setting)) := by
  cases setting with
  | agtuuid =>
    simp [saveOne, KVStore.putString_run s writable, Nvs.store, write, value, Setting.name]
  | key =>
    have full : c.key.toList.length ≠ 0 := by simp
    simp [saveOne, KVStore.putBytes_run s writable _ full, Nvs.store, write, value, Setting.name]
  | peerUrl | wifiSSID | wifiPassword =>
    simp [saveOne, KVStore.putStdString_run s writable, Nvs.store, write, value, Setting.name]
  | debug | polling =>
    simp [saveOne, KVStore.putBool_run s writable, Nvs.store, write, value, Setting.name, flag]

theorem loadOne_run (s : w.Serves c.kvstore "config") (setting : Setting) :
    (c.loadOne sha256 setting).run Nvs.answer w =
      (c.assign setting (setting.stored sha256 (w.live "config")), w) := by
  cases setting with
  | agtuuid =>
    simp only [loadOne, Program.run_bind, Program.run_pure, KVStore.getString_run s,
      strncpySizeof_eq c.agtuuid (.replicate 36 0)]
    rfl
  | key =>
    simp only [loadOne, Program.run_bind, Program.run_pure,
      KVStore.getBytes_run s (show 32 ≠ 0 by decide), loadedKey_eq]
    rfl
  | peerUrl | wifiSSID | wifiPassword =>
    simp only [loadOne, Program.run_bind, Program.run_pure, KVStore.getString_run s]
    rfl
  | debug | polling =>
    simp only [loadOne, Program.run_bind, Program.run_pure, KVStore.getBool_run s]
    rfl

/-- Writes made one behind the other. -/
theorem saveAll_run (s : w.Serves c.kvstore "config") (writable : c.kvstore.readOnly = false)
    (setting : Setting) (todo : List Setting) :
    ((setting :: todo).forM c.saveOne).run Nvs.answer w =
      ((), w.replace "config" ((setting :: todo).foldl c.write (w.live "config"))) := by
  induction todo generalizing w setting with
  | nil => simp [saveOne_run s writable]
  | cons next todo ih =>
    have rest := ih (s.replace "config" (c.write (w.live "config") setting)) next
    rw [Nvs.replace_live_self, Nvs.replace_replace] at rest
    change (c.saveOne setting >>= fun _ => (next :: todo).forM c.saveOne).run Nvs.answer w = _
    rw [Program.run_bind, saveOne_run s writable]
    exact rest

theorem save_run (s : w.Serves c.kvstore "config") (writable : c.kvstore.readOnly = false) :
    c.save.run Nvs.answer w = ((), w.replace "config" (c.entries (w.live "config"))) := by
  rw [save_eq, entries_eq_foldl]
  exact saveAll_run s writable _ _

/-- Reads made one behind the other. -/
theorem loadAll_run (s : w.Serves c.kvstore "config") (todo : List Setting) :
    (todo.foldlM (loadOne sha256) c).run Nvs.answer w =
      (todo.foldl (fun c setting => c.assign setting (setting.stored sha256 (w.live "config"))) c,
        w) := by
  induction todo generalizing c with
  | nil => rfl
  | cons setting todo ih =>
    rw [List.foldlM_cons, Program.run_bind, loadOne_run s]
    exact ih (by simpa using s)

theorem loadFrom_run {kv : KVStore} (s : w.Serves kv "config") :
    (c.loadFrom sha256 kv).run Nvs.answer w =
      ({ c with kvstore := kv }.ofEntries sha256 (w.live "config"), w) := by
  rw [loadFrom_eq]
  exact loadAll_run (c := { c with kvstore := kv }) s _

/-- Reloading reads the namespace and changes nothing on the device. -/
theorem load_run (s : w.Serves c.kvstore "config") :
    (c.load sha256).run Nvs.answer w = (c.ofEntries sha256 (w.live "config"), w) := by
  simp only [load, Program.run_bind, KVStore.begin_started s.started]
  exact loadFrom_run s

/-- The device after a handle to the settings was opened. -/
def opened (w : Nvs) : Nvs :=
  { w with
    handles := Function.update w.handles (w.opened + 1) (some ("config", false))
    opened := w.opened + 1 }

/-- Two handles opened one after the other both serve. -/
theorem opened_serves (faultless : w.faults = []) :
    (opened (opened w)).Serves ⟨w.opened + 1, true, false⟩ "config" ∧
      (opened (opened w)).Serves ⟨w.opened + 2, true, false⟩ "config" :=
  ⟨⟨faultless, rfl, by simp [opened]⟩, ⟨faultless, rfl, by simp [opened]⟩⟩

/-- Constructing on a device that meets no fault opens a handle of its own and loads. -/
theorem create_run (faultless : w.faults = []) (init : w.init = .ok) :
    (create sha256).run Nvs.answer w =
      ({ blank with kvstore := ⟨w.opened + 1, true, false⟩ }.ofEntries sha256 (w.live "config"),
        opened w) := by
  have serves : (opened w).Serves ⟨w.opened + 1, true, false⟩ "config" :=
    ⟨faultless, rfl, by simp [opened]⟩
  simp only [create, load, Program.run_bind,
    KVStore.begin_fresh (show blank.kvstore.started = false from rfl)
    faultless init]
  exact loadFrom_run serves

end Run

end Config

end Stembot
