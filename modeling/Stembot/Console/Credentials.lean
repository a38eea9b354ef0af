import Mathlib.Data.List.Induction
import Stembot.Console.Operator
import Stembot.Processor.World
import Stembot.Service.Ethernet

/-!
# The credentials' way to the driver

They come from the storage when the device starts, or from `set` commands and
`wifi_connect`.
-/

namespace Stembot

open Library Program

/-- The exit status; `none` when a check fails. -/
def cmdWifiConnect (wifiStarted : Bool) (gConfig : Config) : WifiProgram (Option Nat) := do
  if gConfig.wifiSSID = [] then return some 1
  match ← networkWifiConnect wifiStarted gConfig.wifiSSID gConfig.wifiPassword with
  | none => return none
  | some () =>
    wifi .startSntp
    return some 0

/-- The start of the device, after its configuration has been loaded. The station is not
started yet. -/
def appMain (config : Config) : WifiProgram (Option Bool) := do
  match ← networkInit false config.wifiSSID config.wifiPassword with
  | none => return none
  | some wifiStarted =>
    wifi .startSntp
    return some wifiStarted

/-- The configuration after these `set` commands. -/
def afterSets (sha256 : Sha256) (gConfig : Config) (lines : List (Option (CString × CString))) :
    Config :=
  lines.foldl (fun c args => (cmdSet sha256 c args).2) gConfig

/-- The value that was given last for a field. -/
def lastGiven (field : String) (lines : List (Option (CString × CString))) : Option CString :=
  (lines.filterMap fun args => args.bind fun (name, value) =>
    if name.1 = bytes field then some value else none).getLast?

/-- A configuration denotes the credentials, each field up to its first zero byte or its
full width. -/
structure WifiStaConfig.Denotes (wifiCfg : WifiStaConfig) (ssid password : Bytes) : Prop where
  ssid : cstr wifiCfg.ssid.toList = ssid
  password : cstr wifiCfg.password.toList = password

/-- Unless a call fails the driver is given a configuration, and any that it is given denotes the
credentials. -/
structure Delivers {α : Type} (p : WifiProgram α) (ssid password : Bytes) : Prop where
  given : ∀ calls r, p.Traces calls r → (∀ e ∈ calls, Accepted e) →
    ∃ wifiCfg, ⟨.wifiSetConfig wifiCfg, true⟩ ∈ calls
  verbatim : ∀ calls r, p.Traces calls r → ∀ wifiCfg ok, ⟨.wifiSetConfig wifiCfg, ok⟩ ∈ calls →
    wifiCfg.Denotes ssid password

theorem wifiConfig_denotes_iff (ssid password : CString) :
    (wifiConfig ssid.1 password.1).Denotes ssid.1 password.1 ↔ ssid.1.length ≤ 31 ∧
      password.1.length ≤ 63 := by
  have read : ∀ {m n : Nat} (s : CString) (h : n ≤ m),
      cstr (strncpy (.replicate m 0) s.1 n h).toList = s.1 ↔ s.1.length ≤ n := by
    intro m n s h
    rw [cstr_strncpy_cleared, cstr_val, List.take_eq_self_iff]
  constructor
  · intro denotes
    exact ⟨(read ssid (by decide)).mp denotes.ssid, (read password (by decide)).mp denotes.password⟩
  · rintro ⟨ssidFits, passwordFits⟩
    exact ⟨(read ssid (by decide)).mpr ssidFits, (read password (by decide)).mpr passwordFits⟩

/-- A path that gives the driver the credentials delivers them if they fit without the last byte. -/
theorem delivers_iff {α : Type} {p : WifiProgram α} {ssid password : CString}
    (gives : Gives ssid.1 password.1 p) (reaches : Reaches ssid.1 password.1 p) :
    Delivers p ssid.1 password.1 ↔ ssid.1.length ≤ 31 ∧ password.1.length ≤ 63 := by
  rw [← wifiConfig_denotes_iff]
  constructor
  · intro delivers
    obtain ⟨calls, r, traced, accepted⟩ := exists_traces acceptable p
    exact delivers.verbatim calls r traced _ _ (reaches calls r traced accepted)
  · intro denotes
    constructor
    · intro calls r traced accepted
      exact ⟨_, reaches calls r traced accepted⟩
    · intro calls r traced wifiCfg ok member
      rw [gives.of_mem traced _ member wifiCfg rfl]
      exact denotes

section Paths

variable {gConfig : Config}

theorem cmdWifiConnect_gives (wifiStarted : Bool) :
    Gives gConfig.wifiSSID gConfig.wifiPassword (cmdWifiConnect wifiStarted gConfig) := by
  unfold cmdWifiConnect
  split
  · exact issues_pure _
  · refine Issues.bind (networkWifiConnect_gives wifiStarted) fun r => ?_
    cases r with
    | none => exact issues_pure _
    | some _ => exact Issues.bind (gives_other nofun) fun _ => issues_pure _

theorem cmdWifiConnect_reaches (named : gConfig.wifiSSID ≠ []) :
    Reaches gConfig.wifiSSID gConfig.wifiPassword (cmdWifiConnect true gConfig) := by
  simp only [cmdWifiConnect, if_neg named]
  exact reaches_before (networkWifiConnect_reaches named) _

theorem appMain_gives : Gives gConfig.wifiSSID gConfig.wifiPassword (appMain gConfig) := by
  refine Issues.bind (networkInit_gives false) fun r => ?_
  cases r with
  | none => exact issues_pure _
  | some _ => exact Issues.bind (gives_other nofun) fun _ => issues_pure _

theorem appMain_reaches (named : gConfig.wifiSSID ≠ []) :
    Reaches gConfig.wifiSSID gConfig.wifiPassword (appMain gConfig) :=
  reaches_before (networkInit_reaches named) _

/-- What the configuration holds is delivered at the start if it fits. -/
theorem appMain_delivers_iff {ssid password : CString} (named : ssid.1 ≠ [])
    (holdsSsid : gConfig.wifiSSID = ssid.1) (holdsPassword : gConfig.wifiPassword = password.1) :
    Delivers (appMain gConfig) ssid.1 password.1 ↔ ssid.1.length ≤ 31 ∧ password.1.length ≤ 63 := by
  apply delivers_iff
  · rw [← holdsSsid, ← holdsPassword]
    exact appMain_gives
  · rw [← holdsSsid, ← holdsPassword]
    exact appMain_reaches (holdsSsid ▸ named)

theorem cmdWifiConnect_delivers_iff {ssid password : CString} (named : ssid.1 ≠ [])
    (holdsSsid : gConfig.wifiSSID = ssid.1) (holdsPassword : gConfig.wifiPassword = password.1) :
    Delivers (cmdWifiConnect true gConfig) ssid.1 password.1 ↔ ssid.1.length ≤ 31 ∧
      password.1.length ≤ 63 := by
  apply delivers_iff
  · rw [← holdsSsid, ← holdsPassword]
    exact cmdWifiConnect_gives true
  · rw [← holdsSsid, ← holdsPassword]
    exact cmdWifiConnect_reaches (holdsSsid ▸ named)

/-- The console is started with the station started. -/
theorem appMain_started :
    (appMain gConfig).Ensures (fun _ => True) fun wifiStarted _ => wifiStarted ≠ some false := by
  refine (networkInit_started gConfig.wifiSSID gConfig.wifiPassword).bind fun r _ started => ?_
  cases r with
  | none => exact .pure nofun
  | some flag => exact .andThen fun _ _ => .pure started

theorem lastGiven_concat (field : String) (lines : List (Option (CString × CString)))
    (args : Option (CString × CString)) : lastGiven field (lines ++ [args]) =
      match args with
      | some (name, value) => if name.1 = bytes field then some value else lastGiven field lines
      | none => lastGiven field lines := by
  unfold lastGiven
  cases args with
  | none => simp
  | some line => by_cases named : line.1.1 = bytes field <;> simp [named]

variable (sha256 : Sha256)

theorem afterSets_concat (lines : List (Option (CString × CString)))
    (args : Option (CString × CString)) :
    afterSets sha256 gConfig (lines ++ [args]) =
      (cmdSet sha256 (afterSets sha256 gConfig lines) args).2 := by
  simp [afterSets]

/-- A member that only one field sets is what was given last for this field. -/
theorem afterSets_lastGiven {field : String} (get : Config → Bytes)
    (sets : ∀ c name value, get (cmdSet sha256 c (some (name, value))).2 =
      if name.1 = bytes field then value.1 else get c)
    (gConfig : Config) {lines : List (Option (CString × CString))} {value : CString}
    (given : lastGiven field lines = some value) :
    get (afterSets sha256 gConfig lines) = value.1 := by
  induction lines using List.reverseRecOn with
  | nil => cases given
  | append_singleton lines args ih =>
    rw [lastGiven_concat] at given
    rw [afterSets_concat]
    cases args with
    | none => exact ih given
    | some line =>
      obtain ⟨name, text⟩ := line
      rw [sets]
      by_cases named : name.1 = bytes field
      · rw [if_pos named]
        simp only [if_pos named, Option.some.injEq] at given
        rw [given]
      · rw [if_neg named]
        simp only [if_neg named] at given
        exact ih given

end Paths

/-- The credentials a load obtains are the stored ones, and those that `set` leaves the ones given
last. On both paths the driver is given them as they are if each leaves the last byte of its field
free, and not otherwise. -/
theorem credentials_delivered_iff (sha256 : Sha256) {ssid password : CString}
    (named : ssid.1 ≠ []) :
    (∀ w : Nvs, let config := ((Config.create sha256).run Nvs.answer w).1
      (w.faults = [] → w.init = .ok →
        Entries.string (w.live "config" "wifi_ssid") [] = ssid.1 →
        Entries.string (w.live "config" "wifi_password") [] = password.1 →
          config.wifiSSID = ssid.1 ∧ config.wifiPassword = password.1) ∧
      (config.wifiSSID = ssid.1 → config.wifiPassword = password.1 →
        (Delivers (appMain config) ssid.1 password.1 ↔ ssid.1.length ≤ 31 ∧
          password.1.length ≤ 63))) ∧
    ∀ (gConfig : Config) (lines : List (Option (CString × CString))) (wifiStarted : Bool),
      (∃ config calls, (appMain config).Traces calls (some wifiStarted)) →
      lastGiven "wifiSSID" lines = some ssid → lastGiven "wifiPassword" lines = some password →
        (Delivers (cmdWifiConnect wifiStarted (afterSets sha256 gConfig lines)) ssid.1 password.1 ↔
          ssid.1.length ≤ 31 ∧ password.1.length ≤ 63) := by
  refine ⟨fun w => ⟨?_, ?_⟩, ?_⟩
  · intro faultless init storedSsid storedPassword
    rw [Config.create_run faultless init]
    exact ⟨storedSsid, storedPassword⟩
  · intro loadedSsid loadedPassword
    exact appMain_delivers_iff named loadedSsid loadedPassword
  · intro gConfig lines wifiStarted running lastSsid lastPassword
    obtain ⟨config, calls, booted⟩ := running
    have started : wifiStarted = true := by
      have running := appMain_started calls _ booted fun _ _ => trivial
      cases wifiStarted with
      | true => rfl
      | false => exact absurd rfl running
    have setSsid := afterSets_lastGiven sha256 Config.wifiSSID (cmdSet_get sha256 .wifiSSID) gConfig
      lastSsid
    have setPassword :=
      afterSets_lastGiven sha256 Config.wifiPassword (cmdSet_get sha256 .wifiPassword)
      gConfig lastPassword
    rw [started]
    exact cmdWifiConnect_delivers_iff named setSsid setPassword

/-- The `set` commands for these credentials. -/
def credentialLines (ssid password : CString) : List (Option (CString × CString)) :=
  [some (terminated (bytes "wifiSSID"), ssid), some (terminated (bytes "wifiPassword"), password)]

theorem credentials_delivered_sample :
    Delivers (cmdWifiConnect true (afterSets sampleSha256 Config.blank
      (credentialLines (terminated (bytes "net")) (terminated (bytes "pass"))))) (bytes "net")
        (bytes "pass") := by
  have booted : (appMain Config.blank).Traces _ (some true) :=
    traces_run accepting (appMain Config.blank) ()
  have named : (terminated (bytes "net")).1 ≠ [] := by decide
  have path := (@credentials_delivered_iff sampleSha256 _ (terminated (bytes "pass")) named).2
    Config.blank
    (credentialLines _ _) true ⟨Config.blank, _, booted⟩ rfl rfl
  exact path.mpr (by decide)

/-- The entries for these credentials. -/
def credentialEntries (ssid password : CString) : Entries
  | "wifi_ssid" => some (.str ssid)
  | "wifi_password" => some (.str password)
  | _ => none

/-- An SSID and a key of the full width are cut by one byte, on both paths. -/
theorem full_width_is_cut :
    let ssid := terminated (List.replicate 32 97)
    let password := terminated (List.replicate 64 48)
    let stored :=
      ((Config.create sampleSha256).run Nvs.answer (sampleNvs (credentialEntries ssid password))).1
    let given := afterSets sampleSha256 Config.blank (credentialLines ssid password)
    ssid.1.length = 32 ∧ password.1.length = 64 ∧
      cstr (wifiConfig ssid.1 password.1).ssid.toList = ssid.1.take 31 ∧
      cstr (wifiConfig ssid.1 password.1).password.toList = password.1.take 63 ∧
      ¬Delivers (appMain stored) ssid.1 password.1 ∧
      ¬Delivers (cmdWifiConnect true given) ssid.1 password.1 := by
  intro ssid password stored given
  have cut : ¬(ssid.1.length ≤ 31 ∧ password.1.length ≤ 63) := by decide
  have named : ssid.1 ≠ [] := by decide
  have storedSsid : stored.wifiSSID = ssid.1 := by decide +kernel
  have storedPassword : stored.wifiPassword = password.1 := by decide +kernel
  have givenSsid : given.wifiSSID = ssid.1 := by decide +kernel
  have givenPassword : given.wifiPassword = password.1 := by decide +kernel
  refine ⟨by decide, by decide, by decide +kernel, by decide +kernel, ?_, ?_⟩
  · rwa [appMain_delivers_iff named storedSsid storedPassword]
  · rwa [cmdWifiConnect_delivers_iff named givenSsid givenPassword]

end Stembot
