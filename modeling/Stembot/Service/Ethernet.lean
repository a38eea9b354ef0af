import Stembot.Library.CString
import Stembot.Library.Trace

/-!
# The Wi-Fi station

The hardware half of `ethernet.cpp`, over the calls it makes to ESP-IDF. A failed
`ESP_ERROR_CHECK` ends the program, which then returns `none`.
-/

namespace Stembot

open Library Program

/-- The two fields of `wifi_sta_config_t` the code writes; neither needs a terminator when
it is full. -/
structure WifiStaConfig where
  ssid : List.Vector UInt8 32
  password : List.Vector UInt8 64

/-- What the driver is asked for. The event handlers are those for `WIFI_EVENT` and for
`IP_EVENT`. -/
inductive WifiOp where
  | eventLoopCreateDefault
  | netifInit
  | netifCreateDefaultWifiSta
  | wifiInit
  | registerWifiHandler
  | registerIpHandler
  | wifiSetModeSta
  | wifiStart
  | wifiSetConfig (wifiCfg : WifiStaConfig)
  | wifiConnect
  | startSntp

/-- A call that can fail says whether it has succeeded. -/
abbrev WifiOp.Res : WifiOp → Type
  | .netifCreateDefaultWifiSta | .startSntp => Unit
  | _ => Bool

abbrev WifiProgram := Program WifiOp WifiOp.Res

abbrev wifi (op : WifiOp) : WifiProgram op.Res := Program.issue op

abbrev WifiCall := Answered WifiOp WifiOp.Res

/-- The answer of a call that succeeds. -/
def WifiOp.accepted : (op : WifiOp) → op.Res
  | .netifCreateDefaultWifiSta | .startSntp => ()
  | .eventLoopCreateDefault | .netifInit | .wifiInit | .registerWifiHandler | .registerIpHandler
  | .wifiSetModeSta | .wifiStart | .wifiSetConfig _ | .wifiConnect => true

def Accepted (call : WifiCall) : Prop := call.2 = call.1.accepted

theorem acceptable (op : WifiOp) : ∃ r, Accepted ⟨op, r⟩ := ⟨op.accepted, rfl⟩

/-- A driver that accepts every call. -/
def accepting : Program.Handler WifiOp WifiOp.Res Unit := fun op s => (op.accepted, s)

def espErrorCheck {α : Type} (ok : Bool) (rest : WifiProgram (Option α)) : WifiProgram (Option α) :=
  if ok then rest else return none

/-- The station configuration, out of one that is zeroed. -/
def wifiConfig (ssid password : Bytes) : WifiStaConfig where
  ssid := strncpy (.replicate 32 0) ssid 31 (by decide)
  password := strncpy (.replicate 64 0) password 63 (by decide)

def networkWifiConnect (wifiStarted : Bool) (ssid password : Bytes) :
    WifiProgram (Option Unit) := do
  if !wifiStarted || ssid = [] then return some ()
  espErrorCheck (← wifi (.wifiSetConfig (wifiConfig ssid password))) do
    let _ ← wifi .wifiConnect
    return some ()

/-- The result is the flag `s_wifi_started` afterwards. -/
def networkInit (wifiStarted : Bool) (ssid password : Bytes) : WifiProgram (Option Bool) := do
  if wifiStarted then return some wifiStarted
  espErrorCheck (← wifi .eventLoopCreateDefault) do
  espErrorCheck (← wifi .netifInit) do
  wifi .netifCreateDefaultWifiSta
  espErrorCheck (← wifi .wifiInit) do
  espErrorCheck (← wifi .registerWifiHandler) do
  espErrorCheck (← wifi .registerIpHandler) do
  espErrorCheck (← wifi .wifiSetModeSta) do
  espErrorCheck (← wifi .wifiStart) do
  if ssid ≠ [] then
    match ← networkWifiConnect true ssid password with
    | none => return none
    | some () => return some true
  else return some true

/-- Every configuration the driver is given is made from these credentials. -/
def Gives {α : Type} (ssid password : Bytes) (p : WifiProgram α) : Prop :=
  p.Issues fun op => ∀ wifiCfg, op = .wifiSetConfig wifiCfg → wifiCfg = wifiConfig ssid password

/-- Unless a call fails, the driver is given the configuration. -/
def Reaches {α : Type} (ssid password : Bytes) (p : WifiProgram α) : Prop :=
  p.Ensures Accepted fun _ calls => ⟨.wifiSetConfig (wifiConfig ssid password), true⟩ ∈ calls

section Gives

variable {ssid password : Bytes} {α β : Type}

theorem gives_other {op : WifiOp} (other : ∀ wifiCfg, op ≠ .wifiSetConfig wifiCfg) :
    Gives ssid password (wifi op) :=
  issues_issue.mpr fun wifiCfg same => absurd same (other wifiCfg)

theorem gives_check {rest : WifiProgram (Option α)} (later : Gives ssid password rest) (ok : Bool) :
    Gives ssid password (espErrorCheck ok rest) := by
  cases ok with
  | true => exact later
  | false => exact issues_pure _

theorem reaches_later {p : WifiProgram α} {k : α → WifiProgram β}
    (later : ∀ a, Reaches ssid password (k a)) :
    Reaches ssid password (p >>= k) :=
  .andThen fun a _ => (later a).mono fun _ _ member => List.mem_append_right _ member

theorem reaches_before {p : WifiProgram α} (first : Reaches ssid password p)
    (k : α → WifiProgram β) :
    Reaches ssid password (p >>= k) := by
  refine first.bind fun a calls member => ?_
  intro es b _ _
  exact List.mem_append_left _ member

/-- Behind a call that is checked. -/
theorem reaches_checked {op : WifiOp} {ok : op.Res → Bool} {rest : WifiProgram (Option β)}
    (later : Reaches ssid password rest)
    (checks : ∀ r, Accepted ⟨op, r⟩ → ok r = true := by exact fun _ ok => ok) :
    Reaches ssid password (wifi op >>= fun r => espErrorCheck (ok r) rest) := by
  have asked : (wifi op).Ensures Accepted fun r _ => ok r = true := .issue checks
  refine asked.bind fun r calls passed => ?_
  rw [passed]
  exact later.mono fun _ _ member => List.mem_append_right _ member

theorem networkWifiConnect_gives (wifiStarted : Bool) :
    Gives ssid password (networkWifiConnect wifiStarted ssid password) := by
  unfold networkWifiConnect
  split
  · exact issues_pure _
  · refine Issues.bind (issues_issue.mpr ?_) fun ok => gives_check ?_ ok
    · rintro _ ⟨⟩
      rfl
    · exact Issues.bind (gives_other nofun) fun _ => issues_pure _

theorem networkWifiConnect_reaches (named : ssid ≠ []) :
    Reaches ssid password (networkWifiConnect true ssid password) := by
  have asked : Reaches ssid password (wifi (.wifiSetConfig (wifiConfig ssid password))) := by
    refine .issue fun ok accepted => ?_
    obtain rfl : ok = true := accepted
    exact List.mem_singleton_self _
  simp only [networkWifiConnect, Bool.not_true, Bool.false_or, decide_eq_true_eq, if_neg named]
  exact reaches_before asked _

theorem networkInit_gives (wifiStarted : Bool) :
    Gives ssid password (networkInit wifiStarted ssid password) := by
  unfold networkInit
  split
  · exact issues_pure _
  refine Issues.bind (gives_other nofun) (gives_check ?_)
  refine Issues.bind (gives_other nofun) (gives_check ?_)
  refine Issues.bind (gives_other nofun) fun _ => ?_
  refine Issues.bind (gives_other nofun) (gives_check ?_)
  refine Issues.bind (gives_other nofun) (gives_check ?_)
  refine Issues.bind (gives_other nofun) (gives_check ?_)
  refine Issues.bind (gives_other nofun) (gives_check ?_)
  refine Issues.bind (gives_other nofun) (gives_check ?_)
  split
  · refine Issues.bind (networkWifiConnect_gives true) fun r => ?_
    cases r with
    | none => exact issues_pure _
    | some _ => exact issues_pure _
  · exact issues_pure _

theorem networkInit_reaches (named : ssid ≠ []) :
    Reaches ssid password (networkInit false ssid password) := by
  simp only [networkInit, Bool.false_eq_true, if_false, if_pos named]
  refine reaches_checked ?_
  refine reaches_checked ?_
  refine reaches_later fun _ => ?_
  refine reaches_checked ?_
  refine reaches_checked ?_
  refine reaches_checked ?_
  refine reaches_checked ?_
  refine reaches_checked ?_
  exact reaches_before (networkWifiConnect_reaches named) _

end Gives

/-- A check ends the program, or what is behind it does. -/
theorem ensures_check {G : WifiCall → Prop} {α : Type} {Q : Option α → Prop}
    {rest : WifiProgram (Option α)} (later : rest.Ensures G fun r _ => Q r)
    (failed : Q none) (ok : Bool) :
    (espErrorCheck ok rest).Ensures G fun r _ => Q r := by
  cases ok with
  | true => exact later
  | false => exact .pure failed

/-- The station is started when `network_init` returns, whatever the calls are answered. -/
theorem networkInit_started (ssid password : Bytes) :
    (networkInit false ssid password).Ensures (fun _ => True) fun wifiStarted _ =>
      wifiStarted ≠ some false := by
  simp only [networkInit, Bool.false_eq_true, if_false]
  refine .andThen fun ok _ => ensures_check ?_ nofun ok
  refine .andThen fun ok _ => ensures_check ?_ nofun ok
  refine .andThen fun _ _ => ?_
  refine .andThen fun ok _ => ensures_check ?_ nofun ok
  refine .andThen fun ok _ => ensures_check ?_ nofun ok
  refine .andThen fun ok _ => ensures_check ?_ nofun ok
  refine .andThen fun ok _ => ensures_check ?_ nofun ok
  refine .andThen fun ok _ => ensures_check ?_ nofun ok
  split
  · refine .andThen fun r _ => ?_
    cases r with
    | none => exact .pure nofun
    | some _ => exact .pure nofun
  · exact .pure nofun

end Stembot
