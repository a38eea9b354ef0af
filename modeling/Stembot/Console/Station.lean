import Stembot.Console.Credentials
import Stembot.Library.Monitor

/-!
# How the Wi-Fi driver is used

From the start of the device on, over any number of `wifi_connect` commands: the
driver is brought up once and in order, it connects only to what it has just been
given, and a check that fails is the end of it.
-/

namespace Stembot

open Library Program

/-- How far the station is. -/
inductive Station where
  | off | looped | attached | created | initialised | watched | handled | moded | started
  | configured | halted
  deriving DecidableEq

namespace Station

/-- The calls that are made in order, each once. -/
def due : WifiOp → Option Station
  | .eventLoopCreateDefault => some .off
  | .netifInit => some .looped
  | .netifCreateDefaultWifiSta => some .attached
  | .wifiInit => some .created
  | .registerWifiHandler => some .initialised
  | .registerIpHandler => some .watched
  | .wifiSetModeSta => some .handled
  | .wifiStart => some .moded
  | .wifiSetConfig _ | .wifiConnect | .startSntp => none

/-- A station that has been started is given configurations, and connects when it has just
been given one. -/
def Allows (s : Station) : WifiOp → Prop
  | .wifiSetConfig _ | .startSntp => s = .started
  | .wifiConnect => s = .configured
  | op => due op = some s

/-- After a check. -/
def checked (s : Station) (ok : Bool) : Station := if ok then s else .halted

def next (s : Station) : WifiCall → Station
  | ⟨.eventLoopCreateDefault, ok⟩ => checked .looped ok
  | ⟨.netifInit, ok⟩ => checked .attached ok
  | ⟨.netifCreateDefaultWifiSta, _⟩ => .created
  | ⟨.wifiInit, ok⟩ => checked .initialised ok
  | ⟨.registerWifiHandler, ok⟩ => checked .watched ok
  | ⟨.registerIpHandler, ok⟩ => checked .handled ok
  | ⟨.wifiSetModeSta, ok⟩ => checked .moded ok
  | ⟨.wifiStart, ok⟩ => checked .started ok
  | ⟨.wifiSetConfig _, ok⟩ => checked .configured ok
  | ⟨.wifiConnect, _⟩ => .started
  | ⟨.startSntp, _⟩ => s

end Station

def station : Monitor WifiOp WifiOp.Res Station where
  allows := Station.Allows
  next := Station.next

/-- Where a program leaves the station that may be ended by a check. -/
def Station.reached {α : Type} (r : Option α) : Station := if r.isSome then .started else .halted

section Obeys

variable {s : Station} {α : Type}

theorem obeys_check {rest : WifiProgram (Option α)} (later : station.Obeys s rest Station.reached)
    (ok : Bool) :
    station.Obeys (Station.checked s ok) (espErrorCheck ok rest) Station.reached := by
  cases ok with
  | true => exact later
  | false => exact .pure rfl

theorem networkWifiConnect_obeys (wifiStarted : Bool) (ssid password : Bytes) :
    station.Obeys .started (networkWifiConnect wifiStarted ssid password) Station.reached := by
  unfold networkWifiConnect
  split
  · exact .pure rfl
  · have given : station.Obeys .started (wifi (.wifiSetConfig (wifiConfig ssid password)))
        fun ok => Station.checked .configured ok := .issue rfl fun _ => rfl
    have connected : station.Obeys .configured (wifi .wifiConnect) fun _ => .started :=
      .issue rfl fun _ => rfl
    exact given.bind fun ok => obeys_check (connected.bind fun _ => .pure rfl) ok

theorem networkInit_obeys (ssid password : Bytes) :
    station.Obeys .off (networkInit false ssid password) Station.reached := by
  have call {s : Station} (op : WifiOp) (next : op.Res → Station) (allowed : s.Allows op)
      (known : ∀ r, s.next ⟨op, r⟩ = next r) : station.Obeys s (wifi op) next :=
      .issue allowed known
  simp only [networkInit, Bool.false_eq_true, if_false]
  refine (call .eventLoopCreateDefault (Station.checked .looped) rfl fun _ => rfl).bind
    (obeys_check ?_)
  refine (call .netifInit (Station.checked .attached) rfl fun _ => rfl).bind (obeys_check ?_)
  refine (call .netifCreateDefaultWifiSta (fun _ => .created) rfl fun _ => rfl).bind fun _ => ?_
  refine (call .wifiInit (Station.checked .initialised) rfl fun _ => rfl).bind (obeys_check ?_)
  refine (call .registerWifiHandler (Station.checked .watched) rfl fun _ => rfl).bind
    (obeys_check ?_)
  refine (call .registerIpHandler (Station.checked .handled) rfl fun _ => rfl).bind (obeys_check ?_)
  refine (call .wifiSetModeSta (Station.checked .moded) rfl fun _ => rfl).bind (obeys_check ?_)
  refine (call .wifiStart (Station.checked .started) rfl fun _ => rfl).bind (obeys_check ?_)
  split
  · refine (networkWifiConnect_obeys true ssid password).bind fun r => ?_
    cases r with
    | none => exact .pure rfl
    | some _ => exact .pure rfl
  · exact .pure rfl

theorem startSntp_obeys : station.Obeys .started (wifi .startSntp) fun _ => .started :=
  .issue rfl fun _ => rfl

theorem appMain_obeys (config : Config) : station.Obeys .off (appMain config) Station.reached := by
  refine (networkInit_obeys config.wifiSSID config.wifiPassword).bind fun r => ?_
  cases r with
  | none => exact .pure rfl
  | some _ => exact startSntp_obeys.bind fun _ => .pure rfl

theorem cmdWifiConnect_obeys (wifiStarted : Bool) (gConfig : Config) :
    station.Obeys .started (cmdWifiConnect wifiStarted gConfig) Station.reached := by
  unfold cmdWifiConnect
  split
  · exact .pure rfl
  · refine (networkWifiConnect_obeys wifiStarted gConfig.wifiSSID gConfig.wifiPassword).bind
      fun r => ?_
    cases r with
    | none => exact .pure rfl
    | some _ => exact startSntp_obeys.bind fun _ => .pure rfl

/-- The `wifi_connect` commands, each with the configuration that the console holds when
it is given. -/
def wifiConnects (wifiStarted : Bool) : List Config → WifiProgram (Option Unit)
  | [] => return some ()
  | gConfig :: rest => do
    match ← cmdWifiConnect wifiStarted gConfig with
    | none => return none
    | some _ => wifiConnects wifiStarted rest

/-- All that the driver is asked for after the device has started with this configuration. -/
def stationUse (config : Config) (commands : List Config) : WifiProgram (Option Unit) := do
  match ← appMain config with
  | none => return none
  | some wifiStarted => wifiConnects wifiStarted commands

theorem wifiConnects_obeys (wifiStarted : Bool) (commands : List Config) :
    station.Obeys .started (wifiConnects wifiStarted commands) Station.reached := by
  induction commands with
  | nil => exact .pure rfl
  | cons gConfig rest ih =>
    refine (cmdWifiConnect_obeys wifiStarted gConfig).bind fun r => ?_
    cases r with
    | none => exact .pure rfl
    | some _ => exact ih

theorem stationUse_obeys (config : Config) (commands : List Config) :
    station.Obeys .off (stationUse config commands) Station.reached := by
  refine (appMain_obeys config).bind fun r => ?_
  cases r with
  | none => exact .pure rfl
  | some wifiStarted => exact wifiConnects_obeys wifiStarted commands

end Obeys

/-- The checked calls that have failed. -/
def WifiCall.failed : WifiCall → Bool
  | ⟨.eventLoopCreateDefault, ok⟩ | ⟨.netifInit, ok⟩ | ⟨.wifiInit, ok⟩ | ⟨.registerWifiHandler, ok⟩
  | ⟨.registerIpHandler, ok⟩ | ⟨.wifiSetModeSta, ok⟩ | ⟨.wifiStart, ok⟩ | ⟨.wifiSetConfig _, ok⟩ =>
    !ok
  | ⟨.netifCreateDefaultWifiSta, _⟩ | ⟨.wifiConnect, _⟩ | ⟨.startSntp, _⟩ => false

/-- The steps of the bring-up that are made when the station is there. -/
def Station.steps : Station → List Station
  | .off | .halted => []
  | .looped => [.off]
  | .attached => [.off, .looped]
  | .created => [.off, .looped, .attached]
  | .initialised => [.off, .looped, .attached, .created]
  | .watched => [.off, .looped, .attached, .created, .initialised]
  | .handled => [.off, .looped, .attached, .created, .initialised, .watched]
  | .moded => [.off, .looped, .attached, .created, .initialised, .watched, .handled]
  | .started | .configured =>
    [.off, .looped, .attached, .created, .initialised, .watched, .handled, .moded]

/-- The steps made in a trace. -/
def bringUp (calls : List WifiCall) : List Station := calls.filterMap fun e => Station.due e.1

section Traces

variable {s : Station} {es : List WifiCall} {e : WifiCall}

theorem Station.next_of_failed (failed : WifiCall.failed e = true) : s.next e = .halted := by
  obtain ⟨op, r⟩ := e
  cases op with
  | netifCreateDefaultWifiSta | wifiConnect | startSntp => cases failed
  | _ =>
    obtain rfl : r = false := by simpa [WifiCall.failed] using failed
    rfl

/-- Unless it fails, a call that is allowed makes the step it stands for, if any. -/
theorem Station.steps_next (allowed : s.Allows e.1) (done : WifiCall.failed e = false) :
    s.next e ≠ .halted ∧ (s.next e).steps = s.steps ++ (due e.1).toList := by
  obtain ⟨op, r⟩ := e
  cases op with
  | netifCreateDefaultWifiSta =>
    obtain rfl := Option.some.inj allowed
    exact ⟨nofun, rfl⟩
  | wifiConnect =>
    obtain rfl : s = .configured := allowed
    exact ⟨nofun, rfl⟩
  | startSntp =>
    obtain rfl : s = .started := allowed
    exact ⟨nofun, rfl⟩
  | wifiSetConfig wifiCfg =>
    obtain rfl : s = .started := allowed
    obtain rfl : r = true := by simpa [WifiCall.failed] using done
    exact ⟨nofun, rfl⟩
  | _ =>
    obtain rfl := Option.some.inj allowed
    obtain rfl : r = true := by simpa [WifiCall.failed] using done
    exact ⟨nofun, rfl⟩

theorem Station.not_allows_halted (op : WifiOp) : ¬Station.halted.Allows op := by
  cases op <;> simp [Allows, due]

theorem accepts_halted (accepted : station.Accepts .halted es) : es = [] := by
  cases es with
  | nil => rfl
  | cons e es => exact absurd accepted.1 (Station.not_allows_halted e.1)

/-- What an accepted call finds done. -/
theorem accepts_steps {before rest : List WifiCall}
    (accepted : station.Accepts s (before ++ e :: rest)) :
    (station.after s before).Allows e.1 ∧ (station.after s before).steps =
      s.steps ++ bringUp before ∧
      (WifiCall.failed e = true → rest = []) := by
  induction before generalizing s with
  | nil =>
    refine ⟨accepted.1, (List.append_nil _).symm, fun failed => ?_⟩
    have later : station.Accepts (s.next e) rest := accepted.2
    rw [Station.next_of_failed failed] at later
    exact accepts_halted later
  | cons first before ih =>
    obtain ⟨allowed, later⟩ := accepted
    cases failed : WifiCall.failed first with
    | true =>
      have ended : station.Accepts (s.next first) (before ++ e :: rest) := later
      rw [Station.next_of_failed failed] at ended
      cases List.append_eq_nil_iff.mp (accepts_halted ended) |>.2
    | false =>
      obtain ⟨allowed', steps, last⟩ := ih later
      refine ⟨allowed', ?_, last⟩
      calc (station.after (s.next first) before).steps
          = (s.next first).steps ++ bringUp before := steps
        _ = s.steps ++ bringUp (first :: before) := by
          rw [(Station.steps_next allowed failed).2, List.append_assoc]
          cases made : Station.due first.1 <;> simp [bringUp, made]

/-- The step that is due is the next one. -/
theorem Station.steps_due {op : WifiOp} (allowed : s.Allows op) :
    s.steps ++ (due op).toList <+: Station.started.steps := by
  cases op with
  | wifiConnect =>
    obtain rfl : s = .configured := allowed
    exact List.prefix_rfl
  | startSntp | wifiSetConfig _ =>
    obtain rfl : s = .started := allowed
    exact List.prefix_rfl
  | _ =>
    obtain rfl := Option.some.inj allowed
    decide

/-- The station holds a configuration that has just been given to it. -/
theorem after_configured (accepted : station.Accepts .off es)
    (configured : station.after .off es = .configured) :
    ∃ before wifiCfg, es = before ++ [⟨.wifiSetConfig wifiCfg, true⟩] := by
  rcases es.eq_nil_or_concat' with rfl | ⟨before, e, rfl⟩
  · cases configured
  · obtain ⟨allowed, -, -⟩ := accepts_steps accepted
    rw [Monitor.after_append] at configured
    have next : (station.after .off before).next e = .configured := configured
    generalize station.after .off before = s at allowed next
    obtain ⟨op, r⟩ := e
    cases op with
    | wifiSetConfig wifiCfg =>
      cases r with
      | true => exact ⟨before, wifiCfg, rfl⟩
      | false => cases next
    | startSntp =>
      obtain rfl : s = .started := allowed
      cases next
    | netifCreateDefaultWifiSta | wifiConnect => cases next
    | _ => cases r <;> cases next

end Traces

/-- On any driver, over any number of commands: the driver is brought up at most once, in order; it
is given a configuration only when it is up, and connects only when it has just been given one; a
check that fails is the last call, and nothing else ends the use of it. -/
theorem station_orderly {σ : Type} (driver : Handler WifiOp WifiOp.Res σ) (d : σ) (config : Config)
    (commands : List Config) :
    let calls := (stationUse config commands).trace driver d
    bringUp calls <+: Station.started.steps ∧
      (∀ before e after, calls = before ++ e :: after →
        (∀ wifiCfg, e.1 = .wifiSetConfig wifiCfg → bringUp before = Station.started.steps) ∧
        (e.1 = .wifiConnect → ∃ before' wifiCfg,
          before = before' ++ [⟨.wifiSetConfig wifiCfg, true⟩]) ∧
        (WifiCall.failed e = true → after = [])) ∧
      (((stationUse config commands).run driver d).1 = none ↔
        ∃ before e, calls = before ++ [e] ∧ WifiCall.failed e = true) := by
  intro calls
  obtain ⟨accepted, known⟩ := stationUse_obeys config commands calls _ (traces_run driver _ d)
  refine ⟨?_, ?_, ?_⟩
  · rcases calls.eq_nil_or_concat' with none | ⟨before, e, split⟩
    · rw [none]
      exact List.nil_prefix
    · rw [split] at accepted ⊢
      obtain ⟨allowed, steps, -⟩ := accepts_steps accepted
      have made : bringUp (before ++ [e]) = (station.after .off before).steps ++
          (Station.due e.1).toList := by
        rw [steps]
        cases due : Station.due e.1 <;> simp [bringUp, Station.steps, due]
      rw [made]
      exact Station.steps_due allowed
  · intro before e after split
    rw [split] at accepted
    obtain ⟨allowed, steps, last⟩ := accepts_steps accepted
    refine ⟨fun wifiCfg same => ?_, fun same => ?_, last⟩
    · rw [same] at allowed
      have up : station.after .off before = .started := allowed
      rw [up] at steps
      exact steps.symm
    · rw [same] at allowed
      exact after_configured (Monitor.accepts_append.mp accepted).1 allowed
  · constructor
    · intro ended
      rw [ended] at known
      rcases calls.eq_nil_or_concat' with none | ⟨before, e, split⟩
      · rw [none] at known
        cases known
      · refine ⟨before, e, split, ?_⟩
        rw [split] at accepted known
        obtain ⟨allowed, -, -⟩ := accepts_steps accepted
        rw [Monitor.after_append] at known
        have halted : (station.after .off before).next e = .halted := known
        by_contra failed
        exact (Station.steps_next allowed (Bool.eq_false_iff.mpr failed)).1 halted
    · intro failing
      obtain ⟨before, e, split, failed⟩ := failing
      rw [split, Monitor.after_append] at known
      have halted : (station.after .off before).next e = Station.reached _ := known
      rw [Station.next_of_failed failed] at halted
      cases result : ((stationUse config commands).run driver d).1 with
      | none => rfl
      | some _ =>
        rw [result] at halted
        cases halted

end Stembot
