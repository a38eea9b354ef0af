import Mathlib.Data.UInt
import Mathlib.Logic.Relation
import Mathlib.Tactic.Common

/-!
# The ping command and its session

`cmd_ping` runs in the task of the console. The session it starts is another task,
which ends on its own, or when it finds that it has been stopped; it then signals
the semaphore that the command waits for, but not for ever.
-/

namespace Stembot

/-- What `cmd_ping` sets or reads of `esp_ping_config_t`. -/
structure PingConfig where
  count : UInt32
  intervalMs : UInt32
  timeoutMs : UInt32

/-- What the SDK provides: `ESP_PING_DEFAULT_CONFIG` and `pdMS_TO_TICKS`. -/
structure PingSdk where
  defaultConfig : PingConfig
  msToTicks : UInt32 → UInt32

/-- `CONFIG_FREERTOS_HZ`. -/
def configTickRateHz : Nat := 100

def portTickPeriodMs : Nat := 1000 / configTickRateHz

def portMaxDelay : UInt32 := 0xFFFFFFFF

/-- Where the command is. The host is resolved in the first phase. -/
inductive PingPhase where
  | parse
  | newSession
  | start
  | take
  | waiting (since : Nat)
  | stop
  | deleteSession
  | deleteSemaphore
  | returned (status : Nat)

/-- Where the task of the session is, with the requests it has sent. -/
inductive SessionPhase where
  | absent
  | idle
  | loop (sent : Nat)
  | request (sent since : Nat)
  | ended

/-- Both tasks, the time in milliseconds, and the semaphore. -/
structure PingTasks where
  now : Nat
  command : PingPhase := .parse
  session : SessionPhase := .absent
  stopped : Bool := false
  given : Bool := false
  deleted : Bool := false
  misused : Bool := false

/-- What the scheduler lets happen. -/
inductive PingEvent where
  | pass
  | command (ok : Bool)
  | session

/-- How far a session of `n` requests, each taking at most `perRequest`, is that was started
at `start`. -/
def SessionPhase.Within (n perRequest start now : Nat) : SessionPhase → Prop
  | .absent | .idle => False
  | .loop sent => sent ≤ n ∧ now ≤ start + sent * perRequest
  | .request sent since => sent < n ∧ since ≤ start + sent * perRequest ∧ now ≤ since + perRequest
  | .ended => True

namespace PingTasks

/-- The count as an `int`; `args` is what the parser has accepted, if it has. -/
def count (args : Option (Option Int32)) : Int32 := args.join.getD 4

variable (sdk : PingSdk) (args : Option (Option Int32))

def cfg : PingConfig := { sdk.defaultConfig with count := (count args).toUInt32 }

def timeoutTicks : UInt32 :=
  sdk.msToTicks ((count args).toUInt32 * ((cfg sdk args).intervalMs + (cfg sdk args).timeoutMs) +
    2000)

/-- The longest a request takes, with the pause after it. -/
def perRequest : Nat := (cfg sdk args).intervalMs.toNat + (cfg sdk args).timeoutMs.toNat

/-- The tick of the deadline has come; the largest delay has none. -/
def expired (since now : Nat) : Bool :=
  timeoutTicks sdk args ≠ portMaxDelay &&
    since / portTickPeriodMs + (timeoutTicks sdk args).toNat ≤ now / portTickPeriodMs

/-- A request is over in time, and the session does nothing else that takes time. -/
def pass (p : PingTasks) : Option PingTasks :=
  match p.session with
  | .loop _ => none
  | .request _ since =>
    if p.now < since + perRequest sdk args then some { p with now := p.now + 1 } else none
  | .absent | .idle | .ended => some { p with now := p.now + 1 }

/-- One statement of `cmd_ping`; `ok` says whether the call it makes succeeds. -/
def commandStep (ok : Bool) (p : PingTasks) : Option PingTasks :=
  match p.command with
  | .parse =>
    if args.isNone || !ok then some { p with command := .returned 1 }
    else some { p with command := .newSession }
  | .newSession =>
    if ok then some { p with command := .start, session := .idle }
    else some { p with command := .returned 1, deleted := true }
  | .start => some { p with command := .take, session := .loop 0 }
  | .take => some { p with command := .waiting p.now }
  | .waiting since =>
    if p.given then some { p with command := .stop, given := false }
    else if expired sdk args since p.now then some { p with command := .stop }
    else none
  | .stop => some { p with command := .deleteSession, stopped := true }
  | .deleteSession => some { p with command := .deleteSemaphore }
  | .deleteSemaphore => some { p with command := .returned 0, deleted := true }
  | .returned _ => none

/-- The signal goes to the semaphore, deleted or not. -/
def onPingEnd (p : PingTasks) : PingTasks :=
  if p.deleted then { p with misused := true } else { p with given := true }

def sessionStep (p : PingTasks) : Option PingTasks :=
  match p.session with
  | .loop sent =>
    if !p.stopped && ((cfg sdk args).count = 0 || sent < (cfg sdk args).count.toNat) then
      some { p with session := .request sent p.now }
    else some (onPingEnd { p with session := .ended })
  | .request sent _ => some { p with session := .loop (sent + 1) }
  | .absent | .idle | .ended => none

def step (p : PingTasks) : PingEvent → Option PingTasks
  | .pass => p.pass sdk args
  | .command ok => p.commandStep sdk args ok
  | .session => p.sessionStep sdk args

def Step (p p' : PingTasks) : Prop := ∃ event, p.step sdk args event = some p'

/-- Any order of the steps of the two tasks. -/
abbrev Leads : PingTasks → PingTasks → Prop := Relation.ReflTransGen (Step sdk args)

/-- Once the semaphore is deleted no session is left that will signal it, and none has. -/
structure Safe (p : PingTasks) : Prop where
  ended : p.deleted = true → p.session = .absent ∨ p.session = .ended
  unused : p.misused = false

/-- The requests of the session, where it is not without end. -/
def requests : Nat := (cfg sdk args).count.toNat

/-- The session has an end, and a whole tick after it the command is still waiting. -/
@[mk_iff]
structure Covers : Prop where
  finite : 0 < requests sdk args
  lasts : requests sdk args * perRequest sdk args + portTickPeriodMs ≤
    (timeoutTicks sdk args).toNat * portTickPeriodMs

/-- The session was started by the time `t`, has kept its pace since, and has signalled only
at its end. -/
structure OnTime (t : Nat) (p : PingTasks) : Prop where
  pace : ∃ start ≤ t, p.session.Within (requests sdk args) (perRequest sdk args) start p.now
  stopped : p.stopped = false
  deleted : p.deleted = false
  given : p.given = true → p.session = .ended

/-- The semaphore has not been touched, and the session is not running. -/
structure Before (session : SessionPhase) (p : PingTasks) : Prop where
  session : p.session = session
  stopped : p.stopped = false
  deleted : p.deleted = false
  given : p.given = false

/-- What is known of the session in each phase of the command. -/
def Phased (p : PingTasks) : PingPhase → Prop
  | .parse | .newSession => p.Before .absent
  | .start => p.Before .idle
  | .take => p.OnTime sdk args p.now
  | .waiting since => p.OnTime sdk args since
  | .stop | .deleteSession | .deleteSemaphore => p.session = .ended
  | .returned _ => p.session = .absent ∨ p.session = .ended

/-- The invariant of the two tasks. -/
structure Sound (p : PingTasks) : Prop where
  phased : p.Phased sdk args p.command
  unused : p.misused = false

variable {sdk args} {p p' : PingTasks}

theorem onPingEnd_eq {session : SessionPhase} (deleted : p.deleted = false) :
    onPingEnd { p with session } = { p with session, given := true } :=
  if_neg (by simp [deleted])

theorem OnTime.mono {t t' : Nat} (onTime : p.OnTime sdk args t) (le : t ≤ t') :
    p.OnTime sdk args t' := by
  obtain ⟨start, before, within⟩ := onTime.pace
  exact { onTime with pace := ⟨start, before.trans le, within⟩ }

/-- A session that has kept its pace has ended when its time is over. -/
theorem OnTime.ended {t : Nat} (onTime : p.OnTime sdk args t)
    (late : t + requests sdk args * perRequest sdk args < p.now) : p.session = .ended := by
  obtain ⟨start, before, within⟩ := onTime.pace
  cases phase : p.session with
  | absent | idle => exact absurd within (by simp [phase, SessionPhase.Within])
  | loop sent =>
    simp only [phase, SessionPhase.Within] at within
    have := Nat.mul_le_mul_right (perRequest sdk args) within.1
    omega
  | request sent since =>
    simp only [phase, SessionPhase.Within] at within
    have := Nat.mul_le_mul_right (perRequest sdk args) within.1
    rw [Nat.succ_mul] at this
    omega
  | ended => rfl

/-- Time passes for everyone, within the limits of a request. -/
theorem pass_cases (passed : p.pass sdk args = some p') :
    p' = { p with now := p.now + 1 } ∧ (∀ sent, p.session ≠ .loop sent) ∧
      ∀ sent since, p.session = .request sent since → p.now < since + perRequest sdk args := by
  unfold pass at passed
  split at passed
  next => cases passed
  next sent since phase =>
    obtain ⟨busy, ⟨⟩⟩ := Option.ite_none_right_eq_some.mp passed
    refine ⟨rfl, by simp [phase], fun sent' since' same => ?_⟩
    obtain ⟨-, rfl⟩ := SessionPhase.request.inj (phase.symm.trans same)
    exact busy
  all_goals
    next phase =>
      cases passed
      exact ⟨rfl, by simp [phase], by simp [phase]⟩

/-- The session begins a request, ends, or is done with a request. -/
theorem sessionStep_cases (stepped : p.sessionStep sdk args = some p') :
    (∃ sent, p.session = .loop sent ∧ p' = { p with session := .request sent p.now } ∧
      (requests sdk args = 0 ∨ sent < requests sdk args)) ∨
    (∃ sent, p.session = .loop sent ∧ p' = onPingEnd { p with session := .ended }) ∨
    ∃ sent since, p.session = .request sent since ∧
    p' = { p with session := .loop (sent + 1) } := by
  unfold sessionStep at stepped
  split at stepped
  next sent phase =>
    split at stepped
    next more =>
      simp only [Bool.and_eq_true, Bool.or_eq_true, decide_eq_true_eq] at more
      refine .inl ⟨sent, phase, (Option.some.inj stepped).symm, more.2.imp_left fun endless => ?_⟩
      simp [requests, endless]
    next => exact .inr (.inl ⟨sent, phase, (Option.some.inj stepped).symm⟩)
  next sent since phase => exact .inr (.inr ⟨sent, since, phase, (Option.some.inj stepped).symm⟩)
  all_goals cases stepped

/-- Neither the time nor the command moves. -/
theorem sessionStep_frame (stepped : p.sessionStep sdk args = some p') :
    p'.now = p.now ∧ p'.command = p.command := by
  rcases sessionStep_cases stepped with ⟨_, _, rfl, _⟩ | ⟨_, _, rfl⟩ | ⟨_, _, _, rfl⟩
  · exact ⟨rfl, rfl⟩
  · unfold onPingEnd
    split <;> exact ⟨rfl, rfl⟩
  · exact ⟨rfl, rfl⟩

theorem OnTime.pass {t : Nat} (onTime : p.OnTime sdk args t) (passed : p.pass sdk args = some p') :
    p'.OnTime sdk args t := by
  obtain ⟨start, before, within⟩ := onTime.pace
  obtain ⟨rfl, unlooped, busy⟩ := pass_cases passed
  refine { onTime with pace := ⟨start, before, ?_⟩ }
  cases phase : p.session with
  | absent | idle => exact absurd within (by simp [phase, SessionPhase.Within])
  | loop sent => exact absurd phase (unlooped sent)
  | request sent since =>
    have := busy sent since phase
    simp only [phase, SessionPhase.Within] at within ⊢
    omega
  | ended => exact trivial

theorem OnTime.sessionStep {t : Nat} (onTime : p.OnTime sdk args t) (finite : 0 < requests sdk args)
    (stepped : p.sessionStep sdk args = some p') :
    p'.OnTime sdk args t ∧ p'.misused = p.misused := by
  obtain ⟨start, before, within⟩ := onTime.pace
  have quiet : p.session ≠ .ended → p.given ≠ true := fun busy given => busy (onTime.given given)
  rcases sessionStep_cases stepped with
    ⟨sent, phase, rfl, fewer⟩ | ⟨sent, phase, rfl⟩ | ⟨sent, since, phase, rfl⟩
  · simp only [phase, SessionPhase.Within] at within
    refine ⟨{ onTime with pace := ⟨start, before, ?_⟩, given := fun given => ?_ }, rfl⟩
    · exact ⟨fewer.resolve_left finite.ne', within.2, Nat.le_add_right _ _⟩
    · exact absurd given (quiet (by simp [phase]))
  · rw [onPingEnd_eq onTime.deleted]
    exact ⟨⟨⟨start, before, trivial⟩, onTime.stopped, onTime.deleted, fun _ => rfl⟩, rfl⟩
  · simp only [phase, SessionPhase.Within] at within
    refine ⟨{ onTime with pace := ⟨start, before, ?_⟩, given := fun given => ?_ }, rfl⟩
    · simp only [SessionPhase.Within, Nat.succ_mul]
      omega
    · exact absurd given (quiet (by simp [phase]))

theorem Phased.pass {phase : PingPhase} (phased : p.Phased sdk args phase)
    (passed : p.pass sdk args = some p') :
    p'.Phased sdk args phase := by
  have onTime : ∀ {t}, p.OnTime sdk args t → p'.OnTime sdk args t :=
    fun onTime => onTime.pass passed
  obtain ⟨rfl, -⟩ := pass_cases passed
  cases phase with
  | take => exact (onTime phased).mono (Nat.le_succ _)
  | waiting since => exact onTime phased
  | parse | newSession | start => exact { phased with }
  | stop | deleteSession | deleteSemaphore | returned => exact phased

/-- The session steps only when it is running. -/
theorem Phased.sessionStep {phase : PingPhase} (phased : p.Phased sdk args phase)
    (finite : 0 < requests sdk args) (stepped : p.sessionStep sdk args = some p') :
    p'.Phased sdk args phase ∧ p'.misused = p.misused := by
  have running : p.session ≠ .absent ∧ p.session ≠ .idle ∧ p.session ≠ .ended := by
    rcases sessionStep_cases stepped with ⟨_, same, _⟩ | ⟨_, same, _⟩ | ⟨_, _, same, _⟩ <;>
      simp [same]
  cases phase with
  | take =>
    rw [Phased, (sessionStep_frame stepped).1]
    exact OnTime.sessionStep phased finite stepped
  | waiting since => exact OnTime.sessionStep phased finite stepped
  | parse | newSession => exact absurd phased.session running.1
  | start => exact absurd phased.session running.2.1
  | stop | deleteSession | deleteSemaphore => exact absurd phased running.2.2
  | returned => exact absurd phased (not_or.mpr ⟨running.1, running.2.2⟩)

/-- A session starts on time, with no request sent. -/
theorem Before.starts (before : p.Before .idle) :
    ({ p with command := .take, session := .loop 0 } : PingTasks).OnTime sdk args p.now := by
  have pace : (SessionPhase.loop 0).Within (requests sdk args) (perRequest sdk args) p.now p.now :=
    ⟨Nat.zero_le _, Nat.le_add_right _ _⟩
  refine ⟨⟨p.now, le_rfl, pace⟩, before.stopped, before.deleted, fun given => ?_⟩
  exact absurd given (by simp [before.given])

/-- The deadline comes when the session has ended. -/
theorem OnTime.expired {since : Nat} (onTime : p.OnTime sdk args since) (covers : Covers sdk args)
    (limited : PingTasks.expired sdk args since p.now = true) : p.session = .ended := by
  have lasts := covers.lasts
  simp only [PingTasks.expired, Bool.and_eq_true, decide_eq_true_eq] at limited
  refine onTime.ended ?_
  simp only [portTickPeriodMs, configTickRateHz] at lasts limited
  omega

/-- The command goes on to the next phase; its wait ends when the session has. -/
theorem Sound.commandStep {ok : Bool} (sound : p.Sound sdk args) (covers : Covers sdk args)
    (stepped : p.commandStep sdk args ok = some p') : p'.Sound sdk args := by
  obtain ⟨phased, unused⟩ := sound
  unfold PingTasks.commandStep at stepped
  cases phase : p.command with
  | parse =>
    simp only [phase] at stepped phased
    split at stepped <;> cases stepped
    · exact ⟨.inl phased.session, unused⟩
    · exact ⟨{ phased with }, unused⟩
  | newSession =>
    simp only [phase] at stepped phased
    split at stepped <;> cases stepped
    · exact ⟨{ phased with session := rfl }, unused⟩
    · exact ⟨.inl phased.session, unused⟩
  | start =>
    simp only [phase] at stepped phased
    cases stepped
    exact ⟨phased.starts, unused⟩
  | take =>
    simp only [phase] at stepped phased
    cases stepped
    exact ⟨{ phased with }, unused⟩
  | waiting since =>
    simp only [phase] at stepped phased
    split at stepped
    next given =>
      cases stepped
      exact ⟨phased.given given, unused⟩
    next =>
      obtain ⟨limited, ⟨⟩⟩ := Option.ite_none_right_eq_some.mp stepped
      exact ⟨phased.expired covers limited, unused⟩
  | stop | deleteSession =>
    simp only [phase] at stepped phased
    cases stepped
    exact ⟨phased, unused⟩
  | deleteSemaphore =>
    simp only [phase] at stepped phased
    cases stepped
    exact ⟨.inr phased, unused⟩
  | returned =>
    simp only [phase] at stepped
    cases stepped

theorem Sound.step (sound : p.Sound sdk args) (covers : Covers sdk args)
    (stepped : Step sdk args p p') :
    p'.Sound sdk args := by
  obtain ⟨event, stepped⟩ := stepped
  cases event with
  | pass =>
    obtain ⟨same, -⟩ := pass_cases stepped
    refine ⟨?_, by rw [same]; exact sound.unused⟩
    have command : p'.command = p.command := by rw [same]
    rw [command]
    exact sound.phased.pass stepped
  | command ok => exact sound.commandStep covers stepped
  | session =>
    obtain ⟨phased, unused⟩ := sound.phased.sessionStep covers.finite stepped
    refine ⟨?_, unused.trans sound.unused⟩
    rw [(sessionStep_frame stepped).2]
    exact phased

theorem sound_of_leads (covers : Covers sdk args) {now : Nat} (leads : Leads sdk args { now } p) :
    p.Sound sdk args := by
  induction leads with
  | refl => exact ⟨⟨rfl, rfl, rfl, rfl⟩, rfl⟩
  | tail _ stepped ih => exact ih.step covers stepped

theorem Sound.safe (sound : p.Sound sdk args) : p.Safe := by
  refine ⟨fun deleted => ?_, sound.unused⟩
  have phased := sound.phased
  cases phase : p.command with
  | parse | newSession =>
    rw [phase] at phased
    exact .inl phased.session
  | start | take | waiting =>
    rw [phase] at phased
    exact absurd deleted (by simp [phased.deleted])
  | stop | deleteSession | deleteSemaphore =>
    rw [phase] at phased
    exact .inr phased
  | returned =>
    rw [phase] at phased
    exact phased

theorem step_request {sent : Nat} (phase : p.session = .loop sent) (running : p.stopped = false)
    (more : requests sdk args = 0 ∨ sent < requests sdk args) :
    Step sdk args p { p with session := .request sent p.now } := by
  have goes : (!p.stopped && ((cfg sdk args).count = 0 || sent < (cfg sdk args).count.toNat)) =
      true := by
    simpa [running, requests, ← UInt32.toNat_inj] using more
  refine ⟨.session, ?_⟩
  simp only [PingTasks.step, PingTasks.sessionStep, phase, goes, if_true]

theorem step_reply {sent since : Nat} (phase : p.session = .request sent since) :
    Step sdk args p { p with session := .loop (sent + 1) } :=
  ⟨.session, by simp only [PingTasks.step, PingTasks.sessionStep, phase]⟩

theorem step_pass {sent since : Nat} (phase : p.session = .request sent since)
    (busy : p.now < since + perRequest sdk args) : Step sdk args p { p with now := p.now + 1 } :=
  ⟨.pass, by simp only [PingTasks.step, PingTasks.pass, phase, busy, if_true]⟩

variable (sdk args) in
/-- The command is waiting since the last millisecond of a tick, and every request takes as
long as it may. -/
def slow (sent elapsed : Nat) : PingTasks where
  now := 9 + elapsed
  command := .waiting 9
  session := .request sent (9 + sent * perRequest sdk args)

theorem leads_slow (accepted : args.isSome) (busy : 0 < perRequest sdk args) {elapsed : Nat}
    (unfinished : requests sdk args = 0 ∨ elapsed ≤ requests sdk args * perRequest sdk args) :
    ∃ sent, elapsed ≤ (sent + 1) * perRequest sdk args ∧ sent * perRequest sdk args ≤ elapsed ∧
      (requests sdk args = 0 ∨ sent < requests sdk args) ∧
      Leads sdk args { now := 9 } (slow sdk args sent elapsed) := by
  induction elapsed with
  | zero =>
    obtain ⟨count, rfl⟩ := Option.isSome_iff_exists.mp accepted
    have first := Nat.eq_zero_or_pos (requests sdk (some count))
    refine ⟨0, Nat.zero_le _, by simp, first, ?_⟩
    have waiting : Leads sdk (some count) { now := 9 }
        { now := 9, command := .waiting 9, session := .loop 0 } :=
      .trans (.single ⟨.command true, rfl⟩) <| .trans (.single ⟨.command true, rfl⟩) <|
        .trans (.single ⟨.command true, rfl⟩) (.single ⟨.command true, rfl⟩)
    simpa [slow] using waiting.tail (step_request rfl rfl first)
  | succ elapsed ih =>
    obtain ⟨sent, upper, lower, unsent, leads⟩ :=
      ih (unfinished.imp_right fun le => Nat.le_of_succ_le le)
    rcases Nat.lt_or_eq_of_le upper with within | full
    · refine ⟨sent, within, Nat.le_succ_of_le lower, unsent, leads.tail (step_pass rfl ?_)⟩
      rw [Nat.succ_mul] at within
      simp only [slow]
      omega
    · -- The request is over at this moment, and the next one begins.
      have more : requests sdk args = 0 ∨ sent + 1 < requests sdk args := by
        refine unfinished.imp_right fun le => ?_
        exact Nat.lt_of_mul_lt_mul_right (full ▸ le)
      refine ⟨sent + 1, ?_, by omega, more, ?_⟩
      · rw [Nat.succ_mul (sent + 1)]
        omega
      · have next := (leads.tail (step_reply rfl)).tail (step_request rfl rfl more)
        have passed := next.tail (step_pass rfl (by simpa [slow] using busy))
        simpa [slow, full, Nat.add_assoc] using passed

/-- The command gives up, and the session signals what it has left behind. -/
theorem signals_late (accepted : args.isSome) (busy : 0 < perRequest sdk args)
    (limited : timeoutTicks sdk args ≠ portMaxDelay) (short : ¬ Covers sdk args) :
    ∃ p, Leads sdk args { now := 9 } p ∧ p.misused = true := by
  have ten : portTickPeriodMs = 10 := rfl
  -- The elapsed time at the tick of the deadline.
  let elapsed := (timeoutTicks sdk args).toNat * 10 - 9
  have unfinished : requests sdk args = 0 ∨ elapsed ≤ requests sdk args * perRequest sdk args := by
    refine (Nat.eq_zero_or_pos _).imp_right fun finite => ?_
    have early := mt (Covers.mk finite) short
    rw [ten] at early
    omega
  obtain ⟨sent, -, -, -, leads⟩ := leads_slow accepted busy unfinished
  have due : expired sdk args 9 (9 + elapsed) = true := by
    simp only [expired, limited, ne_eq, not_false_eq_true, decide_true, Bool.true_and,
      decide_eq_true_eq, ten]
    omega
  have gives : Step sdk args (slow sdk args sent elapsed) { slow sdk args sent elapsed with
    command := .stop } :=
    ⟨.command true, by simp [PingTasks.step, PingTasks.commandStep, slow, due]⟩
  have stopped := (leads.tail gives).tail ⟨.command true, rfl⟩
  have deleted := (stopped.tail ⟨.command true, rfl⟩).tail ⟨.command true, rfl⟩
  exact ⟨_, (deleted.tail ⟨.session, rfl⟩).tail ⟨.session, rfl⟩, rfl⟩

theorem safe_iff_covers (accepted : args.isSome) (busy : 0 < perRequest sdk args)
    (limited : timeoutTicks sdk args ≠ portMaxDelay) :
    (∀ now p, Leads sdk args { now } p → p.Safe) ↔ Covers sdk args := by
  constructor
  · intro safe
    by_contra short
    obtain ⟨p, leads, misused⟩ := signals_late accepted busy limited short
    exact absurd misused (by simp [(safe 9 p leads).unused])
  · intro covers now p leads
    exact (sound_of_leads covers leads).safe

/-- Arguments that the parser rejects start no session. -/
theorem safe_of_rejected {now : Nat} (leads : Leads sdk none { now } p) : p.Safe := by
  have phases : (p.command = .parse ∨ p.command = .returned 1) ∧ p.Before .absent ∧
      p.misused = false := by
    induction leads with
    | refl => exact ⟨.inl rfl, ⟨rfl, rfl, rfl, rfl⟩, rfl⟩
    | tail _ stepped ih =>
      obtain ⟨phase, before, unused⟩ := ih
      obtain ⟨event, stepped⟩ := stepped
      cases event with
      | pass =>
        obtain ⟨rfl, -⟩ := pass_cases stepped
        exact ⟨phase, { before with }, unused⟩
      | command ok =>
        rcases phase with phase | phase <;>
          simp only [PingTasks.step, PingTasks.commandStep, phase] at stepped <;>
          cases stepped
        exact ⟨.inr rfl, { before with }, unused⟩
      | session => simp [PingTasks.step, PingTasks.sessionStep, before.session] at stepped
  exact ⟨fun _ => .inl phases.2.1.session, phases.2.2⟩

section Wait

variable {width : Nat} (wide : 2 ^ 32 ≤ width)
  (converts : ∀ ms, (sdk.msToTicks ms).toNat = ms.toNat * configTickRateHz % width / 1000)

include converts

/-- The ticks of the wait, whose milliseconds wrap at `2 ^ 32`. -/
theorem timeoutTicks_toNat (args : Option (Option Int32)) : (timeoutTicks sdk args).toNat =
    (requests sdk args * perRequest sdk args + 2000) % 2 ^ 32 *
      configTickRateHz % width / 1000 := by
  have wraps :
    ((count args).toUInt32 * ((cfg sdk args).intervalMs + (cfg sdk args).timeoutMs) + 2000).toNat =
      (requests sdk args * perRequest sdk args + 2000) % 2 ^ 32 := by
    simp only [UInt32.toNat_add, UInt32.toNat_mul, UInt32.toNat_ofNat]
    simp [requests, perRequest, cfg, Nat.add_mod, Nat.mul_mod]
  rw [timeoutTicks, converts, wraps]

theorem timeoutTicks_limited : timeoutTicks sdk args ≠ portMaxDelay := by
  intro unlimited
  have ticks := timeoutTicks_toNat converts args
  have most := Nat.mod_le ((requests sdk args * perRequest sdk args + 2000) % 2 ^ 32 *
    configTickRateHz) width
  have largest : portMaxDelay.toNat = 2 ^ 32 - 1 := rfl
  rw [unlimited, largest] at ticks
  unfold configTickRateHz at ticks most
  omega

include wide

theorem covers_iff_fits : Covers sdk args ↔
    0 < requests sdk args ∧ requests sdk args * perRequest sdk args + 2000 < 2 ^ 32 ∧
      (requests sdk args * perRequest sdk args + 2000) * configTickRateHz < width := by
  rw [covers_iff, timeoutTicks_toNat converts args]
  generalize requests sdk args * perRequest sdk args = longest
  simp only [portTickPeriodMs, configTickRateHz]
  refine and_congr_right fun _ => ⟨fun lasts => ?_, fun ⟨narrow, narrower⟩ => ?_⟩
  · have cut := Nat.mod_le ((longest + 2000) % 2 ^ 32 * 100) width
    have narrow : longest + 2000 < 2 ^ 32 := by omega
    refine ⟨narrow, ?_⟩
    by_contra wider
    rw [Nat.mod_eq_of_lt narrow, Nat.mod_eq_sub_mod (not_lt.mp wider)] at lasts
    have rest := Nat.mod_le ((longest + 2000) * 100 - width) width
    omega
  · rw [Nat.mod_eq_of_lt narrow, Nat.mod_eq_of_lt narrower]
    omega

end Wait

/-- Whatever the order of steps, the semaphore is signalled only while it exists exactly when the
count is not 0 and the wait for it wraps neither in its 32 bits nor where it becomes ticks. -/
theorem signals_in_time_iff (sdk : PingSdk) {width : Nat} (wide : 2 ^ 32 ≤ width)
    (converts : ∀ ms, (sdk.msToTicks ms).toNat = ms.toNat * configTickRateHz % width / 1000)
    (busy : 0 < sdk.defaultConfig.intervalMs.toNat + sdk.defaultConfig.timeoutMs.toNat)
    (args : Option (Option Int32)) :
    (∀ now p, Leads sdk args { now } p → p.Safe) ↔
      ∀ count, args = some count →
        let requests := (count.getD 4).toUInt32.toNat
        let waitMs := requests * (sdk.defaultConfig.intervalMs.toNat +
          sdk.defaultConfig.timeoutMs.toNat) + 2000
        0 < requests ∧ waitMs < 2 ^ 32 ∧ waitMs * configTickRateHz < width := by
  cases args with
  | none =>
    constructor
    · intro _ count rejected
      cases rejected
    · intro _ now p leads
      exact safe_of_rejected leads
  | some count =>
    rw [safe_iff_covers rfl busy (timeoutTicks_limited converts), covers_iff_fits wide converts]
    constructor
    · rintro fits _ ⟨⟩
      exact fits
    · intro fits
      exact fits count rfl

/-- ESP-IDF's defaults, and a conversion that multiplies in 64 bits. -/
def sampleSdk : PingSdk where
  defaultConfig := { count := 5, intervalMs := 1000, timeoutMs := 1000 }
  msToTicks ms := (ms.toUInt64 * 100 / 1000).toUInt32

theorem sampleSdk_converts (ms : UInt32) :
    (sampleSdk.msToTicks ms).toNat = ms.toNat * configTickRateHz % 2 ^ 64 / 1000 := by
  have bound := ms.toNat_lt
  simp only [sampleSdk, configTickRateHz, UInt64.toNat_toUInt32, UInt64.toNat_div, UInt64.toNat_mul,
    UInt32.toNat_toUInt64, UInt64.toNat_ofNat]
  rw [Nat.mod_eq_of_lt (show 100 < 2 ^ 64 by decide),
    Nat.mod_eq_of_lt (show 1000 < 2 ^ 64 by decide),
    Nat.mod_eq_of_lt (show ms.toNat * 100 < 2 ^ 64 by omega)]
  omega

/-- Without a count all is well; of 2147482 requests and of 2147483, only the former are. -/
theorem signals_in_time_sample :
    (∀ now p, Leads sampleSdk (some none) { now } p → p.Safe) ∧
    (∀ now p, Leads sampleSdk (some (some 2147482)) { now } p → p.Safe) ∧
    ¬ ∀ now p, Leads sampleSdk (some (some 2147483)) { now } p → p.Safe := by
  have exactly := signals_in_time_iff sampleSdk (by decide) sampleSdk_converts (by decide)
  refine ⟨(exactly (some none)).mpr ?_, (exactly _).mpr ?_, fun safe => ?_⟩
  · rintro _ ⟨⟩
    decide
  · rintro _ ⟨⟩
    decide
  · exact absurd ((exactly _).mp safe _ rfl) (by decide)

/-- With a count of 0, of -1, or of 2147483 the session may signal a semaphore that is deleted. -/
theorem deleted_semaphore_is_signalled :
    (∃ now p, Leads sampleSdk (some (some 0)) { now } p ∧ p.misused = true) ∧
    (∃ now p, Leads sampleSdk (some (some (-1))) { now } p ∧ p.misused = true) ∧
    ∃ now p, Leads sampleSdk (some (some 2147483)) { now } p ∧ p.misused = true := by
  have late : ∀ count : Int32, ¬ Covers sampleSdk (some (some count)) →
      ∃ now p, Leads sampleSdk (some (some count)) { now } p ∧ p.misused = true := by
    intro count short
    have busy : 0 < perRequest sampleSdk (some (some count)) := show 0 < 1000 + 1000 by decide
    exact ⟨9, signals_late rfl busy (timeoutTicks_limited sampleSdk_converts) short⟩
  refine ⟨late 0 ?_, late (-1) ?_, late 2147483 ?_⟩
  all_goals
    rw [covers_iff_fits (by decide) sampleSdk_converts]
    decide

end PingTasks

end Stembot
