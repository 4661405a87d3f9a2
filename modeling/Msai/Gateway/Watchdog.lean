import Msai.Lib.Binary64
import Msai.Lib.RateLimit
import Msai.Lib.Transition
import Mathlib.Data.List.Chain

namespace Msai.Gateway

open Msai.Lib Msai.Lib.TransitionSystem

/-!
# The gateway watchdog
(`services/gateway_watchdog.py`)

`decide` is a pure function of the signals of one tick and of the state the last tick has left.
While the gateway is not confirmed healthy, nothing resets this state, and the restarts are limited:
by a grace period, by a number for each window, and after an escalation to one for each cooldown.

* `Signals.decide` — the decision;
* `WatchdogRun`, `watchdogSystem` — the ticks of one outage and the calls they have made;
* `DecideEffect` — what a call may do to the state;
* `WatchdogInv` — the invariant: what the state remembers of the calls;
* `watchdog_limits_restarts` — the theorem.

Times are seconds, as floats: the rational numbers they stand for, with sums and differences
rounded.  Overflow is left out.
-/

/-! ### The state and the signals -/

inductive GatewayHealth
  | healthy
  | unhealthy
  | starting
  | unknown
deriving DecidableEq, Repr

inductive Action
  | none
  | restart
  | alertOnly
  | escalate
  | recovered
deriving DecidableEq, Repr

structure WatchdogConfig where
  graceSecs : ℚ := 60
  restartCap : ℤ := 3
  windowSecs : ℚ := 900
  cooldownSecs : ℚ := 1800
  alertThrottleSecs : ℚ := 1800

structure WatchdogState where
  downSince : Option ℚ := none
  restartEvents : List ℚ := []
  cooldownUntil : Option ℚ := none
  escalated : Bool := false
  postCooldownRetryUsed : Bool := false
  lastAlertReason : Option String := none
  lastAlertAt : Option ℚ := none
deriving DecidableEq

/-- What a tick observes. -/
structure Tick where
  containerRunning : Bool
  health : GatewayHealth
  gatewayConnected : Bool
  /-- `none` if it could not be determined. -/
  liveDeploymentActive : Option Bool
  now : ℚ
deriving DecidableEq

/-- The argument of `decide`. -/
structure Signals extends Tick where
  state : WatchdogState
  config : WatchdogConfig

structure Decision where
  action : Action
  alertLevel : Option String
  alertTitle : Option String
  alertMessage : Option String
  newState : WatchdogState
  reason : String
deriving DecidableEq

/-! ### The decision -/

/-- `_is_confirmed_healthy`. -/
def Tick.isConfirmedHealthy (s : Tick) : Bool :=
  s.containerRunning && s.health == .healthy && s.gatewayConnected

/-- `_is_down`. -/
def Tick.isDown (s : Tick) : Bool :=
  if !s.containerRunning then true
  else
    match s.health with
    | .starting => false
    | .unhealthy => true
    | _ => !s.gatewayConnected

/-- `int(secs / 60)`, which drops the fraction. -/
def minutes (secs : ℚ) : String := toString (Binary64.toInt (Binary64.round (secs / 60)))

/-- `now - t`. -/
def elapsed (t now : ℚ) : ℚ := Binary64.round (now - t)

theorem elapsed_mono : GapMono elapsed := fun _ _ _ _ ht hu =>
  Binary64.round_mono (sub_le_sub hu ht)

/-- A decision without an alert. -/
def quiet (action : Action) (state : WatchdogState) (reason : String) : Decision :=
  { action := action, alertLevel := none, alertTitle := none, alertMessage := none,
    newState := state, reason := reason }

/-- The start of the outage: this tick, if it is the first one down. -/
def Signals.downSince (s : Signals) : ℚ := s.state.downSince.getD s.now

/-- `base`. -/
def Signals.base (s : Signals) : WatchdogState :=
  { s.state with downSince := some s.downSince }

/-- The reason of an alert for a deployment that is live, or may be. -/
def Signals.liveReason (s : Signals) : String :=
  if s.liveDeploymentActive = some true then "live-active" else "live-status-unknown"

/-- The branch of a deployment that is live, or may be: the alert is throttled, the action is
    not. -/
def Signals.alertOnly (s : Signals) : Decision :=
  if s.state.lastAlertReason = some s.liveReason ∧
      s.state.lastAlertAt.any (fun t => elapsed t s.now < s.config.alertThrottleSecs) then
    quiet .alertOnly s.base s.liveReason
  else
    { action := .alertOnly
      alertLevel := some "warning"
      alertTitle := some "IB Gateway down during live trading"
      alertMessage := some ("ib-gateway is down/unhealthy (" ++ s.liveReason ++
        "); NOT restarting until the deployment halts/flattens. " ++
        "Node disconnect-handler will halt it.")
      newState := { s.base with lastAlertReason := some s.liveReason, lastAlertAt := some s.now }
      reason := s.liveReason }

/-- `s.now + cfg.cooldown_secs`. -/
def cooldownEnd (cfg : WatchdogConfig) (now : ℚ) : ℚ := Binary64.round (now + cfg.cooldownSecs)

/-- The branch behind the cooldown of an escalation. -/
def Signals.postCooldown (s : Signals) : Decision :=
  if !s.state.postCooldownRetryUsed then
    { action := .restart
      alertLevel := some "warning"
      alertTitle := some "IB Gateway post-cooldown retry"
      alertMessage := some ("Cooldown elapsed after a persistent-failure escalation — making " ++
        "ONE recovery attempt (recreate).")
      newState := { s.base with postCooldownRetryUsed := true, downSince := none }
      reason := "post-cooldown-retry" }
  else
    { action := .escalate
      alertLevel := some "critical"
      alertTitle := some "IB Gateway STILL failing after cooldown retry"
      alertMessage := some ("ib-gateway did not recover after the post-cooldown retry. " ++
        "Auto-restart STOPPED again for " ++ minutes s.config.cooldownSecs ++
        " min. Operator intervention needed — likely an IBKR auth/config issue " ++
        "(paper-vs-live login / IB Key 2FA).")
      newState :=
        { s.base with
          restartEvents := []
          cooldownUntil := some (cooldownEnd s.config s.now)
          escalated := true
          postCooldownRetryUsed := false }
      reason := "re-escalate-after-retry" }

/-- `recent`: the restarts of the window that ends now. -/
def Signals.recentRestarts (s : Signals) : List ℚ :=
  recent elapsed s.config.windowSecs s.now s.state.restartEvents

/-- The branch of an idle gateway. -/
def Signals.antiFlap (s : Signals) : Decision :=
  if s.config.restartCap ≤ s.recentRestarts.length then
    { action := .escalate
      alertLevel := some "critical"
      alertTitle := some "IB Gateway persistent failure — operator needed"
      alertMessage := some ("ib-gateway failed to recover after " ++
        toString s.recentRestarts.length ++ " restarts in " ++ minutes s.config.windowSecs ++
        " min. Auto-restart STOPPED for " ++ minutes s.config.cooldownSecs ++
        " min. Likely an IBKR auth/config issue " ++ "(e.g. paper-vs-live login / IB Key 2FA) — needs manual fix.")
      newState :=
        { s.base with
          restartEvents := s.recentRestarts
          cooldownUntil := some (cooldownEnd s.config s.now)
          escalated := true
          postCooldownRetryUsed := false }
      reason := "escalate-restart-cap" }
  else
    { action := .restart
      alertLevel := some "warning"
      alertTitle := some "IB Gateway auto-restart"
      alertMessage := some ("ib-gateway down/unhealthy while idle — recreating (attempt " ++
        toString (s.recentRestarts.length + 1) ++ ").")
      newState := { s.base with restartEvents := s.recentRestarts ++ [s.now], downSince := none }
      reason := "idle-down-restart" }

/-- The branch of a gateway that is not down. -/
def Signals.up (s : Signals) : Decision :=
  if s.isConfirmedHealthy then
    if s.state.escalated then
      { action := .recovered
        alertLevel := some "info"
        alertTitle := some "IB Gateway recovered"
        alertMessage := some "ib-gateway session is healthy again."
        newState := {}
        reason := "recovered" }
    else quiet .none {} "healthy"
  else quiet .none s.state "transitional"

/-- `decide`. -/
def Signals.decide (s : Signals) : Decision :=
  if !s.isDown then s.up
  else if elapsed s.downSince s.now < s.config.graceSecs then quiet .none s.base "within-grace"
  else if s.state.cooldownUntil.any fun t => s.now < t then quiet .none s.base "cooldown"
  else if s.liveDeploymentActive ≠ some false then s.alertOnly
  else if s.state.escalated && s.state.cooldownUntil.isSome then s.postCooldown
  else s.antiFlap

/-! ### The calls of a run -/

/-- A call of `decide`. -/
structure Call where
  tick : Tick
  decision : Decision
deriving DecidableEq

def Call.action (c : Call) : Action := c.decision.action

def Call.now (c : Call) : ℚ := c.tick.now

/-- The state that is carried from tick to tick, and the calls so far. -/
structure WatchdogRun where
  state : WatchdogState
  calls : List Call
deriving DecidableEq

/-- Each call gets the state of the call before. -/
def watchdogSystem (cfg : WatchdogConfig) : TransitionSystem WatchdogRun Tick where
  step run tick :=
    let decision := Signals.decide { tick with state := run.state, config := cfg }
    some { state := decision.newState,
           calls := run.calls ++ [{ tick := tick, decision := decision }] }

/-- The clock does not go back, and the gateway is not confirmed healthy. -/
def DuringOutage (run : WatchdogRun) (tick : Tick) : Prop :=
  tick.isConfirmedHealthy = false ∧ ∀ c ∈ run.calls, c.now ≤ tick.now

instance (run : WatchdogRun) (tick : Tick) : Decidable (DuringOutage run tick) :=
  inferInstanceAs (Decidable (_ ∧ _))

/-- When the calls with this action were made. -/
def timesOf (action : Action) (calls : List Call) : List ℚ :=
  (calls.filter fun c => c.action == action).map (·.now)

/-- The calls up to and including the first ESCALATE. -/
def upToEscalate : List Call → List Call
  | [] => []
  | c :: calls => if c.action = .escalate then [c] else c :: upToEscalate calls

/-- The RESTART and ESCALATE decisions from the first ESCALATE on. -/
def fromEscalate (calls : List Call) : List Action :=
  ((calls.map (·.action)).filter fun a => a == .restart || a == .escalate).dropWhile
    fun a => a != .escalate

/-- The state of a run that has an escalation behind it. -/
def WatchdogState.PastEscalation (st : WatchdogState) : Prop :=
  st.escalated = true ∧ st.cooldownUntil.isSome = true

instance (st : WatchdogState) : Decidable st.PastEscalation := inferInstanceAs (Decidable (_ ∧ _))

/-! ### What a call may do -/

section Effect

variable {cfg : WatchdogConfig} {st : WatchdogState} {tick : Tick} {d : Decision}

/-- What a call without a confirmed-healthy gateway does to the state. -/
inductive DecideEffect (cfg : WatchdogConfig) (st : WatchdogState) (tick : Tick) (d : Decision) :
    Prop
  | keeps (haction : d.action ≠ .restart ∧ d.action ≠ .escalate)
      (hdown : d.newState.downSince = st.downSince ∨
        d.newState.downSince = some (st.downSince.getD tick.now))
      (hevents : d.newState.restartEvents = st.restartEvents)
      (hcooldown : d.newState.cooldownUntil = st.cooldownUntil)
      (hescalated : d.newState.escalated = st.escalated)
      (hused : d.newState.postCooldownRetryUsed = st.postCooldownRetryUsed)
  /-- The retry of a cooldown, or a restart the window has room for. -/
  | restart (haction : d.action = .restart) (hidle : tick.liveDeploymentActive = some false)
      (hgrace : cfg.graceSecs ≤ elapsed (st.downSince.getD tick.now) tick.now)
      (hover : ∀ t, st.cooldownUntil = some t → t ≤ tick.now)
      (hdown : d.newState.downSince = none)
      (hcooldown : d.newState.cooldownUntil = st.cooldownUntil)
      (hescalated : d.newState.escalated = st.escalated)
      (hkind :
        (st.PastEscalation ∧ st.postCooldownRetryUsed = false ∧
          d.newState.postCooldownRetryUsed = true) ∨
        (¬ st.PastEscalation ∧
          ((recent elapsed cfg.windowSecs tick.now st.restartEvents).length : ℤ)
            < cfg.restartCap ∧
          d.newState.restartEvents =
            recent elapsed cfg.windowSecs tick.now st.restartEvents ++ [tick.now]))
  | escalate (haction : d.action = .escalate)
      (hgrace : cfg.graceSecs ≤ elapsed (st.downSince.getD tick.now) tick.now)
      (hdown : d.newState.downSince = some (st.downSince.getD tick.now))
      (hover : ∀ t, st.cooldownUntil = some t → t ≤ tick.now)
      (hcooldown : d.newState.cooldownUntil = some (cooldownEnd cfg tick.now))
      (hescalated : d.newState.escalated = true)
      (hused : d.newState.postCooldownRetryUsed = false)
      (hspent : st.PastEscalation → st.postCooldownRetryUsed = true)

theorem decide_effect (hhealthy : tick.isConfirmedHealthy = false) :
    DecideEffect cfg st tick (Signals.decide { tick with state := st, config := cfg }) := by
  have hnone : Action.none ≠ .restart ∧ Action.none ≠ .escalate := by decide
  have halert : Action.alertOnly ≠ .restart ∧ Action.alertOnly ≠ .escalate := by decide
  unfold Signals.decide
  split
  · unfold Signals.up
    rw [if_neg (by simpa using hhealthy)]
    exact .keeps hnone (Or.inl rfl) rfl rfl rfl rfl
  · split
    · exact .keeps hnone (Or.inr rfl) rfl rfl rfl rfl
    · rename_i hgrace
      have hgrace' : cfg.graceSecs ≤ elapsed (st.downSince.getD tick.now) tick.now :=
        not_lt.mp hgrace
      split
      · exact .keeps hnone (Or.inr rfl) rfl rfl rfl rfl
      · rename_i hcooldown
        have hover : ∀ t, st.cooldownUntil = some t → t ≤ tick.now := by
          intro t ht
          simpa [ht] using hcooldown
        split
        · unfold Signals.alertOnly
          split
          · exact .keeps halert (Or.inr rfl) rfl rfl rfl rfl
          · exact .keeps halert (Or.inr rfl) rfl rfl rfl rfl
        · rename_i hlive
          have hidle : tick.liveDeploymentActive = some false := not_not.mp hlive
          split
          · rename_i hpast
            have hpast' : st.PastEscalation := by simpa [WatchdogState.PastEscalation] using hpast
            unfold Signals.postCooldown
            split
            · rename_i hunused
              have hunused' : st.postCooldownRetryUsed = false := by simpa using hunused
              exact .restart rfl hidle hgrace' hover rfl rfl rfl (Or.inl ⟨hpast', hunused', rfl⟩)
            · rename_i hspent
              have hspent' : st.postCooldownRetryUsed = true := by simpa using hspent
              exact .escalate rfl hgrace' rfl hover rfl rfl rfl fun _ => hspent'
          · rename_i hpast
            have hpast' : ¬ st.PastEscalation := by simpa [WatchdogState.PastEscalation] using hpast
            unfold Signals.antiFlap
            split
            · exact .escalate rfl hgrace' rfl hover rfl rfl rfl fun h => absurd h hpast'
            · rename_i hroom
              exact .restart rfl hidle hgrace' hover rfl rfl rfl
                (Or.inr ⟨hpast', not_le.mp hroom, rfl⟩)

end Effect

/-! ### One more call -/

section Calls

variable {calls : List Call} {c : Call} {a : Action} {t : ℚ}

theorem timesOf_concat (a : Action) (calls : List Call) (c : Call) :
    timesOf a (calls ++ [c]) = timesOf a calls ++ if c.action = a then [c.now] else [] := by
  unfold timesOf
  rw [List.filter_append, List.map_append]
  congr 1
  by_cases h : c.action = a <;> simp [h]

theorem timesOf_concat_self (h : c.action = a) :
    timesOf a (calls ++ [c]) = timesOf a calls ++ [c.now] := by
  rw [timesOf_concat, if_pos h]

theorem timesOf_concat_other (h : c.action ≠ a) :
    timesOf a (calls ++ [c]) = timesOf a calls := by
  rw [timesOf_concat, if_neg h, List.append_nil]

theorem le_of_mem_timesOf (hle : ∀ c ∈ calls, c.now ≤ t) : ∀ t' ∈ timesOf a calls, t' ≤ t := by
  intro t' ht'
  obtain ⟨c, hc, rfl⟩ := List.mem_map.mp ht'
  exact hle c (List.mem_of_mem_filter hc)

theorem upToEscalate_concat_of_none (h : ∀ c ∈ calls, c.action ≠ .escalate) (c : Call) :
    upToEscalate (calls ++ [c]) = calls ++ [c] := by
  induction calls with
  | nil => simp [upToEscalate]
  | cons c' calls ih =>
    rw [List.cons_append, upToEscalate, if_neg (h c' List.mem_cons_self),
      ih fun c hc => h c (List.mem_cons_of_mem _ hc)]

theorem upToEscalate_concat_of_some (h : ∃ c ∈ calls, c.action = .escalate) (c : Call) :
    upToEscalate (calls ++ [c]) = upToEscalate calls := by
  induction calls with
  | nil => simp at h
  | cons c' calls ih =>
    rw [List.cons_append, upToEscalate, upToEscalate]
    by_cases hc' : c'.action = .escalate
    · rw [if_pos hc', if_pos hc']
    · rw [if_neg hc', if_neg hc', ih]
      obtain ⟨e, he, hesc⟩ := h
      rcases List.mem_cons.mp he with rfl | he
      · exact absurd hesc hc'
      · exact ⟨e, he, hesc⟩

theorem fromEscalate_concat_quiet (h : c.action ≠ .restart ∧ c.action ≠ .escalate) :
    fromEscalate (calls ++ [c]) = fromEscalate calls := by
  unfold fromEscalate
  rw [List.map_append, List.filter_append]
  have hnone : ([c].map (·.action)).filter (fun a => a == .restart || a == .escalate) = [] := by
    simp [h.1, h.2]
  rw [hnone, List.append_nil]

theorem fromEscalate_concat_restart (h : c.action = .restart) :
    fromEscalate (calls ++ [c]) =
      if fromEscalate calls = [] then [] else fromEscalate calls ++ [.restart] := by
  unfold fromEscalate
  rw [List.map_append, List.filter_append, List.dropWhile_append]
  simp only [List.map_cons, List.map_nil, h, List.isEmpty_iff]
  rfl

theorem fromEscalate_concat_escalate (h : c.action = .escalate) :
    fromEscalate (calls ++ [c]) = fromEscalate calls ++ [.escalate] := by
  unfold fromEscalate
  rw [List.map_append, List.filter_append, List.dropWhile_append]
  simp only [List.map_cons, List.map_nil, h, List.isEmpty_iff]
  split
  · rename_i hempty
    rw [hempty]
    rfl
  · rfl

end Calls

/-! ### What the state remembers -/

section Invariant

variable {cfg : WatchdogConfig} {st₀ st : WatchdogState} {calls : List Call} {tick : Tick}
  {d : Decision}

/-- The restarts so far are apart, and the outage it will serve the next grace for began later. -/
structure GraceInv (cfg : WatchdogConfig) (st : WatchdogState) (calls : List Call) : Prop where
  idle : ∀ c ∈ calls, c.tick.liveDeploymentActive ≠ some false → c.action ≠ .restart
  spaced : Spaced elapsed cfg.graceSecs (timesOf .restart calls)
  down : ∀ since, st.downSince = some since → ∀ t ∈ timesOf .restart calls, t ≤ since

/-- How far the sum of a time and the cooldown falls short. -/
def shortfall (cfg : WatchdogConfig) (t : ℚ) : ℚ := t + cfg.cooldownSecs - cooldownEnd cfg t

/-- An escalation at `t'` is not before the end of the cooldown of the one at `t`; and a whole
    cooldown behind it, unless the sum falls short by as much as the grace period or more. -/
def CooledDown (cfg : WatchdogConfig) (t t' : ℚ) : Prop :=
  cooldownEnd cfg t ≤ t' ∧
    (shortfall cfg t ≤ 0 ∨ Binary64.round (shortfall cfg t) < cfg.graceSecs →
      cfg.cooldownSecs ≤ t' - t)

/-- The escalations so far are apart, the cooldown covers all of them, and the retry of a cooldown
    came behind it. -/
structure CooldownInv (cfg : WatchdogConfig) (st : WatchdogState) (calls : List Call) : Prop where
  spaced : (timesOf .escalate calls).Pairwise (CooledDown cfg)
  cooled : ∀ t ∈ timesOf .escalate calls, ∃ u, st.cooldownUntil = some u ∧ cooldownEnd cfg t ≤ u
  escalated : ∀ t ∈ timesOf .escalate calls, st.escalated = true
  retried : ∀ t ∈ timesOf .escalate calls, st.postCooldownRetryUsed = true →
    (∃ c ∈ calls, cooldownEnd cfg t ≤ c.now) ∧
      ∀ since, st.downSince = some since → cooldownEnd cfg t ≤ since

/-- From the first escalation on the state knows which decision is due. -/
structure AlternationInv (st : WatchdogState) (calls : List Call) : Prop where
  alternates : (fromEscalate calls).IsChain (· ≠ ·)
  last : fromEscalate calls ≠ [] → st.PastEscalation ∧
    (fromEscalate calls).getLast? =
      some (if st.postCooldownRetryUsed then .restart else .escalate)

/-- Before the first escalation: a run that starts behind one has at most its retry, any other has
    recorded its restarts. -/
def BeforeEscalation (cfg : WatchdogConfig) (st₀ st : WatchdogState) (restarts : List ℚ) : Prop :=
  (st₀.PastEscalation ∧ st.PastEscalation ∧ restarts.length ≤ 1 ∧
    (st.postCooldownRetryUsed = false → restarts = [])) ∨
  (¬ st₀.PastEscalation ∧ ¬ st.PastEscalation ∧
    Remembers elapsed cfg.windowSecs st.restartEvents restarts ∧
    Limited elapsed cfg.windowSecs cfg.restartCap.toNat restarts)

structure WindowInv (cfg : WatchdogConfig) (st₀ st : WatchdogState) (calls : List Call) : Prop where
  before : (∀ c ∈ calls, c.action ≠ .escalate) →
    BeforeEscalation cfg st₀ st (timesOf .restart calls)
  limited : (st₀.PastEscalation → 1 ≤ cfg.restartCap) →
    Limited elapsed cfg.windowSecs cfg.restartCap.toNat (timesOf .restart (upToEscalate calls))

theorem GraceInv.step (hinv : GraceInv cfg st calls) (heff : DecideEffect cfg st tick d)
    (hle : ∀ c ∈ calls, c.now ≤ tick.now) :
    GraceInv cfg d.newState (calls ++ [{ tick := tick, decision := d }]) := by
  -- an outage that begins with this tick begins after every restart so far
  have hpast : ∀ t ∈ timesOf .restart calls, t ≤ st.downSince.getD tick.now := by
    intro t ht
    cases hdown : st.downSince with
    | none => exact le_of_mem_timesOf hle t ht
    | some since => exact hinv.down since hdown t ht
  have hquiet : d.action ≠ .restart → (∀ since, d.newState.downSince = some since →
      ∀ t ∈ timesOf .restart calls, t ≤ since) →
      GraceInv cfg d.newState (calls ++ [{ tick := tick, decision := d }]) := by
    intro haction hdown
    have hsame : timesOf .restart (calls ++ [{ tick := tick, decision := d }]) =
        timesOf .restart calls := timesOf_concat_other haction
    refine ⟨fun c hc hlive => ?_, hsame ▸ hinv.spaced, hsame ▸ hdown⟩
    rcases List.mem_append.mp hc with hc | hc
    · exact hinv.idle c hc hlive
    · obtain rfl := List.mem_singleton.mp hc
      exact haction
  cases heff with
  | keeps haction hdown =>
    apply hquiet haction.1
    intro since hsince
    rcases hdown with hsame | hstamped
    · exact hinv.down since (hsame ▸ hsince)
    · obtain rfl := Option.some.inj (hstamped.symm.trans hsince)
      exact hpast
  | escalate haction _ hdown =>
    apply hquiet (by rw [haction]; decide)
    intro since hsince
    obtain rfl := Option.some.inj (hdown.symm.trans hsince)
    exact hpast
  | restart haction hidle hgrace _ hdown =>
    have hnew : timesOf .restart (calls ++ [{ tick := tick, decision := d }]) =
        timesOf .restart calls ++ [tick.now] := timesOf_concat_self haction
    refine ⟨fun c hc hlive => ?_, ?_, fun since hsince => ?_⟩
    · rcases List.mem_append.mp hc with hc | hc
      · exact hinv.idle c hc hlive
      · obtain rfl := List.mem_singleton.mp hc
        exact absurd hidle hlive
    · -- the grace was served after the last restart
      rw [hnew]
      exact pairwise_concat hinv.spaced fun t ht => hgrace.trans (elapsed_mono (hpast t ht) le_rfl)
    · exact absurd (hdown.symm.trans hsince) (by simp)

/-- **Behind a cooldown.**  The retry came after its end, and its grace period is served. -/
theorem cooledDown_of_served {t now since : ℚ} (hsince : cooldownEnd cfg t ≤ since)
    (hnow : cooldownEnd cfg t ≤ now) (hgrace : cfg.graceSecs ≤ elapsed since now) :
    CooledDown cfg t now := by
  refine ⟨hnow, fun hexact => ?_⟩
  by_contra hearly
  have hbefore : now < t + cfg.cooldownSecs := by linarith [not_le.mp hearly]
  rcases hexact with hup | hshort
  · unfold shortfall at hup
    linarith
  · -- the grace period fits into what the sum has lost
    have hfits : now - since ≤ shortfall cfg t := by
      unfold shortfall
      linarith
    have hle : elapsed since now ≤ Binary64.round (shortfall cfg t) := Binary64.round_mono hfits
    exact absurd (hgrace.trans hle) (not_le.mpr hshort)

theorem CooldownInv.step (hinv : CooldownInv cfg st calls) (heff : DecideEffect cfg st tick d)
    (hle : ∀ c ∈ calls, c.now ≤ tick.now) :
    CooldownInv cfg d.newState (calls ++ [{ tick := tick, decision := d }]) := by
  have hlater : ∀ {t}, (∃ c ∈ calls, cooldownEnd cfg t ≤ c.now) → cooldownEnd cfg t ≤ tick.now :=
    fun ⟨c, hc, hend⟩ => hend.trans (hle c hc)
  cases heff with
  | keeps haction hdown _ hcooldown hescalated hused =>
    have htimes : timesOf .escalate (calls ++ [{ tick := tick, decision := d }]) =
        timesOf .escalate calls := timesOf_concat_other haction.2
    refine ⟨htimes ▸ hinv.spaced, htimes ▸ hcooldown ▸ hinv.cooled,
      htimes ▸ hescalated ▸ hinv.escalated, fun t ht hspent => ?_⟩
    obtain ⟨⟨c, hc, hend⟩, hbefore⟩ := hinv.retried t (htimes ▸ ht) (hused.symm.trans hspent)
    refine ⟨⟨c, List.mem_append_left _ hc, hend⟩, fun since hsince => ?_⟩
    rcases hdown with hsame | hstamped
    · exact hbefore since (hsame.symm.trans hsince)
    · obtain rfl := Option.some.inj (hstamped.symm.trans hsince)
      cases hold : st.downSince with
      | none => exact hend.trans (hle c hc)
      | some since => exact hbefore since hold
  | restart haction _ _ hover hdown hcooldown hescalated _ =>
    have htimes : timesOf .escalate (calls ++ [{ tick := tick, decision := d }]) =
        timesOf .escalate calls := timesOf_concat_other (by rw [Call.action, haction]; decide)
    refine ⟨htimes ▸ hinv.spaced, htimes ▸ hcooldown ▸ hinv.cooled,
      htimes ▸ hescalated ▸ hinv.escalated, fun t ht _ => ⟨?_, fun since hsince => ?_⟩⟩
    · -- the call itself comes behind the cooldown
      obtain ⟨u, hu, hcooled⟩ := hinv.cooled t (htimes ▸ ht)
      exact ⟨_, List.mem_append_right _ (List.mem_singleton_self _),
        hcooled.trans (hover u hu)⟩
    · exact absurd (hdown.symm.trans hsince) (by simp)
  | escalate haction hgrace _ hover hcooldown hescalated hused hspent =>
    have htimes : timesOf .escalate (calls ++ [{ tick := tick, decision := d }]) =
        timesOf .escalate calls ++ [tick.now] := timesOf_concat_self haction
    refine ⟨?_, ?_, fun _ _ => hescalated, fun _ _ h => absurd (hused.symm.trans h) (by simp)⟩
    · rw [htimes]
      refine pairwise_concat hinv.spaced fun t ht => ?_
      obtain ⟨u, hu, hcooled⟩ := hinv.cooled t ht
      have hpast : st.PastEscalation := ⟨hinv.escalated t ht, by rw [hu]; rfl⟩
      obtain ⟨-, hbefore⟩ := hinv.retried t ht (hspent hpast)
      refine cooledDown_of_served ?_ (hcooled.trans (hover u hu)) hgrace
      cases hold : st.downSince with
      | none => exact hcooled.trans (hover u hu)
      | some since => exact hbefore since hold
    · rw [htimes]
      intro t ht
      refine ⟨_, hcooldown, Binary64.round_mono (add_le_add_left ?_ cfg.cooldownSecs)⟩
      rcases List.mem_append.mp ht with ht | ht
      · exact le_of_mem_timesOf hle t ht
      · exact (List.mem_singleton.mp ht).le

theorem pastEscalation_congr {st' : WatchdogState} (hescalated : st'.escalated = st.escalated)
    (hcooldown : st'.cooldownUntil = st.cooldownUntil) :
    st'.PastEscalation ↔ st.PastEscalation := by
  rw [WatchdogState.PastEscalation, WatchdogState.PastEscalation, hescalated, hcooldown]

theorem AlternationInv.step (hinv : AlternationInv st calls) (heff : DecideEffect cfg st tick d) :
    AlternationInv d.newState (calls ++ [{ tick := tick, decision := d }]) := by
  cases heff with
  | keeps haction _ _ hcooldown hescalated hused =>
    have hsame : fromEscalate (calls ++ [{ tick := tick, decision := d }]) = fromEscalate calls :=
      fromEscalate_concat_quiet haction
    refine ⟨hsame ▸ hinv.alternates, ?_⟩
    rw [hsame, hused, pastEscalation_congr hescalated hcooldown]
    exact hinv.last
  | restart haction _ _ _ _ hcooldown hescalated hkind =>
    have hnew : fromEscalate (calls ++ [{ tick := tick, decision := d }]) = _ :=
      fromEscalate_concat_restart haction
    -- restarts before the first escalation are not counted
    by_cases hempty : fromEscalate calls = []
    · rw [if_pos hempty] at hnew
      exact ⟨hnew ▸ .nil, fun h => absurd hnew h⟩
    · rw [if_neg hempty] at hnew
      obtain ⟨hpast, hlast⟩ := hinv.last hempty
      rcases hkind with ⟨-, hunused, hused⟩ | ⟨hfresh, -⟩
      · -- the retry was unspent, so the last decision was an escalation
        rw [hunused] at hlast
        refine ⟨?_, fun _ => ⟨?_, ?_⟩⟩
        · rw [hnew]
          refine hinv.alternates.append (.singleton _) fun x hx y hy => ?_
          obtain rfl := Option.some.inj (hlast.symm.trans hx)
          obtain rfl := Option.some.inj hy
          decide
        · exact (pastEscalation_congr hescalated hcooldown).mpr hpast
        · rw [hnew, hused, List.getLast?_concat]
          rfl
      · exact absurd hpast hfresh
  | escalate haction _ _ _ hcooldown hescalated hused hspent =>
    have hnew : fromEscalate (calls ++ [{ tick := tick, decision := d }]) = _ :=
      fromEscalate_concat_escalate haction
    refine ⟨?_, fun _ => ⟨⟨hescalated, by rw [hcooldown]; rfl⟩, ?_⟩⟩
    · rw [hnew]
      refine hinv.alternates.append (.singleton _) fun x hx y hy => ?_
      have hne : fromEscalate calls ≠ [] := by
        intro hempty
        simp [hempty] at hx
      obtain ⟨hpast, hlast⟩ := hinv.last hne
      -- the retry is spent, so the last decision was a restart
      rw [hspent hpast] at hlast
      obtain rfl := Option.some.inj (hlast.symm.trans hx)
      obtain rfl := Option.some.inj hy
      decide
    · rw [hnew, hused, List.getLast?_concat]
      rfl

theorem BeforeEscalation.limited {restarts : List ℚ} (h : BeforeEscalation cfg st₀ st restarts)
    (hcap : st₀.PastEscalation → 1 ≤ cfg.restartCap) :
    Limited elapsed cfg.windowSecs cfg.restartCap.toNat restarts := by
  rcases h with ⟨hpast, -, hone, -⟩ | ⟨-, -, -, hlimited⟩
  · have hroom : 1 ≤ cfg.restartCap.toNat := by have := hcap hpast; omega
    exact limited_of_length_le (hone.trans hroom)
  · exact hlimited

theorem BeforeEscalation.step (h : BeforeEscalation cfg st₀ st (timesOf .restart calls))
    (heff : DecideEffect cfg st tick d) (hle : ∀ c ∈ calls, c.now ≤ tick.now)
    (haction : d.action ≠ .escalate) :
    BeforeEscalation cfg st₀ d.newState
      (timesOf .restart (calls ++ [{ tick := tick, decision := d }])) := by
  cases heff with
  | keeps hquiet _ hevents hcooldown hescalated hused =>
    have hsame : timesOf .restart (calls ++ [{ tick := tick, decision := d }]) =
        timesOf .restart calls := timesOf_concat_other hquiet.1
    rw [hsame, BeforeEscalation, hevents, hused, pastEscalation_congr hescalated hcooldown]
    exact h
  | restart hrestart _ _ _ _ hcooldown hescalated hkind =>
    have hnew : timesOf .restart (calls ++ [{ tick := tick, decision := d }]) =
        timesOf .restart calls ++ [tick.now] := timesOf_concat_self hrestart
    have hstays := pastEscalation_congr hescalated hcooldown
    rw [hnew]
    rcases h with ⟨hstart, hpast, -, hnone⟩ | ⟨hstart, hfresh, hrec, hlimited⟩
    · rcases hkind with ⟨-, hunused, hused⟩ | ⟨hfresh, -⟩
      · -- the retry is the only restart of this run
        rw [hnone hunused]
        exact Or.inl ⟨hstart, hstays.mpr hpast, le_rfl,
          fun h => absurd (hused.symm.trans h) (by simp)⟩
      · exact absurd hpast hfresh
    · rcases hkind with ⟨hpast, -⟩ | ⟨-, hroom, hevents⟩
      · exact absurd hpast hfresh
      · have hpast : ∀ t ∈ timesOf .restart calls, t ≤ tick.now := le_of_mem_timesOf hle
        refine Or.inr ⟨hstart, fun h => hfresh (hstays.mp h), ?_, ?_⟩
        · rw [hevents]
          exact hrec.concat elapsed_mono hpast
        · exact hlimited.concat elapsed_mono hrec hpast (Int.lt_toNat.mpr hroom)
  | escalate hescalate => exact absurd hescalate haction

theorem WindowInv.step (hinv : WindowInv cfg st₀ st calls) (heff : DecideEffect cfg st tick d)
    (hle : ∀ c ∈ calls, c.now ≤ tick.now) :
    WindowInv cfg st₀ d.newState (calls ++ [{ tick := tick, decision := d }]) := by
  have hbefore : d.action ≠ .escalate → (∀ c ∈ calls, c.action ≠ .escalate) →
      BeforeEscalation cfg st₀ d.newState
        (timesOf .restart (calls ++ [{ tick := tick, decision := d }])) := fun haction hnone =>
    (hinv.before hnone).step heff hle haction
  refine ⟨fun hnone => ?_, fun hcap => ?_⟩
  · exact hbefore (hnone _ (List.mem_append_right _ (List.mem_singleton_self _)))
      fun c hc => hnone c (List.mem_append_left _ hc)
  · by_cases hsome : ∃ c ∈ calls, c.action = .escalate
    · rw [upToEscalate_concat_of_some hsome]
      exact hinv.limited hcap
    · have hnone : ∀ c ∈ calls, c.action ≠ .escalate := fun c hc h => hsome ⟨c, hc, h⟩
      rw [upToEscalate_concat_of_none hnone]
      -- the first escalation counts, but it is no restart
      by_cases haction : d.action = .escalate
      · have hsame : timesOf .restart (calls ++ [{ tick := tick, decision := d }]) =
            timesOf .restart calls := timesOf_concat_other (by rw [Call.action, haction]; decide)
        rw [hsame]
        exact (hinv.before hnone).limited hcap
      · exact (hbefore haction hnone).limited hcap

end Invariant

/-! ### Every run -/

/-- What the state of a run remembers of its calls. -/
structure WatchdogInv (cfg : WatchdogConfig) (st₀ : WatchdogState) (run : WatchdogRun) : Prop where
  grace : GraceInv cfg run.state run.calls
  cooldown : CooldownInv cfg run.state run.calls
  alternation : AlternationInv run.state run.calls
  window : WindowInv cfg st₀ run.state run.calls

section Runs

variable {cfg : WatchdogConfig} {st₀ : WatchdogState} {run run' : WatchdogRun} {tick : Tick}
  {ticks : List Tick}

theorem watchdogInv_start : WatchdogInv cfg st₀ { state := st₀, calls := [] } where
  grace := ⟨by simp, .nil, by simp [timesOf]⟩
  cooldown := ⟨.nil, by simp [timesOf], by simp [timesOf], by simp [timesOf]⟩
  alternation := ⟨.nil, by simp [fromEscalate]⟩
  window := by
    refine ⟨fun _ => ?_, fun _ => limited_of_length_le (Nat.zero_le _)⟩
    by_cases hpast : st₀.PastEscalation
    · exact Or.inl ⟨hpast, hpast, Nat.zero_le _, fun _ => rfl⟩
    · exact Or.inr ⟨hpast, hpast, remembers_nil, limited_of_length_le (Nat.zero_le _)⟩

theorem WatchdogInv.step (hinv : WatchdogInv cfg st₀ run) (hout : DuringOutage run tick)
    (h : (watchdogSystem cfg).step run tick = some run') : WatchdogInv cfg st₀ run' := by
  obtain rfl := Option.some.inj h
  have heff : DecideEffect cfg run.state tick _ := decide_effect hout.1
  exact ⟨hinv.grace.step heff hout.2, hinv.cooldown.step heff hout.2, hinv.alternation.step heff,
    hinv.window.step heff hout.2⟩

/-- **The watchdog limits its restarts.**  While the gateway is not confirmed healthy and the clock
    does not go back: no restart under a deployment that is or may be live; a grace period between
    restarts; up to the first escalation no window with more than `restart_cap` restarts; from then
    on one restart for each escalation, and a cooldown between escalations, but for what rounding
    takes off its end.  A run that starts behind an earlier escalation begins with a retry, so it
    needs a cap of at least one. -/
theorem watchdog_limits_restarts
    (h : Path (watchdogSystem cfg) DuringOutage { state := st₀, calls := [] } ticks run) :
    (∀ c ∈ run.calls, c.tick.liveDeploymentActive ≠ some false → c.action ≠ .restart) ∧
      Spaced elapsed cfg.graceSecs (timesOf .restart run.calls) ∧
      ((st₀.PastEscalation → 1 ≤ cfg.restartCap) →
        Limited elapsed cfg.windowSecs cfg.restartCap.toNat
          (timesOf .restart (upToEscalate run.calls))) ∧
      (fromEscalate run.calls).IsChain (· ≠ ·) ∧
      (timesOf .escalate run.calls).Pairwise (CooledDown cfg) := by
  have hinv : WatchdogInv cfg st₀ run :=
    h.invariant (fun _ _ _ hinv hout hstep => hinv.step hout hstep) watchdogInv_start
  exact ⟨hinv.grace.idle, hinv.grace.spaced, hinv.window.limited, hinv.alternation.alternates,
    hinv.cooldown.spaced⟩

/-- A container that does not run, without a live deployment. -/
def idleTick (now : ℚ) : Tick :=
  { containerRunning := false, health := .unknown, gatewayConnected := false,
    liveDeploymentActive := some false, now := now }

/-- One restart for each window, and a short cooldown. -/
def strictConfig : WatchdogConfig := { restartCap := 1, cooldownSecs := 100 }

/-- An outage with a restart, a deployment that may be live, an escalation, its retry and the next
    escalation. -/
def outage : List Tick :=
  [idleTick 0, idleTick 60, idleTick 60,
    { idleTick 130 with liveDeploymentActive := none }, idleTick 140, idleTick 200, idleTick 240,
    { idleTick 250 with containerRunning := true, health := .starting }, idleTick 260, idleTick 320]

theorem outage_actions :
    ((watchdogSystem strictConfig).runWhere DuringOutage { state := {}, calls := [] } outage).map
      (fun run => run.calls.map (·.action)) =
    some [.none, .restart, .none, .alertOnly, .escalate, .none, .restart, .none, .none,
      .escalate] := by decide +kernel

theorem watchdog_limits_restarts_outage : ∃ run : WatchdogRun,
    run.calls.map (·.action) =
      [.none, .restart, .none, .alertOnly, .escalate, .none, .restart, .none, .none, .escalate] ∧
    (∀ c ∈ run.calls, c.tick.liveDeploymentActive ≠ some false → c.action ≠ .restart) ∧
      Spaced elapsed strictConfig.graceSecs (timesOf .restart run.calls) ∧
      Limited elapsed strictConfig.windowSecs strictConfig.restartCap.toNat
        (timesOf .restart (upToEscalate run.calls)) ∧
      (fromEscalate run.calls).IsChain (· ≠ ·) ∧
      (timesOf .escalate run.calls).Pairwise (CooledDown strictConfig) := by
  obtain ⟨run, hrun, hactions⟩ := Option.map_eq_some_iff.mp outage_actions
  obtain ⟨hidle, hgrace, hwindow, halternates, hcooldown⟩ :=
    watchdog_limits_restarts (Path.of_runWhere hrun)
  exact ⟨run, hactions, hidle, hgrace, hwindow fun h => absurd h (by decide), halternates,
    hcooldown⟩

/-- No grace period, no restart but the retries, and a cooldown of the float `0.3`. -/
def shortConfig : WatchdogConfig :=
  { graceSecs := 0, restartCap := 0, cooldownSecs := 5404319552844595 / 2 ^ 54 }

/-- An escalation, its retry and the next escalation, as soon as the cooldown is over. -/
def shortOutage : List Tick :=
  [idleTick 1000000000, idleTick (4194304001258291 / 2 ^ 22), idleTick (4194304001258291 / 2 ^ 22)]

theorem shortOutage_times :
    ((watchdogSystem shortConfig).runWhere DuringOutage { state := {}, calls := [] }
      shortOutage).map (fun run => timesOf .escalate run.calls) =
    some [1000000000, 4194304001258291 / 2 ^ 22] := by decide +kernel

/-- **A whole cooldown?**  The end of the cooldown is rounded down here, by about `5e-8` seconds. -/
theorem watchdog_limits_restarts_fails :
    ¬∀ (cfg : WatchdogConfig) (ticks : List Tick) (run : WatchdogRun),
      Path (watchdogSystem cfg) DuringOutage { state := {}, calls := [] } ticks run →
      Spaced elapsed cfg.cooldownSecs (timesOf .escalate run.calls) := by
  intro h
  obtain ⟨run, hrun, htimes⟩ := Option.map_eq_some_iff.mp shortOutage_times
  have hspaced := h shortConfig shortOutage run (Path.of_runWhere hrun)
  rw [htimes, Spaced, List.pairwise_pair] at hspaced
  exact absurd hspaced (by decide +kernel)

end Runs

end Msai.Gateway
