import Msai.Supervisor.Rows

namespace Msai.Supervisor

/-!
# The bounded auto-restart brake (`live_supervisor/restart_policy.py`)

`RestartPolicy` reads and writes the restart columns of a node row and keeps no state of its
own.  The two environment-overridable constants the counter depends on are the fields of the
structure; the jittered backoff is drawn from a random stream in the source and is an
argument of `decide` here.

* `recordFailure` — one more consecutive failure inside the rolling window, a fresh streak
  outside it, and the pause at the ceiling;
* `recordSuccess` — clears the streak and the pause;
* `decide` — PAUSED, RESTART or BACKOFF.
-/

/-- The tunable constants of the policy. -/
structure RestartPolicy where
  /-- `MAX_RESTART_ATTEMPTS`, 5 unless `MSAI_RESTART_MAX_ATTEMPTS` overrides it. -/
  maxRestartAttempts : ℕ
  /-- `RESTART_WINDOW_S`, 1800 unless `MSAI_RESTART_WINDOW_S` overrides it. -/
  restartWindow : ℕ
deriving DecidableEq, Repr

/-- What the reaper does with a failed process. -/
inductive RestartAction
  /-- Respawn now. -/
  | restart
  /-- Respawn after the remaining delay. -/
  | backoff (delay : ℕ)
  /-- Auto-restart is latched off. -/
  | paused (reason : Option String)
deriving DecidableEq, Repr

namespace RestartPolicy

variable (p : RestartPolicy) (r : NodeRow) (now delay : ℕ)

/-- The constants of `restart_policy.py` without environment overrides. -/
def default : RestartPolicy := { maxRestartAttempts := 5, restartWindow := 1800 }

/-- `_PAUSE_REASON_CEILING`. -/
def pauseReasonCeiling : String := "max respawn ceiling reached"

/-- `RestartPolicy.decide`; `delay` is the value `_jittered_backoff_s` returns. -/
def decide : RestartAction :=
  if r.autoRestartPaused then .paused r.autoRestartPauseReason
  else match r.lastRestartAt with
    | none => .restart
    | some last =>
      if r.consecutiveRespawnFailures = 0 then .restart
      else if last + delay ≤ now then .restart
      else .backoff (last + delay - now)

/-- The counter after one more failed attempt. -/
def nextFailures : ℕ :=
  match r.lastRestartAt with
  | none => 1
  | some last =>
    if now ≤ last + p.restartWindow then r.consecutiveRespawnFailures + 1 else 1

/-- `RestartPolicy.record_failure`. -/
def recordFailure : NodeRow :=
  let n := p.nextFailures r now
  let paused := p.maxRestartAttempts ≤ n
  { r with
    consecutiveRespawnFailures := n
    lastRestartAt := some now
    autoRestartPaused := r.autoRestartPaused || paused
    autoRestartPauseReason := if paused then some pauseReasonCeiling else r.autoRestartPauseReason }

/-- `RestartPolicy.record_success`. -/
def recordSuccess : NodeRow :=
  { r with
    consecutiveRespawnFailures := 0
    autoRestartPaused := false
    autoRestartPauseReason := none }

variable {p r now delay}

/-- A paused row is never restarted. -/
theorem decide_of_paused (h : r.autoRestartPaused = true) :
    decide r now delay = .paused r.autoRestartPauseReason := by
  simp [decide, h]

end RestartPolicy

end Msai.Supervisor
