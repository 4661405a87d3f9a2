import Msai.Supervisor.RestartPolicy

namespace Msai.Supervisor

open Msai.Live

/-!
# Every writer of a node row

About fifteen places in three processes update a `live_node_processes` row after it has been
reserved.  Each is one committed transaction; `RowWrite` names them and `RowWrite.row` and
`RowWrite.dep` say what the transaction does to the row and to its deployment, guards
included.

* the child (`trading_node_subprocess.py`): `_self_write_pid`, `_mark_ready`,
  `_mark_running`, the heartbeat thread, `_mark_terminal`;
* the supervisor (`fleet_router.py`): Phase C, `_mark_failed`, `_terminalize_reserved_row`,
  `_on_child_exit`, the give-up and re-fail clean-ups, the rescan's stale-active flip, the
  startup watchdog, the ownerless-row reap and the two row writes of `stop`;
* `HeartbeatMonitor._mark_stale_as_failed` and the `/stop` handler's intent stamp.

The sweeps are bulk `UPDATE`s; they touch at most one row of a deployment, and their `WHERE`
clause is re-evaluated under the row lock, so each is a guarded write of one row.
-/

/-- Terminal state a child reports about itself. -/
structure TerminalReport where
  /-- `terminal_status` is `"stopped"`, else `"failed"`. -/
  clean : Bool
  /-- `terminal_failure_kind`. -/
  failureKind : FailureKind
  /-- `terminal_error`. -/
  errorMessage : Option String
  /-- `terminal_exit_code`. -/
  exitCode : Int
deriving DecidableEq, Repr

/-- One writer of a node row, with the values it writes. -/
inductive RowWrite
  | selfWritePid (pid now : ℕ)
  | markReady (now : ℕ)
  | markRunning (now : ℕ)
  | heartbeat (now : ℕ)
  | markTerminal (report : TerminalReport) (now : ℕ)
  | phaseC (pid : ℕ)
  | markFailed (kind : FailureKind) (reason : String)
  | terminalizeReservedRow (kind : FailureKind) (reason : String)
  /-- `hasPolicy`: a `RestartPolicy` was injected, so a restart may be dispatched. -/
  | onChildExit (exitCode : Option Int) (hasPolicy : Bool) (now : ℕ)
  | clearSentinelAndRefailAfterGiveup
  | refailStrandedRestart
  | heartbeatSweep (cutoff : ℕ)
  | rescanFlip (cutoff : ℕ)
  | watchdogFlush (timeout : String) (pidKilled : Option ℕ)
  | reapOwnerless (cutoff : ℕ)
  | stopActive (now : ℕ)
  | stampFailed (now : ℕ)
  | apiStampActive (now : ℕ)
deriving DecidableEq, Repr

/-- What a transaction reads about the other rows of the deployment. -/
structure RowContext where
  /-- No row of the deployment has a later `started_at`. -/
  isLatest : Bool
  /-- A row with a later `started_at` is active. -/
  newerActive : Bool

/-- The rendering of an exit code in an f-string. -/
def pyExitCode : Option Int → String
  | none => "None"
  | some n => toString n

/-- The rendering of a pid in an f-string. -/
def pyPid : Option ℕ → String
  | none => "None"
  | some n => toString n

namespace NodeRow

/-- `if row.failure_kind is None: row.failure_kind = kind`. -/
def fillKind (r : NodeRow) (kind : FailureKind) : Option String :=
  some (r.failureKind.getD kind.value)

/-- The kind `_on_child_exit` fills in for a non-zero exit. -/
def exitKind (exitCode : Option Int) : FailureKind :=
  if exitCode = some 2 then .reconciliationFailed else .nodeCrashed

/-- The terminal write of `_on_child_exit` on a row that is still active. -/
def exitTerminal (r : NodeRow) (exitCode : Option Int) : NodeRow :=
  if r.isActive then
    if exitCode = some 0 then
      { r with status := .stopped, failureKind := r.fillKind .none, exitCode := exitCode }
    else
      { r with
        status := .failed
        errorMessage := some ("child exited with code " ++ pyExitCode exitCode)
        failureKind := r.fillKind (exitKind exitCode)
        exitCode := exitCode }
  else r

/-- Whether `_on_child_exit` dispatches a restart for the row it has just classified. -/
def dispatchesRestart (r : NodeRow) (exitCode : Option Int) (hasPolicy : Bool) : Bool :=
  exitCode != some 0 && (FailureKind.parseOrUnknown r.failureKind).isRecoverableCrash
    && r.stopRequestedAt.isNone && r.restartDispatchedAt.isNone && hasPolicy

/-- The guard of `_mark_running`. -/
def promotable (r : NodeRow) : Bool :=
  r.stopRequestedAt.isNone && r.status.isLive

/-- `_POST_STARTUP_STATUSES` of the heartbeat monitor, stale. -/
def isStalePostStartup (r : NodeRow) (cutoff : ℕ) : Bool :=
  (r.status == .ready || r.status == .running || r.status == .stopping)
    && r.lastHeartbeatAt < cutoff

/-- The stale-active predicate of the rescan. -/
def isStaleLive (r : NodeRow) (cutoff : ℕ) : Bool :=
  r.status.isLive && r.lastHeartbeatAt < cutoff

/-- The row part of the ownerless predicate; the handle and in-flight checks are made by the
    caller. -/
def isOwnerless (r : NodeRow) (cutoff : ℕ) : Bool :=
  r.isActive && r.pid.isNone && r.lastHeartbeatAt < cutoff

/-- The first clean-up of `stop` without an active row: a failed row without intent. -/
def isPendingRestart (r : NodeRow) : Bool :=
  r.status == .failed && r.stopRequestedAt.isNone

end NodeRow

namespace RowWrite

/-- What the transaction does to the row. -/
def row : RowWrite → RowContext → NodeRow → NodeRow
  -- the two self-writes below update by primary key, whatever the status is
  | .selfWritePid pid now, _, r =>
    { r with pid := some pid, status := .building, lastHeartbeatAt := now }
  | .markReady now, _, r => { r with status := .ready, lastHeartbeatAt := now }
  | .markRunning now, _, r =>
    if r.promotable then
      RestartPolicy.recordSuccess { r with status := .running, lastHeartbeatAt := now }
    else r
  | .heartbeat now, _, r => { r with lastHeartbeatAt := now }
  | .markTerminal report now, _, r =>
    { r with
      status := if report.clean then .stopped else .failed
      failureKind := some report.failureKind.value
      errorMessage := report.errorMessage
      exitCode := some report.exitCode
      lastHeartbeatAt := now }
  | .phaseC pid, _, r => { r with pid := some pid }
  | .markFailed kind reason, _, r =>
    { r with
      status := .failed
      failureKind := some kind.value
      errorMessage := some reason
      exitCode := none }
  | .terminalizeReservedRow kind reason, _, r =>
    if r.status.isLive then
      { r with
        status := .failed, failureKind := r.fillKind kind, errorMessage := some reason }
    else r
  -- what the child has already reported about itself is kept
  | .onChildExit exitCode hasPolicy now, _, r =>
    let r' := r.exitTerminal exitCode
    if r'.dispatchesRestart exitCode hasPolicy then
      { r' with restartDispatchedAt := some now }
    else r'
  | .clearSentinelAndRefailAfterGiveup, _, r =>
    if r.status.isLive then
      { r with
        restartDispatchedAt := none
        status := .failed
        failureKind := r.fillKind .spawnFailedTransient
        errorMessage := some ("auto-restart task exhausted transient-dispatch retries; " ++
          "re-failed so a later reap/rescan can retry") }
    else { r with restartDispatchedAt := none }
  | .refailStrandedRestart, _, r =>
    if r.status.isLive then
      { r with
        status := .failed
        failureKind := some FailureKind.spawnFailedTransient.value
        errorMessage := some ("auto-restart respawn hit a transient failure; " ++
          "re-failed so the next rescan can retry") }
    else r
  | .heartbeatSweep cutoff, _, r =>
    if r.isStalePostStartup cutoff then
      { r with
        status := .failed
        errorMessage := some "heartbeat timeout"
        failureKind := some FailureKind.heartbeatTimeout.value }
    else r
  -- an older row of a redeployed deployment is left alone
  | .rescanFlip cutoff, c, r =>
    if r.isStaleLive cutoff && c.isLatest then
      { r with
        status := .failed
        errorMessage := some "rescan: stale heartbeat (supervisor was down)"
        failureKind := some FailureKind.heartbeatTimeout.value }
    else r
  -- the flush is by primary key: the status the watchdog selected on is not re-checked
  | .watchdogFlush timeout pidKilled, _, r =>
    { r with
      status := .failed
      failureKind := some FailureKind.buildTimeout.value
      errorMessage := some ("startup wedged for " ++ timeout ++ "s; watchdog SIGKILLed pid=" ++
        pyPid pidKilled)
      exitCode := pidKilled.map fun _ => -9 }
  | .reapOwnerless cutoff, _, r =>
    if r.isOwnerless cutoff then
      { r with
        status := .failed
        errorMessage := some ("ownerless active row (pid IS NULL, no live handle, stale " ++
          "heartbeat) reaped by the ownerless-row backstop")
        failureKind := some FailureKind.heartbeatTimeout.value }
    else r
  | .stopActive now, _, r =>
    if r.isActive then { r with status := .stopping, stopRequestedAt := some now } else r
  | .stampFailed now, _, r =>
    if r.isPendingRestart then { r with stopRequestedAt := some now } else r
  | .apiStampActive now, _, r =>
    if r.isActive then { r with stopRequestedAt := some now } else r

/-- What the transaction does to the deployment row; `r` is the node row before the write. -/
def dep : RowWrite → RowContext → NodeRow → Deployment → Deployment
  -- forward sync: a deployment that a stop or a sweep made terminal is not revived
  | .markRunning _, _, r, d =>
    if r.promotable && d.status.isStartup then
      { d.setStatus .running Status.running_ne_stopping with lastStoppedAt := none }
    else d
  | .markTerminal report _, _, _, d => d.syncTerminal report.clean
  | .markFailed _ _, _, _, d => d.syncTerminal false
  | .terminalizeReservedRow _ _, _, r, d =>
    if r.status.isLive then d.syncTerminal false else d
  | .onChildExit exitCode _ _, _, r, d =>
    if r.isActive then d.syncTerminal (exitCode == some 0) else d
  -- the two re-fails act on an older row: a newer active one owns the deployment
  | .clearSentinelAndRefailAfterGiveup, c, _, d =>
    if c.newerActive then d else d.syncTerminal false
  | .refailStrandedRestart, c, _, d =>
    if c.newerActive then d else d.syncTerminal false
  | .heartbeatSweep cutoff, _, r, d =>
    if r.isStalePostStartup cutoff then d.syncTerminal false else d
  | .rescanFlip cutoff, c, r, d =>
    if r.isStaleLive cutoff && c.isLatest then d.syncTerminal false else d
  | .watchdogFlush _ _, _, _, d => d.syncTerminal false
  | .reapOwnerless cutoff, _, r, d =>
    if r.isOwnerless cutoff then d.syncTerminal false else d
  | .selfWritePid _ _, _, _, d => d
  | .markReady _, _, _, d => d
  | .heartbeat _, _, _, d => d
  | .phaseC _, _, _, d => d
  | .stopActive _, _, _, d => d
  | .stampFailed _, _, _, d => d
  | .apiStampActive _, _, _, d => d

/-- The two self-writes that update the row by primary key alone. -/
def isUnguarded : RowWrite → Bool
  | .selfWritePid _ _ => true
  | .markReady _ => true
  | _ => false

variable {w : RowWrite} {c : RowContext} {r : NodeRow} {d : Deployment}

/-! ### What no writer does -/

/-- The reaper's write changes at most the terminal columns and the sentinel, and it keeps
    the status or makes it terminal. -/
theorem row_onChildExit (exitCode : Option Int) (hasPolicy : Bool) (now : ℕ) (c : RowContext)
    (r : NodeRow) :
    ∃ st msg kind code sentinel,
      (RowWrite.onChildExit exitCode hasPolicy now).row c r =
        { r with
          status := st
          errorMessage := msg
          failureKind := kind
          exitCode := code
          restartDispatchedAt := sentinel } ∧
      (st = r.status ∨ st = .stopped ∨ st = .failed) := by
  simp only [row, NodeRow.exitTerminal]
  split <;> split <;> (try split) <;>
    first
    | exact ⟨_, _, _, _, _, rfl, Or.inl rfl⟩
    | exact ⟨_, _, _, _, _, rfl, Or.inr (Or.inl rfl)⟩
    | exact ⟨_, _, _, _, _, rfl, Or.inr (Or.inr rfl)⟩

/-- No writer moves a row in time. -/
theorem row_startedAt (w : RowWrite) (c : RowContext) (r : NodeRow) :
    (w.row c r).startedAt = r.startedAt := by
  cases w with
  | onChildExit e p n =>
    obtain ⟨_, _, _, _, _, hrow, _⟩ := row_onChildExit e p n c r
    rw [hrow]
  | _ => first | rfl | (simp only [row]; split <;> rfl)

/-- No writer moves a row to another gateway session. -/
theorem row_gatewaySessionKey (w : RowWrite) (c : RowContext) (r : NodeRow) :
    (w.row c r).gatewaySessionKey = r.gatewaySessionKey := by
  cases w with
  | onChildExit e p n =>
    obtain ⟨_, _, _, _, _, hrow, _⟩ := row_onChildExit e p n c r
    rw [hrow]
  | _ => first | rfl | (simp only [row]; split <;> rfl)

/-- No writer clears a recorded stop intent. -/
theorem row_isStamped (h : r.isStamped = true) : (w.row c r).isStamped = true := by
  unfold NodeRow.isStamped at h ⊢
  cases w with
  | onChildExit e p n =>
    obtain ⟨_, _, _, _, _, hrow, _⟩ := row_onChildExit e p n c r
    rw [hrow]
    exact h
  | _ => first | exact h | (simp only [row]; split <;> first | exact h | rfl)

/-- No writer but `_mark_running` resets the respawn counters. -/
theorem row_counters (hw : ∀ now, w ≠ .markRunning now) :
    (w.row c r).consecutiveRespawnFailures = r.consecutiveRespawnFailures ∧
      (w.row c r).lastRestartAt = r.lastRestartAt ∧
      (w.row c r).autoRestartPaused = r.autoRestartPaused := by
  cases w with
  | markRunning now => exact absurd rfl (hw now)
  | onChildExit e p n =>
    obtain ⟨_, _, _, _, _, hrow, _⟩ := row_onChildExit e p n c r
    rw [hrow]
    exact ⟨rfl, rfl, rfl⟩
  | _ => first | exact ⟨rfl, rfl, rfl⟩ | (simp only [row]; split <;> exact ⟨rfl, rfl, rfl⟩)

/-- Only the reaper sets the dispatch sentinel. -/
theorem row_dispatched (hw : ∀ e p n, w ≠ .onChildExit e p n)
    (h : (w.row c r).restartDispatchedAt.isSome = true) :
    r.restartDispatchedAt.isSome = true := by
  cases w with
  | onChildExit e p n => exact absurd rfl (hw e p n)
  | clearSentinelAndRefailAfterGiveup =>
    simp only [row] at h
    split at h <;> cases h
  | _ => first | exact h | (simp only [row] at h; split at h <;> exact h)

/-! ### The direction of the status column -/

/-- Apart from the two unguarded self-writes, a writer never moves the status back: a live
    row stays live or leaves, a stopping row never returns to a live status, and a row that
    left the active set stays out of it. -/
theorem row_stage (h : w.isUnguarded = false ∨ r.status.isLive = true) :
    r.status.stage ≤ (w.row c r).status.stage := by
  cases w with
  | selfWritePid _ _ | markReady _ =>
    have hl : r.status.isLive = true := by simpa [isUnguarded] using h
    rw [Status.stage_eq_zero_iff.mpr hl]
    exact Nat.zero_le _
  | markRunning now =>
    simp only [row]
    split
    · rename_i hp
      have hl : r.status.isLive = true := by
        simp only [NodeRow.promotable, Bool.and_eq_true] at hp
        exact hp.2
      rw [Status.stage_eq_zero_iff.mpr hl]
      exact Nat.zero_le _
    · exact Nat.le_refl _
  | heartbeat _ | phaseC _ => exact Nat.le_refl _
  | markTerminal report now =>
    have : (((RowWrite.markTerminal report now).row c r).status).stage = 2 := by
      simp only [row]
      split <;> rfl
    rw [this]
    exact Status.stage_le_two _
  | markFailed _ _ | watchdogFlush _ _ => exact Status.stage_le_two _
  | onChildExit e p n =>
    obtain ⟨st, _, _, _, _, hrow, hst⟩ := row_onChildExit e p n c r
    rw [hrow]
    rcases hst with rfl | rfl | rfl
    · exact Nat.le_refl _
    · exact Status.stage_le_two _
    · exact Status.stage_le_two _
  | stopActive now =>
    simp only [row]
    split
    · rename_i ha
      exact Status.stage_le_one_of_isActive ha
    · exact Nat.le_refl _
  | stampFailed _ | apiStampActive _ =>
    simp only [row]
    split <;> exact Nat.le_refl _
  | _ =>
    simp only [row]
    split <;> first | exact Status.stage_le_two _ | exact Nat.le_refl _

/-- A guarded writer activates nothing. -/
theorem row_isActive (h : w.isUnguarded = false) (ha : (w.row c r).isActive = true) :
    r.isActive = true := by
  have hstage := row_stage (c := c) (r := r) (Or.inl h)
  exact Status.isActive_of_stage_le hstage ha

/-- A guarded writer leads no row back into start-up. -/
theorem row_isStartup (h : w.isUnguarded = false ∨ r.status.isStartup = true)
    (hs : (w.row c r).status.isStartup = true) : r.status.isStartup = true := by
  rcases h with h | h
  · cases w with
    | selfWritePid _ _ | markReady _ => cases h
    | heartbeat _ | phaseC _ => exact hs
    | markTerminal report now =>
      simp only [row] at hs
      split at hs <;> cases hs
    | onChildExit e p n =>
      obtain ⟨st, _, _, _, _, hrow, hst⟩ := row_onChildExit e p n c r
      rw [hrow] at hs
      rcases hst with rfl | rfl | rfl
      · exact hs
      · cases hs
      · cases hs
    | markFailed _ _ | watchdogFlush _ _ => cases hs
    | _ =>
      simp only [row] at hs
      split at hs <;> first | exact hs | cases hs
  · exact h

/-! ### The deployment row follows the node row -/

/-- No writer of a node row changes the login of the deployment. -/
theorem dep_ibLoginKey (w : RowWrite) (c : RowContext) (r : NodeRow) (d : Deployment) :
    (w.dep c r d).ibLoginKey = d.ibLoginKey := by
  have hsync := d.syncTerminal_ibLoginKey
  cases w <;> simp only [dep] <;>
    first | rfl | exact hsync _ | (split <;> first | rfl | exact hsync _)

/-- A terminal deployment status is never changed by a writer of a node row. -/
theorem dep_of_not_isLive (h : d.status.isLive = false) : w.dep c r d = d := by
  have hsync := Deployment.syncTerminal_of_not_isLive h
  have hstart : d.status.isStartup = false := by
    cases hd : d.status <;> simp_all [Status.isLive, Status.isStartup]
  cases w <;> simp [dep, hsync, hstart]

/-- A write that takes the only active row out of the active set leaves the deployment
    terminal. -/
theorem dep_of_deactivate (ha : r.isActive = true) (ha' : (w.row c r).isActive = false)
    (hn : c.newerActive = false) :
    (w.dep c r d).status = .stopped ∨ (w.dep c r d).status = .failed := by
  have hsync := d.syncTerminal_status
  -- a write that did not fire leaves the row active, against `ha'`
  have habs : ∀ r' : NodeRow, r'.isActive = true → r'.isActive = false → False := by
    intro r' h h'
    rw [h] at h'
    cases h'
  cases w with
  | markTerminal report now => exact hsync report.clean
  | markFailed _ _ | watchdogFlush _ _ => exact hsync false
  | clearSentinelAndRefailAfterGiveup | refailStrandedRestart =>
    simp only [dep, hn]
    exact hsync false
  | onChildExit e p n =>
    simp only [dep, if_pos ha]
    exact hsync _
  | terminalizeReservedRow _ _ | heartbeatSweep _ | rescanFlip _ | reapOwnerless _ =>
    simp only [row] at ha'
    simp only [dep]
    split at ha'
    · rename_i hg
      rw [if_pos hg]
      exact hsync false
    · exact absurd ha' (by simp [ha])
  | markRunning now =>
    simp only [row] at ha'
    split at ha'
    · cases ha'
    · exact (habs r ha ha').elim
  | stopActive now =>
    simp only [row, if_pos ha] at ha'
    cases ha'
  | stampFailed _ | apiStampActive _ =>
    simp only [row] at ha'
    split at ha' <;> exact (habs r ha ha').elim
  | selfWritePid _ _ | markReady _ => cases ha'
  | heartbeat _ | phaseC _ => exact (habs r ha ha').elim

/-- What a write of a node row does to the deployment: nothing, the guarded sync, or the
    promotion.  A sync to `stopped` is a clean end reported by the child, or by the reaper
    for the active row. -/
theorem dep_cases (w : RowWrite) (c : RowContext) (r : NodeRow) (d : Deployment) :
    w.dep c r d = d ∨
    (∃ clean, w.dep c r d = d.syncTerminal clean ∧ (clean = true →
      (∃ report now, w = .markTerminal report now ∧ report.clean = true) ∨
        ((∃ e p n, w = .onChildExit e p n) ∧ r.isActive = true))) ∨
    (∃ now, w = .markRunning now ∧ r.promotable = true) := by
  have hfailed : ∀ d', d' = d.syncTerminal false → ∃ clean, d' = d.syncTerminal clean ∧
      (clean = true → (∃ report now, w = .markTerminal report now ∧ report.clean = true) ∨
        ((∃ e p n, w = .onChildExit e p n) ∧ r.isActive = true)) :=
    fun d' hd' => ⟨false, hd', fun hc => by cases hc⟩
  cases w with
  | markRunning now =>
    by_cases hp : r.promotable = true
    · exact Or.inr (Or.inr ⟨now, rfl, hp⟩)
    · refine Or.inl ?_
      simp [dep, hp]
  | markTerminal report now =>
    exact Or.inr (Or.inl ⟨report.clean, rfl, fun hc => Or.inl ⟨report, now, rfl, hc⟩⟩)
  | onChildExit e p n =>
    simp only [dep]
    split
    · rename_i ha
      exact Or.inr (Or.inl ⟨_, rfl, fun _ => Or.inr ⟨⟨e, p, n, rfl⟩, ha⟩⟩)
    · exact Or.inl rfl
  | markFailed _ _ | watchdogFlush _ _ => exact Or.inr (Or.inl (hfailed _ rfl))
  | terminalizeReservedRow _ _ | heartbeatSweep _ | rescanFlip _ | reapOwnerless _ =>
    simp only [dep]
    split
    · exact Or.inr (Or.inl (hfailed _ rfl))
    · exact Or.inl rfl
  | clearSentinelAndRefailAfterGiveup | refailStrandedRestart =>
    simp only [dep]
    split
    · exact Or.inl rfl
    · exact Or.inr (Or.inl (hfailed _ rfl))
  | selfWritePid _ _ | markReady _ | heartbeat _ | phaseC _ | stopActive _ | stampFailed _
  | apiStampActive _ => exact Or.inl rfl

/-- `_mark_terminal` takes its row out of the active set. -/
theorem row_markTerminal_isActive (report : TerminalReport) (now : ℕ) (c : RowContext)
    (r : NodeRow) : ((RowWrite.markTerminal report now).row c r).isActive = false := by
  simp only [row, NodeRow.isActive]
  split <;> rfl

/-- So does the reaper. -/
theorem row_onChildExit_isActive (exitCode : Option Int) (hasPolicy : Bool) (now : ℕ)
    (c : RowContext) (r : NodeRow) :
    ((RowWrite.onChildExit exitCode hasPolicy now).row c r).isActive = false := by
  have hexit : (r.exitTerminal exitCode).isActive = false := by
    unfold NodeRow.exitTerminal
    split
    · split <;> rfl
    · rename_i ha
      simpa using ha
  simp only [row]
  split
  · exact hexit
  · exact hexit

end RowWrite

end Msai.Supervisor
