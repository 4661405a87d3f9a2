import Msai.Supervisor.RowWrites

namespace Msai.Supervisor

open Msai.Live

/-!
# The transactions of the supervisor

Phase A of a spawn (`FleetRouter._phase_a_reserve_slot`) and `FleetRouter.stop` choose the
row they act on; every other writer is a `RowWrite` of a known row.  All of them take the
deployment lock before they read, so each is one atomic step of the table.

* `phaseAGate` — the refusals of Phase A, in the order of the source;
* `phaseA` — the gate followed by the insert;
* `stopTxn` — the transaction of `FleetRouter.stop`.

Phase A compares with the rows of *other* deployments in its concurrent-startup guard only;
what that query returns is an argument (`OtherStartup`).
-/

/-! ### One row write -/

namespace Db

variable {db db' : Db} {i j : ℕ} {r r' : NodeRow} {w : RowWrite}

/-- What a transaction on row `i` reads about the other rows. -/
def context (db : Db) (i : ℕ) (r : NodeRow) : RowContext :=
  { isLatest := decide (i + 1 = db.rows.length), newerActive := db.newerActive r }

/-- Commit `w` on row `i`; an `UPDATE` of a missing row commits without effect. -/
def write (db : Db) (i : ℕ) (w : RowWrite) : Option Db :=
  match db.rows[i]? with
  | none => some db
  | some r =>
    db.update i (w.row (db.context i r)) (w.row_startedAt _) (w.dep (db.context i r) r db.dep)

/-- Replace the deployment row. -/
def setDep (db : Db) (d : Deployment) : Db := { db with dep := d }

/-- Inversion of `write`. -/
theorem write_eq_some (h : db.write i w = some db') :
    (db.rows[i]? = none ∧ db' = db) ∨ ∃ r, db.rows[i]? = some r ∧
      db'.rows = db.rows.modify i (w.row (db.context i r)) ∧
      db'.dep = w.dep (db.context i r) r db.dep := by
  unfold write at h
  split at h
  · rename_i hnone
    exact Or.inl ⟨hnone, (Option.some.inj h).symm⟩
  · rename_i r hr
    exact Or.inr ⟨r, hr, update_eq_some h⟩

theorem write_length (h : db.write i w = some db') : db'.rows.length = db.rows.length := by
  rcases write_eq_some h with ⟨_, rfl⟩ | ⟨r, _, hrows, _⟩
  · rfl
  · rw [hrows, List.length_modify]

/-- The other rows are unchanged. -/
theorem write_getElem?_ne (h : db.write i w = some db') (hj : j ≠ i) :
    db'.rows[j]? = db.rows[j]? := by
  rcases write_eq_some h with ⟨_, rfl⟩ | ⟨r, _, hrows, _⟩
  · rfl
  · rw [hrows, List.getElem?_modify]
    simp [hj.symm]

/-- The written row. -/
theorem write_getElem?_self (h : db.write i w = some db') (hr : db.rows[i]? = some r) :
    db'.rows[i]? = some (w.row (db.context i r) r) := by
  rcases write_eq_some h with ⟨hnone, _⟩ | ⟨r₀, hr₀, hrows, _⟩
  · rw [hr] at hnone
    cases hnone
  · obtain rfl : r₀ = r := by simpa [hr₀] using hr
    rw [hrows, List.getElem?_modify, hr]
    simp

/-- A row of the new table is the old row or the written one. -/
theorem write_getElem?_cases (h : db.write i w = some db') (hr : db.rows[j]? = some r) :
    db'.rows[j]? = some r ∨ (j = i ∧ db'.rows[j]? = some (w.row (db.context i r) r)) := by
  by_cases hj : j = i
  · subst hj
    exact Or.inr ⟨rfl, write_getElem?_self h hr⟩
  · exact Or.inl (by rw [write_getElem?_ne h hj, hr])

/-- The deployment row after a write. -/
theorem write_dep (h : db.write i w = some db') (hr : db.rows[i]? = some r) :
    db'.dep = w.dep (db.context i r) r db.dep := by
  rcases write_eq_some h with ⟨hnone, _⟩ | ⟨r₀, hr₀, _, hdep⟩
  · rw [hr] at hnone
    cases hnone
  · obtain rfl : r₀ = r := by simpa [hr₀] using hr
    exact hdep

/-- An active row of the new table was active before, unless it is the written row and the
    write is a self-write by primary key. -/
theorem write_isActive (h : db.write i w = some db') (hr' : db'.rows[j]? = some r')
    (ha' : r'.isActive = true) :
    (∃ r, db.rows[j]? = some r ∧ r.isActive = true) ∨ (j = i ∧ w.isUnguarded = true) := by
  have hlt : j < db.rows.length := by
    rw [← write_length h]
    exact (List.getElem?_eq_some_iff.mp hr').1
  have hr : db.rows[j]? = some db.rows[j] := List.getElem?_eq_getElem hlt
  rcases write_getElem?_cases h hr with hsame | ⟨rfl, hnew⟩
  · exact Or.inl ⟨r', by rw [hr, ← hsame, hr'], ha'⟩
  · by_cases hug : w.isUnguarded = true
    · exact Or.inr ⟨rfl, hug⟩
    · obtain rfl : w.row (db.context j db.rows[j]) db.rows[j] = r' := by simpa [hnew] using hr'
      exact Or.inl ⟨_, hr, RowWrite.row_isActive (by simpa using hug) ha'⟩

/-- The index refuses no guarded write. -/
theorem write_isSome (hw : w.isUnguarded = false) : ∃ db', db.write i w = some db' := by
  unfold write
  split
  · exact ⟨db, rfl⟩
  · exact update_isSome _ fun r _ ha => RowWrite.row_isActive hw ha

end Db

/-! ### Phase A -/

/-- `_RestartCarry`: the restart counters of the row a respawn replaces. -/
structure RestartCarry where
  priorConsecutiveRespawnFailures : ℕ
  priorLastRestartAt : Option ℕ
  priorAutoRestartPaused : Bool
  priorAutoRestartPauseReason : Option String
deriving DecidableEq, Repr

/-- The arguments of `_phase_a_reserve_slot`, with the host and the clock it reads. -/
structure SpawnRequest where
  gatewaySessionKey : Option String
  restartCarry : Option RestartCarry
  host : String
  now : ℕ
deriving DecidableEq, Repr

/-- What the concurrent-startup query finds among the other deployments' rows.  Its
    `scalar_one_or_none` raises on more than one. -/
inductive OtherStartup
  | none
  | one
  | many
deriving DecidableEq, Repr

/-- `_PhaseAOutcome`, the row id of a reservation, or the exception of the query above. -/
inductive PhaseAOutcome
  | reserved (rowId : ℕ)
  | alreadyActive
  | busyStopping
  | notStartable
  | concurrentStartup
  | operatorStopped
  | raised
deriving DecidableEq, Repr

/-- A Python string that is `None` or empty is falsy. -/
def truthy : Option String → Option String
  | none => none
  | some s => if s = "" then none else some s

/-- `gateway_session_key or deployment.ib_login_key or "default"`. -/
def effectiveGatewayKey (key : Option String) (d : Deployment) : String :=
  ((truthy key).or (truthy d.ibLoginKey)).getD "default"

/-- `bound_to_current_attempt`: the latest row is not older than the last operator start. -/
def boundToCurrentAttempt (d : Deployment) : Option NodeRow → Bool
  | none => true
  | some r =>
    match d.lastStartedAt with
    | none => true
    | some t => !decide (r.startedAt < t)

/-- `latest_failure_retry_eligible`: the latest row failed transiently in this attempt. -/
def latestFailureRetryEligible (db : Db) : Bool :=
  boundToCurrentAttempt db.dep db.latest
    && (FailureKind.parseOrUnknown (db.latest.bind (·.failureKind))).isRetryEligible

/-- The latest row carries a stop intent. -/
def latestStamped (db : Db) : Bool := db.latest.any (·.isStamped)

/-- The refusals of Phase A; `none` means that the slot is reserved. -/
def phaseAGate (db : Db) (req : SpawnRequest) (other : OtherStartup) : Option PhaseAOutcome :=
  -- `stopped` is operator-terminal on every spawn path
  if db.dep.status = .stopped then some .operatorStopped
  -- only a respawn re-reads the durable stop intent
  else if req.restartCarry.isSome && latestStamped db then some .operatorStopped
  else match db.rows.find? (·.isActive) with
    | some r => some (if r.status = .stopping then .busyStopping else .alreadyActive)
    | none =>
      -- a START for a deployment the endpoint has given up, unless it retries a transient failure
      if db.dep.status = .failed ∧ req.restartCarry.isNone ∧ ¬latestFailureRetryEligible db then
        some .notStartable
      else match other with
        | .many => some .raised
        | .one => some .concurrentStartup
        | .none => none

/-- The row Phase A inserts, before the counters are carried. -/
def freshRow (req : SpawnRequest) (d : Deployment) : NodeRow :=
  { pid := none
    host := req.host
    startedAt := req.now
    lastHeartbeatAt := req.now
    status := .starting
    exitCode := none
    errorMessage := none
    failureKind := none
    gatewaySessionKey := effectiveGatewayKey req.gatewaySessionKey d
    autoRestartPaused := false
    autoRestartPauseReason := none
    consecutiveRespawnFailures := 0
    lastRestartAt := none
    stopRequestedAt := none
    restartDispatchedAt := none }

/-- The counters of the prior row on a fresh one. -/
def RestartCarry.onto (k : RestartCarry) (r : NodeRow) : NodeRow :=
  { r with
    consecutiveRespawnFailures := k.priorConsecutiveRespawnFailures
    lastRestartAt := k.priorLastRestartAt
    autoRestartPaused := k.priorAutoRestartPaused
    autoRestartPauseReason := k.priorAutoRestartPauseReason }

/-- The row Phase A inserts.  A respawn records its attempt on the carried counters. -/
def reservedRow (policy : Option RestartPolicy) (req : SpawnRequest) (d : Deployment) : NodeRow :=
  match req.restartCarry, policy with
  | some k, some p => p.recordFailure (k.onto (freshRow req d)) req.now
  | _, _ => freshRow req d

/-- The deployment row Phase A commits: a failed deployment it may restart becomes
    `starting`. -/
def reservedDep (db : Db) (req : SpawnRequest) : Deployment :=
  if db.dep.status = .failed ∧ (req.restartCarry.isSome ∨ latestFailureRetryEligible db) then
    db.dep.setStatus .starting Status.starting_ne_stopping
  else db.dep

/-- `_phase_a_reserve_slot`.  `none` when the clock does not stand after every reservation of
    the deployment. -/
def phaseA (policy : Option RestartPolicy) (db : Db) (req : SpawnRequest) (other : OtherStartup) :
    Option (PhaseAOutcome × Db) :=
  if h : ∀ r ∈ db.rows, r.startedAt < req.now then
    match phaseAGate db req other with
    | some o => some (o, db)
    | none =>
      match db.insert (reservedRow policy req db.dep)
          (by
            intro r hr
            have hs : (reservedRow policy req db.dep).startedAt = req.now := by
              unfold reservedRow
              split <;> rfl
            rw [hs]
            exact h r hr)
          (reservedDep db req) with
      | some db' => some (.reserved db.rows.length, db')
      -- `IntegrityError`: a concurrent winner holds the slot
      | none => some (.alreadyActive, db)
  else none

/-! ### What Phase A can do -/

section PhaseA

variable {policy : Option RestartPolicy} {db db' : Db} {req : SpawnRequest}
  {other : OtherStartup} {o : PhaseAOutcome}

@[simp] theorem reservedRow_status : (reservedRow policy req db.dep).status = .starting := by
  unfold reservedRow
  split <;> rfl

@[simp] theorem reservedRow_stopRequestedAt :
    (reservedRow policy req db.dep).stopRequestedAt = none := by
  unfold reservedRow
  split <;> rfl

@[simp] theorem reservedRow_startedAt :
    (reservedRow policy req db.dep).startedAt = req.now := by
  unfold reservedRow
  split <;> rfl

@[simp] theorem reservedRow_restartDispatchedAt :
    (reservedRow policy req db.dep).restartDispatchedAt = none := by
  unfold reservedRow
  split <;> rfl

/-- The row stores the effective key. -/
@[simp] theorem reservedRow_gatewaySessionKey :
    (reservedRow policy req db.dep).gatewaySessionKey
      = effectiveGatewayKey req.gatewaySessionKey db.dep := by
  unfold reservedRow
  split <;> rfl

/-- When the gate lets a request through. -/
theorem phaseAGate_eq_none (h : phaseAGate db req other = none) :
    db.dep.status ≠ .stopped ∧ (req.restartCarry.isSome = true → latestStamped db = false) ∧
      db.hasActive = false ∧
      (db.dep.status = .failed →
        req.restartCarry.isSome = true ∨ latestFailureRetryEligible db = true) ∧
      other = .none := by
  unfold phaseAGate at h
  split at h
  · cases h
  rename_i hstopped
  split at h
  · cases h
  rename_i hcarry
  split at h
  · cases h
  rename_i hactive
  split at h
  · cases h
  rename_i hfailed
  refine ⟨hstopped, ?_, ?_, ?_, ?_⟩
  · intro hc
    simpa [hc] using hcarry
  · simpa [Db.hasActive] using hactive
  · intro hf
    by_cases hc : req.restartCarry.isSome = true
    · exact Or.inl hc
    · refine Or.inr ?_
      by_contra he
      exact hfailed ⟨hf, by simpa using hc, he⟩
  · cases other <;> first | rfl | cases h

/-- **Phase A.**  Either nothing is committed, or the gate was open and exactly one row is
    appended. -/
theorem phaseA_cases (h : phaseA policy db req other = some (o, db')) :
    (db' = db ∧ ∀ id, o ≠ .reserved id) ∨
      (o = .reserved db.rows.length ∧ phaseAGate db req other = none ∧
        (∀ r ∈ db.rows, r.startedAt < req.now) ∧
        db'.rows = db.rows ++ [reservedRow policy req db.dep] ∧
        db'.dep = reservedDep db req) := by
  unfold phaseA at h
  split at h
  · rename_i hclock
    split at h
    · -- refused: none of the refusals is a reservation
      rename_i o' hgate
      obtain ⟨rfl, rfl⟩ := Prod.mk.inj (Option.some.inj h)
      refine Or.inl ⟨rfl, fun id hid => ?_⟩
      subst hid
      unfold phaseAGate at hgate
      split at hgate
      · cases hgate
      split at hgate
      · cases hgate
      split at hgate
      · rw [Option.some.injEq] at hgate
        split at hgate <;> cases hgate
      split at hgate
      · cases hgate
      split at hgate <;> cases hgate
    · rename_i hgate
      split at h
      · rename_i db'' hins
        obtain ⟨rfl, rfl⟩ := Prod.mk.inj (Option.some.inj h)
        obtain ⟨hrows, hdep⟩ := Db.insert_eq_some hins
        exact Or.inr ⟨rfl, hgate, hclock, hrows, hdep⟩
      · obtain ⟨rfl, rfl⟩ := Prod.mk.inj (Option.some.inj h)
        exact Or.inl ⟨rfl, fun id hid => by cases hid⟩
  · cases h

end PhaseA

/-! ### `FleetRouter.stop` -/

/-- What the transaction of `stop` decided. -/
inductive StopResult
  /-- The active row is `stopping` and stamped; the SIGTERM goes to this pid unless the
      handle cache knows a live one. -/
  | signal (rowPid : Option ℕ)
  /-- The row belongs to another host: not acknowledged, nothing written. -/
  | wrongHost
  /-- No active row: stamped, marked stopped, or idempotent. -/
  | noActive
deriving DecidableEq, Repr

/-- The no-active-row branch for a deployment without a restart to suppress: a queued,
    unconsumed START is aborted by making the deployment operator-terminal. -/
def stopPreActive (db : Db) (now : ℕ) : Db :=
  if db.dep.status.isLive then
    db.setDep
      { db.dep.setStatus .stopped Status.stopped_ne_stopping with lastStoppedAt := some now }
  else db

/-- The transaction of `FleetRouter.stop` on host `host`. -/
def stopTxn (host : String) (now : ℕ) (db : Db) : Option (StopResult × Db) :=
  match db.activeId with
  | some i =>
    (db.rows[i]?).bind fun r =>
      -- a `stopping` row is found again, so that a redelivered STOP is idempotent
      if r.host = host then
        (db.write i (.stopActive now)).map fun db' => (.signal r.pid, db')
      else some (.wrongHost, db)
  | none =>
    if db.dep.status = .stopped then some (.noActive, db)
    -- only the intent column: the failed row and the deployment keep their status
    else if db.latest.any (·.isPendingRestart) then
      (db.write (db.rows.length - 1) (.stampFailed now)).map fun db' => (.noActive, db')
    else some (.noActive, stopPreActive db now)

/-- **Stop.**  It marks the active row, refuses a foreign one, stamps the latest failed row,
    or makes a queued deployment operator-terminal. -/
theorem stopTxn_cases {host : String} {now : ℕ} {db db' : Db} {res : StopResult}
    (h : stopTxn host now db = some (res, db')) :
    (∃ i r, db.rows[i]? = some r ∧ r.isActive = true ∧ r.host = host ∧ res = .signal r.pid ∧
      db.write i (.stopActive now) = some db') ∨
    ((∃ r ∈ db.rows, r.isActive = true ∧ r.host ≠ host) ∧ res = .wrongHost ∧ db' = db) ∨
    (db.hasActive = false ∧ res = .noActive ∧
      ((db.dep.status = .stopped ∧ db' = db) ∨
       (db.dep.status ≠ .stopped ∧ db.latest.any (·.isPendingRestart) = true ∧
          db.write (db.rows.length - 1) (.stampFailed now) = some db') ∨
       (db.dep.status ≠ .stopped ∧ db.latest.any (·.isPendingRestart) = false ∧
          db' = stopPreActive db now))) := by
  unfold stopTxn at h
  split at h
  · rename_i i hi
    obtain ⟨r, hr, ha⟩ := Db.activeId_eq_some hi
    rw [hr, Option.bind_some] at h
    split at h
    · -- the row is ours
      rename_i hhost
      obtain ⟨db₁, hw, heq⟩ := Option.map_eq_some_iff.mp h
      obtain ⟨rfl, rfl⟩ := Prod.mk.inj heq
      exact Or.inl ⟨i, r, hr, ha, hhost, rfl, hw⟩
    · rename_i hhost
      obtain ⟨rfl, rfl⟩ := Prod.mk.inj (Option.some.inj h)
      exact Or.inr (Or.inl ⟨⟨r, List.mem_of_getElem? hr, ha, hhost⟩, rfl, rfl⟩)
  · rename_i hnone
    have hact := Db.activeId_eq_none_iff.mp hnone
    refine Or.inr (Or.inr ?_)
    split at h
    · rename_i hst
      obtain ⟨rfl, rfl⟩ := Prod.mk.inj (Option.some.inj h)
      exact ⟨hact, rfl, Or.inl ⟨hst, rfl⟩⟩
    · rename_i hst
      split at h
      · rename_i hpend
        obtain ⟨db₁, hw, heq⟩ := Option.map_eq_some_iff.mp h
        obtain ⟨rfl, rfl⟩ := Prod.mk.inj heq
        exact ⟨hact, rfl, Or.inr (Or.inl ⟨hst, hpend, hw⟩)⟩
      · rename_i hpend
        obtain ⟨rfl, rfl⟩ := Prod.mk.inj (Option.some.inj h)
        exact ⟨hact, rfl, Or.inr (Or.inr ⟨hst, by simpa using hpend, rfl⟩)⟩

theorem stopTxn_length {host : String} {now : ℕ} {db db' : Db} {res : StopResult}
    (h : stopTxn host now db = some (res, db')) : db'.rows.length = db.rows.length := by
  rcases stopTxn_cases h with ⟨i, _, _, _, _, _, hw⟩ | ⟨_, _, rfl⟩ | ⟨_, _, hcase⟩
  · exact Db.write_length hw
  · rfl
  · rcases hcase with ⟨_, rfl⟩ | ⟨_, _, hw⟩ | ⟨_, _, rfl⟩
    · rfl
    · exact Db.write_length hw
    · unfold stopPreActive
      split <;> rfl

/-- A stop keeps every row in or out of the active set, and a stopping row stopping. -/
theorem stopTxn_row {host : String} {now j : ℕ} {db db' : Db} {res : StopResult} {r : NodeRow}
    (h : stopTxn host now db = some (res, db')) (hr : db.rows[j]? = some r) :
    ∃ r', db'.rows[j]? = some r' ∧ r'.isActive = r.isActive ∧
      (r.status = .stopping → r'.status = .stopping) ∧
      r'.restartDispatchedAt = r.restartDispatchedAt := by
  have hsame : ∀ db'' : Db, db''.rows = db.rows → ∃ r', db''.rows[j]? = some r' ∧
      r'.isActive = r.isActive ∧ (r.status = .stopping → r'.status = .stopping) ∧
        r'.restartDispatchedAt = r.restartDispatchedAt :=
    fun db'' hrows => ⟨r, by rw [hrows, hr], rfl, id, rfl⟩
  rcases stopTxn_cases h with ⟨i, _, _, _, _, _, hw⟩ | ⟨_, _, rfl⟩ | ⟨_, _, hcase⟩
  · rcases Db.write_getElem?_cases hw hr with hr' | ⟨_, hr'⟩
    · exact ⟨r, hr', rfl, id, rfl⟩
    · refine ⟨_, hr', ?_, ?_, ?_⟩ <;> simp only [RowWrite.row]
      · split
        · rename_i ha
          exact ha.symm
        · rfl
      · intro hst
        split
        · rfl
        · exact hst
      · split <;> rfl
  · exact hsame _ rfl
  · rcases hcase with ⟨_, rfl⟩ | ⟨_, _, hw⟩ | ⟨_, _, rfl⟩
    · exact hsame _ rfl
    · rcases Db.write_getElem?_cases hw hr with hr' | ⟨_, hr'⟩
      · exact ⟨r, hr', rfl, id, rfl⟩
      · refine ⟨_, hr', ?_, ?_, ?_⟩ <;> simp only [RowWrite.row] <;> split <;>
          first | rfl | exact id
    · refine hsame _ ?_
      unfold stopPreActive
      split <;> rfl

/-! ### A queued start

The smallest input: an operator has started the deployment, the command is still queued.
-/

/-- A deployment an operator has just started, without node rows. -/
def queuedDb : Db where
  dep :=
    { status := .starting, accountId := some "DU1", ibLoginKey := none, lastStartedAt := some 0,
      lastStoppedAt := none, notStopping := Status.starting_ne_stopping }
  rows := []
  ordered := .nil
  index := .nil

/-- A START as `handle_command` passes it on, consumed at time `now` on host `"h"`. -/
def startRequest (now : ℕ) : SpawnRequest :=
  { gatewaySessionKey := none, restartCarry := none, host := "h", now := now }

/-- The request of a restart attempt on a row without earlier failures. -/
def restartRequest (now : ℕ) : SpawnRequest :=
  { gatewaySessionKey := some "default"
    restartCarry := some
      { priorConsecutiveRespawnFailures := 0, priorLastRestartAt := none,
        priorAutoRestartPaused := false, priorAutoRestartPauseReason := none }
    host := "h"
    now := now }

end Msai.Supervisor
