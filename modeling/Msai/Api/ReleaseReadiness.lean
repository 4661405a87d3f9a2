import Msai.Supervisor.Gateway

namespace Msai.Api

open Msai.Live Msai.Lib Msai.Lib.TransitionSystem Msai.Supervisor

/-!
# Release readiness (`release_readiness` in `api/live.py`)

A release replaces the services only after the API has answered that the fleet is quiet.  The
answer is three counts over one snapshot of the two tables, and it re-states which rows Phase A
and the rescan would restart.  Here the counts are taken over any two tables, ties in
`started_at` included, and compared with what the supervisor may do afterwards: redeliver a
START, go on with a restart attempt or with a spawn it has begun, reap, sweep.

* `releaseReadiness` — the three counts;
* `rowsGate` — Phase A's refusals for a given answer of `ORDER BY started_at DESC LIMIT 1`;
  `phaseAGate_eq_rowsGate` ties it to `phaseAGate`;
* `quietStep` — the steps of the supervisor without a new operator start;
* `NoRestartBehindStopped`, `NoSpawnBehindAnswer` — what the counts do not see;
* `ready_rules_out_reservation_iff` — a ready answer is sound exactly when both hold.
-/

/-! ### The two tables -/

/-- One deployment with its node rows, in any order. -/
structure DeploymentRows where
  dep : Deployment
  rows : List NodeRow
deriving DecidableEq

/-- The rows of a deployment as the tables hold them. -/
def DeploymentRows.ofDb (db : Db) : DeploymentRows := { dep := db.dep, rows := db.rows }

/-- `later_process.started_at > LiveNodeProcess.started_at`. -/
def hasLaterProcess (rows : List NodeRow) (r : NodeRow) : Bool :=
  rows.any fun r' => decide (r.startedAt < r'.startedAt)

/-- The row was reserved by the last operator start or behind it. -/
def isCurrentAttempt (d : Deployment) (r : NodeRow) : Bool :=
  d.lastStartedAt.all fun t => decide (t ≤ r.startedAt)

/-- `has_restart_candidate` on one row. -/
def isRestartCandidate (d : Deployment) (rows : List NodeRow) (r : NodeRow) : Bool :=
  r.status == .failed && !hasLaterProcess rows r
    && (r.stopRequestedAt.isNone
      || (r.failureKind == some FailureKind.spawnFailedTransient.value && isCurrentAttempt d r))

/-- `terminal`. -/
def terminalStatuses : List Status := [.stopped, .failed]

/-- `LiveReleaseReadinessResponse`. -/
structure ReadinessResponse where
  ready : Bool
  blockingDeployments : ℕ
  blockingProcesses : ℕ
  restartBlockers : ℕ
deriving DecidableEq, Repr

/-- `release_readiness`: the three scalar subqueries of one statement. -/
def releaseReadiness (s : List DeploymentRows) : ReadinessResponse :=
  let blockingDeployments := s.countP fun x => !terminalStatuses.contains x.dep.status
  let blockingProcesses :=
    (s.flatMap (·.rows)).countP fun r => !terminalStatuses.contains r.status
  let restartBlockers := s.countP fun x =>
    x.dep.status == .failed && x.rows.any (isRestartCandidate x.dep x.rows)
  { ready := blockingDeployments == blockingProcesses && blockingProcesses == restartBlockers
      && restartBlockers == 0
    blockingDeployments := blockingDeployments
    blockingProcesses := blockingProcesses
    restartBlockers := restartBlockers }

theorem contains_terminalStatuses (st : Status) :
    (!terminalStatuses.contains st) = st.isActive := by
  cases st <;> rfl

/-- What a ready answer says about every deployment of the snapshot. -/
theorem ready_iff {s : List DeploymentRows} :
    (releaseReadiness s).ready = true ↔ ∀ x ∈ s, x.dep.status.isActive = false ∧
      (∀ r ∈ x.rows, r.isActive = false) ∧
      (x.dep.status = .failed → ∀ r ∈ x.rows, isRestartCandidate x.dep x.rows r = false) := by
  have hcounts : (releaseReadiness s).ready = true ↔
      (releaseReadiness s).blockingDeployments = 0 ∧
      (releaseReadiness s).blockingProcesses = 0 ∧
      (releaseReadiness s).restartBlockers = 0 := by
    simp only [releaseReadiness, Bool.and_eq_true, beq_iff_eq]
    omega
  rw [hcounts]
  simp only [releaseReadiness, List.countP_eq_zero, contains_terminalStatuses,
    List.mem_flatMap, Bool.not_eq_true, forall_exists_index, and_imp, Bool.and_eq_false_iff,
    List.any_eq_false, NodeRow.isActive]
  constructor
  · rintro ⟨hdep, hrow, hcand⟩ x hx
    refine ⟨hdep x hx, fun r hr => hrow r x hx hr, fun hf => ?_⟩
    rcases hcand x hx with hne | hcand
    · simp [hf] at hne
    · exact hcand
  · intro h
    refine ⟨fun x hx => (h x hx).1, fun r x hx hr => (h x hx).2.1 r hr, fun x hx => ?_⟩
    by_cases hf : x.dep.status = .failed
    · exact Or.inr ((h x hx).2.2 hf)
    · exact Or.inl (by simpa using hf)

/-! ### Phase A on the tables -/

/-- `latest_failure_retry_eligible` for the row the query returned. -/
def retryEligible (d : Deployment) (latest : Option NodeRow) : Bool :=
  boundToCurrentAttempt d latest
    && (FailureKind.parseOrUnknown (latest.bind (·.failureKind))).isRetryEligible

/-- The refusals of Phase A when the query for the latest row returned `latest`. -/
def rowsGate (d : Deployment) (rows : List NodeRow) (latest : Option NodeRow)
    (req : SpawnRequest) (other : OtherStartup) : Option PhaseAOutcome :=
  if d.status = .stopped then some .operatorStopped
  else if req.restartCarry.isSome && latest.any (·.isStamped) then some .operatorStopped
  else match rows.filter (·.isActive) with
    | _ :: _ :: _ => some .raised
    | [r] => some (if r.status = .stopping then .busyStopping else .alreadyActive)
    | [] =>
      if d.status = .failed ∧ req.restartCarry.isNone ∧ ¬retryEligible d latest then
        some .notStartable
      else match other with
        | .many => some .raised
        | .one => some .concurrentStartup
        | .none => none

/-- The active rows of a table the index accepts: the first one is the only one. -/
theorem filter_isActive_eq (db : Db) :
    db.rows.filter (·.isActive) = (db.rows.find? (·.isActive)).toList := by
  have hlen : ∀ rows : List NodeRow, UniqueActive rows →
      rows.filter (·.isActive) = (rows.find? (·.isActive)).toList := by
    intro rows huniq
    induction rows with
    | nil => rfl
    | cons r rows ih =>
      obtain ⟨hhead, htail⟩ := List.pairwise_cons.mp huniq
      by_cases ha : r.isActive = true
      · have hnone : rows.filter (·.isActive) = [] := by
          rw [List.filter_eq_nil_iff]
          exact fun r' hr' ha' => hhead r' hr' ⟨ha, ha'⟩
        simp [ha, hnone]
      · simp [ha, ih htail]
  exact hlen db.rows db.index

/-- On a table in order of `started_at` this is the gate of Phase A. -/
theorem phaseAGate_eq_rowsGate (db : Db) (req : SpawnRequest) (other : OtherStartup) :
    phaseAGate db req other = rowsGate db.dep db.rows db.latest req other := by
  unfold phaseAGate rowsGate
  rw [filter_isActive_eq]
  cases db.rows.find? (·.isActive) <;> rfl

/-- The stored kind decides the exemption. -/
theorem isRetryEligible_parse_iff {v : Option String} :
    (FailureKind.parseOrUnknown v).isRetryEligible = true ↔
      v = some FailureKind.spawnFailedTransient.value := by
  constructor
  · intro h
    cases v with
    | none => simp [FailureKind.parseOrUnknown, FailureKind.isRetryEligible] at h
    | some v =>
      simp only [FailureKind.parseOrUnknown, FailureKind.isRetryEligible] at h
      cases hfind : FailureKind.all.find? (fun k => k.value == v) with
      | none => simp [hfind] at h
      | some k =>
        have hv : k.value = v := by simpa using List.find?_some hfind
        have hk : k = .spawnFailedTransient := by simpa [hfind] using h
        rw [← hv, hk]
  · rintro rfl
    rw [FailureKind.parseOrUnknown_value]
    rfl

theorem boundToCurrentAttempt_some (d : Deployment) (r : NodeRow) :
    boundToCurrentAttempt d (some r) = isCurrentAttempt d r := by
  unfold boundToCurrentAttempt isCurrentAttempt
  cases d.lastStartedAt with
  | none => rfl
  | some t =>
    show (!decide (r.startedAt < t)) = decide (t ≤ r.startedAt)
    rw [← decide_not]
    simp only [Nat.not_lt]

/-- A latest row that a redelivered START may retry. -/
theorem retryEligible_some_iff {d : Deployment} {r : NodeRow} :
    retryEligible d (some r) = true ↔
      isCurrentAttempt d r = true ∧
        r.failureKind = some FailureKind.spawnFailedTransient.value := by
  simp only [retryEligible, Bool.and_eq_true, boundToCurrentAttempt_some, Option.bind_some,
    isRetryEligible_parse_iff]

/-! ### The supervisor behind the answer -/

/-- The tables, and the spawns that are past their reservation and not yet over: the
    deployment and the row each holds. -/
structure QuietSite where
  deployments : List DeploymentRows
  spawns : List (ℕ × ℕ)
deriving DecidableEq

/-- The row writes of the sweeps, of the reaper and of a restart attempt that gives up. -/
def isRecoveryWrite : RowWrite → Bool
  | .onChildExit _ _ _ | .heartbeatSweep _ | .rescanFlip _
  | .clearSentinelAndRefailAfterGiveup | .refailStrandedRestart => true
  | _ => false

/-- The row writes of a spawn on the row it has reserved. -/
def isSpawnWrite : RowWrite → Bool
  | .phaseC _ | .markFailed _ _ | .terminalizeReservedRow _ _ => true
  | _ => false

/-- What the supervisor does next, without a new operator start. -/
inductive QuietLabel
  /-- Phase A of a redelivered START or of a restart attempt.  Among rows that tie for the
      latest `started_at`, `pick` is the one the query returns. -/
  | phaseA (d pick : ℕ) (req : SpawnRequest)
  | recover (d i : ℕ) (w : RowWrite)
  | spawn (d i : ℕ) (w : RowWrite)
deriving DecidableEq

namespace DeploymentRows

/-- What a transaction reads about the other rows. -/
def context (x : DeploymentRows) (r : NodeRow) : RowContext :=
  { isLatest := !hasLaterProcess x.rows r
    newerActive := x.rows.any fun r' => decide (r.startedAt < r'.startedAt) && r'.isActive }

/-- Commit `w` on row `i`; an `UPDATE` of a missing row commits without effect. -/
def write (x : DeploymentRows) (i : ℕ) (w : RowWrite) : DeploymentRows :=
  match x.rows[i]? with
  | none => x
  | some r =>
    { dep := w.dep (x.context r) r x.dep, rows := x.rows.set i (w.row (x.context r) r) }

/-- The query for the latest row may return `pick`.  A restart attempt has loaded a row of
    the deployment, so there is one. -/
def picks (x : DeploymentRows) (pick : ℕ) (req : SpawnRequest) : Bool :=
  match x.rows[pick]? with
  | some r => !hasLaterProcess x.rows r
  | none => x.rows.isEmpty && req.restartCarry.isNone

/-- The transaction of a reservation. -/
def reserve (policy : Option RestartPolicy) (x : DeploymentRows) (pick : ℕ)
    (req : SpawnRequest) : DeploymentRows :=
  { dep :=
      if x.dep.status = .failed ∧
          (req.restartCarry.isSome ∨ retryEligible x.dep x.rows[pick]?) then
        x.dep.setStatus .starting Status.starting_ne_stopping
      else x.dep
    rows := x.rows ++ [reservedRow policy req x.dep] }

end DeploymentRows

/-- The concurrent-startup query of deployment `d`. -/
def concurrentStartup (s : List DeploymentRows) (d : ℕ) (key : Option String) : OtherStartup :=
  match (s.zipIdx.filter fun p => p.2 != d).flatMap fun p =>
      p.1.rows.filter (startupMatches key) with
  | [] => .none
  | [_] => .one
  | _ => .many

/-- The gate of Phase A on deployment `d`. -/
def quietGate (s : QuietSite) (d : ℕ) (x : DeploymentRows) (pick : ℕ) (req : SpawnRequest) :
    Option PhaseAOutcome :=
  rowsGate x.dep x.rows x.rows[pick]? req
    (concurrentStartup s.deployments d req.gatewaySessionKey)

/-- One step of the supervisor. -/
def quietStep (policy : Option RestartPolicy) (s : QuietSite) : QuietLabel → Option QuietSite
  | .phaseA d pick req =>
    (s.deployments[d]?).bind fun x =>
      if x.picks pick req then
        some (if (quietGate s d x pick req).isNone then
          { deployments := s.deployments.set d (x.reserve policy pick req)
            spawns := s.spawns ++ [(d, x.rows.length)] }
        else s)
      else none
  | .recover d i w =>
    if isRecoveryWrite w then
      (s.deployments[d]?).map fun x =>
        { s with deployments := s.deployments.set d (x.write i w) }
    else none
  | .spawn d i w =>
    if isSpawnWrite w && s.spawns.contains (d, i) then
      (s.deployments[d]?).map fun x =>
        { s with deployments := s.deployments.set d (x.write i w) }
    else none

/-- The supervisor without operator starts. -/
def quietSystem (policy : Option RestartPolicy) : TransitionSystem QuietSite QuietLabel where
  step := quietStep policy

/-- The step is a Phase A that reserves a row. -/
def reserves (s : QuietSite) : QuietLabel → Bool
  | .phaseA d pick req =>
    (s.deployments[d]?).any fun x => x.picks pick req && (quietGate s d x pick req).isNone
  | _ => false

/-! ### What the counts do not see -/

/-- A latest row that keeps no respawn and no redelivered START away from its deployment. -/
def isOpen (d : Deployment) (r : NodeRow) : Bool :=
  !r.isStamped
    || (r.failureKind == some FailureKind.spawnFailedTransient.value && isCurrentAttempt d r)

/-- No failed deployment stands behind an open latest row in status `stopped`.  The counts
    look at `failed` rows, Phase A at the latest row whatever its status. -/
def NoRestartBehindStopped (s : List DeploymentRows) : Prop :=
  ∀ x ∈ s, x.dep.status = .failed → ∀ r ∈ x.rows, r.status = .stopped →
    hasLaterProcess x.rows r = false → isOpen x.dep r = false

/-- No spawn still holds a row that Phase A would ask about a transient failure.  Its
    `_mark_failed` may come behind the answer. -/
def NoSpawnBehindAnswer (s : QuietSite) : Prop :=
  ∀ p ∈ s.spawns, ∀ x r, s.deployments[p.1]? = some x → x.rows[p.2]? = some r →
    x.dep.status = .failed → hasLaterProcess x.rows r = false → isCurrentAttempt x.dep r = false

/-- Nothing of the deployment runs, and Phase A would refuse it on every path. -/
structure DeploymentRows.Quiet (x : DeploymentRows) : Prop where
  dep_terminal : x.dep.status.isActive = false
  rows_terminal : ∀ r ∈ x.rows, r.isActive = false
  closed : x.dep.status = .failed → ∀ r ∈ x.rows, hasLaterProcess x.rows r = false →
    isOpen x.dep r = false

/-- Every deployment is quiet, and no spawn in flight can open one. -/
structure QuietSite.Quiet (s : QuietSite) : Prop where
  deployments : ∀ x ∈ s.deployments, x.Quiet
  spawns : NoSpawnBehindAnswer s

/-- A ready answer with the two conditions is a quiet fleet. -/
theorem quiet_of_ready {s : QuietSite} (hready : (releaseReadiness s.deployments).ready = true)
    (hstopped : NoRestartBehindStopped s.deployments) (hspawn : NoSpawnBehindAnswer s) :
    s.Quiet := by
  refine ⟨fun x hx => ?_, hspawn⟩
  obtain ⟨hdep, hrows, hcand⟩ := ready_iff.mp hready x hx
  refine ⟨hdep, hrows, fun hf r hr hlatest => ?_⟩
  have hterm := hrows r hr
  cases hst : r.status with
  -- the counts do not look at stopped rows
  | stopped => exact hstopped x hx hf r hr hst hlatest
  | failed =>
    have hno := hcand hf r hr
    simpa [isRestartCandidate, isOpen, NodeRow.isStamped, hst, hlatest] using hno
  | _ => simp [NodeRow.isActive, Status.isActive, hst] at hterm

/-! ### A quiet fleet stays quiet -/

/-- Moving no row in time keeps the latest rows. -/
theorem hasLaterProcess_set {rows : List NodeRow} {i : ℕ} {r r' : NodeRow}
    (hr : rows[i]? = some r) (hs : r'.startedAt = r.startedAt) (q : NodeRow) :
    hasLaterProcess (rows.set i r') q = hasLaterProcess rows q := by
  -- the query compares start times, and the write keeps them
  have htimes : (rows.set i r').map (·.startedAt) = rows.map (·.startedAt) := by
    rw [List.map_set, hs]
    refine List.ext_getElem? fun j => ?_
    by_cases hj : i = j
    · subst hj
      obtain ⟨hi, rfl⟩ := List.getElem?_eq_some_iff.mp hr
      simp [hi]
    · simp [List.getElem?_set_ne hj]
  have hany : ∀ l : List NodeRow,
      hasLaterProcess l q = (l.map (·.startedAt)).any fun t => decide (q.startedAt < t) := by
    intro l
    rw [List.any_map]
    rfl
  rw [hany, hany, htimes]

/-- A recovery write leaves the kind of a terminal row alone. -/
theorem row_failureKind_of_terminal {w : RowWrite} {c : RowContext} {r : NodeRow}
    (hw : isRecoveryWrite w = true) (ha : r.isActive = false) :
    (w.row c r).failureKind = r.failureKind := by
  have hact : r.status.isActive = false := ha
  have hlive : r.status.isLive = false := by
    rw [Status.isActive_eq, Bool.or_eq_false_iff] at hact
    exact hact.1
  have hpost : ∀ cutoff, r.isStalePostStartup cutoff = false := by
    intro cutoff
    unfold NodeRow.isStalePostStartup
    cases hst : r.status <;> simp_all [Status.isActive]
  cases w with
  | onChildExit e p n =>
    have hkept : r.exitTerminal e = r := by simp [NodeRow.exitTerminal, ha]
    simp only [RowWrite.row, hkept]
    split <;> rfl
  | heartbeatSweep cutoff => simp [RowWrite.row, hpost]
  | rescanFlip cutoff => simp [RowWrite.row, NodeRow.isStaleLive, hlive]
  | clearSentinelAndRefailAfterGiveup | refailStrandedRestart => simp [RowWrite.row, hlive]
  | _ => cases hw

namespace DeploymentRows

variable {x : DeploymentRows} {i pick : ℕ} {w : RowWrite} {r : NodeRow}

/-- No row write touches a terminal deployment. -/
theorem write_dep (hx : x.dep.status.isActive = false) (i : ℕ) (w : RowWrite) :
    (x.write i w).dep = x.dep := by
  have hlive : x.dep.status.isLive = false := by
    rw [Status.isActive_eq, Bool.or_eq_false_iff] at hx
    exact hx.1
  unfold write
  split
  · rfl
  · exact RowWrite.dep_of_not_isLive hlive

/-- A row behind a write is an old row or the written one, as late as before. -/
theorem write_row {r' : NodeRow} {j : ℕ} (h : (x.write i w).rows[j]? = some r') :
    hasLaterProcess (x.write i w).rows r' = hasLaterProcess x.rows r' ∧
      (x.rows[j]? = some r' ∨
        ∃ r, j = i ∧ x.rows[i]? = some r ∧ r' = w.row (x.context r) r) := by
  unfold write at h ⊢
  split at h
  · exact ⟨rfl, Or.inl h⟩
  · rename_i r hr
    simp only [hr]
    refine ⟨hasLaterProcess_set hr (w.row_startedAt _ _) r', ?_⟩
    rcases getElem?_set_cases h with ⟨rfl, rfl⟩ | ⟨_, hold⟩
    · exact Or.inr ⟨r, rfl, rfl, rfl⟩
    · exact Or.inl hold

/-- The written row. -/
theorem write_getElem?_self (hr : x.rows[i]? = some r) :
    (x.write i w).rows[i]? = some (w.row (x.context r) r) := by
  obtain ⟨hi, rfl⟩ := List.getElem?_eq_some_iff.mp hr
  simp [write, hi]

/-- A guarded write activates no row. -/
theorem write_rows_terminal (hx : ∀ r ∈ x.rows, r.isActive = false)
    (hw : w.isUnguarded = false) : ∀ r ∈ (x.write i w).rows, r.isActive = false := by
  intro r' hr'
  obtain ⟨j, hj⟩ := List.mem_iff_getElem?.mp hr'
  rcases (write_row hj).2 with hold | ⟨r, _, hr, rfl⟩
  · exact hx r' (List.mem_of_getElem? hold)
  · have hterm := hx r (List.mem_of_getElem? hr)
    by_contra hact
    -- a guarded write activates no row that was not active
    have hback := RowWrite.row_isActive hw (by simpa using hact)
    rw [hterm] at hback
    cases hback

/-- A guarded write keeps a deployment quiet if it does not open the row it writes. -/
theorem Quiet.write (hx : x.Quiet) (hw : w.isUnguarded = false)
    (hkeep : ∀ r, x.rows[i]? = some r → x.dep.status = .failed →
      hasLaterProcess x.rows r = false → isOpen x.dep (w.row (x.context r) r) = false) :
    (x.write i w).Quiet := by
  have hdep := write_dep hx.dep_terminal i w
  refine ⟨?_, write_rows_terminal hx.rows_terminal hw, fun hf r' hr' hlatest => ?_⟩
  · rw [hdep]
    exact hx.dep_terminal
  · rw [hdep] at hf ⊢
    obtain ⟨j, hj⟩ := List.mem_iff_getElem?.mp hr'
    obtain ⟨hlater, hrow⟩ := write_row hj
    rw [hlater] at hlatest
    rcases hrow with hold | ⟨r, _, hr, rfl⟩
    · exact hx.closed hf r' (List.mem_of_getElem? hold) hlatest
    · -- the written row is as late as it was
      have hsame : hasLaterProcess x.rows r = false := by
        rw [← hlatest]
        simp only [hasLaterProcess, RowWrite.row_startedAt]
      exact hkeep r hr hf hsame

/-- Phase A refuses a quiet deployment, whichever latest row it reads. -/
theorem Quiet.refuses (hx : x.Quiet) {req : SpawnRequest} (hpick : x.picks pick req = true)
    (other : OtherStartup) :
    (rowsGate x.dep x.rows x.rows[pick]? req other).isNone = false := by
  have hnone : x.rows.filter (·.isActive) = [] := by
    rw [List.filter_eq_nil_iff]
    intro r hr
    simp [hx.rows_terminal r hr]
  unfold rowsGate
  by_cases hstopped : x.dep.status = .stopped
  · simp [hstopped]
  · have hfailed : x.dep.status = .failed := by
      have hterm := hx.dep_terminal
      cases hst : x.dep.status <;> simp_all [Status.isActive]
    rw [if_neg hstopped, hnone]
    unfold picks at hpick
    split at hpick
    · rename_i r hr
      have hclosed := hx.closed hfailed r (List.mem_of_getElem? hr) (by simpa using hpick)
      simp only [isOpen, Bool.or_eq_false_iff, Bool.not_eq_false'] at hclosed
      obtain ⟨hstamped, hkind⟩ := hclosed
      -- a respawn needs the stamp, a START a transient failure of the current attempt
      by_cases hcarry : req.restartCarry.isSome = true
      · simp [hr, hcarry, hstamped]
      · have hretry : retryEligible x.dep (some r) = false := by
          by_contra h
          obtain ⟨hcur, hk⟩ := retryEligible_some_iff.mp (by simpa using h)
          simp [hcur, hk] at hkind
        have hcarry' : req.restartCarry = none := by simpa using hcarry
        simp [hr, hfailed, hcarry', hretry]
    · -- a deployment without rows: only a START gets here, and it has nothing to retry
      rename_i hr
      obtain ⟨_, hcarry⟩ := Bool.and_eq_true_iff.mp hpick
      have hcarry' : req.restartCarry = none := by simpa using hcarry
      have hretry : retryEligible x.dep none = false := rfl
      simp [hr, hfailed, hcarry', hretry]

end DeploymentRows

section Step

variable {policy : Option RestartPolicy} {s t : QuietSite} {a : QuietLabel}

/-- What one step does: nothing, a reservation, or one row write. -/
theorem quietStep_cases (h : quietStep policy s a = some t) :
    (t = s ∧ reserves s a = false) ∨ reserves s a = true ∨
    (∃ d i w x, s.deployments[d]? = some x ∧
      t = { s with deployments := s.deployments.set d (x.write i w) } ∧
      (isRecoveryWrite w = true ∨ isSpawnWrite w = true ∧ (d, i) ∈ s.spawns)) := by
  cases a with
  | phaseA d pick req =>
    obtain ⟨x, hx, h⟩ := Option.bind_eq_some_iff.mp h
    by_cases hp : x.picks pick req = true
    · rw [if_pos hp] at h
      by_cases hg : (quietGate s d x pick req).isNone = true
      · refine Or.inr (Or.inl ?_)
        simp [reserves, hx, hp, hg]
      · rw [if_neg hg] at h
        refine Or.inl ⟨(Option.some.inj h).symm, ?_⟩
        simp only [reserves, hx, hp, Option.any_some, Bool.true_and]
        exact Bool.eq_false_iff.mpr hg
    · rw [if_neg hp] at h
      cases h
  | recover d i w =>
    simp only [quietStep] at h
    split at h
    · rename_i hw
      obtain ⟨x, hx, ht⟩ := Option.map_eq_some_iff.mp h
      exact Or.inr (Or.inr ⟨d, i, w, x, hx, ht.symm, Or.inl hw⟩)
    · cases h
  | spawn d i w =>
    simp only [quietStep] at h
    split at h
    · rename_i hw
      obtain ⟨hw, hmem⟩ := Bool.and_eq_true_iff.mp hw
      obtain ⟨x, hx, ht⟩ := Option.map_eq_some_iff.mp h
      exact Or.inr (Or.inr ⟨d, i, w, x, hx, ht.symm, Or.inr ⟨hw, by simpa using hmem⟩⟩)
    · cases h

/-- In a quiet fleet no Phase A reserves. -/
theorem QuietSite.Quiet.reserves_eq_false (hs : s.Quiet) (a : QuietLabel) :
    reserves s a = false := by
  cases a with
  | phaseA d pick req =>
    by_contra h
    have h' : reserves s (.phaseA d pick req) = true := by simpa using h
    obtain ⟨x, hx, hres⟩ := (Option.any_eq_true _ _).mp h'
    obtain ⟨hp, hg⟩ := Bool.and_eq_true_iff.mp hres
    -- the refusal holds whatever else is starting up
    have hrefused := (hs.deployments x (List.mem_of_getElem? hx)).refuses hp
      (concurrentStartup s.deployments d req.gatewaySessionKey)
    rw [quietGate, hrefused] at hg
    cases hg
  | recover _ _ _ | spawn _ _ _ => rfl

/-- The writes behind the answer are guarded, but for `_mark_failed`, which is terminal. -/
theorem isUnguarded_eq_false {w : RowWrite}
    (hw : isRecoveryWrite w = true ∨ isSpawnWrite w = true) : w.isUnguarded = false := by
  cases w <;> first | rfl | (simp [isRecoveryWrite, isSpawnWrite] at hw)

/-- A row write behind the answer keeps its deployment quiet. -/
theorem quiet_write {d i : ℕ} {w : RowWrite} {x : DeploymentRows} (hs : s.Quiet)
    (hx : s.deployments[d]? = some x)
    (hw : isRecoveryWrite w = true ∨ isSpawnWrite w = true ∧ (d, i) ∈ s.spawns) :
    (x.write i w).Quiet := by
  have hq := hs.deployments x (List.mem_of_getElem? hx)
  refine hq.write (isUnguarded_eq_false (hw.imp id And.left)) fun r hr hf hlatest => ?_
  have hmem := List.mem_of_getElem? hr
  have hclosed := hq.closed hf r hmem hlatest
  simp only [isOpen, Bool.or_eq_false_iff, Bool.not_eq_false'] at hclosed ⊢
  refine ⟨RowWrite.row_isStamped hclosed.1, ?_⟩
  have hcur : isCurrentAttempt x.dep (w.row (x.context r) r) = isCurrentAttempt x.dep r := by
    simp only [isCurrentAttempt, RowWrite.row_startedAt]
  rw [hcur]
  rcases hw with hrec | ⟨_, hspawn⟩
  · rw [row_failureKind_of_terminal hrec (hq.rows_terminal r hmem)]
    exact hclosed.2
  · -- `_mark_failed` may store a transient kind, but not for the current attempt
    rw [hs.spawns (d, i) hspawn x r hx hr hf hlatest, Bool.and_false]

/-- **Step.**  A quiet fleet stays quiet. -/
theorem QuietSite.Quiet.step (hs : s.Quiet) (h : quietStep policy s a = some t) : t.Quiet := by
  rcases quietStep_cases h with ⟨rfl, _⟩ | hres | ⟨d, i, w, x, hx, rfl, hw⟩
  · exact hs
  · rw [hs.reserves_eq_false a] at hres
    cases hres
  · have hq := quiet_write hs hx hw
    have hterm := (hs.deployments x (List.mem_of_getElem? hx)).dep_terminal
    refine ⟨fun y hy => ?_, fun p hp y r' hy hr' hf hlatest => ?_⟩
    · rcases List.mem_or_eq_of_mem_set hy with hold | rfl
      · exact hs.deployments y hold
      · exact hq
    · rcases getElem?_set_cases hy with ⟨rfl, rfl⟩ | ⟨_, hold⟩
      · rw [DeploymentRows.write_dep hterm] at hf ⊢
        obtain ⟨hlater, hrow⟩ := DeploymentRows.write_row hr'
        rw [hlater] at hlatest
        rcases hrow with hr | ⟨r, hi, hr, rfl⟩
        · exact hs.spawns p hp x r' hx hr hf hlatest
        · simp only [hasLaterProcess, isCurrentAttempt, RowWrite.row_startedAt] at hlatest ⊢
          exact hs.spawns p hp x r hx (hi ▸ hr) hf hlatest
      · exact hs.spawns p hp y r' hold hr' hf hlatest

end Step

/-! ### The answer is sound exactly when nothing escapes the counts -/

/-- Among terminal rows the concurrent-startup query finds nothing. -/
theorem concurrentStartup_of_terminal {s : List DeploymentRows}
    (hrows : ∀ x ∈ s, ∀ r ∈ x.rows, r.isActive = false) (d : ℕ) (key : Option String) :
    concurrentStartup s d key = .none := by
  have hmatch : ∀ x ∈ s, x.rows.filter (startupMatches key) = [] := by
    intro x hx
    rw [List.filter_eq_nil_iff]
    intro r hr hm
    have hs : r.status.isStartup = true := (Bool.and_eq_true_iff.mp hm).1
    have ha : r.status.isActive = false := hrows x hx r hr
    cases hst : r.status <;> simp_all [Status.isStartup, Status.isActive]
  have hnil : ((s.zipIdx.filter fun p => p.2 != d).flatMap fun p =>
      p.1.rows.filter (startupMatches key)) = [] := by
    rw [List.flatMap_eq_nil_iff]
    intro p hp
    exact hmatch p.1 (List.fst_mem_of_mem_zipIdx (List.mem_of_mem_filter hp))
  unfold concurrentStartup
  rw [hnil]

/-- With every row terminal, Phase A lets a request through behind an open latest row of a
    failed deployment: a restart attempt if no stop is recorded on it, and else a redelivered
    START. -/
theorem exists_reserves_of_open {s : QuietSite} {d pick : ℕ} {x : DeploymentRows} {r : NodeRow}
    (hrows : ∀ y ∈ s.deployments, ∀ r ∈ y.rows, r.isActive = false)
    (hx : s.deployments[d]? = some x) (hf : x.dep.status = .failed)
    (hr : x.rows[pick]? = some r) (hlatest : hasLaterProcess x.rows r = false)
    (hopen : isOpen x.dep r = true) : ∃ req, reserves s (.phaseA d pick req) = true := by
  have hnone : x.rows.filter (·.isActive) = [] := by
    rw [List.filter_eq_nil_iff]
    intro r' hr'
    simp [hrows x (List.mem_of_getElem? hx) r' hr']
  have hother := concurrentStartup_of_terminal hrows d
  have hpick : ∀ req, x.picks pick req = true := by
    intro req
    simp [DeploymentRows.picks, hr, hlatest]
  by_cases hst : r.isStamped = true
  · have hretry : retryEligible x.dep (some r) = true := by
      simp only [isOpen, hst, Bool.not_true, Bool.false_or, Bool.and_eq_true,
        beq_iff_eq] at hopen
      exact retryEligible_some_iff.mpr ⟨hopen.2, hopen.1⟩
    refine ⟨startRequest 0, ?_⟩
    simp [reserves, hx, hpick, quietGate, rowsGate, hf, hr, hnone, hother, hretry, startRequest]
  · refine ⟨restartRequest 0, ?_⟩
    simp [reserves, hx, hpick, quietGate, rowsGate, hf, hr, hnone, hother, hst, restartRequest]

/-- With every row terminal, a spawn that still holds a latest row of a failed deployment in its
    current attempt may fail transiently, and its START be delivered again. -/
theorem exists_reserves_of_spawn {policy : Option RestartPolicy} {s : QuietSite} {d i : ℕ}
    {x : DeploymentRows} {r : NodeRow}
    (hrows : ∀ y ∈ s.deployments, ∀ r ∈ y.rows, r.isActive = false) (hp : (d, i) ∈ s.spawns)
    (hx : s.deployments[d]? = some x) (hr : x.rows[i]? = some r) (hf : x.dep.status = .failed)
    (hlatest : hasLaterProcess x.rows r = false) (hcur : isCurrentAttempt x.dep r = true) :
    ∃ as t a, Path (quietSystem policy) anyStep s as t ∧ reserves t a = true := by
  let w := RowWrite.markFailed .spawnFailedTransient "payload factory"
  let t : QuietSite := { s with deployments := s.deployments.set d (x.write i w) }
  have hstep : quietStep policy s (.spawn d i w) = some t := by
    have hc : s.spawns.contains (d, i) = true := by simpa using hp
    simp only [quietStep, hc, hx]
    rfl
  have hx' : t.deployments[d]? = some (x.write i w) := by
    have hd := (List.getElem?_eq_some_iff.mp hx).1
    simp [t, hd]
  have hr' : (x.write i w).rows[i]? = some (w.row (x.context r) r) :=
    DeploymentRows.write_getElem?_self hr
  have hrows' : ∀ y ∈ t.deployments, ∀ r ∈ y.rows, r.isActive = false := by
    intro y hy
    rcases List.mem_or_eq_of_mem_set hy with hold | rfl
    · exact hrows y hold
    · exact DeploymentRows.write_rows_terminal (hrows x (List.mem_of_getElem? hx)) rfl
  have hdep : (x.write i w).dep = x.dep :=
    DeploymentRows.write_dep (by rw [hf]; rfl) i w
  have hlatest' : hasLaterProcess (x.write i w).rows (w.row (x.context r) r) = false := by
    rw [(DeploymentRows.write_row hr').1]
    exact hlatest
  have hopen : isOpen (x.write i w).dep (w.row (x.context r) r) = true := by
    have hcur' : isCurrentAttempt x.dep (w.row (x.context r) r) = true := hcur
    have hkind : (w.row (x.context r) r).failureKind
        = some FailureKind.spawnFailedTransient.value := rfl
    rw [hdep, isOpen, hcur', hkind]
    simp
  obtain ⟨req, hres⟩ :=
    exists_reserves_of_open hrows' hx' (by rw [hdep]; exact hf) hr' hlatest' hopen
  have hpath : Path (quietSystem policy) anyStep s [.spawn d i w] t :=
    .cons trivial hstep (.nil t)
  exact ⟨_, t, _, hpath, hres⟩

/-- A crashed deployment an operator has stopped since: the failed row carries the intent. -/
def stoppedCrash : DeploymentRows where
  dep :=
    { status := .failed, accountId := some "DU1", ibLoginKey := none, lastStartedAt := some 1,
      lastStoppedAt := none, notStopping := Status.failed_ne_stopping }
  rows :=
    [{ freshRow (startRequest 2) queuedDb.dep with
        status := .failed
        failureKind := some FailureKind.nodeCrashed.value
        stopRequestedAt := some 7 }]

/-- A node whose heartbeat stalls is swept, and ends cleanly afterwards: its own report
    overwrites the row, and the deployment stays `failed`. -/
def lateCleanReport : List Txn :=
  [.phaseA (startRequest 2) .none, .write 0 (.markRunning 3), .write 0 (.heartbeatSweep 9),
    .write 0 (.markTerminal
      { clean := true, failureKind := .none, errorMessage := none, exitCode := 0 } 10)]

end Msai.Api
