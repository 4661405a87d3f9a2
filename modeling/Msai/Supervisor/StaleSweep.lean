import Msai.Supervisor.Table

namespace Msai.Supervisor

open Msai.Live Msai.Lib Msai.Lib.TransitionSystem

/-!
# The sweeps that fail stale rows, statement by statement

`HeartbeatMonitor._mark_stale_as_failed` and the stale-active step of the rescan select stale rows
without a lock, lock the deployments of these rows in the order of their ids, update the rows that
are still stale (`RETURNING deployment_id`), and then the deployments of the rows they updated.
Other modules take such a sweep for one guarded write of one row (`RowWrite.heartbeatSweep`,
`RowWrite.rescanFlip`).  Here it runs in as many steps as it has statements and locks, beside any
number of other sweeps and of other transactions.

* `Sweep`, `SweepPhase` — an open sweep and what it has locked and written so far;
* `sweepSystem` — the deployments and the open sweeps;
* `SweepsInv` — the invariant: what a sweep has updated is stale and locked until it commits;
* `commit_eq_write` — on every deployment a commit is the guarded write of one row, or nothing;
* `sweep_commit_sound` — the theorem: the two tables move together.
-/

/-! ### The statements -/

/-- The two sweeps. -/
inductive SweepKind
  | heartbeatMonitor
  | rescan
deriving DecidableEq, Repr

namespace SweepKind

/-- The status and heartbeat part of the predicate. -/
def stale : SweepKind → ℕ → NodeRow → Bool
  | .heartbeatMonitor, cutoff, r => r.isStalePostStartup cutoff
  | .rescan, cutoff, r => r.isStaleLive cutoff

/-- The place of the row: the rescan demands `is_latest`. -/
def placed (kind : SweepKind) (db : Db) (n : ℕ) : Bool :=
  kind == .heartbeatMonitor || decide (n + 1 = db.rows.length)

/-- The whole predicate on row `n` of a deployment. -/
def selects (kind : SweepKind) (cutoff : ℕ) (db : Db) (n : ℕ) (r : NodeRow) : Bool :=
  kind.stale cutoff r && kind.placed db n

/-- The values of the `UPDATE` on a row. -/
def flip : SweepKind → NodeRow → NodeRow
  | .heartbeatMonitor, r =>
    { r with
      status := .failed
      errorMessage := some "heartbeat timeout"
      failureKind := some FailureKind.heartbeatTimeout.value }
  | .rescan, r =>
    { r with
      status := .failed
      errorMessage := some "rescan: stale heartbeat (supervisor was down)"
      failureKind := some FailureKind.heartbeatTimeout.value }

/-- The sweep as a guarded write of one row. -/
def write : SweepKind → ℕ → RowWrite
  | .heartbeatMonitor, cutoff => .heartbeatSweep cutoff
  | .rescan, cutoff => .rescanFlip cutoff

end SweepKind

/-- Where an open sweep stands. -/
inductive SweepPhase
  /-- The deployments it has yet to lock. -/
  | locking (rest : List ℕ)
  /-- The rows the snapshot of its `UPDATE` matched, and it has yet to visit. -/
  | updating (rest : List (ℕ × ℕ))
  /-- The deployments it has set to `failed`. -/
  | synced (failed : List ℕ)
  | ended
deriving DecidableEq, Repr

/-- A sweep transaction: its deployments, those it has locked, and the rows it has updated.  A row
    is named by its deployment and its position. -/
structure Sweep where
  kind : SweepKind
  cutoff : ℕ
  candidates : List ℕ
  phase : SweepPhase
  locked : List ℕ
  flipped : List (ℕ × ℕ)
deriving DecidableEq, Repr

/-- The committed tables, and the open sweeps. -/
structure SweepState where
  dbs : List Db
  sweeps : List Sweep
deriving DecidableEq

/-- The writers of a node row that take no lock of the deployment. -/
def RowWrite.isNodeOnly : RowWrite → Bool
  | .selfWritePid _ _ | .markReady _ | .heartbeat _ | .phaseC _ => true
  | _ => false

/-- The sweeps as whole transactions. -/
def Txn.isSweep : Txn → Bool
  | .write _ (.heartbeatSweep _) | .write _ (.rescanFlip _) => true
  | _ => false

inductive SweepLabel
  /-- The plain `SELECT` of a sweep. -/
  | begin (kind : SweepKind) (cutoff : ℕ)
  /-- It gets the lock of the next deployment. -/
  | lock (i : ℕ)
  /-- Its `UPDATE` takes a snapshot. -/
  | scan (i : ℕ)
  /-- The `UPDATE` comes to a row and evaluates its predicate again. -/
  | visit (i : ℕ) (row : ℕ × ℕ)
  /-- The `UPDATE` of the deployments. -/
  | sync (i : ℕ)
  | commit (i : ℕ)
  | rollback (i : ℕ)
  /-- Another transaction on deployment `d` commits: a heartbeat, Phase A, a stop, ... -/
  | other (d : ℕ) (a : Txn)

/-- The positions of the rows of a deployment the sweep selects. -/
def selectedRows (kind : SweepKind) (cutoff : ℕ) (db : Db) : List ℕ :=
  (List.range db.rows.length).filter fun n => db.rows[n]?.any (kind.selects cutoff db n)

/-- The deployments of the stale rows, each once and in the order of their ids. -/
def candidatesOf (s : SweepState) (kind : SweepKind) (cutoff : ℕ) : List ℕ :=
  (List.range s.dbs.length).filter fun d =>
    s.dbs[d]?.any fun db => !(selectedRows kind cutoff db).isEmpty

/-- The rows `WHERE deployment_id IN (candidates) AND <stale>` matches. -/
def matchedRows (s : SweepState) (w : Sweep) : List (ℕ × ℕ) :=
  w.candidates.flatMap fun d =>
    match s.dbs[d]? with
    | none => []
    | some db => (selectedRows w.kind w.cutoff db).map fun n => (d, n)

/-- Nobody has the row lock of the deployment. -/
def deploymentFree (s : SweepState) (d : ℕ) : Bool := s.sweeps.all fun w => !w.locked.contains d

/-- Nobody has the row lock of the node row. -/
def rowFree (s : SweepState) (row : ℕ × ℕ) : Bool := s.sweeps.all fun w => !w.flipped.contains row

/-- The locks another transaction needs are free. -/
def otherFree (s : SweepState) (d : ℕ) : Txn → Bool
  | .write n w => if w.isNodeOnly then rowFree s (d, n) else deploymentFree s d
  | _ => deploymentFree s d

/-- The deployments of the updated rows whose status is active. -/
def syncedDeployments (s : SweepState) (w : Sweep) : List ℕ :=
  (w.flipped.map Prod.fst).filter fun d => s.dbs[d]?.any (·.dep.status.isActive)

namespace SweepKind

variable {kind : SweepKind} {cutoff : ℕ} {db : Db} {n : ℕ} {r : NodeRow}

theorem flip_startedAt (kind : SweepKind) (r : NodeRow) :
    (kind.flip r).startedAt = r.startedAt := by
  cases kind <;> rfl

theorem flip_status (kind : SweepKind) (r : NodeRow) : (kind.flip r).status = .failed := by
  cases kind <;> rfl

theorem isActive_of_stale (h : kind.stale cutoff r = true) : r.isActive = true := by
  unfold NodeRow.isActive
  cases kind with
  | heartbeatMonitor =>
    simp only [stale, NodeRow.isStalePostStartup, Bool.and_eq_true, Bool.or_eq_true,
      beq_iff_eq] at h
    obtain ⟨(hst | hst) | hst, _⟩ := h <;> rw [hst] <;> rfl
  | rescan =>
    simp only [stale, NodeRow.isStaleLive, Bool.and_eq_true] at h
    rw [Status.isActive_eq, h.1, Bool.true_or]

/-- On a row the sweep selects, the guarded write has the values of the `UPDATE`. -/
theorem write_row (h : kind.selects cutoff db n r = true) :
    (kind.write cutoff).row (db.context n r) r = kind.flip r := by
  obtain ⟨hstale, hplaced⟩ := Bool.and_eq_true_iff.mp h
  cases kind with
  | heartbeatMonitor => exact if_pos hstale
  | rescan =>
    apply if_pos
    rw [Bool.and_eq_true]
    exact ⟨hstale, by simpa [placed, Db.context] using hplaced⟩

theorem write_dep (h : kind.selects cutoff db n r = true) (d : Deployment) :
    (kind.write cutoff).dep (db.context n r) r d = d.syncTerminal false := by
  obtain ⟨hstale, hplaced⟩ := Bool.and_eq_true_iff.mp h
  cases kind with
  | heartbeatMonitor => exact if_pos hstale
  | rescan =>
    apply if_pos
    rw [Bool.and_eq_true]
    exact ⟨hstale, by simpa [placed, Db.context] using hplaced⟩

end SweepKind

/-- A table is its columns. -/
theorem Db.eq_of_columns {db db' : Db} (hdep : db.dep = db'.dep) (hrows : db.rows = db'.rows) :
    db = db' := by
  cases db
  cases db'
  congr

/-! ### The system -/

/-- The row at the commit of a sweep. -/
def Sweep.commitRow (w : Sweep) (d n : ℕ) (r : NodeRow) : NodeRow :=
  if (d, n) ∈ w.flipped then w.kind.flip r else r

theorem Sweep.commitRow_startedAt (w : Sweep) (d n : ℕ) (r : NodeRow) :
    (w.commitRow d n r).startedAt = r.startedAt := by
  unfold Sweep.commitRow
  split
  · exact w.kind.flip_startedAt r
  · rfl

theorem Sweep.commitRow_of_mem {w : Sweep} {d n : ℕ} (h : (d, n) ∈ w.flipped) :
    w.commitRow d n = w.kind.flip := by
  ext1 r
  exact if_pos h

theorem Sweep.commitRow_of_not_mem {w : Sweep} {d n : ℕ} (h : (d, n) ∉ w.flipped) :
    w.commitRow d n = id := by
  ext1 r
  exact if_neg h

/-- A commit activates no row. -/
theorem Sweep.isActive_of_commitRow {w : Sweep} {d n : ℕ} {r : NodeRow}
    (h : (w.commitRow d n r).isActive = true) : r.isActive = true := by
  unfold Sweep.commitRow at h
  split at h
  · rw [NodeRow.isActive, w.kind.flip_status] at h
    cases h
  · exact h

/-- A deployment and its rows at the commit of a sweep. -/
def Sweep.commitDb (w : Sweep) (failed : List ℕ) (d : ℕ) (db : Db) : Db where
  dep := if d ∈ failed then db.dep.setStatus .failed Status.failed_ne_stopping else db.dep
  rows := db.rows.mapIdx (w.commitRow d)
  ordered := by
    refine List.pairwise_iff_getElem.mpr fun a b ha hb hab => ?_
    rw [List.length_mapIdx] at ha hb
    have hold := List.pairwise_iff_getElem.mp db.ordered a b ha hb hab
    simpa only [List.getElem_mapIdx, w.commitRow_startedAt] using hold
  index := by
    refine List.pairwise_iff_getElem.mpr fun a b ha hb hab hboth => ?_
    rw [List.length_mapIdx] at ha hb
    rw [List.getElem_mapIdx, List.getElem_mapIdx] at hboth
    exact List.pairwise_iff_getElem.mp db.index a b ha hb hab
      ⟨Sweep.isActive_of_commitRow hboth.1, Sweep.isActive_of_commitRow hboth.2⟩

/-- Sweep `i` goes on to `w`. -/
def SweepState.setSweep (s : SweepState) (i : ℕ) (w : Sweep) : SweepState :=
  { s with sweeps := s.sweeps.set i w }

/-- Its locks are released. -/
def Sweep.finished (w : Sweep) : Sweep := { w with phase := .ended, locked := [], flipped := [] }

/-- What the `UPDATE` makes of one row: it is updated if it is still stale. -/
def Sweep.visited (w : Sweep) (rest : List (ℕ × ℕ)) (row : ℕ × ℕ) (r : Option NodeRow) : Sweep :=
  { w with
    phase := .updating (rest.erase row)
    flipped := if r.any (w.kind.stale w.cutoff) then w.flipped ++ [row] else w.flipped }

/-- A sweep behind its `SELECT`. -/
def Sweep.opened (s : SweepState) (kind : SweepKind) (cutoff : ℕ) : Sweep :=
  { kind := kind, cutoff := cutoff, candidates := candidatesOf s kind cutoff
    phase := .locking (candidatesOf s kind cutoff), locked := [], flipped := [] }

/-- One step. -/
def sweepStep (policy : Option RestartPolicy) (s : SweepState) : SweepLabel → Option SweepState
  | .begin kind cutoff =>
    some { s with sweeps := s.sweeps ++ [.opened s kind cutoff] }
  | .lock i =>
    s.sweeps[i]?.bind fun w =>
      match w.phase with
      | .locking (d :: rest) =>
        if deploymentFree s d then
          some (s.setSweep i { w with phase := .locking rest, locked := w.locked ++ [d] })
        else none
      | _ => none
  | .scan i =>
    s.sweeps[i]?.bind fun w =>
      match w.phase with
      | .locking [] => some (s.setSweep i { w with phase := .updating (matchedRows s w) })
      | _ => none
  | .visit i row =>
    s.sweeps[i]?.bind fun w =>
      match w.phase with
      | .updating rest =>
        if row ∈ rest ∧ rowFree s row then
          some (s.setSweep i (w.visited rest row (s.dbs[row.1]?.bind (·.rows[row.2]?))))
        else none
      | _ => none
  | .sync i =>
    s.sweeps[i]?.bind fun w =>
      match w.phase with
      | .updating [] => some (s.setSweep i { w with phase := .synced (syncedDeployments s w) })
      | _ => none
  | .commit i =>
    s.sweeps[i]?.bind fun w =>
      match w.phase with
      | .synced failed =>
        some { dbs := s.dbs.mapIdx (w.commitDb failed), sweeps := s.sweeps.set i w.finished }
      | _ => none
  | .rollback i => s.sweeps[i]?.map fun w => s.setSweep i w.finished
  | .other d a =>
    if !a.isSweep && otherFree s d a then
      s.dbs[d]?.bind fun db =>
        (tableStep policy db a).map fun db' => { s with dbs := s.dbs.set d db' }
    else none

/-- The deployments and their sweeps as a transition system. -/
def sweepSystem (policy : Option RestartPolicy) : TransitionSystem SweepState SweepLabel where
  step := sweepStep policy

/-- What a sweep does next, short of its commit. -/
inductive Moves (s : SweepState) (w : Sweep) : Sweep → Prop
  | lock (d : ℕ) (rest : List ℕ) (hphase : w.phase = .locking (d :: rest))
      (hfree : deploymentFree s d = true) :
      Moves s w { w with phase := .locking rest, locked := w.locked ++ [d] }
  | scan (hphase : w.phase = .locking []) :
    Moves s w { w with phase := .updating (matchedRows s w) }
  | visit (rest : List (ℕ × ℕ)) (row : ℕ × ℕ) (hphase : w.phase = .updating rest)
      (hrow : row ∈ rest) (hfree : rowFree s row = true) :
      Moves s w (w.visited rest row (s.dbs[row.1]?.bind (·.rows[row.2]?)))
  | sync (hphase : w.phase = .updating []) :
      Moves s w { w with phase := .synced (syncedDeployments s w) }
  | rollback : Moves s w w.finished

section Step

variable {policy : Option RestartPolicy} {s t : SweepState} {a : SweepLabel} {w w' : Sweep} {i : ℕ}

/-- What one step does: a sweep begins, goes on or commits, or another transaction commits. -/
theorem sweepStep_cases (h : sweepStep policy s a = some t) :
    (∃ kind cutoff, t = { s with sweeps := s.sweeps ++ [.opened s kind cutoff] }) ∨
    (∃ i w w', s.sweeps[i]? = some w ∧ Moves s w w' ∧ t = s.setSweep i w') ∨
    (∃ i w failed, s.sweeps[i]? = some w ∧ w.phase = .synced failed ∧
      t = { dbs := s.dbs.mapIdx (w.commitDb failed), sweeps := s.sweeps.set i w.finished }) ∨
    ∃ d a' db db', otherFree s d a' = true ∧ s.dbs[d]? = some db ∧
      tableStep policy db a' = some db' ∧ t = { s with dbs := s.dbs.set d db' } := by
  cases a with
  | begin kind cutoff => exact Or.inl ⟨kind, cutoff, (Option.some.inj h).symm⟩
  | lock i =>
    obtain ⟨w, hw, h⟩ := Option.bind_eq_some_iff.mp h
    split at h
    · rename_i d rest hphase
      split at h
      · rename_i hfree
        exact Or.inr (Or.inl ⟨i, w, _, hw, .lock d rest hphase hfree, (Option.some.inj h).symm⟩)
      · cases h
    · cases h
  | scan i =>
    obtain ⟨w, hw, h⟩ := Option.bind_eq_some_iff.mp h
    split at h
    · rename_i hphase
      exact Or.inr (Or.inl ⟨i, w, _, hw, .scan hphase, (Option.some.inj h).symm⟩)
    · cases h
  | visit i row =>
    obtain ⟨w, hw, h⟩ := Option.bind_eq_some_iff.mp h
    split at h
    · rename_i rest hphase
      split at h
      · rename_i hrow
        exact Or.inr (Or.inl ⟨i, w, _, hw, .visit rest row hphase hrow.1 hrow.2,
          (Option.some.inj h).symm⟩)
      · cases h
    · cases h
  | sync i =>
    obtain ⟨w, hw, h⟩ := Option.bind_eq_some_iff.mp h
    split at h
    · rename_i hphase
      exact Or.inr (Or.inl ⟨i, w, _, hw, .sync hphase, (Option.some.inj h).symm⟩)
    · cases h
  | commit i =>
    obtain ⟨w, hw, h⟩ := Option.bind_eq_some_iff.mp h
    split at h
    · rename_i failed hphase
      exact Or.inr (Or.inr (Or.inl ⟨i, w, failed, hw, hphase, (Option.some.inj h).symm⟩))
    · cases h
  | rollback i =>
    obtain ⟨w, hw, h⟩ := Option.map_eq_some_iff.mp h
    exact Or.inr (Or.inl ⟨i, w, _, hw, .rollback, h.symm⟩)
  | other d a' =>
    simp only [sweepStep] at h
    split at h
    · rename_i hfree
      obtain ⟨db, hdb, h⟩ := Option.bind_eq_some_iff.mp h
      obtain ⟨db', hstep, rfl⟩ := Option.map_eq_some_iff.mp h
      exact Or.inr (Or.inr (Or.inr ⟨d, a', db, db', (Bool.and_eq_true_iff.mp hfree).2, hdb,
        hstep, rfl⟩))
    · cases h

theorem not_mem_locked_of_free {d : ℕ} (h : deploymentFree s d = true)
    (hw : s.sweeps[i]? = some w) :
    d ∉ w.locked := by
  have hall := List.all_eq_true.mp h w (List.mem_of_getElem? hw)
  simpa using hall

theorem not_mem_flipped_of_free {row : ℕ × ℕ} (h : rowFree s row = true)
    (hw : s.sweeps[i]? = some w) : row ∉ w.flipped := by
  have hall := List.all_eq_true.mp h w (List.mem_of_getElem? hw)
  simpa using hall

/-- A row the sweep selects now. -/
theorem mem_selectedRows {kind : SweepKind} {cutoff n : ℕ} {db : Db} :
    n ∈ selectedRows kind cutoff db ↔
      ∃ r, db.rows[n]? = some r ∧ kind.selects cutoff db n r = true := by
  simp only [selectedRows, List.mem_filter, List.mem_range, Option.any_eq_true]
  constructor
  · exact fun h => h.2
  · rintro ⟨r, hr, hsel⟩
    exact ⟨(List.getElem?_eq_some_iff.mp hr).1, r, hr, hsel⟩

theorem mem_matchedRows {row : ℕ × ℕ} (h : row ∈ matchedRows s w) :
    row.1 ∈ w.candidates ∧ ∃ db r, s.dbs[row.1]? = some db ∧ db.rows[row.2]? = some r ∧
      w.kind.selects w.cutoff db row.2 r = true := by
  obtain ⟨d, hd, h⟩ := List.mem_flatMap.mp h
  split at h
  · cases h
  · rename_i db hdb
    obtain ⟨n, hn, rfl⟩ := List.mem_map.mp h
    obtain ⟨r, hr, hsel⟩ := mem_selectedRows.mp hn
    exact ⟨hd, db, r, hdb, hr, hsel⟩

end Step

/-! ### The invariant -/

/-- What a sweep knows in its phase. -/
def PhaseInv (s : SweepState) (w : Sweep) : Prop :=
  match w.phase with
  | .locking rest => ∀ d ∈ w.candidates, d ∈ w.locked ∨ d ∈ rest
  | .updating rest => ∀ row ∈ rest, row.1 ∈ w.locked ∧
      ∃ db, s.dbs[row.1]? = some db ∧ w.kind.placed db row.2 = true
  | .synced failed => failed = syncedDeployments s w
  | .ended => True

/-- A sweep has the locks of what it has updated, and these rows still meet its predicate. -/
structure SweepInv (s : SweepState) (w : Sweep) : Prop where
  updated : ∀ row ∈ w.flipped, row.1 ∈ w.locked ∧ ∃ db r, s.dbs[row.1]? = some db ∧
    db.rows[row.2]? = some r ∧ w.kind.selects w.cutoff db row.2 r = true
  atPhase : PhaseInv s w

/-- Every sweep keeps its invariant, and no two have a deployment in common. -/
structure SweepsInv (s : SweepState) : Prop where
  each : ∀ {i : ℕ} {w : Sweep}, s.sweeps[i]? = some w → SweepInv s w
  apart : ∀ {i j : ℕ} {w w' : Sweep}, s.sweeps[i]? = some w → s.sweeps[j]? = some w' → i ≠ j →
    ∀ d ∈ w.locked, d ∉ w'.locked

/-- What a sweep has locked is the same in both tables: the deployments it has locked, the number
    of their rows, and the rows it has updated. -/
def Untouched (w : Sweep) (s t : SweepState) : Prop :=
  ∀ d ∈ w.locked, ∀ db, s.dbs[d]? = some db → ∃ db', t.dbs[d]? = some db' ∧ db'.dep = db.dep ∧
    db'.rows.length = db.rows.length ∧ ∀ n, (d, n) ∈ w.flipped → db'.rows[n]? = db.rows[n]?

section Invariant

variable {policy : Option RestartPolicy} {s t : SweepState} {a : SweepLabel} {w w' : Sweep} {i : ℕ}

theorem SweepKind.placed_congr (kind : SweepKind) {db db' : Db} {n : ℕ}
    (h : db'.rows.length = db.rows.length) : kind.placed db' n = kind.placed db n := by
  simp only [SweepKind.placed, h]

theorem untouched_of_dbs_eq (h : t.dbs = s.dbs) : Untouched w s t := by
  intro d _ db hdb
  exact ⟨db, by rw [h, hdb], rfl, rfl, fun _ _ => rfl⟩

theorem SweepInv.failed_eq (h : SweepInv s w) {failed : List ℕ}
    (hphase : w.phase = .synced failed) :
    failed = syncedDeployments s w := by
  have hinv := h.atPhase
  rw [PhaseInv, hphase] at hinv
  exact hinv

/-- **Frame.**  The invariant of a sweep is about what it has locked. -/
theorem SweepInv.transfer (h : SweepInv s w) (hsame : Untouched w s t) : SweepInv t w := by
  have hupdated : ∀ row ∈ w.flipped, row.1 ∈ w.locked ∧ ∃ db r, t.dbs[row.1]? = some db ∧
      db.rows[row.2]? = some r ∧ w.kind.selects w.cutoff db row.2 r = true := by
    intro row hrow
    obtain ⟨hlocked, db, r, hdb, hr, hsel⟩ := h.updated row hrow
    obtain ⟨db', hdb', _, hlength, hrows⟩ := hsame row.1 hlocked db hdb
    refine ⟨hlocked, db', r, hdb', by rw [hrows row.2 hrow, hr], ?_⟩
    -- the predicate looks at the row and at the number of rows
    rwa [SweepKind.selects, w.kind.placed_congr hlength]
  refine ⟨hupdated, ?_⟩
  have hphase := h.atPhase
  unfold PhaseInv at hphase ⊢
  cases hw : w.phase with
  | locking rest => simpa only [hw] using hphase
  | updating rest =>
    simp only [hw] at hphase ⊢
    intro row hrow
    obtain ⟨hlocked, db, hdb, hplaced⟩ := hphase row hrow
    obtain ⟨db', hdb', _, hlength, _⟩ := hsame row.1 hlocked db hdb
    exact ⟨hlocked, db', hdb', by rwa [w.kind.placed_congr hlength]⟩
  | synced failed =>
    simp only [hw] at hphase ⊢
    rw [hphase]
    -- the deployments of the updated rows are locked, so their status is the same
    apply List.filter_congr
    intro d hd
    obtain ⟨row, hrow, rfl⟩ := List.mem_map.mp hd
    obtain ⟨hlocked, db, _, hdb, _, _⟩ := h.updated row hrow
    obtain ⟨db', hdb', hdep, _, _⟩ := hsame row.1 hlocked db hdb
    rw [hdb, hdb', Option.any_some, Option.any_some, hdep]
  | ended => trivial

/-- A sweep that goes on keeps its invariant. -/
theorem SweepInv.moves (h : SweepInv s w) (hmoves : Moves s w w') : SweepInv s w' := by
  have hphase := h.atPhase
  unfold PhaseInv at hphase
  cases hmoves with
  | lock d rest hw _ =>
    simp only [hw] at hphase
    refine ⟨fun row hrow => ?_, fun d' hd' => ?_⟩
    · obtain ⟨hlocked, hrest⟩ := h.updated row hrow
      exact ⟨List.mem_append_left _ hlocked, hrest⟩
    · rcases hphase d' hd' with hd' | hd'
      · exact Or.inl (List.mem_append_left _ hd')
      · rcases List.mem_cons.mp hd' with rfl | hd'
        · exact Or.inl (List.mem_append_right _ List.mem_cons_self)
        · exact Or.inr hd'
  | scan hw =>
    simp only [hw] at hphase
    refine ⟨h.updated, fun row hrow => ?_⟩
    obtain ⟨hcandidate, db, r, hdb, _, hsel⟩ := mem_matchedRows hrow
    refine ⟨?_, db, hdb, (Bool.and_eq_true_iff.mp hsel).2⟩
    -- the scan comes when no lock is missing
    exact (hphase row.1 hcandidate).resolve_right List.not_mem_nil
  | visit rest row hw hrow _ =>
    simp only [hw] at hphase
    refine ⟨fun row' hrow' => ?_, fun row' hrow' => hphase row' (List.mem_of_mem_erase hrow')⟩
    simp only [Sweep.visited] at hrow'
    split at hrow'
    · rename_i hstale
      rcases List.mem_append.mp hrow' with hold | hnew
      · exact h.updated row' hold
      · -- the row that is visited now is still stale, and its place has not changed
        obtain rfl := List.mem_singleton.mp hnew
        obtain ⟨hlocked, db, hdb, hplaced⟩ := hphase row' hrow
        rw [hdb, Option.bind_some, Option.any_eq_true] at hstale
        obtain ⟨r, hr, hstale⟩ := hstale
        exact ⟨hlocked, db, r, hdb, hr, Bool.and_eq_true_iff.mpr ⟨hstale, hplaced⟩⟩
    · exact h.updated row' hrow'
  | sync hw => exact ⟨h.updated, rfl⟩
  | rollback => exact ⟨fun row hrow => absurd hrow List.not_mem_nil, trivial⟩

/-- The locks of a sweep that goes on are its own. -/
theorem SweepsInv.apart_moves (h : SweepsInv s) (hw : s.sweeps[i]? = some w) (hmoves : Moves s w w')
    {j : ℕ} {u : Sweep} (hu : s.sweeps[j]? = some u) (hne : i ≠ j) :
    ∀ d ∈ w'.locked, d ∉ u.locked := by
  have hold := h.apart hw hu hne
  cases hmoves with
  | lock d rest _ hfree =>
    intro d' hd'
    rcases List.mem_append.mp hd' with hd' | hd'
    · exact hold d' hd'
    · obtain rfl := List.mem_singleton.mp hd'
      -- the new lock was free
      exact not_mem_locked_of_free hfree hu
  | scan _ => exact hold
  | visit _ _ _ _ _ => exact hold
  | sync _ => exact hold
  | rollback => exact fun d hd => absurd hd List.not_mem_nil

/-- Sweep `i` takes another place, over tables that the other sweeps find untouched. -/
theorem SweepsInv.set (h : SweepsInv s) (hsweeps : t.sweeps = s.sweeps.set i w')
    (hself : SweepInv t w')
    (hother : ∀ j u, s.sweeps[j]? = some u → i ≠ j →
      Untouched u s t ∧ ∀ d ∈ w'.locked, d ∉ u.locked) : SweepsInv t where
  each := by
    intro j u hu
    rw [hsweeps] at hu
    rcases getElem?_set_cases hu with ⟨rfl, rfl⟩ | ⟨hj, hold⟩
    · exact hself
    · exact (h.each hold).transfer (hother j u hold (Ne.symm hj)).1
  apart := by
    intro j k u u' hu hu' hne
    rw [hsweeps] at hu hu'
    rcases getElem?_set_cases hu with ⟨rfl, rfl⟩ | ⟨hj, hold⟩ <;>
      rcases getElem?_set_cases hu' with ⟨rfl, rfl⟩ | ⟨hk, hold'⟩
    · exact absurd rfl hne
    · exact (hother k u' hold' hne).2
    · exact fun d hd hd' => (hother j u hold (Ne.symm hj)).2 d hd' hd
    · exact h.apart hold hold' hne

/-- A write of a node row alone leaves the deployment and the other rows. -/
theorem write_of_isNodeOnly {db db' : Db} {n : ℕ} {x : RowWrite} (hx : x.isNodeOnly = true)
    (h : db.write n x = some db') : db'.dep = db.dep ∧ db'.rows.length = db.rows.length ∧
      ∀ j ≠ n, db'.rows[j]? = db.rows[j]? := by
  refine ⟨?_, Db.write_length h, fun j hj => Db.write_getElem?_ne h hj⟩
  rcases Db.write_eq_some h with ⟨_, rfl⟩ | ⟨r, _, _, hdep⟩
  · rfl
  · rw [hdep]
    cases x <;> first | rfl | cases hx

/-- Another transaction finds the locks it needs free, so it leaves what a sweep has locked. -/
theorem untouched_of_otherFree {d : ℕ} {a' : Txn} {db db' : Db} (hfree : otherFree s d a' = true)
    (hdb : s.dbs[d]? = some db) (hstep : tableStep policy db a' = some db')
    (hw : s.sweeps[i]? = some w) : Untouched w s { s with dbs := s.dbs.set d db' } := by
  intro d' hlocked db₀ hdb₀
  by_cases hd : d' = d
  · subst hd
    obtain rfl : db = db₀ := Option.some.inj (hdb.symm.trans hdb₀)
    have hlt := (List.getElem?_eq_some_iff.mp hdb).1
    -- the deployment is locked, so the transaction writes a node row alone
    have hnode : ∃ n x, a' = .write n x ∧ x.isNodeOnly = true ∧ rowFree s (d', n) = true := by
      have hbusy : ¬deploymentFree s d' = true := fun h => not_mem_locked_of_free h hw hlocked
      unfold otherFree at hfree
      split at hfree
      · rename_i n x
        split at hfree
        · rename_i hx
          exact ⟨n, x, rfl, hx, hfree⟩
        · exact absurd hfree hbusy
      · exact absurd hfree hbusy
    obtain ⟨n, x, rfl, hx, hrow⟩ := hnode
    obtain ⟨hdep, hlength, hrows⟩ := write_of_isNodeOnly hx hstep
    refine ⟨db', List.getElem?_set_self hlt, hdep, hlength, fun m hm => hrows m ?_⟩
    rintro rfl
    exact not_mem_flipped_of_free hrow hw hm
  · exact ⟨db₀, by rw [List.getElem?_set_ne (Ne.symm hd), hdb₀], rfl, rfl, fun _ _ => rfl⟩

/-- A commit leaves a deployment of which the sweep has updated no row. -/
theorem commitDb_of_not_mem {failed : List ℕ} {d : ℕ} {db : Db}
    (hflipped : ∀ n, (d, n) ∉ w.flipped) (hfailed : d ∉ failed) : w.commitDb failed d db = db := by
  have hrows : db.rows.mapIdx (w.commitRow d) = db.rows := by
    apply List.ext_getElem?
    intro n
    rw [List.getElem?_mapIdx, Sweep.commitRow_of_not_mem (hflipped n), Option.map_id, id]
  unfold Sweep.commitDb
  simp only [hrows, if_neg hfailed]

theorem mem_syncedDeployments {d : ℕ} (h : d ∈ syncedDeployments s w) :
    ∃ n, (d, n) ∈ w.flipped := by
  obtain ⟨row, hrow, rfl⟩ := List.mem_map.mp (List.mem_filter.mp h).1
  exact ⟨row.2, hrow⟩

/-- A commit leaves what another sweep has locked. -/
theorem SweepsInv.untouched_of_commit (h : SweepsInv s) {failed : List ℕ}
    (hw : s.sweeps[i]? = some w) (hphase : w.phase = .synced failed) {j : ℕ} {u : Sweep}
    (hu : s.sweeps[j]? = some u) (hne : i ≠ j) :
    Untouched u s
      { dbs := s.dbs.mapIdx (w.commitDb failed), sweeps := s.sweeps.set i w.finished } := by
  have hfailed := (h.each hw).failed_eq hphase
  intro d hlocked db hdb
  -- the sweep that commits has locked what it writes, and nobody else has
  have hflipped : ∀ n, (d, n) ∉ w.flipped := by
    intro n hn
    exact h.apart hw hu hne d ((h.each hw).updated (d, n) hn).1 hlocked
  have hnot : d ∉ failed := by
    intro hd
    rw [hfailed] at hd
    obtain ⟨n, hn⟩ := mem_syncedDeployments hd
    exact hflipped n hn
  refine ⟨db, ?_, rfl, rfl, fun _ _ => rfl⟩
  rw [List.getElem?_mapIdx, hdb, Option.map_some, commitDb_of_not_mem hflipped hnot]

/-- **Step.** -/
theorem SweepsInv.step (h : SweepsInv s) (hs : sweepStep policy s a = some t) : SweepsInv t := by
  obtain ⟨kind, cutoff, rfl⟩ | ⟨i, w, w', hw, hmoves, rfl⟩ | ⟨i, w, failed, hw, hphase, rfl⟩ |
    ⟨d, a', db, db', hfree, hdb, hstep, rfl⟩ := sweepStep_cases hs
  · constructor
    · intro i w hw
      rcases getElem?_concat_cases hw with ⟨_, rfl⟩ | hw
      · exact ⟨fun row hrow => absurd hrow List.not_mem_nil, fun d hd => Or.inr hd⟩
      · exact (h.each hw).transfer (untouched_of_dbs_eq rfl)
    · intro i j w w' hw hw' hne d hd hd'
      rcases getElem?_concat_cases hw with ⟨_, rfl⟩ | hw
      · exact absurd hd List.not_mem_nil
      · rcases getElem?_concat_cases hw' with ⟨_, rfl⟩ | hw'
        · exact absurd hd' List.not_mem_nil
        · exact h.apart hw hw' hne d hd hd'
  · have hself : SweepInv (s.setSweep i w') w' :=
      ((h.each hw).moves hmoves).transfer (untouched_of_dbs_eq rfl)
    refine h.set (i := i) rfl hself fun j u hu hne => ?_
    exact ⟨untouched_of_dbs_eq rfl, h.apart_moves hw hmoves hu hne⟩
  · have hself : SweepInv { dbs := s.dbs.mapIdx (w.commitDb failed)
                            sweeps := s.sweeps.set i w.finished } w.finished :=
      ⟨fun row hrow => absurd hrow List.not_mem_nil, trivial⟩
    refine h.set (i := i) rfl hself fun j u hu hne => ?_
    exact ⟨h.untouched_of_commit hw hphase hu hne, fun d hd => absurd hd List.not_mem_nil⟩
  · constructor
    · intro i w hw
      exact (h.each hw).transfer (untouched_of_otherFree hfree hdb hstep hw)
    · exact h.apart

/-- **Run.** -/
theorem sweepsInv_of_path {dbs : List Db} {as : List SweepLabel}
    (h : Path (sweepSystem policy) anyStep { dbs := dbs, sweeps := [] } as s) : SweepsInv s := by
  refine h.invariant (fun _ _ _ hI _ hs => hI.step hs) ⟨?_, ?_⟩
  · intro i w hw
    cases hw
  · intro i j w w' hw
    cases hw

end Invariant

/-! ### The commit of a sweep -/

section Commit

variable {policy : Option RestartPolicy} {s t : SweepState} {w : Sweep} {i : ℕ}

/-- `STOPPING` is a status of node rows only, so the two notions of activity agree. -/
theorem Deployment.isLive_eq_isActive (dep : Deployment) :
    dep.status.isLive = dep.status.isActive := by
  have hstopping : (dep.status == .stopping) = false := beq_eq_false_iff_ne.mpr dep.notStopping
  rw [Status.isActive_eq, hstopping, Bool.or_false]

/-- An updated row still meets the predicate of its sweep. -/
theorem SweepInv.selected (h : SweepInv s w) {d n : ℕ} {db : Db} (hdb : s.dbs[d]? = some db)
    (hn : (d, n) ∈ w.flipped) :
    ∃ r, db.rows[n]? = some r ∧ w.kind.selects w.cutoff db n r = true := by
  obtain ⟨_, db₀, r, hdb₀, hr, hsel⟩ := h.updated (d, n) hn
  obtain rfl : db = db₀ := Option.some.inj (hdb.symm.trans hdb₀)
  exact ⟨r, hr, hsel⟩

/-- A sweep updates at most one row of a deployment: both would be active, and the index makes them
    one. -/
theorem SweepInv.flipped_unique (h : SweepInv s w) {d m n : ℕ} {db : Db}
    (hdb : s.dbs[d]? = some db) (hm : (d, m) ∈ w.flipped) (hn : (d, n) ∈ w.flipped) : m = n := by
  obtain ⟨r', hr', hsel'⟩ := h.selected hdb hm
  obtain ⟨r, hr, hsel⟩ := h.selected hdb hn
  have hstale' := (Bool.and_eq_true_iff.mp hsel').1
  have hstale := (Bool.and_eq_true_iff.mp hsel).1
  exact Db.active_unique hr' hr (SweepKind.isActive_of_stale hstale')
    (SweepKind.isActive_of_stale hstale)

/-- The deployment of an updated row is failed with it exactly when it is live. -/
theorem mem_syncedDeployments_iff {d n : ℕ} {db : Db} (hdb : s.dbs[d]? = some db)
    (hn : (d, n) ∈ w.flipped) : d ∈ syncedDeployments s w ↔ db.dep.status.isLive = true := by
  rw [syncedDeployments, List.mem_filter, hdb, Option.any_some, ← Deployment.isLive_eq_isActive]
  exact and_iff_right (List.mem_map.mpr ⟨(d, n), hn, rfl⟩)

/-- **Refinement.**  On a deployment of which the sweep has updated a row, its commit is the guarded
    write of that row; every other deployment is as before. -/
theorem commit_eq_write (h : SweepsInv s) {failed : List ℕ} (hw : s.sweeps[i]? = some w)
    (hphase : w.phase = .synced failed) {d : ℕ} {db : Db} (hdb : s.dbs[d]? = some db) :
    w.commitDb failed d db = db ∨ ∃ n r, (d, n) ∈ w.flipped ∧ db.rows[n]? = some r ∧
      w.kind.selects w.cutoff db n r = true ∧
      db.write n (w.kind.write w.cutoff) = some (w.commitDb failed d db) := by
  have hinv := h.each hw
  have hfailed := hinv.failed_eq hphase
  by_cases hflipped : ∃ n, (d, n) ∈ w.flipped
  · right
    obtain ⟨n, hn⟩ := hflipped
    obtain ⟨r, hr, hsel⟩ := hinv.selected hdb hn
    refine ⟨n, r, hn, hr, hsel, ?_⟩
    obtain ⟨db', hwrite⟩ : ∃ db', db.write n (w.kind.write w.cutoff) = some db' :=
      Db.write_isSome (by cases w.kind <;> rfl)
    rw [hwrite, Option.some_inj]
    have hrows : db'.rows = (w.commitDb failed d db).rows := by
      apply List.ext_getElem?
      intro m
      rw [Sweep.commitDb, List.getElem?_mapIdx]
      by_cases hm : m = n
      · subst hm
        rw [Db.write_getElem?_self hwrite hr, hr, SweepKind.write_row hsel,
          Sweep.commitRow_of_mem hn, Option.map_some]
      · have hnot : (d, m) ∉ w.flipped := fun h => hm (hinv.flipped_unique hdb h hn)
        rw [Db.write_getElem?_ne hwrite hm, Sweep.commitRow_of_not_mem hnot, Option.map_id, id]
    have hdep : db'.dep = (w.commitDb failed d db).dep := by
      rw [Db.write_dep hwrite hr, SweepKind.write_dep hsel, Sweep.commitDb, hfailed]
      simp only [Deployment.syncTerminal, mem_syncedDeployments_iff hdb hn]
      rfl
    exact Db.eq_of_columns hdep hrows
  · left
    rw [not_exists] at hflipped
    apply commitDb_of_not_mem hflipped
    intro hd
    rw [hfailed] at hd
    obtain ⟨n, hn⟩ := mem_syncedDeployments hd
    exact hflipped n hn

/-- The two tables move together when a sweep commits.  It fails the deployment only with an active
    row of it that still meets the predicate; with a row it fails an active deployment; and neither
    an active row stays under a deployment it has failed nor an active deployment over a row it has
    failed. -/
structure MovedTogether (w : Sweep) (db db' : Db) : Prop where
  deployment : db'.dep ≠ db.dep → db'.dep.status = .failed ∧ ∃ n r, db.rows[n]? = some r ∧
    r.isActive = true ∧ w.kind.selects w.cutoff db n r = true ∧
    db'.rows[n]? = some (w.kind.flip r)
  row : ∀ n r, db.rows[n]? = some r → db'.rows[n]? ≠ some r →
    w.kind.selects w.cutoff db n r = true ∧ db'.rows[n]? = some (w.kind.flip r) ∧
      (db.dep.status.isActive = true → db'.dep.status = .failed) ∧
      (db.dep.status.isActive = false → db'.dep = db.dep)
  noActiveRow : db'.dep ≠ db.dep → ∀ r ∈ db'.rows, r.isActive = false
  noActiveDeployment : db'.rows ≠ db.rows → db'.dep.status.isActive = false

theorem MovedTogether.refl (w : Sweep) (db : Db) : MovedTogether w db db where
  deployment h := absurd rfl h
  row _ _ hr h := absurd hr h
  noActiveRow h := absurd rfl h
  noActiveDeployment h := absurd rfl h

/-- The guarded write of one row moves both tables. -/
theorem movedTogether_of_write {db db' : Db} {n : ℕ} {r : NodeRow} (hr : db.rows[n]? = some r)
    (hsel : w.kind.selects w.cutoff db n r = true)
    (hwrite : db.write n (w.kind.write w.cutoff) = some db') : MovedTogether w db db' := by
  have hactive := SweepKind.isActive_of_stale (Bool.and_eq_true_iff.mp hsel).1
  have hself : db'.rows[n]? = some (w.kind.flip r) := by
    rw [Db.write_getElem?_self hwrite hr, SweepKind.write_row hsel]
  have hdep : db'.dep = db.dep.syncTerminal false := by
    rw [Db.write_dep hwrite hr, SweepKind.write_dep hsel]
  have hterminal : db'.dep.status.isActive = false := by
    rw [hdep]
    rcases db.dep.syncTerminal_status false with h | h <;> rw [h] <;> rfl
  have hlive := db.dep.isLive_eq_isActive
  have hfailed : db.dep.status.isActive = true → db'.dep.status = .failed := by
    intro h
    rw [hdep, Deployment.syncTerminal, if_pos (hlive.trans h)]
    rfl
  have hkept : db.dep.status.isActive = false → db'.dep = db.dep := by
    intro h
    rw [hdep, Deployment.syncTerminal_of_not_isLive (hlive.trans h)]
  have hwas : db'.dep ≠ db.dep → db.dep.status.isActive = true := by
    intro hne
    by_contra h
    exact hne (hkept (by simpa using h))
  refine ⟨fun hne => ⟨hfailed (hwas hne), n, r, hr, hactive, hsel, hself⟩, ?_, ?_,
    fun _ => hterminal⟩
  · intro m r' hr' hne
    have hm : m = n := by
      by_contra hm
      exact hne (by rw [Db.write_getElem?_ne hwrite hm, hr'])
    subst hm
    obtain rfl : r = r' := Option.some.inj (hr.symm.trans hr')
    exact ⟨hsel, hself, hfailed, hkept⟩
  · intro _ r' hr'
    obtain ⟨m, hm⟩ := List.mem_iff_getElem?.mp hr'
    by_cases hmn : m = n
    · subst hmn
      obtain rfl : w.kind.flip r = r' := Option.some.inj (hself.symm.trans hm)
      rw [NodeRow.isActive, w.kind.flip_status]
      rfl
    · -- the one active row of the deployment was row `n`
      rw [Db.write_getElem?_ne hwrite hmn] at hm
      by_contra hact
      exact hmn (Db.active_unique hm hr (by simpa using hact) hactive)

/-- **No skew.**  In every run of heartbeats, sweeps, reservations and other transactions, the
    commit of a sweep moves the node rows and the deployments together. -/
theorem sweep_commit_sound {dbs : List Db} {as : List SweepLabel}
    (h : Path (sweepSystem policy) anyStep { dbs := dbs, sweeps := [] } as s)
    (hw : s.sweeps[i]? = some w) (hs : sweepStep policy s (.commit i) = some t) :
    ∀ (d : ℕ) (db : Db), s.dbs[d]? = some db →
      ∃ db', t.dbs[d]? = some db' ∧ MovedTogether w db db' := by
  have hinv := sweepsInv_of_path h
  obtain ⟨w', hw', hs⟩ := Option.bind_eq_some_iff.mp hs
  obtain rfl : w = w' := Option.some.inj (hw.symm.trans hw')
  split at hs
  · rename_i failed hphase
    obtain rfl := Option.some.inj hs
    intro d db hdb
    refine ⟨w.commitDb failed d db, by rw [List.getElem?_mapIdx, hdb, Option.map_some], ?_⟩
    rcases commit_eq_write hinv hw hphase hdb with hsame | ⟨n, r, _, hr, hsel, hwrite⟩
    · rw [hsame]
      exact .refl w db
    · exact movedTogether_of_write hr hsel hwrite
  · cases hs

end Commit

/-! ### A heartbeat behind the snapshot -/

/-- Two deployments are stale when a sweep begins, and the child of the second writes a heartbeat
    before the `UPDATE` comes to its row. -/
def lateHeartbeat : List SweepLabel :=
  [.other 0 (.phaseA (startRequest 1) .none), .other 1 (.phaseA (startRequest 1) .none),
    .other 0 (.write 0 (.markReady 2)), .other 1 (.write 0 (.markReady 2)),
    .begin .heartbeatMonitor 10, .lock 0, .lock 0, .scan 0,
    .other 1 (.write 0 (.heartbeat 11)), .visit 0 (1, 0), .visit 0 (0, 0), .sync 0]

/-- The statuses of the two deployments, each with that of its first row. -/
def statusesOf (s : SweepState) : List (Status × Option Status) :=
  s.dbs.map fun db => (db.dep.status, (db.rows[0]?).map (·.status))

/-- The theorem at a heartbeat that comes late: the sweep fails the first deployment with its row,
    and leaves the second one with its own. -/
theorem sweep_commit_sound_late_heartbeat :
    ∃ s t w, Path (sweepSystem none) anyStep ⟨[queuedDb, queuedDb], []⟩ lateHeartbeat s ∧
      sweepStep none s (.commit 0) = some t ∧
      statusesOf t = [(.failed, some .failed), (.starting, some .ready)] ∧
      ∀ (d : ℕ) (db : Db), s.dbs[d]? = some db →
        ∃ db', t.dbs[d]? = some db' ∧ MovedTogether w db db' := by
  obtain ⟨s, hs, w, hw, t, ht, hstatuses⟩ :
      ∃ s, (sweepSystem none).run ⟨[queuedDb, queuedDb], []⟩ lateHeartbeat = some s ∧
        ∃ w, s.sweeps[0]? = some w ∧ ∃ t, sweepStep none s (.commit 0) = some t ∧
          statusesOf t = [(.failed, some .failed), (.starting, some .ready)] :=
    ⟨_, rfl, _, rfl, _, rfl, rfl⟩
  have hpath := Path.of_run hs
  exact ⟨s, t, w, hpath, ht, hstatuses, sweep_commit_sound hpath hw ht⟩

end Msai.Supervisor
