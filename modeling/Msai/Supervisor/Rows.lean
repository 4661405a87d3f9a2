import Mathlib.Data.List.Basic
import Mathlib.Data.List.Pairwise
import Msai.Live.FailureKind

namespace Msai.Supervisor

open Msai.Live

/-!
# The rows of one deployment (`models/live_deployment.py`, `models/live_node_process.py`)

The supervisor, the trading subprocesses and the API share two tables.  `Db` is the part of
them that belongs to one deployment: its `live_deployments` row and its
`live_node_processes` rows, in order of `started_at`.  The primary key of a node row is its
position in this list; rows are never deleted.

* `Status` — the values of both `status` columns;
* `NodeRow`, `Deployment` — the columns some modelled function reads or writes;
* `Db` — carries the order of the rows and the partial unique index
  `uq_live_node_processes_active_deployment` as fields, so that a table the database would
  refuse cannot be built;
* `Db.update`, `Db.insert` — the two shapes of a committed transaction.  `none` is the
  `IntegrityError` of the index.
-/

/-! ### The two tables -/

/-- The values of `live_node_processes.status` and `live_deployments.status`. -/
inductive Status
  | starting
  | building
  | ready
  | running
  | stopping
  | stopped
  | failed
deriving DecidableEq, Repr

namespace Status

/-- `("starting", "building", "ready", "running", "stopping")`: the predicate of the unique
    index and of every active-row query. -/
def isActive : Status → Bool
  | .starting | .building | .ready | .running | .stopping => true
  | .stopped | .failed => false

/-- `("starting", "building", "ready", "running")`: the guard of most terminal writes. -/
def isLive : Status → Bool
  | .starting | .building | .ready | .running => true
  | .stopping | .stopped | .failed => false

/-- `("starting", "building", "ready")`: the start-up statuses of the per-gateway guard. -/
def isStartup : Status → Bool
  | .starting | .building | .ready => true
  | .running | .stopping | .stopped | .failed => false

/-- A live status is active; the two sets differ by `stopping`. -/
theorem isActive_eq (s : Status) : s.isActive = (s.isLive || s == .stopping) := by
  cases s <;> rfl

/-- How far a row has come: live, stopping, terminal. -/
def stage (s : Status) : ℕ :=
  if s.isLive then 0 else if s.isActive then 1 else 2

theorem stage_eq_zero_iff {s : Status} : s.stage = 0 ↔ s.isLive = true := by
  cases s <;> decide

theorem stage_le_two (s : Status) : s.stage ≤ 2 := by
  cases s <;> decide

theorem stage_le_one_of_isActive {s : Status} (h : s.isActive = true) : s.stage ≤ 1 := by
  cases s <;> first | decide | cases h

/-- Whatever is active at a later stage was active before. -/
theorem isActive_of_stage_le {s s' : Status} (h : s.stage ≤ s'.stage) (ha : s'.isActive = true) :
    s.isActive = true := by
  have h1 := stage_le_one_of_isActive ha
  cases s <;> first | rfl | (exact absurd (Nat.le_trans h h1) (by decide))

/-! The statuses the code writes to a deployment row are not `stopping`. -/

theorem starting_ne_stopping : starting ≠ stopping := by decide
theorem running_ne_stopping : running ≠ stopping := by decide
theorem stopped_ne_stopping : stopped ≠ stopping := by decide
theorem failed_ne_stopping : failed ≠ stopping := by decide

end Status

/-- A `live_deployments` row.  No writer ever stores `stopping` in its status column. -/
structure Deployment where
  /-- Logical status of the deployment. -/
  status : Status
  /-- The broker account the deployment trades. -/
  accountId : Option String
  /-- The IB login its gateway uses. -/
  ibLoginKey : Option String
  /-- Set by every operator start. -/
  lastStartedAt : Option ℕ
  /-- Set by an operator stop, cleared when the node reaches `running`. -/
  lastStoppedAt : Option ℕ
  /-- `stopping` is a status of node rows only. -/
  notStopping : status ≠ .stopping
deriving DecidableEq

namespace Deployment

/-- `deployment.status = st`. -/
def setStatus (d : Deployment) (st : Status) (h : st ≠ .stopping) : Deployment :=
  { d with status := st, notStopping := h }

@[simp] theorem setStatus_status (d : Deployment) (st : Status) (h : st ≠ .stopping) :
    (d.setStatus st h).status = st := rfl

/-- The guarded sync of most terminal writes: `stopped` or `failed` over a live status, and
    nothing over a status a concurrent stop or sweep has already made terminal. -/
def syncTerminal (d : Deployment) (clean : Bool) : Deployment :=
  if d.status.isLive then
    if clean then d.setStatus .stopped Status.stopped_ne_stopping
    else d.setStatus .failed Status.failed_ne_stopping
  else d

/-- After the guarded sync the deployment is terminal. -/
theorem syncTerminal_status (d : Deployment) (clean : Bool) :
    (d.syncTerminal clean).status = .stopped ∨ (d.syncTerminal clean).status = .failed := by
  have hns := d.notStopping
  unfold syncTerminal
  cases hd : d.status <;> cases clean <;> simp_all [Status.isLive]

theorem syncTerminal_ibLoginKey (d : Deployment) (clean : Bool) :
    (d.syncTerminal clean).ibLoginKey = d.ibLoginKey := by
  unfold syncTerminal
  split
  · split <;> rfl
  · rfl

/-- The guarded sync leaves a terminal status as it is. -/
theorem syncTerminal_of_not_isLive {d : Deployment} (h : d.status.isLive = false)
    (clean : Bool) : d.syncTerminal clean = d := by
  simp [syncTerminal, h]

end Deployment

/-- A `live_node_processes` row. -/
structure NodeRow where
  /-- OS pid of the child; `NULL` until Phase C or the child's own write. -/
  pid : Option ℕ
  /-- Host name of the supervisor that reserved the row. -/
  host : String
  /-- Reservation time. -/
  startedAt : ℕ
  /-- Last heartbeat. -/
  lastHeartbeatAt : ℕ
  /-- Lifecycle status. -/
  status : Status
  /-- Exit code of the child. -/
  exitCode : Option Int
  /-- Operator-facing failure text. -/
  errorMessage : Option String
  /-- A `FailureKind` value, stored as a string. -/
  failureKind : Option String
  /-- The gateway session the child is bound to. -/
  gatewaySessionKey : String
  /-- The crash-loop brake. -/
  autoRestartPaused : Bool
  /-- Why the brake is on. -/
  autoRestartPauseReason : Option String
  /-- Consecutive respawn failures, carried from row to row. -/
  consecutiveRespawnFailures : ℕ
  /-- Time of the last auto-restart attempt. -/
  lastRestartAt : Option ℕ
  /-- Durable operator-stop intent. -/
  stopRequestedAt : Option ℕ
  /-- The reaper's dispatch sentinel. -/
  restartDispatchedAt : Option ℕ
deriving DecidableEq, Repr

namespace NodeRow

/-- The row occupies the deployment's unique active slot. -/
def isActive (r : NodeRow) : Bool := r.status.isActive

/-- An operator stop has been recorded on the row. -/
def isStamped (r : NodeRow) : Bool := r.stopRequestedAt.isSome

end NodeRow

/-- Rows in order of `started_at`. -/
def Ordered (rows : List NodeRow) : Prop :=
  rows.Pairwise fun r r' => r.startedAt < r'.startedAt

instance (rows : List NodeRow) : Decidable (Ordered rows) :=
  inferInstanceAs (Decidable (rows.Pairwise _))

/-- `uq_live_node_processes_active_deployment`: at most one active row. -/
def UniqueActive (rows : List NodeRow) : Prop :=
  rows.Pairwise fun r r' => ¬(r.isActive = true ∧ r'.isActive = true)

instance (rows : List NodeRow) : Decidable (UniqueActive rows) :=
  inferInstanceAs (Decidable (rows.Pairwise _))

/-- The rows of one deployment in the two tables. -/
structure Db where
  /-- The `live_deployments` row. -/
  dep : Deployment
  /-- The `live_node_processes` rows; a row's primary key is its position. -/
  rows : List NodeRow
  /-- The rows stand in order of `started_at`. -/
  ordered : Ordered rows
  /-- The partial unique index holds. -/
  index : UniqueActive rows
deriving DecidableEq

namespace Db

theorem ordered_nil : Ordered [] := .nil

theorem uniqueActive_nil : UniqueActive [] := .nil

/-- The tables before the first start. -/
def empty (d : Deployment) : Db :=
  { dep := d, rows := [], ordered := ordered_nil, index := uniqueActive_nil }

variable {db db' : Db} {i j : ℕ} {r r' : NodeRow} {f : NodeRow → NodeRow} {d : Deployment}

/-- `ORDER BY started_at DESC LIMIT 1`. -/
def latest (db : Db) : Option NodeRow := db.rows.getLast?

/-- Position of the active row, if there is one. -/
def activeId (db : Db) : Option ℕ := db.rows.findIdx? (·.isActive)

/-- Some row occupies the active slot. -/
def hasActive (db : Db) : Bool := db.rows.any (·.isActive)

/-- A row with a later `started_at` than `r` is active. -/
def newerActive (db : Db) (r : NodeRow) : Bool :=
  db.rows.any fun r' => decide (r.startedAt < r'.startedAt) && r'.isActive

/-- Two active rows are the same row. -/
theorem active_unique (hi : db.rows[i]? = some r) (hj : db.rows[j]? = some r')
    (ha : r.isActive = true) (ha' : r'.isActive = true) : i = j := by
  obtain ⟨hli, rfl⟩ := List.getElem?_eq_some_iff.mp hi
  obtain ⟨hlj, rfl⟩ := List.getElem?_eq_some_iff.mp hj
  have hpair := List.pairwise_iff_getElem.mp db.index
  rcases Nat.lt_trichotomy i j with hlt | heq | hgt
  · exact absurd ⟨ha, ha'⟩ (hpair i j hli hlj hlt)
  · exact heq
  · exact absurd ⟨ha', ha⟩ (hpair j i hlj hli hgt)

theorem hasActive_iff : db.hasActive = true ↔ ∃ (i : ℕ) (r : NodeRow),
    db.rows[i]? = some r ∧ r.isActive = true := by
  simp only [hasActive, List.any_eq_true, List.mem_iff_getElem?]
  constructor
  · rintro ⟨r, ⟨i, hi⟩, ha⟩
    exact ⟨i, r, hi, ha⟩
  · rintro ⟨i, r, hi, ha⟩
    exact ⟨r, ⟨i, hi⟩, ha⟩

theorem activeId_eq_some (h : db.activeId = some i) :
    ∃ r, db.rows[i]? = some r ∧ r.isActive = true := by
  obtain ⟨hi, ha, _⟩ := List.findIdx?_eq_some_iff_getElem.mp h
  exact ⟨_, List.getElem?_eq_getElem hi, ha⟩

theorem activeId_eq_none_iff : db.activeId = none ↔ db.hasActive = false := by
  simp [activeId, hasActive]

theorem latest_eq_getElem? : db.latest = db.rows[db.rows.length - 1]? := List.getLast?_eq_getElem?

/-- No row is newer than itself. -/
theorem newerActive_of_unique (hi : db.rows[i]? = some r) (ha : r.isActive = true) :
    db.newerActive r = false := by
  rw [newerActive, List.any_eq_false]
  intro r' hr' h
  obtain ⟨hlt, ha'⟩ := Bool.and_eq_true_iff.mp h
  obtain ⟨j, hj⟩ := List.mem_iff_getElem?.mp hr'
  obtain rfl := active_unique hi hj ha ha'
  obtain rfl : r = r' := by simpa [hi] using hj
  simp at hlt

/-- Commit a transaction that rewrites row `i` and the deployment row.  `none` when the
    unique index refuses the new table. -/
def update (db : Db) (i : ℕ) (f : NodeRow → NodeRow)
    (hf : ∀ r, (f r).startedAt = r.startedAt) (d : Deployment) : Option Db :=
  if h : UniqueActive (db.rows.modify i f) then
    some
      { dep := d
        rows := db.rows.modify i f
        ordered := by
          refine List.pairwise_iff_getElem.mpr fun a b ha hb hab => ?_
          have hlen := List.length_modify f db.rows i
          have hold := List.pairwise_iff_getElem.mp db.ordered a b
            (hlen ▸ ha) (hlen ▸ hb) hab
          rw [List.getElem_modify, List.getElem_modify]
          split <;> split <;> simpa [hf] using hold
        index := h }
  else none

/-- Commit a transaction that inserts a row and rewrites the deployment row.  `none` when
    the unique index refuses the row. -/
def insert (db : Db) (r : NodeRow) (hr : ∀ r' ∈ db.rows, r'.startedAt < r.startedAt)
    (d : Deployment) : Option Db :=
  if h : UniqueActive (db.rows ++ [r]) then
    some
      { dep := d
        rows := db.rows ++ [r]
        ordered := by
          refine List.pairwise_append.mpr ⟨db.ordered, List.pairwise_singleton _ _, ?_⟩
          intro a ha b hb
          obtain rfl := List.mem_singleton.mp hb
          exact hr a ha
        index := h }
  else none

/-- Inversion of `update`. -/
theorem update_eq_some {hf : ∀ r, (f r).startedAt = r.startedAt}
    (h : db.update i f hf d = some db') : db'.rows = db.rows.modify i f ∧ db'.dep = d := by
  unfold update at h
  split at h
  · obtain rfl := Option.some.inj h
    exact ⟨rfl, rfl⟩
  · cases h

/-- Inversion of `insert`. -/
theorem insert_eq_some {hr : ∀ r' ∈ db.rows, r'.startedAt < r.startedAt}
    (h : db.insert r hr d = some db') : db'.rows = db.rows ++ [r] ∧ db'.dep = d := by
  unfold insert at h
  split at h
  · obtain rfl := Option.some.inj h
    exact ⟨rfl, rfl⟩
  · cases h

/-- A row transformation that activates nothing is never refused by the index. -/
theorem update_isSome (hf : ∀ r, (f r).startedAt = r.startedAt)
    (hact : ∀ r, db.rows[i]? = some r → (f r).isActive = true → r.isActive = true) :
    ∃ db', db.update i f hf d = some db' := by
  have hidx : UniqueActive (db.rows.modify i f) := by
    refine List.pairwise_iff_getElem.mpr fun a b ha hb hab hboth => ?_
    have hlen := List.length_modify f db.rows i
    have hold := List.pairwise_iff_getElem.mp db.index a b (hlen ▸ ha) (hlen ▸ hb) hab
    have hback : ∀ k (hk : k < (db.rows.modify i f).length),
        ((db.rows.modify i f)[k]).isActive = true →
          (db.rows.get ⟨k, hlen ▸ hk⟩).isActive = true := by
      intro k hk h
      rw [List.getElem_modify] at h
      split at h
      · rename_i heq
        subst heq
        exact hact _ (List.getElem?_eq_getElem _) h
      · exact h
    exact hold ⟨hback a ha hboth.1, hback b hb hboth.2⟩
  exact ⟨_, dif_pos hidx⟩

end Db

end Msai.Supervisor
