import Mathlib.Data.List.Dedup
import Mathlib.Data.List.Sort
import Mathlib.Order.WithBot
import Msai.Lib.LockOrder
import Msai.Supervisor.Gateway

namespace Msai.Supervisor

open Lib Lib.TransitionSystem

/-!
# The locks of the supervisor

Every transaction that locks rows of `live_deployments` or `live_node_processes`, as the list of
locks it takes.  What its queries return (which deployments are stale, which row is the latest) is
part of its name, so the list may be any the data allow.  The column `deployment_id` of a node row
is never written after the insert, and the row it names exists (foreign key).

* `Lock` — the advisory lock of a gateway, a deployment row, a node row;
* `lockDeployments`, `lockNodesOf` — the two multi-row statements;
* `RowTransaction`, `locks` — the transactions and their locks;
* `lockOrder` — node rows are guarded by their deployment, deployments are taken by id;
* `no_supervisor_deadlock` — the theorem: no reachable state has a circular wait.
-/

/-- What a transaction can wait for. -/
inductive Lock (Dep Node : Type)
  | advisory (key : ℤ)
  | deployment (id : Dep)
  | node (id : Node)
deriving DecidableEq, Repr

/-- A row id beside the deployment id it was reserved or selected with. -/
structure OwnedRow {Dep Node : Type} (deploymentOf : Node → Dep) where
  deploymentId : Dep
  rowId : Node
  owned : deploymentOf rowId = deploymentId

/-- How `_on_child_exit` and the give-up find the row: by the id of the handle, or by a query on
    the rows of the deployment (`pid` or latest). -/
inductive RowChoice {Dep Node : Type} (deploymentOf : Node → Dep)
  | owned (row : OwnedRow deploymentOf)
  | queried (deploymentId : Dep) (rows : List Node)

/-- The transactions. -/
inductive RowTransaction {Dep Node : Type} (deploymentOf : Node → Dep)
  | phaseAReserveSlot (gatewaySessionKey : Option String) (deployment : Option Dep)
  | stop (deploymentId : Dep) (rows : List Node)
  | markFailed (rowId : Node)
  | terminalizeReservedRow (row : OwnedRow deploymentOf)
  | onChildExit (choice : RowChoice deploymentOf)
  | clearSentinelAndRefailAfterGiveup (choice : RowChoice deploymentOf)
  | refailStrandedRestart (row : OwnedRow deploymentOf)
  | loadRescanCandidates (staleActive : List Dep) (flipped : List Node)
  | watchdogOnce (killed : List Node)
  | reapOwnerlessActiveRow (row : OwnedRow deploymentOf)
  | markStaleAsFailed (candidates : List Dep) (flipped : List Node)
  | markRunning (rowId : Node)
  | markTerminal (rowId : Node)
  | liveStop (deploymentId : Dep) (rows : List Node)
  /-- `_operator_stop_requested`: the latest row of a deployment, if there is one. -/
  | operatorStopRequested (rowId : Option Node)
  /-- A write of one node row by id: the pid record of Phase C, `_self_write_pid`, `_mark_ready`
      and the heartbeat of a child. -/
  | nodeRowWrite (rowId : Node)

section Locks

variable {Dep Node : Type} [LinearOrder Dep] (deploymentOf : Node → Dep)
  (hashtextextended : String → ℤ)

/-- `SELECT ... FROM live_deployments WHERE id IN (ids) ORDER BY id FOR UPDATE`. -/
def lockDeployments (ids : List Dep) : List (Lock Dep Node) :=
  (ids.dedup.mergeSort (· ≤ ·)).map .deployment

/-- The rows a statement `WHERE deployment_id IN (ids)` locks, in the order of its scan. -/
def lockNodesOf (ids : List Dep) (scan : List Node) : List (Lock Dep Node) :=
  (scan.filter fun n => deploymentOf n ∈ ids).map .node

/-- `UPDATE live_deployments WHERE id IN (...)` behind the rows that were flipped. -/
def relockDeploymentsOf (rows : List Node) : List (Lock Dep Node) :=
  rows.map fun n => .deployment (deploymentOf n)

/-- A deployment row, and then rows of it. -/
def deploymentThenNodes (deploymentId : Dep) (rows : List Node) : List (Lock Dep Node) :=
  lockDeployments [deploymentId] ++ lockNodesOf deploymentOf [deploymentId] rows

/-- The candidates in the order of their ids, the rows that are flipped under them, and again the
    deployments of these rows. -/
def sweepLocks (candidates : List Dep) (flipped : List Node) : List (Lock Dep Node) :=
  lockDeployments candidates ++ (lockNodesOf deploymentOf candidates flipped ++
    relockDeploymentsOf deploymentOf (flipped.filter fun n => deploymentOf n ∈ candidates))

variable {deploymentOf}

def RowChoice.locks : RowChoice deploymentOf → List (Lock Dep Node)
  | .owned row => deploymentThenNodes deploymentOf row.deploymentId [row.rowId]
  | .queried deploymentId rows => deploymentThenNodes deploymentOf deploymentId rows

/-- The locks of a transaction, in the order in which it takes them. -/
def RowTransaction.locks : RowTransaction deploymentOf → List (Lock Dep Node)
  | .phaseAReserveSlot gatewaySessionKey deployment =>
    .advisory (hashtextextended (gatewayLockKey gatewaySessionKey)) ::
      deployment.toList.map .deployment
  | .stop deploymentId rows => deploymentThenNodes deploymentOf deploymentId rows
  -- the deployment id is read off the row without a lock
  | .markFailed rowId => deploymentThenNodes deploymentOf (deploymentOf rowId) [rowId]
  | .terminalizeReservedRow row => deploymentThenNodes deploymentOf row.deploymentId [row.rowId]
  | .onChildExit choice => choice.locks
  | .clearSentinelAndRefailAfterGiveup choice => choice.locks
  | .refailStrandedRestart row => deploymentThenNodes deploymentOf row.deploymentId [row.rowId]
  | .loadRescanCandidates staleActive flipped => sweepLocks deploymentOf staleActive flipped
  -- both statements on the deployments come first, and then the rows one by one
  | .watchdogOnce killed =>
    lockDeployments (killed.map deploymentOf) ++
      (relockDeploymentsOf deploymentOf killed ++ killed.map .node)
  | .reapOwnerlessActiveRow row => deploymentThenNodes deploymentOf row.deploymentId [row.rowId]
  | .markStaleAsFailed candidates flipped => sweepLocks deploymentOf candidates flipped
  | .markRunning rowId => deploymentThenNodes deploymentOf (deploymentOf rowId) [rowId]
  | .markTerminal rowId => deploymentThenNodes deploymentOf (deploymentOf rowId) [rowId]
  | .liveStop deploymentId rows => deploymentThenNodes deploymentOf deploymentId rows
  | .operatorStopRequested rowId => rowId.toList.map .node
  | .nodeRowWrite rowId => [.node rowId]

variable (deploymentOf)

/-- The global order: the advisory lock, the deployments by id, and every node row behind its
    deployment. -/
def lockOrder : LockOrder (Lock Dep Node) (WithBot Dep) where
  guardedBy
    | .node n => some (.deployment (deploymentOf n))
    | _ => none
  rank
    | .deployment d => d
    | _ => ⊥

/-! ### Every transaction respects the order -/

variable {deploymentOf} {ids : List Dep} {rows : List Node} {d : Dep}

theorem mem_lockDeployments :
    (.deployment d : Lock Dep Node) ∈ lockDeployments ids ↔ d ∈ ids := by
  simp [lockDeployments]

/-- The deployments are locked in strictly ascending order: no id comes twice. -/
theorem pairwise_sorted_dedup : (ids.dedup.mergeSort (· ≤ ·)).Pairwise (· < ·) := by
  have hsorted := List.pairwise_mergeSort' (· ≤ ·) ids.dedup
  have hnodup : (ids.dedup.mergeSort (· ≤ ·)).Nodup :=
    (List.mergeSort_perm ids.dedup _).nodup_iff.mpr (List.nodup_dedup ids)
  exact hsorted.imp₂ (fun _ _ hle hne => lt_of_le_of_ne hle hne) hnodup

/-- Deployments in order, and behind them what they guard. -/
theorem admitsAll_lockDeployments_append {rest : List (Lock Dep Node)}
    (h : ∀ k ∈ rest, k ∈ lockDeployments ids ∨
      ∃ g ∈ lockDeployments ids, (lockOrder deploymentOf).guardedBy k = some g) :
    (lockOrder deploymentOf).AdmitsAll [] (lockDeployments ids ++ rest) := by
  refine LockOrder.admitsAll_append.mpr ⟨LockOrder.admitsAll_of_ascending ?_ ?_ ?_, ?_⟩
  · intro k hk
    obtain ⟨d, _, rfl⟩ := List.mem_map.mp hk
    rfl
  · exact fun k hk => absurd hk List.not_mem_nil
  · apply List.Pairwise.map _ _ pairwise_sorted_dedup
    intro d d' hlt
    exact WithBot.coe_lt_coe.mpr hlt
  · exact LockOrder.admitsAll_of_guarded h

/-- A row whose deployment is locked. -/
theorem guarded_of_mem {n : Node} (h : deploymentOf n ∈ ids) :
    ∃ g ∈ lockDeployments ids, (lockOrder deploymentOf).guardedBy (.node n) = some g :=
  ⟨.deployment (deploymentOf n), mem_lockDeployments.mpr h, rfl⟩

theorem guarded_of_mem_lockNodesOf {k : Lock Dep Node} (h : k ∈ lockNodesOf deploymentOf ids rows) :
    ∃ g ∈ lockDeployments ids, (lockOrder deploymentOf).guardedBy k = some g := by
  obtain ⟨n, hn, rfl⟩ := List.mem_map.mp h
  exact guarded_of_mem (by simpa using (List.mem_filter.mp hn).2)

/-- The deployments of rows that are flipped are locked already. -/
theorem mem_of_mem_relockDeploymentsOf {k : Lock Dep Node}
    (h : k ∈ relockDeploymentsOf deploymentOf rows) (hrows : ∀ n ∈ rows, deploymentOf n ∈ ids) :
    k ∈ lockDeployments ids := by
  obtain ⟨n, hn, rfl⟩ := List.mem_map.mp h
  exact mem_lockDeployments.mpr (hrows n hn)

theorem admitsAll_deploymentThenNodes :
    (lockOrder deploymentOf).AdmitsAll [] (deploymentThenNodes deploymentOf d rows) :=
  admitsAll_lockDeployments_append fun _ hk => Or.inr (guarded_of_mem_lockNodesOf hk)

theorem admitsAll_sweepLocks :
    (lockOrder deploymentOf).AdmitsAll [] (sweepLocks deploymentOf ids rows) := by
  apply admitsAll_lockDeployments_append
  intro k hk
  rcases List.mem_append.mp hk with hk | hk
  · exact Or.inr (guarded_of_mem_lockNodesOf hk)
  · left
    apply mem_of_mem_relockDeploymentsOf hk
    intro n hn
    simpa using (List.mem_filter.mp hn).2

theorem admitsAll_watchdogLocks : (lockOrder deploymentOf).AdmitsAll []
    (lockDeployments (rows.map deploymentOf) ++
      (relockDeploymentsOf deploymentOf rows ++ rows.map .node)) := by
  apply admitsAll_lockDeployments_append
  have hrows : ∀ n ∈ rows, deploymentOf n ∈ rows.map deploymentOf :=
    fun n hn => List.mem_map_of_mem hn
  intro k hk
  rcases List.mem_append.mp hk with hk | hk
  · exact Or.inl (mem_of_mem_relockDeploymentsOf hk hrows)
  · obtain ⟨n, hn, rfl⟩ := List.mem_map.mp hk
    exact Or.inr (guarded_of_mem (hrows n hn))

theorem admitsAll_phaseA (key : ℤ) (deployment : Option Dep) :
    (lockOrder deploymentOf).AdmitsAll [] (.advisory key :: deployment.toList.map .deployment) := by
  apply LockOrder.admitsAll_of_ascending
  · cases deployment <;> simp [lockOrder]
  · exact fun k hk => absurd hk List.not_mem_nil
  · cases deployment <;> simp [lockOrder, WithBot.bot_lt_coe]

theorem admitsAll_rowChoice (choice : RowChoice deploymentOf) :
    (lockOrder deploymentOf).AdmitsAll [] choice.locks := by
  cases choice with
  | owned row => exact admitsAll_deploymentThenNodes
  | queried deploymentId rows => exact admitsAll_deploymentThenNodes

/-- One transaction: it respects the order, or takes a single node row. -/
theorem RowTransaction.locks_disciplined (transaction : RowTransaction deploymentOf) :
    (lockOrder deploymentOf).Disciplined (transaction.locks hashtextextended) := by
  cases transaction with
  | operatorStopRequested rowId =>
    left
    cases rowId <;> simp [locks]
  | nodeRowWrite rowId => exact Or.inl le_rfl
  | phaseAReserveSlot gatewaySessionKey deployment => exact Or.inr (admitsAll_phaseA _ deployment)
  | onChildExit choice => exact Or.inr (admitsAll_rowChoice choice)
  | clearSentinelAndRefailAfterGiveup choice => exact Or.inr (admitsAll_rowChoice choice)
  | loadRescanCandidates staleActive flipped => exact Or.inr admitsAll_sweepLocks
  | watchdogOnce killed => exact Or.inr admitsAll_watchdogLocks
  | markStaleAsFailed candidates flipped => exact Or.inr admitsAll_sweepLocks
  | stop deploymentId rows => exact Or.inr admitsAll_deploymentThenNodes
  | markFailed rowId => exact Or.inr admitsAll_deploymentThenNodes
  | terminalizeReservedRow row => exact Or.inr admitsAll_deploymentThenNodes
  | refailStrandedRestart row => exact Or.inr admitsAll_deploymentThenNodes
  | reapOwnerlessActiveRow row => exact Or.inr admitsAll_deploymentThenNodes
  | markRunning rowId => exact Or.inr admitsAll_deploymentThenNodes
  | markTerminal rowId => exact Or.inr admitsAll_deploymentThenNodes
  | liveStop deploymentId rows => exact Or.inr admitsAll_deploymentThenNodes

/-- **No supervisor deadlock.**  However many of the transactions run side by side, over whatever
    deployments, no reachable state has a circle in its wait-for graph. -/
theorem no_supervisor_deadlock [DecidableEq Node]
    {as : List (LockLabel (RowTransaction deploymentOf))} {s : List (Transaction (Lock Dep Node))}
    (h : Path (lockSystem (RowTransaction.locks hashtextextended)) anyStep [] as s) :
    NoCircularWait s :=
  noCircularWait_of_disciplined (RowTransaction.locks_disciplined hashtextextended) h

end Locks

/-! ### Two reservations of one gateway -/

/-- The first has the advisory lock, and the second waits for it. -/
def sameGateway : List (LockLabel (RowTransaction (id : ℕ → ℕ))) :=
  [.start (.phaseAReserveSlot none (some 0)), .start (.phaseAReserveSlot none (some 1)),
    .request 0, .grant 0, .request 1]

/-- The theorem at two reservations of one gateway. -/
theorem no_supervisor_deadlock_same_gateway :
    ∃ s, Path (lockSystem (RowTransaction.locks fun _ => 0)) anyStep [] sameGateway s ∧
      WaitsFor s 1 0 ∧ NoCircularWait s := by
  obtain ⟨s, hs, hwaits⟩ :
      ∃ s, (lockSystem (RowTransaction.locks fun _ => 0)).run [] sameGateway = some s ∧
        WaitsFor s 1 0 :=
    ⟨_, rfl, by decide, _, _, _, _, rfl, rfl, rfl, rfl, List.mem_singleton_self _⟩
  have hpath := Path.of_run hs
  exact ⟨s, hpath, hwaits, no_supervisor_deadlock (fun _ => 0) hpath⟩

end Msai.Supervisor
