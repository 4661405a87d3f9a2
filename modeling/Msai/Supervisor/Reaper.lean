import Msai.Lib.OnceBetween
import Msai.Supervisor.Table

namespace Msai.Supervisor

open Msai.Live Msai.Lib Msai.Lib.TransitionSystem

/-!
# The reaper and its restart tasks

One supervisor with any number of deployments: `node_handle_cache`, the processes, reap passes that
walk a snapshot of the cache, and at most one restart task for a deployment.  A node row is named
by the deployment in its `deployment_id` column and its position among the rows of this deployment.
The exit of a child is handled long after it happened, when its deployment may have a newer row; the
reaper then acts on the row of the handle.

* `ReaperState`, `reaperSystem` — the state and its steps;
* `exitTarget`, `onChildExit`, `scheduleRestartTask`, `giveUp` — the functions of the source;
* `OnlyRow` — the frame: one node row and its deployment change;
* `ReaperInv` — the invariant: handles are bound to rows of their deployment, and a row without
  sentinel has had no task since its sentinel was last cleared;
* `reaper_acts_by_ownership` — the theorem.
-/

/-! ### The supervisor -/

/-- A node row: its deployment, and its position among the rows of the deployment. -/
abbrev RowName := ℕ × ℕ

/-- A child process object. -/
structure ChildProcess where
  pid : Option ℕ
  alive : Bool
  exitCode : Option Int
deriving DecidableEq, Repr

/-- `_CachedNode`; the process is named by its place in the list of processes. -/
structure CachedNode where
  proc : ℕ
  ownedRowId : Option RowName
deriving DecidableEq, Repr

/-- A restart task in flight, with the row the reaper stamped. -/
structure RestartTask where
  ownedRowId : Option RowName
deriving DecidableEq, Repr

/-- A deployment: its rows, its entry of `node_handle_cache` and its entry of `_restart_tasks`. -/
structure ReaperSlot where
  db : Db
  cached : Option CachedNode
  task : Option RestartTask
deriving DecidableEq

/-- What happens to the dispatch sentinel of a row: a restart task is scheduled for it, or the
    give-up of a task clears it. -/
inductive DispatchEvent
  | dispatched (row : RowName)
  | cleared (row : RowName)
deriving DecidableEq, Repr

/-- A pass holds the entries of the cache it has yet to look at. -/
structure ReaperState where
  slots : List ReaperSlot
  procs : List ChildProcess
  passes : List (List (ℕ × CachedNode))
  log : List DispatchEvent
deriving DecidableEq

/-- A supervisor that has just come up on the tables. -/
def ReaperState.initial (dbs : List Db) : ReaperState :=
  { slots := dbs.map fun db => { db := db, cached := none, task := none }
    procs := [], passes := [], log := [] }

/-- The rows of a deployment. -/
def dbAt (slots : List ReaperSlot) (d : ℕ) : Option Db := slots[d]?.map (·.db)

def rowAt (slots : List ReaperSlot) (row : RowName) : Option NodeRow :=
  (dbAt slots row.1).bind fun db => db.rows[row.2]?

def deploymentAt (slots : List ReaperSlot) (d : ℕ) : Option Deployment := (dbAt slots d).map (·.dep)

/-! ### The transactions -/

/-- The position of the last row. -/
def latestRow (slots : List ReaperSlot) (d : ℕ) : Option RowName :=
  (dbAt slots d).bind fun db => if db.rows = [] then none else some (d, db.rows.length - 1)

/-- The rows of a deployment with a pid. -/
def rowsWithPid (slots : List ReaperSlot) (d pid : ℕ) : List RowName :=
  match dbAt slots d with
  | none => []
  | some db =>
    ((List.range db.rows.length).filter fun n => db.rows[n]?.any (·.pid == some pid)).map
      fun n => (d, n)

/-- The row `_on_child_exit` classifies: the owned row, else the row with the pid of the process,
    else the latest one.  `none` when `scalar_one_or_none` raises. -/
def exitTarget (slots : List ReaperSlot) (d : ℕ) (ownedRowId : Option RowName)
    (procPid : Option ℕ) : Option (Option RowName) :=
  match ownedRowId, procPid with
  | some row, _ => some (if (rowAt slots row).isSome then some row else none)
  | none, some pid =>
    match rowsWithPid slots d pid with
    | [] => some none
    | [row] => some (some row)
    | _ => none
  | none, none => some (latestRow slots d)

/-- What a transaction reads about the other rows of deployment `d`. -/
def contextIn (slots : List ReaperSlot) (d : ℕ) (db : Db) (n : ℕ) (r : NodeRow) : RowContext :=
  { isLatest := decide (n + 1 = db.rows.length)
    newerActive := (dbAt slots d).any (·.newerActive r) }

/-- A transaction that has locked deployment `d` writes a node row, and then the deployment. -/
def writeRow (slots : List ReaperSlot) (d : ℕ) (row : RowName) (w : RowWrite) :
    Option (List ReaperSlot) :=
  slots[row.1]?.bind fun sl => sl.db.rows[row.2]?.bind fun r =>
    let ctx := contextIn slots d sl.db row.2 r
    (sl.db.update row.2 (w.row ctx) (w.row_startedAt ctx) sl.db.dep).map fun db =>
      (slots.set row.1 { sl with db := db }).modify d fun x =>
        { x with db := x.db.setDep (w.dep ctx r x.db.dep) }

/-- `_schedule_restart_task`: a task in flight for the deployment is not duplicated. -/
def scheduleRestartTask (s : ReaperState) (d : ℕ) (row : RowName) : ReaperState :=
  if s.slots[d]?.any (·.task.isSome) then s
  else
    { s with
      slots := s.slots.modify d fun sl => { sl with task := some { ownedRowId := some row } }
      log := s.log ++ [.dispatched row] }

/-- `_on_child_exit`: the row is classified and written, and a restart is dispatched if the
    transaction has stamped the row. -/
def onChildExit (hasPolicy : Bool) (s : ReaperState) (d : ℕ) (cached : CachedNode)
    (proc : ChildProcess) (now : ℕ) : Option ReaperState :=
  (exitTarget s.slots d cached.ownedRowId proc.pid).bind fun target =>
    match target with
    | none => some s
    | some row =>
      (rowAt s.slots row).bind fun r =>
        (writeRow s.slots d row (.onChildExit proc.exitCode hasPolicy now)).map fun slots =>
          if (r.exitTerminal proc.exitCode).dispatchesRestart proc.exitCode hasPolicy then
            scheduleRestartTask { s with slots := slots } d row
          else { s with slots := slots }

/-- `_clear_sentinel_and_refail_after_giveup`; without a row only the deployment is failed. -/
def giveUp (s : ReaperState) (d : ℕ) (ownedRowId : Option RowName) : Option ReaperState :=
  match (ownedRowId.or (latestRow s.slots d)).filter fun row => (rowAt s.slots row).isSome with
  | none =>
    some { s with
      slots := s.slots.modify d fun sl =>
        { sl with db := sl.db.setDep (sl.db.dep.syncTerminal false) } }
  | some row =>
    (writeRow s.slots d row .clearSentinelAndRefailAfterGiveup).map fun slots =>
      { s with slots := slots, log := s.log ++ [.cleared row] }

/-! ### The system -/

/-- The exit handling and the give-up as whole transactions. -/
def Txn.isReaperWrite : Txn → Bool
  | .write _ (.onChildExit _ _ _) | .write _ .clearSentinelAndRefailAfterGiveup => true
  | _ => false

/-- What happens next. -/
inductive ReaperLabel
  /-- A spawn has started a process and installs its handle; on the legacy path it has no row. -/
  | start (d : ℕ) (rowId : Option ℕ) (pid : Option ℕ)
  | exit (p : ℕ) (code : Option Int)
  /-- `reap_once` takes its snapshot of the cache. -/
  | beginPass
  /-- A pass comes to its next handle. -/
  | reapNext (k now : ℕ)
  /-- The exit handling raises: the pass is over, and the handle stays. -/
  | reapFails (k : ℕ)
  /-- A restart task ends: restarted, suppressed or cancelled, or its give-up has failed. -/
  | taskEnds (d : ℕ)
  | giveUp (d : ℕ)
  /-- Any other transaction: the Phase A of a task's attempt or of the rescan's, the flip of the
      rescan, a child, a stop, ... -/
  | other (d : ℕ) (a : Txn)

/-- `list(self.node_handle_cache.items())`. -/
def cacheItems (slots : List ReaperSlot) : List (ℕ × CachedNode) :=
  slots.zipIdx.filterMap fun p => p.1.cached.map fun c => (p.2, c)

/-- `if self.node_handle_cache.get(deployment_id) is cached: del ...`. -/
def evict (slots : List ReaperSlot) (d : ℕ) (c : CachedNode) : List ReaperSlot :=
  slots.modify d fun sl => if sl.cached = some c then { sl with cached := none } else sl

/-- One step. -/
def reaperStep (policy : Option RestartPolicy) (s : ReaperState) :
    ReaperLabel → Option ReaperState
  | .start d rowId pid =>
    if rowId.all fun n => (rowAt s.slots (d, n)).isSome then
      some { s with
        slots := s.slots.modify d fun sl =>
          { sl with
            cached := some { proc := s.procs.length, ownedRowId := rowId.map fun n => (d, n) } }
        procs := s.procs ++ [{ pid := pid, alive := true, exitCode := none }] }
    else none
  | .exit p code =>
    some { s with
      procs := s.procs.modify p fun proc => { proc with alive := false, exitCode := code } }
  | .beginPass => some { s with passes := s.passes ++ [cacheItems s.slots] }
  | .reapNext k now =>
    match s.passes[k]? with
    | some ((d, c) :: rest) =>
      s.procs[c.proc]?.bind fun proc =>
        if proc.alive then some { s with passes := s.passes.set k rest }
        else
          (onChildExit policy.isSome s d c proc now).map fun t =>
            { t with slots := evict t.slots d c, passes := t.passes.set k rest }
    | _ => none
  | .reapFails k => some { s with passes := s.passes.set k [] }
  | .taskEnds d => some { s with slots := s.slots.modify d fun sl => { sl with task := none } }
  | .giveUp d =>
    (s.slots[d]?.bind (·.task)).bind fun task =>
      (giveUp s d task.ownedRowId).map fun t =>
        { t with slots := t.slots.modify d fun sl => { sl with task := none } }
  | .other d a =>
    if a.isReaperWrite then none
    else s.slots[d]?.bind fun sl =>
      (tableStep policy sl.db a).map fun db =>
        { s with slots := s.slots.set d { sl with db := db } }

/-- The supervisor as a transition system. -/
def reaperSystem (policy : Option RestartPolicy) : TransitionSystem ReaperState ReaperLabel where
  step := reaperStep policy

/-! ### Frames -/

/-- One node row and its deployment change, and nothing else. -/
structure OnlyRow (row : RowName) (slots slots' : List ReaperSlot) : Prop where
  rows : ∀ row' ≠ row, rowAt slots' row' = rowAt slots row'
  deployments : ∀ d ≠ row.1, deploymentAt slots' d = deploymentAt slots d

/-- A stamped row stays stamped. -/
def KeepsSentinels (slots slots' : List ReaperSlot) : Prop :=
  ∀ row r, rowAt slots row = some r → r.restartDispatchedAt.isSome = true →
    ∃ r', rowAt slots' row = some r' ∧ r'.restartDispatchedAt.isSome = true

/-- The handle of a deployment. -/
def cachedAt (slots : List ReaperSlot) (d : ℕ) : Option CachedNode := slots[d]?.bind (·.cached)

section Frames

variable {slots slots' : List ReaperSlot} {row : RowName} {d : ℕ}

theorem rowAt_congr (h : ∀ d, dbAt slots' d = dbAt slots d) :
    rowAt slots' row = rowAt slots row := by
  rw [rowAt, rowAt, h]

theorem deploymentAt_congr (h : dbAt slots' d = dbAt slots d) :
    deploymentAt slots' d = deploymentAt slots d := by
  rw [deploymentAt, deploymentAt, h]

theorem OnlyRow.of_dbs_eq (h : ∀ d, dbAt slots' d = dbAt slots d) : OnlyRow row slots slots' :=
  ⟨fun _ _ => rowAt_congr h, fun d _ => deploymentAt_congr (h d)⟩

theorem OnlyRow.trans {slots'' : List ReaperSlot} (h : OnlyRow row slots slots')
    (h' : OnlyRow row slots' slots'') : OnlyRow row slots slots'' where
  rows row' hne := (h'.rows row' hne).trans (h.rows row' hne)
  deployments d hne := (h'.deployments d hne).trans (h.deployments d hne)

theorem KeepsSentinels.of_rows_eq (h : ∀ row, rowAt slots' row = rowAt slots row) :
    KeepsSentinels slots slots' := by
  intro row r hr hsome
  exact ⟨r, by rw [h, hr], hsome⟩

/-- A change of one slot that keeps its rows. -/
theorem dbAt_modify (f : ReaperSlot → ReaperSlot) (hf : ∀ sl, (f sl).db = sl.db) (d d' : ℕ) :
    dbAt (slots.modify d f) d' = dbAt slots d' := by
  rw [dbAt, dbAt, List.getElem?_modify]
  split
  · cases slots[d']? <;> simp [hf]
  · simp

theorem dbAt_set {sl : ReaperSlot} (sl' : ReaperSlot) (hsl : slots[d]? = some sl) (d' : ℕ) :
    dbAt (slots.set d sl') d' = if d' = d then some sl'.db else dbAt slots d' := by
  have hlt := (List.getElem?_eq_some_iff.mp hsl).1
  rw [dbAt, dbAt]
  split
  · rename_i heq
    rw [heq, List.getElem?_set_self hlt, Option.map_some]
  · rename_i hne
    rw [List.getElem?_set_ne (Ne.symm hne)]

theorem dbAt_modify_setDep (f : ReaperSlot → Deployment) (d d' : ℕ) :
    dbAt (slots.modify d fun x => { x with db := x.db.setDep (f x) }) d' =
      if d' = d then slots[d']?.map fun x => x.db.setDep (f x) else dbAt slots d' := by
  rw [dbAt, dbAt, List.getElem?_modify]
  by_cases hd : d' = d
  · subst hd
    cases slots[d']? <;> simp
  · simp [hd, Ne.symm hd]

/-- The deployment row is not among the node rows. -/
theorem rowAt_modify_setDep (f : ReaperSlot → Deployment) (d : ℕ) :
    rowAt (slots.modify d fun x => { x with db := x.db.setDep (f x) }) row = rowAt slots row := by
  rw [rowAt, rowAt, dbAt_modify_setDep]
  split
  · rw [dbAt]
    cases slots[row.1]? <;> rfl
  · rfl

theorem cachedAt_modify (f : ReaperSlot → ReaperSlot) (hf : ∀ sl, (f sl).cached = sl.cached)
    (d d' : ℕ) : cachedAt (slots.modify d f) d' = cachedAt slots d' := by
  rw [cachedAt, cachedAt, List.getElem?_modify]
  split
  · cases slots[d']? <;> simp [hf]
  · simp

theorem cachedAt_set {sl : ReaperSlot} (sl' : ReaperSlot) (hsl : slots[d]? = some sl)
    (hcached : sl'.cached = sl.cached) (d' : ℕ) :
    cachedAt (slots.set d sl') d' = cachedAt slots d' := by
  rw [cachedAt, cachedAt]
  by_cases hd : d' = d
  · subst hd
    rw [List.getElem?_set_self (List.getElem?_eq_some_iff.mp hsl).1, hsl]
    exact hcached
  · rw [List.getElem?_set_ne (Ne.symm hd)]

/-- **One transaction.**  It writes the row and the deployment it has locked, and no handle. -/
theorem writeRow_spec {w : RowWrite} (h : writeRow slots d row w = some slots') :
    (∃ r ctx, rowAt slots row = some r ∧ rowAt slots' row = some (w.row ctx r)) ∧
      (∀ row' ≠ row, rowAt slots' row' = rowAt slots row') ∧
      (∀ d' ≠ d, deploymentAt slots' d' = deploymentAt slots d') ∧
      ∀ d', cachedAt slots' d' = cachedAt slots d' := by
  obtain ⟨sl, hsl, h⟩ := Option.bind_eq_some_iff.mp h
  obtain ⟨r, hr, h⟩ := Option.bind_eq_some_iff.mp h
  obtain ⟨db, hdb, rfl⟩ := Option.map_eq_some_iff.mp h
  obtain ⟨hrows, hdep⟩ := Db.update_eq_some hdb
  have hset := fun d' => dbAt_set { sl with db := db } hsl d'
  have hrow : rowAt slots row = some r := by
    rw [rowAt, dbAt, hsl]
    exact hr
  refine ⟨⟨r, contextIn slots d sl.db row.2 r, hrow, ?_⟩, ?_, ?_, ?_⟩
  · rw [rowAt_modify_setDep, rowAt, hset, if_pos rfl, Option.bind_some, hrows,
      List.getElem?_modify_eq, hr]
    rfl
  · intro row' hne
    rw [rowAt_modify_setDep, rowAt, rowAt, hset]
    split
    · rename_i heq
      -- another row of the same deployment
      have hpos : row'.2 ≠ row.2 := fun h => hne (Prod.ext heq h)
      rw [Option.bind_some, hrows, List.getElem?_modify, heq, dbAt, hsl]
      simp [Ne.symm hpos]
    · rfl
  · intro d' hne
    rw [deploymentAt, deploymentAt, dbAt_modify_setDep, if_neg hne, hset]
    split
    · rename_i heq
      rw [heq, dbAt, hsl]
      exact congrArg some hdep
    · rfl
  · intro d'
    refine (cachedAt_modify _ ?_ d d').trans (cachedAt_set _ hsl ?_ d')
    · exact fun _ => rfl
    · rfl

end Frames

/-! ### The sentinel -/

section Sentinel

variable {policy : Option RestartPolicy} {slots slots' : List ReaperSlot} {row : RowName} {d : ℕ}
  {w : RowWrite} {c : RowContext} {r : NodeRow}

/-- Only the give-up clears the sentinel. -/
theorem RowWrite.row_keeps_dispatched (hw : w ≠ .clearSentinelAndRefailAfterGiveup)
    (h : r.restartDispatchedAt.isSome = true) :
    (w.row c r).restartDispatchedAt.isSome = true := by
  cases w with
  | clearSentinelAndRefailAfterGiveup => exact absurd rfl hw
  | onChildExit exitCode hasPolicy now =>
    have hkept : (r.exitTerminal exitCode).restartDispatchedAt = r.restartDispatchedAt := by
      unfold NodeRow.exitTerminal
      split
      · split <;> rfl
      · rfl
    simp only [RowWrite.row]
    split
    · rfl
    · rwa [hkept]
  | _ => first | exact h | (simp only [RowWrite.row]; split <;> exact h)

/-- A row that dispatches a restart was not stamped. -/
theorem restartDispatchedAt_of_dispatches {exitCode : Option Int} {hasPolicy : Bool}
    (h : (r.exitTerminal exitCode).dispatchesRestart exitCode hasPolicy = true) :
    r.restartDispatchedAt = none := by
  -- the terminal write of the exit does not touch the sentinel
  have hkept : (r.exitTerminal exitCode).restartDispatchedAt = r.restartDispatchedAt := by
    unfold NodeRow.exitTerminal
    split
    · split <;> rfl
    · rfl
  simp only [NodeRow.dispatchesRestart, Bool.and_eq_true] at h
  rw [← hkept]
  simpa using h.1.2

/-- A dispatch stamps the row. -/
theorem RowWrite.row_dispatches {exitCode : Option Int} {hasPolicy : Bool} {now : ℕ}
    (h : (r.exitTerminal exitCode).dispatchesRestart exitCode hasPolicy = true) :
    ((RowWrite.onChildExit exitCode hasPolicy now).row c r).restartDispatchedAt = some now := by
  simp only [RowWrite.row, if_pos h]

/-- A transaction other than the reaper's keeps the sentinels of the deployment. -/
theorem tableStep_keeps_dispatched {db db' : Db} {a : Txn} (ha : a.isReaperWrite = false)
    (h : tableStep policy db a = some db') {n : ℕ} (hr : db.rows[n]? = some r)
    (hsome : r.restartDispatchedAt.isSome = true) :
    ∃ r', db'.rows[n]? = some r' ∧ r'.restartDispatchedAt.isSome = true := by
  -- a single write keeps the sentinel of every row, unless it is the one that clears
  have hwrite : ∀ {m : ℕ} {w : RowWrite} {db' : Db}, w ≠ .clearSentinelAndRefailAfterGiveup →
      db.write m w = some db' →
      ∃ r', db'.rows[n]? = some r' ∧ r'.restartDispatchedAt.isSome = true := by
    intro m w db' hw h
    rcases Db.write_getElem?_cases h hr with hr' | ⟨_, hr'⟩
    · exact ⟨r, hr', hsome⟩
    · exact ⟨_, hr', RowWrite.row_keeps_dispatched hw hsome⟩
  have hsame : db'.rows = db.rows →
      ∃ r', db'.rows[n]? = some r' ∧ r'.restartDispatchedAt.isSome = true :=
    fun hrows => ⟨r, by rw [hrows, hr], hsome⟩
  cases a with
  | phaseA req other =>
    obtain ⟨⟨o, db₁⟩, hA, rfl⟩ := Option.map_eq_some_iff.mp h
    rcases phaseA_cases hA with ⟨rfl, _⟩ | ⟨_, _, _, hrows, _⟩
    · exact hsame rfl
    · refine ⟨r, ?_, hsome⟩
      show db₁.rows[n]? = some r
      rw [hrows, List.getElem?_append_left (List.getElem?_eq_some_iff.mp hr).1, hr]
  | stop host now =>
    obtain ⟨⟨res, db₁⟩, hS, rfl⟩ := Option.map_eq_some_iff.mp h
    rcases stopTxn_cases hS with ⟨i, r₀, _, _, _, _, hw⟩ | ⟨_, _, rfl⟩ | ⟨_, _, hcase⟩
    · exact hwrite (by simp) hw
    · exact hsame rfl
    · rcases hcase with ⟨_, rfl⟩ | ⟨_, _, hw⟩ | ⟨_, _, rfl⟩
      · exact hsame rfl
      · exact hwrite (by simp) hw
      · apply hsame
        show (stopPreActive db now).rows = db.rows
        unfold stopPreActive
        split <;> rfl
  | write m w =>
    apply hwrite _ h
    rintro rfl
    cases ha
  | apiStart now =>
    obtain rfl := Option.some.inj h
    exact hsame rfl
  | apiStatus st hst =>
    obtain rfl := Option.some.inj h
    exact hsame rfl

theorem keepsSentinels_of_tableStep {sl : ReaperSlot} {db : Db} {a : Txn}
    (ha : a.isReaperWrite = false) (hsl : slots[d]? = some sl)
    (h : tableStep policy sl.db a = some db) :
    KeepsSentinels slots (slots.set d { sl with db := db }) := by
  intro row r hr hsome
  rw [rowAt, dbAt_set _ hsl]
  by_cases hd : row.1 = d
  · rw [rowAt, hd, dbAt, hsl] at hr
    rw [if_pos hd]
    exact tableStep_keeps_dispatched ha h hr hsome
  · rw [if_neg hd]
    exact ⟨r, hr, hsome⟩

theorem keepsSentinels_of_writeRow (hw : w ≠ .clearSentinelAndRefailAfterGiveup)
    (h : writeRow slots d row w = some slots') : KeepsSentinels slots slots' := by
  obtain ⟨⟨r₀, ctx, hr₀, hr₀'⟩, hother, _, _⟩ := writeRow_spec h
  intro row' r hr hsome
  by_cases hrow : row' = row
  · subst hrow
    obtain rfl : r₀ = r := Option.some.inj (hr₀.symm.trans hr)
    exact ⟨_, hr₀', RowWrite.row_keeps_dispatched hw hsome⟩
  · exact ⟨r, by rw [hother row' hrow, hr], hsome⟩

end Sentinel

/-! ### The invariant -/

/-- Handles and the items of passes are bound to rows of their deployment; between two clearings of
    its sentinel a row has at most one task, and none while it is not stamped. -/
structure ReaperInv (s : ReaperState) : Prop where
  cached : ∀ d c row, cachedAt s.slots d = some c → c.ownedRowId = some row → row.1 = d
  passes : ∀ items ∈ s.passes, ∀ item ∈ items, ∀ row, item.2.ownedRowId = some row →
    row.1 = item.1
  once : ∀ row, OnceBetween (DispatchEvent.dispatched row) (.cleared row) s.log
  armed : ∀ row, (∀ r, rowAt s.slots row = some r → r.restartDispatchedAt = none) →
    Rearmed (DispatchEvent.dispatched row) (.cleared row) s.log

section Invariant

variable {policy : Option RestartPolicy} {s t : ReaperState} {slots : List ReaperSlot}
  {row : RowName} {d : ℕ} {a : ReaperLabel}

/-- A row that is not stamped now was not stamped before. -/
theorem ReaperInv.armed_of_keeps (h : ReaperInv s) (hkeeps : KeepsSentinels s.slots slots)
    (hnone : ∀ r, rowAt slots row = some r → r.restartDispatchedAt = none) :
    Rearmed (DispatchEvent.dispatched row) (.cleared row) s.log := by
  apply h.armed
  intro r hr
  by_contra hsome
  -- a stamped row would still be stamped
  obtain ⟨r', hr', hsome'⟩ := hkeeps row r hr (Option.isSome_iff_ne_none.mpr hsome)
  rw [hnone r' hr'] at hsome'
  cases hsome'

/-- A step without a dispatch or a clearing. -/
theorem ReaperInv.of_quiet (h : ReaperInv s) (hlog : t.log = s.log)
    (hkeeps : KeepsSentinels s.slots t.slots)
    (hcached : ∀ d c row, cachedAt t.slots d = some c → c.ownedRowId = some row → row.1 = d)
    (hpasses : ∀ items ∈ t.passes, ∀ item ∈ items, ∀ row, item.2.ownedRowId = some row →
      row.1 = item.1) : ReaperInv t := by
  refine ⟨hcached, hpasses, fun row => ?_, fun row hnone => ?_⟩
  · rw [hlog]
    exact h.once row
  · rw [hlog]
    exact h.armed_of_keeps hkeeps hnone

theorem scheduleRestartTask_cases (s : ReaperState) (d : ℕ) (row : RowName) :
    scheduleRestartTask s d row = s ∨
      scheduleRestartTask s d row =
        { s with
          slots := s.slots.modify d fun sl => { sl with task := some { ownedRowId := some row } }
          log := s.log ++ [.dispatched row] } := by
  unfold scheduleRestartTask
  split
  · exact Or.inl rfl
  · exact Or.inr rfl

/-- The row is that of the handle, if the handle has one. -/
theorem exitTarget_owned {slots : List ReaperSlot} {ownedRowId : Option RowName}
    {procPid : Option ℕ} {row target : RowName}
    (h : exitTarget slots d ownedRowId procPid = some (some target))
    (howned : ownedRowId = some row) : target = row := by
  subst howned
  simp only [exitTarget] at h
  split at h
  · exact (Option.some.inj (Option.some.inj h)).symm
  · cases h

/-- What the exit handling does: nothing, or one transaction and perhaps a task for its row. -/
theorem onChildExit_cases {hasPolicy : Bool} {cached : CachedNode} {proc : ChildProcess} {now : ℕ}
    (h : onChildExit hasPolicy s d cached proc now = some t) :
    t = s ∨ ∃ row slots, exitTarget s.slots d cached.ownedRowId proc.pid = some (some row) ∧
      writeRow s.slots d row (.onChildExit proc.exitCode hasPolicy now) = some slots ∧
      (t = { s with slots := slots } ∨
        (∀ r, rowAt s.slots row = some r → r.restartDispatchedAt = none) ∧
        (∃ r, rowAt slots row = some r ∧ r.restartDispatchedAt.isSome = true) ∧
        t = scheduleRestartTask { s with slots := slots } d row) := by
  obtain ⟨target, htarget, h⟩ := Option.bind_eq_some_iff.mp h
  cases target with
  | none => exact Or.inl (Option.some.inj h).symm
  | some row =>
    obtain ⟨r, hr, h⟩ := Option.bind_eq_some_iff.mp h
    obtain ⟨slots, hwrite, h⟩ := Option.map_eq_some_iff.mp h
    refine Or.inr ⟨row, slots, htarget, hwrite, ?_⟩
    split at h
    · rename_i hdispatch
      right
      obtain ⟨⟨r₀, ctx, hr₀, hr₀'⟩, _⟩ := writeRow_spec hwrite
      obtain rfl : r = r₀ := Option.some.inj (hr.symm.trans hr₀)
      refine ⟨fun r' hr' => ?_, ⟨_, hr₀', ?_⟩, h.symm⟩
      · obtain rfl : r = r' := Option.some.inj (hr.symm.trans hr')
        exact restartDispatchedAt_of_dispatches hdispatch
      · rw [RowWrite.row_dispatches hdispatch]
        rfl
    · exact Or.inl h.symm

theorem rowAt_modify_task (slots : List ReaperSlot) (d : ℕ) (task : Option RestartTask)
    (row : RowName) :
    rowAt (slots.modify d fun sl => { sl with task := task }) row = rowAt slots row :=
  rowAt_congr fun d' => dbAt_modify (fun sl => { sl with task := task }) (fun _ => rfl) d d'

theorem cachedAt_modify_task (slots : List ReaperSlot) (d d' : ℕ) (task : Option RestartTask) :
    cachedAt (slots.modify d fun sl => { sl with task := task }) d' = cachedAt slots d' :=
  cachedAt_modify (fun sl => { sl with task := task }) (fun _ => rfl) d d'

theorem onChildExit_passes {hasPolicy : Bool} {cached : CachedNode} {proc : ChildProcess} {now : ℕ}
    (h : onChildExit hasPolicy s d cached proc now = some t) : t.passes = s.passes := by
  rcases onChildExit_cases h with rfl | ⟨row, slots, _, _, rfl | ⟨_, _, rfl⟩⟩
  · rfl
  · rfl
  · rcases scheduleRestartTask_cases { s with slots := slots } d row with heq | heq <;> rw [heq]

/-- The exit handling keeps the invariant. -/
theorem ReaperInv.onChildExit (h : ReaperInv s) {hasPolicy : Bool} {cached : CachedNode}
    {proc : ChildProcess} {now : ℕ}
    (hs : Msai.Supervisor.onChildExit hasPolicy s d cached proc now = some t) : ReaperInv t := by
  rcases onChildExit_cases hs with rfl | ⟨row, slots, _, hwrite, hcase⟩
  · exact h
  · have hkeeps := keepsSentinels_of_writeRow (by simp) hwrite
    obtain ⟨_, hother, _, hhandles⟩ := writeRow_spec hwrite
    have hcached : ∀ d c row, cachedAt slots d = some c → c.ownedRowId = some row → row.1 = d := by
      intro d' c row' hc
      rw [hhandles] at hc
      exact h.cached d' c row' hc
    have hquiet : ReaperInv { s with slots := slots } := h.of_quiet rfl hkeeps hcached h.passes
    rcases hcase with rfl | ⟨hbefore, ⟨r, hr, hstamped⟩, rfl⟩
    · exact hquiet
    · rcases scheduleRestartTask_cases { s with slots := slots } d row with heq | heq
      · rw [heq]
        exact hquiet
      · rw [heq]
        refine ⟨?_, h.passes, fun row' => ?_, fun row' hnone => ?_⟩
        · intro d' c row' hc
          rw [cachedAt_modify_task] at hc
          exact hcached d' c row' hc
        · by_cases hrow : row' = row
          · -- the row was not stamped before, so its task is the first since the last clearing
            subst hrow
            exact (h.once row').concat_event (h.armed row' hbefore)
          · exact (h.once row').concat fun he => hrow (DispatchEvent.dispatched.inj he).symm
        · -- the row of the new task is stamped now
          have hrow : row' ≠ row := by
            rintro rfl
            rw [rowAt_modify_task] at hnone
            rw [hnone r hr] at hstamped
            cases hstamped
          have harmed : Rearmed (DispatchEvent.dispatched row') (.cleared row') s.log := by
            apply hquiet.armed
            intro r' hr'
            exact hnone r' (by rw [rowAt_modify_task, hr'])
          exact harmed.concat fun he => hrow (DispatchEvent.dispatched.inj he).symm

theorem dbAt_evict (slots : List ReaperSlot) (d d' : ℕ) (c : CachedNode) :
    dbAt (evict slots d c) d' = dbAt slots d' := by
  apply dbAt_modify
  intro sl
  split <;> rfl

theorem cachedAt_of_evict {c c' : CachedNode} {d' : ℕ}
    (h : cachedAt (evict slots d c) d' = some c') : cachedAt slots d' = some c' := by
  rw [cachedAt, evict, List.getElem?_modify] at h
  rw [cachedAt]
  cases hsl : slots[d']? with
  | none => simp [hsl] at h
  | some sl =>
    rw [hsl] at h
    split at h
    · simp only [Option.map_eq_map, Option.map_some, Option.bind_some] at h ⊢
      split at h
      · cases h
      · exact h
    · simpa using h

theorem cachedAt_of_mem_cacheItems {item : ℕ × CachedNode} (h : item ∈ cacheItems slots) :
    cachedAt slots item.1 = some item.2 := by
  obtain ⟨⟨sl, d'⟩, hmem, hitem⟩ := List.mem_filterMap.mp h
  obtain ⟨c, hc, rfl⟩ := Option.map_eq_some_iff.mp hitem
  have hsl : slots[d']? = some sl := List.mem_zipIdx_iff_getElem?.mp hmem
  rw [cachedAt, hsl]
  exact hc

theorem mem_set_tail {passes : List (List (ℕ × CachedNode))} {k : ℕ} {item : ℕ × CachedNode}
    {rest items : List (ℕ × CachedNode)} (hk : passes[k]? = some (item :: rest))
    (h : items ∈ passes.set k rest) {x : ℕ × CachedNode} (hx : x ∈ items) :
    ∃ items' ∈ passes, x ∈ items' := by
  rcases List.mem_or_eq_of_mem_set h with h | rfl
  · exact ⟨items, h, hx⟩
  · exact ⟨_, List.mem_of_getElem? hk, List.mem_cons_of_mem _ hx⟩

/-- What the give-up does: the row of the task is cleared, or there is no row. -/
theorem giveUp_cases {ownedRowId : Option RowName} (h : giveUp s d ownedRowId = some t) :
    t = { s with
      slots := s.slots.modify d fun sl =>
        { sl with db := sl.db.setDep (sl.db.dep.syncTerminal false) } } ∨
    ∃ row slots, writeRow s.slots d row .clearSentinelAndRefailAfterGiveup = some slots ∧
      t = { s with slots := slots, log := s.log ++ [.cleared row] } := by
  unfold giveUp at h
  split at h
  · exact Or.inl (Option.some.inj h).symm
  · rename_i row _
    obtain ⟨slots, hwrite, rfl⟩ := Option.map_eq_some_iff.mp h
    exact Or.inr ⟨row, slots, hwrite, rfl⟩

theorem ReaperInv.giveUp (h : ReaperInv s) {ownedRowId : Option RowName}
    (hs : Msai.Supervisor.giveUp s d ownedRowId = some t) : ReaperInv t := by
  rcases giveUp_cases hs with rfl | ⟨row, slots, hwrite, rfl⟩
  · refine h.of_quiet rfl (.of_rows_eq fun row => rowAt_modify_setDep _ d) ?_ h.passes
    intro d' c row hc
    apply h.cached d' c row
    rw [← hc]
    exact (cachedAt_modify (fun sl =>
      { sl with db := sl.db.setDep (sl.db.dep.syncTerminal false) }) (fun _ => rfl) d d').symm
  · obtain ⟨_, hother, _, hhandles⟩ := writeRow_spec hwrite
    refine ⟨?_, h.passes, fun row' => ?_, fun row' hnone => ?_⟩
    · intro d' c row' hc
      rw [hhandles] at hc
      exact h.cached d' c row' hc
    · exact (h.once row').concat fun he => by cases he
    · by_cases hrow : row' = row
      · -- the clearing arms its row again
        subst hrow
        exact rearmed_concat_reset
      · have harmed : Rearmed (DispatchEvent.dispatched row') (.cleared row') s.log := by
          apply h.armed
          intro r hr
          exact hnone r (by rw [hother row' hrow, hr])
        exact harmed.concat fun he => by cases he

/-- A restart task ends. -/
theorem ReaperInv.endTask (h : ReaperInv s) (d : ℕ) :
    ReaperInv { s with slots := s.slots.modify d fun sl => { sl with task := none } } := by
  refine h.of_quiet rfl (.of_rows_eq fun row => rowAt_modify_task _ d none row) ?_ h.passes
  intro d' c row hc
  rw [cachedAt_modify_task] at hc
  exact h.cached d' c row hc

/-- A child is cached under the deployment of the row it was spawned for. -/
theorem ReaperInv.cache (h : ReaperInv s) (d : ℕ) (c : CachedNode)
    (hc : ∀ row, c.ownedRowId = some row → row.1 = d) (procs : List ChildProcess) :
    ReaperInv { s with
      procs := procs
      slots := s.slots.modify d fun sl => { sl with cached := some c } } := by
  refine h.of_quiet rfl (.of_rows_eq fun row => rowAt_congr fun d' => ?_) ?_ h.passes
  · exact dbAt_modify (fun sl => { sl with cached := some c }) (fun _ => rfl) d d'
  · intro d' c' row hc' howned
    rw [cachedAt, List.getElem?_modify] at hc'
    split at hc'
    · rename_i hd
      obtain ⟨sl, hsl, hcached⟩ := Option.bind_eq_some_iff.mp hc'
      obtain ⟨sl₀, _, rfl⟩ := Option.map_eq_some_iff.mp hsl
      obtain rfl : c = c' := Option.some.inj hcached
      exact (hc row howned).trans hd
    · exact h.cached d' c' row (by simpa [cachedAt] using hc') howned

/-- **Step.** -/
theorem ReaperInv.step (h : ReaperInv s) (hs : reaperStep policy s a = some t) : ReaperInv t := by
  cases a with
  | start d rowId pid =>
    simp only [reaperStep] at hs
    split at hs
    · obtain rfl := Option.some.inj hs
      refine h.cache d _ (fun row howned => ?_) _
      obtain ⟨n, _, rfl⟩ := Option.map_eq_some_iff.mp howned
      rfl
    · cases hs
  | exit p code =>
    obtain rfl := Option.some.inj hs
    exact h.of_quiet rfl (.of_rows_eq fun _ => rfl) h.cached h.passes
  | beginPass =>
    obtain rfl := Option.some.inj hs
    refine h.of_quiet rfl (.of_rows_eq fun _ => rfl) h.cached ?_
    intro items hitems item hitem row howned
    rcases List.mem_append.mp hitems with hold | hnew
    · exact h.passes items hold item hitem row howned
    · rw [List.mem_singleton.mp hnew] at hitem
      exact h.cached item.1 item.2 row (cachedAt_of_mem_cacheItems hitem) howned
  | reapNext k now =>
    simp only [reaperStep] at hs
    split at hs
    · rename_i d c rest hk
      have hpasses : ∀ {u : ReaperState}, ReaperInv u → u.passes = s.passes →
          ∀ items ∈ u.passes.set k rest, ∀ item ∈ items, ∀ row, item.2.ownedRowId = some row →
            row.1 = item.1 := by
        intro u hu hsame items hitems item hitem
        rw [hsame] at hitems
        obtain ⟨items', hitems', hitem'⟩ := mem_set_tail hk hitems hitem
        exact h.passes items' hitems' item hitem'
      obtain ⟨proc, _, hs⟩ := Option.bind_eq_some_iff.mp hs
      split at hs
      · obtain rfl := Option.some.inj hs
        exact h.of_quiet rfl (.of_rows_eq fun _ => rfl) h.cached (hpasses h rfl)
      · obtain ⟨u, hu, rfl⟩ := Option.map_eq_some_iff.mp hs
        have hinv := h.onChildExit hu
        refine hinv.of_quiet rfl (.of_rows_eq fun _ => rowAt_congr fun d' => dbAt_evict _ d d' c)
          ?_ (hpasses hinv (onChildExit_passes hu))
        intro d' c' row hc
        exact hinv.cached d' c' row (cachedAt_of_evict hc)
    · cases hs
  | reapFails k =>
    obtain rfl := Option.some.inj hs
    refine h.of_quiet rfl (.of_rows_eq fun _ => rfl) h.cached ?_
    intro items hitems item hitem
    rcases List.mem_or_eq_of_mem_set hitems with hold | rfl
    · exact h.passes items hold item hitem
    · cases hitem
  | taskEnds d =>
    obtain rfl := Option.some.inj hs
    exact h.endTask d
  | giveUp d =>
    obtain ⟨task, _, hs⟩ := Option.bind_eq_some_iff.mp hs
    obtain ⟨u, hu, rfl⟩ := Option.map_eq_some_iff.mp hs
    exact (h.giveUp hu).endTask d
  | other d a =>
    simp only [reaperStep] at hs
    split at hs
    · cases hs
    · rename_i ha
      obtain ⟨sl, hsl, hs⟩ := Option.bind_eq_some_iff.mp hs
      obtain ⟨db, hdb, rfl⟩ := Option.map_eq_some_iff.mp hs
      refine h.of_quiet rfl (keepsSentinels_of_tableStep (by simpa using ha) hsl hdb) ?_ h.passes
      intro d' c row hc
      rw [cachedAt_set { sl with db := db } hsl rfl] at hc
      exact h.cached d' c row hc

/-- **Run.** -/
theorem reaperInv_of_path {dbs : List Db} {as : List ReaperLabel}
    (h : Path (reaperSystem policy) anyStep (.initial dbs) as s) : ReaperInv s := by
  have hcached : ∀ d, cachedAt (ReaperState.initial dbs).slots d = none := by
    intro d
    rw [cachedAt, ReaperState.initial, List.getElem?_map]
    cases dbs[d]? <;> rfl
  refine h.invariant (fun _ _ _ hI _ hs => hI.step hs) ⟨?_, ?_, ?_, ?_⟩
  · intro d c row hc
    rw [hcached] at hc
    cases hc
  · intro items hitems
    cases hitems
  · exact fun row => onceBetween_nil
  · exact fun row _ => rearmed_of_not_mem List.not_mem_nil

/-! ### Ownership -/

/-- The exit of a child whose handle has a row changes only this row and its deployment. -/
theorem ReaperInv.onlyRow_of_reap (h : ReaperInv s) {k now : ℕ} {c : CachedNode}
    {rest : List (ℕ × CachedNode)} (hk : s.passes[k]? = some ((d, c) :: rest))
    (howned : c.ownedRowId = some row) (hs : reaperStep policy s (.reapNext k now) = some t) :
    OnlyRow row s.slots t.slots := by
  have hd : row.1 = d :=
    h.passes _ (List.mem_of_getElem? hk) (d, c) List.mem_cons_self row howned
  simp only [reaperStep, hk] at hs
  obtain ⟨proc, _, hs⟩ := Option.bind_eq_some_iff.mp hs
  split at hs
  · obtain rfl := Option.some.inj hs
    exact .of_dbs_eq fun _ => rfl
  · obtain ⟨u, hu, rfl⟩ := Option.map_eq_some_iff.mp hs
    have hevict : OnlyRow row u.slots (evict u.slots d c) :=
      .of_dbs_eq fun d' => dbAt_evict u.slots d d' c
    suffices OnlyRow row s.slots u.slots from this.trans hevict
    rcases onChildExit_cases hu with rfl | ⟨target, slots, htarget, hwrite, hcase⟩
    · exact .of_dbs_eq fun _ => rfl
    · obtain rfl := exitTarget_owned htarget howned
      obtain ⟨_, hrows, hdeployments, _⟩ := writeRow_spec hwrite
      have honly : OnlyRow target s.slots slots := ⟨hrows, by rwa [hd]⟩
      rcases hcase with rfl | ⟨_, _, rfl⟩
      · exact honly
      · rcases scheduleRestartTask_cases { s with slots := slots } d target with heq | heq
        · rw [heq]
          exact honly
        · rw [heq]
          exact honly.trans (.of_dbs_eq fun d' =>
            dbAt_modify (fun sl => { sl with task := some { ownedRowId := some target } })
              (fun _ => rfl) d d')

/-- **The reaper acts by ownership and dispatches once.**  In every run of exits, passes, restart
    tasks and other transactions, the handling of an exit changes the row of the handle and its
    deployment only; and between two clearings of its sentinel a row has at most one task. -/
theorem reaper_acts_by_ownership {dbs : List Db} {as : List ReaperLabel}
    (h : Path (reaperSystem policy) anyStep (.initial dbs) as s) :
    (∀ (k now d : ℕ) (c : CachedNode) (rest : List (ℕ × CachedNode)) (row : RowName)
      (t : ReaperState), s.passes[k]? = some ((d, c) :: rest) → c.ownedRowId = some row →
        reaperStep policy s (.reapNext k now) = some t → OnlyRow row s.slots t.slots) ∧
    ∀ row, OnceBetween (DispatchEvent.dispatched row) (.cleared row) s.log := by
  have hinv := reaperInv_of_path h
  exact ⟨fun _ _ _ _ _ _ _ hk howned hs => hinv.onlyRow_of_reap hk howned hs, hinv.once⟩

end Invariant

/-! ### A pass behind a rescan -/

/-- A node crashes, a pass takes its snapshot, and before it comes to the handle an attempt of the
    rescan reserves a newer row. -/
def latePass : List ReaperLabel :=
  [.other 0 (.phaseA (startRequest 1) .none), .start 0 (some 0) (some 7),
    .other 0 (.write 0 (.markTerminal ⟨false, .nodeCrashed, none, 1⟩ 2)), .exit 0 (some 1),
    .beginPass, .other 0 (.phaseA (restartRequest 3) .none)]

/-- The theorem at a pass behind a rescan: the old row is stamped and gets a task, the newer row
    stays in its start-up. -/
theorem reaper_acts_by_ownership_late_pass :
    ∃ s t, Path (reaperSystem (some .default)) anyStep (.initial [queuedDb]) latePass s ∧
      reaperStep (some .default) s (.reapNext 0 4) = some t ∧
      t.log = [.dispatched (0, 0)] ∧
      (rowAt t.slots (0, 1)).map (·.status) = some .starting ∧
      OnlyRow (0, 0) s.slots t.slots ∧
      ∀ row, OnceBetween (DispatchEvent.dispatched row) (.cleared row) s.log := by
  obtain ⟨s, hs, c, rest, hpass, howned, t, ht, hlog, hstatus⟩ :
      ∃ s, (reaperSystem (some .default)).run (.initial [queuedDb]) latePass = some s ∧
        ∃ c rest, s.passes[0]? = some ((0, c) :: rest) ∧ c.ownedRowId = some (0, 0) ∧
        ∃ t, reaperStep (some .default) s (.reapNext 0 4) = some t ∧
          t.log = [.dispatched (0, 0)] ∧
          (rowAt t.slots (0, 1)).map (·.status) = some .starting :=
    ⟨_, rfl, _, _, rfl, rfl, _, rfl, rfl, rfl⟩
  have hpath := Path.of_run hs
  obtain ⟨howns, honce⟩ := reaper_acts_by_ownership hpath
  exact ⟨s, t, hpath, ht, hlog, hstatus, howns 0 4 0 c rest (0, 0) t hpass howned ht, honce⟩

end Msai.Supervisor
