import Msai.Supervisor.Spawn
import Msai.Supervisor.Table

namespace Msai.Supervisor

open Msai.Live Msai.Lib Msai.Lib.TransitionSystem

/-!
# One supervisor and the processes of one deployment

`fleetSystem` puts the pieces together for one deployment on one host: the table, the spawn
calls in flight, the OS children with the program order of their self-writes, the entry of
`node_handle_cache`, and the reaper, the sweeps, the watchdog and `stop`, each transaction
and each signal a step of its own.

* `Child`, `ChildAct` — an OS process and what it does next;
* `Fleet`, `FleetLabel`, `fleetStep` — the system;
* `FleetTxn`, `fleetStep_txn` — the transaction behind a step, and whose it is;
* `fleetStep_db` — every step performs at most one transaction of the table;
* `fleet_refines_table` — so a run of the fleet is a run of `tableSystem`.
-/

/-! ### Children -/

/-- Where a trading subprocess stands in `run_subprocess_async`. -/
inductive ChildPhase
  | booting
  | building
  | ready
  | running
  /-- `_mark_terminal` has committed, the process has not exited yet. -/
  | exiting
deriving DecidableEq, Repr

/-- An OS process started by a spawn; its pid is its position in the list of children. -/
structure Child where
  /-- The row it was started for. -/
  rowId : ℕ
  alive : Bool
  phase : ChildPhase
  /-- SIGTERM or SIGKILL was sent to it. -/
  signalled : Bool
  /-- Its exit code, once it is dead. -/
  exitCode : Option Int
deriving DecidableEq, Repr

/-- A process right after `process.start()`. -/
def Child.fresh (rowId : ℕ) : Child :=
  { rowId := rowId, alive := true, phase := .booting, signalled := false, exitCode := none }

/-- What a child does next. -/
inductive ChildAct
  | selfWritePid (now : ℕ)
  | markReady (now : ℕ)
  | markRunning (now : ℕ)
  | heartbeat (now : ℕ)
  | markTerminal (report : TerminalReport) (now : ℕ)
deriving DecidableEq, Repr

/-- The write of child `pid`, in the program order of the subprocess. -/
def childWrite (pid : ℕ) : ChildPhase → ChildAct → Option (RowWrite × ChildPhase)
  | .booting, .selfWritePid now => some (.selfWritePid pid now, .building)
  | .building, .markReady now => some (.markReady now, .ready)
  | .ready, .markRunning now => some (.markRunning now, .running)
  | .exiting, _ => none
  | _, .markTerminal report now => some (.markTerminal report now, .exiting)
  -- the heartbeat thread starts with the pid write
  | .booting, _ => none
  | phase, .heartbeat now => some (.heartbeat now, phase)
  | _, _ => none

/-- A child that still writes leaves its row active, or reports its end. -/
theorem childWrite_cases {pid : ℕ} {phase phase' : ChildPhase} {act : ChildAct} {w : RowWrite}
    (h : childWrite pid phase act = some (w, phase')) :
    phase ≠ .exiting ∧
      (phase' = .exiting ∨
        ∀ (c : RowContext) (r : NodeRow), r.isActive = true → (w.row c r).isActive = true) := by
  have hrun : ∀ now (c : RowContext) (r : NodeRow), r.isActive = true →
      ((RowWrite.markRunning now).row c r).isActive = true := by
    intro now c r ha
    simp only [RowWrite.row]
    split
    · rfl
    · exact ha
  cases phase <;> cases act <;>
    simp only [childWrite, Option.some.injEq, Prod.mk.injEq, reduceCtorEq] at h <;>
    obtain ⟨rfl, rfl⟩ := h <;> refine ⟨by decide, ?_⟩ <;>
    first
      | exact Or.inl rfl
      | exact Or.inr (hrun _)
      | exact Or.inr fun c r _ => rfl
      | exact Or.inr fun c r ha => ha

/-! ### The system -/

/-- The state of one deployment under one supervisor. -/
structure Fleet where
  db : Db
  /-- Calls of `spawn_with_outcome` that got a row. -/
  spawns : List Spawn
  children : List Child
  /-- The child in `node_handle_cache`. -/
  handle : Option ℕ
  /-- Rows the watchdog has selected and not flushed yet, with the pid it killed. -/
  watchdog : List (ℕ × Option ℕ)
  /-- Stops that have committed and not signalled yet, with the pid they read. -/
  stops : List (Option ℕ)
deriving DecidableEq

/-- What happens next. -/
inductive FleetLabel
  /-- Phase A of a START or of a restart attempt. -/
  | reserve (req : SpawnRequest) (other : OtherStartup)
  | spawn (k : ℕ) (ev : SpawnEvent)
  | child (pid : ℕ) (act : ChildAct)
  | childExit (pid : ℕ) (code : Option Int)
  | reap (now : ℕ)
  /-- A sweep or clean-up of the supervisor, or the API's intent stamp, on one row. -/
  | sweep (rowId : ℕ) (w : RowWrite)
  | watchdogSelect (rowId cutoff : ℕ)
  | watchdogFlush (timeout : String)
  | stop (now : ℕ)
  | stopSignal
  | apiStart (now : ℕ)
  | apiStatus (st : Status) (h : st ≠ .stopping)

namespace Fleet

variable (s : Fleet)

/-- The cached handle is alive. -/
def handleAlive : Bool :=
  (s.handle.bind fun pid => s.children[pid]?).any (·.alive)

/-- The row is in `_in_flight_spawn_rows`. -/
def inFlight (rowId : ℕ) : Bool :=
  s.spawns.any fun sp => decide (sp.rowId = rowId) &&
    match sp.pc with
    | .finished _ => false
    | _ => true

/-- A restart attempt got a transient no-ACK outcome on the row. -/
def strandedBy (rowId : ℕ) : Bool :=
  s.spawns.any fun sp => decide (sp.rowId = rowId) &&
    decide (sp.pc = .finished (some (false, false)))

/-- When the supervisor runs a sweep or clean-up on a row. -/
def sweepAllowed (rowId : ℕ) : RowWrite → Bool
  | .heartbeatSweep _ => true
  | .rescanFlip _ => true
  | .reapOwnerless _ => !s.handleAlive && !s.inFlight rowId
  -- the give-up acts on the row the reaper stamped
  | .clearSentinelAndRefailAfterGiveup => (s.db.rows[rowId]?).any (·.restartDispatchedAt.isSome)
  | .refailStrandedRestart => s.strandedBy rowId
  | .apiStampActive _ => true
  | _ => false

/-- Deliver a signal to `pid`. -/
def signal (pid : Option ℕ) : List Child :=
  match pid with
  | none => s.children
  | some p => s.children.modify p fun c => { c with signalled := true }

/-- The pid the watchdog kills for a row. -/
def watchdogPid (r : NodeRow) : Option ℕ :=
  if s.handleAlive then s.handle else r.pid

/-- The state after Phase A. -/
def afterPhaseA (out : PhaseAOutcome × Db) : Fleet :=
  match out.1 with
  | .reserved id => { s with db := out.2, spawns := s.spawns ++ [Spawn.reserved id] }
  | _ => { s with db := out.2 }

/-- The state after a step of spawn `k` that started no process. -/
def afterSpawn (k : ℕ) (out : Db × Spawn) : Fleet :=
  { s with
    db := out.1
    spawns := s.spawns.set k out.2
    children := if out.2.terminated then s.signal out.2.child else s.children }

/-- The state after spawn `k` started a process and installed its handle. -/
def afterStart (k : ℕ) (out : Db × Spawn) : Fleet :=
  { s with
    db := out.1
    spawns := s.spawns.set k out.2
    children := s.children ++ [Child.fresh out.2.rowId]
    handle := some s.children.length }

end Fleet

/-- One step of the fleet on host `host`. -/
def fleetStep (host : String) (policy : Option RestartPolicy) (s : Fleet) :
    FleetLabel → Option Fleet
  | .reserve req other =>
    -- a restart attempt has loaded its context from a row
    if req.host = host ∧ (req.restartCarry.isSome = true → s.db.rows ≠ []) then
      (phaseA policy s.db req other).map s.afterPhaseA
    else none
  | .spawn k ev =>
    (s.spawns[k]?).bind fun sp =>
      match ev with
      | .start (.ok pid) =>
        if pid = s.children.length then (spawnStep s.db sp ev).map (s.afterStart k) else none
      | ev => (spawnStep s.db sp ev).map (s.afterSpawn k)
  | .child pid act =>
    (s.children[pid]?).bind fun c =>
      -- a child writes the row it was started for, whatever became of that row
      if c.alive then
        (childWrite pid c.phase act).bind fun out =>
          (s.db.write c.rowId out.1).map fun db =>
            { s with db := db, children := s.children.set pid { c with phase := out.2 } }
      else none
  | .childExit pid code =>
    (s.children[pid]?).bind fun c =>
      if c.alive then
        some { s with children := s.children.set pid { c with alive := false, exitCode := code } }
      else none
  | .reap now =>
    -- the reaper sees the handle dead, classifies the exit and drops the handle
    s.handle.bind fun pid => (s.children[pid]?).bind fun c =>
      if c.alive then none
      else (s.db.write c.rowId (.onChildExit c.exitCode policy.isSome now)).map fun db =>
        { s with db := db, handle := none }
  | .sweep i w =>
    if s.sweepAllowed i w then (s.db.write i w).map fun db => { s with db := db } else none
  | .watchdogSelect i cutoff =>
    (s.db.rows[i]?).bind fun r =>
      -- the kill comes first, the row is flipped in a later transaction
      if (r.status = .starting ∨ r.status = .building) ∧ r.startedAt < cutoff ∧ r.host = host then
        some { s with
          children := s.signal (s.watchdogPid r)
          watchdog := s.watchdog ++ [(i, s.watchdogPid r)] }
      else none
  | .watchdogFlush timeout =>
    match s.watchdog with
    | [] => none
    | (i, pid) :: rest =>
      (s.db.write i (.watchdogFlush timeout pid)).map fun db =>
        { s with db := db, watchdog := rest }
  | .stop now =>
    -- the intent is committed before the signal is sent
    (stopTxn host now s.db).map fun out =>
      match out.1 with
      | .signal rowPid => { s with db := out.2, stops := s.stops ++ [rowPid] }
      | _ => { s with db := out.2 }
  | .stopSignal =>
    match s.stops with
    | [] => none
    -- the handle cache first, the pid of the row for a child of an earlier supervisor
    | rowPid :: rest => some { s with children := s.signal (s.handle.or rowPid), stops := rest }
  | .apiStart now => some { s with db := s.db.setDep (apiStartDep s.db.dep now) }
  | .apiStatus st h => some { s with db := s.db.setDep (s.db.dep.setStatus st h) }

/-- The fleet as a transition system. -/
def fleetSystem (host : String) (policy : Option RestartPolicy) :
    TransitionSystem Fleet FleetLabel where
  step := fleetStep host policy

/-- A supervisor that has just come up on a table. -/
def Fleet.initial (db : Db) : Fleet :=
  { db := db, spawns := [], children := [], handle := none, watchdog := [], stops := [] }

/-! ### One transaction a step -/

/-- The database effect of a step. -/
inductive DbEffect (host : String) (policy : Option RestartPolicy) (s t : Fleet) :
    FleetLabel → Prop
  | none {a : FleetLabel} (h : t.db = s.db) : DbEffect host policy s t a
  | write {a : FleetLabel} (i : ℕ) (w : RowWrite) (h : s.db.write i w = some t.db) :
      DbEffect host policy s t a
  | phaseA (req : SpawnRequest) (other : OtherStartup) (o : PhaseAOutcome)
      (hcarry : req.restartCarry.isSome = true → s.db.rows ≠ [])
      (h : phaseA policy s.db req other = some (o, t.db)) :
      DbEffect host policy s t (.reserve req other)
  | stop (now : ℕ) (res : StopResult) (h : stopTxn host now s.db = some (res, t.db)) :
      DbEffect host policy s t (.stop now)
  | apiStart (now : ℕ) (h : t.db = s.db.setDep (apiStartDep s.db.dep now)) :
      DbEffect host policy s t (.apiStart now)
  | apiStatus (st : Status) (hst : st ≠ .stopping)
      (h : t.db = s.db.setDep (s.db.dep.setStatus st hst)) :
      DbEffect host policy s t (.apiStatus st hst)

section Step

variable {host : String} {policy : Option RestartPolicy} {s t : Fleet} {a : FleetLabel}

@[simp] theorem afterPhaseA_db (out : PhaseAOutcome × Db) : (s.afterPhaseA out).db = out.2 := by
  unfold Fleet.afterPhaseA
  split <;> rfl

/-- The transaction of a stop. -/
theorem fleetStep_stop {now : ℕ} (h : fleetStep host policy s (.stop now) = some t) :
    ∃ res, stopTxn host now s.db = some (res, t.db) := by
  obtain ⟨⟨res, db'⟩, hstop, rfl⟩ := Option.map_eq_some_iff.mp h
  refine ⟨res, ?_⟩
  split <;> exact hstop

/-- A spawn label moves one spawn: it starts a process, or it does not. -/
theorem fleetStep_spawn {k : ℕ} {ev : SpawnEvent}
    (h : fleetStep host policy s (.spawn k ev) = some t) :
    ∃ sp, s.spawns[k]? = some sp ∧
      ((sp.pc = .processStart ∧ t = s.afterStart k
          (s.db, { sp with pc := .phaseC s.children.length, child := some s.children.length })) ∨
        ((∀ pid, ev ≠ .start (.ok pid)) ∧ ∃ db' sp', SpawnEffect s.db sp ev db' sp' ∧
          t = s.afterSpawn k (db', sp'))) := by
  obtain ⟨sp, hsp, h⟩ := Option.bind_eq_some_iff.mp h
  refine ⟨sp, hsp, ?_⟩
  split at h
  · split at h
    · rename_i hpid
      obtain ⟨⟨db', sp'⟩, hout, rfl⟩ := Option.map_eq_some_iff.mp h
      obtain ⟨hpc, rfl, rfl⟩ := spawnStep_start hout
      exact Or.inl ⟨hpc, by rw [hpid]⟩
    · cases h
  · rename_i hne
    obtain ⟨⟨db', sp'⟩, hout, rfl⟩ := Option.map_eq_some_iff.mp h
    exact Or.inr ⟨fun pid he => hne pid he, db', sp', spawnStep_effect hout, rfl⟩

/-- The row write of a child. -/
theorem fleetStep_child {pid : ℕ} {act : ChildAct}
    (h : fleetStep host policy s (.child pid act) = some t) :
    ∃ c out, s.children[pid]? = some c ∧ c.alive = true ∧
      childWrite pid c.phase act = some out ∧ s.db.write c.rowId out.1 = some t.db := by
  obtain ⟨c, hc, h⟩ := Option.bind_eq_some_iff.mp h
  split at h
  · rename_i ha
    obtain ⟨out, hout, h⟩ := Option.bind_eq_some_iff.mp h
    obtain ⟨db', hw, rfl⟩ := Option.map_eq_some_iff.mp h
    exact ⟨c, out, hc, ha, hout, hw⟩
  · cases h

/-- The writes a child performs on its own row. -/
def RowWrite.isChildWrite : RowWrite → Bool
  | .selfWritePid _ _ | .markReady _ | .markRunning _ | .heartbeat _ | .markTerminal _ _ => true
  | _ => false

theorem RowWrite.isChildWrite_of_isUnguarded {w : RowWrite} (h : w.isUnguarded = true) :
    w.isChildWrite = true := by
  cases w <;> first | rfl | cases h

/-- A sweep or clean-up the supervisor runs is no write of a child. -/
theorem isChildWrite_of_sweepAllowed {i : ℕ} {w : RowWrite} (h : s.sweepAllowed i w = true) :
    w.isChildWrite = false := by
  cases w <;> first | rfl | cases h

/-- The transaction behind a step, and for a write of a child the child it is by. -/
inductive FleetTxn (host : String) (policy : Option RestartPolicy) (s t : Fleet) :
    FleetLabel → Prop
  | none {a : FleetLabel} (h : t.db = s.db) : FleetTxn host policy s t a
  | supervisor {a : FleetLabel} (i : ℕ) (w : RowWrite) (hw : w.isChildWrite = false)
      (h : s.db.write i w = some t.db) : FleetTxn host policy s t a
  | child (pid : ℕ) (act : ChildAct) (c : Child) (w : RowWrite) (phase : ChildPhase)
      (hc : s.children[pid]? = some c) (ha : c.alive = true)
      (hw : childWrite pid c.phase act = some (w, phase)) (h : s.db.write c.rowId w = some t.db) :
      FleetTxn host policy s t (.child pid act)
  | phaseA (req : SpawnRequest) (other : OtherStartup) (o : PhaseAOutcome)
      (hcarry : req.restartCarry.isSome = true → s.db.rows ≠ [])
      (h : phaseA policy s.db req other = some (o, t.db)) :
      FleetTxn host policy s t (.reserve req other)
  | stop (now : ℕ) (res : StopResult) (h : stopTxn host now s.db = some (res, t.db)) :
      FleetTxn host policy s t (.stop now)
  | apiStart (now : ℕ) (h : t.db = s.db.setDep (apiStartDep s.db.dep now)) :
      FleetTxn host policy s t (.apiStart now)
  | apiStatus (st : Status) (hst : st ≠ .stopping)
      (h : t.db = s.db.setDep (s.db.dep.setStatus st hst)) :
      FleetTxn host policy s t (.apiStatus st hst)

/-- Every step performs the transaction its label stands for. -/
theorem fleetStep_txn (h : fleetStep host policy s a = some t) : FleetTxn host policy s t a := by
  cases a with
  | reserve req other =>
    simp only [fleetStep] at h
    split at h
    · rename_i hg
      obtain ⟨⟨o, db'⟩, hA, rfl⟩ := Option.map_eq_some_iff.mp h
      exact .phaseA req other o hg.2 (by rw [afterPhaseA_db]; exact hA)
    · cases h
  | spawn k ev =>
    obtain ⟨sp, hk, ⟨hpc, rfl⟩ | ⟨hne, db', sp', heff, rfl⟩⟩ := fleetStep_spawn h
    · exact .none rfl
    · cases heff with
      | recorded pid db'' hpc hev hw => exact .supervisor _ _ rfl hw
      | failed kind reason ret bestEffort db'' hpc hw => exact .supervisor _ _ rfl hw
      | terminalized reason ret db'' hpc hev hw => exact .supervisor _ _ rfl hw
      | _ => exact .none rfl
  | child pid act =>
    obtain ⟨c, out, hc, ha, hout, hw⟩ := fleetStep_child h
    exact .child pid act c out.1 out.2 hc ha hout hw
  | reap now =>
    obtain ⟨pid, hpid, h⟩ := Option.bind_eq_some_iff.mp h
    obtain ⟨c, hc, h⟩ := Option.bind_eq_some_iff.mp h
    split at h
    · cases h
    · obtain ⟨db', hw, rfl⟩ := Option.map_eq_some_iff.mp h
      exact .supervisor _ _ rfl hw
  | sweep i w =>
    simp only [fleetStep] at h
    split at h
    · rename_i hallow
      obtain ⟨db', hw, rfl⟩ := Option.map_eq_some_iff.mp h
      exact .supervisor i w (isChildWrite_of_sweepAllowed hallow) hw
    · cases h
  | watchdogFlush timeout =>
    simp only [fleetStep] at h
    split at h
    · cases h
    · obtain ⟨db', hw, rfl⟩ := Option.map_eq_some_iff.mp h
      exact .supervisor _ _ rfl hw
  | stop now =>
    obtain ⟨res, hstop⟩ := fleetStep_stop h
    exact .stop now res hstop
  | childExit pid code =>
    obtain ⟨c, hc, h⟩ := Option.bind_eq_some_iff.mp h
    split at h
    · obtain rfl := Option.some.inj h
      exact .none rfl
    · cases h
  | watchdogSelect i cutoff =>
    obtain ⟨r, hr, h⟩ := Option.bind_eq_some_iff.mp h
    split at h
    · obtain rfl := Option.some.inj h
      exact .none rfl
    · cases h
  | stopSignal =>
    simp only [fleetStep] at h
    split at h
    · cases h
    · obtain rfl := Option.some.inj h
      exact .none rfl
  | apiStart now =>
    obtain rfl := Option.some.inj h
    exact .apiStart now rfl
  | apiStatus st hst =>
    obtain rfl := Option.some.inj h
    exact .apiStatus st hst rfl

/-- **One transaction.**  A step of the fleet leaves the table alone, writes one row, or
    performs the transaction its label names. -/
theorem fleetStep_db (h : fleetStep host policy s a = some t) : DbEffect host policy s t a := by
  cases fleetStep_txn h with
  | none hdb => exact .none hdb
  | supervisor i w _ hw => exact .write i w hw
  | child pid act c w phase _ _ _ hw => exact .write c.rowId w hw
  | phaseA req other o hcarry hA => exact .phaseA req other o hcarry hA
  | stop now res hstop => exact .stop now res hstop
  | apiStart now hdb => exact .apiStart now hdb
  | apiStatus st hst hdb => exact .apiStatus st hst hdb

/-- **Refinement.**  Whatever the fleet does, the table goes through a sequence of its own
    transactions. -/
theorem fleet_refines_table {C : Fleet → FleetLabel → Prop} {as : List FleetLabel}
    (h : Path (fleetSystem host policy) C s as t) :
    ∃ txns, Path (tableSystem policy) anyStep s.db txns t.db := by
  induction h with
  | nil s => exact ⟨[], .nil _⟩
  | @cons s u t a as _ hstep _ ih =>
    obtain ⟨txns, htail⟩ := ih
    have hone : u.db = s.db ∨ ∃ txn, tableStep policy s.db txn = some u.db := by
      cases fleetStep_db hstep with
      | none hdb => exact Or.inl hdb
      | write i w hw => exact Or.inr ⟨.write i w, hw⟩
      | phaseA req other o _ hA =>
        exact Or.inr ⟨.phaseA req other, Option.map_eq_some_iff.mpr ⟨_, hA, rfl⟩⟩
      | stop now res hs => exact Or.inr ⟨.stop host now, Option.map_eq_some_iff.mpr ⟨_, hs, rfl⟩⟩
      | apiStart now hdb => exact Or.inr ⟨.apiStart now, congrArg some hdb.symm⟩
      | apiStatus st hst hdb => exact Or.inr ⟨.apiStatus st hst, congrArg some hdb.symm⟩
    rcases hone with hdb | ⟨txn, htxn⟩
    · exact ⟨txns, hdb ▸ htail⟩
    · exact ⟨txn :: txns, .cons trivial htxn htail⟩

/-! ### How spawns, rows and children belong together -/

namespace Pc

/-- No handle was installed on the way here. -/
def hasNoHandle : Pc → Bool
  | .phaseC _ => false
  | .finished (some (false, _)) => true
  | .finished _ => false
  | _ => true

end Pc

theorem hasNoHandle_of_isPreStart {pc : Pc} (h : pc.isPreStart = true) :
    pc.hasNoHandle = true := by
  cases pc <;> first | rfl | cases h

/-- Every spawn owns a row of its own, and every child belongs to exactly one spawn. -/
structure Wired (s : Fleet) : Prop where
  inTable : ∀ (k : ℕ) (sp : Spawn), s.spawns[k]? = some sp → sp.rowId < s.db.rows.length
  ownRow : ∀ (k k' : ℕ) (sp sp' : Spawn), s.spawns[k]? = some sp → s.spawns[k']? = some sp' →
    sp.rowId = sp'.rowId → k = k'
  noChild : ∀ (k : ℕ) (sp : Spawn), s.spawns[k]? = some sp → sp.pc.hasNoHandle = true →
    sp.child = none
  childOf : ∀ (k pid : ℕ) (sp : Spawn) (c : Child), s.spawns[k]? = some sp →
    s.children[pid]? = some c → c.rowId = sp.rowId → sp.child = some pid
  hasSpawn : ∀ (pid : ℕ) (c : Child), s.children[pid]? = some c →
    ∃ (k : ℕ) (sp : Spawn), s.spawns[k]? = some sp ∧ sp.rowId = c.rowId
  started : ∀ (k pid : ℕ) (sp : Spawn), s.spawns[k]? = some sp → sp.child = some pid →
    pid < s.children.length

/-- The children of `t` are those of `s`, at a later time: a dead child stays dead and a
    signal stays sent. -/
structure Follows (s t : Fleet) : Prop where
  length_eq : t.children.length = s.children.length
  child : ∀ (pid : ℕ) (c : Child), t.children[pid]? = some c →
    ∃ c₀, s.children[pid]? = some c₀ ∧ c₀.rowId = c.rowId ∧
      (c.alive = true → c₀.alive = true) ∧ (c₀.signalled = true → c.signalled = true)

theorem follows_of_eq (h : t.children = s.children) : Follows s t := by
  refine ⟨by rw [h], fun pid c hc => ?_⟩
  rw [h] at hc
  exact ⟨c, hc, rfl, id, id⟩

theorem follows_of_signal {pid : Option ℕ} (h : t.children = s.signal pid) : Follows s t := by
  cases pid with
  | none => exact follows_of_eq h
  | some p =>
    simp only [Fleet.signal] at h
    refine ⟨by rw [h, List.length_modify], fun q c hc => ?_⟩
    rw [h, List.getElem?_modify] at hc
    obtain ⟨c₀, hc₀, rfl⟩ := Option.map_eq_some_iff.mp hc
    refine ⟨c₀, hc₀, ?_⟩
    split
    · exact ⟨rfl, id, fun _ => rfl⟩
    · exact ⟨rfl, id, id⟩

theorem follows_of_set {pid : ℕ} {c c' : Child} (h : t.children = s.children.set pid c')
    (hc : s.children[pid]? = some c) (hrow : c'.rowId = c.rowId)
    (halive : c'.alive = true → c.alive = true) (hsig : c'.signalled = c.signalled) :
    Follows s t := by
  refine ⟨by rw [h, List.length_set], fun q d hd => ?_⟩
  rw [h] at hd
  rcases getElem?_set_cases hd with ⟨rfl, rfl⟩ | ⟨_, hd⟩
  · exact ⟨c, hc, hrow.symm, halive, fun hs => hsig.trans hs⟩
  · exact ⟨d, hd, rfl, id, id⟩

/-- A spawn that starts no process only signals. -/
theorem Fleet.follows_afterSpawn (s : Fleet) (k : ℕ) (out : Db × Spawn) :
    Follows s (s.afterSpawn k out) := by
  by_cases hterm : out.2.terminated = true
  · exact follows_of_signal (by rw [Fleet.afterSpawn, if_pos hterm])
  · exact follows_of_eq (by rw [Fleet.afterSpawn, if_neg hterm])

/-- A step that only moves states about keeps the wiring. -/
theorem Wired.of_same (h : Wired s) (hsp : t.spawns = s.spawns) (hch : Follows s t)
    (hlen : t.db.rows.length = s.db.rows.length) : Wired t := by
  refine ⟨?_, ?_, ?_, ?_, ?_, ?_⟩ <;> rw [hsp]
  · rw [hlen]
    exact h.inTable
  · exact h.ownRow
  · exact h.noChild
  · intro k pid sp c hk hc hrow
    obtain ⟨c₀, hc₀, hrow₀, _⟩ := hch.child pid c hc
    exact h.childOf k pid sp c₀ hk hc₀ (hrow₀.trans hrow)
  · intro pid c hc
    obtain ⟨c₀, hc₀, hrow₀, _⟩ := hch.child pid c hc
    obtain ⟨k, sp, hk, hrow⟩ := h.hasSpawn pid c₀ hc₀
    exact ⟨k, sp, hk, hrow.trans hrow₀⟩
  · rw [hch.length_eq]
    exact h.started

/-- Only Phase A and the spawns themselves change the spawns and start children. -/
theorem fleetStep_quiet (h : fleetStep host policy s a = some t)
    (hres : ∀ req other, a ≠ .reserve req other) (hspawn : ∀ k ev, a ≠ .spawn k ev) :
    t.spawns = s.spawns ∧ Follows s t := by
  cases a with
  | reserve req other => exact absurd rfl (hres req other)
  | spawn k ev => exact absurd rfl (hspawn k ev)
  | child pid act =>
    obtain ⟨c, hc, h⟩ := Option.bind_eq_some_iff.mp h
    split at h
    · obtain ⟨out, hout, h⟩ := Option.bind_eq_some_iff.mp h
      obtain ⟨db', hw, rfl⟩ := Option.map_eq_some_iff.mp h
      exact ⟨rfl, follows_of_set rfl hc rfl id rfl⟩
    · cases h
  | childExit pid code =>
    obtain ⟨c, hc, h⟩ := Option.bind_eq_some_iff.mp h
    split at h
    · obtain rfl := Option.some.inj h
      exact ⟨rfl, follows_of_set rfl hc rfl (fun h => by cases h) rfl⟩
    · cases h
  | reap now =>
    obtain ⟨pid, hpid, h⟩ := Option.bind_eq_some_iff.mp h
    obtain ⟨c, hc, h⟩ := Option.bind_eq_some_iff.mp h
    split at h
    · cases h
    · obtain ⟨db', hw, rfl⟩ := Option.map_eq_some_iff.mp h
      exact ⟨rfl, follows_of_eq rfl⟩
  | sweep i w =>
    simp only [fleetStep] at h
    split at h
    · obtain ⟨db', hw, rfl⟩ := Option.map_eq_some_iff.mp h
      exact ⟨rfl, follows_of_eq rfl⟩
    · cases h
  | watchdogSelect i cutoff =>
    obtain ⟨r, hr, h⟩ := Option.bind_eq_some_iff.mp h
    split at h
    · obtain rfl := Option.some.inj h
      exact ⟨rfl, follows_of_signal rfl⟩
    · cases h
  | watchdogFlush timeout =>
    simp only [fleetStep] at h
    split at h
    · cases h
    · obtain ⟨db', hw, rfl⟩ := Option.map_eq_some_iff.mp h
      exact ⟨rfl, follows_of_eq rfl⟩
  | stop now =>
    obtain ⟨⟨res, db'⟩, hstop, rfl⟩ := Option.map_eq_some_iff.mp h
    split <;> exact ⟨rfl, follows_of_eq rfl⟩
  | stopSignal =>
    simp only [fleetStep] at h
    split at h
    · cases h
    · obtain rfl := Option.some.inj h
      exact ⟨rfl, follows_of_signal rfl⟩
  | apiStart now | apiStatus st hst =>
    obtain rfl := Option.some.inj h
    exact ⟨rfl, follows_of_eq rfl⟩

/-- A label is a reservation, a step of a spawn, or leaves the spawns alone. -/
theorem fleetStep_kinds (h : fleetStep host policy s a = some t) :
    (∃ req other, a = .reserve req other) ∨ (∃ k ev, a = .spawn k ev) ∨
      ((∀ req other, a ≠ .reserve req other) ∧ t.spawns = s.spawns ∧ Follows s t) := by
  by_cases hres : ∃ req other, a = .reserve req other
  · exact Or.inl hres
  · by_cases hspawn : ∃ k ev, a = .spawn k ev
    · exact Or.inr (Or.inl hspawn)
    · have hres' : ∀ req other, a ≠ .reserve req other := fun req other he => hres ⟨req, other, he⟩
      exact Or.inr (Or.inr ⟨hres', fleetStep_quiet h hres' fun k ev he => hspawn ⟨k, ev, he⟩⟩)

/-- Only Phase A adds a row. -/
theorem fleetStep_length (h : fleetStep host policy s a = some t)
    (hres : ∀ req other, a ≠ .reserve req other) :
    t.db.rows.length = s.db.rows.length := by
  cases fleetStep_db h with
  | none hdb => rw [hdb]
  | write i w hw => exact Db.write_length hw
  | phaseA req other => exact absurd rfl (hres req other)
  | stop now res hs => exact stopTxn_length hs
  | apiStart now hdb | apiStatus st hst hdb => rw [hdb]; rfl

/-- What Phase A does to the fleet. -/
theorem fleetStep_reserve {req : SpawnRequest} {other : OtherStartup}
    (h : fleetStep host policy s (.reserve req other) = some t) :
    t = s ∨
      (phaseAGate s.db req other = none ∧
        t.db.rows = s.db.rows ++ [reservedRow policy req s.db.dep] ∧
        t.spawns = s.spawns ++ [Spawn.reserved s.db.rows.length] ∧
        t.children = s.children ∧ t.handle = s.handle) := by
  simp only [fleetStep] at h
  split at h
  · obtain ⟨⟨o, db'⟩, hA, rfl⟩ := Option.map_eq_some_iff.mp h
    rcases phaseA_cases hA with ⟨rfl, hno⟩ | ⟨rfl, hgate, _, hrows, _⟩
    · -- a refusal commits nothing
      refine Or.inl ?_
      cases o <;> first | rfl | exact absurd rfl (hno _)
    · exact Or.inr ⟨hgate, hrows, rfl, rfl, rfl⟩
  · cases h

/-- A step of a spawn that starts no process keeps its row and its child. -/
theorem SpawnEffect.kept {db db' : Db} {sp sp' : Spawn} {ev : SpawnEvent}
    (h : SpawnEffect db sp ev db' sp') (hne : ∀ pid, ev ≠ .start (.ok pid)) :
    sp'.rowId = sp.rowId ∧ sp'.child = sp.child ∧
      (sp'.pc.hasNoHandle = true → sp.pc.hasNoHandle = true) := by
  cases h with
  | advance pc account hpre hpc hgate =>
    refine ⟨rfl, rfl, fun _ => ?_⟩
    cases hpc' : sp.pc <;> rw [hpc'] at hpre <;> first | rfl | cases hpre
  | haltRaises exc account hpc hev => exact ⟨rfl, rfl, fun hno => by cases hno⟩
  | started pid hpc hev => exact absurd hev (hne pid)
  | recorded pid db'' hpc hev hw => exact ⟨rfl, rfl, fun hno => by cases hno⟩
  | unrecorded pid ret hpc hev hret =>
    refine ⟨rfl, rfl, fun hno => ?_⟩
    rcases hret with rfl | rfl <;> cases hno
  | failed kind reason ret bestEffort db'' hpc hw => exact ⟨rfl, rfl, fun _ => by rw [hpc]; rfl⟩
  | terminalized reason ret db'' hpc hev hw => exact ⟨rfl, rfl, fun _ => by rw [hpc]; rfl⟩
  | cleanupError pc hpc hev hnext =>
    refine ⟨rfl, rfl, fun _ => ?_⟩
    cases hpc' : sp.pc <;> rw [hpc'] at hpc <;> first | rfl | cases hpc
  | left ret hpc => exact ⟨rfl, rfl, fun _ => by rw [hpc]; rfl⟩
  | cancelled reason hpc hev =>
    refine ⟨rfl, rfl, fun _ => ?_⟩
    cases hpc' : sp.pc <;> rw [hpc'] at hpc <;> first | rfl | cases hpc

/-- No step leads a spawn back before its start. -/
theorem SpawnEffect.isPreStart {db db' : Db} {sp sp' : Spawn} {ev : SpawnEvent}
    (h : SpawnEffect db sp ev db' sp') (hpre : sp'.pc.isPreStart = true) :
    sp.pc.isPreStart = true := by
  cases h with
  | advance pc account hpre' => exact hpre'
  | cleanupError pc hpc hev hnext =>
    obtain ⟨ret, rfl | rfl⟩ := hnext <;> cases hpre
  | _ => cases hpre

/-- Whoever may start a process after a step could before it, or was reserved by it. -/
theorem fleetStep_isPreStart {sp' : Spawn} (h : fleetStep host policy s a = some t)
    (hmem : sp' ∈ t.spawns) (hpre : sp'.pc.isPreStart = true) :
    (∃ sp ∈ s.spawns, sp.pc.isPreStart = true) ∨
      ∃ req other, a = .reserve req other ∧ phaseAGate s.db req other = none := by
  rcases fleetStep_kinds h with ⟨req, other, rfl⟩ | ⟨k, ev, rfl⟩ | ⟨_, hsp, _⟩
  · rcases fleetStep_reserve h with rfl | ⟨hgate, _, _⟩
    · exact Or.inl ⟨sp', hmem, hpre⟩
    · exact Or.inr ⟨req, other, rfl, hgate⟩
  · obtain ⟨sp, hk, ⟨_, rfl⟩ | ⟨_, db', q, heff, rfl⟩⟩ := fleetStep_spawn h
    · rcases List.mem_or_eq_of_mem_set hmem with hold | rfl
      · exact Or.inl ⟨sp', hold, hpre⟩
      · cases hpre
    · rcases List.mem_or_eq_of_mem_set hmem with hold | rfl
      · exact Or.inl ⟨sp', hold, hpre⟩
      · exact Or.inl ⟨sp, List.mem_of_getElem? hk, heff.isPreStart hpre⟩
  · rw [hsp] at hmem
    exact Or.inl ⟨sp', hmem, hpre⟩

/-- The part of the wiring that only the row ids of the spawns decide, when spawn `k` is
    replaced by one with the same row. -/
theorem Wired.rows_of_set {k : ℕ} {sp : Spawn} (sp' : Spawn) (h : Wired s)
    (hk : s.spawns[k]? = some sp) (hrow : sp'.rowId = sp.rowId) :
    (∀ (j : ℕ) (q : Spawn), (s.spawns.set k sp')[j]? = some q → q.rowId < s.db.rows.length) ∧
      (∀ (j j' : ℕ) (q q' : Spawn), (s.spawns.set k sp')[j]? = some q →
        (s.spawns.set k sp')[j']? = some q' → q.rowId = q'.rowId → j = j') ∧
      (∀ (j : ℕ) (q₀ : Spawn), s.spawns[j]? = some q₀ →
        ∃ q, (s.spawns.set k sp')[j]? = some q ∧ q.rowId = q₀.rowId) := by
  have hback : ∀ (j : ℕ) (q : Spawn), (s.spawns.set k sp')[j]? = some q →
      ∃ q₀, s.spawns[j]? = some q₀ ∧ q₀.rowId = q.rowId := by
    intro j q hq
    rcases getElem?_set_cases hq with ⟨rfl, rfl⟩ | ⟨_, hq⟩
    · exact ⟨sp, hk, hrow.symm⟩
    · exact ⟨q, hq, rfl⟩
  refine ⟨?_, ?_, ?_⟩
  · intro j q hq
    obtain ⟨q₀, hq₀, hrow₀⟩ := hback j q hq
    exact hrow₀ ▸ h.inTable j q₀ hq₀
  · intro j j' q q' hq hq' heq
    obtain ⟨q₀, hq₀, hrow₀⟩ := hback j q hq
    obtain ⟨q₀', hq₀', hrow₀'⟩ := hback j' q' hq'
    exact h.ownRow j j' q₀ q₀' hq₀ hq₀' (hrow₀.trans (heq.trans hrow₀'.symm))
  · intro j q₀ hq₀
    by_cases hj : j = k
    · subst hj
      obtain rfl : q₀ = sp := by simpa [hk] using hq₀.symm
      exact ⟨sp', by rw [List.getElem?_set_self (List.getElem?_eq_some_iff.mp hk).1], hrow⟩
    · exact ⟨q₀, by rw [List.getElem?_set_ne (Ne.symm hj), hq₀], rfl⟩

/-- The wiring when spawn `k` starts its process: it had no child, and the new one is the
    first of its row. -/
theorem Wired.of_start {k : ℕ} {sp : Spawn} (h : Wired s) (hk : s.spawns[k]? = some sp)
    (hpc : sp.pc = .processStart) :
    Wired (s.afterStart k
      (s.db, { sp with pc := .phaseC s.children.length, child := some s.children.length })) := by
  have hnone : sp.child = none := h.noChild k sp hk (by rw [hpc]; rfl)
  have hnew : ∀ (pid : ℕ) (c : Child), s.children[pid]? = some c → c.rowId ≠ sp.rowId := by
    intro pid c hc hrow
    have hsome := h.childOf k pid sp c hk hc hrow
    rw [hnone] at hsome
    cases hsome
  obtain ⟨hinTable, hownRow, hforth⟩ := h.rows_of_set
    { sp with pc := .phaseC s.children.length, child := some s.children.length } hk rfl
  refine ⟨hinTable, hownRow, ?_, ?_, ?_, ?_⟩
  · intro j q hq hno
    rcases getElem?_set_cases hq with ⟨rfl, rfl⟩ | ⟨_, hq⟩
    · cases hno
    · exact h.noChild j q hq hno
  · intro j pid q c hq hc hrow
    rcases getElem?_concat_cases (l := s.children) hc with ⟨rfl, rfl⟩ | hold
    · -- the new child: its row is owned by spawn `k` alone
      rcases getElem?_set_cases hq with ⟨rfl, rfl⟩ | ⟨hj, hq⟩
      · rfl
      · exact absurd (h.ownRow j k q sp hq hk hrow.symm) hj
    · rcases getElem?_set_cases hq with ⟨rfl, rfl⟩ | ⟨_, hq⟩
      · exact absurd hrow (hnew pid c hold)
      · exact h.childOf j pid q c hq hold hrow
  · intro pid c hc
    rcases getElem?_concat_cases (l := s.children) hc with ⟨rfl, rfl⟩ | hc
    · obtain ⟨q, hq, hrow⟩ := hforth k sp hk
      exact ⟨k, q, hq, hrow⟩
    · obtain ⟨j, q₀, hq₀, hrow₀⟩ := h.hasSpawn pid c hc
      obtain ⟨q, hq, hrow⟩ := hforth j q₀ hq₀
      exact ⟨j, q, hq, hrow.trans hrow₀⟩
  · intro j pid q hq hchild
    have hlen : (s.children ++ [Child.fresh sp.rowId]).length = s.children.length + 1 := by simp
    show pid < (s.children ++ [Child.fresh sp.rowId]).length
    rcases getElem?_set_cases hq with ⟨rfl, rfl⟩ | ⟨_, hq⟩
    · obtain rfl := Option.some.inj hchild
      omega
    · have := h.started j pid q hq hchild
      omega

/-- The wiring when spawn `k` moves without starting a process. -/
theorem Wired.of_advance {k : ℕ} {sp sp' : Spawn} {db' : Db} (h : Wired s)
    (hk : s.spawns[k]? = some sp) (hlen : db'.rows.length = s.db.rows.length)
    (hrow : sp'.rowId = sp.rowId) (hchild : sp'.child = sp.child)
    (hno : sp'.pc.hasNoHandle = true → sp.pc.hasNoHandle = true) :
    Wired (s.afterSpawn k (db', sp')) := by
  have hsame := s.follows_afterSpawn k (db', sp')
  obtain ⟨hinTable, hownRow, hforth⟩ := h.rows_of_set sp' hk hrow
  refine ⟨?_, hownRow, ?_, ?_, ?_, ?_⟩
  · intro j q hq
    show q.rowId < db'.rows.length
    rw [hlen]
    exact hinTable j q hq
  · intro j q hq hq'
    rcases getElem?_set_cases hq with ⟨rfl, rfl⟩ | ⟨_, hq⟩
    · exact hchild.trans (h.noChild j sp hk (hno hq'))
    · exact h.noChild j q hq hq'
  · intro j pid q c hq hc heq
    obtain ⟨c₀, hc₀, hrow₀, _⟩ := hsame.child pid c hc
    rcases getElem?_set_cases hq with ⟨rfl, rfl⟩ | ⟨_, hq⟩
    · exact hchild.trans (h.childOf j pid sp c₀ hk hc₀ (hrow₀.trans (heq.trans hrow)))
    · exact h.childOf j pid q c₀ hq hc₀ (hrow₀.trans heq)
  · intro pid c hc
    obtain ⟨c₀, hc₀, hrow₀, _⟩ := hsame.child pid c hc
    obtain ⟨j, q₀, hq₀, hrowq⟩ := h.hasSpawn pid c₀ hc₀
    obtain ⟨q, hq, heq⟩ := hforth j q₀ hq₀
    exact ⟨j, q, hq, heq.trans (hrowq.trans hrow₀)⟩
  · intro j pid q hq hpid
    rw [hsame.length_eq]
    rcases getElem?_set_cases hq with ⟨rfl, rfl⟩ | ⟨_, hq⟩
    · exact h.started j pid sp hk (hchild ▸ hpid)
    · exact h.started j pid q hq hpid

/-- The step lemma of the wiring. -/
theorem Wired.step (h : Wired s) (hs : fleetStep host policy s a = some t) : Wired t := by
  rcases fleetStep_kinds hs with ⟨req, other, rfl⟩ | ⟨k, ev, rfl⟩ | ⟨hres, hsp, hch⟩
  · rcases fleetStep_reserve hs with rfl | ⟨_, hrows, hsp, hch, _⟩
    · exact h
    · have hlen : t.db.rows.length = s.db.rows.length + 1 := by rw [hrows]; simp
      refine ⟨?_, ?_, ?_, ?_, ?_, ?_⟩ <;> rw [hsp]
      · intro k sp hk
        rcases getElem?_concat_cases hk with ⟨_, rfl⟩ | hk
        · rw [hlen]
          exact Nat.lt_succ_self _
        · have := h.inTable k sp hk
          omega
      · intro k k' sp sp' hk hk' hrow
        rcases getElem?_concat_cases hk with ⟨rfl, rfl⟩ | hk <;>
          rcases getElem?_concat_cases hk' with ⟨rfl, rfl⟩ | hk'
        · rfl
        · have hlt := h.inTable k' sp' hk'
          exact absurd hrow.symm (Nat.ne_of_lt hlt)
        · have hlt := h.inTable k sp hk
          exact absurd hrow (Nat.ne_of_lt hlt)
        · exact h.ownRow k k' sp sp' hk hk' hrow
      · intro k sp hk hno
        rcases getElem?_concat_cases hk with ⟨_, rfl⟩ | hk
        · rfl
        · exact h.noChild k sp hk hno
      · intro k pid sp c hk hc hrow
        rw [hch] at hc
        rcases getElem?_concat_cases hk with ⟨_, rfl⟩ | hk
        · -- a fresh row has no child yet
          obtain ⟨k₀, sp₀, hk₀, hrow₀⟩ := h.hasSpawn pid c hc
          have hlt := h.inTable k₀ sp₀ hk₀
          exact absurd (hrow₀.trans hrow) (Nat.ne_of_lt hlt)
        · exact h.childOf k pid sp c hk hc hrow
      · intro pid c hc
        rw [hch] at hc
        obtain ⟨k, sp, hk, hrow⟩ := h.hasSpawn pid c hc
        exact ⟨k, sp, by rw [List.getElem?_append_left (List.getElem?_eq_some_iff.mp hk).1, hk],
          hrow⟩
      · intro k pid sp hk hpid
        rw [hch]
        rcases getElem?_concat_cases hk with ⟨_, rfl⟩ | hk
        · cases hpid
        · exact h.started k pid sp hk hpid
  · have hlen := fleetStep_length hs fun req other he => by cases he
    obtain ⟨sp, hk, ⟨hpc, rfl⟩ | ⟨hne, db', sp', heff, rfl⟩⟩ := fleetStep_spawn hs
    · exact h.of_start hk hpc
    · obtain ⟨hrow, hchild, hno⟩ := heff.kept hne
      exact h.of_advance hk hlen hrow hchild hno
  · exact h.of_same hsp hch (fleetStep_length hs hres)

/-- A supervisor that has just come up has nothing to wire. -/
theorem wired_initial (db : Db) : Wired (Fleet.initial db) := by
  refine ⟨?_, ?_, ?_, ?_, ?_, ?_⟩ <;> simp [Fleet.initial]

/-- The wiring of every run. -/
theorem wired_of_path {C : Fleet → FleetLabel → Prop} {db : Db} {as : List FleetLabel}
    (h : Path (fleetSystem host policy) C (Fleet.initial db) as t) : Wired t :=
  h.invariant (fun _ _ _ hw _ hs => hw.step hs) (wired_initial db)

end Step

/-! ### An undisturbed spawn -/

/-- Spawn `k` passes every gate up to the read of the stop intent. -/
def passGates (k : ℕ) : List FleetLabel :=
  [.spawn k (.latch .clear), .spawn k (.lookup none), .spawn k (.latch .clear),
    .spawn k (.factory .ok), .spawn k (.latch .clear), .spawn k (.latch .clear),
    .spawn k (.stopIntent false)]

/-- Spawn `k` passes every gate, starts process `pid` and records it. -/
def launch (k pid : ℕ) : List FleetLabel :=
  passGates k ++ [.spawn k (.start (.ok pid)), .spawn k (.phaseC true)]

end Msai.Supervisor
