import Msai.Api.StopRequests
import Msai.Supervisor.LateChild
import Msai.Supervisor.OneChild
import Msai.Supervisor.OperatorStop

namespace Msai.Api

open Msai.Live Msai.Lib Msai.Lib.TransitionSystem Msai.Supervisor

/-!
# The status the handlers leave behind (`api/live.py`)

`/start-portfolio`, `/stop` and `/drain` publish a command, poll the node rows for up to a
minute, and then write the deployment status on the strength of what they have read.  Every
read and every write is a step of its own here, with the supervisor, the child and the other
handlers in between.

* `Handler`, `handlerStep` — a handler and the operation it stands at;
* `StatusSite`, `statusStep` — the handlers, the commands and the fleet of one deployment;
* `StatusTrue` — `running` only with an active row, `stopped` only without one;
* `Undisturbed` — the condition on the schedule: between a handler's last read and its commit no
  row write ends the active row it has seen up, and nothing activates a row behind the end it has
  seen;
* `Backed` — the invariant: what a handler has read still holds when it commits;
* `status_true_of_undisturbed` — then the status is true in every state.

The supervisor writes the status under the deployment lock, and needs no condition for that.
-/

/-! ### The handlers -/

/-- A handler, by the operation it stands at. -/
inductive Handler
  /-- The upsert of `/start-portfolio`. -/
  | startUpsert
  /-- `db.get` of the deployment. -/
  | startLoad
  /-- The active-process query; `loaded` is the status that was read before it. -/
  | startDedup (loaded : Status)
  /-- Linking, and the snapshot of the earlier rows. -/
  | startSnapshot
  | startPublish (prior : List ℕ)
  | startPoll (prior : List ℕ)
  /-- `_active_node_process_exists` behind the deadline. -/
  | startTimeout
  /-- The fresh read behind it. -/
  | startFresh
  /-- The locked transaction at the top of `/stop`. -/
  | stopBegin
  | stopPublish
  | stopPoll
  /-- The `SELECT` of `/drain` on the deployment row. -/
  | drainBegin
  | drainPublish
  | drainPoll
  /-- The fresh read of `/drain` before its sync. -/
  | drainFresh
  /-- `status = 'running'`; the poll branch also clears `last_stopped_at`. -/
  | writeRunning (clear : Bool)
  | writeStopped
  | writeFailed
  | finished
deriving DecidableEq, Repr

/-- How the operation ends: it succeeds, it raises or hits its deadline, or a stop coalesces
    onto a command that is already published. -/
inductive Answer
  | ok
  | error
  | coalesced
deriving DecidableEq, Repr

/-- What the handlers publish. -/
inductive Command
  | start
  | stop
deriving DecidableEq, Repr

/-- A row of an earlier attempt: `status IN ('failed', 'stopped', 'stopping')`. -/
def isPriorRow (r : NodeRow) : Bool :=
  r.status == .failed || r.status == .stopped || r.status == .stopping

/-- `ready` or `running`. -/
def isUp (r : NodeRow) : Bool := r.status == .ready || r.status == .running

/-- The row `_poll_for_terminal` reads: the latest one that is up or not an earlier row. -/
def polledRow (db : Db) (prior : List ℕ) : Option NodeRow :=
  ((db.rows.zipIdx.filter fun p => isUp p.1 || !prior.contains p.2).map (·.1)).getLast?

/-- The status write of `/start-portfolio` for a node that is up. -/
def runningDep (d : Deployment) (clear : Bool) : Deployment :=
  { d.setStatus .running Status.running_ne_stopping with
    lastStoppedAt := if clear then none else d.lastStoppedAt }

/-- Its status write for a start that led to nothing. -/
def failedDep (d : Deployment) (now : ℕ) : Deployment :=
  { d.setStatus .failed Status.failed_ne_stopping with lastStoppedAt := some now }

/-- One operation of a handler: the table, the published commands and the handler
    afterwards. -/
def handlerStep (db : Db) (answer : Answer) (now : ℕ) :
    Handler → Option (Db × List Command × Handler)
  | .startUpsert =>
    if answer = .ok then some (db.setDep (apiStartDep db.dep now), [], .startLoad)
    else some (db, [], .finished)
  | .startLoad => some (db, [], .startDedup db.dep.status)
  | .startDedup loaded =>
    match db.rows.find? (·.status.isLive) with
    | some r =>
      some (db, [], if isUp r ∧ loaded ≠ .running then .writeRunning false else .finished)
    | none => some (db, [], .startSnapshot)
  | .startSnapshot =>
    if answer = .ok then
      some (db, [], .startPublish ((db.rows.zipIdx.filter fun p => isPriorRow p.1).map (·.2)))
    else some (db, [], .writeFailed)
  | .startPublish prior =>
    if answer = .ok then some (db, [.start], .startPoll prior) else some (db, [], .writeFailed)
  | .startPoll prior =>
    if answer = .ok then
      (polledRow db prior).bind fun r =>
        if isUp r then some (db, [], .writeRunning true)
        else if isTerminalRow r then some (db, [], .finished)
        -- the loop goes on
        else none
    else some (db, [], .startTimeout)
  | .startTimeout => some (db, [], if db.hasActive then .finished else .startFresh)
  | .startFresh => some (db, [], if db.dep.status.isStartup then .writeFailed else .finished)
  | .stopBegin =>
    match db.activeId with
    | some i => (db.write i (.apiStampActive now)).map fun db' => (db', [], .stopPublish)
    -- without an active row the handler does what the supervisor's stop does
    | none => (stopTxn "" now db).map fun out => (out.2, [], .finished)
  | .stopPublish =>
    match answer with
    | .ok => some (db, [.stop], .stopPoll)
    | .coalesced => some (db, [], .stopPoll)
    | .error => some (db, [], .finished)
  | .stopPoll =>
    if answer = .ok then
      if db.latest.any isTerminalRow then some (db, [], .writeStopped) else none
    else some (db, [], .finished)
  | .drainBegin => some (db, [], if db.dep.status.isLive then .drainPublish else .finished)
  | .drainPublish =>
    match answer with
    | .ok => some (db, [.stop], .drainPoll)
    | .coalesced => some (db, [], .drainPoll)
    | .error => some (db, [], .finished)
  | .drainPoll =>
    if answer = .ok then
      if db.latest.any isTerminalRow then some (db, [], .drainFresh) else none
    else some (db, [], .finished)
  | .drainFresh =>
    some (db, [], if db.dep.status = .stopped ∨ db.dep.status = .failed then .finished
      else .writeStopped)
  -- the writes below are unconditional updates by primary key
  | .writeRunning clear =>
    if answer = .ok then some (db.setDep (runningDep db.dep clear), [], .finished)
    else some (db, [], .finished)
  | .writeStopped =>
    if answer = .ok then some (db.setDep (stoppedDep db.dep now), [], .finished)
    else some (db, [], .finished)
  | .writeFailed =>
    if answer = .ok then some (db.setDep (failedDep db.dep now), [], .finished)
    else some (db, [], .finished)
  | .finished => none

/-! ### The system -/

/-- One deployment, its handlers and the commands the supervisor has not handled yet. -/
structure StatusSite where
  fleet : Fleet
  handlers : List Handler
  commands : List Command
deriving DecidableEq

/-- The endpoints. -/
inductive Endpoint
  | startPortfolio
  | stop
  | drain
deriving DecidableEq, Repr

/-- Where a request begins. -/
def Endpoint.entry : Endpoint → Handler
  | .startPortfolio => .startUpsert
  | .stop => .stopBegin
  | .drain => .drainBegin

/-- What happens next. -/
inductive StatusLabel
  | request (e : Endpoint)
  | handler (k : ℕ) (answer : Answer) (now : ℕ)
  /-- An exception leaves a handler. -/
  | raised (k : ℕ)
  /-- The supervisor acknowledges a command. -/
  | handled (i : ℕ)
  | fleet (a : FleetLabel)

/-- The label stands for a write of the API, which the handlers make here. -/
def isApiWrite : FleetLabel → Bool
  | .apiStart _ | .apiStatus _ _ => true
  | _ => false

/-- One step of the deployment on host `host`. -/
def statusStep (host : String) (policy : Option RestartPolicy) (s : StatusSite) :
    StatusLabel → Option StatusSite
  | .request e => some { s with handlers := s.handlers ++ [e.entry] }
  | .handler k answer now =>
    (s.handlers[k]?).bind fun hd =>
      (handlerStep s.fleet.db answer now hd).map fun out =>
        { fleet := { s.fleet with db := out.1 }
          handlers := s.handlers.set k out.2.2
          commands := s.commands ++ out.2.1 }
  | .raised k => some { s with handlers := s.handlers.set k .finished }
  | .handled i => some { s with commands := s.commands.eraseIdx i }
  | .fleet a =>
    if isApiWrite a then none
    else (fleetStep host policy s.fleet a).map fun f => { s with fleet := f }

/-- The deployment as a transition system. -/
def statusSystem (host : String) (policy : Option RestartPolicy) :
    TransitionSystem StatusSite StatusLabel where
  step := statusStep host policy

/-- A supervisor that has just come up, before the first request. -/
def StatusSite.initial (db : Db) : StatusSite :=
  { fleet := Fleet.initial db, handlers := [], commands := [] }

/-- All handlers have returned and no command is pending. -/
def StatusSite.quiet (s : StatusSite) : Prop :=
  (∀ hd ∈ s.handlers, hd = .finished) ∧ s.commands = []

/-! ### The property and the condition -/

/-- `running` only with an active row, `stopped` only without one. -/
structure StatusTrue (db : Db) : Prop where
  running : db.dep.status = .running → db.hasActive = true
  stopped : db.dep.status = .stopped → db.hasActive = false

/-- A write of a child that leaves the status true. -/
def childKeepsStatus (db : Db) (i : ℕ) : ChildAct → Bool
  | .selfWritePid _ | .markReady _ =>
    decide (db.dep.status ≠ .stopped) || (db.rows[i]?).all (·.isActive)
  | .markTerminal report _ => !report.clean || !db.otherActive i || !db.dep.status.isLive
  | .markRunning _ | .heartbeat _ => true

/-- The node-row write of a step of a spawn. -/
def spawnWrite : Pc → SpawnEvent → Option RowWrite
  | .phaseC pid, .phaseC true => some (.phaseC pid)
  | .markingFailed kind reason _ _, .commit true => some (.markFailed kind reason)
  | .terminalizing reason _, .commit true =>
    some (.terminalizeReservedRow .spawnFailedTransient reason)
  | _, _ => none

/-- The node-row write of a step of the supervisor or of a child. -/
def rowWrite (policy : Option RestartPolicy) (f : Fleet) : FleetLabel → Option (ℕ × RowWrite)
  | .spawn k ev =>
    (f.spawns[k]?).bind fun sp => (spawnWrite sp.pc ev).map fun w => (sp.rowId, w)
  | .child pid act =>
    (f.children[pid]?).bind fun c =>
      (childWrite pid c.phase act).map fun out => (c.rowId, out.1)
  | .reap now =>
    f.handle.bind fun pid =>
      (f.children[pid]?).map fun c => (c.rowId, .onChildExit c.exitCode policy.isSome now)
  | .sweep i w => some (i, w)
  | .watchdogFlush timeout => f.watchdog.head?.map fun p => (p.1, .watchdogFlush timeout p.2)
  | _ => none

/-- The step ends the active row. -/
def endsActive (policy : Option RestartPolicy) (f : Fleet) (a : FleetLabel) : Bool :=
  (rowWrite policy f a).any fun p => f.flips p.1 p.2

/-- The step activates a row: Phase A reserves one, or a child writes a row that has ended. -/
def activates (policy : Option RestartPolicy) (f : Fleet) : FleetLabel → Bool
  | .reserve req other => (phaseAGate f.db req other).isNone
  | a =>
    (rowWrite policy f a).any fun p =>
      p.2.isUnguarded && (f.db.rows[p.1]?).any fun r => !r.isActive

namespace Handler

/-- The handler has read a row that is up, and is about to commit `running`. -/
def awaitsRunning : Handler → Bool
  | .writeRunning _ => true
  | _ => false

/-- The handler has read the end of the latest row, and may commit `stopped`. -/
def awaitsStopped : Handler → Bool
  | .drainFresh | .writeStopped => true
  | _ => false

/-- The handler polls for the end of the latest row. -/
def pollsEnd : Handler → Bool
  | .stopPoll | .drainPoll => true
  | _ => false

end Handler

/-- A row before the latest one is active: its child has written it behind its end. -/
def olderActive (db : Db) : Bool := db.otherActive (db.rows.length - 1)

/-- The condition on a step of the fleet. -/
def fleetUndisturbed (policy : Option RestartPolicy) (s : StatusSite) (a : FleetLabel) : Bool :=
  (!s.handlers.any Handler.awaitsRunning || !endsActive policy s.fleet a) &&
    (!s.handlers.any Handler.awaitsStopped || !activates policy s.fleet a) &&
    match a with
    | .child pid act =>
      (s.fleet.children[pid]?).all fun c => childKeepsStatus s.fleet.db c.rowId act
    | _ => true

/-- The condition on a step. -/
def undisturbed (policy : Option RestartPolicy) (s : StatusSite) : StatusLabel → Bool
  | .handler k answer _ =>
    decide (answer ≠ .ok) || !(s.handlers[k]?).any Handler.pollsEnd || !olderActive s.fleet.db
  | .fleet a => fleetUndisturbed policy s a
  | _ => true

/-- Between a handler's last read and its commit no row write ends the active row and nothing
    activates a row, each where the handler has read the contrary; no poll reads the end of the
    latest row beside an older active one; and a child writes no status over that of its
    successor. -/
def Undisturbed (policy : Option RestartPolicy) (s : StatusSite) (a : StatusLabel) : Prop :=
  undisturbed policy s a = true

instance (policy : Option RestartPolicy) (s : StatusSite) (a : StatusLabel) :
    Decidable (Undisturbed policy s a) :=
  inferInstanceAs (Decidable (_ = true))

/-! ### The writes of the node rows -/

section Write

variable {db db' : Db} {i : ℕ} {w : RowWrite}

/-- A promoted row is active. -/
theorem isActive_of_promotable {r : NodeRow} (h : r.promotable = true) : r.isActive = true := by
  obtain ⟨_, hlive⟩ := Bool.and_eq_true_iff.mp h
  rw [NodeRow.isActive, Status.isActive_eq, hlive]
  rfl

/-- No other row is active beside an active one. -/
theorem otherActive_of_isActive {r : NodeRow} (hr : db.rows[i]? = some r)
    (ha : r.isActive = true) : db.otherActive i = false := by
  by_contra hother
  rw [Db.not_isActive_of_otherActive (by simpa using hother) hr] at ha
  cases ha

/-- A write that ends row `i` leaves no active row, unless another one was. -/
theorem hasActive_of_end {r : NodeRow} (hw : db.write i w = some db')
    (hr : db.rows[i]? = some r) (hend : (w.row (db.context i r) r).isActive = false)
    (hother : db.otherActive i = false) (hguard : w.isUnguarded = false) :
    db'.hasActive = false := by
  by_contra hact
  obtain ⟨j, r', hr', ha'⟩ := Db.hasActive_iff.mp (by simpa using hact)
  have hne : j ≠ i := by
    rintro rfl
    obtain rfl : w.row (db.context j r) r = r' := by
      simpa [Db.write_getElem?_self hw hr] using hr'
    rw [hend] at ha'
    cases ha'
  rcases Db.write_isActive hw hr' ha' with ⟨r₀, hr₀, ha₀⟩ | ⟨_, hug⟩
  · rw [Db.otherActive_iff.mpr ⟨j, r₀, hne, hr₀, ha₀⟩] at hother
    cases hother
  · rw [hguard] at hug
    cases hug

/-- A write that leaves the deployment alone, unless it re-activates a row of a stopped one. -/
theorem StatusTrue.write_same {r : NodeRow} (h : StatusTrue db) (hw : db.write i w = some db')
    (hr : db.rows[i]? = some r)
    (hself : w.isUnguarded = true → db.dep.status = .stopped →
      (db.rows[i]?).all (·.isActive) = true) (hd : db'.dep = db.dep) : StatusTrue db' := by
  constructor <;> rw [hd]
  · intro hrun
    rcases active_or_terminal_write hw (h.running hrun) with hact | hst | hst
    · exact hact
    · rw [hd, hrun] at hst
      cases hst
    · rw [hd, hrun] at hst
      cases hst
  · intro hst
    by_contra hact
    obtain ⟨j, r', hr', ha'⟩ := Db.hasActive_iff.mp (by simpa using hact)
    have hold : db.hasActive = true := by
      rcases Db.write_isActive hw hr' ha' with ⟨r₀, hr₀, ha₀⟩ | ⟨_, hug⟩
      · exact Db.hasActive_iff.mpr ⟨j, r₀, hr₀, ha₀⟩
      · exact Db.hasActive_iff.mpr ⟨i, r, hr, by simpa [hr] using hself hug hst⟩
    rw [h.stopped hst] at hold
    cases hold

/-- The promotion of `_mark_running`: the row is active before and after it. -/
theorem StatusTrue.promote {r : NodeRow} {now : ℕ} (h : StatusTrue db)
    (hw : db.write i (.markRunning now) = some db') (hr : db.rows[i]? = some r)
    (hp : r.promotable = true)
    (hdep : db'.dep = (RowWrite.markRunning now).dep (db.context i r) r db.dep) :
    StatusTrue db' := by
  have hact : db'.hasActive = true := by
    refine Db.hasActive_iff.mpr ⟨i, _, Db.write_getElem?_self hw hr, ?_⟩
    simp only [RowWrite.row, if_pos hp]
    rfl
  refine ⟨fun _ => hact, fun hstop => ?_⟩
  have hold : db.hasActive = true :=
    Db.hasActive_iff.mpr ⟨i, r, hr, isActive_of_promotable hp⟩
  have hdst : db.dep.status = .stopped := by
    rw [hdep] at hstop
    simp only [RowWrite.dep] at hstop
    split at hstop
    · cases hstop
    · exact hstop
  rw [h.stopped hdst] at hold
  cases hold

/-- **A node-row write keeps the status true**, unless it re-activates a row of a stopped
    deployment or reports a clean end beside another active row. -/
theorem StatusTrue.write (h : StatusTrue db) (hw : db.write i w = some db')
    (hself : w.isUnguarded = true → db.dep.status = .stopped →
      (db.rows[i]?).all (·.isActive) = true)
    (hend : ∀ report now, w = .markTerminal report now → report.clean = true →
      db.otherActive i = true → db.dep.status.isLive = false) : StatusTrue db' := by
  rcases Db.write_eq_some hw with ⟨_, rfl⟩ | ⟨r, hr, _, hdep⟩
  · exact h
  rcases RowWrite.dep_cases w (db.context i r) r db.dep with hd | ⟨clean, hd, hclean⟩ |
      ⟨now, rfl, hp⟩
  · exact h.write_same hw hr hself (hdep.trans hd)
  · rw [hd] at hdep
    by_cases hlive : db.dep.status.isLive = true
    · -- the sync fires: the deployment is `stopped` or `failed` now
      have hst := db.dep.syncTerminal_status clean
      refine ⟨fun hrun => ?_, fun hstop => ?_⟩
      · rw [hdep] at hrun
        rcases hst with hst | hst <;> rw [hst] at hrun <;> cases hrun
      · have hc : clean = true := by
          by_contra hnot
          have hfalse : clean = false := by simpa using hnot
          rw [hdep, hfalse, Deployment.syncTerminal, if_pos hlive] at hstop
          cases hstop
        rcases hclean hc with ⟨report, now, rfl, hrc⟩ | ⟨⟨e, p, n, rfl⟩, ha⟩
        · refine hasActive_of_end hw hr (RowWrite.row_markTerminal_isActive _ _ _ _) ?_ rfl
          by_contra hother
          rw [hend report now rfl hrc (by simpa using hother)] at hlive
          cases hlive
        · exact hasActive_of_end hw hr (RowWrite.row_onChildExit_isActive _ _ _ _ _)
            (otherActive_of_isActive hr ha) rfl
    · refine h.write_same hw hr hself ?_
      rw [hdep, Deployment.syncTerminal_of_not_isLive (by simpa using hlive)]
  · exact h.promote hw hr hp hdep

/-- A supervisor's write keeps the status true. -/
theorem StatusTrue.supervisorWrite (h : StatusTrue db) (hw : db.write i w = some db')
    (hno : w.isChildWrite = false) : StatusTrue db' := by
  refine h.write hw (fun hu => ?_) fun report now he => ?_
  · rw [RowWrite.isChildWrite_of_isUnguarded hu] at hno
    cases hno
  · rw [he] at hno
    cases hno

/-- So does a stop. -/
theorem StatusTrue.stop {host : String} {now : ℕ} {res : StopResult} (h : StatusTrue db)
    (hs : stopTxn host now db = some (res, db')) : StatusTrue db' := by
  rcases stopTxn_cases hs with ⟨j, _, _, _, _, _, hw⟩ | ⟨_, _, rfl⟩ | ⟨hina, _, hcase⟩
  · exact h.supervisorWrite hw rfl
  · exact h
  · rcases hcase with ⟨_, rfl⟩ | ⟨_, _, hw⟩ | ⟨_, _, rfl⟩
    · exact h
    · exact h.supervisorWrite hw rfl
    · -- without an active row `stopped` is true
      unfold stopPreActive
      split
      · refine ⟨fun hrun => ?_, fun _ => hina⟩
        cases hrun
      · exact h

/-- So does Phase A: it refuses a stopped deployment. -/
theorem StatusTrue.phaseA {policy : Option RestartPolicy} {req : SpawnRequest}
    {other : OtherStartup} {o : PhaseAOutcome} (h : StatusTrue db)
    (hA : Supervisor.phaseA policy db req other = some (o, db')) : StatusTrue db' := by
  rcases phaseA_cases hA with ⟨rfl, _⟩ | ⟨_, hgate, _, hrows, hdep⟩
  · exact h
  · have hne := (phaseAGate_eq_none hgate).1
    have hact : db'.hasActive = true := by
      refine Db.hasActive_iff.mpr ⟨db.rows.length, reservedRow policy req db.dep, ?_, ?_⟩
      · rw [hrows, List.getElem?_concat_length]
      · rw [NodeRow.isActive, reservedRow_status]
        rfl
    refine ⟨fun _ => hact, fun hstop => ?_⟩
    rw [hdep, reservedDep] at hstop
    split at hstop
    · cases hstop
    · exact absurd hstop hne

end Write

/-! ### The steps -/

section Step

variable {host : String} {policy : Option RestartPolicy} {s t : StatusSite} {a : StatusLabel}

/-- A status write replaces the status and leaves the rows alone. -/
theorem statusTrue_setDep {db : Db} {d : Deployment}
    (hrun : d.status = .running → db.hasActive = true)
    (hstop : d.status = .stopped → db.hasActive = false) : StatusTrue (db.setDep d) :=
  ⟨hrun, hstop⟩

/-- The upsert keeps a live status and revives a terminal one as `starting`. -/
theorem StatusTrue.upsert {db : Db} {now : ℕ} (h : StatusTrue db) :
    StatusTrue (db.setDep (apiStartDep db.dep now)) := by
  refine statusTrue_setDep (fun hrun => ?_) fun hstop => ?_
  · simp only [apiStartDep] at hrun
    split at hrun
    · exact h.running hrun
    · cases hrun
  · simp only [apiStartDep] at hstop
    split at hstop
    · exact h.stopped hstop
    · cases hstop

/-- The premise of a handler's write. -/
def handlerPremise (db : Db) (answer : Answer) : Handler → Prop
  | .writeRunning _ => answer = .ok → db.hasActive = true
  | .writeStopped => answer = .ok → db.hasActive = false
  | _ => True

/-- A handler whose premise still holds keeps the status true. -/
theorem StatusTrue.handler {db : Db} {answer : Answer} {now : ℕ} {hd : Handler}
    {out : Db × List Command × Handler} (h : StatusTrue db)
    (hprem : handlerPremise db answer hd) (hs : handlerStep db answer now hd = some out) :
    StatusTrue out.1 := by
  cases hd with
  | startUpsert =>
    simp only [handlerStep] at hs
    split at hs <;> obtain rfl := Option.some.inj hs
    · exact h.upsert
    · exact h
  | stopBegin =>
    simp only [handlerStep] at hs
    split at hs
    · obtain ⟨db', hw, rfl⟩ := Option.map_eq_some_iff.mp hs
      exact h.supervisorWrite hw rfl
    · obtain ⟨⟨res, db'⟩, hstop, rfl⟩ := Option.map_eq_some_iff.mp hs
      exact h.stop hstop
  | writeRunning clear =>
    simp only [handlerStep] at hs
    split at hs <;> obtain rfl := Option.some.inj hs
    · rename_i hok
      refine statusTrue_setDep (fun _ => hprem hok) fun hstop => ?_
      cases hstop
    · exact h
  | writeStopped =>
    simp only [handlerStep] at hs
    split at hs <;> obtain rfl := Option.some.inj hs
    · rename_i hok
      refine statusTrue_setDep (fun hrun => ?_) fun _ => hprem hok
      cases hrun
    · exact h
  | writeFailed =>
    simp only [handlerStep] at hs
    split at hs <;> obtain rfl := Option.some.inj hs
    · refine statusTrue_setDep (fun hrun => ?_) fun hstop => ?_
      · cases hrun
      · cases hstop
    · exact h
  -- the remaining operations only read
  | startPoll prior =>
    simp only [handlerStep] at hs
    split at hs
    · obtain ⟨r, _, hs⟩ := Option.bind_eq_some_iff.mp hs
      split at hs
      · obtain rfl := Option.some.inj hs
        exact h
      · split at hs
        · obtain rfl := Option.some.inj hs
          exact h
        · cases hs
    · obtain rfl := Option.some.inj hs
      exact h
  | stopPoll | drainPoll =>
    simp only [handlerStep] at hs
    split at hs
    · split at hs
      · obtain rfl := Option.some.inj hs
        exact h
      · cases hs
    · obtain rfl := Option.some.inj hs
      exact h
  | startDedup loaded | startSnapshot | startPublish prior | stopPublish | drainPublish =>
    simp only [handlerStep] at hs
    split at hs <;> obtain rfl := Option.some.inj hs <;> exact h
  | startLoad | startTimeout | startFresh | drainBegin | drainFresh =>
    obtain rfl := Option.some.inj hs
    exact h
  | finished => cases hs

/-- Which child acts write the row by primary key. -/
theorem childWrite_unguarded {pid : ℕ} {phase phase' : ChildPhase} {act : ChildAct}
    {w : RowWrite} (h : childWrite pid phase act = some (w, phase')) (hu : w.isUnguarded = true) :
    (∃ now, act = .selfWritePid now) ∨ ∃ now, act = .markReady now := by
  cases phase <;> cases act <;>
    simp only [childWrite, Option.some.injEq, Prod.mk.injEq, reduceCtorEq] at h <;>
    obtain ⟨rfl, _⟩ := h <;>
    first
      | exact Or.inl ⟨_, rfl⟩
      | exact Or.inr ⟨_, rfl⟩
      | cases hu

theorem childWrite_end {pid now : ℕ} {phase phase' : ChildPhase} {act : ChildAct}
    {report : TerminalReport}
    (h : childWrite pid phase act = some (.markTerminal report now, phase')) :
    act = .markTerminal report now := by
  cases phase <;> cases act <;>
    simp only [childWrite, Option.some.injEq, Prod.mk.injEq, reduceCtorEq, false_and,
      RowWrite.markTerminal.injEq] at h <;>
    obtain ⟨⟨rfl, rfl⟩, _⟩ := h <;> rfl

/-- A child's write under the condition. -/
theorem StatusTrue.child {db db' : Db} {pid : ℕ} {c : Child} {act : ChildAct} {w : RowWrite}
    {phase : ChildPhase} (h : StatusTrue db) (hC : childKeepsStatus db c.rowId act = true)
    (hout : childWrite pid c.phase act = some (w, phase))
    (hw : db.write c.rowId w = some db') : StatusTrue db' := by
  refine h.write hw ?_ ?_
  · intro hu hst
    rcases childWrite_unguarded hout hu with ⟨now, rfl⟩ | ⟨now, rfl⟩ <;>
      simpa [childKeepsStatus, hst] using hC
  · rintro report now rfl hclean hother
    obtain rfl := childWrite_end hout
    simpa [childKeepsStatus, hclean, hother] using hC

end Step

/-! ### The active row -/

section Active

variable {host : String} {policy : Option RestartPolicy} {f f' : Fleet} {b : FleetLabel}
  {db db' : Db}

/-- The write of a spawn. -/
theorem spawnStep_write {sp sp' : Spawn} {ev : SpawnEvent}
    (h : spawnStep db sp ev = some (db', sp')) :
    db' = db ∨ ∃ w, spawnWrite sp.pc ev = some w ∧ db.write sp.rowId w = some db' := by
  cases ev with
  | latch _ | lookup _ | factory _ | stopIntent _ =>
    simp only [spawnStep] at h
    obtain ⟨pc, _, heq⟩ := Option.map_eq_some_iff.mp h
    exact Or.inl (Prod.mk.inj heq).1.symm
  | start result =>
    simp only [spawnStep] at h
    split at h
    · split at h <;> exact Or.inl (Prod.mk.inj (Option.some.inj h)).1.symm
    · cases h
  | phaseC ok =>
    simp only [spawnStep] at h
    split at h
    · rename_i pid hpc
      split at h
      · rename_i hok
        obtain ⟨_, hw, heq⟩ := Option.map_eq_some_iff.mp h
        obtain ⟨rfl, -⟩ := Prod.mk.inj heq
        exact Or.inr ⟨_, by rw [hpc, hok]; rfl, hw⟩
      · exact Or.inl (Prod.mk.inj (Option.some.inj h)).1.symm
    · cases h
  | commit ok =>
    simp only [spawnStep] at h
    split at h
    · rename_i kind reason ret bestEffort hpc
      split at h
      · rename_i hok
        obtain ⟨_, hw, heq⟩ := Option.map_eq_some_iff.mp h
        obtain ⟨rfl, -⟩ := Prod.mk.inj heq
        exact Or.inr ⟨_, by rw [hpc, hok]; rfl, hw⟩
      · exact Or.inl (Prod.mk.inj (Option.some.inj h)).1.symm
    · rename_i reason ret hpc
      split at h
      · rename_i hok
        obtain ⟨_, hw, heq⟩ := Option.map_eq_some_iff.mp h
        obtain ⟨rfl, -⟩ := Prod.mk.inj heq
        exact Or.inr ⟨_, by rw [hpc, hok]; rfl, hw⟩
      · exact Or.inl (Prod.mk.inj (Option.some.inj h)).1.symm
    · cases h
  | leave =>
    simp only [spawnStep] at h
    split at h
    · exact Or.inl (Prod.mk.inj (Option.some.inj h)).1.symm
    · cases h
  | cancel =>
    simp only [spawnStep] at h
    split at h
    · exact Or.inl (Prod.mk.inj (Option.some.inj h)).1.symm
    · split at h
      · exact Or.inl (Prod.mk.inj (Option.some.inj h)).1.symm
      · cases h

/-- **What a step of the fleet does to the rows**: nothing, the write its label stands for, a
    Phase A or a stop. -/
theorem fleetStep_rowWrite (hapi : isApiWrite b = false)
    (hs : fleetStep host policy f b = some f') :
    f'.db = f.db ∨
      (∃ i w, rowWrite policy f b = some (i, w) ∧ f.db.write i w = some f'.db) ∨
      (∃ req other o, b = .reserve req other ∧ phaseA policy f.db req other = some (o, f'.db)) ∨
      ∃ now res, stopTxn host now f.db = some (res, f'.db) := by
  cases b with
  | spawn k ev =>
    obtain ⟨sp, hk, h⟩ := Option.bind_eq_some_iff.mp hs
    have hwrite : ∀ {out : Db × Spawn}, spawnStep f.db sp ev = some out → f'.db = out.1 →
        f'.db = f.db ∨
          ∃ i w, rowWrite policy f (.spawn k ev) = some (i, w) ∧ f.db.write i w = some f'.db := by
      intro out hout hdb
      rcases spawnStep_write hout with hsame | ⟨w, hw, hwrites⟩
      · exact Or.inl (hdb.trans hsame)
      · refine Or.inr ⟨sp.rowId, w, ?_, hdb ▸ hwrites⟩
        show (f.spawns[k]?).bind _ = _
        rw [hk, Option.bind_some, hw]
        rfl
    have hmoved : f'.db = f.db ∨
        ∃ i w, rowWrite policy f (.spawn k ev) = some (i, w) ∧ f.db.write i w = some f'.db := by
      split at h
      · split at h
        · obtain ⟨out, hout, rfl⟩ := Option.map_eq_some_iff.mp h
          exact hwrite hout rfl
        · cases h
      · obtain ⟨out, hout, rfl⟩ := Option.map_eq_some_iff.mp h
        exact hwrite hout rfl
    exact hmoved.imp id Or.inl
  | child pid act =>
    obtain ⟨c, out, hc, _, hout, hw⟩ := fleetStep_child hs
    refine Or.inr (Or.inl ⟨c.rowId, out.1, ?_, hw⟩)
    show (f.children[pid]?).bind _ = _
    rw [hc, Option.bind_some, hout]
    rfl
  | reap now =>
    obtain ⟨pid, hpid, h⟩ := Option.bind_eq_some_iff.mp hs
    obtain ⟨c, hc, h⟩ := Option.bind_eq_some_iff.mp h
    split at h
    · cases h
    · obtain ⟨db', hw, rfl⟩ := Option.map_eq_some_iff.mp h
      refine Or.inr (Or.inl ⟨c.rowId, .onChildExit c.exitCode policy.isSome now, ?_, hw⟩)
      show f.handle.bind _ = _
      rw [hpid, Option.bind_some, hc]
      rfl
  | sweep i w =>
    simp only [fleetStep] at hs
    split at hs
    · obtain ⟨db', hw, rfl⟩ := Option.map_eq_some_iff.mp hs
      exact Or.inr (Or.inl ⟨i, w, rfl, hw⟩)
    · cases hs
  | watchdogFlush timeout =>
    simp only [fleetStep] at hs
    split at hs
    · cases hs
    · rename_i i pid rest hwatch
      obtain ⟨db', hw, rfl⟩ := Option.map_eq_some_iff.mp hs
      refine Or.inr (Or.inl ⟨i, .watchdogFlush timeout pid, ?_, hw⟩)
      show f.watchdog.head?.map _ = _
      rw [hwatch]
      rfl
  | apiStart now | apiStatus st hst => cases hapi
  | reserve req other =>
    simp only [fleetStep] at hs
    split at hs
    · obtain ⟨⟨o, db'⟩, hA, rfl⟩ := Option.map_eq_some_iff.mp hs
      exact Or.inr (Or.inr (Or.inl ⟨req, other, o, rfl, by rw [afterPhaseA_db]; exact hA⟩))
    · cases hs
  | stop now =>
    obtain ⟨res, hstop⟩ := fleetStep_stop hs
    exact Or.inr (Or.inr (Or.inr ⟨now, res, hstop⟩))
  | childExit pid code =>
    obtain ⟨c, _, h⟩ := Option.bind_eq_some_iff.mp hs
    split at h
    · obtain rfl := Option.some.inj h
      exact Or.inl rfl
    · cases h
  | watchdogSelect i cutoff =>
    obtain ⟨r, _, h⟩ := Option.bind_eq_some_iff.mp hs
    split at h
    · obtain rfl := Option.some.inj h
      exact Or.inl rfl
    · cases h
  | stopSignal =>
    simp only [fleetStep] at hs
    split at hs
    · cases hs
    · obtain rfl := Option.some.inj hs
      exact Or.inl rfl

/-- A stop neither ends nor activates a row. -/
theorem hasActive_stopTxn {host : String} {now : ℕ} {res : StopResult}
    (h : stopTxn host now db = some (res, db')) : db'.hasActive = db.hasActive := by
  rw [Bool.eq_iff_iff, Db.hasActive_iff, Db.hasActive_iff]
  constructor
  · rintro ⟨i, r', hr', ha'⟩
    have hlt : i < db.rows.length := by
      rw [← stopTxn_length h]
      exact (List.getElem?_eq_some_iff.mp hr').1
    obtain ⟨r'', hr'', hsame, -⟩ := stopTxn_row h (List.getElem?_eq_getElem hlt)
    obtain rfl := Option.some.inj (hr'.symm.trans hr'')
    exact ⟨i, _, List.getElem?_eq_getElem hlt, hsame.symm.trans ha'⟩
  · rintro ⟨i, r, hr, ha⟩
    obtain ⟨r', hr', hsame, -⟩ := stopTxn_row h hr
    exact ⟨i, r', hr', hsame.trans ha⟩

/-- A step that ends no active row keeps one. -/
theorem hasActive_of_not_endsActive (hapi : isApiWrite b = false)
    (hs : fleetStep host policy f b = some f') (hend : endsActive policy f b = false)
    (hact : f.db.hasActive = true) : f'.db.hasActive = true := by
  rcases fleetStep_rowWrite hapi hs with hdb | ⟨i, w, hwrite, hw⟩ | ⟨req, other, o, -, hA⟩ |
      ⟨now, res, hstop⟩
  · rw [hdb]
    exact hact
  · obtain ⟨j, r, hr, ha⟩ := Db.hasActive_iff.mp hact
    rcases Db.write_getElem?_cases hw hr with hr' | ⟨rfl, hr'⟩
    · exact Db.hasActive_iff.mpr ⟨j, r, hr', ha⟩
    · -- the write is to the active row, and does not end it
      refine Db.hasActive_iff.mpr ⟨j, _, hr', ?_⟩
      have hkeeps : f.flips j w = false := by
        simpa only [endsActive, hwrite, Option.any_some] using hend
      simpa [Fleet.flips, hr, ha] using hkeeps
  · rcases phaseA_cases hA with ⟨hsame, -⟩ | ⟨-, hgate, -⟩
    · rw [hsame]
      exact hact
    · rw [(phaseAGate_eq_none hgate).2.2.1] at hact
      cases hact
  · rw [hasActive_stopTxn hstop]
    exact hact

theorem activates_of_rowWrite {i : ℕ} {w : RowWrite} (hwrite : rowWrite policy f b = some (i, w)) :
    activates policy f b
      = (w.isUnguarded && (f.db.rows[i]?).any fun r => !r.isActive) := by
  have hany : (rowWrite policy f b).any (fun p : ℕ × RowWrite =>
      p.2.isUnguarded && (f.db.rows[p.1]?).any fun r => !r.isActive)
        = (w.isUnguarded && (f.db.rows[i]?).any fun r => !r.isActive) := by
    rw [hwrite]
    rfl
  cases b with
  | reserve req other => cases hwrite
  | _ => exact hany

/-- A step that activates no row leaves none active. -/
theorem not_hasActive_of_not_activates (hapi : isApiWrite b = false)
    (hs : fleetStep host policy f b = some f') (hnew : activates policy f b = false)
    (hina : f.db.hasActive = false) : f'.db.hasActive = false := by
  rcases fleetStep_rowWrite hapi hs with hdb | ⟨i, w, hwrite, hw⟩ | ⟨req, other, o, rfl, hA⟩ |
      ⟨now, res, hstop⟩
  · rw [hdb]
    exact hina
  · by_contra hact
    obtain ⟨j, r', hr', ha'⟩ := Db.hasActive_iff.mp (by simpa using hact)
    rcases Db.write_isActive hw hr' ha' with ⟨r₀, hr₀, ha₀⟩ | ⟨rfl, hug⟩
    · rw [Db.hasActive_iff.mpr ⟨j, r₀, hr₀, ha₀⟩] at hina
      cases hina
    · -- the row that the child writes had ended
      have hlt : j < f.db.rows.length := by
        rw [← Db.write_length hw]
        exact (List.getElem?_eq_some_iff.mp hr').1
      have hr := List.getElem?_eq_getElem hlt
      rw [activates_of_rowWrite hwrite, hug, hr] at hnew
      have hold : (f.db.rows[j]).isActive = true := by simpa using hnew
      rw [Db.hasActive_iff.mpr ⟨j, _, hr, hold⟩] at hina
      cases hina
  · rcases phaseA_cases hA with ⟨hsame, -⟩ | ⟨-, hgate, -⟩
    · rw [hsame]
      exact hina
    · simp [activates, hgate] at hnew
  · rw [hasActive_stopTxn hstop]
    exact hina

end Active

/-! ### The handlers' reads -/

/-- What the handlers have read still holds. -/
structure Backed (s : StatusSite) : Prop where
  status : StatusTrue s.fleet.db
  running : ∀ hd ∈ s.handlers, hd.awaitsRunning = true → s.fleet.db.hasActive = true
  stopped : ∀ hd ∈ s.handlers, hd.awaitsStopped = true → s.fleet.db.hasActive = false

section Handlers

variable {db : Db} {answer : Answer} {now : ℕ} {hd : Handler} {out : Db × List Command × Handler}

/-- No operation of a handler ends or activates a row. -/
theorem hasActive_handlerStep (hs : handlerStep db answer now hd = some out) :
    out.1.hasActive = db.hasActive := by
  cases hd with
  | startUpsert | writeRunning clear | writeStopped | writeFailed =>
    simp only [handlerStep] at hs
    split at hs <;> obtain rfl := Option.some.inj hs <;> rfl
  | stopBegin =>
    simp only [handlerStep] at hs
    split at hs
    · rename_i i hi
      obtain ⟨db', hw, rfl⟩ := Option.map_eq_some_iff.mp hs
      obtain ⟨r, hr, ha⟩ := Db.activeId_eq_some hi
      rw [Db.hasActive_iff.mpr ⟨i, r, hr, ha⟩]
      refine Db.hasActive_iff.mpr ⟨i, _, Db.write_getElem?_self hw hr, ?_⟩
      simp only [RowWrite.row]
      split <;> exact ha
    · obtain ⟨⟨res, db'⟩, hstop, rfl⟩ := Option.map_eq_some_iff.mp hs
      exact hasActive_stopTxn hstop
  | startPoll prior =>
    simp only [handlerStep] at hs
    split at hs
    · obtain ⟨r, _, hs⟩ := Option.bind_eq_some_iff.mp hs
      split at hs
      · obtain rfl := Option.some.inj hs
        rfl
      · split at hs
        · obtain rfl := Option.some.inj hs
          rfl
        · cases hs
    · obtain rfl := Option.some.inj hs
      rfl
  | stopPoll | drainPoll =>
    simp only [handlerStep] at hs
    split at hs
    · split at hs
      · obtain rfl := Option.some.inj hs
        rfl
      · cases hs
    · obtain rfl := Option.some.inj hs
      rfl
  | startDedup loaded | startSnapshot | startPublish prior | stopPublish | drainPublish =>
    simp only [handlerStep] at hs
    split at hs <;> obtain rfl := Option.some.inj hs <;> rfl
  | startLoad | startTimeout | startFresh | drainBegin | drainFresh =>
    obtain rfl := Option.some.inj hs
    rfl
  | finished => cases hs

/-- A row that is up is active. -/
theorem isActive_of_isUp {r : NodeRow} (h : isUp r = true) : r.isActive = true := by
  unfold isUp at h
  rw [NodeRow.isActive]
  revert h
  cases r.status <;> decide

/-- A handler that is about to commit `running` has just read an active row. -/
theorem hasActive_of_awaitsRunning (hs : handlerStep db answer now hd = some out)
    (h : out.2.2.awaitsRunning = true) : db.hasActive = true := by
  cases hd with
  | startDedup loaded =>
    simp only [handlerStep] at hs
    split at hs
    · rename_i r hr
      obtain rfl := Option.some.inj hs
      dsimp only at h
      split at h
      · rename_i hup
        exact List.any_eq_true.mpr ⟨r, List.mem_of_find?_eq_some hr, isActive_of_isUp hup.1⟩
      · cases h
    · obtain rfl := Option.some.inj hs
      cases h
  | startPoll prior =>
    simp only [handlerStep] at hs
    split at hs
    · obtain ⟨r, hr, hs⟩ := Option.bind_eq_some_iff.mp hs
      split at hs
      · rename_i hup
        obtain ⟨⟨r', i⟩, hmem, rfl⟩ := List.mem_map.mp (List.mem_of_getLast? hr)
        have hrow := List.mem_zipIdx_iff_getElem?.mp (List.mem_filter.mp hmem).1
        exact Db.hasActive_iff.mpr ⟨i, r', hrow, isActive_of_isUp hup⟩
      · split at hs
        · obtain rfl := Option.some.inj hs
          cases h
        · cases hs
    · obtain rfl := Option.some.inj hs
      cases h
  | startUpsert | writeRunning clear | writeStopped | writeFailed =>
    simp only [handlerStep] at hs
    split at hs <;> obtain rfl := Option.some.inj hs <;> cases h
  | stopBegin =>
    simp only [handlerStep] at hs
    split at hs <;> obtain ⟨_, _, rfl⟩ := Option.map_eq_some_iff.mp hs <;> cases h
  | stopPoll | drainPoll =>
    simp only [handlerStep] at hs
    split at hs
    · split at hs
      · obtain rfl := Option.some.inj hs
        cases h
      · cases hs
    · obtain rfl := Option.some.inj hs
      cases h
  | startSnapshot | startPublish prior | stopPublish | drainPublish =>
    simp only [handlerStep] at hs
    split at hs <;> obtain rfl := Option.some.inj hs <;> cases h
  | startLoad =>
    obtain rfl := Option.some.inj hs
    cases h
  | startTimeout | startFresh | drainBegin | drainFresh =>
    obtain rfl := Option.some.inj hs
    dsimp only at h
    split at h <;> cases h
  | finished => cases hs

/-- A handler that may commit `stopped` has just read the end of the latest row, or has read it
    before. -/
theorem pollsEnd_of_awaitsStopped (hs : handlerStep db answer now hd = some out)
    (h : out.2.2.awaitsStopped = true) :
    hd.awaitsStopped = true ∨
      (hd.pollsEnd = true ∧ answer = .ok ∧ db.latest.any isTerminalRow = true) := by
  cases hd with
  | stopPoll | drainPoll =>
    simp only [handlerStep] at hs
    split at hs
    · rename_i hok
      split at hs
      · rename_i hend
        exact Or.inr ⟨rfl, hok, hend⟩
      · cases hs
    · obtain rfl := Option.some.inj hs
      cases h
  | drainFresh | writeStopped => exact Or.inl rfl
  | startDedup loaded =>
    simp only [handlerStep] at hs
    split at hs
    · obtain rfl := Option.some.inj hs
      dsimp only at h
      split at h <;> cases h
    · obtain rfl := Option.some.inj hs
      cases h
  | startPoll prior =>
    simp only [handlerStep] at hs
    split at hs
    · obtain ⟨r, hr, hs⟩ := Option.bind_eq_some_iff.mp hs
      split at hs
      · obtain rfl := Option.some.inj hs
        cases h
      · split at hs
        · obtain rfl := Option.some.inj hs
          cases h
        · cases hs
    · obtain rfl := Option.some.inj hs
      cases h
  | startUpsert | writeRunning clear | writeFailed =>
    simp only [handlerStep] at hs
    split at hs <;> obtain rfl := Option.some.inj hs <;> cases h
  | stopBegin =>
    simp only [handlerStep] at hs
    split at hs <;> obtain ⟨_, _, rfl⟩ := Option.map_eq_some_iff.mp hs <;> cases h
  | startSnapshot | startPublish prior | stopPublish | drainPublish =>
    simp only [handlerStep] at hs
    split at hs <;> obtain rfl := Option.some.inj hs <;> cases h
  | startLoad =>
    obtain rfl := Option.some.inj hs
    cases h
  | startTimeout | startFresh | drainBegin =>
    obtain rfl := Option.some.inj hs
    dsimp only at h
    split at h <;> cases h
  | finished => cases hs

/-- Where the latest row has ended and no older one is active, none is. -/
theorem not_hasActive_of_latest (hend : db.latest.any isTerminalRow = true)
    (holder : olderActive db = false) : db.hasActive = false := by
  by_contra hact
  obtain ⟨i, r, hr, ha⟩ := Db.hasActive_iff.mp (by simpa using hact)
  have hlatest : i = db.rows.length - 1 := by
    by_contra hne
    rw [olderActive, Db.otherActive_iff.mpr ⟨i, r, hne, hr, ha⟩] at holder
    cases holder
  subst hlatest
  rw [Db.latest_eq_getElem?, hr] at hend
  have hterminal : isTerminalRow r = true := hend
  rw [NodeRow.isActive] at ha
  unfold isTerminalRow at hterminal
  revert ha hterminal
  cases r.status <;> decide

end Handlers

section Run

variable {host : String} {policy : Option RestartPolicy} {s t : StatusSite} {a : StatusLabel}

/-- **A handler's operation.** -/
theorem Backed.handler {k now : ℕ} {answer : Answer} (h : Backed s)
    (hC : Undisturbed policy s (.handler k answer now))
    (hs : statusStep host policy s (.handler k answer now) = some t) : Backed t := by
  obtain ⟨hd, hk, hs⟩ := Option.bind_eq_some_iff.mp hs
  obtain ⟨out, hout, rfl⟩ := Option.map_eq_some_iff.mp hs
  have hmem : hd ∈ s.handlers := List.mem_of_getElem? hk
  have hsame := hasActive_handlerStep hout
  refine ⟨h.status.handler ?_ hout, fun hd' hmem' hawaits => ?_, fun hd' hmem' hawaits => ?_⟩
  · -- its read still holds
    cases hd with
    | writeRunning clear => exact fun _ => h.running _ hmem rfl
    | writeStopped => exact fun _ => h.stopped _ hmem rfl
    | _ => trivial
  · rcases List.mem_or_eq_of_mem_set hmem' with hold | rfl
    · exact hsame.trans (h.running _ hold hawaits)
    · exact hsame.trans (hasActive_of_awaitsRunning hout hawaits)
  · rcases List.mem_or_eq_of_mem_set hmem' with hold | rfl
    · exact hsame.trans (h.stopped _ hold hawaits)
    · refine hsame.trans ?_
      rcases pollsEnd_of_awaitsStopped hout hawaits with hbefore | ⟨hpolls, rfl, hend⟩
      · exact h.stopped _ hmem hbefore
      · refine not_hasActive_of_latest hend ?_
        have hC' : undisturbed policy s (.handler k .ok now) = true := hC
        simpa [undisturbed, hk, hpolls] using hC'

/-- **A step of the supervisor or of a child.** -/
theorem Backed.fleet {b : FleetLabel} (h : Backed s) (hC : Undisturbed policy s (.fleet b))
    (hs : statusStep host policy s (.fleet b) = some t) : Backed t := by
  simp only [statusStep] at hs
  split at hs
  · cases hs
  rename_i hapi
  have hapi' : isApiWrite b = false := by simpa using hapi
  obtain ⟨f, hstep, rfl⟩ := Option.map_eq_some_iff.mp hs
  have hC' : fleetUndisturbed policy s b = true := hC
  simp only [fleetUndisturbed, Bool.and_eq_true] at hC'
  obtain ⟨⟨hends, hactivates⟩, hchild⟩ := hC'
  refine ⟨?_, fun hd hmem hawaits => ?_, fun hd hmem hawaits => ?_⟩
  · cases fleetStep_txn hstep with
    | none hdb => exact hdb ▸ h.status
    | supervisor i w hno hw => exact h.status.supervisorWrite hw hno
    | child pid act c w phase hc _ hout hw =>
      simp only [hc, Option.all_some] at hchild
      exact h.status.child hchild hout hw
    | phaseA req other o _ hA => exact h.status.phaseA hA
    | stop now res hstop => exact h.status.stop hstop
    | apiStart now _ => exact absurd rfl hapi
    | apiStatus st hst _ => exact absurd rfl hapi
  · have hany : s.handlers.any Handler.awaitsRunning = true :=
      List.any_eq_true.mpr ⟨hd, hmem, hawaits⟩
    refine hasActive_of_not_endsActive hapi' hstep ?_ (h.running hd hmem hawaits)
    simpa [hany] using hends
  · have hany : s.handlers.any Handler.awaitsStopped = true :=
      List.any_eq_true.mpr ⟨hd, hmem, hawaits⟩
    refine not_hasActive_of_not_activates hapi' hstep ?_ (h.stopped hd hmem hawaits)
    simpa [hany] using hactivates

/-- **The step lemma.** -/
theorem Backed.step (h : Backed s) (hC : Undisturbed policy s a)
    (hs : statusStep host policy s a = some t) : Backed t := by
  cases a with
  | request e =>
    obtain rfl := Option.some.inj hs
    refine ⟨h.status, fun hd hmem hawaits => ?_, fun hd hmem hawaits => ?_⟩
    · rcases List.mem_append.mp hmem with hold | hnew
      · exact h.running hd hold hawaits
      · rw [List.mem_singleton.mp hnew] at hawaits
        cases e <;> cases hawaits
    · rcases List.mem_append.mp hmem with hold | hnew
      · exact h.stopped hd hold hawaits
      · rw [List.mem_singleton.mp hnew] at hawaits
        cases e <;> cases hawaits
  | raised k =>
    obtain rfl := Option.some.inj hs
    refine ⟨h.status, fun hd hmem hawaits => ?_, fun hd hmem hawaits => ?_⟩
    · rcases List.mem_or_eq_of_mem_set hmem with hold | rfl
      · exact h.running hd hold hawaits
      · cases hawaits
    · rcases List.mem_or_eq_of_mem_set hmem with hold | rfl
      · exact h.stopped hd hold hawaits
      · cases hawaits
  | handled i =>
    obtain rfl := Option.some.inj hs
    exact ⟨h.status, h.running, h.stopped⟩
  | handler k answer now => exact h.handler hC hs
  | fleet b => exact h.fleet hC hs

/-- **The deployment status is true.**  In every run in which no row write ends the active row
    between a handler's last read and its commit of `running`, nothing activates a row between the
    last read and the commit of `stopped`, no poll succeeds beside an older active row, and no child
    re-activates a row of a stopped deployment or reports a clean end beside another active row, the
    status is `running` only with an active row and `stopped` only without one, in every state. -/
theorem status_true_of_undisturbed {db : Db} {as : List StatusLabel}
    (h : Path (statusSystem host policy) (Undisturbed policy) (StatusSite.initial db) as t)
    (h0 : StatusTrue db) : StatusTrue t.fleet.db := by
  have hinitial : Backed (StatusSite.initial db) :=
    ⟨h0, fun _ hmem => absurd hmem List.not_mem_nil, fun _ hmem => absurd hmem List.not_mem_nil⟩
  have hbacked : Backed t := h.invariant (fun _ _ _ hi hC hs => hi.step hC hs) hinitial
  exact hbacked.status

end Run

/-! ### A start and the end of its node -/

/-- A start is requested and published, the node comes up and the handler reads its row. -/
def startToPoll : List StatusLabel :=
  List.flatten
    [[.request .startPortfolio, .handler 0 .ok 1, .handler 0 .ok 1, .handler 0 .ok 1,
        .handler 0 .ok 1, .handler 0 .ok 1],
      (.reserve (startRequest 2) .none :: launch 0 0).map .fleet,
      [.fleet (.child 0 (.selfWritePid 3)), .fleet (.child 0 (.markReady 4)),
        .fleet (.child 0 (.markRunning 5)), .handled 0, .handler 0 .ok 6]]

/-- The node ends before the handler's write commits. -/
def endBeforeWrite : List StatusLabel :=
  startToPoll.append
    [.fleet (.child 0 (.markTerminal ⟨true, .none, none, 0⟩ 7)),
      .fleet (.childExit 0 (some 0)), .fleet (.reap 8), .handler 0 .ok 9]

/-- **The slip.**  The handler writes `running` over the end of its node. -/
theorem status_true_fails :
    ¬∀ (as : List StatusLabel) (t : StatusSite),
      Path (statusSystem "h" none) anyStep (StatusSite.initial queuedDb) as t → t.quiet →
        StatusTrue t.fleet.db := by
  intro h
  obtain ⟨t, hrun, hhandlers, hcommands, hst, hina⟩ :
      ∃ t, (statusSystem "h" none).run (StatusSite.initial queuedDb) endBeforeWrite = some t ∧
        t.handlers = [.finished] ∧ t.commands = [] ∧ t.fleet.db.dep.status = .running ∧
        t.fleet.db.hasActive = false :=
    ⟨_, rfl, rfl, rfl, rfl, rfl⟩
  have hquiet : t.quiet := ⟨by simp [hhandlers], hcommands⟩
  have hact := (h endBeforeWrite t (.of_run hrun) hquiet).running hst
  rw [hina] at hact
  cases hact

/-- The same start when the write commits first. -/
def endAfterWrite : List StatusLabel :=
  startToPoll.append
    [.handler 0 .ok 7, .fleet (.child 0 (.markTerminal ⟨true, .none, none, 0⟩ 8)),
      .fleet (.childExit 0 (some 0)), .fleet (.reap 9)]

/-- Then the end of the node has the last word. -/
theorem status_true_after_end :
    ∃ t, Path (statusSystem "h" none) (Undisturbed none) (StatusSite.initial queuedDb)
        endAfterWrite t ∧
      t.quiet ∧ t.fleet.db.dep.status = .stopped ∧ t.fleet.db.hasActive = false := by
  obtain ⟨t, hrun, hhandlers, hcommands, hst⟩ :
      ∃ t, (statusSystem "h" none).runWhere (Undisturbed none) (StatusSite.initial queuedDb)
          endAfterWrite = some t ∧
        t.handlers = [.finished] ∧ t.commands = [] ∧ t.fleet.db.dep.status = .stopped :=
    ⟨_, rfl, rfl, rfl, rfl⟩
  have hpath := Path.of_runWhere hrun
  have hstart : StatusTrue queuedDb := by
    refine ⟨fun hrun => ?_, fun hstop => ?_⟩
    · cases hrun
    · cases hstop
  exact ⟨t, hpath, ⟨by simp [hhandlers], hcommands⟩, hst,
    (status_true_of_undisturbed hpath hstart).stopped hst⟩

end Msai.Api
