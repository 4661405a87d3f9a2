import Msai.Supervisor.Transactions

namespace Msai.Supervisor

open Msai.Live

/-!
# One spawn after its reservation (`FleetRouter._phase_b_spawn_guarded`)

Phase A has committed a `starting` row.  From there the call reads the two halt latches,
builds the payload, reads the latches again, reads the stop intent, starts the process,
installs its handle and records its pid (Phase C).  Every `await` is a point where other
transactions commit and where the task can be cancelled, so the call is a state machine:

* `Pc` — the await the task stands at;
* `SpawnEvent` — what the environment answers there;
* `spawnStep` — the step of the call, on its own record and on the table;
* `SpawnEffect`, `spawnStep_effect` — everything a step can do.
-/

/-- Answer of `redis.exists` on a halt latch. -/
inductive Latch
  | clear
  | set
  | raises (exc : String)
deriving DecidableEq, Repr

/-- Errors the payload factory raises and `_phase_b_spawn_guarded` treats as permanent. -/
inductive PermanentError
  | registryMiss
  | registryIncomplete
  | unsupportedAssetClass
  | ambiguousRegistry
  | otherPermanent
deriving DecidableEq, Repr

/-- The failure kind of a permanent factory error. -/
def PermanentError.kind : PermanentError → FailureKind
  | .registryMiss => .registryMiss
  | .registryIncomplete => .registryIncomplete
  | .unsupportedAssetClass => .unsupportedAssetClass
  | .ambiguousRegistry => .ambiguousRegistry
  | .otherPermanent => .spawnFailedPermanent

/-- Result of the payload factory.  A resolver error brings its own message. -/
inductive FactoryResult
  | ok
  | permanent (error : PermanentError) (resolverMessage : Option String) (exc : String)
  | transient (exc : String)
deriving DecidableEq, Repr

/-- The `(ack, process_started)` pair; `none` when the call raised. -/
abbrev SpawnReturn := Option (Bool × Bool)

/-- Where the spawn task stands. -/
inductive Pc
  | haltCheck
  | accountLookup
  | accountHaltCheck (account : String)
  | payloadFactory
  | haltRecheck
  | accountHaltRecheck (account : String)
  | stopIntentGate
  | processStart
  | phaseC (pid : ℕ)
  /-- Inside `_mark_failed`; `bestEffort` when the call site swallows its errors. -/
  | markingFailed (kind : FailureKind) (reason : String) (ret : Bool × Bool) (bestEffort : Bool)
  /-- Inside `_terminalize_reserved_row`; `none` when a cancellation is re-raised after it. -/
  | terminalizing (reason : String) (ret : SpawnReturn)
  /-- The clean-up has committed, the call has not returned yet. -/
  | leaving (ret : SpawnReturn)
  | finished (ret : SpawnReturn)
deriving DecidableEq, Repr

namespace Pc

/-- The task may still start a process. -/
def isPreStart : Pc → Bool
  | .haltCheck | .accountLookup | .accountHaltCheck _ | .payloadFactory | .haltRecheck
  | .accountHaltRecheck _ | .stopIntentGate | .processStart => true
  | _ => false

/-- A failure clean-up is under way. -/
def isCleanup : Pc → Bool
  | .markingFailed _ _ _ _ | .terminalizing _ _ => true
  | _ => false

/-- No read is left: the call is in its last clean-up, leaving, or over. -/
def isSettled : Pc → Bool
  | .terminalizing _ _ | .leaving _ | .finished _ => true
  | _ => false

theorem isPreStart_of_isSettled {pc : Pc} (h : pc.isSettled = true) : pc.isPreStart = false := by
  cases pc <;> first | rfl | cases h

/-- The await can be cancelled before a handle is installed.  A second cancellation, inside
    the clean-up of the first, is not considered; `process.start()` is not an await. -/
def isCancellable : Pc → Bool
  | .haltCheck | .accountLookup | .accountHaltCheck _ | .payloadFactory | .haltRecheck
  | .accountHaltRecheck _ | .stopIntentGate => true
  | .markingFailed _ _ _ _ => true
  | .terminalizing _ (some _) => true
  | .leaving (some _) => true
  | _ => false

end Pc

/-- One call of `spawn_with_outcome` that got a row id. -/
structure Spawn where
  /-- The reserved row. -/
  rowId : ℕ
  /-- Where the call stands. -/
  pc : Pc
  /-- `deployment_account_id`, once it has been looked up. -/
  account : Option String
  /-- Pid of the child whose handle was installed. -/
  child : Option ℕ
  /-- `process.terminate()` was called on the child. -/
  terminated : Bool
deriving DecidableEq, Repr

/-- The call right after Phase A. -/
def Spawn.reserved (rowId : ℕ) : Spawn :=
  { rowId := rowId, pc := .haltCheck, account := none, child := none, terminated := false }

/-- What the environment answers at an await. -/
inductive SpawnEvent
  | latch (answer : Latch)
  /-- `_account_id_for`; `some exc` when it raises. -/
  | lookup (exc : Option String)
  | factory (result : FactoryResult)
  /-- `_latest_stop_requested_at`; an unreadable intent counts as a stop. -/
  | stopIntent (raises : Bool)
  /-- `process.start()`: the pid, or the text of its exception. -/
  | start (result : Except String ℕ)
  | phaseC (ok : Bool)
  /-- The write of the clean-up under way. -/
  | commit (ok : Bool)
  | leave
  | cancel
deriving DecidableEq

namespace Spawn

/-- The same call at another await. -/
def goto (sp : Spawn) (pc : Pc) : Spawn := { sp with pc := pc }

@[simp] theorem goto_rowId (sp : Spawn) (pc : Pc) : (sp.goto pc).rowId = sp.rowId := rfl
@[simp] theorem goto_pc (sp : Spawn) (pc : Pc) : (sp.goto pc).pc = pc := rfl
@[simp] theorem goto_child (sp : Spawn) (pc : Pc) : (sp.goto pc).child = sp.child := rfl
@[simp] theorem goto_terminated (sp : Spawn) (pc : Pc) :
    (sp.goto pc).terminated = sp.terminated := rfl

/-- `return True, False` behind a `_mark_failed`. -/
def ackAndDrop : Bool × Bool := (true, false)

/-- The account-latch read that failed, before and after the payload factory. -/
def lookupFailed (stage exc : String) : Pc :=
  .markingFailed .spawnFailedTransient (stage ++ "account-halt lookup failed: " ++ exc) ackAndDrop
    true

/-- The next await after the answer to a halt latch. -/
def afterLatch (onClear onSet onRaise : Pc) : Latch → Pc
  | .clear => onClear
  | .set => onSet
  | .raises _ => onRaise

/-- The next await after the payload factory. -/
def afterFactory : FactoryResult → Pc
  | .ok => .haltRecheck
  | .permanent error msg exc =>
    .markingFailed error.kind (msg.getD ("payload factory failed (permanent): " ++ exc)) ackAndDrop
      false
  | .transient exc =>
    .markingFailed .spawnFailedTransient ("payload factory failed (transient): " ++ exc)
      (false, false) true

/-- The steps that only read: where the call goes next. -/
def nextPc (db : Db) (sp : Spawn) : SpawnEvent → Option Pc
  | .latch answer =>
    match sp.pc with
    -- the two fleet-latch reads are not wrapped: an exception leaves the call
    | .haltCheck =>
      some (afterLatch .accountLookup
        (.markingFailed .haltActive "blocked by halt flag" ackAndDrop false) (.finished none)
        answer)
    | .accountHaltCheck a =>
      match answer with
      | .clear => some .payloadFactory
      | .set =>
        some (.markingFailed .accountHaltActive
          ("blocked by account halt latch for account_id=" ++ a) ackAndDrop false)
      | .raises exc => some (lookupFailed "" exc)
    | .haltRecheck =>
      some (afterLatch
        (match sp.account with
          | none => .stopIntentGate
          | some a => .accountHaltRecheck a)
        (.markingFailed .haltActive "blocked by halt flag (post-payload-factory recheck)"
          ackAndDrop false)
        (.finished none) answer)
    | .accountHaltRecheck a =>
      match answer with
      | .clear => some .stopIntentGate
      | .set =>
        some (.markingFailed .accountHaltActive
          ("blocked by account halt latch (post-payload-factory recheck) for account_id=" ++ a)
          ackAndDrop false)
      | .raises exc => some (lookupFailed "post-payload " exc)
    | _ => none
  | .lookup exc =>
    match sp.pc, exc with
    | .accountLookup, some e => some (lookupFailed "" e)
    | .accountLookup, none =>
      match truthy db.dep.accountId with
      | none => some .payloadFactory
      | some a => some (.accountHaltCheck a)
    | _, _ => none
  | .factory result =>
    match sp.pc with
    | .payloadFactory => some (afterFactory result)
    | _ => none
  | .stopIntent raises =>
    match sp.pc with
    | .stopIntentGate =>
      if raises || latestStamped db then
        some (.terminalizing "operator /stop observed at the pre-start stop-intent gate"
          (some ackAndDrop))
      else some .processStart
    | _ => none
  | _ => none

/-- The account is remembered by the look-up. -/
def nextAccount (db : Db) (sp : Spawn) : SpawnEvent → Option String
  | .lookup none => truthy db.dep.accountId
  | _ => sp.account

end Spawn

/-- One step of the call: the table and the call's record afterwards. -/
def spawnStep (db : Db) (sp : Spawn) (ev : SpawnEvent) : Option (Db × Spawn) :=
  match ev with
  | .start result =>
    if sp.pc = .processStart then
      match result with
      | .ok pid => some (db, { sp with pc := .phaseC pid, child := some pid })
      | .error exc =>
        some (db, sp.goto (.markingFailed .spawnFailedPermanent ("process.start() failed: " ++ exc)
          Spawn.ackAndDrop false))
    else none
  | .phaseC ok =>
    match sp.pc with
    | .phaseC pid =>
      if ok then
        -- the intent is re-read under the row lock that the pid write takes
        let raced := (db.rows[sp.rowId]?).any (·.isStamped)
        (db.write sp.rowId (.phaseC pid)).map fun db' =>
          (db', { sp with pc := .finished (some (true, !raced)), terminated := raced })
      else some (db, sp.goto (.finished (some (true, true))))
    | _ => none
  | .commit ok =>
    match sp.pc with
    | .markingFailed kind reason ret bestEffort =>
      if ok then
        (db.write sp.rowId (.markFailed kind reason)).map fun db' =>
          (db', sp.goto (.leaving (some ret)))
      else some (db, sp.goto (if bestEffort then .leaving (some ret) else .finished none))
    | .terminalizing reason ret =>
      if ok then
        (db.write sp.rowId (.terminalizeReservedRow .spawnFailedTransient reason)).map fun db' =>
          (db', sp.goto (.leaving ret))
      else some (db, sp.goto (.leaving ret))
    | _ => none
  | .leave =>
    match sp.pc with
    | .leaving ret => some (db, sp.goto (.finished ret))
    | _ => none
  | .cancel =>
    if sp.pc.isCancellable then
      some (db, sp.goto (.terminalizing "spawn cancelled in the reserved→handle-install window"
        none))
    else match sp.pc with
      -- the running node owns the row: the cancellation is re-raised without clean-up
      | .phaseC _ => some (db, sp.goto (.finished none))
      | _ => none
  | ev =>
    (sp.nextPc db ev).map fun pc =>
      (db, { sp with pc := pc, account := sp.nextAccount db ev })

/-! ### Everything a step can do -/

/-- The effect of one step of a spawn. -/
inductive SpawnEffect (db : Db) (sp : Spawn) (ev : SpawnEvent) : Db → Spawn → Prop
  /-- A read that leads to the next await or to a clean-up. -/
  | advance (pc : Pc) (account : Option String) (hpre : sp.pc.isPreStart = true)
      (hpc : pc.isPreStart = true ∨ pc.isCleanup = true)
      (hgate : pc = .processStart → latestStamped db = false) :
      SpawnEffect db sp ev db { sp with pc := pc, account := account }
  /-- A fleet-latch read raised. -/
  | haltRaises (exc : String) (account : Option String)
      (hpc : sp.pc = .haltCheck ∨ sp.pc = .haltRecheck) (hev : ev = .latch (.raises exc)) :
      SpawnEffect db sp ev db { sp with pc := .finished none, account := account }
  /-- `process.start()` returned and the handle is installed. -/
  | started (pid : ℕ) (hpc : sp.pc = .processStart) (hev : ev = .start (.ok pid)) :
      SpawnEffect db sp ev db { sp with pc := .phaseC pid, child := some pid }
  /-- Phase C committed. -/
  | recorded (pid : ℕ) (db' : Db) (hpc : sp.pc = .phaseC pid) (hev : ev = .phaseC true)
      (hw : db.write sp.rowId (.phaseC pid) = some db') :
      SpawnEffect db sp ev db'
        { sp with
          pc := .finished (some (true, !(db.rows[sp.rowId]?).any (·.isStamped)))
          terminated := (db.rows[sp.rowId]?).any (·.isStamped) }
  /-- Phase C failed or was cancelled. -/
  | unrecorded (pid : ℕ) (ret : SpawnReturn) (hpc : sp.pc = .phaseC pid)
      (hev : ev = .phaseC false ∨ ev = .cancel) (hret : ret = some (true, true) ∨ ret = none) :
      SpawnEffect db sp ev db (sp.goto (.finished ret))
  /-- `_mark_failed` committed. -/
  | failed (kind : FailureKind) (reason : String) (ret : Bool × Bool) (bestEffort : Bool)
      (db' : Db) (hpc : sp.pc = .markingFailed kind reason ret bestEffort)
      (hw : db.write sp.rowId (.markFailed kind reason) = some db') :
      SpawnEffect db sp ev db' (sp.goto (.leaving (some ret)))
  /-- `_terminalize_reserved_row` committed. -/
  | terminalized (reason : String) (ret : SpawnReturn) (db' : Db)
      (hpc : sp.pc = .terminalizing reason ret) (hev : ev = .commit true)
      (hw : db.write sp.rowId (.terminalizeReservedRow .spawnFailedTransient reason) = some db') :
      SpawnEffect db sp ev db' (sp.goto (.leaving ret))
  /-- The write of a clean-up failed. -/
  | cleanupError (pc : Pc) (hpc : sp.pc.isCleanup = true) (hev : ev = .commit false)
      (hnext : ∃ ret, pc = .leaving ret ∨ pc = .finished ret) :
      SpawnEffect db sp ev db (sp.goto pc)
  /-- The call returned or raised. -/
  | left (ret : SpawnReturn) (hpc : sp.pc = .leaving ret) :
      SpawnEffect db sp ev db (sp.goto (.finished ret))
  /-- The task was cancelled before the handle was installed. -/
  | cancelled (reason : String) (hpc : sp.pc.isCancellable = true) (hev : ev = .cancel) :
      SpawnEffect db sp ev db (sp.goto (.terminalizing reason none))

section Effect

variable {db db' : Db} {sp sp' : Spawn} {ev : SpawnEvent}

/-- Where a reading step leads. -/
theorem nextPc_cases {pc : Pc} (h : sp.nextPc db ev = some pc) :
    sp.pc.isPreStart = true ∧
      (((pc.isPreStart = true ∨ pc.isCleanup = true) ∧
          (pc = .processStart → latestStamped db = false)) ∨
        ((sp.pc = .haltCheck ∨ sp.pc = .haltRecheck) ∧ pc = .finished none ∧
          ∃ exc, ev = .latch (.raises exc))) := by
  cases ev with
  | latch answer =>
    simp only [Spawn.nextPc] at h
    split at h
    · rename_i hpc
      obtain rfl := Option.some.inj h
      rw [hpc]
      cases answer with
      | clear => exact ⟨rfl, Or.inl ⟨Or.inl rfl, fun e => by cases e⟩⟩
      | set => exact ⟨rfl, Or.inl ⟨Or.inr rfl, fun e => by cases e⟩⟩
      | raises exc => exact ⟨rfl, Or.inr ⟨Or.inl rfl, rfl, exc, rfl⟩⟩
    · rename_i a hpc
      rw [hpc]
      split at h <;> obtain rfl := Option.some.inj h
      · exact ⟨rfl, Or.inl ⟨Or.inl rfl, fun e => by cases e⟩⟩
      · exact ⟨rfl, Or.inl ⟨Or.inr rfl, fun e => by cases e⟩⟩
      · exact ⟨rfl, Or.inl ⟨Or.inr rfl, fun e => by cases e⟩⟩
    · rename_i hpc
      obtain rfl := Option.some.inj h
      rw [hpc]
      cases answer with
      | clear =>
        refine ⟨rfl, Or.inl ⟨Or.inl ?_, fun e => ?_⟩⟩
        · simp only [Spawn.afterLatch]
          split <;> rfl
        · simp only [Spawn.afterLatch] at e
          split at e <;> cases e
      | set => exact ⟨rfl, Or.inl ⟨Or.inr rfl, fun e => by cases e⟩⟩
      | raises exc => exact ⟨rfl, Or.inr ⟨Or.inr rfl, rfl, exc, rfl⟩⟩
    · rename_i a hpc
      rw [hpc]
      split at h <;> obtain rfl := Option.some.inj h
      · exact ⟨rfl, Or.inl ⟨Or.inl rfl, fun e => by cases e⟩⟩
      · exact ⟨rfl, Or.inl ⟨Or.inr rfl, fun e => by cases e⟩⟩
      · exact ⟨rfl, Or.inl ⟨Or.inr rfl, fun e => by cases e⟩⟩
    · cases h
  | lookup exc =>
    simp only [Spawn.nextPc] at h
    split at h
    · rename_i hpc
      obtain rfl := Option.some.inj h
      rw [hpc]
      exact ⟨rfl, Or.inl ⟨Or.inr rfl, fun e => by cases e⟩⟩
    · rename_i hpc
      rw [hpc]
      split at h <;> obtain rfl := Option.some.inj h
      · exact ⟨rfl, Or.inl ⟨Or.inl rfl, fun e => by cases e⟩⟩
      · exact ⟨rfl, Or.inl ⟨Or.inl rfl, fun e => by cases e⟩⟩
    · cases h
  | factory result =>
    simp only [Spawn.nextPc] at h
    split at h
    · rename_i hpc
      obtain rfl := Option.some.inj h
      rw [hpc]
      cases result with
      | ok => exact ⟨rfl, Or.inl ⟨Or.inl rfl, fun e => by cases e⟩⟩
      | permanent error msg exc => exact ⟨rfl, Or.inl ⟨Or.inr rfl, fun e => by cases e⟩⟩
      | transient exc => exact ⟨rfl, Or.inl ⟨Or.inr rfl, fun e => by cases e⟩⟩
    · cases h
  | stopIntent raises =>
    simp only [Spawn.nextPc] at h
    split at h
    · rename_i hpc
      rw [hpc]
      split at h
      · obtain rfl := Option.some.inj h
        exact ⟨rfl, Or.inl ⟨Or.inr rfl, fun e => by cases e⟩⟩
      · rename_i hclear
        obtain rfl := Option.some.inj h
        refine ⟨rfl, Or.inl ⟨Or.inl rfl, fun _ => ?_⟩⟩
        simp only [Bool.or_eq_true, not_or, Bool.not_eq_true] at hclear
        exact hclear.2
    · cases h
  | start _ | phaseC _ | commit _ | leave | cancel => cases h

/-- A process is started only behind the gates. -/
theorem spawnStep_start {pid : ℕ} (h : spawnStep db sp (.start (.ok pid)) = some (db', sp')) :
    sp.pc = .processStart ∧ db' = db ∧ sp' = { sp with pc := .phaseC pid, child := some pid } := by
  simp only [spawnStep] at h
  split at h
  · rename_i hpc
    obtain ⟨rfl, rfl⟩ := Prod.mk.inj (Option.some.inj h)
    exact ⟨hpc, rfl, rfl⟩
  · cases h

/-- Inversion of `spawnStep`. -/
theorem spawnStep_effect (h : spawnStep db sp ev = some (db', sp')) :
    SpawnEffect db sp ev db' sp' := by
  cases ev with
  | start result =>
    simp only [spawnStep] at h
    split at h
    · rename_i hpc
      split at h <;> obtain ⟨rfl, rfl⟩ := Prod.mk.inj (Option.some.inj h)
      · exact .started _ hpc rfl
      · exact .advance _ sp.account (by rw [hpc]; rfl) (Or.inr rfl) (fun e => by cases e)
    · cases h
  | phaseC ok =>
    simp only [spawnStep] at h
    split at h
    · rename_i pid hpc
      split at h
      · rename_i hok
        subst hok
        obtain ⟨db₁, hw, heq⟩ := Option.map_eq_some_iff.mp h
        obtain ⟨rfl, rfl⟩ := Prod.mk.inj heq
        exact .recorded pid _ hpc rfl hw
      · rename_i hok
        obtain ⟨rfl, rfl⟩ := Prod.mk.inj (Option.some.inj h)
        exact .unrecorded pid _ hpc (Or.inl (by simpa using hok)) (Or.inl rfl)
    · cases h
  | commit ok =>
    simp only [spawnStep] at h
    split at h
    · rename_i kind reason ret bestEffort hpc
      split at h
      · obtain ⟨db₁, hw, heq⟩ := Option.map_eq_some_iff.mp h
        obtain ⟨rfl, rfl⟩ := Prod.mk.inj heq
        exact .failed kind reason ret bestEffort _ hpc hw
      · rename_i hok
        obtain ⟨rfl, rfl⟩ := Prod.mk.inj (Option.some.inj h)
        refine .cleanupError _ (by rw [hpc]; rfl) (by simpa using hok) ?_
        split
        · exact ⟨_, Or.inl rfl⟩
        · exact ⟨_, Or.inr rfl⟩
    · rename_i reason ret hpc
      split at h
      · rename_i hok
        subst hok
        obtain ⟨db₁, hw, heq⟩ := Option.map_eq_some_iff.mp h
        obtain ⟨rfl, rfl⟩ := Prod.mk.inj heq
        exact .terminalized reason ret _ hpc rfl hw
      · rename_i hok
        obtain ⟨rfl, rfl⟩ := Prod.mk.inj (Option.some.inj h)
        exact .cleanupError _ (by rw [hpc]; rfl) (by simpa using hok) ⟨_, Or.inl rfl⟩
    · cases h
  | leave =>
    simp only [spawnStep] at h
    split at h
    · rename_i ret hpc
      obtain ⟨rfl, rfl⟩ := Prod.mk.inj (Option.some.inj h)
      exact .left ret hpc
    · cases h
  | cancel =>
    simp only [spawnStep] at h
    split at h
    · rename_i hpc
      obtain ⟨rfl, rfl⟩ := Prod.mk.inj (Option.some.inj h)
      exact .cancelled _ hpc rfl
    · split at h
      · rename_i pid hpc
        obtain ⟨rfl, rfl⟩ := Prod.mk.inj (Option.some.inj h)
        exact .unrecorded pid _ hpc (Or.inr rfl) (Or.inr rfl)
      · cases h
  | latch _ | lookup _ | factory _ | stopIntent _ =>
    simp only [spawnStep] at h
    obtain ⟨pc, hnext, heq⟩ := Option.map_eq_some_iff.mp h
    obtain ⟨rfl, rfl⟩ := Prod.mk.inj heq
    obtain ⟨hpre, ⟨hpc, hgate⟩ | ⟨hpc, rfl, exc, hev⟩⟩ := nextPc_cases hnext
    · exact .advance pc _ hpre hpc hgate
    · exact .haltRaises exc _ hpc hev

end Effect

end Msai.Supervisor
