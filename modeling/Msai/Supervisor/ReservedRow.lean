import Msai.Lib.Transition
import Msai.Supervisor.Spawn

namespace Msai.Supervisor

open Msai.Live Msai.Lib Msai.Lib.TransitionSystem

/-!
# A reserved row and the spawn that reserved it

`spawnSystem` runs one spawn from its reservation on, against `FleetRouter.stop` transactions
that commit at any await.  When the call has ended without a child, its row should have left
the active set, or it blocks the deployment's only slot.

* `ReleaseStep` — the condition on a step: a fleet-latch read does not raise (it is the one
  Redis read outside a `try`), and `_terminalize_reserved_row` does not find the row
  `stopping` (its guard lacks the status a concurrent stop writes);
* `reserved_row_released_iff` — an execution whose own writes succeed releases its row
  exactly when every step meets the condition.
-/

/-- One spawn and the table it works on. -/
structure SpawnState where
  db : Db
  spawn : Spawn
deriving DecidableEq

/-- What happens next: the spawn moves, or a stop commits. -/
inductive SpawnLabel
  | spawn (ev : SpawnEvent)
  | stop (host : String) (now : ℕ)
deriving DecidableEq

/-- The spawn under concurrent stops. -/
def spawnSystem : TransitionSystem SpawnState SpawnLabel where
  step s
    | .spawn ev => (spawnStep s.db s.spawn ev).map fun out => ⟨out.1, out.2⟩
    | .stop host now => (stopTxn host now s.db).map fun out => { s with db := out.2 }

/-- Every database write of the spawn itself succeeds. -/
def WritesSucceed (_ : SpawnState) (a : SpawnLabel) : Prop := a ≠ .spawn (.commit false)

/-- Status of the reserved row. -/
def SpawnState.rowStatus (s : SpawnState) : Option Status :=
  (s.db.rows[s.spawn.rowId]?).map (·.status)

/-- The step neither loses the row to an escaping exception nor skips its clean-up. -/
def ReleaseStep (s : SpawnState) (a : SpawnLabel) : Prop :=
  WritesSucceed s a ∧
    (∀ exc, a = .spawn (.latch (.raises exc)) →
      s.spawn.pc ≠ .haltCheck ∧ s.spawn.pc ≠ .haltRecheck) ∧
    (∀ reason ret, s.spawn.pc = .terminalizing reason ret → a = .spawn (.commit true) →
      s.rowStatus ≠ some .stopping)

/-- The row is in the table and out of the active set. -/
def SpawnState.Released (s : SpawnState) : Prop :=
  ∃ r, s.db.rows[s.spawn.rowId]? = some r ∧ r.isActive = false

/-! ### The row under the spawn's own writes -/

/-- `_mark_failed` always takes the row out of the active set. -/
theorem markFailed_released {db db' : Db} {i : ℕ} {r : NodeRow} {kind : FailureKind}
    {reason : String} (hw : db.write i (.markFailed kind reason) = some db')
    (hr : db.rows[i]? = some r) : ∃ r', db'.rows[i]? = some r' ∧ r'.isActive = false :=
  ⟨_, Db.write_getElem?_self hw hr, rfl⟩

/-- `_terminalize_reserved_row` takes the row out of the active set unless it is stopping,
    and then it does nothing. -/
theorem terminalize_released {db db' : Db} {i : ℕ} {r : NodeRow} {kind : FailureKind}
    {reason : String} (hw : db.write i (.terminalizeReservedRow kind reason) = some db')
    (hr : db.rows[i]? = some r) :
    ∃ r', db'.rows[i]? = some r' ∧ (r.status ≠ .stopping → r'.isActive = false) ∧
      (r.status = .stopping → r'.status = .stopping) := by
  refine ⟨_, Db.write_getElem?_self hw hr, ?_, ?_⟩ <;> simp only [RowWrite.row]
  · intro hst
    split
    · rfl
    · rename_i hlive
      have hact := Status.isActive_eq r.status
      simp only [Bool.not_eq_true] at hlive
      rw [hlive, Bool.false_or] at hact
      rw [NodeRow.isActive, hact]
      simpa using hst
  · intro hst
    rw [if_neg (by rw [hst]; decide)]
    exact hst

/-! ### Executions that meet the condition -/

/-- What holds of the call between its awaits: until a clean-up the row is active, a task in
    Phase C has its child. -/
structure SpawnState.Reserved (s : SpawnState) : Prop where
  row : ∃ r, s.db.rows[s.spawn.rowId]? = some r ∧
    (s.spawn.pc.isPreStart = true → r.isActive = true)
  child : ∀ pid, s.spawn.pc = .phaseC pid → s.spawn.child = some pid

/-- The row has left the active set by the time the call ends without a child. -/
def SpawnState.ReleasedAtEnd (s : SpawnState) : Prop :=
  ((∃ ret, s.spawn.pc = .leaving ret) ∨ (∃ ret, s.spawn.pc = .finished ret)) →
    s.spawn.child = none → s.Released

variable {s t : SpawnState} {a : SpawnLabel}

theorem SpawnState.Reserved.step (hR : s.Reserved) (h : spawnSystem.step s a = some t) :
    t.Reserved := by
  obtain ⟨⟨r, hr, hact⟩, hchild⟩ := hR
  cases a with
  | stop host now =>
    obtain ⟨⟨res, db'⟩, hstop, rfl⟩ := Option.map_eq_some_iff.mp h
    obtain ⟨r', hr', hsame, _, _⟩ := stopTxn_row hstop hr
    exact ⟨⟨r', hr', fun hp => by rw [hsame]; exact hact hp⟩, hchild⟩
  | spawn ev =>
    obtain ⟨⟨db', sp'⟩, hsp, rfl⟩ := Option.map_eq_some_iff.mp h
    cases spawnStep_effect hsp with
    | advance pc account hpre hpc hgate =>
      refine ⟨⟨r, hr, fun _ => hact hpre⟩, fun pid hpid => ?_⟩
      obtain rfl : pc = .phaseC pid := hpid
      rcases hpc with hpc | hpc <;> cases hpc
    | haltRaises => exact ⟨⟨r, hr, fun hp => by cases hp⟩, fun pid hpid => by cases hpid⟩
    | started pid =>
      refine ⟨⟨r, hr, fun hp => by cases hp⟩, fun pid' hpid => ?_⟩
      cases hpid
      rfl
    | recorded pid db'' hpc hev hw =>
      exact ⟨⟨_, Db.write_getElem?_self hw hr, fun hp => by cases hp⟩,
        fun pid' hpid => by cases hpid⟩
    | unrecorded => exact ⟨⟨r, hr, fun hp => by cases hp⟩, fun pid hpid => by cases hpid⟩
    | failed kind reason ret bestEffort db'' hpc hw =>
      exact ⟨⟨_, Db.write_getElem?_self hw hr, fun hp => by cases hp⟩,
        fun pid hpid => by cases hpid⟩
    | terminalized reason ret db'' hpc hev hw =>
      exact ⟨⟨_, Db.write_getElem?_self hw hr, fun hp => by cases hp⟩,
        fun pid hpid => by cases hpid⟩
    | cleanupError pc hpc hev hnext =>
      obtain ⟨ret, rfl | rfl⟩ := hnext <;>
        exact ⟨⟨r, hr, fun hp => by cases hp⟩, fun pid hpid => by cases hpid⟩
    | left => exact ⟨⟨r, hr, fun hp => by cases hp⟩, fun pid hpid => by cases hpid⟩
    | cancelled => exact ⟨⟨r, hr, fun hp => by cases hp⟩, fun pid hpid => by cases hpid⟩

theorem SpawnState.ReleasedAtEnd.step (hR : s.Reserved) (hE : s.ReleasedAtEnd)
    (hC : ReleaseStep s a) (h : spawnSystem.step s a = some t) : t.ReleasedAtEnd := by
  obtain ⟨⟨r, hr, hact⟩, hchild⟩ := hR
  obtain ⟨hok, hlatch, hterm⟩ := hC
  cases a with
  | stop host now =>
    obtain ⟨⟨res, db'⟩, hstop, rfl⟩ := Option.map_eq_some_iff.mp h
    intro hpc hnone
    obtain ⟨r₀, hr₀, hina⟩ := hE hpc hnone
    obtain ⟨r', hr', hsame, _, _⟩ := stopTxn_row hstop hr₀
    exact ⟨r', hr', by rw [hsame, hina]⟩
  | spawn ev =>
    obtain ⟨⟨db', sp'⟩, hsp, rfl⟩ := Option.map_eq_some_iff.mp h
    intro hpc' hnone
    cases spawnStep_effect hsp with
    | advance pc account hpre hpc hgate =>
      exfalso
      rcases hpc with hpc | hpc <;> rcases hpc' with ⟨ret, rfl⟩ | ⟨ret, rfl⟩ <;> cases hpc
    | haltRaises exc account hpc hev =>
      -- excluded by the condition: no clean-up stands behind these two reads
      obtain ⟨h1, h2⟩ := hlatch exc (by rw [hev])
      rcases hpc with hpc | hpc
      · exact absurd hpc h1
      · exact absurd hpc h2
    | started pid => cases hnone
    | recorded pid db'' hpc hev hw =>
      -- a call past its start has a child
      have hsome : s.spawn.child = some pid := hchild pid hpc
      exact absurd (hsome.symm.trans hnone) (by simp)
    | unrecorded pid ret hpc hev =>
      have hsome : s.spawn.child = some pid := hchild pid hpc
      exact absurd (hsome.symm.trans hnone) (by simp)
    | failed kind reason ret bestEffort db'' hpc hw => exact markFailed_released hw hr
    | terminalized reason ret db'' hpc hev hw =>
      -- the guard of the helper covers every active status but `stopping`
      have hns : r.status ≠ .stopping := by
        intro hst
        exact hterm reason ret hpc (by rw [hev]) (by simp [SpawnState.rowStatus, hr, hst])
      obtain ⟨r', hr', hina, _⟩ := terminalize_released hw hr
      exact ⟨r', hr', hina hns⟩
    | cleanupError pc hpc hev hnext => exact absurd (congrArg SpawnLabel.spawn hev) hok
    | left ret hpc => exact hE (Or.inl ⟨ret, hpc⟩) hnone
    | cancelled => rcases hpc' with ⟨ret, hret⟩ | ⟨ret, hret⟩ <;> cases hret

/-! ### Executions that do not -/

/-- The row stays active to the end of the call: the call has ended, or only no-op clean-ups
    of a stopping row are left. -/
structure SpawnState.Blocked (s : SpawnState) : Prop where
  row : ∃ r, s.db.rows[s.spawn.rowId]? = some r ∧ r.isActive = true ∧
    (r.status ≠ .stopping → ∃ ret, s.spawn.pc = .finished ret)
  settled : s.spawn.pc.isSettled = true

/-- A clean-up that still runs on a blocked row runs on a stopping one. -/
theorem stopping_of_cleanup {sp : Spawn} {r : NodeRow}
    (h : r.status ≠ .stopping → ∃ ret, sp.pc = .finished ret) (hpc : ∀ ret, sp.pc ≠ .finished ret) :
    r.status = .stopping := by
  by_contra hst
  obtain ⟨ret, he⟩ := h hst
  exact hpc ret he

theorem SpawnState.Blocked.step (hB : s.Blocked) (h : spawnSystem.step s a = some t) :
    t.Blocked := by
  obtain ⟨⟨r, hr, hact, hfin⟩, hset⟩ := hB
  cases a with
  | stop host now =>
    obtain ⟨⟨res, db'⟩, hstop, rfl⟩ := Option.map_eq_some_iff.mp h
    obtain ⟨r', hr', hsame, hst, _⟩ := stopTxn_row hstop hr
    exact ⟨⟨r', hr', by rw [hsame, hact], fun hne => hfin fun he => hne (hst he)⟩, hset⟩
  | spawn ev =>
    obtain ⟨⟨db', sp'⟩, hsp, rfl⟩ := Option.map_eq_some_iff.mp h
    -- a settled call takes no step before its clean-up
    have hpre : s.spawn.pc.isPreStart = true → False := by
      rw [Pc.isPreStart_of_isSettled hset]
      exact Bool.noConfusion
    cases spawnStep_effect hsp with
    | advance pc account hp => exact (hpre hp).elim
    | haltRaises exc account hpc =>
      exact (hpre (by rcases hpc with hpc | hpc <;> rw [hpc] <;> rfl)).elim
    | started pid hpc => exact (hpre (by rw [hpc]; rfl)).elim
    | recorded pid db'' hpc | unrecorded pid ret hpc | failed kind reason ret bestEffort db'' hpc =>
      rw [hpc] at hset
      cases hset
    | terminalized reason ret db'' hpc hev hw =>
      -- on a stopping row the helper does nothing
      have hst := stopping_of_cleanup hfin (by rw [hpc]; intro ret he; cases he)
      obtain ⟨r', hr', _, hkeep⟩ := terminalize_released hw hr
      refine ⟨⟨r', hr', ?_, fun hne => absurd (hkeep hst) hne⟩, rfl⟩
      rw [NodeRow.isActive, hkeep hst]
      rfl
    | cleanupError pc hpc hev hnext =>
      have hst := stopping_of_cleanup hfin (by intro ret he; rw [he] at hpc; cases hpc)
      obtain ⟨ret, rfl | rfl⟩ := hnext
      · exact ⟨⟨r, hr, hact, fun hne => absurd hst hne⟩, rfl⟩
      · exact ⟨⟨r, hr, hact, fun hne => absurd hst hne⟩, rfl⟩
    | left ret hpc => exact ⟨⟨r, hr, hact, fun _ => ⟨ret, rfl⟩⟩, rfl⟩
    | cancelled reason hpc hev =>
      have hst := stopping_of_cleanup hfin (by intro ret he; rw [he] at hpc; cases hpc)
      exact ⟨⟨r, hr, hact, fun hne => absurd hst hne⟩, rfl⟩

/-- A step outside the condition blocks the slot. -/
theorem blocked_of_not_release (hR : s.Reserved) (hok : WritesSucceed s a)
    (hC : ¬ReleaseStep s a) (h : spawnSystem.step s a = some t) : t.Blocked := by
  obtain ⟨⟨r, hr, hact⟩, _⟩ := hR
  -- which half of the condition fails
  have hcases : (∃ exc, a = .spawn (.latch (.raises exc)) ∧
        (s.spawn.pc = .haltCheck ∨ s.spawn.pc = .haltRecheck)) ∨
      (∃ reason ret, s.spawn.pc = .terminalizing reason ret ∧ a = .spawn (.commit true) ∧
        s.rowStatus = some .stopping) := by
    by_contra hno
    rw [not_or] at hno
    obtain ⟨hno1, hno2⟩ := hno
    refine hC ⟨hok, fun exc hexc => ?_, fun reason ret hpc hcommit hst => ?_⟩
    · exact ⟨fun he => hno1 ⟨exc, hexc, Or.inl he⟩, fun he => hno1 ⟨exc, hexc, Or.inr he⟩⟩
    · exact hno2 ⟨reason, ret, hpc, hcommit, hst⟩
  rcases hcases with ⟨exc, rfl, hpc⟩ | ⟨reason, ret, hpc, rfl, hst⟩
  · -- the exception leaves the call with the row as it was
    have hpre : s.spawn.pc.isPreStart = true := by
      rcases hpc with hpc | hpc <;> rw [hpc] <;> rfl
    obtain ⟨⟨db', sp'⟩, hsp, rfl⟩ := Option.map_eq_some_iff.mp h
    have hout : (db', sp') =
        (s.db, { s.spawn with pc := .finished none, account := s.spawn.account }) := by
      rcases hpc with hpc | hpc <;>
        simp only [spawnStep, Spawn.nextPc, hpc, Spawn.afterLatch, Spawn.nextAccount,
          Option.map_some, Option.some.injEq] at hsp <;> exact hsp.symm
    obtain ⟨rfl, rfl⟩ := Prod.mk.inj hout
    exact ⟨⟨r, hr, hact hpre, fun _ => ⟨none, rfl⟩⟩, rfl⟩
  · -- the helper skips the stopping row
    have hstopping : r.status = .stopping := by simpa [SpawnState.rowStatus, hr] using hst
    obtain ⟨⟨db', sp'⟩, hsp, rfl⟩ := Option.map_eq_some_iff.mp h
    simp only [spawnStep, hpc, if_true] at hsp
    obtain ⟨db'', hw, heq⟩ := Option.map_eq_some_iff.mp hsp
    obtain ⟨rfl, rfl⟩ := Prod.mk.inj heq
    obtain ⟨r', hr', _, hkeep⟩ := terminalize_released hw hr
    refine ⟨⟨r', hr', ?_, fun hne => absurd (hkeep hstopping) hne⟩, rfl⟩
    rw [NodeRow.isActive, hkeep hstopping]
    rfl

/-- Once blocked, the row is active when the call ends. -/
theorem SpawnState.Blocked.not_released {C : SpawnState → SpawnLabel → Prop}
    {as : List SpawnLabel} (hB : s.Blocked) (h : Path spawnSystem C s as t) : ¬t.Released := by
  have hBt : t.Blocked := h.invariant (fun _ _ _ hb _ hs => hb.step hs) hB
  obtain ⟨⟨r, hr, hact, _⟩, _⟩ := hBt
  rintro ⟨r', hr', hina⟩
  obtain rfl : r = r' := by simpa [hr] using hr'
  rw [hact] at hina
  cases hina

/-! ### Every execution -/

/-- The state Phase A leaves behind. -/
theorem reserved_of_phaseA {policy : Option RestartPolicy} {req : SpawnRequest}
    {other : OtherStartup} {db db₀ : Db} {id : ℕ}
    (hA : phaseA policy db req other = some (.reserved id, db₀)) :
    SpawnState.Reserved ⟨db₀, Spawn.reserved id⟩ := by
  rcases phaseA_cases hA with ⟨_, hno⟩ | ⟨hid, _, _, hrows, _⟩
  · exact absurd rfl (hno id)
  · obtain rfl : id = db.rows.length := by simpa using hid
    refine ⟨⟨reservedRow policy req db.dep, ?_, fun _ => ?_⟩, fun pid hpid => by cases hpid⟩
    · show db₀.rows[db.rows.length]? = _
      rw [hrows, List.getElem?_concat_length]
    · rw [NodeRow.isActive, reservedRow_status]
      rfl

/-- A row that is released in the end was released by steps that met the condition. -/
theorem release_path_of_released {as : List SpawnLabel} (hR : s.Reserved)
    (h : Path spawnSystem WritesSucceed s as t) (hrel : t.Released) :
    Path spawnSystem ReleaseStep s as t := by
  induction h with
  | nil s => exact .nil s
  | cons hok hstep htail ih =>
    -- a step outside the condition would block the row for the rest of the call
    refine .cons ?_ hstep (ih (hR.step hstep) hrel)
    by_contra hC
    exact (blocked_of_not_release hR hok hC hstep).not_released htail hrel

/-- **A reserved row outlives its spawn exactly when a step breaks the condition.**  For
    every reservation and every execution of the call after it that ends without a child and
    whose own writes succeed, under any concurrent stops, the row has left the active set if
    and only if no fleet-latch read raised and no `_terminalize_reserved_row` found the row
    `stopping`. -/
theorem reserved_row_released_iff {policy : Option RestartPolicy} {req : SpawnRequest}
    {other : OtherStartup} {db db₀ : Db} {id : ℕ} {as : List SpawnLabel} {ret : SpawnReturn}
    (hA : phaseA policy db req other = some (.reserved id, db₀))
    (hpath : Path spawnSystem WritesSucceed ⟨db₀, Spawn.reserved id⟩ as t)
    (hend : t.spawn.pc = .finished ret) (hnone : t.spawn.child = none) :
    t.Released ↔ Path spawnSystem ReleaseStep ⟨db₀, Spawn.reserved id⟩ as t := by
  have hR := reserved_of_phaseA hA
  constructor
  · exact release_path_of_released hR hpath
  · intro hrel
    have hboth : t.Reserved ∧ t.ReleasedAtEnd := by
      refine hrel.invariant (I := fun s => s.Reserved ∧ s.ReleasedAtEnd) ?_ ⟨hR, ?_⟩
      · intro s a u hinv hC hstep
        exact ⟨hinv.1.step hstep, hinv.2.step hinv.1 hC hstep⟩
      · rintro (⟨ret, he⟩ | ⟨ret, he⟩) <;> cases he
    exact hboth.2 (Or.inr ⟨ret, hend⟩) hnone

/-! ### Two executions that keep the slot, one that does not -/

/-- Redis is unreachable at the first latch read. -/
def haltReadRaises : List SpawnLabel :=
  [.spawn (.latch (.raises "ConnectionError"))]

/-- A stop commits while the payload is built; the pre-start gate sees it. -/
def stoppedInFactory : List SpawnLabel :=
  [.spawn (.latch .clear), .spawn (.lookup none), .spawn (.latch .clear), .stop "h" 2,
    .spawn (.factory .ok), .spawn (.latch .clear), .spawn (.latch .clear),
    .spawn (.stopIntent false), .spawn (.commit true), .spawn .leave]

/-- **The slips.**  Both executions end without a child and leave the row active. -/
theorem reserved_row_not_released :
    ∃ db₀, phaseA none queuedDb (startRequest 1) .none = some (.reserved 0, db₀) ∧
      (∃ t, Path spawnSystem WritesSucceed ⟨db₀, Spawn.reserved 0⟩ haltReadRaises t ∧
        t.spawn.pc = .finished none ∧ t.spawn.child = none ∧ ¬t.Released) ∧
      (∃ t, Path spawnSystem WritesSucceed ⟨db₀, Spawn.reserved 0⟩ stoppedInFactory t ∧
        t.spawn.pc = .finished (some (true, false)) ∧ t.spawn.child = none ∧ ¬t.Released) := by
  have hok : ∀ as : List SpawnLabel, (∀ a ∈ as, a ≠ .spawn (.commit false)) → ∀ a ∈ as,
      ∀ s : SpawnState, anyStep s a → WritesSucceed s a := fun as h a ha _ _ => h a ha
  have hactive : ∀ {t : SpawnState} {st : Status}, t.rowStatus = some st → st.isActive = true →
      ¬t.Released := by
    rintro t st hst hact ⟨r, hr, hina⟩
    obtain rfl : r.status = st := by simpa [SpawnState.rowStatus, hr] using hst
    rw [NodeRow.isActive, hact] at hina
    cases hina
  obtain ⟨db₀, hA, t₁, hrun₁, hst₁, hpc₁, hch₁, t₂, hrun₂, hst₂, hpc₂, hch₂⟩ :
      ∃ db₀, phaseA none queuedDb (startRequest 1) .none = some (.reserved 0, db₀) ∧
        ∃ t₁, spawnSystem.run ⟨db₀, Spawn.reserved 0⟩ haltReadRaises = some t₁ ∧
          t₁.rowStatus = some .starting ∧ t₁.spawn.pc = .finished none ∧ t₁.spawn.child = none ∧
        ∃ t₂, spawnSystem.run ⟨db₀, Spawn.reserved 0⟩ stoppedInFactory = some t₂ ∧
          t₂.rowStatus = some .stopping ∧ t₂.spawn.pc = .finished (some (true, false)) ∧
          t₂.spawn.child = none :=
    ⟨_, rfl, _, rfl, rfl, rfl, rfl, _, rfl, rfl, rfl, rfl⟩
  refine ⟨db₀, hA, ⟨t₁, ?_, hpc₁, hch₁, hactive hst₁ rfl⟩, t₂, ?_, hpc₂, hch₂, hactive hst₂ rfl⟩
  · exact (Path.of_run hrun₁).mono (hok _ (by decide))
  · exact (Path.of_run hrun₂).mono (hok _ (by decide))

/-- The fleet latch is set; a stop commits before `_mark_failed` does. -/
def haltedAndStopped : List SpawnLabel :=
  [.spawn (.latch .set), .stop "h" 2, .spawn (.commit true), .spawn .leave]

/-- `_mark_failed` releases the row whatever its status. -/
theorem reserved_row_released_halted :
    ∃ db₀ t, phaseA none queuedDb (startRequest 1) .none = some (.reserved 0, db₀) ∧
      Path spawnSystem ReleaseStep ⟨db₀, Spawn.reserved 0⟩ haltedAndStopped t ∧
      t.spawn.pc = .finished (some (true, false)) ∧ t.Released := by
  obtain ⟨db₀, hA, t, hrun, hst, hpc, hch⟩ :
      ∃ db₀, phaseA none queuedDb (startRequest 1) .none = some (.reserved 0, db₀) ∧
        ∃ t, spawnSystem.run ⟨db₀, Spawn.reserved 0⟩ haltedAndStopped = some t ∧
          t.rowStatus = some .failed ∧ t.spawn.pc = .finished (some (true, false)) ∧
          t.spawn.child = none :=
    ⟨_, rfl, _, rfl, rfl, rfl, rfl⟩
  have hpath : Path spawnSystem WritesSucceed ⟨db₀, Spawn.reserved 0⟩ haltedAndStopped t :=
    (Path.of_run hrun).mono (fun a ha _ _ => (by decide :
      ∀ a ∈ haltedAndStopped, a ≠ SpawnLabel.spawn (.commit false)) a ha)
  have hrel : t.Released := by
    obtain ⟨r, hr, hfailed⟩ := Option.map_eq_some_iff.mp hst
    exact ⟨r, hr, by rw [NodeRow.isActive, hfailed]; rfl⟩
  exact ⟨db₀, t, hA, (reserved_row_released_iff hA hpath hpc hch).mp hrel, hpc, hrel⟩

end Msai.Supervisor
