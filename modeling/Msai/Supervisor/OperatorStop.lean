import Msai.Supervisor.Fleet

namespace Msai.Supervisor

open Msai.Live Msai.Lib Msai.Lib.TransitionSystem

/-!
# Operator stop wins

A stop of the supervisor writes one of three things: the stop intent on the active row, the
intent on the latest failed row, or `stopped` on the deployment.  Four gates read them, each
on some of the spawn paths only: Phase A reads the deployment status on every path and the
intent for a restart attempt, the pre-start gate reads the intent of the *latest* row, and
Phase C re-reads the intent of its *own* row.

* `StopSettled` — what the table looks like once a stop has taken hold, and why Phase A then
  refuses (`StopSettled.refuses`);
* `StopCovers` — when the stop takes hold, read in the state before it;
* `AfterStop` — what has to hold of the steps after it;
* `operator_stop_wins_of_covered` — under both, no spawn that was unfinished at the stop or
  begins after it leaves an un-signalled child.
-/

/-! ### The table after a stop -/

/-- The row at `i` carries a stop intent. -/
def Db.stampedAt (db : Db) (i : ℕ) : Bool := (db.rows[i]?).any (·.isStamped)

theorem Db.stampedAt_iff {db : Db} {i : ℕ} :
    db.stampedAt i = true ↔ ∃ r, db.rows[i]? = some r ∧ r.isStamped = true := by
  unfold stampedAt
  cases db.rows[i]? <;> simp

theorem latestStamped_eq (db : Db) : latestStamped db = db.stampedAt (db.rows.length - 1) := by
  rw [latestStamped, Db.latest_eq_getElem?]
  rfl

/-- The table of a stopped deployment: operator-terminal, or the latest row carries the
    intent and nothing but a failed deployment or an active row is left, or the deployment
    failed before it had a row. -/
def StopSettled (db : Db) : Prop :=
  db.dep.status = .stopped ∨
    (latestStamped db = true ∧ (db.dep.status = .failed ∨ db.hasActive = true)) ∨
    (db.rows = [] ∧ db.dep.status = .failed)

/-- A START that Phase A takes for the retry of a transient failure although the failed row
    carries a stop intent. -/
def RetriesStopped (db : Db) (req : SpawnRequest) (other : OtherStartup) : Prop :=
  req.restartCarry.isNone = true ∧ db.dep.status = .failed ∧ db.hasActive = false ∧
    latestStamped db = true ∧ latestFailureRetryEligible db = true ∧ other = .none

instance (db : Db) (req : SpawnRequest) (other : OtherStartup) :
    Decidable (RetriesStopped db req other) :=
  inferInstanceAs (Decidable (_ ∧ _ ∧ _ ∧ _ ∧ _ ∧ _))

section Table

variable {host : String} {policy : Option RestartPolicy} {db db' : Db} {i j : ℕ} {w : RowWrite}

/-- A deployment without rows has no failure to retry. -/
theorem latestFailureRetryEligible_nil (h : db.rows = []) :
    latestFailureRetryEligible db = false := by
  simp only [latestFailureRetryEligible, Db.latest, h, List.getLast?_nil, Option.bind_none]
  cases boundToCurrentAttempt db.dep none <;> rfl

/-- **Phase A refuses.**  Once a stop has taken hold, the only request the gate still lets
    through is the retry of a transient failure. -/
theorem StopSettled.refuses {req : SpawnRequest} {other : OtherStartup} (h : StopSettled db)
    (hcarry : req.restartCarry.isSome = true → db.rows ≠ [])
    (hretry : ¬RetriesStopped db req other) : phaseAGate db req other ≠ none := by
  intro hgate
  obtain ⟨hne, hintent, hfree, hfailed, hother⟩ := phaseAGate_eq_none hgate
  rcases h with hstopped | ⟨hst, hdep⟩ | ⟨hnil, hdep⟩
  · -- operator-terminal: the first gate
    exact hne hstopped
  · -- a restart attempt would have read the intent
    have hnone : req.restartCarry.isSome = false := by
      cases hsome : req.restartCarry.isSome with
      | false => rfl
      | true => exact absurd (hintent hsome) (by simp [hst])
    rcases hdep with hdep | hact
    · have helig := (hfailed hdep).resolve_left (by simp [hnone])
      refine hretry ⟨?_, hdep, hfree, hst, helig, hother⟩
      simpa using hnone
    · rw [hfree] at hact
      cases hact
  · -- no row at all: a restart attempt has loaded one, a START has nothing to retry
    rcases hfailed hdep with hsome | helig
    · exact hcarry hsome hnil
    · rw [latestFailureRetryEligible_nil hnil] at helig
      cases helig

/-- A write never takes a stop intent back. -/
theorem stampedAt_write (hw : db.write i w = some db') (h : db.stampedAt j = true) :
    db'.stampedAt j = true := by
  obtain ⟨r, hr, hst⟩ := Db.stampedAt_iff.mp h
  rcases Db.write_getElem?_cases hw hr with hr' | ⟨_, hr'⟩
  · exact Db.stampedAt_iff.mpr ⟨r, hr', hst⟩
  · exact Db.stampedAt_iff.mpr ⟨_, hr', RowWrite.row_isStamped hst⟩

theorem latestStamped_write (hw : db.write i w = some db') (h : latestStamped db = true) :
    latestStamped db' = true := by
  rw [latestStamped_eq] at h ⊢
  rw [Db.write_length hw]
  exact stampedAt_write hw h

/-- No write of a node row changes a terminal deployment. -/
theorem write_dep_of_terminal (hw : db.write i w = some db')
    (h : db.dep.status.isLive = false) : db'.dep = db.dep := by
  rcases Db.write_eq_some hw with ⟨_, rfl⟩ | ⟨r, _, _, hdep⟩
  · rfl
  · rw [hdep, RowWrite.dep_of_not_isLive h]

/-- A write that takes the active row away leaves the deployment terminal. -/
theorem active_or_terminal_write (hw : db.write i w = some db') (h : db.hasActive = true) :
    db'.hasActive = true ∨ db'.dep.status = .stopped ∨ db'.dep.status = .failed := by
  obtain ⟨j, r, hr, ha⟩ := Db.hasActive_iff.mp h
  rcases Db.write_getElem?_cases hw hr with hr' | ⟨rfl, hr'⟩
  · exact Or.inl (Db.hasActive_iff.mpr ⟨j, r, hr', ha⟩)
  · by_cases ha' : (w.row (db.context j r) r).isActive = true
    · exact Or.inl (Db.hasActive_iff.mpr ⟨j, _, hr', ha'⟩)
    · -- the row was the only active one, so no newer one holds the sync back
      have hnewer : (db.context j r).newerActive = false := Db.newerActive_of_unique hr ha
      rw [Db.write_dep hw hr]
      exact Or.inr (RowWrite.dep_of_deactivate ha (by simpa using ha') hnewer)

/-- No write of a node row undoes a stop. -/
theorem StopSettled.write (h : StopSettled db) (hw : db.write i w = some db') :
    StopSettled db' := by
  rcases h with hstopped | ⟨hst, hdep | hact⟩ | ⟨hnil, hdep⟩
  · refine Or.inl ?_
    rw [write_dep_of_terminal hw (by rw [hstopped]; rfl), hstopped]
  · refine Or.inr (Or.inl ⟨latestStamped_write hw hst, Or.inl ?_⟩)
    rw [write_dep_of_terminal hw (by rw [hdep]; rfl), hdep]
  · have hst' := latestStamped_write hw hst
    -- the active row may end here, and then its write ends the deployment too
    rcases active_or_terminal_write hw hact with hact' | hstopped | hfailed
    · exact Or.inr (Or.inl ⟨hst', Or.inr hact'⟩)
    · exact Or.inl hstopped
    · exact Or.inr (Or.inl ⟨hst', Or.inl hfailed⟩)
  · obtain rfl : db' = db := by
      rcases Db.write_eq_some hw with ⟨_, rfl⟩ | ⟨r, hr, _⟩
      · rfl
      · simp [hnil] at hr
    exact Or.inr (Or.inr ⟨hnil, hdep⟩)

theorem stopPreActive_rows (now : ℕ) : (stopPreActive db now).rows = db.rows := by
  unfold stopPreActive
  split <;> rfl

/-- A stop never takes an intent back. -/
theorem stampedAt_stop {now : ℕ} {res : StopResult} (hs : stopTxn host now db = some (res, db'))
    (h : db.stampedAt j = true) : db'.stampedAt j = true := by
  rcases stopTxn_cases hs with ⟨i, _, _, _, _, _, hw⟩ | ⟨_, _, rfl⟩ | ⟨_, _, hcase⟩
  · exact stampedAt_write hw h
  · exact h
  · rcases hcase with ⟨_, rfl⟩ | ⟨_, _, hw⟩ | ⟨_, _, rfl⟩
    · exact h
    · exact stampedAt_write hw h
    · unfold Db.stampedAt
      rw [stopPreActive_rows]
      exact h

/-- A second stop keeps what the first one did. -/
theorem StopSettled.stop {now : ℕ} {res : StopResult} (h : StopSettled db)
    (hs : stopTxn host now db = some (res, db')) : StopSettled db' := by
  rcases stopTxn_cases hs with ⟨i, _, _, _, _, _, hw⟩ | ⟨_, _, rfl⟩ | ⟨_, _, hcase⟩
  · exact h.write hw
  · exact h
  · rcases hcase with ⟨_, rfl⟩ | ⟨_, _, hw⟩ | ⟨_, _, rfl⟩
    · exact h
    · exact h.write hw
    · unfold stopPreActive
      split
      · exact Or.inl rfl
      · exact h

/-! ### What one stop writes -/

/-- The row a stop puts its intent on. -/
def stopTarget (db : Db) : Option ℕ :=
  match db.activeId with
  | some i => some i
  | none =>
    if db.dep.status ≠ .stopped ∧ db.latest.any (·.isPendingRestart) = true then
      some (db.rows.length - 1)
    else none

/-- Row `i` carries an intent once the stop has committed. -/
def stopMarks (db : Db) (i : ℕ) : Bool := db.stampedAt i || stopTarget db == some i

/-- Every active row belongs to the host. -/
def OwnsActive (host : String) (db : Db) : Prop := ∀ r ∈ db.rows, r.isActive = true → r.host = host

/-- A stop takes hold of the deployment: the active row is the latest one, or there is no
    active row and the deployment is `failed` behind a row that carries the intent, or
    nothing but the deployment itself is there to be stopped. -/
def StopTakes (db : Db) : Prop :=
  match db.activeId with
  | some i => i + 1 = db.rows.length
  | none =>
    if db.dep.status = .failed then db.rows = [] ∨ stopMarks db (db.rows.length - 1) = true
    else db.dep.status = .stopped ∨ db.latest.any (·.isPendingRestart) = false

instance (host : String) (db : Db) : Decidable (OwnsActive host db) :=
  inferInstanceAs (Decidable (∀ r ∈ db.rows, r.isActive = true → r.host = host))

instance (db : Db) : Decidable (StopTakes db) :=
  match h : db.activeId with
  | some i => decidable_of_iff (i + 1 = db.rows.length) (by simp [StopTakes, h])
  | none =>
    decidable_of_iff
      (if db.dep.status = .failed then db.rows = [] ∨ stopMarks db (db.rows.length - 1) = true
      else db.dep.status = .stopped ∨ db.latest.any (·.isPendingRestart) = false)
      (by simp [StopTakes, h])

/-- The intent of a stop stands on its target. -/
theorem stampedAt_of_stopMarks {now : ℕ} {res : StopResult} (hown : OwnsActive host db)
    (hs : stopTxn host now db = some (res, db')) (h : stopMarks db i = true) :
    db'.stampedAt i = true := by
  rcases Bool.or_eq_true_iff.mp h with hst | htarget
  · exact stampedAt_stop hs hst
  replace htarget : stopTarget db = some i := by simpa using htarget
  unfold stopTarget at htarget
  rcases stopTxn_cases hs with ⟨j, r, hr, ha, _, _, hw⟩ | ⟨⟨r, hr, ha, hne⟩, _⟩ | ⟨hfree, _, hcase⟩
  · -- the active row
    obtain rfl : i = j := by
      split at htarget
      · rename_i k hk
        obtain ⟨rk, hrk, hak⟩ := Db.activeId_eq_some hk
        obtain rfl := Option.some.inj htarget
        exact Db.active_unique hrk hr hak ha
      · rename_i hnone
        have hact : db.hasActive = true := Db.hasActive_iff.mpr ⟨j, r, hr, ha⟩
        rw [Db.activeId_eq_none_iff.mp hnone] at hact
        cases hact
    refine Db.stampedAt_iff.mpr ⟨_, Db.write_getElem?_self hw hr, ?_⟩
    simp only [RowWrite.row, if_pos ha]
    rfl
  · exact absurd (hown r hr ha) hne
  · rw [Db.activeId_eq_none_iff.mpr hfree] at htarget
    simp only at htarget
    split at htarget
    · rename_i hpend
      obtain rfl := Option.some.inj htarget
      rcases hcase with ⟨hst, _⟩ | ⟨_, _, hw⟩ | ⟨_, hno, _⟩
      · exact absurd hst hpend.1
      · -- the latest failed row
        obtain ⟨r, hr, hp⟩ : ∃ r, db.latest = some r ∧ r.isPendingRestart = true := by
          cases hl : db.latest with
          | none => simp [hl] at hpend
          | some r => exact ⟨r, rfl, by simpa [hl] using hpend.2⟩
        rw [Db.latest_eq_getElem?] at hr
        refine Db.stampedAt_iff.mpr ⟨_, Db.write_getElem?_self hw hr, ?_⟩
        simp only [RowWrite.row, if_pos hp]
        rfl
      · rw [hpend.2] at hno
        cases hno
    · cases htarget

/-- A stop that takes hold settles the table. -/
theorem StopTakes.settled {now : ℕ} {res : StopResult} (h : StopTakes db)
    (hown : OwnsActive host db) (hs : stopTxn host now db = some (res, db')) :
    StopSettled db' := by
  have hmarks : stopMarks db (db.rows.length - 1) = true → latestStamped db' = true := by
    intro hm
    rw [latestStamped_eq, stopTxn_length hs]
    exact stampedAt_of_stopMarks hown hs hm
  have hlive : db.dep.status ≠ .stopped → db.dep.status ≠ .failed →
      db.dep.status.isLive = true := by
    have hns := db.dep.notStopping
    cases hd : db.dep.status <;> simp_all [Status.isLive]
  unfold StopTakes at h
  rcases stopTxn_cases hs with ⟨i, r, hr, ha, _, _, hw⟩ | ⟨⟨r, hr, ha, hne⟩, _⟩ | ⟨hfree, _, hcase⟩
  · -- the active row is the latest one, and now it is stamped
    split at h
    · rename_i k hk
      have hst : latestStamped db' = true := by
        refine hmarks ?_
        have hlast : db.rows.length - 1 = k := by omega
        simp [stopMarks, stopTarget, hk, hlast]
      rcases active_or_terminal_write hw (Db.hasActive_iff.mpr ⟨i, r, hr, ha⟩) with
        hact | hstopped | hfailed
      · exact Or.inr (Or.inl ⟨hst, Or.inr hact⟩)
      · exact Or.inl hstopped
      · exact Or.inr (Or.inl ⟨hst, Or.inl hfailed⟩)
    · rename_i hnone
      have hact : db.hasActive = true := Db.hasActive_iff.mpr ⟨i, r, hr, ha⟩
      rw [Db.activeId_eq_none_iff.mp hnone] at hact
      cases hact
  · exact absurd (hown r hr ha) hne
  · rw [Db.activeId_eq_none_iff.mpr hfree] at h
    simp only at h
    split at h
    · -- a failed deployment stays failed behind the intent
      rename_i hfailed
      have hdep : db'.dep = db.dep := by
        rcases hcase with ⟨_, rfl⟩ | ⟨_, _, hw⟩ | ⟨_, _, rfl⟩
        · rfl
        · exact write_dep_of_terminal hw (by rw [hfailed]; rfl)
        · simp [stopPreActive, hfailed, Status.isLive]
      rcases h with hnil | hm
      · refine Or.inr (Or.inr ⟨?_, by rw [hdep, hfailed]⟩)
        have hlen := stopTxn_length hs
        rw [hnil] at hlen
        exact List.length_eq_zero_iff.mp hlen
      · exact Or.inr (Or.inl ⟨hmarks hm, Or.inl (by rw [hdep, hfailed])⟩)
    · -- a live deployment without a row to stamp is made operator-terminal
      rename_i hfailed
      rcases hcase with ⟨hst, rfl⟩ | ⟨hst, hpend, _⟩ | ⟨hst, _, rfl⟩
      · exact Or.inl hst
      · rcases h with hstopped | hno
        · exact absurd hstopped hst
        · rw [hpend] at hno
          cases hno
      · refine Or.inl ?_
        rw [stopPreActive, if_pos (hlive hst hfailed)]
        rfl

end Table

/-! ### The run after the stop -/

namespace Pc

/-- The call is over. -/
def isFinished : Pc → Bool
  | .finished _ => true
  | _ => false

/-- The pre-start gate is behind the task, Phase C is not. -/
def isPastGate : Pc → Bool
  | .processStart | .phaseC _ => true
  | _ => false

end Pc

/-- No spawn that ended after `s₁` has left a child that runs without having been signalled. -/
def StopWins (s₁ t : Fleet) : Prop :=
  ∀ (k : ℕ) (sp : Spawn), t.spawns[k]? = some sp → sp.pc.isFinished = true →
    (∀ sp₁, s₁.spawns[k]? = some sp₁ → sp₁.pc.isFinished = false) →
    ∀ (pid : ℕ) (c : Child), t.children[pid]? = some c → c.rowId = sp.rowId →
      c.alive = true → c.signalled = true

/-- The API does not touch the deployment row again. -/
def NoOperatorStart (_ : Fleet) : FleetLabel → Prop
  | .apiStart _ => False
  | .apiStatus _ _ => False
  | _ => True

/-- The stop takes hold, and every spawn on its way to a child meets the intent: past the
    pre-start gate only the intent of its own row is read again, before it the gate reads
    the latest row too. -/
structure StopCovers (s : Fleet) : Prop where
  takes : StopTakes s.db
  pastGate : ∀ sp ∈ s.spawns, sp.pc.isPastGate = true → stopMarks s.db sp.rowId = true
  preStart : ∀ sp ∈ s.spawns, sp.pc.isPreStart = true →
    stopMarks s.db sp.rowId = true ∨ stopMarks s.db (s.db.rows.length - 1) = true

instance (s : Fleet) : Decidable (StopCovers s) :=
  decidable_of_iff
    (StopTakes s.db ∧
      (∀ sp ∈ s.spawns, sp.pc.isPastGate = true → stopMarks s.db sp.rowId = true) ∧
      ∀ sp ∈ s.spawns, sp.pc.isPreStart = true →
        stopMarks s.db sp.rowId = true ∨ stopMarks s.db (s.db.rows.length - 1) = true)
    ⟨fun h => ⟨h.1, h.2.1, h.2.2⟩, fun h => ⟨h.takes, h.pastGate, h.preStart⟩⟩

/-- The event records the child of spawn `k`, unless it was signalled already. -/
def Fleet.recordsChild (s : Fleet) (k : ℕ) (ev : SpawnEvent) : Bool :=
  match s.spawns[k]? with
  | none => true
  | some sp =>
    match sp.pc with
    | .phaseC _ =>
      decide (ev = .phaseC true) || (sp.child.bind fun pid => s.children[pid]?).any (·.signalled)
    | _ => true

/-- After the stop no START is taken for the retry of a stopped failure, and no Phase C fails
    or is cancelled over a child that nobody has signalled. -/
def AfterStop (s : Fleet) (a : FleetLabel) : Prop :=
  NoOperatorStart s a ∧
    match a with
    | .reserve req other => ¬RetriesStopped s.db req other
    | .spawn k ev => s.recordsChild k ev = true
    | _ => True

instance (s : Fleet) (a : FleetLabel) : Decidable (NoOperatorStart s a) :=
  match a with
  | .apiStart _ | .apiStatus _ _ => isFalse id
  | .reserve _ _ | .spawn _ _ | .child _ _ | .childExit _ _ | .reap _ | .sweep _ _
  | .watchdogSelect _ _ | .watchdogFlush _ | .stop _ | .stopSignal => isTrue trivial

instance (s : Fleet) (a : FleetLabel) : Decidable (AfterStop s a) :=
  have : Decidable
      (match a with
      | .reserve req other => ¬RetriesStopped s.db req other
      | .spawn k ev => s.recordsChild k ev = true
      | _ => True) :=
    match a with
    | .reserve req other => inferInstanceAs (Decidable ¬RetriesStopped s.db req other)
    | .spawn k ev => inferInstanceAs (Decidable (s.recordsChild k ev = true))
    | .child _ _ | .childExit _ _ | .reap _ | .sweep _ _ | .watchdogSelect _ _
    | .watchdogFlush _ | .stop _ | .stopSignal | .apiStart _ | .apiStatus _ _ => isTrue trivial
  instDecidableAnd

/-- The invariant of the run after the stop. -/
structure Stopped (s : Fleet) : Prop where
  settled : StopSettled s.db
  pastGate : ∀ (k : ℕ) (sp : Spawn), s.spawns[k]? = some sp → sp.pc.isPastGate = true →
    s.db.stampedAt sp.rowId = true
  preStart : ∀ (k : ℕ) (sp : Spawn), s.spawns[k]? = some sp → sp.pc.isPreStart = true →
    s.db.stampedAt sp.rowId = true ∨ latestStamped s.db = true

section Run

variable {host : String} {policy : Option RestartPolicy} {s s₁ t : Fleet} {a : FleetLabel}

/-- After the stop the table stays settled, no intent is lost and no row is added. -/
theorem settled_step (h : StopSettled s.db) (hC : AfterStop s a)
    (hs : fleetStep host policy s a = some t) :
    StopSettled t.db ∧ (∀ j, s.db.stampedAt j = true → t.db.stampedAt j = true) ∧
      t.db.rows.length = s.db.rows.length := by
  cases fleetStep_db hs with
  | none hdb =>
    rw [hdb]
    exact ⟨h, fun _ => id, rfl⟩
  | write i w hw => exact ⟨h.write hw, fun j => stampedAt_write hw, Db.write_length hw⟩
  | phaseA req other o hcarry hA =>
    rcases phaseA_cases hA with ⟨hdb, _⟩ | ⟨_, hgate, _⟩
    · rw [hdb]
      exact ⟨h, fun _ => id, rfl⟩
    · exact absurd hgate (h.refuses hcarry hC.2)
  | stop now res hstop => exact ⟨h.stop hstop, fun j => stampedAt_stop hstop, stopTxn_length hstop⟩
  | apiStart now hdb | apiStatus st hst hdb => exact hC.1.elim

/-- After the stop nothing is reserved. -/
theorem reserve_refused {req : SpawnRequest} {other : OtherStartup} (h : StopSettled s.db)
    (hC : AfterStop s (.reserve req other))
    (hs : fleetStep host policy s (.reserve req other) = some t) : t = s := by
  rcases fleetStep_reserve hs with heq | ⟨_, hrows, _⟩
  · exact heq
  · obtain ⟨_, _, hlen⟩ := settled_step h hC hs
    simp [hrows] at hlen

/-- A spawn passes the pre-start gate only over an unstamped latest row. -/
theorem SpawnEffect.isPastGate {db db' : Db} {sp sp' : Spawn} {ev : SpawnEvent}
    (h : SpawnEffect db sp ev db' sp') (hpast : sp'.pc.isPastGate = true) :
    sp.pc.isPastGate = true ∨ (sp.pc.isPreStart = true ∧ latestStamped db = false) := by
  cases h with
  | advance pc account hpre hpc hgate =>
    refine Or.inr ⟨hpre, hgate ?_⟩
    cases pc <;> first | rfl | (cases hpast; done) | (rcases hpc with h | h <;> cases h)
  | started pid hpc hev => exact Or.inl (by rw [hpc]; rfl)
  | cleanupError pc hpc hev hnext =>
    obtain ⟨ret, rfl | rfl⟩ := hnext <;> cases hpast
  | _ => cases hpast

/-- The invariant under a step that leaves the spawns alone. -/
theorem Stopped.of_same (h : Stopped s) (hsp : t.spawns = s.spawns) (hset : StopSettled t.db)
    (hst : ∀ j, s.db.stampedAt j = true → t.db.stampedAt j = true)
    (hlen : t.db.rows.length = s.db.rows.length) : Stopped t := by
  refine ⟨hset, ?_, ?_⟩ <;> rw [hsp]
  · exact fun k sp hk hpast => hst _ (h.pastGate k sp hk hpast)
  · intro k sp hk hpre
    refine (h.preStart k sp hk hpre).imp (hst _) fun hlast => ?_
    rw [latestStamped_eq] at hlast ⊢
    rw [hlen]
    exact hst _ hlast

/-- The invariant when spawn `k` moves on its own row. -/
theorem Stopped.of_spawn {k : ℕ} {sp sp' : Spawn} {ev : SpawnEvent} {db' : Db} (h : Stopped s)
    (hk : s.spawns[k]? = some sp) (heff : SpawnEffect s.db sp ev db' sp')
    (hrow : sp'.rowId = sp.rowId) (hsp : t.spawns = s.spawns.set k sp')
    (hset : StopSettled t.db)
    (hst : ∀ j, s.db.stampedAt j = true → t.db.stampedAt j = true)
    (hlen : t.db.rows.length = s.db.rows.length) : Stopped t := by
  have hsame : Stopped { t with spawns := s.spawns } := h.of_same rfl hset hst hlen
  refine ⟨hset, ?_, ?_⟩ <;> rw [hsp]
  · intro j q hq hpast
    rcases getElem?_set_cases hq with ⟨rfl, rfl⟩ | ⟨_, hq⟩
    · rw [hrow]
      rcases heff.isPastGate hpast with hpast₀ | ⟨hpre, hlast⟩
      · exact hst _ (h.pastGate j sp hk hpast₀)
      · -- the gate has just read an unstamped latest row, so the own row is stamped
        refine hst _ ((h.preStart j sp hk hpre).resolve_right ?_)
        rw [hlast]
        exact Bool.false_ne_true
    · exact hsame.pastGate j q hq hpast
  · intro j q hq hpre
    rcases getElem?_set_cases hq with ⟨rfl, rfl⟩ | ⟨_, hq⟩
    · rw [hrow]
      exact hsame.preStart j sp hk (heff.isPreStart hpre)
    · exact hsame.preStart j q hq hpre

/-- The step lemma of the invariant. -/
theorem Stopped.step (h : Stopped s) (hC : AfterStop s a)
    (hs : fleetStep host policy s a = some t) : Stopped t := by
  obtain ⟨hset, hst, hlen⟩ := settled_step h.settled hC hs
  rcases fleetStep_kinds hs with ⟨req, other, rfl⟩ | ⟨k, ev, rfl⟩ | ⟨_, hsp, _⟩
  · rw [reserve_refused h.settled hC hs]
    exact h
  · obtain ⟨sp, hk, ⟨hpc, rfl⟩ | ⟨hne, db', sp', heff, rfl⟩⟩ := fleetStep_spawn hs
    · have heff : SpawnEffect s.db sp (.start (.ok s.children.length)) s.db
          { sp with pc := .phaseC s.children.length, child := some s.children.length } :=
        .started _ hpc rfl
      exact h.of_spawn hk heff rfl rfl hset hst hlen
    · exact h.of_spawn hk heff (heff.kept hne).1 rfl hset hst hlen
  · exact h.of_same hsp hset hst hlen

/-- After the stop the spawns are the same ones. -/
theorem Stopped.spawns_length (h : Stopped s) (hC : AfterStop s a)
    (hs : fleetStep host policy s a = some t) : t.spawns.length = s.spawns.length := by
  rcases fleetStep_kinds hs with ⟨req, other, rfl⟩ | ⟨k, ev, rfl⟩ | ⟨_, hsp, _⟩
  · rw [reserve_refused h.settled hC hs]
  · obtain ⟨sp, hk, ⟨hpc, rfl⟩ | ⟨hne, db', sp', heff, rfl⟩⟩ := fleetStep_spawn hs
    · exact List.length_set
    · exact List.length_set
  · rw [hsp]

/-! ### Every spawn ends signalled -/

/-- A signal reaches the child it is sent to. -/
theorem signalled_of_signal {pid : ℕ} {c : Child} (hc : (s.signal (some pid))[pid]? = some c) :
    c.signalled = true := by
  simp only [Fleet.signal, List.getElem?_modify] at hc
  obtain ⟨c₀, _, rfl⟩ := Option.map_eq_some_iff.mp hc
  simp

/-- A spawn that ends after the stop leaves no un-signalled child: before the start it has
    none, and Phase C finds the intent on its own row. -/
theorem Stopped.ends_signalled {k pid : ℕ} {sp sp' : Spawn} {ev : SpawnEvent} {db' : Db}
    {c : Child} (h : Stopped s) (hw : Wired s) (hk : s.spawns[k]? = some sp)
    (hC : AfterStop s (.spawn k ev)) (heff : SpawnEffect s.db sp ev db' sp')
    (hne : ∀ pid, ev ≠ .start (.ok pid)) (hfin : sp'.pc.isFinished = true)
    (hc : (s.afterSpawn k (db', sp')).children[pid]? = some c) (hrow : c.rowId = sp'.rowId) :
    c.signalled = true := by
  obtain ⟨c₀, hc₀, hrow₀, _, hsig⟩ := (s.follows_afterSpawn k (db', sp')).child pid c hc
  have hown : sp.child = some pid := by
    refine hw.childOf k pid sp c₀ hk hc₀ ?_
    rw [hrow₀, hrow, (heff.kept hne).1]
  -- a call that has not started its process has no child
  have hno : sp.pc.hasNoHandle = true → c.signalled = true := by
    intro hno
    rw [hw.noChild k sp hk hno] at hown
    cases hown
  have hpre : sp.pc.isPreStart = true → c.signalled = true :=
    fun hp => hno (hasNoHandle_of_isPreStart hp)
  cases heff with
  | advance pc account hp => exact hpre hp
  | haltRaises exc account hpc hev => exact hpre (by rcases hpc with hpc | hpc <;> rw [hpc] <;> rfl)
  | started p hpc hev => exact absurd hev (hne p)
  | recorded p db'' hpc hev hwr =>
    -- Phase C re-reads the intent of its own row and terminates the child
    have hst : (s.db.rows[sp.rowId]?).any (·.isStamped) = true :=
      h.pastGate k sp hk (by rw [hpc]; rfl)
    simp only [Fleet.afterSpawn, hst, if_true, hown] at hc
    exact signalled_of_signal hc
  | unrecorded p ret hpc hev hret =>
    -- Phase C is lost: by the condition somebody has signalled the child before
    have hrec := hC.2
    simp only [Fleet.recordsChild, hk, hpc, hown, Option.bind_some, hc₀, Option.any_some,
      Bool.or_eq_true, decide_eq_true_eq] at hrec
    refine hsig (hrec.resolve_left fun he => ?_)
    rcases hev with hev | hev <;> rw [hev] at he <;> cases he
  | failed kind reason ret bestEffort db'' hpc hwr => exact hno (by rw [hpc]; rfl)
  | terminalized reason ret db'' hpc hev hwr => exact hno (by rw [hpc]; rfl)
  | cleanupError pc hpc hev hnext =>
    refine hno ?_
    cases hpc' : sp.pc <;> rw [hpc'] at hpc <;> first | rfl | cases hpc
  | left ret hpc => exact hno (by rw [hpc]; rfl)
  | cancelled reason hpc hev => cases hfin

/-- The step lemma of the conclusion. -/
theorem StopWins.step (hwins : StopWins s₁ s) (h : Stopped s) (hw : Wired s)
    (hC : AfterStop s a) (hs : fleetStep host policy s a = some t) : StopWins s₁ t := by
  have hfollow : ∀ {u : Fleet}, Follows s u → ∀ (k : ℕ) (sp : Spawn), s.spawns[k]? = some sp →
      sp.pc.isFinished = true → (∀ sp₁, s₁.spawns[k]? = some sp₁ → sp₁.pc.isFinished = false) →
      ∀ (pid : ℕ) (c : Child), u.children[pid]? = some c → c.rowId = sp.rowId →
        c.alive = true → c.signalled = true := by
    intro u hu k sp hk hfin hlate pid c hc hrow halive
    obtain ⟨c₀, hc₀, hrow₀, ha₀, hs₀⟩ := hu.child pid c hc
    exact hs₀ (hwins k sp hk hfin hlate pid c₀ hc₀ (hrow₀.trans hrow) (ha₀ halive))
  rcases fleetStep_kinds hs with ⟨req, other, rfl⟩ | ⟨k, ev, rfl⟩ | ⟨_, hsp, hch⟩
  · rw [reserve_refused h.settled hC hs]
    exact hwins
  · obtain ⟨sp, hk, ⟨hpc, rfl⟩ | ⟨hne, db', sp', heff, rfl⟩⟩ := fleetStep_spawn hs
    · intro j q hq hfin hlate pid c hc hrow halive
      rcases getElem?_set_cases hq with ⟨rfl, rfl⟩ | ⟨hj, hq⟩
      · cases hfin
      · rcases getElem?_concat_cases (l := s.children) hc with ⟨_, rfl⟩ | hold
        · -- the new child belongs to spawn `k`
          exact absurd (hw.ownRow j k q sp hq hk hrow.symm) hj
        · exact hwins j q hq hfin hlate pid c hold hrow halive
    · intro j q hq hfin hlate pid c hc hrow halive
      rcases getElem?_set_cases hq with ⟨rfl, rfl⟩ | ⟨_, hq⟩
      · exact h.ends_signalled hw hk hC heff hne hfin hc hrow
      · exact hfollow (s.follows_afterSpawn k (db', sp')) j q hq hfin hlate pid c hc hrow halive
  · intro k sp hk
    rw [hsp] at hk
    exact hfollow hch k sp hk

/-- The invariant right after the stop. -/
theorem StopCovers.stopped {now : ℕ} (hcov : StopCovers s) (hown : OwnsActive host s.db)
    (hs : fleetStep host policy s (.stop now) = some t) : Stopped t := by
  obtain ⟨hsp, _⟩ := fleetStep_quiet hs (fun _ _ he => by cases he) (fun _ _ he => by cases he)
  obtain ⟨res, hstop⟩ := fleetStep_stop hs
  refine ⟨hcov.takes.settled hown hstop, ?_, ?_⟩ <;> rw [hsp]
  · intro k sp hk hpast
    exact stampedAt_of_stopMarks hown hstop (hcov.pastGate sp (List.mem_of_getElem? hk) hpast)
  · intro k sp hk hpre
    refine (hcov.preStart sp (List.mem_of_getElem? hk) hpre).imp ?_ ?_
    · exact stampedAt_of_stopMarks hown hstop
    · intro hm
      rw [latestStamped_eq, stopTxn_length hstop]
      exact stampedAt_of_stopMarks hown hstop hm

/-- **Operator stop wins.**  Take any run up to a stop on the host that owns the active row.
    When the stop covers the table and the spawns in flight, and afterwards no START is taken
    for the retry of a stopped failure and no Phase C fails over an un-signalled child, then
    nothing is reserved any more and every spawn that ends leaves no running, un-signalled
    child. -/
theorem operator_stop_wins_of_covered {db : Db} {as bs : List FleetLabel} {now : ℕ}
    (h : Path (fleetSystem host policy) anyStep (Fleet.initial db) as s)
    (hown : OwnsActive host s.db) (hcov : StopCovers s)
    (hstop : fleetStep host policy s (.stop now) = some s₁)
    (htail : Path (fleetSystem host policy) AfterStop s₁ bs t) :
    t.spawns.length = s₁.spawns.length ∧ StopWins s₁ t := by
  have hwired : Wired s₁ := (wired_of_path h).step hstop
  have hinv : Wired t ∧ Stopped t ∧ t.spawns.length = s₁.spawns.length ∧ StopWins s₁ t := by
    refine htail.invariant
      (I := fun u => Wired u ∧ Stopped u ∧ u.spawns.length = s₁.spawns.length ∧ StopWins s₁ u) ?_
      ⟨hwired, hcov.stopped hown hstop, rfl, ?_⟩
    · intro u a v ⟨huw, hus, hul, huwins⟩ hC hs
      exact ⟨huw.step hs, hus.step hC hs, (hus.spawns_length hC hs).trans hul,
        huwins.step hus huw hC hs⟩
    · intro k sp hk hfin hlate
      rw [hlate sp hk] at hfin
      cases hfin
  exact hinv.2.2

end Run

/-! ### A redelivered START, and a start raced by the stop -/

/-- The payload factory of spawn `k` fails transiently; the command is not acknowledged. -/
def failTransiently (k : ℕ) : List FleetLabel :=
  [.spawn k (.latch .clear), .spawn k (.lookup none), .spawn k (.latch .clear),
    .spawn k (.factory (.transient "connection reset")), .spawn k (.commit true),
    .spawn k .leave]

/-- **The slip.**  The first delivery of a START fails transiently, the operator stops the
    deployment, which only stamps the failed row, and the redelivered START passes Phase A as
    the retry of a transient failure: Phase A re-reads the intent for restart attempts only,
    and the pre-start gate and Phase C look at the fresh row. -/
theorem operator_stop_fails :
    ¬∀ (db : Db) (as bs : List FleetLabel) (now : ℕ) (s s₁ t : Fleet),
      Path (fleetSystem "h" (some .default)) anyStep (Fleet.initial db) as s →
      OwnsActive "h" s.db →
      fleetStep "h" (some .default) s (.stop now) = some s₁ →
      Path (fleetSystem "h" (some .default)) NoOperatorStart s₁ bs t → StopWins s₁ t := by
  intro h
  obtain ⟨s, s₁, t, hbefore, hown, hstop, hafter, hsp, h₁, hrow, halive, hsig⟩ :
      ∃ s s₁ t, (fleetSystem "h" (some .default)).run (Fleet.initial queuedDb)
          (.reserve (startRequest 1) .none :: failTransiently 0) = some s ∧
        OwnsActive "h" s.db ∧
        fleetStep "h" (some .default) s (.stop 10) = some s₁ ∧
        (fleetSystem "h" (some .default)).runWhere NoOperatorStart s₁
          (.reserve (startRequest 20) .none :: launch 1 0) = some t ∧
        (t.spawns[1]?).map (fun sp => (sp.pc.isFinished, sp.rowId)) = some (true, 1) ∧
        s₁.spawns[1]? = none ∧
        (t.children[0]?).map (·.rowId) = some 1 ∧
        (t.children[0]?).map (·.alive) = some true ∧
        (t.children[0]?).map (·.signalled) = some false :=
    ⟨_, _, _, rfl, by decide, rfl, rfl, rfl, rfl, rfl, rfl, rfl⟩
  obtain ⟨sp, hk, hfin⟩ := Option.map_eq_some_iff.mp hsp
  obtain ⟨hfin, hrowid⟩ := Prod.mk.inj hfin
  obtain ⟨c, hc, hcrow⟩ := Option.map_eq_some_iff.mp hrow
  simp only [hc, Option.map_some, Option.some.injEq] at halive hsig
  have hwins := h queuedDb _ _ 10 s s₁ t (.of_run hbefore) hown hstop (.of_runWhere hafter)
    1 sp hk hfin (fun sp₁ hsp₁ => by simp [h₁] at hsp₁) 0 c hc (hcrow.trans hrowid.symm) halive
  rw [hsig] at hwins
  cases hwins

/-- A stop that commits between the pre-start gate and `process.start()`: Phase C finds the
    intent and terminates the child, and the restart attempt that follows is refused. -/
theorem operator_stop_raced :
    ∃ s s₁ t, Path (fleetSystem "h" (some .default)) anyStep (Fleet.initial queuedDb)
        (.reserve (startRequest 1) .none :: passGates 0) s ∧
      OwnsActive "h" s.db ∧ StopCovers s ∧
      fleetStep "h" (some .default) s (.stop 10) = some s₁ ∧
      Path (fleetSystem "h" (some .default)) AfterStop s₁
        [.stopSignal, .spawn 0 (.start (.ok 0)), .spawn 0 (.phaseC true),
          .childExit 0 (some (-15)), .reap 30, .reserve (restartRequest 50) .none] t ∧
      t.children.length = 1 ∧ t.spawns.length = s₁.spawns.length ∧ StopWins s₁ t := by
  obtain ⟨s, s₁, t, hbefore, hown, hcov, hstop, hafter, hlen⟩ :
      ∃ s s₁ t, (fleetSystem "h" (some .default)).run (Fleet.initial queuedDb)
          (.reserve (startRequest 1) .none :: passGates 0) = some s ∧
        OwnsActive "h" s.db ∧ StopCovers s ∧
        fleetStep "h" (some .default) s (.stop 10) = some s₁ ∧
        (fleetSystem "h" (some .default)).runWhere AfterStop s₁
          [.stopSignal, .spawn 0 (.start (.ok 0)), .spawn 0 (.phaseC true),
            .childExit 0 (some (-15)), .reap 30, .reserve (restartRequest 50) .none] = some t ∧
        t.children.length = 1 := by
    refine ⟨_, _, _, rfl, ?_, ?_, rfl, rfl, rfl⟩
    · decide
    · decide
  have hpath := Path.of_run hbefore
  exact ⟨s, s₁, t, hpath, hown, hcov, hstop, .of_runWhere hafter, hlen,
    operator_stop_wins_of_covered hpath hown hcov hstop (.of_runWhere hafter)⟩

end Msai.Supervisor
