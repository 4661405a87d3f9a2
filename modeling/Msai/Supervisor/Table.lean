import Msai.Lib.Transition
import Msai.Supervisor.Transactions

namespace Msai.Supervisor

open Msai.Live Msai.Lib Msai.Lib.TransitionSystem

/-!
# The table under any sequence of transactions

`tableSystem` lets every writer of the two tables commit at any time and in any order, so a
run of it is a serialisation of any interleaving of the child, the supervisor and the API.

* `tableStep_cases` — what one transaction does to the node rows;
* `status_forward_of_guarded` — over a whole run a row never goes back from `stopping` or
  from a terminal status, as long as `_self_write_pid` and `_mark_ready` find it live.  The
  two update by primary key alone, without the guard `_mark_running` has.
-/

/-- One committed transaction. -/
inductive Txn
  | phaseA (req : SpawnRequest) (other : OtherStartup)
  | stop (host : String) (now : ℕ)
  | write (rowId : ℕ) (w : RowWrite)
  /-- `/start-portfolio`: the upsert of the deployment row. -/
  | apiStart (now : ℕ)
  /-- Any other status write of the API on the deployment row. -/
  | apiStatus (st : Status) (h : st ≠ .stopping)

/-- The upsert of `/start-portfolio` on an existing row. -/
def apiStartDep (d : Deployment) (now : ℕ) : Deployment :=
  { (if d.status.isLive then d else d.setStatus .starting Status.starting_ne_stopping) with
    lastStartedAt := some now }

/-- The effect of one transaction. -/
def tableStep (policy : Option RestartPolicy) (db : Db) : Txn → Option Db
  | .phaseA req other => (phaseA policy db req other).map (·.2)
  | .stop host now => (stopTxn host now db).map (·.2)
  | .write i w => db.write i w
  | .apiStart now => some (db.setDep (apiStartDep db.dep now))
  | .apiStatus st h => some (db.setDep (db.dep.setStatus st h))

/-- The table as a transition system. -/
def tableSystem (policy : Option RestartPolicy) : TransitionSystem Db Txn where
  step := tableStep policy

section Step

variable {policy : Option RestartPolicy} {db db' : Db} {a : Txn}

/-- What one transaction does to the node rows: nothing, one insert, or one write.  Only a
    transaction labelled so performs an unguarded self-write. -/
theorem tableStep_cases (h : tableStep policy db a = some db') :
    db'.rows = db.rows ∨
    (∃ req other, a = .phaseA req other ∧ phaseAGate db req other = none ∧
      db'.rows = db.rows ++ [reservedRow policy req db.dep]) ∨
    (∃ i w, db.write i w = some db' ∧ (w.isUnguarded = true → a = .write i w)) := by
  cases a with
  | phaseA req other =>
    obtain ⟨⟨o, db₁⟩, hA, rfl⟩ := Option.map_eq_some_iff.mp h
    rcases phaseA_cases hA with ⟨hdb, _⟩ | ⟨_, hgate, _, hrows, _⟩
    · exact Or.inl (congrArg Db.rows hdb)
    · exact Or.inr (Or.inl ⟨req, other, rfl, hgate, hrows⟩)
  | stop host now =>
    obtain ⟨⟨res, db₁⟩, hS, rfl⟩ := Option.map_eq_some_iff.mp h
    rcases stopTxn_cases hS with ⟨i, r, _, _, _, _, hw⟩ | ⟨_, _, rfl⟩ | ⟨_, _, hcase⟩
    · exact Or.inr (Or.inr ⟨i, _, hw, fun hu => by cases hu⟩)
    · exact Or.inl rfl
    · rcases hcase with ⟨_, rfl⟩ | ⟨_, _, hw⟩ | ⟨_, _, rfl⟩
      · exact Or.inl rfl
      · exact Or.inr (Or.inr ⟨_, _, hw, fun hu => by cases hu⟩)
      · refine Or.inl ?_
        unfold stopPreActive
        split <;> rfl
  | write i w => exact Or.inr (Or.inr ⟨i, w, h, fun _ => rfl⟩)
  | apiStart now =>
    obtain rfl := Option.some.inj h
    exact Or.inl rfl
  | apiStatus st hst =>
    obtain rfl := Option.some.inj h
    exact Or.inl rfl

end Step

/-! ### The order of a row's statuses -/

/-- The side condition: `_self_write_pid` and `_mark_ready` commit only while their row is in
    a live status. -/
def SelfWriteOnLive (db : Db) : Txn → Prop
  | .write i w => w.isUnguarded = true → (db.rows[i]?).all (·.status.isLive) = true
  | _ => True

instance (db : Db) (a : Txn) : Decidable (SelfWriteOnLive db a) :=
  match a with
  | .write i w =>
    inferInstanceAs
      (Decidable (w.isUnguarded = true → (db.rows[i]?).all (·.status.isLive) = true))
  | .phaseA _ _ | .stop _ _ | .apiStart _ | .apiStatus _ _ => isTrue trivial

/-- Every row of the first table is in the second, at the same or a later stage. -/
def Forward (db db' : Db) : Prop :=
  ∀ (i : ℕ) (r : NodeRow), db.rows[i]? = some r →
    ∃ r', db'.rows[i]? = some r' ∧ r.status.stage ≤ r'.status.stage

theorem Forward.refl (db : Db) : Forward db db := fun _ r hr => ⟨r, hr, Nat.le_refl _⟩

theorem Forward.trans {db db' db'' : Db} (h : Forward db db') (h' : Forward db' db'') :
    Forward db db'' := by
  intro i r hr
  obtain ⟨r', hr', hle⟩ := h i r hr
  obtain ⟨r'', hr'', hle'⟩ := h' i r' hr'
  exact ⟨r'', hr'', Nat.le_trans hle hle'⟩

variable {policy : Option RestartPolicy} {db db' : Db}

/-- One transaction moves every row forward. -/
theorem forward_of_step {a : Txn} (hC : SelfWriteOnLive db a)
    (h : tableStep policy db a = some db') : Forward db db' := by
  intro i r hr
  rcases tableStep_cases h with hrows | ⟨req, other, _, _, hrows⟩ | ⟨j, w, hw, hu⟩
  · exact ⟨r, by rw [hrows, hr], Nat.le_refl _⟩
  · -- Phase A appends behind the existing rows
    have hi := (List.getElem?_eq_some_iff.mp hr).1
    exact ⟨r, by rw [hrows, List.getElem?_append_left hi, hr], Nat.le_refl _⟩
  · rcases Db.write_getElem?_cases hw hr with hr' | ⟨rfl, hr'⟩
    · exact ⟨r, hr', Nat.le_refl _⟩
    · refine ⟨_, hr', RowWrite.row_stage ?_⟩
      -- an unguarded write is one by its label, and the condition speaks about it
      by_cases hug : w.isUnguarded = true
      · rw [hu hug] at hC
        have hlive := hC hug
        rw [hr] at hlive
        exact Or.inr hlive
      · exact Or.inl (by simpa using hug)

/-- **A node row never goes backwards.**  In every run in which the unguarded self-writes
    find their row live, a row that left the active set never re-enters it, and a row that
    is stopping never returns to `starting`, `building`, `ready` or `running`. -/
theorem status_forward_of_guarded {txns : List Txn} {i : ℕ} {r : NodeRow}
    (h : Path (tableSystem policy) SelfWriteOnLive db txns db') (hr : db.rows[i]? = some r) :
    ∃ r', db'.rows[i]? = some r' ∧
      (r.status.isActive = false → r'.status.isActive = false) ∧
      (r.status = .stopping → r'.status.isLive = false) := by
  have hfwd : Forward db db' :=
    h.relates (I := fun _ => True) (fun _ _ _ _ _ _ => trivial) Forward.refl
      (fun h h' => h.trans h') (fun _ _ _ _ hC hs => forward_of_step hC hs) trivial
  obtain ⟨r', hr', hle⟩ := hfwd i r hr
  -- both halves are about the stages 0 (live), 1 (stopping) and 2 (terminal)
  refine ⟨r', hr', ?_, ?_⟩
  · intro hina
    by_contra hact
    rw [Status.isActive_of_stage_le hle (by simpa using hact)] at hina
    cases hina
  · intro hstop
    by_contra hlive
    have hzero := Status.stage_eq_zero_iff.mpr (by simpa using hlive : r'.status.isLive = true)
    rw [hzero, hstop] at hle
    exact absurd hle (by decide)

/-! ### A slow start under a stop -/

/-- Phase A, Phase C, a stop, and the self-write of the child that was still importing. -/
def slowStart : List Txn :=
  [.phaseA (startRequest 1) .none, .write 0 (.phaseC 7), .stop "h" 2,
    .write 0 (.selfWritePid 7 3)]

/-- **The slip.**  The child's first write puts a stopping row back to `building`. -/
theorem status_forward_fails :
    ¬∀ (txns : List Txn) (db db' : Db) (i : ℕ) (r : NodeRow),
      Path (tableSystem none) anyStep db txns db' → db.rows[i]? = some r →
        ∃ r', db'.rows[i]? = some r' ∧
          (r.status.isActive = false → r'.status.isActive = false) ∧
          (r.status = .stopping → r'.status.isLive = false) := by
  intro h
  -- the state after the stop, and the one step that follows it
  obtain ⟨db, _, db', hlast, hstop, hback⟩ :
      ∃ db, (tableSystem none).run queuedDb (slowStart.take 3) = some db ∧
        ∃ db', (tableSystem none).run db (slowStart.drop 3) = some db' ∧
          (db.rows[0]?).map (·.status) = some .stopping ∧
          (db'.rows[0]?).map (·.status) = some .building :=
    ⟨_, rfl, _, rfl, rfl, rfl⟩
  obtain ⟨r, hr, hst⟩ := Option.map_eq_some_iff.mp hstop
  obtain ⟨r', hr', _, hnolive⟩ := h _ db db' 0 r (.of_run hlast) hr
  have hbuilding : r'.status = .building := by simpa [hr'] using hback
  have hfalse := hnolive hst
  rw [hbuilding] at hfalse
  cases hfalse

/-- A child that is up before it is stopped: `building`, `ready`, `stopping`, `stopped`. -/
def promptStart : List Txn :=
  [.phaseA (startRequest 1) .none, .write 0 (.phaseC 7), .write 0 (.selfWritePid 7 2),
    .write 0 (.markReady 3), .stop "h" 4, .write 0 (.heartbeat 5),
    .write 0 (.markTerminal ⟨true, .none, none, 0⟩ 6)]

/-- The stop of a child that is up is final. -/
theorem status_forward_promptStart :
    ∃ db db' r r', Path (tableSystem none) SelfWriteOnLive queuedDb (promptStart.take 5) db ∧
      Path (tableSystem none) SelfWriteOnLive db (promptStart.drop 5) db' ∧
      db.rows[0]? = some r ∧ r.status = .stopping ∧
      db'.rows[0]? = some r' ∧ r'.status.isLive = false := by
  obtain ⟨db, hfirst, db', hrest, hstop⟩ :
      ∃ db, (tableSystem none).runWhere SelfWriteOnLive queuedDb (promptStart.take 5) = some db ∧
        ∃ db', (tableSystem none).runWhere SelfWriteOnLive db (promptStart.drop 5) = some db' ∧
          (db.rows[0]?).map (·.status) = some .stopping :=
    ⟨_, rfl, _, rfl, rfl⟩
  obtain ⟨r, hr, hst⟩ := Option.map_eq_some_iff.mp hstop
  have hpath := Path.of_runWhere hrest
  obtain ⟨r', hr', _, hlive⟩ := status_forward_of_guarded hpath hr
  exact ⟨db, db', r, r', .of_runWhere hfirst, hpath, hr, hst, hr', hlive hst⟩

end Msai.Supervisor
