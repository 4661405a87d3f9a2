import Msai.Supervisor.LastRow
import Msai.Supervisor.OneChild

namespace Msai.Supervisor

open Msai.Live Msai.Lib Msai.Lib.TransitionSystem

/-!
# The last writes of a replaced child

The heartbeat sweep fails a row without killing its process, and a restart then reserves a
second row.  The first child is still there: it writes its own row by primary key, and with it
the deployment row that the second child owns by now.  Three writers act on behalf of a child:
`_mark_running`, `_mark_terminal` and the reaper's `_on_child_exit`.

* `Fleet.reportedRow` — the row on whose behalf a label writes;
* `KeepsStatus` — the frame condition on the deployment status;
* `NoLateReport` — no `_mark_terminal` under a live deployment with another active row;
* `late_child_keeps_status_iff` — over every run, the one holds exactly when the other does.

`_mark_running` promotes a live row only, which the unique index makes the active one, and the
reaper syncs the deployment only for a row that was active; `_mark_terminal` looks at the
deployment status alone.
-/

/-! ### Another row is active -/

/-- A row other than `i` occupies the active slot. -/
def Db.otherActive (db : Db) (i : ℕ) : Bool := db.activeId.any fun j => decide (j ≠ i)

variable {db db' : Db} {i j : ℕ} {r : NodeRow}

theorem Db.otherActive_iff :
    db.otherActive i = true ↔ ∃ (j : ℕ) (r : NodeRow), j ≠ i ∧ db.rows[j]? = some r ∧
      r.isActive = true := by
  constructor
  · intro h
    unfold otherActive at h
    cases hid : db.activeId with
    | none =>
      rw [hid] at h
      cases h
    | some j =>
      obtain ⟨r, hr, ha⟩ := Db.activeId_eq_some hid
      exact ⟨j, r, by simpa [hid] using h, hr, ha⟩
  · rintro ⟨j, r, hne, hr, ha⟩
    have hact : db.hasActive = true := Db.hasActive_iff.mpr ⟨j, r, hr, ha⟩
    cases hid : db.activeId with
    | none =>
      rw [Db.activeId_eq_none_iff.mp hid] at hact
      cases hact
    | some k =>
      obtain ⟨r', hr', ha'⟩ := Db.activeId_eq_some hid
      obtain rfl := Db.active_unique hr hr' ha ha'
      simp [Db.otherActive, hid, hne]

/-- Beside another active row, row `i` is not active. -/
theorem Db.not_isActive_of_otherActive (h : db.otherActive i = true)
    (hr : db.rows[i]? = some r) : r.isActive = false := by
  obtain ⟨j, r', hne, hr', ha'⟩ := Db.otherActive_iff.mp h
  by_contra ha
  exact hne (Db.active_unique hr' hr ha' (by simpa using ha))

/-! ### Writes on behalf of a child -/

/-- The status is one a child or its reaper reports. -/
def Status.isReported : Status → Bool
  | .running | .stopped | .failed => true
  | .starting | .building | .ready | .stopping => false

/-- The row on whose behalf a label writes, when the writer is `_mark_running`,
    `_mark_terminal` or `_on_child_exit`. -/
def Fleet.reportedRow (s : Fleet) : FleetLabel → Option ℕ
  | .child pid (.markRunning _) => (s.children[pid]?).map (·.rowId)
  | .child pid (.markTerminal _ _) => (s.children[pid]?).map (·.rowId)
  | .reap _ => (s.handle.bind fun pid => s.children[pid]?).map (·.rowId)
  | _ => none

/-- The frame condition: a write on behalf of row `i` beside another active row moves the
    deployment to none of the reported statuses. -/
def KeepsStatus (host : String) (policy : Option RestartPolicy) (s : Fleet) (a : FleetLabel) :
    Prop :=
  ∀ (i j : ℕ) (r : NodeRow) (t : Fleet), s.reportedRow a = some i → j ≠ i →
    s.db.rows[j]? = some r → r.isActive = true → fleetStep host policy s a = some t →
      t.db.dep.status = s.db.dep.status ∨ t.db.dep.status.isReported = false

/-- No child writes its terminal status while another row is active under a deployment whose
    status is live. -/
def NoLateReport (s : Fleet) : FleetLabel → Prop
  | .child pid (.markTerminal _ _) =>
    ∀ (c : Child) (r : NodeRow), s.children[pid]? = some c → s.db.rows[c.rowId]? = some r →
      s.db.otherActive c.rowId = true → s.db.dep.status.isLive = false
  | _ => True

/-- The status write of `_mark_running` and of the reaper needs the row itself to be active. -/
theorem write_dep_of_otherActive {w : RowWrite} (hw : db.write i w = some db')
    (hother : db.otherActive i = true)
    (hguard : (∃ now, w = .markRunning now) ∨ ∃ e p n, w = .onChildExit e p n) :
    db'.dep = db.dep := by
  rcases Db.write_eq_some hw with ⟨_, rfl⟩ | ⟨r, hr, _, hdep⟩
  · rfl
  · have hina := Db.not_isActive_of_otherActive hother hr
    rw [hdep]
    rcases hguard with ⟨now, rfl⟩ | ⟨e, p, n, rfl⟩
    · have hnot : r.promotable = false := by
        cases hst : r.status <;>
          simp_all [NodeRow.promotable, NodeRow.isActive, Status.isActive, Status.isLive]
      simp [RowWrite.dep, hnot]
    · simp [RowWrite.dep, hina]

/-! ### One step -/

variable {host : String} {policy : Option RestartPolicy} {s t : Fleet} {a : FleetLabel}

/-- The row write of the reaper. -/
theorem fleetStep_reap {now : ℕ} (h : fleetStep host policy s (.reap now) = some t) :
    ∃ c, (s.handle.bind fun pid => s.children[pid]?) = some c ∧
      s.db.write c.rowId (.onChildExit c.exitCode policy.isSome now) = some t.db := by
  obtain ⟨pid, hpid, h⟩ := Option.bind_eq_some_iff.mp h
  obtain ⟨c, hc, h⟩ := Option.bind_eq_some_iff.mp h
  split at h
  · cases h
  · obtain ⟨db', hw, rfl⟩ := Option.map_eq_some_iff.mp h
    exact ⟨c, by rw [hpid]; exact hc, hw⟩

/-- Which write a child performs in `_mark_running` and `_mark_terminal`. -/
theorem childWrite_markRunning {pid now : ℕ} {phase : ChildPhase} {out : RowWrite × ChildPhase}
    (h : childWrite pid phase (.markRunning now) = some out) : out.1 = .markRunning now := by
  cases phase <;> simp only [childWrite, Option.some.injEq, reduceCtorEq] at h
  rw [← h]

theorem childWrite_markTerminal {pid now : ℕ} {report : TerminalReport} {phase : ChildPhase}
    {out : RowWrite × ChildPhase} (h : childWrite pid phase (.markTerminal report now) = some out) :
    out.1 = .markTerminal report now := by
  cases phase <;> simp only [childWrite, Option.some.injEq, reduceCtorEq] at h <;> rw [← h]

/-- The guarded sync of a live deployment is a move to `stopped` or `failed`. -/
theorem syncTerminal_moves {d : Deployment} (h : d.status.isLive = true) (clean : Bool) :
    ¬((d.syncTerminal clean).status = d.status ∨
      (d.syncTerminal clean).status.isReported = false) := by
  have hne : ∀ st : Status, st.isLive = false → st ≠ d.status := by
    intro st hst he
    rw [he, h] at hst
    cases hst
  rcases d.syncTerminal_status clean with hst | hst <;> rw [hst]
  · exact fun hor => hor.elim (hne .stopped rfl) fun hrep => by cases hrep
  · exact fun hor => hor.elim (hne .failed rfl) fun hrep => by cases hrep

/-- `_mark_running` and the reaper keep the status of a restarted deployment. -/
theorem keepsStatus_of_guarded {w : RowWrite} (hi : s.reportedRow a = some i)
    (hw : ∀ t, fleetStep host policy s a = some t → s.db.write i w = some t.db)
    (hguard : (∃ now, w = .markRunning now) ∨ ∃ e p n, w = .onChildExit e p n) :
    KeepsStatus host policy s a := by
  intro i' j r t hi' hne hr ha hs
  obtain rfl : i = i' := by simpa [hi] using hi'
  have hother : s.db.otherActive i = true := Db.otherActive_iff.mpr ⟨j, r, hne, hr, ha⟩
  exact Or.inl (by rw [write_dep_of_otherActive (hw t hs) hother hguard])

/-- `_mark_terminal` keeps the status of a restarted deployment exactly when that status is
    terminal already. -/
theorem keepsStatus_markTerminal_iff {pid now : ℕ} {report : TerminalReport}
    (hs : fleetStep host policy s (.child pid (.markTerminal report now)) = some t) :
    KeepsStatus host policy s (.child pid (.markTerminal report now)) ↔
      NoLateReport s (.child pid (.markTerminal report now)) := by
  obtain ⟨c, out, hc, _, hout, hw⟩ := fleetStep_child hs
  rw [childWrite_markTerminal hout] at hw
  have hrow : s.reportedRow (.child pid (.markTerminal report now)) = some c.rowId := by
    simp [Fleet.reportedRow, hc]
  constructor
  · intro hkeep c' r hc' hr hother
    obtain rfl : c = c' := by simpa [hc] using hc'
    obtain ⟨j, r', hne, hr', ha'⟩ := Db.otherActive_iff.mp hother
    by_contra hlive
    have hmoved := hkeep c.rowId j r' t hrow hne hr' ha' hs
    rw [Db.write_dep hw hr] at hmoved
    exact syncTerminal_moves (by simpa using hlive) report.clean hmoved
  · intro hlate i j r' t' hi hne hr' ha' hs'
    obtain rfl : t = t' := by simpa [hs] using hs'
    obtain rfl : c.rowId = i := by simpa [hrow] using hi
    have hother : s.db.otherActive c.rowId = true := Db.otherActive_iff.mpr ⟨j, r', hne, hr', ha'⟩
    rcases Db.write_eq_some hw with ⟨_, hdb⟩ | ⟨r, hr, _, hdep⟩
    · exact Or.inl (by rw [hdb])
    · -- the deployment is terminal, so the guarded sync leaves it alone
      have hterm := hlate c r hc hr hother
      exact Or.inl (by rw [hdep, RowWrite.dep_of_not_isLive hterm])

/-- **The step lemma.**  An enabled step keeps the status of a restarted deployment exactly
    when it is no late terminal report. -/
theorem keepsStatus_iff_noLateReport (hs : fleetStep host policy s a = some t) :
    KeepsStatus host policy s a ↔ NoLateReport s a := by
  have hquiet : s.reportedRow a = none → NoLateReport s a →
      (KeepsStatus host policy s a ↔ NoLateReport s a) := by
    intro hnone hlate
    refine iff_of_true ?_ hlate
    intro i j r t hi
    rw [hnone] at hi
    cases hi
  cases a with
  | child pid act =>
    cases act with
    | markTerminal report now => exact keepsStatus_markTerminal_iff hs
    | markRunning now =>
      obtain ⟨c, out, hc, _⟩ := fleetStep_child hs
      refine iff_of_true ?_ trivial
      refine keepsStatus_of_guarded (i := c.rowId) (w := .markRunning now)
        (by simp [Fleet.reportedRow, hc]) ?_ (Or.inl ⟨now, rfl⟩)
      intro t' hs'
      obtain ⟨c', out', hc', _, hout', hw'⟩ := fleetStep_child hs'
      obtain rfl : c = c' := by simpa [hc] using hc'
      rwa [childWrite_markRunning hout'] at hw'
    | _ => exact hquiet rfl trivial
  | reap now =>
    obtain ⟨c, hc, _⟩ := fleetStep_reap hs
    refine iff_of_true ?_ trivial
    refine keepsStatus_of_guarded (i := c.rowId)
      (w := .onChildExit c.exitCode policy.isSome now) (by simp [Fleet.reportedRow, hc]) ?_
      (Or.inr ⟨_, _, _, rfl⟩)
    intro t' hs'
    obtain ⟨c', hc', hw'⟩ := fleetStep_reap hs'
    obtain rfl : c = c' := by simpa [hc] using hc'
    exact hw'
  | _ => exact hquiet rfl trivial

/-- **A replaced child and the deployment status.**  In a run of one supervisor, every write
    on behalf of a child beside another active row leaves the deployment status alone if and
    only if no child commits `_mark_terminal` while another row is active and the status is
    live. -/
theorem late_child_keeps_status_iff (host : String) (policy : Option RestartPolicy)
    (s t : Fleet) (as : List FleetLabel) :
    Path (fleetSystem host policy) (KeepsStatus host policy) s as t ↔
      Path (fleetSystem host policy) NoLateReport s as t :=
  Path.congr fun _ _ _ hs => keepsStatus_iff_noLateReport hs

/-! ### The replaced child ends -/

/-- The child of `stalledHeartbeat` ends cleanly after its successor has been started. -/
def lateReport : FleetLabel := .child 0 (.markTerminal ⟨true, .none, none, 0⟩ 60)

/-- **The slip.**  The last write of the replaced child stops the deployment of its
    successor. -/
theorem late_child_keeps_status_fails :
    ¬∀ (as : List FleetLabel) (t : Fleet),
      Path (fleetSystem "h" (some .default)) anyStep (Fleet.initial queuedDb) as t →
        ∀ a, KeepsStatus "h" (some .default) t a := by
  intro h
  obtain ⟨s, hrun, t, hlast, hrow, hlive, hstopped, hactive⟩ :
      ∃ s, (fleetSystem "h" (some .default)).run (Fleet.initial queuedDb) stalledHeartbeat
          = some s ∧
        ∃ t, fleetStep "h" (some .default) s lateReport = some t ∧
          s.reportedRow lateReport = some 0 ∧
          s.db.dep.status = .starting ∧ t.db.dep.status = .stopped ∧
          (s.db.rows[1]?).map (·.isActive) = some true :=
    ⟨_, rfl, _, rfl, rfl, rfl, rfl, rfl⟩
  obtain ⟨r, hr, ha⟩ := Option.map_eq_some_iff.mp hactive
  have hkeep := h stalledHeartbeat s (.of_run hrun) lateReport 0 1 r t hrow (by decide) hr ha hlast
  rw [hlive, hstopped] at hkeep
  rcases hkeep with hsame | hother
  · cases hsame
  · cases hother

end Msai.Supervisor
