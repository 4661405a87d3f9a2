import Msai.Lib.Transition
import Mathlib.Data.Int.Notation

namespace Msai.Jobs

open Msai.Lib Msai.Lib.TransitionSystem

/-!
# The job watchdog (`services/job_watchdog.py`)

A pass selects the pending and running backtests, decides which of them are stuck, does the same
for the research jobs, and commits.  What it has decided reaches the database as UPDATEs by primary
key: those of the backtests are flushed before the second SELECT, those of the research jobs before
the COMMIT.  Meanwhile workers start, refresh, finish and fail the same jobs.

* `checkJobHealth` — the decision on one row;
* `JobRow.flush` — the UPDATE of a loaded object: the columns that were changed;
* `jobSystem` — passes and worker transactions, each SELECT, UPDATE and COMMIT a step;
* `JobUpdate.Spares` — what an UPDATE of a pass owes to a job that is done or alive;
* `FindsStuckJobs` — the condition: the UPDATEs of a pass find the jobs still stuck;
* `watchdog_spares_iff` — the theorem over every run;
* `pass_holds_rows` — what an UPDATE has found is what the COMMIT replaces.
-/

/-! ### The rows -/

inductive JobTable
  | backtests
  | researchJobs
deriving DecidableEq, Repr

inductive JobStatus
  | pending
  | running
  | completed
  | failed
  | cancelled
deriving DecidableEq, Repr

def JobStatus.isOpen : JobStatus → Bool
  | .pending | .running => true
  | .completed | .failed | .cancelled => false

/-- A `backtests` or `research_jobs` row with the columns of its life.  Times are in
    microseconds. -/
structure JobRow where
  table : JobTable
  status : JobStatus
  heartbeatAt : Option ℤ
  createdAt : ℤ
  errorMessage : Option String
  completedAt : Option ℤ
deriving DecidableEq, Repr

/-- One column of an UPDATE: what was loaded and not changed is not written. -/
def flushColumn {α : Type} [DecidableEq α] (current loaded changed : α) : α :=
  if loaded = changed then current else changed

/-- The UPDATE by primary key for an object that was `loaded` and is `changed` now. -/
def JobRow.flush (current loaded changed : JobRow) : JobRow :=
  { current with
    status := flushColumn current.status loaded.status changed.status
    heartbeatAt := flushColumn current.heartbeatAt loaded.heartbeatAt changed.heartbeatAt
    errorMessage := flushColumn current.errorMessage loaded.errorMessage changed.errorMessage
    completedAt := flushColumn current.completedAt loaded.completedAt changed.completedAt }

/-! ### The health check -/

def usPerS : ℤ := 1000000

structure WatchdogSettings where
  jobStaleSeconds : ℤ := 600
  jobPendingGraceSeconds : ℤ := 600
deriving DecidableEq, Repr

def WatchdogSettings.staleCutoff (cfg : WatchdogSettings) (now : ℤ) : ℤ :=
  now - cfg.jobStaleSeconds * usPerS

def WatchdogSettings.pendingCutoff (cfg : WatchdogSettings) (now : ℤ) : ℤ :=
  now - cfg.jobPendingGraceSeconds * usPerS

/-- `_check_job_health`. -/
def checkJobHealth (cfg : WatchdogSettings) (now : ℤ) (row : JobRow) : Option String :=
  match row.status, row.heartbeatAt with
  | .running, some hb =>
    if hb < cfg.staleCutoff now then
      some ("Watchdog: no heartbeat for " ++ toString ((now - hb) / usPerS) ++ " seconds")
    else none
  | .pending, _ =>
    if row.createdAt < cfg.pendingCutoff now then
      some ("Watchdog: stuck in pending for " ++ toString ((now - row.createdAt) / usPerS) ++
        " seconds")
    else none
  | _, _ => none

/-- A job a pass has decided to fail, as the pass has loaded it. -/
structure Verdict where
  /-- The place of the row: its primary key. -/
  index : ℕ
  loaded : JobRow
  now : ℤ
  reason : String
  isOpen : loaded.status.isOpen = true
deriving DecidableEq

/-- The object after the pass has changed it. -/
def Verdict.changed (v : Verdict) : JobRow :=
  { v.loaded with
    status := .failed
    errorMessage := some v.reason
    completedAt := some v.now }

/-- The verdict on one row of the table, if the SELECT returns it and it is not healthy. -/
def verdict (cfg : WatchdogSettings) (now : ℤ) (table : JobTable) (index : ℕ) (row : JobRow) :
    Option Verdict :=
  if h : row.table = table ∧ row.status.isOpen = true then
    (checkJobHealth cfg now row).map fun reason => ⟨index, row, now, reason, h.2⟩
  else none

/-- `_scan_backtests` and `_scan_research_jobs`. -/
def scan (cfg : WatchdogSettings) (now : ℤ) (table : JobTable) (rows : List JobRow) :
    List Verdict :=
  rows.zipIdx.filterMap fun p => verdict cfg now table p.2 p.1

/-! ### The transactions -/

/-- An UPDATE of a pass, with the committed row that it found. -/
structure JobUpdate extends Verdict where
  found : JobRow
deriving DecidableEq

/-- The row as the UPDATE leaves it. -/
def JobUpdate.after (u : JobUpdate) : JobRow := u.found.flush u.loaded u.toVerdict.changed

inductive PassStage
  | beforeBacktests
  | beforeResearchJobs
  | beforeCommit
  | ended
deriving DecidableEq, Repr

/-- A run of `run_watchdog_once`: the verdicts it has yet to flush, and its UPDATEs. -/
structure Pass where
  stage : PassStage
  verdicts : List Verdict
  updates : List JobUpdate
deriving DecidableEq

def Pass.start : Pass := ⟨.beforeBacktests, [], []⟩

def Pass.over : Pass := ⟨.ended, [], []⟩

/-- The writes of the workers. -/
inductive WorkerWrite
  /-- `_start_backtest`, `_mark_running`. -/
  | start
  /-- `_refresh_heartbeat`, `_update_heartbeat`. -/
  | heartbeat
  /-- `_finalize_backtest`, `_finalize_job`. -/
  | finalize
  /-- `_mark_backtest_failed`, `_mark_failed`. -/
  | fail (errorMessage : String)
  /-- `_mark_cancelled`. -/
  | cancel
deriving DecidableEq, Repr

/-- The object after the worker has changed it. -/
def WorkerWrite.changed (w : WorkerWrite) (now : ℤ) (loaded : JobRow) : JobRow :=
  match w with
  | .start => { loaded with status := .running, heartbeatAt := some now }
  | .heartbeat => { loaded with heartbeatAt := some now }
  | .finalize => { loaded with status := .completed, completedAt := some now }
  | .fail errorMessage =>
    { loaded with
      status := .failed
      errorMessage := some errorMessage
      completedAt := some now }
  | .cancel => { loaded with status := .cancelled, completedAt := some now }

/-- `_mark_running` leaves a research job alone that has ended; `_start_backtest` does not ask. -/
def WorkerWrite.refuses (w : WorkerWrite) (loaded : JobRow) : Bool :=
  w == .start && loaded.table == .researchJobs && !loaded.status.isOpen

inductive WorkerTxn
  | called (w : WorkerWrite) (index : ℕ)
  | loaded (w : WorkerWrite) (index : ℕ) (row : JobRow)
  | ended
deriving DecidableEq, Repr

/-- The committed rows of both tables, the passes and the worker transactions, and the UPDATEs of
    the passes that have committed. -/
structure JobSite where
  rows : List JobRow
  passes : List Pass
  workers : List WorkerTxn
  written : List JobUpdate
deriving DecidableEq

def JobSite.initial (rows : List JobRow) : JobSite :=
  { rows := rows, passes := [], workers := [], written := [] }

/-- A pass holds the row from its UPDATE to its end. -/
def JobSite.IsLocked (s : JobSite) (index : ℕ) : Prop :=
  ∃ pass ∈ s.passes, ∃ u ∈ pass.updates, u.index = index

instance (s : JobSite) (index : ℕ) : Decidable (s.IsLocked index) :=
  inferInstanceAs (Decidable (∃ pass ∈ s.passes, ∃ u ∈ pass.updates, u.index = index))

inductive JobLabel
  | call (w : WorkerWrite) (index : ℕ)
  | load (k : ℕ)
  | finish (k : ℕ) (now : ℤ)
  | watch
  /-- The next SELECT of pass `k`, with the checks on its rows. -/
  | select (k : ℕ) (now : ℤ)
  /-- The UPDATE of pass `k` for one of its verdicts. -/
  | update (k j : ℕ)
  | commit (k : ℕ)
  | rollback (k : ℕ)
deriving DecidableEq, Repr

def JobSite.setPass (s : JobSite) (k : ℕ) (pass : Pass) : JobSite :=
  { s with passes := s.passes.set k pass }

def JobSite.setWorker (s : JobSite) (k : ℕ) (w : WorkerTxn) : JobSite :=
  { s with workers := s.workers.set k w }

/-- The rows after the UPDATEs of a pass. -/
def writeUpdates (rows : List JobRow) (updates : List JobUpdate) : List JobRow :=
  updates.foldl (fun rows u => rows.set u.index u.after) rows

/-- The next SELECT of a pass.  A SELECT flushes the verdicts before it. -/
def Pass.select (cfg : WatchdogSettings) (now : ℤ) (rows : List JobRow) (pass : Pass) :
    Option Pass :=
  if pass.verdicts ≠ [] then none
  else
    match pass.stage with
    | .beforeBacktests =>
      some { pass with stage := .beforeResearchJobs, verdicts := scan cfg now .backtests rows }
    | .beforeResearchJobs =>
      some { pass with stage := .beforeCommit, verdicts := scan cfg now .researchJobs rows }
    | .beforeCommit | .ended => none

def jobStep (cfg : WatchdogSettings) (s : JobSite) : JobLabel → Option JobSite
  | .call w index => some { s with workers := s.workers ++ [.called w index] }
  | .load k =>
    match s.workers[k]? with
    | some (.called w index) =>
      (s.rows[index]?).map fun row =>
        s.setWorker k (if w.refuses row then .ended else .loaded w index row)
    | _ => none
  -- the UPDATE of a worker waits for a pass that holds the row
  | .finish k now =>
    match s.workers[k]? with
    | some (.loaded w index row) =>
      if s.IsLocked index then none
      else
        (s.rows[index]?).map fun current =>
          { s.setWorker k .ended with
            rows := s.rows.set index (current.flush row (w.changed now row)) }
    | _ => none
  | .watch => some { s with passes := s.passes ++ [.start] }
  | .select k now =>
    (s.passes[k]?).bind fun pass => (pass.select cfg now s.rows).map (s.setPass k)
  | .update k j =>
    (s.passes[k]?).bind fun pass =>
      (pass.verdicts[j]?).bind fun v =>
        -- so does the UPDATE of a pass for another pass
        if s.IsLocked v.index then none
        else
          (s.rows[v.index]?).map fun found =>
            s.setPass k
              { pass with
                verdicts := pass.verdicts.eraseIdx j
                updates := pass.updates ++ [{ toVerdict := v, found := found }] }
  | .commit k =>
    (s.passes[k]?).bind fun pass =>
      if pass.stage = .beforeCommit ∧ pass.verdicts = [] then
        some
          { s.setPass k .over with
            rows := writeUpdates s.rows pass.updates
            written := s.written ++ pass.updates }
      else none
  | .rollback k =>
    (s.passes[k]?).bind fun pass =>
      if pass.stage = .ended then none else some (s.setPass k .over)

/-- The watchdog and the workers. -/
def jobSystem (cfg : WatchdogSettings) : TransitionSystem JobSite JobLabel := ⟨jobStep cfg⟩

/-! ### Jobs that are done or alive -/

/-- The heartbeat is not older than the pass that wrote the UPDATE allows. -/
def JobUpdate.FoundFresh (cfg : WatchdogSettings) (u : JobUpdate) : Prop :=
  ∃ hb, u.found.heartbeatAt = some hb ∧ cfg.staleCutoff u.now ≤ hb

/-- An UPDATE leaves the outcome of a job alone that has ended, and does not fail one that runs with
    a fresh heartbeat. -/
structure JobUpdate.Spares (cfg : WatchdogSettings) (u : JobUpdate) : Prop where
  ended : u.found.status.isOpen = false →
    u.after.status = u.found.status ∧ u.after.errorMessage = u.found.errorMessage ∧
      u.after.completedAt = u.found.completedAt
  alive : u.found.status = .running → u.FoundFresh cfg → u.after.status ≠ .failed

/-- The UPDATE repeats the failure that it finds. -/
def JobUpdate.Repeats (u : JobUpdate) : Prop :=
  u.found.status = .failed ∧
    (u.loaded.errorMessage = some u.reason ∨ u.found.errorMessage = some u.reason) ∧
    (u.loaded.completedAt = some u.now ∨ u.found.completedAt = some u.now)

/-- The UPDATE finds the job still pending, or running without a fresh heartbeat. -/
def JobUpdate.FoundStuck (cfg : WatchdogSettings) (u : JobUpdate) : Prop :=
  u.found.status = .pending ∨ u.found.status = .running ∧ ¬ u.FoundFresh cfg ∨ u.Repeats

/-- A pass commits nothing but UPDATEs that have found their jobs stuck. -/
def FindsStuckJobs (cfg : WatchdogSettings) (s : JobSite) : JobLabel → Prop
  | .commit k => ∀ pass, s.passes[k]? = some pass → ∀ u ∈ pass.updates, u.FoundStuck cfg
  | _ => True

section Updates

variable {cfg : WatchdogSettings} {u : JobUpdate}

theorem flushColumn_eq_iff {α : Type} [DecidableEq α] {current loaded changed : α} :
    flushColumn current loaded changed = current ↔ loaded = changed ∨ current = changed := by
  unfold flushColumn
  split
  · rename_i h
    exact iff_of_true rfl (Or.inl h)
  · rename_i h
    rw [or_iff_right h]
    exact eq_comm

/-- An UPDATE of a pass fails the job, whatever it finds. -/
theorem JobUpdate.after_status (u : JobUpdate) : u.after.status = .failed := by
  -- the pass has loaded an open job, so its status column is among the changed ones
  show flushColumn u.found.status u.loaded.status .failed = .failed
  refine if_neg fun h => ?_
  have hopen := u.isOpen
  rw [h] at hopen
  exact absurd hopen (by decide)

/-- An UPDATE spares the jobs that are done or alive exactly if it finds a job that is neither. -/
theorem JobUpdate.spares_iff : u.Spares cfg ↔ u.FoundStuck cfg := by
  -- the three columns stay exactly if the UPDATE repeats a failure
  have hended : (u.after.status = u.found.status ∧ u.after.errorMessage = u.found.errorMessage ∧
      u.after.completedAt = u.found.completedAt) ↔ u.Repeats := by
    rw [u.after_status]
    exact and_congr eq_comm (and_congr flushColumn_eq_iff flushColumn_eq_iff)
  have hnot : u.found.status ≠ .failed → ¬ u.Repeats := fun hne h => hne h.1
  constructor
  · intro h
    cases hstatus : u.found.status with
    | pending => exact Or.inl hstatus
    | running =>
      exact Or.inr (Or.inl ⟨hstatus, fun hfresh => h.alive hstatus hfresh u.after_status⟩)
    | completed | failed | cancelled =>
      -- the outcome of a job that has ended is overwritten, unless it is this very failure
      exact Or.inr (Or.inr (hended.mp (h.ended (by rw [hstatus]; rfl))))
  · rintro (hstatus | ⟨hstatus, hstale⟩ | hrepeats)
    · exact ⟨fun hopen => absurd hopen (by simp [hstatus, JobStatus.isOpen]),
        fun hrun => absurd hrun (by simp [hstatus])⟩
    · exact ⟨fun hopen => absurd hopen (by simp [hstatus, JobStatus.isOpen]),
        fun _ hfresh => absurd hfresh hstale⟩
    · exact ⟨fun _ => hended.mpr hrepeats, fun hrun => absurd hrun (by simp [hrepeats.1])⟩

end Updates

/-! ### One step -/

/-- What a step does to the rows, the passes and the UPDATEs that are committed. -/
inductive JobEffect (s : JobSite) : JobLabel → JobSite → Prop
  | works {a : JobLabel} {workers : List WorkerTxn} (hno : ∀ k, a ≠ .commit k) :
    JobEffect s a { s with workers := workers }
  | finishes {k index : ℕ} {now : ℤ} {workers : List WorkerTxn} {row : JobRow}
    (hfree : ¬ s.IsLocked index) :
    JobEffect s (.finish k now) { s with workers := workers, rows := s.rows.set index row }
  | watches : JobEffect s .watch { s with passes := s.passes ++ [.start] }
  | selects {k : ℕ} {now : ℤ} {pass pass' : Pass} (hpass : s.passes[k]? = some pass)
    (hsame : pass'.updates = pass.updates) : JobEffect s (.select k now) (s.setPass k pass')
  | updates {k j : ℕ} {pass pass' : Pass} {u : JobUpdate} (hpass : s.passes[k]? = some pass)
    (hfree : ¬ s.IsLocked u.index) (hfound : s.rows[u.index]? = some u.found)
    (hupdates : pass'.updates = pass.updates ++ [u]) :
    JobEffect s (.update k j) (s.setPass k pass')
  | commits {k : ℕ} {pass : Pass} (hpass : s.passes[k]? = some pass) :
    JobEffect s (.commit k)
      { s.setPass k .over with
        rows := writeUpdates s.rows pass.updates
        written := s.written ++ pass.updates }
  | rollsBack {k : ℕ} : JobEffect s (.rollback k) (s.setPass k .over)

section Steps

variable {cfg : WatchdogSettings} {s t : JobSite} {a : JobLabel} {k index : ℕ} {now : ℤ}
  {pass pass' : Pass} {u : JobUpdate}

/-- A SELECT of a pass adds no UPDATE. -/
theorem Pass.select_updates (h : pass.select cfg now s.rows = some pass') :
    pass'.updates = pass.updates := by
  unfold Pass.select at h
  split at h
  · exact absurd h (by simp)
  · split at h
    · rw [← Option.some.inj h]
    · rw [← Option.some.inj h]
    · exact absurd h (by simp)
    · exact absurd h (by simp)

theorem jobStep_effect (h : jobStep cfg s a = some t) : JobEffect s a t := by
  cases a with
  | call w index =>
    obtain rfl := Option.some.inj h
    exact .works (by simp)
  | load k =>
    simp only [jobStep] at h
    split at h
    · obtain ⟨row, -, rfl⟩ := Option.map_eq_some_iff.mp h
      exact .works (by simp)
    · exact absurd h (by simp)
  | finish k now =>
    simp only [jobStep] at h
    split at h
    · split at h
      · exact absurd h (by simp)
      · rename_i hfree
        obtain ⟨current, -, rfl⟩ := Option.map_eq_some_iff.mp h
        exact .finishes hfree
    · exact absurd h (by simp)
  | watch =>
    obtain rfl := Option.some.inj h
    exact .watches
  | select k now =>
    obtain ⟨pass, hpass, hselect⟩ := Option.bind_eq_some_iff.mp h
    obtain ⟨pass', hpass', rfl⟩ := Option.map_eq_some_iff.mp hselect
    exact .selects hpass (Pass.select_updates hpass')
  | update k j =>
    obtain ⟨pass, hpass, hupdate⟩ := Option.bind_eq_some_iff.mp h
    obtain ⟨v, -, hv⟩ := Option.bind_eq_some_iff.mp hupdate
    split at hv
    · exact absurd hv (by simp)
    · rename_i hfree
      obtain ⟨found, hfound, rfl⟩ := Option.map_eq_some_iff.mp hv
      exact .updates (u := { toVerdict := v, found := found }) hpass hfree hfound rfl
  | commit k =>
    obtain ⟨pass, hpass, hcommit⟩ := Option.bind_eq_some_iff.mp h
    split at hcommit
    · obtain rfl := Option.some.inj hcommit
      exact .commits hpass
    · exact absurd hcommit (by simp)
  | rollback k =>
    obtain ⟨pass, -, hrollback⟩ := Option.bind_eq_some_iff.mp h
    split at hrollback
    · exact absurd hrollback (by simp)
    · obtain rfl := Option.some.inj hrollback
      exact .rollsBack

/-- **One step** spares the jobs that are done or alive exactly if it meets the condition. -/
theorem jobStep_spares_iff (h : jobStep cfg s a = some t) :
    (∀ u ∈ t.written, u.Spares cfg) ↔
      (∀ u ∈ s.written, u.Spares cfg) ∧ FindsStuckJobs cfg s a := by
  cases jobStep_effect h with
  | @commits k pass hpass =>
    -- only a commit writes
    show (∀ u ∈ s.written ++ pass.updates, u.Spares cfg) ↔ _
    rw [List.forall_mem_append]
    refine and_congr_right fun _ => ⟨fun hspares pass' hpass' u hu => ?_, fun hstuck u hu => ?_⟩
    · obtain rfl : pass = pass' := Option.some.inj (hpass.symm.trans hpass')
      exact JobUpdate.spares_iff.mp (hspares u hu)
    · exact JobUpdate.spares_iff.mpr (hstuck pass hpass u hu)
  | works hno =>
    refine (and_iff_left ?_).symm
    unfold FindsStuckJobs
    split
    · exact absurd rfl (hno _)
    · trivial
  | _ => exact (and_iff_left trivial).symm

/-! ### The rows a pass holds -/

/-- What the UPDATEs of the open passes have found is still committed, and no row is held twice. -/
structure PassesHold (s : JobSite) : Prop where
  current : ∀ (k : ℕ) (pass : Pass), s.passes[k]? = some pass → ∀ u ∈ pass.updates,
    s.rows[u.index]? = some u.found
  apart : ∀ (j k : ℕ) (p q : Pass), j ≠ k → s.passes[j]? = some p → s.passes[k]? = some q →
    ∀ u ∈ p.updates, ∀ v ∈ q.updates, u.index ≠ v.index

/-- The UPDATEs of a pass touch no other rows than theirs. -/
theorem getElem?_writeUpdates {rows : List JobRow} {updates : List JobUpdate}
    (h : ∀ u ∈ updates, u.index ≠ index) : (writeUpdates rows updates)[index]? = rows[index]? := by
  induction updates generalizing rows with
  | nil => rfl
  | cons u updates ih =>
    show (writeUpdates (rows.set u.index u.after) updates)[index]? = _
    rw [ih fun v hv => h v (List.mem_cons_of_mem _ hv)]
    exact List.getElem?_set_ne (h u List.mem_cons_self)

/-- A pass may go on with UPDATEs that have found the committed rows, and rows of its own. -/
theorem PassesHold.setPass (hs : PassesHold s)
    (hcurrent : ∀ u ∈ pass'.updates, s.rows[u.index]? = some u.found)
    (hapart : ∀ (j : ℕ) (p : Pass), j ≠ k → s.passes[j]? = some p →
      ∀ u ∈ pass'.updates, ∀ v ∈ p.updates, u.index ≠ v.index) :
    PassesHold (s.setPass k pass') where
  current := by
    intro j p hj
    rcases getElem?_set_cases hj with ⟨-, rfl⟩ | ⟨-, hj⟩
    · exact hcurrent
    · exact hs.current j p hj
  apart := by
    intro j l p q hne hj hl u hu v hv
    rcases getElem?_set_cases hj with ⟨rfl, rfl⟩ | ⟨hjk, hp⟩
    · rcases getElem?_set_cases hl with ⟨hlk, -⟩ | ⟨hlk, hq⟩
      · exact absurd hlk.symm hne
      · exact hapart l q hlk hq u hu v hv
    · rcases getElem?_set_cases hl with ⟨rfl, rfl⟩ | ⟨-, hq⟩
      · exact (hapart j p hjk hp v hv u hu).symm
      · exact hs.apart j l p q hne hp hq u hu v hv

/-- The rows may change where no pass holds them. -/
theorem PassesHold.setRows (hs : PassesHold s) {rows : List JobRow}
    (hrows : ∀ pass ∈ s.passes, ∀ u ∈ pass.updates, rows[u.index]? = s.rows[u.index]?) :
    PassesHold { s with rows := rows } where
  current := by
    intro k pass hpass u hu
    show rows[u.index]? = some u.found
    rw [hrows pass (List.mem_of_getElem? hpass) u hu]
    exact hs.current k pass hpass u hu
  apart := hs.apart

theorem PassesHold.step (hs : PassesHold s) (h : jobStep cfg s a = some t) : PassesHold t := by
  have hover : ∀ k, PassesHold (s.setPass k .over) := by
    intro k
    exact hs.setPass (by simp [Pass.over]) (by simp [Pass.over])
  cases jobStep_effect h with
  | works hno => exact ⟨hs.current, hs.apart⟩
  | @finishes k index now workers row hfree =>
    -- a worker writes only a row that no pass holds
    have hrows : PassesHold { s with rows := s.rows.set index row } := by
      refine hs.setRows fun pass hpass u hu => List.getElem?_set_ne fun heq => ?_
      exact hfree ⟨pass, hpass, u, hu, heq.symm⟩
    exact ⟨hrows.current, hrows.apart⟩
  | watches =>
    refine ⟨fun k pass hpass => ?_, fun j k p q hne hj hk u hu v hv => ?_⟩
    · rcases getElem?_concat_cases hpass with ⟨-, rfl⟩ | hpass
      · simp [Pass.start]
      · exact hs.current k pass hpass
    · rcases getElem?_concat_cases hj with ⟨-, rfl⟩ | hj
      · exact absurd hu List.not_mem_nil
      · rcases getElem?_concat_cases hk with ⟨-, rfl⟩ | hk
        · exact absurd hv List.not_mem_nil
        · exact hs.apart j k p q hne hj hk u hu v hv
  | @selects k now pass pass' hpass hsame =>
    refine hs.setPass (fun u hu => ?_) fun j p hne hj u hu v hv => ?_
    · exact hs.current k pass hpass u (hsame ▸ hu)
    · exact hs.apart k j pass p hne.symm hpass hj u (hsame ▸ hu) v hv
  | @updates k j pass pass' u hpass hfree hfound hupdates =>
    -- the new UPDATE has found the committed row, and no other pass holds it
    have hnew : ∀ {P : JobUpdate → Prop}, (∀ v ∈ pass.updates, P v) → P u →
        ∀ v ∈ pass'.updates, P v := by
      intro P hold hu
      rw [hupdates, List.forall_mem_append, List.forall_mem_singleton]
      exact ⟨hold, hu⟩
    refine hs.setPass (hnew (hs.current k pass hpass) hfound) fun j p hne hj => ?_
    refine hnew (hs.apart k j pass p hne.symm hpass hj) fun v hv heq => ?_
    exact hfree ⟨p, List.mem_of_getElem? hj, v, hv, heq.symm⟩
  | @commits k pass hpass =>
    have hrows :
        PassesHold { s.setPass k .over with rows := writeUpdates s.rows pass.updates } := by
      -- the pass that commits holds no rows any more, and the others hold other rows
      refine (hover k).setRows fun p hp v hv => getElem?_writeUpdates fun u hu => ?_
      obtain ⟨j, hj⟩ := List.getElem?_of_mem hp
      rcases getElem?_set_cases hj with ⟨-, rfl⟩ | ⟨hne, hj⟩
      · exact absurd hv List.not_mem_nil
      · exact hs.apart k j pass p hne.symm hpass hj u hu v hv
    exact ⟨hrows.current, hrows.apart⟩
  | rollsBack => exact hover _

end Steps

/-! ### Every run of the watchdog and the workers -/

section Runs

variable {cfg : WatchdogSettings} {rows : List JobRow} {as : List JobLabel} {s : JobSite}

/-- **The watchdog spares the jobs that are done or alive**, exactly if every pass commits UPDATEs
    that have found their jobs stuck. -/
theorem watchdog_spares_iff (h : Path (jobSystem cfg) anyStep (.initial rows) as s) :
    (∀ u ∈ s.written, u.Spares cfg) ↔
      Path (jobSystem cfg) (FindsStuckJobs cfg) (.initial rows) as s := by
  have hinit : ∀ u ∈ (JobSite.initial rows).written, u.Spares cfg :=
    fun _ hu => absurd hu List.not_mem_nil
  have hstep : ∀ (s : JobSite) (a : JobLabel) (t : JobSite),
      (jobSystem cfg).step s a = some t → ((∀ u ∈ t.written, u.Spares cfg) ↔
        (∀ u ∈ s.written, u.Spares cfg) ∧ FindsStuckJobs cfg s a) :=
    fun _ _ _ hstep => jobStep_spares_iff hstep
  exact h.good_iff hstep hinit

/-- From its UPDATE on a pass holds the row: what the UPDATE has found is what the commit
    replaces. -/
theorem pass_holds_rows (h : Path (jobSystem cfg) anyStep (.initial rows) as s)
    {pass : Pass} (hpass : pass ∈ s.passes) {u : JobUpdate} (hu : u ∈ pass.updates) :
    s.rows[u.index]? = some u.found := by
  have hinit : PassesHold (JobSite.initial rows) := by
    refine ⟨fun k pass hpass => ?_, fun j k p q _ hp => ?_⟩
    · exact absurd hpass (by simp [JobSite.initial])
    · exact absurd hp (by simp [JobSite.initial])
  have hhold : PassesHold s := h.invariant (fun _ _ _ hs _ hstep => hs.step hstep) hinit
  obtain ⟨k, hk⟩ := List.getElem?_of_mem hpass
  exact hhold.current k pass hk u hu

end Runs

/-! ### A worker between the SELECT and the UPDATE -/

/-- A backtest whose last heartbeat is 601 seconds old at second 1000. -/
def silentBacktest : JobRow where
  table := .backtests
  status := .running
  heartbeatAt := some (399 * usPerS)
  createdAt := 0
  errorMessage := none
  completedAt := none

/-- A pass that finds nobody at work. -/
def leftAlone : List JobLabel :=
  [.watch, .select 0 (1000 * usPerS), .update 0 0, .select 0 (1000 * usPerS), .commit 0]

/-- A pass with the last write of the worker between its SELECT and its UPDATE. -/
def finishedBetween : List JobLabel :=
  [.call .finalize 0, .load 0, .watch, .select 0 (1000 * usPerS), .finish 0 (1000 * usPerS),
    .update 0 0, .select 0 (1000 * usPerS), .commit 0]

theorem watchdog_spares_left_alone : ∃ s,
    Path (jobSystem {}) (FindsStuckJobs {}) (.initial [silentBacktest]) leftAlone s ∧
      s.rows.map (fun r => (r.status, r.errorMessage)) =
        [(.failed, some "Watchdog: no heartbeat for 601 seconds")] := by
  have hend : ∃ s ∈ (jobSystem {}).run (.initial [silentBacktest]) leftAlone,
      (∀ u ∈ s.written, u.found = silentBacktest ∧ u.now = 1000 * usPerS) ∧
        s.rows.map (fun r => (r.status, r.errorMessage)) =
          [(.failed, some "Watchdog: no heartbeat for 601 seconds")] := by
    decide +kernel
  obtain ⟨s, hrun, hwritten, hrows⟩ := hend
  have hspares : ∀ u ∈ s.written, u.Spares {} := by
    intro u hu
    have hstale : ¬ u.FoundFresh {} := by
      rintro ⟨hb, hfound, hle⟩
      rw [(hwritten u hu).1] at hfound
      rw [(hwritten u hu).2, ← Option.some.inj hfound] at hle
      exact absurd hle (by decide)
    have hrunning : u.found.status = .running := by rw [(hwritten u hu).1]; rfl
    exact JobUpdate.spares_iff.mpr (Or.inr (Or.inl ⟨hrunning, hstale⟩))
  exact ⟨s, (watchdog_spares_iff (.of_run hrun)).mp hspares, hrows⟩

/-- **The slip.**  The backtest has completed, and the pass fails it. -/
theorem watchdog_spares_fails :
    ¬∀ (as : List JobLabel) (s : JobSite),
      Path (jobSystem {}) anyStep (.initial [silentBacktest]) as s →
        ∀ u ∈ s.written, u.Spares {} := by
  have hend : ∃ s ∈ (jobSystem {}).run (.initial [silentBacktest]) finishedBetween,
      ∃ u ∈ s.written, u.found.status = .completed ∧ u.after.status = .failed := by
    decide +kernel
  obtain ⟨s, hrun, u, hu, hfound, hafter⟩ := hend
  intro h
  have hkept := ((h finishedBetween s (.of_run hrun) u hu).ended (by rw [hfound]; rfl)).1
  rw [hafter, hfound] at hkept
  exact absurd hkept (by decide)

end Msai.Jobs
