import Msai.Lib.Transition
import Mathlib.Data.List.Chain

namespace Msai.Portfolio

open Msai.Lib Msai.Lib.TransitionSystem

/-!
# The life of a portfolio run
(`services/portfolio/lifecycle.py`, `services/portfolio/orchestration.py`, `api/portfolio.py`)

A worker starts a run, beats for it, and completes or fails it, while an operator may cancel it.
The start, the two completions and the cancel are conditional UPDATEs, which find a run that is
not finished or write nothing.  `heartbeat_run` and `mark_run_failed` read the row, look at its
status, and write by primary key in a later statement.

* `RunWrite.apply` — the conditional UPDATEs;
* `RunTxn`, `runStep` — the transactions on one run, each read and each commit a step;
* `StaysFinished` — what a finished run owes to the later ones;
* `FailsOpenRun` — the condition: `mark_run_failed` commits while the run is not finished;
* `finished_run_stays_iff` — the theorem over every run of the transactions.
-/

/-! ### The row -/

/-- `PortfolioRunStatus`. -/
inductive PortfolioRunStatus
  | pending
  | running
  | completed
  | failed
  | canceled
deriving DecidableEq, Repr

def PortfolioRunStatus.value : PortfolioRunStatus → String
  | .pending => "pending"
  | .running => "running"
  | .completed => "completed"
  | .failed => "failed"
  | .canceled => "canceled"

def PortfolioRunStatus.isTerminal : PortfolioRunStatus → Bool
  | .completed | .failed | .canceled => true
  | .pending | .running => false

/-- The result columns.  JSON values and metrics are of type `J`. -/
structure RunResults (J : Type) where
  metrics : Option J
  series : Option J
  allocations : Option J
  reportPath : Option String
  optimizationTrace : Option J
  walkForwardPayload : Option J
  isMetric : Option J
  oosMetric : Option J
deriving DecidableEq, Repr

/-- A `portfolio_runs` row with the columns of its life. -/
structure PortfolioRun (J : Type) where
  id : String
  status : PortfolioRunStatus
  errorMessage : Option String
  results : RunResults J
  heartbeatAt : Option ℕ
  completedAt : Option ℕ
deriving DecidableEq, Repr

/-- What an operator sees of a finished run. -/
def PortfolioRun.outcome {J : Type} (r : PortfolioRun J) :
    PortfolioRunStatus × Option String × RunResults J :=
  (r.status, r.errorMessage, r.results)

/-! ### The conditional UPDATEs -/

/-- The values of the Quick-mode completion. -/
structure QuickResults (J : Type) where
  metrics : J
  series : J
  allocations : J
  reportPath : String
  walkForwardPayload : J
deriving DecidableEq, Repr

/-- The values of the Full-mode completion. -/
structure FullResults (J : Type) where
  isMetric : J
  oosMetric : J
  optimizationTrace : J
  walkForwardPayload : J
  allocations : J
  metrics : J
deriving DecidableEq, Repr

inductive RunWrite (J : Type)
  /-- `mark_run_running`. -/
  | markRunning
  /-- Phase 3 of `run_portfolio_backtest`. -/
  | completeQuick (r : QuickResults J)
  /-- The end of `_run_full_mode`. -/
  | completeFull (r : FullResults J)
  /-- `cancel_portfolio_run`. -/
  | cancel
deriving DecidableEq, Repr

section Life

variable {J : Type}

/-- The columns of the UPDATE. -/
def RunWrite.values (w : RunWrite J) (now : ℕ) (r : PortfolioRun J) : PortfolioRun J :=
  match w with
  | .markRunning =>
    { r with status := .running, heartbeatAt := some now, errorMessage := none }
  | .completeQuick q =>
    { r with
      status := .completed
      results :=
        { r.results with
          metrics := some q.metrics
          series := some q.series
          allocations := some q.allocations
          reportPath := some q.reportPath
          walkForwardPayload := some q.walkForwardPayload }
      heartbeatAt := some now
      completedAt := some now
      errorMessage := none }
  | .completeFull f =>
    { r with
      status := .completed
      results :=
        { r.results with
          isMetric := some f.isMetric
          oosMetric := some f.oosMetric
          optimizationTrace := some f.optimizationTrace
          walkForwardPayload := some f.walkForwardPayload
          allocations := some f.allocations
          metrics := some f.metrics }
      heartbeatAt := some now
      completedAt := some now
      errorMessage := none }
  | .cancel => { r with status := .canceled, completedAt := some now }

/-- `UPDATE portfolio_runs ... WHERE id = ... AND status IN ('pending', 'running')`. -/
def RunWrite.apply (w : RunWrite J) (now : ℕ) (r : PortfolioRun J) : PortfolioRun J :=
  if r.status.isTerminal then r else w.values now r

/-- What a call returns or raises. -/
inductive RunAnswer (J : Type)
  | returned (run : PortfolioRun J)
  | refused (text : String)
  | silent
deriving DecidableEq, Repr

/-- The answer of a call whose UPDATE has matched the row or not, from the row it reads then. -/
def RunWrite.answer (w : RunWrite J) (matched : Bool) (r : PortfolioRun J) : RunAnswer J :=
  match w with
  | .markRunning =>
    if matched then .returned r
    else
      .refused ("Portfolio run " ++ r.id ++ " is already " ++ r.status.value ++
        "; refusing to restart")
  | .completeQuick _ | .completeFull _ => .returned r
  | .cancel =>
    if matched then .returned r
    else .refused ("Portfolio run " ++ r.id ++ " is " ++ r.status.value ++ "; cannot cancel")

/-! ### The transactions -/

/-- Where a transaction stands. -/
inductive RunTxn (J : Type)
  /-- Before its conditional UPDATE. -/
  | updating (w : RunWrite J)
  /-- The UPDATE is committed. -/
  | updated (w : RunWrite J) (matched : Bool)
  /-- `heartbeat_run` before its read. -/
  | heartbeat
  /-- The run it has read is not finished. -/
  | beating
  /-- `mark_run_failed` before its read. -/
  | markFailed (errorMessage : String)
  /-- The run it has read is not finished. -/
  | failing (loaded : PortfolioRun J) (errorMessage : String)
  /-- Before the refresh. -/
  | failed
  | finished (answer : RunAnswer J)
deriving DecidableEq, Repr

/-- The UPDATE that the flush of `mark_run_failed` emits: the columns that differ from what was
    loaded, for the primary key. -/
def PortfolioRun.writeFailed (r loaded : PortfolioRun J) (errorMessage : String) (now : ℕ) :
    PortfolioRun J :=
  { r with
    status := .failed
    errorMessage :=
      if loaded.errorMessage = some errorMessage then r.errorMessage else some errorMessage
    completedAt := some now }

/-- The row, the rows that were committed before, and the transactions. -/
structure RunSite (J : Type) where
  row : PortfolioRun J
  past : List (PortfolioRun J)
  txns : List (RunTxn J)
deriving DecidableEq, Repr

/-- All committed states of the row, the first one first. -/
def RunSite.history (s : RunSite J) : List (PortfolioRun J) := s.past ++ [s.row]

/-- A run before any transaction. -/
def RunSite.initial (row : PortfolioRun J) : RunSite J := { row := row, past := [], txns := [] }

inductive RunLabel (J : Type)
  | begin (t : RunTxn J)
  /-- The next statement of transaction `k`. -/
  | next (k now : ℕ)
deriving DecidableEq, Repr

/-- A transaction that has not run yet. -/
def RunTxn.isNew : RunTxn J → Bool
  | .updating _ | .heartbeat | .markFailed _ => true
  | _ => false

/-- The transaction reads, and goes on as `t`. -/
def RunSite.read (s : RunSite J) (k : ℕ) (t : RunTxn J) : RunSite J :=
  { s with txns := s.txns.set k t }

/-- The transaction writes and commits, and goes on as `t`. -/
def RunSite.commit (s : RunSite J) (k : ℕ) (t : RunTxn J) (row : PortfolioRun J) : RunSite J :=
  { row := row, past := s.history, txns := s.txns.set k t }

/-- The next statement of a transaction. -/
def runNext (s : RunSite J) (k now : ℕ) : RunTxn J → Option (RunSite J)
  | .updating w => some (s.commit k (.updated w (!s.row.status.isTerminal)) (w.apply now s.row))
  | .updated w matched => some (s.read k (.finished (w.answer matched s.row)))
  | .heartbeat =>
    some (s.read k (if s.row.status.isTerminal then .finished .silent else .beating))
  | .beating =>
    some (s.commit k (.finished .silent) { s.row with heartbeatAt := some now })
  | .markFailed errorMessage =>
    some (s.read k
      (if s.row.status.isTerminal then
        .finished (.refused ("Portfolio run " ++ s.row.id ++ " is already " ++
          s.row.status.value ++ "; refusing to mark failed"))
      else .failing s.row errorMessage))
  | .failing loaded errorMessage =>
    some (s.commit k .failed (s.row.writeFailed loaded errorMessage now))
  | .failed => some (s.read k (.finished (.returned s.row)))
  | .finished _ => none

def runStep (s : RunSite J) : RunLabel J → Option (RunSite J)
  | .begin t => if t.isNew then some { s with txns := s.txns ++ [t] } else none
  | .next k now => (s.txns[k]?).bind (runNext s k now)

/-- The transactions on one portfolio run. -/
def runSystem (J : Type) : TransitionSystem (RunSite J) (RunLabel J) := ⟨runStep⟩

/-! ### Finished runs -/

/-- Behind a finished run every committed row has its outcome. -/
def StaysFinished (earlier later : PortfolioRun J) : Prop :=
  earlier.status.isTerminal = true → later.outcome = earlier.outcome

instance [DecidableEq J] (earlier later : PortfolioRun J) :
    Decidable (StaysFinished earlier later) :=
  inferInstanceAs (Decidable (_ → _))

/-- `mark_run_failed` commits while the run is not finished, or writes what the run has. -/
def FailsOpenRun (s : RunSite J) : RunLabel J → Prop
  | .begin _ => True
  | .next k _ => ∀ loaded errorMessage, s.txns[k]? = some (.failing loaded errorMessage) →
    s.row.status.isTerminal = false ∨
      s.row.status = .failed ∧
        (loaded.errorMessage = some errorMessage ∨ s.row.errorMessage = some errorMessage)

section Steps

variable {s t : RunSite J} {a : RunLabel J} {k now : ℕ} {r r' : PortfolioRun J}

theorem PortfolioRun.status_of_outcome (h : r'.outcome = r.outcome) : r'.status = r.status :=
  congrArg Prod.fst h

instance : IsTrans (PortfolioRun J) StaysFinished where
  trans r₁ r₂ r₃ h h' hfinished := by
    have hsame := h hfinished
    have hfinished' : r₂.status.isTerminal = true := by
      rw [PortfolioRun.status_of_outcome hsame]
      exact hfinished
    exact (h' hfinished').trans hsame

/-- The conditional UPDATEs find no finished run. -/
theorem staysFinished_apply (w : RunWrite J) (now : ℕ) (r : PortfolioRun J) :
    StaysFinished r (w.apply now r) := by
  intro hfinished
  -- the WHERE clause asks for a status that is not terminal
  rw [RunWrite.apply, if_pos hfinished]

/-- A heartbeat by primary key writes none of the columns of the outcome. -/
theorem staysFinished_heartbeat (now : ℕ) (r : PortfolioRun J) :
    StaysFinished r { r with heartbeatAt := some now } := fun _ => rfl

/-- The write of `mark_run_failed` leaves a finished run alone only if it repeats its failure. -/
theorem staysFinished_writeFailed_iff {loaded : PortfolioRun J} {errorMessage : String} :
    StaysFinished r (r.writeFailed loaded errorMessage now) ↔
      r.status.isTerminal = false ∨
        r.status = .failed ∧
          (loaded.errorMessage = some errorMessage ∨ r.errorMessage = some errorMessage) := by
  have houtcome : (r.writeFailed loaded errorMessage now).outcome = r.outcome ↔
      r.status = .failed ∧
        (loaded.errorMessage = some errorMessage ∨ r.errorMessage = some errorMessage) := by
    simp only [PortfolioRun.outcome, PortfolioRun.writeFailed, Prod.mk.injEq, and_true]
    -- the status is written, and the message only if it differs from what was loaded
    refine and_congr eq_comm ?_
    split
    · rename_i hloaded
      exact iff_of_true rfl (Or.inl hloaded)
    · rename_i hloaded
      rw [or_iff_right hloaded]
      exact eq_comm
  cases hfinished : r.status.isTerminal with
  | false => exact iff_of_true (fun h => absurd (hfinished.symm.trans h) (by simp)) (Or.inl rfl)
  | true =>
    rw [StaysFinished, houtcome]
    exact ⟨fun h => Or.inr (h hfinished), fun h _ => h.resolve_left (by simp)⟩

/-- A commit keeps the finished runs if it keeps the last one. -/
theorem pairwise_history_commit {x : RunTxn J} :
    (s.commit k x r).history.Pairwise StaysFinished ↔
      s.history.Pairwise StaysFinished ∧ StaysFinished s.row r := by
  show (s.history ++ [r]).Pairwise StaysFinished ↔ _
  -- the relation is transitive, so neighbours are enough
  rw [← List.isChain_iff_pairwise, ← List.isChain_iff_pairwise, List.isChain_append]
  have hlast : s.history.getLast? = some s.row := List.getLast?_concat
  constructor
  · rintro ⟨hchain, -, hstays⟩
    exact ⟨hchain, hstays s.row hlast r rfl⟩
  · rintro ⟨hchain, hstays⟩
    refine ⟨hchain, .singleton r, fun x hx y hy => ?_⟩
    obtain rfl := Option.some.inj (hlast.symm.trans hx)
    obtain rfl := Option.some.inj hy
    exact hstays

/-- **One statement** keeps the finished runs finished exactly if it meets the condition. -/
theorem runStep_staysFinished_iff (h : runStep s a = some t) :
    t.history.Pairwise StaysFinished ↔ s.history.Pairwise StaysFinished ∧ FailsOpenRun s a := by
  -- a read commits nothing, and no commit but the one of a failure can miss the condition
  have hread : t.history = s.history → FailsOpenRun s a →
      (t.history.Pairwise StaysFinished ↔
        s.history.Pairwise StaysFinished ∧ FailsOpenRun s a) := by
    intro hsame hcond
    rw [hsame]
    exact (and_iff_left hcond).symm
  cases a with
  | begin x =>
    simp only [runStep] at h
    split at h
    · obtain rfl := Option.some.inj h
      exact hread rfl trivial
    · exact absurd h (by simp)
  | next k now =>
    obtain ⟨x, hx, hnext⟩ := Option.bind_eq_some_iff.mp h
    have hcond : (∀ loaded e, x ≠ .failing loaded e) → FailsOpenRun s (.next k now) := by
      intro hne loaded e hfailing
      exact absurd (Option.some.inj (hx.symm.trans hfailing)) (hne loaded e)
    cases x with
    | updating w =>
      obtain rfl := Option.some.inj hnext
      rw [pairwise_history_commit]
      exact and_congr_right fun _ =>
        iff_of_true (staysFinished_apply w now s.row) (hcond (by simp))
    | updated w matched =>
      obtain rfl := Option.some.inj hnext
      exact hread rfl (hcond (by simp))
    | heartbeat =>
      obtain rfl := Option.some.inj hnext
      exact hread rfl (hcond (by simp))
    | beating =>
      obtain rfl := Option.some.inj hnext
      rw [pairwise_history_commit]
      exact and_congr_right fun _ =>
        iff_of_true (staysFinished_heartbeat now s.row) (hcond (by simp))
    | markFailed errorMessage =>
      obtain rfl := Option.some.inj hnext
      exact hread rfl (hcond (by simp))
    -- the only UPDATE that does not look at the status again
    | failing loaded errorMessage =>
      obtain rfl := Option.some.inj hnext
      rw [pairwise_history_commit, staysFinished_writeFailed_iff]
      refine and_congr_right fun _ => ⟨fun hopen loaded' e hfailing => ?_, fun hopen => ?_⟩
      · obtain ⟨rfl, rfl⟩ : loaded = loaded' ∧ errorMessage = e := by
          simpa using hx.symm.trans hfailing
        exact hopen
      · exact hopen loaded errorMessage hx
    | failed =>
      obtain rfl := Option.some.inj hnext
      exact hread rfl (hcond (by simp))
    | finished answer => exact absurd hnext (by simp [runNext])

end Steps

/-! ### Every run of the transactions -/

section Runs

variable {row : PortfolioRun J} {as : List (RunLabel J)} {s : RunSite J}

/-- **A finished run stays finished** in all committed states, exactly if every `mark_run_failed`
    commits while the run is not finished, or repeats the failure the run has. -/
theorem finished_run_stays_iff (h : Path (runSystem J) anyStep (RunSite.initial row) as s) :
    s.history.Pairwise StaysFinished ↔
      Path (runSystem J) FailsOpenRun (RunSite.initial row) as s :=
  h.good_iff (fun _ _ _ hstep => runStep_staysFinished_iff hstep)
    (List.pairwise_singleton StaysFinished row)

end Runs

end Life

/-! ### A cancel and a failure -/

/-- A run at work. -/
def startedRun : PortfolioRun ℕ :=
  { id := "r1", status := .running, errorMessage := none
    results := ⟨none, none, none, none, none, none, none, none⟩
    heartbeatAt := some 0, completedAt := none }

/-- The failure is committed first, and the cancel matches no row. -/
def failedThenCanceled : List (RunLabel ℕ) :=
  [.begin (.markFailed "boom"), .begin (.updating .cancel), .next 0 1, .next 0 2, .next 1 3,
    .next 1 4]

theorem finished_run_stays_failed_first : ∃ s : RunSite ℕ,
    Path (runSystem ℕ) FailsOpenRun (RunSite.initial startedRun) failedThenCanceled s ∧
      s.row.status = .failed ∧
      s.txns[1]? = some (.finished (.refused "Portfolio run r1 is failed; cannot cancel")) := by
  obtain ⟨s, hrun, hstays, hrow, hrefused⟩ :
      ∃ s, (runSystem ℕ).run (RunSite.initial startedRun) failedThenCanceled = some s ∧
        s.history.Pairwise StaysFinished ∧ s.row.status = .failed ∧
        s.txns[1]? = some (.finished (.refused "Portfolio run r1 is failed; cannot cancel")) :=
    ⟨_, rfl, by decide, rfl, rfl⟩
  exact ⟨s, (finished_run_stays_iff (Path.of_run hrun)).mp hstays, hrow, hrefused⟩

/-- The worker has read the run when the operator cancels it. -/
def canceledThenFailed : List (RunLabel ℕ) :=
  [.begin (.markFailed "boom"), .begin (.updating .cancel), .next 0 1, .next 1 2, .next 0 3]

/-- **The slip.**  `mark_run_failed` overwrites the cancel. -/
theorem finished_run_fails :
    ¬∀ (as : List (RunLabel ℕ)) (s : RunSite ℕ),
      Path (runSystem ℕ) anyStep (RunSite.initial startedRun) as s →
        s.history.Pairwise StaysFinished := by
  intro h
  obtain ⟨s, hrun, canceled, failed, hpast, hrow, hcanceled, hfailed⟩ :
      ∃ s, (runSystem ℕ).run (RunSite.initial startedRun) canceledThenFailed = some s ∧
        ∃ canceled failed, s.past = [startedRun, canceled] ∧ s.row = failed ∧
          canceled.status = .canceled ∧ failed.status = .failed :=
    ⟨_, rfl, _, _, rfl, rfl, rfl, rfl⟩
  have hpair := h _ s (Path.of_run hrun)
  rw [RunSite.history, hpast, hrow] at hpair
  have hstays : StaysFinished canceled failed := by
    have htail := (List.pairwise_cons.mp hpair).2
    exact (List.pairwise_cons.mp htail).1 failed List.mem_cons_self
  have hstatus := PortfolioRun.status_of_outcome (hstays (by rw [hcanceled]; rfl))
  rw [hcanceled, hfailed] at hstatus
  exact absurd hstatus (by decide)

end Msai.Portfolio
