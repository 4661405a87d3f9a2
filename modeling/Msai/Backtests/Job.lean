import Msai.Backtests.Failure
import Msai.Lib.Transition

namespace Msai.Backtests.Job

open Msai.Lib Msai.Lib.TransitionSystem

/-!
# A backtest from its row to its results
(`workers/backtest_job.py`, `services/backtests/auto_heal.py`, `auto_heal_guardrails.py`)

arq delivers the job of a backtest, and delivers it again where a worker was stopped or killed.  A
delivery executes the backtest; where the data is missing, it has them downloaded once and
executes it again.  What it commits, the API reads at any time.

* `evaluateGuardrails`, `outcomeToExc` — what a heal may cost, and how it may end;
* `jobStep` — the awaits of `run_backtest_job` and `run_auto_heal`, with the answers of the
  services, beside cancellation, the death of the worker and the watchdog;
* `results_iff_single` — when the metrics and the trades that the API serves are of one execution,
  and whose report it serves;
* `heal_bounded` — what a delivery has spent, and what a second execution rests on;
* `phase_waiting` — when a row says that it waits for data.

The lock of the heal is `AutoHealLock`, the watchdog `JobWatchdog`: here their answers are free.
The heartbeat, the lineage columns and the clock of the poll loop are left out.
-/

/-! ### The guardrails -/

structure AutoHealSettings where
  maxYears : ℕ
  maxSymbols : ℕ
  allowOptions : Bool
  wallClockCapSeconds : ℕ
deriving DecidableEq, Repr

inductive GuardrailReason
  | noSymbols
  | optionsDisabled
  | rangeExceedsMaxYears
  | symbolCountExceedsMax
deriving DecidableEq, Repr

/-- A request is allowed if there is no reason against it. -/
structure GuardrailResult where
  reason : Option GuardrailReason
  humanMessage : String
deriving DecidableEq, Repr

/-- `f"{range_years:.0f}"` of a number of days. -/
def roundedYears (days : ℤ) : ℤ := (8 * days + 1461) / 2922

/-- `evaluate_guardrails`.  A year has 365.25 days. -/
def evaluateGuardrails (cfg : AutoHealSettings) (assetClass : String) (spec : JobSpec) :
    GuardrailResult :=
  let days := spec.endDate - spec.startDate
  if spec.instruments = [] then
    ⟨some .noSymbols, "Auto-download disabled — request has no symbols."⟩
  else if assetClass = "options" ∧ cfg.allowOptions = false then
    ⟨some .optionsDisabled,
      "Auto-download disabled for options (OPRA cost + chain-fan-out risk). " ++
        "Manually scope and run: msai ingest options <strike-scoped-ids> ..."⟩
  else if 1461 * (cfg.maxYears : ℤ) < 4 * days then
    ⟨some .rangeExceedsMaxYears,
      "Auto-download disabled — " ++ toString (roundedYears days) ++ "-year range exceeds " ++
        toString cfg.maxYears ++ "-year cap."⟩
  else if cfg.maxSymbols < spec.instruments.length then
    ⟨some .symbolCountExceedsMax,
      "Auto-download disabled — " ++ toString spec.instruments.length ++ " symbols exceeds " ++
        toString cfg.maxSymbols ++ "-symbol cap per request."⟩
  else ⟨none, "Guardrails passed."⟩

/-! ### The heal -/

/-- The gaps of an instrument, in nanoseconds. -/
abbrev InstrumentGaps := String × List (ℤ × ℤ)

def coverageToleranceNs : ℤ := 7 * 24 * 3600 * 1000000000

def totalGapNs (gaps : InstrumentGaps) : ℤ := (gaps.2.map fun gap => gap.2 - gap.1).sum

def significantGaps (gaps : List InstrumentGaps) : List InstrumentGaps :=
  gaps.filter fun g => coverageToleranceNs < totalGapNs g

/-- What a successful heal has found: the ingest job that it waited for, the instruments, and the
    gaps that are left. -/
structure Verified where
  assetClass : String
  ingestJobId : String
  resolvedInstrumentIds : List String
  gaps : List InstrumentGaps
deriving DecidableEq, Repr

/-- `AutoHealResult`: all outcomes but `SUCCESS` have a `reason_human`. -/
inductive AutoHealResult
  | success (found : Verified)
  | guardrailRejected (reasonHuman : String)
  | timeout (reasonHuman : String)
  | ingestFailed (reasonHuman : String)
  | coverageStillMissing (reasonHuman : String)
deriving DecidableEq, Repr

/-- The texts of `INGEST_FAILED` and of `TIMEOUT`. -/
def declinedText : String := "Ingest queue declined the job (unlikely)."

def noJobIdText : String := "Could not determine ingest job id after dedupe race."

def providerErrorText : String := "Ingest provider returned an error; see worker logs."

def timeoutText (cfg : AutoHealSettings) : String :=
  "Data download exceeded " ++ toString (cfg.wallClockCapSeconds / 60) ++ "-minute cap."

/-- `_OUTCOME_TO_EXC`. -/
def outcomeToExc : AutoHealResult → Option Exc
  | .success _ => none
  | .guardrailRejected reason => some ⟨.fileNotFoundError, "FileNotFoundError", reason⟩
  | .coverageStillMissing reason => some ⟨.fileNotFoundError, "FileNotFoundError", reason⟩
  | .timeout reason => some ⟨.timeoutError, "TimeoutError", reason⟩
  | .ingestFailed reason => some ⟨.runtimeError, "RuntimeError", reason⟩

/-- How `run_auto_heal` ends. -/
inductive HealEnd
  | result (r : AutoHealResult)
  | raised (e : Exc)
  | cancelled
deriving DecidableEq, Repr

/-- The locals of `run_auto_heal` behind the lock. -/
structure HealVars where
  assetClass : String
  acquired : Bool
  ingestJobId : Option String
deriving DecidableEq, Repr

/-- The await at which a delivery stands. -/
inductive Stage
  /-- `_execute_backtest`, the second time with the result of the heal. -/
  | execute (healed : Option Verified)
  /-- `_finalize_backtest` at its end, behind the report that `save_report` has written. -/
  | finalize (healed : Option Verified) (report : String)
  | derive
  | acquire (assetClass : String)
  | enqueue (assetClass : String)
  | swap (assetClass ingestJobId : String)
  /-- `get_holder`, before or behind the two seconds. -/
  | holder (assetClass : String) (again : Bool)
  /-- `_set_backtest_phase(phase="awaiting_data")`. -/
  | phase (v : HealVars)
  | poll (v : HealVars) (ingestJobId : String)
  | ensure (v : HealVars) (ingestJobId : String)
  | coverage (v : HealVars) (ingestJobId : String) (resolved : List String)
  /-- The lock in the `finally`. -/
  | release (e : HealEnd)
  /-- `_set_backtest_phase(phase=None)`. -/
  | clear (e : HealEnd)
  /-- `_mark_backtest_failed`, with the result of the heal if it is the reason. -/
  | mark (e : Exc) (heal : Option AutoHealResult)
deriving DecidableEq, Repr

/-- The heal that an execution rests on, if the delivery stands in one. -/
def Stage.execution? : Stage → Option (Option Verified)
  | .execute healed | .finalize healed _ => some healed
  | _ => none

/-- The report behind which a delivery stands before its last commit. -/
def Stage.report? : Stage → Option String
  | .finalize _ report => some report
  | _ => none

/-- The `finally` of `run_auto_heal`. -/
def finallyStage (acquired : Bool) (e : HealEnd) : Stage :=
  if acquired then .release e else .clear e

def HealEnd.isSuccess : HealEnd → Bool
  | .result (.success _) => true
  | _ => false

/-- The retry loop behind a heal. -/
def afterHeal : HealEnd → Option Stage
  | .result (.success found) => some (.execute (some found))
  | .result r => (outcomeToExc r).map (.mark · (some r))
  | .raised e => some (.mark e none)
  | .cancelled => none

/-- The holder of the lock, if it has swapped its job id in. -/
def jobIdOf (holder : Option String) : Option String :=
  holder.filter fun id => id ≠ "" ∧ PyText.startsWith id "reserving:" = false

/-- `derived or caller_asset_class_hint or "stocks"`. -/
def healAssetClass (derived : Option String) (spec : JobSpec) : String :=
  (pyOr derived (pyOr (some spec.assetClass) none)).getD "stocks"

/-- The `progress_message` of a heal. -/
def downloading (assetClass : String) (instruments : List String) : String :=
  "Downloading " ++ assetClass ++ " data for " ++ ",".intercalate (instruments.take 3) ++
    if 3 < instruments.length then "..." else ""

/-! ### The row -/

inductive BacktestStatus
  | pending
  | running
  | completed
  | failed
deriving DecidableEq, Repr

/-- What an execution hands to `_finalize_backtest`: the metrics and the series, and the rows of its
    fills; and the report that it has saved before. -/
structure BacktestResult (R T : Type) where
  results : R
  report : String
  trades : List T
deriving DecidableEq, Repr

structure BacktestRow (R : Type) where
  status : BacktestStatus
  progress : ℕ
  attempt : ℕ
  results : Option R
  /-- `report_path` is set; it is the same for every execution. -/
  hasReport : Bool
  errorMessage : Option String
  errorCode : String
  errorSuggestedAction : Option String
  errorRemediation : Option Remediation
  phase : Option String
  progressMessage : Option String
  healStartedAt : Option ℤ
  healJobId : Option String
deriving DecidableEq, Repr

/-- The row that `run_backtest` of the API adds. -/
def BacktestRow.created (R : Type) : BacktestRow R where
  status := .pending
  progress := 0
  attempt := 0
  results := none
  hasReport := false
  errorMessage := none
  errorCode := "unknown"
  errorSuggestedAction := none
  errorRemediation := none
  phase := none
  progressMessage := none
  healStartedAt := none
  healJobId := none

/-- What has been committed to the status of a row, and the reports that have been saved. -/
inductive Event (R T : Type)
  | started
  | saved (report : String)
  | finished (r : BacktestResult R T) (healed : Option Verified)
  | failed (e : Exc) (heal : Option AutoHealResult)
  | watchdog (reason : String)
deriving DecidableEq, Repr

/-- The row, the trades and the report of a backtest and the delivery in work, beside what has been
    written so far. -/
structure JobSite (R T : Type) where
  /-- The API has committed the row. -/
  visible : Bool
  row : BacktestRow R
  trades : List T
  /-- The file `reports/{id}.html`. -/
  report : Option String
  job : Option Stage
  history : List (Event R T)
  /-- The executions that the last delivery has begun. -/
  executions : ℕ
  /-- The asset classes of the ingest jobs that the last delivery has enqueued. -/
  ingests : List String
deriving DecidableEq, Repr

def JobSite.created (R T : Type) : JobSite R T := ⟨false, .created R, [], none, none, [], 0, []⟩

variable {R T : Type}

/-- `_start_backtest`. -/
def BacktestRow.start (row : BacktestRow R) : BacktestRow R :=
  { row with status := .running, progress := 10, attempt := row.attempt + 1 }

/-- `_finalize_backtest`. -/
def BacktestRow.finalize (row : BacktestRow R) (results : R) : BacktestRow R :=
  { row with status := .completed, progress := 100, results := some results, hasReport := true }

/-- `_mark_backtest_failed`. -/
def BacktestRow.markFailed (env : TextEnv) (spec : JobSpec) (row : BacktestRow R) (e : Exc) :
    BacktestRow R :=
  let c := classifyWorkerFailure env e spec
  { row with
    status := .failed
    errorMessage := some e.raw
    errorCode := c.code.value
    errorSuggestedAction := c.suggestedAction
    errorRemediation := c.remediation }

/-- `_set_backtest_phase(phase="awaiting_data")`: a job id that is not known is not written. -/
def BacktestRow.awaitData (row : BacktestRow R) (message : String) (now : ℤ)
    (ingestJobId : Option String) : BacktestRow R :=
  { row with
    phase := some "awaiting_data"
    progressMessage := some message
    healStartedAt := some now
    healJobId := ingestJobId.or row.healJobId }

/-- `_set_backtest_phase(phase=None)`. -/
def BacktestRow.clearPhase (row : BacktestRow R) : BacktestRow R :=
  { row with phase := none, progressMessage := none, healStartedAt := none, healJobId := none }

/-- What the watchdog writes. -/
def BacktestRow.watchdog (row : BacktestRow R) (reason : String) : BacktestRow R :=
  { row with status := .failed, errorMessage := some reason }

/-! ### The job -/

/-- `enqueue_ingest`; a declined job is followed by the release of the placeholder. -/
inductive EnqueueAnswer
  | raised (e : Exc)
  | declined (release : Except Exc Unit)
  | queued (ingestJobId : String)

inductive PollAnswer
  /-- Deferred, queued or in progress. -/
  | unfinished
  /-- With what `result` does. -/
  | complete (ok : Bool)
  | notFound
  | raised (e : Exc)
deriving DecidableEq, Repr

inductive JobLabel (R T : Type)
  /-- The API commits the row, which it has enqueued before. -/
  | commit
  /-- arq delivers the job. -/
  | start
  /-- `save_report`; a worker that dies in it leaves what it has written. -/
  | save (report : String)
  /-- The end of `_execute_backtest`: its commit, or what it raises. -/
  | finish (results : R) (trades : List T)
  | raise (e : Exc)
  | derive (a : RegistryAnswer)
  | acquire (a : Except Exc Bool)
  | enqueue (a : EnqueueAnswer)
  | swap (a : Except Exc Bool)
  | holder (a : Except Exc (Option String))
  | phase (now : ℤ) (committed : Bool)
  | poll (a : PollAnswer)
  | deadline
  /-- `none` is an exception. -/
  | ensure (a : Option (List String))
  | coverage (a : Option (List InstrumentGaps))
  | release (a : Except Exc Unit)
  | clear (committed : Bool)
  | mark (committed : Bool)
  /-- A `CancelledError` at the await. -/
  | cancel
  /-- The worker dies. -/
  | kill
  /-- The watchdog commits a verdict, perhaps about a status that it has read before. -/
  | watchdog (reason : String)

/-- Where a delivery goes when it is cancelled: behind the lock over the `finally`. -/
def Stage.cancel : Stage → Option Stage
  | .enqueue _ | .swap _ _ => some (.release .cancelled)
  | .holder _ _ => some (.clear .cancelled)
  | .phase v | .poll v _ | .ensure v _ | .coverage v _ _ =>
    some (finallyStage v.acquired .cancelled)
  | _ => none

def JobSite.goto (s : JobSite R T) (stage : Stage) : JobSite R T := { s with job := some stage }

/-- The heal is over. -/
def JobSite.resume (s : JobSite R T) (e : HealEnd) : JobSite R T :=
  { s with
    job := afterHeal e
    executions := if e.isSuccess then s.executions + 1 else s.executions }

def jobStep (env : TextEnv) (cfg : AutoHealSettings) (spec : JobSpec) (s : JobSite R T) :
    JobLabel R T → Option (JobSite R T)
  | .commit => if s.visible then none else some { s with visible := true }
  | .start =>
    match s.job with
    | some _ => none
    | none =>
      if s.visible then
        some
          { s with
            row := s.row.start
            job := some (.execute none)
            history := s.history ++ [.started]
            executions := 1
            ingests := [] }
      -- `backtest_not_found`
      else some s
  | .save report =>
    match s.job with
    | some (.execute healed) =>
      some
        { s with
          report := some report
          job := some (.finalize healed report)
          history := s.history ++ [.saved report] }
    | _ => none
  | .finish results trades =>
    match s.job with
    | some (.finalize healed report) =>
      some
        { s with
          row := s.row.finalize results
          trades := s.trades ++ trades
          job := none
          history := s.history ++ [.finished ⟨results, report, trades⟩ healed] }
    | _ => none
  | .raise e =>
    match s.job.bind Stage.execution? with
    | some healed =>
      if e.cls = .fileNotFoundError ∧ healed = none then some (s.goto .derive)
      else some (s.goto (.mark e none))
    | _ => none
  | .derive a =>
    match s.job with
    | some .derive =>
      match deriveAssetClass env spec.instruments a with
      | .error e => some (s.goto (.mark e none))
      | .ok derived =>
        let assetClass := healAssetClass derived spec
        let guardrails := evaluateGuardrails cfg assetClass spec
        if guardrails.reason = none then some (s.goto (.acquire assetClass))
        else some (s.resume (.result (.guardrailRejected guardrails.humanMessage)))
    | _ => none
  | .acquire a =>
    match s.job, a with
    | some (.acquire _), .error e => some (s.goto (.mark e none))
    | some (.acquire assetClass), .ok true => some (s.goto (.enqueue assetClass))
    | some (.acquire assetClass), .ok false => some (s.goto (.holder assetClass false))
    | _, _ => none
  | .enqueue a =>
    match s.job, a with
    | some (.enqueue _), .raised e => some (s.goto (.release (.raised e)))
    | some (.enqueue _), .declined (.error e) => some (s.goto (.release (.raised e)))
    | some (.enqueue _), .declined (.ok _) =>
      some (s.goto (.release (.result (.ingestFailed declinedText))))
    | some (.enqueue assetClass), .queued id =>
      some { s.goto (.swap assetClass id) with ingests := s.ingests ++ [assetClass] }
    | _, _ => none
  | .swap a =>
    match s.job, a with
    | some (.swap _ _), .error e => some (s.goto (.release (.raised e)))
    -- the job runs, whether or not the swap has found the placeholder
    | some (.swap assetClass id), .ok _ => some (s.goto (.phase ⟨assetClass, true, some id⟩))
    | _, _ => none
  | .holder a =>
    match s.job, a with
    | some (.holder _ _), .error e => some (s.goto (.clear (.raised e)))
    | some (.holder assetClass again), .ok holder =>
      if jobIdOf holder = none ∧ again = false then some (s.goto (.holder assetClass true))
      else some (s.goto (.phase ⟨assetClass, false, jobIdOf holder⟩))
    | _, _ => none
  | .phase now committed =>
    match s.job with
    | some (.phase v) =>
      let s' :=
        if committed then
          { s with
            row := s.row.awaitData (downloading v.assetClass spec.instruments) now v.ingestJobId }
        else s
      match v.ingestJobId with
      | some id => some (s'.goto (.poll v id))
      | none =>
        some (s'.goto (finallyStage v.acquired (.result (.ingestFailed noJobIdText))))
    | _ => none
  | .poll a =>
    match s.job, a with
    | some (.poll _ _), .unfinished => some s
    | some (.poll v id), .complete true => some (s.goto (.ensure v id))
    | some (.poll v _), .complete false =>
      some (s.goto (finallyStage v.acquired (.result (.ingestFailed providerErrorText))))
    -- arq has dropped the result: the catalog decides
    | some (.poll v id), .notFound => some (s.goto (.ensure v id))
    | some (.poll v _), .raised e => some (s.goto (finallyStage v.acquired (.raised e)))
    | _, _ => none
  | .deadline =>
    match s.job with
    | some (.poll v _) =>
      some (s.goto (finallyStage v.acquired (.result (.timeout (timeoutText cfg)))))
    | _ => none
  | .ensure a =>
    match s.job with
    | some (.ensure v id) => some (s.goto (.coverage v id (a.getD spec.instruments)))
    | _ => none
  | .coverage a =>
    match s.job, a with
    | some (.coverage v _ _), none =>
      some (s.goto (finallyStage v.acquired (.result (.coverageStillMissing
        ("Post-ingest coverage verification failed (catalog API error); " ++
          "see server logs. Retry the backtest to re-verify.")))))
    | some (.coverage v id resolved), some gaps =>
      if significantGaps gaps = [] then
        some (s.goto (finallyStage v.acquired
          (.result (.success ⟨v.assetClass, id, resolved, gaps⟩))))
      else
        some (s.goto (finallyStage v.acquired (.result (.coverageStillMissing
          "Provider returned a narrower range than requested."))))
    | _, _ => none
  | .release a =>
    match s.job, a with
    -- an exception in the `finally` takes the place of the result, and skips the clearing write
    | some (.release _), .error e => some (s.resume (.raised e))
    | some (.release e), .ok _ => some (s.goto (.clear e))
    | _, _ => none
  | .clear committed =>
    match s.job with
    | some (.clear e) =>
      some ({ s with row := if committed then s.row.clearPhase else s.row }.resume e)
    | _ => none
  | .mark committed =>
    match s.job with
    | some (.mark e heal) =>
      if committed then
        some
          { s with
            row := s.row.markFailed env spec e
            job := none
            history := s.history ++ [.failed e heal] }
      else some { s with job := none }
    | _ => none
  | .cancel => s.job.map fun stage => { s with job := stage.cancel }
  | .kill => s.job.map fun _ => { s with job := none }
  | .watchdog reason =>
    if s.visible then
      some
        { s with
          row := s.row.watchdog reason
          history := s.history ++ [.watchdog reason] }
    else none

/-- The deliveries of the job of one backtest. -/
def jobSystem (R T : Type) (env : TextEnv) (cfg : AutoHealSettings) (spec : JobSpec) :
    TransitionSystem (JobSite R T) (JobLabel R T) := ⟨jobStep env cfg spec⟩

/-! ### What the API serves -/

/-- The `error` of a status response. -/
def JobSite.error (s : JobSite R T) : Option ErrorEnvelope :=
  buildErrorEnvelope (s.row.status = .failed) s.row.errorCode s.row.errorSuggestedAction
    s.row.errorRemediation

/-- The report that is served: the file, once a path to it has been committed. -/
def JobSite.servedReport (s : JobSite R T) : Option String :=
  if s.row.hasReport then s.report else none

def Event.saved? : Event R T → Option String
  | .saved report => some report
  | _ => none

def Event.finished? : Event R T → Option (BacktestResult R T)
  | .finished r _ => some r
  | _ => none

def Event.exc? : Event R T → Option Exc
  | .failed e _ => some e
  | _ => none

def Event.isStarted : Event R T → Bool
  | .started => true
  | _ => false

def Event.isStatus : Event R T → Bool
  | .saved _ => false
  | _ => true

/-- The reports that were saved, in their order. -/
def JobSite.saved (s : JobSite R T) : List String := s.history.filterMap Event.saved?

/-- The writes of the status. -/
def JobSite.statusWrites (s : JobSite R T) : List (Event R T) := s.history.filter Event.isStatus

/-- The executions that were finalized, in their order. -/
def JobSite.finished (s : JobSite R T) : List (BacktestResult R T) :=
  s.history.filterMap Event.finished?

/-- The error columns, as the API shows them. -/
def envelopeOf (c : FailureClassification) : ErrorEnvelope :=
  ⟨c.code.value, c.suggestedAction, c.remediation⟩

/-- The error columns after the exceptions of the deliveries that were marked as failed. -/
def errorColumns (env : TextEnv) (spec : JobSpec) (excs : List Exc) : FailureClassification :=
  match excs.getLast? with
  | some e => classifyWorkerFailure env e spec
  | none => ⟨.unknown, none, none⟩

/-! ### One step -/

/-- The guardrails let the heal of an asset class through. -/
def Allowed (cfg : AutoHealSettings) (spec : JobSpec) (assetClass : String) : Prop :=
  (evaluateGuardrails cfg assetClass spec).reason = none

/-- The heal was allowed, and no instrument lacks more than the tolerance. -/
structure Verified.Sound (cfg : AutoHealSettings) (spec : JobSpec) (v : Verified) : Prop where
  allowed : Allowed cfg spec v.assetClass
  covered : ∀ g ∈ v.gaps, totalGapNs g ≤ coverageToleranceNs

/-- A success is sound, and the other results have the texts that a heal gives them. -/
def AutoHealResult.Sound (cfg : AutoHealSettings) (spec : JobSpec) : AutoHealResult → Prop
  | .success v => v.Sound cfg spec
  | .timeout reason => reason = timeoutText cfg
  | .ingestFailed reason => reason ∈ [declinedText, noJobIdText, providerErrorText]
  | _ => True

def HealEnd.Sound (cfg : AutoHealSettings) (spec : JobSpec) : HealEnd → Prop
  | .result r => r.Sound cfg spec
  | _ => True

def Stage.Sound (cfg : AutoHealSettings) (spec : JobSpec) : Stage → Prop
  | .execute healed | .finalize healed _ => ∀ v ∈ healed, v.Sound cfg spec
  | .derive => True
  | .mark e heal => ∀ r ∈ heal, r.Sound cfg spec ∧ outcomeToExc r = some e
  | .acquire assetClass | .enqueue assetClass | .swap assetClass _ | .holder assetClass _ =>
    Allowed cfg spec assetClass
  | .phase v | .poll v _ | .ensure v _ | .coverage v _ _ => Allowed cfg spec v.assetClass
  | .release e | .clear e => e.Sound cfg spec

/-- The delivery may still enqueue an ingest job. -/
def Stage.mayQueue : Stage → Bool
  | .execute none | .finalize none _ | .derive | .acquire _ | .enqueue _ => true
  | _ => false

/-- The executions that the delivery may still start. -/
def Stage.room : Stage → ℕ
  | .execute (some _) | .finalize (some _) _ | .mark _ _ => 0
  | _ => 1

/-- The heal has come as far as to wait for data, and not past its clearing write. -/
def Stage.waiting : Stage → Bool
  | .poll _ _ | .ensure _ _ | .coverage _ _ _ | .release _ | .clear _ => true
  | _ => false

/-- A delivery goes on to its next await. -/
structure Moves (cfg : AutoHealSettings) (spec : JobSpec) (stage next : Stage) : Prop where
  sound : stage.Sound cfg spec → next.Sound cfg spec
  mayQueue : next.mayQueue = true → stage.mayQueue = true
  room : next.room ≤ stage.room
  waiting : stage.waiting = true → next.waiting = true
  report : next.report? = none

/-- No step leaves a row behind that says that it waits for data. -/
def ClearsPhase (s : JobSite R T) : JobLabel R T → Prop
  | .kill | .release (.error _) | .clear false => s.row.phase = none
  | .cancel => (∃ stage ∈ s.job, stage.cancel = none) → s.row.phase = none
  | _ => True

/-- What a label does. -/
inductive JobEffect (env : TextEnv) (cfg : AutoHealSettings) (spec : JobSpec) (s : JobSite R T)
    (a : JobLabel R T) : JobSite R T → Prop
  | commit : JobEffect env cfg spec s a { s with visible := true }
  | same : JobEffect env cfg spec s a s
  | start (hjob : s.job = none) :
      JobEffect env cfg spec s a
        { s with
          row := s.row.start
          job := some (.execute none)
          history := s.history ++ [.started]
          executions := 1
          ingests := [] }
  | save {healed : Option Verified} (report : String) (hjob : s.job = some (.execute healed)) :
      JobEffect env cfg spec s a
        { s with
          report := some report
          job := some (.finalize healed report)
          history := s.history ++ [.saved report] }
  | finish {healed : Option Verified} {report : String} (results : R) (trades : List T)
      (hjob : s.job = some (.finalize healed report)) :
      JobEffect env cfg spec s a
        { s with
          row := s.row.finalize results
          trades := s.trades ++ trades
          job := none
          history := s.history ++ [.finished ⟨results, report, trades⟩ healed] }
  | goto {stage next : Stage} (hjob : s.job = some stage) (hmove : Moves cfg spec stage next) :
      JobEffect env cfg spec s a (s.goto next)
  | queue {assetClass : String} (id : String) (hjob : s.job = some (.enqueue assetClass)) :
      JobEffect env cfg spec s a
        { s.goto (.swap assetClass id) with ingests := s.ingests ++ [assetClass] }
  | phase {v : HealVars} {next : Stage} (message : String) (now : ℤ)
      (hjob : s.job = some (.phase v)) (hmove : Moves cfg spec (.phase v) next)
      (hnext : next.waiting = true) :
      JobEffect env cfg spec s a
        ({ s with row := s.row.awaitData message now v.ingestJobId }.goto next)
  | resume {stage : Stage} {e : HealEnd} (hjob : s.job = some stage)
      (hsound : stage.Sound cfg spec → e.Sound cfg spec) (hroom : stage.room = 1)
      (hphase : ClearsPhase s a → stage.waiting = true → s.row.phase = none) :
      JobEffect env cfg spec s a (s.resume e)
  | clear {e : HealEnd} (hjob : s.job = some (.clear e)) :
      JobEffect env cfg spec s a ({ s with row := s.row.clearPhase }.resume e)
  | mark {e : Exc} {heal : Option AutoHealResult} (hjob : s.job = some (.mark e heal)) :
      JobEffect env cfg spec s a
        { s with
          row := s.row.markFailed env spec e
          job := none
          history := s.history ++ [.failed e heal] }
  | halt {stage : Stage} (hjob : s.job = some stage)
      (hphase : ClearsPhase s a → stage.waiting = true → s.row.phase = none) :
      JobEffect env cfg spec s a { s with job := none }
  | watchdog (reason : String) :
      JobEffect env cfg spec s a
        { s with
          row := s.row.watchdog reason
          history := s.history ++ [.watchdog reason] }

variable {env : TextEnv} {cfg : AutoHealSettings} {spec : JobSpec} {s t : JobSite R T}
  {a : JobLabel R T} {stage next : Stage} {e : HealEnd}

/-- A stage behind the lock, and the `finally` after it. -/
theorem Moves.finally (acquired : Bool) (hsound : stage.Sound cfg spec → e.Sound cfg spec)
    (hroom : stage.room = 1) : Moves cfg spec stage (finallyStage acquired e) := by
  unfold finallyStage
  cases acquired
  · exact ⟨hsound, fun h => absurd h Bool.false_ne_true, hroom.ge, fun _ => rfl, rfl⟩
  · exact ⟨hsound, fun h => absurd h Bool.false_ne_true, hroom.ge, fun _ => rfl, rfl⟩

/-- To the handler of the failure. -/
theorem Moves.mark {exc : Exc} (h : stage.waiting = false) :
    Moves cfg spec stage (.mark exc none) where
  sound := fun _ r hr => absurd hr (Option.not_mem_none r)
  mayQueue := fun h => absurd h Bool.false_ne_true
  room := Nat.zero_le _
  waiting := fun hwait => by
    rw [h] at hwait
    cases hwait
  report := rfl

theorem covered_of_significantGaps {gaps : List InstrumentGaps} (h : significantGaps gaps = []) :
    ∀ g ∈ gaps, totalGapNs g ≤ coverageToleranceNs := by
  intro g hg
  have hnot := List.filter_eq_nil_iff.mp h g hg
  simpa using hnot

theorem mem_texts_noJobId : noJobIdText ∈ [declinedText, noJobIdText, providerErrorText] :=
  List.mem_cons_of_mem _ List.mem_cons_self

theorem mem_texts_providerError :
    providerErrorText ∈ [declinedText, noJobIdText, providerErrorText] :=
  List.mem_cons_of_mem _ (List.mem_cons_of_mem _ List.mem_cons_self)

theorem finallyStage_waiting {acquired : Bool} : (finallyStage acquired e).waiting = true := by
  cases acquired <;> rfl

theorem start_effect (h : jobStep env cfg spec s .start = some t) :
    JobEffect env cfg spec s .start t := by
  unfold jobStep at h
  dsimp only at h
  split at h
  · cases h
  · rename_i hjob
    split at h <;> cases h
    · exact .start hjob
    · exact .same

/-- An execution, or its last commit, raises. -/
theorem raise_effect {exc : Exc} (h : jobStep env cfg spec s (.raise exc) = some t) :
    JobEffect env cfg spec s (.raise exc) t := by
  unfold jobStep at h
  dsimp only at h
  split at h
  · rename_i healed hattempt
    obtain ⟨stage, hjob, hstage⟩ := Option.bind_eq_some_iff.mp hattempt
    have hbusy : stage.waiting = false := by
      cases stage <;> first | rfl | cases hstage
    split at h <;> cases h
    · rename_i hfirst
      -- the first attempt of the delivery: it may still heal
      obtain rfl := hfirst.2
      have hfresh : stage.mayQueue = true ∧ stage.room = 1 := by
        cases stage <;> cases hstage <;> exact ⟨rfl, rfl⟩
      refine .goto hjob ⟨fun _ => trivial, fun _ => hfresh.1, hfresh.2.ge, fun hwait => ?_, rfl⟩
      rw [hbusy] at hwait
      cases hwait
    · exact .goto hjob (.mark hbusy)
  · cases h

theorem derive_effect {answer : RegistryAnswer}
    (h : jobStep env cfg spec s (.derive answer) = some t) :
    JobEffect env cfg spec s (.derive answer) t := by
  unfold jobStep at h
  dsimp only at h
  split at h
  · rename_i hjob
    split at h
    · cases h
      exact .goto hjob (.mark rfl)
    · split at h <;> cases h
      · rename_i hallowed
        exact .goto hjob ⟨fun _ => hallowed, fun _ => rfl, le_rfl, fun h => h, rfl⟩
      · exact .resume hjob (fun _ => trivial) rfl fun _ h => absurd h Bool.false_ne_true
  · cases h

theorem acquire_effect {answer : Except Exc Bool}
    (h : jobStep env cfg spec s (.acquire answer) = some t) :
    JobEffect env cfg spec s (.acquire answer) t := by
  unfold jobStep at h
  dsimp only at h
  split at h
  · rename_i hjob
    cases h
    exact .goto hjob (.mark rfl)
  · rename_i hjob
    cases h
    exact .goto hjob ⟨id, fun _ => rfl, le_rfl, fun h => h, rfl⟩
  · rename_i hjob
    cases h
    exact .goto hjob ⟨id, fun _ => rfl, le_rfl, fun h => absurd h Bool.false_ne_true, rfl⟩
  · cases h

theorem enqueue_effect {answer : EnqueueAnswer}
    (h : jobStep env cfg spec s (.enqueue answer) = some t) :
    JobEffect env cfg spec s (.enqueue answer) t := by
  unfold jobStep at h
  dsimp only at h
  split at h
  · rename_i hjob
    cases h
    exact .goto hjob (.finally true (fun _ => trivial) rfl)
  · rename_i hjob
    cases h
    exact .goto hjob (.finally true (fun _ => trivial) rfl)
  · rename_i hjob
    cases h
    exact .goto hjob (.finally true (fun _ => List.mem_cons_self) rfl)
  · rename_i id hjob
    cases h
    exact .queue id hjob
  · cases h

theorem swap_effect {answer : Except Exc Bool}
    (h : jobStep env cfg spec s (.swap answer) = some t) :
    JobEffect env cfg spec s (.swap answer) t := by
  unfold jobStep at h
  dsimp only at h
  split at h
  · rename_i hjob
    cases h
    exact .goto hjob (.finally true (fun _ => trivial) rfl)
  · rename_i hjob
    cases h
    exact .goto hjob ⟨id, fun h => h, le_rfl, fun h => absurd h Bool.false_ne_true, rfl⟩
  · cases h

theorem holder_effect {answer : Except Exc (Option String)}
    (h : jobStep env cfg spec s (.holder answer) = some t) :
    JobEffect env cfg spec s (.holder answer) t := by
  unfold jobStep at h
  dsimp only at h
  split at h
  · rename_i hjob
    cases h
    exact .goto hjob (.finally false (fun _ => trivial) rfl)
  · rename_i hjob
    split at h <;> cases h
    · exact .goto hjob ⟨id, fun h => h, le_rfl, fun h => absurd h Bool.false_ne_true, rfl⟩
    · exact .goto hjob ⟨id, fun h => h, le_rfl, fun h => absurd h Bool.false_ne_true, rfl⟩
  · cases h

theorem phase_effect {now : ℤ} {committed : Bool}
    (h : jobStep env cfg spec s (.phase now committed) = some t) :
    JobEffect env cfg spec s (.phase now committed) t := by
  unfold jobStep at h
  dsimp only at h
  split at h
  · rename_i v hjob
    -- with a job id to wait for, or without; and the write may be lost
    split at h <;> cases h <;> cases committed
    · exact .goto hjob ⟨id, fun h => h, le_rfl, fun h => absurd h Bool.false_ne_true, rfl⟩
    · exact .phase _ now hjob ⟨id, fun h => h, le_rfl, fun _ => rfl, rfl⟩ rfl
    · exact .goto hjob (.finally _ (fun _ => mem_texts_noJobId) rfl)
    · exact .phase _ now hjob (.finally _ (fun _ => mem_texts_noJobId) rfl) finallyStage_waiting
  · cases h

theorem poll_effect {answer : PollAnswer} (h : jobStep env cfg spec s (.poll answer) = some t) :
    JobEffect env cfg spec s (.poll answer) t := by
  unfold jobStep at h
  dsimp only at h
  split at h
  · cases h
    exact .same
  · rename_i hjob
    cases h
    exact .goto hjob ⟨id, fun h => h, le_rfl, fun _ => rfl, rfl⟩
  · rename_i hjob
    cases h
    exact .goto hjob (.finally _ (fun _ => mem_texts_providerError) rfl)
  · rename_i hjob
    cases h
    exact .goto hjob ⟨id, fun h => h, le_rfl, fun _ => rfl, rfl⟩
  · rename_i hjob
    cases h
    exact .goto hjob (.finally _ (fun _ => trivial) rfl)
  · cases h

theorem coverage_effect {answer : Option (List InstrumentGaps)}
    (h : jobStep env cfg spec s (.coverage answer) = some t) :
    JobEffect env cfg spec s (.coverage answer) t := by
  unfold jobStep at h
  dsimp only at h
  split at h
  · rename_i hjob
    cases h
    exact .goto hjob (.finally _ (fun _ => trivial) rfl)
  · rename_i hjob
    split at h <;> cases h
    · rename_i hgaps
      exact .goto hjob
        (.finally _ (fun hallowed => ⟨hallowed, covered_of_significantGaps hgaps⟩) rfl)
    · exact .goto hjob (.finally _ (fun _ => trivial) rfl)
  · cases h

theorem release_effect {answer : Except Exc Unit}
    (h : jobStep env cfg spec s (.release answer) = some t) :
    JobEffect env cfg spec s (.release answer) t := by
  unfold jobStep at h
  dsimp only at h
  split at h
  · rename_i hjob
    cases h
    exact .resume hjob (fun _ => trivial) rfl fun hphase _ => hphase
  · rename_i hjob
    cases h
    exact .goto hjob ⟨id, fun h => h, le_rfl, fun _ => rfl, rfl⟩
  · cases h

theorem clear_effect {committed : Bool}
    (h : jobStep env cfg spec s (.clear committed) = some t) :
    JobEffect env cfg spec s (.clear committed) t := by
  unfold jobStep at h
  dsimp only at h
  split at h
  · rename_i hjob
    cases h
    cases committed
    · exact .resume hjob id rfl fun hphase _ => hphase
    · exact .clear hjob
  · cases h

theorem mark_effect {committed : Bool} (h : jobStep env cfg spec s (.mark committed) = some t) :
    JobEffect env cfg spec s (.mark committed) t := by
  unfold jobStep at h
  dsimp only at h
  split at h
  · rename_i hjob
    split at h <;> cases h
    · exact .mark hjob
    · exact .halt hjob fun _ h => absurd h Bool.false_ne_true
  · cases h

theorem cancel_effect (h : jobStep env cfg spec s .cancel = some t) :
    JobEffect env cfg spec s .cancel t := by
  obtain ⟨stage, hjob, rfl⟩ := Option.map_eq_some_iff.mp h
  cases hcancel : stage.cancel with
  | none => exact .halt hjob fun hphase _ => hphase ⟨stage, hjob, hcancel⟩
  | some next =>
    refine .goto hjob ?_
    cases stage <;> simp only [Stage.cancel, Option.some.injEq, reduceCtorEq] at hcancel <;>
      subst hcancel
    · exact .finally true (fun _ => trivial) rfl
    · exact .finally true (fun _ => trivial) rfl
    · exact .finally false (fun _ => trivial) rfl
    all_goals exact .finally _ (fun _ => trivial) rfl

/-- **What a label does**, label by label. -/
theorem jobStep_effect (h : jobStep env cfg spec s a = some t) :
    JobEffect env cfg spec s a t := by
  cases a with
  | commit =>
    unfold jobStep at h
    dsimp only at h
    split at h
    · cases h
    · cases h
      exact .commit
  | start => exact start_effect h
  | save report =>
    unfold jobStep at h
    dsimp only at h
    split at h
    · rename_i hjob
      cases h
      exact .save report hjob
    · cases h
  | finish results trades =>
    unfold jobStep at h
    dsimp only at h
    split at h
    · rename_i hjob
      cases h
      exact .finish results trades hjob
    · cases h
  | raise exc => exact raise_effect h
  | derive answer => exact derive_effect h
  | acquire answer => exact acquire_effect h
  | enqueue answer => exact enqueue_effect h
  | swap answer => exact swap_effect h
  | holder answer => exact holder_effect h
  | phase now committed => exact phase_effect h
  | poll answer => exact poll_effect h
  | deadline =>
    unfold jobStep at h
    dsimp only at h
    split at h
    · rename_i hjob
      cases h
      exact .goto hjob (.finally _ (fun _ => rfl) rfl)
    · cases h
  | ensure answer =>
    unfold jobStep at h
    dsimp only at h
    split at h
    · rename_i hjob
      cases h
      exact .goto hjob ⟨id, fun h => h, le_rfl, fun _ => rfl, rfl⟩
    · cases h
  | coverage answer => exact coverage_effect h
  | release answer => exact release_effect h
  | clear committed => exact clear_effect h
  | mark committed => exact mark_effect h
  | cancel => exact cancel_effect h
  | kill =>
    obtain ⟨stage, hjob, rfl⟩ := Option.map_eq_some_iff.mp h
    exact .halt hjob fun hphase _ => hphase
  | watchdog reason =>
    unfold jobStep at h
    dsimp only at h
    split at h
    · cases h
      exact .watchdog reason
    · cases h

/-- A heal ends in a second execution with what it has found, in a failure, or with the delivery. -/
theorem afterHeal_cases (e : HealEnd) :
    (∃ v, e = .result (.success v)) ∨
      (e.isSuccess = false ∧ (afterHeal e = none ∨
        ∃ exc heal, afterHeal e = some (.mark exc heal) ∧
          ∀ r ∈ heal, e = .result r ∧ outcomeToExc r = some exc)) := by
  cases e with
  | result r =>
    cases r with
    | success v => exact Or.inl ⟨v, rfl⟩
    | _ reason =>
      refine Or.inr ⟨rfl, Or.inr ⟨_, _, rfl, fun r hr => ?_⟩⟩
      obtain rfl := Option.some.inj hr
      exact ⟨rfl, rfl⟩
  | raised exc =>
    exact Or.inr ⟨rfl, Or.inr ⟨exc, none, rfl, fun r hr => absurd hr (Option.not_mem_none r)⟩⟩
  | cancelled => exact Or.inr ⟨rfl, Or.inl rfl⟩

/-! ### The row -/

/-- The columns of a row are those of what has been committed. -/
structure RowTrue (env : TextEnv) (spec : JobSpec) (row : BacktestRow R) (trades : List T)
    (history : List (Event R T)) : Prop where
  attempt : row.attempt = history.countP Event.isStarted
  trades : trades = (history.filterMap Event.finished?).flatMap (·.trades)
  results : row.results = (history.filterMap Event.finished?).getLast?.map (·.results)
  code : row.errorCode = (errorColumns env spec (history.filterMap Event.exc?)).code.value
  action : row.errorSuggestedAction =
    (errorColumns env spec (history.filterMap Event.exc?)).suggestedAction
  remediation : row.errorRemediation =
    (errorColumns env spec (history.filterMap Event.exc?)).remediation
  completed : row.status = .completed →
    ∃ before r healed, history.filter Event.isStatus = before ++ [.finished r healed]
  failed : row.status = .failed →
    ∃ before, (∃ e heal, history.filter Event.isStatus = before ++ [.failed e heal]) ∨
      ∃ reason, history.filter Event.isStatus = before ++ [.watchdog reason]

variable {row : BacktestRow R} {trades : List T} {history : List (Event R T)}

theorem filterMap_concat_of_none {α β : Type} {f : α → Option β} {l : List α} {x : α}
    (h : f x = none) : (l ++ [x]).filterMap f = l.filterMap f := by
  simp [List.filterMap_append, h]

/-- A write of the status is the last one. -/
theorem filter_isStatus_concat {event : Event R T} (h : event.isStatus = true) :
    (history ++ [event]).filter Event.isStatus = history.filter Event.isStatus ++ [event] := by
  simp [List.filter_append, h]

theorem RowTrue.created : RowTrue env spec (.created R) ([] : List T) [] where
  attempt := rfl
  trades := rfl
  results := rfl
  code := rfl
  action := rfl
  remediation := rfl
  completed := fun hstatus => by cases hstatus
  failed := fun hstatus => by cases hstatus

/-- An event that is neither a result nor a failure, over columns that are as they were. -/
theorem RowTrue.append (h : RowTrue env spec row trades history) {row' : BacktestRow R}
    {event : Event R T} (hfinished : event.finished? = none) (hexc : event.exc? = none)
    (hresults : row'.results = row.results) (hcode : row'.errorCode = row.errorCode)
    (haction : row'.errorSuggestedAction = row.errorSuggestedAction)
    (hremediation : row'.errorRemediation = row.errorRemediation)
    (hattempt : row'.attempt = (history ++ [event]).countP Event.isStarted)
    (hcompleted : row'.status ≠ .completed)
    (hfailed : row'.status = .failed → ∃ reason, event = .watchdog reason) :
    RowTrue env spec row' trades (history ++ [event]) where
  attempt := hattempt
  trades := by
    rw [filterMap_concat_of_none hfinished]
    exact h.trades
  results := by
    rw [filterMap_concat_of_none hfinished, hresults]
    exact h.results
  code := by
    rw [filterMap_concat_of_none hexc, hcode]
    exact h.code
  action := by
    rw [filterMap_concat_of_none hexc, haction]
    exact h.action
  remediation := by
    rw [filterMap_concat_of_none hexc, hremediation]
    exact h.remediation
  completed := fun hstatus => absurd hstatus hcompleted
  failed := fun hstatus => by
    obtain ⟨reason, rfl⟩ := hfailed hstatus
    exact ⟨_, Or.inr ⟨reason, filter_isStatus_concat rfl⟩⟩

theorem RowTrue.start (h : RowTrue env spec row trades history) :
    RowTrue env spec row.start trades (history ++ [.started]) := by
  refine h.append rfl rfl rfl rfl rfl rfl ?_ (fun hstatus => by cases hstatus)
    fun hstatus => by cases hstatus
  rw [List.countP_append, ← h.attempt]
  rfl

/-- A report is no column of the row. -/
theorem RowTrue.saved (h : RowTrue env spec row trades history) (report : String) :
    RowTrue env spec row trades (history ++ [.saved report]) := by
  have hwrites : (history ++ [Event.saved report]).filter Event.isStatus
      = history.filter Event.isStatus := by
    simp [List.filter_append, Event.isStatus]
  refine ⟨?_, ?_, ?_, ?_, ?_, ?_, ?_, ?_⟩
  · rw [List.countP_append]
    exact h.attempt
  · rw [filterMap_concat_of_none rfl]
    exact h.trades
  · rw [filterMap_concat_of_none rfl]
    exact h.results
  · rw [filterMap_concat_of_none rfl]
    exact h.code
  · rw [filterMap_concat_of_none rfl]
    exact h.action
  · rw [filterMap_concat_of_none rfl]
    exact h.remediation
  · rw [hwrites]
    exact h.completed
  · rw [hwrites]
    exact h.failed

theorem RowTrue.finalize (h : RowTrue env spec row trades history) (r : BacktestResult R T)
    (healed : Option Verified) :
    RowTrue env spec (row.finalize r.results) (trades ++ r.trades)
      (history ++ [.finished r healed]) where
  attempt := by
    rw [List.countP_append]
    exact h.attempt
  trades := by
    rw [List.filterMap_append, List.flatMap_append, ← h.trades]
    simp [Event.finished?]
  results := by simp [Event.finished?, BacktestRow.finalize]
  code := by
    rw [filterMap_concat_of_none rfl]
    exact h.code
  action := by
    rw [filterMap_concat_of_none rfl]
    exact h.action
  remediation := by
    rw [filterMap_concat_of_none rfl]
    exact h.remediation
  completed := fun _ => ⟨_, r, healed, filter_isStatus_concat rfl⟩
  failed := fun hstatus => by cases hstatus

theorem RowTrue.markFailed (h : RowTrue env spec row trades history) (exc : Exc)
    (heal : Option AutoHealResult) :
    RowTrue env spec (row.markFailed env spec exc) trades (history ++ [.failed exc heal]) where
  attempt := by
    rw [List.countP_append]
    exact h.attempt
  trades := by
    rw [filterMap_concat_of_none rfl]
    exact h.trades
  results := by
    rw [filterMap_concat_of_none rfl]
    exact h.results
  code := by simp [Event.exc?, errorColumns, BacktestRow.markFailed]
  action := by simp [Event.exc?, errorColumns, BacktestRow.markFailed]
  remediation := by simp [Event.exc?, errorColumns, BacktestRow.markFailed]
  completed := fun hstatus => by cases hstatus
  failed := fun _ => ⟨_, Or.inl ⟨exc, heal, filter_isStatus_concat rfl⟩⟩

theorem RowTrue.watchdog (h : RowTrue env spec row trades history) (reason : String) :
    RowTrue env spec (row.watchdog reason) trades (history ++ [.watchdog reason]) := by
  refine h.append rfl rfl rfl rfl rfl rfl ?_ (fun hstatus => by cases hstatus)
    fun _ => ⟨reason, rfl⟩
  rw [List.countP_append]
  exact h.attempt

/-- The columns of a heal are none of these. -/
theorem RowTrue.step (hs : RowTrue env spec s.row s.trades s.history)
    (h : JobEffect env cfg spec s a t) : RowTrue env spec t.row t.trades t.history := by
  cases h with
  | commit | same | goto _ _ | queue _ _ | halt _ _ | resume _ _ _ _ => exact hs
  | start hjob => exact hs.start
  | save report hjob => exact hs.saved report
  | finish results trades hjob => exact hs.finalize ⟨results, _, trades⟩ _
  | phase message now hjob hmove hnext =>
    exact ⟨hs.attempt, hs.trades, hs.results, hs.code, hs.action, hs.remediation, hs.completed,
      hs.failed⟩
  | clear hjob =>
    exact ⟨hs.attempt, hs.trades, hs.results, hs.code, hs.action, hs.remediation, hs.completed,
      hs.failed⟩
  | mark hjob => exact hs.markFailed _ _
  | watchdog reason => exact hs.watchdog reason

theorem rowTrue_path {as : List (JobLabel R T)}
    (h : Path (jobSystem R T env cfg spec) anyStep (.created R T) as s) :
    RowTrue env spec s.row s.trades s.history :=
  h.invariant (I := fun s : JobSite R T => RowTrue env spec s.row s.trades s.history)
    (fun _ _ _ hs _ hstep => hs.step (jobStep_effect hstep)) .created

/-! ### The report -/

/-- The file is the report saved last, its path is committed with the results, and an execution is
    finalized behind the report that it has saved. -/
structure ReportTrue (s : JobSite R T) : Prop where
  file : s.report = s.saved.getLast?
  path : s.row.hasReport = true ↔ s.finished ≠ []
  pending : ∀ stage ∈ s.job, ∀ report ∈ stage.report?, s.saved.getLast? = some report
  own : ∀ before r healed after, s.history = before ++ Event.finished r healed :: after →
    (before.filterMap Event.saved?).getLast? = some r.report

theorem ReportTrue.created : ReportTrue (.created R T) where
  file := rfl
  path := ⟨fun h => absurd h Bool.false_ne_true, fun h => absurd rfl h⟩
  pending _ hjob := absurd hjob (Option.not_mem_none _)
  own _ _ _ _ hsplit := absurd hsplit (by simp [JobSite.created])

/-- A result before the last event. -/
theorem finished_before {event : Event R T} {before after : List (Event R T)}
    {r : BacktestResult R T} {healed : Option Verified} (h : event ≠ .finished r healed)
    (hsplit : history ++ [event] = before ++ .finished r healed :: after) :
    ∃ rest, history = before ++ .finished r healed :: rest := by
  rcases List.eq_nil_or_concat after with rfl | ⟨rest, last, rfl⟩
  · obtain ⟨-, hlast⟩ := List.append_inj' hsplit rfl
    exact absurd (List.singleton_inj.mp hlast) h
  · rw [List.concat_eq_append, ← List.cons_append, ← List.append_assoc] at hsplit
    exact ⟨rest, (List.append_inj' hsplit rfl).1⟩

/-- The report and the results stay. -/
theorem ReportTrue.keep (hs : ReportTrue s) (hreport : t.report = s.report)
    (hpath : t.row.hasReport = s.row.hasReport)
    (hjob : t.job = s.job ∨ ∀ stage ∈ t.job, stage.report? = none)
    (hhistory : t.history = s.history ∨ ∃ event : Event R T, t.history = s.history ++ [event] ∧
      event.saved? = none ∧ event.finished? = none) : ReportTrue t := by
  have hsaved : t.saved = s.saved := by
    rcases hhistory with h | ⟨event, h, hnone, -⟩
    · rw [JobSite.saved, h, JobSite.saved]
    · rw [JobSite.saved, h, filterMap_concat_of_none hnone, JobSite.saved]
  have hfinished : t.finished = s.finished := by
    rcases hhistory with h | ⟨event, h, -, hnone⟩
    · rw [JobSite.finished, h, JobSite.finished]
    · rw [JobSite.finished, h, filterMap_concat_of_none hnone, JobSite.finished]
  refine ⟨?_, ?_, fun stage hstage report hmem => ?_, fun before r healed after hsplit => ?_⟩
  · rw [hreport, hsaved]
    exact hs.file
  · rw [hpath, hfinished]
    exact hs.path
  · rw [hsaved]
    rcases hjob with hsame | hnone
    · exact hs.pending stage (hsame ▸ hstage) report hmem
    · rw [hnone stage hstage] at hmem
      cases hmem
  · rcases hhistory with h | ⟨event, h, -, hnone⟩
    · exact hs.own before r healed after (h ▸ hsplit)
    · rw [h] at hsplit
      obtain ⟨rest, hrest⟩ := finished_before (by rintro rfl; cases hnone) hsplit
      exact hs.own before r healed rest hrest

theorem ReportTrue.saved (hs : ReportTrue s) (report : String) (healed : Option Verified) :
    ReportTrue { s with
      report := some report
      job := some (.finalize healed report)
      history := s.history ++ [.saved report] } where
  file := by simp [JobSite.saved, Event.saved?]
  path := by
    rw [JobSite.finished, filterMap_concat_of_none rfl]
    exact hs.path
  pending := by
    rintro stage hstage report' hmem
    obtain rfl := Option.some.inj hstage
    obtain rfl := Option.some.inj hmem
    simp [JobSite.saved, Event.saved?]
  own before r healed' after hsplit := by
    obtain ⟨rest, hrest⟩ := finished_before (by simp) hsplit
    exact hs.own before r healed' rest hrest

theorem ReportTrue.finalize (hs : ReportTrue s) {healed : Option Verified} {report : String}
    (hjob : s.job = some (.finalize healed report)) (results : R) (trades : List T) :
    ReportTrue { s with
      row := s.row.finalize results
      trades := s.trades ++ trades
      job := none
      history := s.history ++ [.finished ⟨results, report, trades⟩ healed] } where
  file := by
    rw [JobSite.saved, filterMap_concat_of_none rfl]
    exact hs.file
  path := by simp [BacktestRow.finalize, JobSite.finished, Event.finished?]
  pending _ hstage := absurd hstage (Option.not_mem_none _)
  own before r healed' after hsplit := by
    by_cases hnew : Event.finished (⟨results, report, trades⟩ : BacktestResult R T) healed
        = .finished r healed' ∧ after = []
    · -- the new result: its report is the last one saved
      obtain ⟨heq, rfl⟩ := hnew
      obtain ⟨rfl, rfl⟩ := Event.finished.inj heq
      obtain ⟨rfl, -⟩ := List.append_inj' hsplit rfl
      exact hs.pending _ hjob report rfl
    · rcases List.eq_nil_or_concat after with rfl | ⟨rest, last, rfl⟩
      · obtain ⟨-, hlast⟩ := List.append_inj' hsplit rfl
        exact absurd ⟨List.singleton_inj.mp hlast, rfl⟩ hnew
      · rw [List.concat_eq_append, ← List.cons_append, ← List.append_assoc] at hsplit
        exact hs.own before r healed' rest (List.append_inj' hsplit rfl).1

/-- Behind a heal no delivery stands at its last commit. -/
theorem report_afterHeal (e : HealEnd) : ∀ stage ∈ afterHeal e, stage.report? = none := by
  intro stage hstage
  rcases afterHeal_cases e with ⟨v, rfl⟩ | ⟨-, hend | ⟨exc, heal, hend, -⟩⟩
  · obtain rfl := Option.some.inj hstage
    rfl
  · rw [hend] at hstage
    cases hstage
  · rw [hend] at hstage
    obtain rfl := Option.some.inj hstage
    rfl

theorem ReportTrue.step (hs : ReportTrue s) (h : JobEffect env cfg spec s a t) :
    ReportTrue t := by
  cases h with
  | commit | same => exact hs.keep rfl rfl (Or.inl rfl) (Or.inl rfl)
  | start hjob =>
    exact hs.keep rfl rfl (Or.inr fun _ hstage => by cases hstage; rfl)
      (Or.inr ⟨.started, rfl, rfl, rfl⟩)
  | save report hjob => exact hs.saved report _
  | finish results trades hjob => exact hs.finalize hjob results trades
  | goto hjob hmove =>
    exact hs.keep rfl rfl (Or.inr fun _ hstage => by cases hstage; exact hmove.report) (Or.inl rfl)
  | queue id hjob =>
    exact hs.keep rfl rfl (Or.inr fun _ hstage => by cases hstage; rfl) (Or.inl rfl)
  | phase message now hjob hmove hnext =>
    exact hs.keep rfl rfl (Or.inr fun _ hstage => by cases hstage; exact hmove.report) (Or.inl rfl)
  | resume hjob hsound hroom hphase =>
    exact hs.keep rfl rfl (Or.inr (report_afterHeal _)) (Or.inl rfl)
  | clear hjob => exact hs.keep rfl rfl (Or.inr (report_afterHeal _)) (Or.inl rfl)
  | mark hjob =>
    exact hs.keep rfl rfl (Or.inr fun _ hstage => by cases hstage) (Or.inr ⟨_, rfl, rfl, rfl⟩)
  | halt hjob hphase => exact hs.keep rfl rfl (Or.inr fun _ hstage => by cases hstage) (Or.inl rfl)
  | watchdog reason => exact hs.keep rfl rfl (Or.inl rfl) (Or.inr ⟨_, rfl, rfl, rfl⟩)

theorem reportTrue_path {as : List (JobLabel R T)}
    (h : Path (jobSystem R T env cfg spec) anyStep (.created R T) as s) : ReportTrue s :=
  h.invariant (fun _ _ _ hs _ hstep => hs.step (jobStep_effect hstep)) .created

/-- **What the API serves of a backtest.**  However often the job is delivered, and wherever it is
    cancelled or dies: the metrics and the series are those of the last execution that was
    finalized, and the trades are those of all of them, so that the two are of one execution
    exactly if the earlier ones have not traded.  The report is the one saved last, by whatever
    execution: that of the last one finalized, if none has saved its own since.  An error is served
    for a row whose last write of the status is a failure or a verdict of the watchdog, with the
    code of the last failure. -/
theorem results_iff_single {as : List (JobLabel R T)}
    (h : Path (jobSystem R T env cfg spec) anyStep (.created R T) as s) :
    s.row.attempt = s.history.countP Event.isStarted ∧
    s.row.results = s.finished.getLast?.map (·.results) ∧
    s.trades = s.finished.flatMap (·.trades) ∧
    (∀ r, s.finished.getLast? = some r →
      (s.trades = r.trades ↔ ∀ r' ∈ s.finished.dropLast, r'.trades = [])) ∧
    s.servedReport = (if s.finished = [] then none else s.saved.getLast?) ∧
    (∀ before r healed after, s.history = before ++ .finished r healed :: after →
      after.filterMap Event.saved? = [] → s.servedReport = some r.report) ∧
    (s.row.status = .completed →
      ∃ before r healed, s.statusWrites = before ++ [.finished r healed]) ∧
    ∀ envelope, s.error = some envelope →
      envelope = envelopeOf (errorColumns env spec (s.history.filterMap Event.exc?)) ∧
      ∃ before, (∃ exc heal, s.statusWrites = before ++ [.failed exc heal]) ∨
        ∃ reason, s.statusWrites = before ++ [.watchdog reason] := by
  have hrow := rowTrue_path h
  have hfile := reportTrue_path h
  have hserved : s.servedReport = if s.finished = [] then none else s.saved.getLast? := by
    unfold JobSite.servedReport
    by_cases hnone : s.finished = []
    · rw [if_pos hnone, if_neg (fun hpath => hfile.path.mp hpath hnone)]
    · rw [if_neg hnone, if_pos (hfile.path.mpr hnone), hfile.file]
  refine ⟨hrow.attempt, hrow.results, hrow.trades, fun r hr => ?_, hserved,
    fun before r healed after hsplit hsince => ?_, hrow.completed, fun envelope henv => ?_⟩
  · have hsplit : s.finished = s.finished.dropLast ++ [r] :=
      (List.dropLast_append_getLast? r hr).symm
    have htrades : s.trades = s.finished.dropLast.flatMap (·.trades) ++ r.trades := by
      rw [hrow.trades]
      show s.finished.flatMap _ = _
      rw [hsplit, List.flatMap_append]
      simp
    rw [htrades, List.append_left_eq_self, List.flatMap_eq_nil_iff]
  · have hown := hfile.own before r healed after hsplit
    have hne : s.finished ≠ [] := by
      rw [JobSite.finished, hsplit]
      simp [List.filterMap_append, Event.finished?]
    have hsaved : s.saved = before.filterMap Event.saved? := by
      rw [JobSite.saved, hsplit, List.filterMap_append, List.filterMap_cons_none rfl, hsince,
        List.append_nil]
    rw [hserved, if_neg hne, hsaved, hown]
  · unfold JobSite.error buildErrorEnvelope at henv
    split at henv
    · rename_i hfailed
      refine ⟨?_, hrow.failed (of_decide_eq_true hfailed)⟩
      rw [← Option.some.inj henv, hrow.code, hrow.action, hrow.remediation,
        FailureCode.parseOrUnknown_value]
      rfl
    · cases henv

def exampleEnv : TextEnv := ⟨fun _ => false, fun _ => false⟩

def exampleSettings : AutoHealSettings := ⟨10, 20, false, 1800⟩

def exampleSpec : JobSpec := ⟨["AAPL.NASDAQ"], 19723, 20088, "stocks"⟩

/-- The jobs of a backtest whose metrics and fills are numbers. -/
def exampleSystem : TransitionSystem (JobSite ℕ ℕ) (JobLabel ℕ ℕ) :=
  jobSystem ℕ ℕ exampleEnv exampleSettings exampleSpec

/-- The worker dies behind its last commit, and the job is delivered again; and a third time, in
    which the worker dies behind the report. -/
def redelivered : List (JobLabel ℕ ℕ) :=
  [.commit, .start, .save "a", .finish 1 [10, 11], .start, .save "b", .finish 2 [20], .start,
    .save "c", .kill]

/-- The metrics are of the second execution, the trades of two, and the report of the third. -/
theorem results_iff_single_redelivered : ∃ s : JobSite ℕ ℕ,
    s.finished.getLast? = some ⟨2, "b", [20]⟩ ∧ s.trades = [10, 11, 20] ∧
      (s.trades = [20] ↔ ∀ r ∈ s.finished.dropLast, r.trades = []) ∧
      s.servedReport = some "c" := by
  have hrun : (exampleSystem.run (.created ℕ ℕ) redelivered).map
      (fun s => (s.finished, s.trades, s.saved)) =
        some ([⟨1, "a", [10, 11]⟩, ⟨2, "b", [20]⟩], [10, 11, 20], ["a", "b", "c"]) := rfl
  obtain ⟨s, hs, heq⟩ := Option.map_eq_some_iff.mp hrun
  obtain ⟨hfinished, heq⟩ := Prod.mk.inj heq
  obtain ⟨htrades, hsaved⟩ := Prod.mk.inj heq
  have hlast : s.finished.getLast? = some ⟨2, "b", [20]⟩ := by rw [hfinished]; rfl
  obtain ⟨-, -, -, hsingle, hserved, -⟩ := results_iff_single (Path.of_run hs)
  refine ⟨s, hlast, htrades, hsingle _ hlast, ?_⟩
  rw [hserved, hfinished, hsaved]
  rfl

/-! ### The heal -/

theorem allowed_iff {assetClass : String} :
    Allowed cfg spec assetClass ↔
      spec.instruments ≠ [] ∧ (assetClass = "options" → cfg.allowOptions = true) ∧
      4 * (spec.endDate - spec.startDate) ≤ 1461 * cfg.maxYears ∧
      spec.instruments.length ≤ cfg.maxSymbols := by
  unfold Allowed evaluateGuardrails
  simp only
  split
  · rename_i hempty
    simp [hempty]
  · rename_i hne
    split
    · rename_i hoptions
      simp [hoptions.1, hoptions.2]
    · rename_i hoptions
      have hoptions' : assetClass = "options" → cfg.allowOptions = true := by
        simpa using hoptions
      split
      · rename_i hyears
        simp [hne, hyears]
      · rename_i hyears
        split
        · rename_i hcount
          simp [hcount]
        · rename_i hcount
          simp only [true_iff]
          exact ⟨hne, hoptions', not_lt.mp hyears, not_lt.mp hcount⟩

/-- The code that the comment on `_OUTCOME_TO_EXC` has for an outcome. -/
def AutoHealResult.code : AutoHealResult → FailureCode
  | .success _ => .unknown
  | .guardrailRejected _ | .coverageStillMissing _ => .missingData
  | .timeout _ => .timeout
  | .ingestFailed _ => .engineCrash

theorem not_mem_timeoutText : 'N' ∉ (timeoutText cfg).toList := by
  intro hmem
  unfold timeoutText at hmem
  rw [String.toList_append, String.toList_append, Nat.toString_eq_repr, Nat.toList_repr,
    List.mem_append, List.mem_append] at hmem
  rcases hmem with (hmem | hmem) | hmem
  · exact absurd hmem (by decide)
  · exact absurd (Nat.isDigit_of_mem_toDigits (by omega) (by omega) hmem) (by decide)
  · exact absurd hmem (by decide)

theorem timeoutText_ne : timeoutText cfg ≠ "" := by
  intro h
  have hlist := congrArg String.toList h
  unfold timeoutText at hlist
  rw [String.toList_append, String.toList_append] at hlist
  simp at hlist

/-- **The exception of an outcome is classified as the outcome was meant.** -/
theorem classify_outcome {r : AutoHealResult} {exc : Exc} (hr : r.Sound cfg spec)
    (h : outcomeToExc r = some exc) : (classifyWorkerFailure env exc spec).code = r.code := by
  cases r with
  | success v => cases h
  | guardrailRejected reason =>
    cases h
    exact classify_fileNotFound rfl
  | coverageStillMissing reason =>
    cases h
    exact classify_fileNotFound rfl
  | timeout reason =>
    cases h
    obtain rfl : reason = timeoutText cfg := hr
    have hraw : (Exc.mk .timeoutError "TimeoutError" (timeoutText cfg)).raw = timeoutText cfg :=
      if_neg timeoutText_ne
    rw [classify_timeout rfl (by rw [hraw]; exact not_mem_timeoutText)]
    rfl
  | ingestFailed reason =>
    cases h
    have hreason : reason = declinedText ∨ reason = noJobIdText ∨ reason = providerErrorText := by
      simpa [AutoHealResult.Sound] using hr
    rcases hreason with rfl | rfl | rfl
    · exact congrArg _ (classify_engineCrash rfl (by decide) rfl)
    · exact congrArg _ (classify_engineCrash rfl (by decide) rfl)
    · exact congrArg _ (classify_engineCrash rfl (by decide) rfl)

/-- What the last delivery has spent, and what it may still spend. -/
structure HealBounded (cfg : AutoHealSettings) (spec : JobSpec) (s : JobSite R T) : Prop where
  sound : ∀ stage ∈ s.job, stage.Sound cfg spec
  finished : ∀ r v, Event.finished r (some v) ∈ s.history → v.Sound cfg spec
  failed : ∀ exc r, Event.failed exc (some r) ∈ s.history →
    r.Sound cfg spec ∧ outcomeToExc r = some exc
  allowed : ∀ assetClass ∈ s.ingests, Allowed cfg spec assetClass
  queued : s.ingests.length + (s.job.elim 0 fun stage => stage.mayQueue.toNat) ≤ 1
  executed : s.executions + s.job.elim 0 Stage.room ≤ 2

theorem HealBounded.goto (hs : HealBounded cfg spec s) (hjob : s.job = some stage)
    (hmove : Moves cfg spec stage next) : HealBounded cfg spec (s.goto next) where
  sound := fun n hn => by
    obtain rfl : next = n := Option.some.inj hn
    exact hmove.sound (hs.sound stage hjob)
  finished := hs.finished
  failed := hs.failed
  allowed := hs.allowed
  queued := by
    have hle : next.mayQueue.toNat ≤ stage.mayQueue.toNat := by
      cases hnext : next.mayQueue
      · exact Nat.zero_le _
      · rw [hmove.mayQueue hnext]
    have hbound := hs.queued
    rw [hjob] at hbound
    exact (Nat.add_le_add_left hle _).trans hbound
  executed := by
    have hbound := hs.executed
    rw [hjob] at hbound
    exact (Nat.add_le_add_left hmove.room _).trans hbound

theorem HealBounded.halt (hs : HealBounded cfg spec s) :
    HealBounded cfg spec { s with job := none } where
  sound := fun _ hn => by cases hn
  finished := hs.finished
  failed := hs.failed
  allowed := hs.allowed
  queued := (Nat.le_add_right _ _).trans hs.queued
  executed := (Nat.le_add_right _ _).trans hs.executed

theorem HealBounded.resume (hs : HealBounded cfg spec s) (hjob : s.job = some stage)
    (hsound : stage.Sound cfg spec → e.Sound cfg spec) (hroom : stage.room = 1) :
    HealBounded cfg spec (s.resume e) := by
  have hexecuted := hs.executed
  rw [hjob] at hexecuted
  have hexecuted : s.executions + 1 ≤ 2 := by
    simpa [hroom] using hexecuted
  have hqueued : s.ingests.length ≤ 1 := (Nat.le_add_right _ _).trans hs.queued
  rcases afterHeal_cases e with ⟨v, rfl⟩ | ⟨hfail, hend⟩
  · exact
      { sound := fun n hn => by
          obtain rfl : Stage.execute (some v) = n := Option.some.inj hn
          intro w hw
          obtain rfl : v = w := Option.some.inj hw
          exact hsound (hs.sound stage hjob)
        finished := hs.finished
        failed := hs.failed
        allowed := hs.allowed
        queued := hqueued
        executed := hexecuted }
  · have hsame : s.resume e = { s with job := afterHeal e } := by
      simp [JobSite.resume, hfail]
    rw [hsame]
    rcases hend with hend | ⟨exc, heal, hend, hheal⟩
    · rw [hend]
      exact hs.halt
    · rw [hend]
      exact
        { sound := fun n hn => by
            obtain rfl : Stage.mark exc heal = n := Option.some.inj hn
            intro r hr
            obtain ⟨rfl, hexc⟩ := hheal r hr
            exact ⟨hsound (hs.sound stage hjob), hexc⟩
          finished := hs.finished
          failed := hs.failed
          allowed := hs.allowed
          queued := hqueued
          executed := (Nat.le_succ _).trans hexecuted }

theorem HealBounded.step (hs : HealBounded cfg spec s) (h : JobEffect env cfg spec s a t) :
    HealBounded cfg spec t := by
  cases h with
  | commit | same => exact ⟨hs.sound, hs.finished, hs.failed, hs.allowed, hs.queued, hs.executed⟩
  | start hjob =>
    -- a new delivery has spent one execution
    refine ⟨fun n hn => ?_, fun r v hv => hs.finished r v (by simpa using hv),
      fun exc r hr => hs.failed exc r (by simpa using hr),
      fun _ hmem => absurd hmem List.not_mem_nil, le_rfl, le_rfl⟩
    obtain rfl : Stage.execute none = n := Option.some.inj hn
    exact fun v hv => by cases hv
  | @save healed report hjob =>
    have hsound := hs.sound _ hjob
    have hqueued := hs.queued
    have hexecuted := hs.executed
    rw [hjob] at hqueued hexecuted
    refine ⟨fun n hn => ?_, fun r v hv => hs.finished r v (by simpa using hv),
      fun exc r hr => hs.failed exc r (by simpa using hr), hs.allowed, ?_, ?_⟩
    · obtain rfl : Stage.finalize healed report = n := Option.some.inj hn
      exact hsound
    · cases healed <;> exact hqueued
    · cases healed <;> exact hexecuted
  | finish results trades hjob =>
    have hsound := hs.sound _ hjob
    refine ⟨hs.halt.sound, fun r' v hv => ?_, fun exc r' hr => hs.failed exc r' ?_, hs.allowed,
      hs.halt.queued, hs.halt.executed⟩
    · rcases List.mem_append.mp hv with hv | hv
      · exact hs.finished r' v hv
      · obtain ⟨rfl, rfl⟩ := Event.finished.inj (List.mem_singleton.mp hv)
        exact hsound v rfl
    · simpa using hr
  | goto hjob hmove => exact hs.goto hjob hmove
  | queue id hjob =>
    have hallowed := hs.sound _ hjob
    have hqueued := hs.queued
    have hexecuted := hs.executed
    rw [hjob] at hqueued hexecuted
    refine ⟨fun n hn => ?_, hs.finished, hs.failed, fun assetClass hmem => ?_, ?_, hexecuted⟩
    · obtain rfl : _ = n := Option.some.inj hn
      exact hallowed
    · rcases List.mem_append.mp hmem with hmem | hmem
      · exact hs.allowed assetClass hmem
      · obtain rfl := List.mem_singleton.mp hmem
        exact hallowed
    · rw [List.length_append]
      exact hqueued
  | phase message now hjob hmove hnext =>
    have hgoto := hs.goto hjob hmove
    exact ⟨hgoto.sound, hgoto.finished, hgoto.failed, hgoto.allowed, hgoto.queued,
      hgoto.executed⟩
  | resume hjob hsound hroom hphase => exact hs.resume hjob hsound hroom
  | clear hjob =>
    have hresume := hs.resume hjob id rfl
    exact ⟨hresume.sound, hresume.finished, hresume.failed, hresume.allowed, hresume.queued,
      hresume.executed⟩
  | mark hjob =>
    have hsound := hs.sound _ hjob
    refine ⟨hs.halt.sound, fun r v hv => hs.finished r v (by simpa using hv), fun exc r hr => ?_,
      hs.allowed, hs.halt.queued, hs.halt.executed⟩
    rcases List.mem_append.mp hr with hr | hr
    · exact hs.failed exc r hr
    · obtain ⟨rfl, rfl⟩ := Event.failed.inj (List.mem_singleton.mp hr)
      exact hsound r rfl
  | halt hjob hphase => exact hs.halt
  | watchdog reason =>
    exact ⟨hs.sound, fun r v hv => hs.finished r v (by simpa using hv),
      fun exc r hr => hs.failed exc r (by simpa using hr), hs.allowed, hs.queued, hs.executed⟩

/-- **What a backtest spends on its data.**  However often the job is delivered, and whatever the
    services answer: the last delivery, and so every delivery while it was the last, has executed
    the backtest at most twice and has enqueued at most one ingest job, and only for a request
    within the guardrails; an execution that was finalized the second time rests on a heal within
    all of them, after which no instrument lacks more than seven days; and a row that an
    unsuccessful heal has failed has the code that its outcome is meant to have. -/
theorem heal_bounded {as : List (JobLabel R T)}
    (h : Path (jobSystem R T env cfg spec) anyStep (.created R T) as s) :
    s.executions ≤ 2 ∧
    s.ingests.length ≤ 1 ∧
    (∀ assetClass ∈ s.ingests,
      spec.instruments ≠ [] ∧ (assetClass = "options" → cfg.allowOptions = true) ∧
      4 * (spec.endDate - spec.startDate) ≤ 1461 * cfg.maxYears ∧
      spec.instruments.length ≤ cfg.maxSymbols) ∧
    (∀ r v, Event.finished r (some v) ∈ s.history →
      (spec.instruments ≠ [] ∧ (v.assetClass = "options" → cfg.allowOptions = true) ∧
        4 * (spec.endDate - spec.startDate) ≤ 1461 * cfg.maxYears ∧
        spec.instruments.length ≤ cfg.maxSymbols) ∧
      ∀ g ∈ v.gaps, totalGapNs g ≤ coverageToleranceNs) ∧
    ∀ exc r, Event.failed exc (some r) ∈ s.history →
      (classifyWorkerFailure env exc spec).code = r.code := by
  have hs : HealBounded cfg spec s :=
    h.invariant (fun _ _ _ hs _ hstep => hs.step (jobStep_effect hstep))
      { sound := fun _ hn => by cases hn
        finished := fun _ _ hv => absurd hv List.not_mem_nil
        failed := fun _ _ hr => absurd hr List.not_mem_nil
        allowed := fun _ hv => absurd hv List.not_mem_nil
        queued := Nat.zero_le _
        executed := Nat.zero_le _ }
  refine ⟨(Nat.le_add_right _ _).trans hs.executed, (Nat.le_add_right _ _).trans hs.queued,
    fun assetClass hmem => allowed_iff.mp (hs.allowed assetClass hmem), fun r v hv => ?_,
    fun exc r hr => ?_⟩
  · have hsound := hs.finished r v hv
    exact ⟨allowed_iff.mp hsound.allowed, hsound.covered⟩
  · obtain ⟨hsound, hexc⟩ := hs.failed exc r hr
    exact classify_outcome hsound hexc

/-- The data of a request is missing, and the heal leaves a day uncovered. -/
def healedRun : List (JobLabel ℕ ℕ) :=
  [.commit, .start, .raise ⟨.fileNotFoundError, "FileNotFoundError", ""⟩, .derive .nothing,
    .acquire (.ok true), .enqueue (.queued "job-1"), .swap (.ok true), .phase 0 true,
    .poll .unfinished, .poll (.complete true), .ensure (some ["AAPL.NASDAQ"]),
    .coverage (some [("AAPL.NASDAQ", [(0, 86400000000000)])]), .release (.ok ()), .clear true,
    .save "a", .finish 1 [10]]

def healedFound : Verified :=
  ⟨"stocks", "job-1", ["AAPL.NASDAQ"], [("AAPL.NASDAQ", [(0, 86400000000000)])]⟩

theorem heal_bounded_day : ∃ s : JobSite ℕ ℕ,
    s.history = [.started, .saved "a", .finished ⟨1, "a", [10]⟩ (some healedFound)] ∧
      s.ingests = ["stocks"] ∧ s.executions ≤ 2 ∧
      ∀ g ∈ healedFound.gaps, totalGapNs g ≤ coverageToleranceNs := by
  have hrun : (exampleSystem.run (.created ℕ ℕ) healedRun).map (fun s => (s.history, s.ingests)) =
      some ([.started, .saved "a", .finished ⟨1, "a", [10]⟩ (some healedFound)], ["stocks"]) := by
    decide +kernel
  obtain ⟨s, hs, heq⟩ := Option.map_eq_some_iff.mp hrun
  obtain ⟨hhistory, hingests⟩ := Prod.mk.inj heq
  obtain ⟨hexecutions, -, -, hfound, -⟩ := heal_bounded (Path.of_run hs)
  refine ⟨s, hhistory, hingests, hexecutions, (hfound ⟨1, "a", [10]⟩ healedFound ?_).2⟩
  rw [hhistory]
  exact List.mem_cons_of_mem _ (List.mem_cons_of_mem _ List.mem_cons_self)

/-! ### The phase -/

/-- The columns of a heal are set and cleared together, and are set only while a heal waits. -/
structure PhaseHeld (s : JobSite R T) : Prop where
  waiting : s.row.phase ≠ none → ∃ stage ∈ s.job, stage.waiting = true
  completed : s.row.status = .completed → s.job = none

theorem PhaseHeld.step (hs : PhaseHeld s) (hC : ClearsPhase s a)
    (h : JobEffect env cfg spec s a t) : PhaseHeld t := by
  have hclear : ∀ {stage : Stage}, s.job = some stage →
      (stage.waiting = true → s.row.phase = none) → s.row.phase = none := by
    intro stage hjob hnone
    by_contra hset
    obtain ⟨stage', hjob', hwait⟩ := hs.waiting hset
    obtain rfl : stage = stage' := Option.some.inj (hjob.symm.trans hjob')
    exact hset (hnone hwait)
  have hcompleted : ∀ {stage : Stage}, s.job = some stage → s.row.status ≠ .completed := by
    intro stage hjob hstatus
    rw [hs.completed hstatus] at hjob
    cases hjob
  cases h with
  | commit | same => exact ⟨hs.waiting, hs.completed⟩
  | start hjob =>
    refine ⟨fun hset => ?_, fun hstatus => by cases hstatus⟩
    obtain ⟨stage, hjob', -⟩ := hs.waiting hset
    rw [hjob] at hjob'
    cases hjob'
  | save report hjob =>
    refine ⟨fun hset => ?_, fun hstatus => absurd hstatus (hcompleted hjob)⟩
    exact absurd (hclear hjob fun h => absurd h Bool.false_ne_true) hset
  | finish results trades hjob =>
    refine ⟨fun hset => absurd (hclear hjob fun h => ?_) hset, fun _ => rfl⟩
    exact absurd h Bool.false_ne_true
  | goto hjob hmove =>
    refine ⟨fun hset => ?_, fun hstatus => absurd hstatus (hcompleted hjob)⟩
    obtain ⟨stage, hjob', hwait⟩ := hs.waiting hset
    obtain rfl := Option.some.inj (hjob.symm.trans hjob')
    exact ⟨_, rfl, hmove.waiting hwait⟩
  | queue id hjob =>
    refine ⟨fun hset => ?_, fun hstatus => absurd hstatus (hcompleted hjob)⟩
    exact absurd (hclear hjob fun h => absurd h Bool.false_ne_true) hset
  | phase message now hjob hmove hnext =>
    exact ⟨fun _ => ⟨_, rfl, hnext⟩, fun hstatus => absurd hstatus (hcompleted hjob)⟩
  | resume hjob hsound hroom hphase =>
    exact ⟨fun hset => absurd (hclear hjob (hphase hC)) hset,
      fun hstatus => absurd hstatus (hcompleted hjob)⟩
  | clear hjob =>
    exact ⟨fun hset => absurd rfl hset, fun hstatus => absurd hstatus (hcompleted hjob)⟩
  | mark hjob =>
    refine ⟨fun hset => absurd (hclear hjob fun h => ?_) hset, fun _ => rfl⟩
    exact absurd h Bool.false_ne_true
  | halt hjob hphase =>
    exact ⟨fun hset => absurd (hclear hjob (hphase hC)) hset, fun _ => rfl⟩
  | watchdog reason => exact ⟨hs.waiting, fun hstatus => by cases hstatus⟩

/-- **When a row says that it waits for data.**  As long as no worker dies and no delivery is
    cancelled in the `finally` of a heal whose phase is set, the lock does not raise there, and no
    clearing write is lost: the phase is set only while a heal waits, and never on a row that is
    completed. -/
theorem phase_waiting {as : List (JobLabel R T)}
    (h : Path (jobSystem R T env cfg spec) ClearsPhase (.created R T) as s) :
    (s.row.phase ≠ none → ∃ stage ∈ s.job, stage.waiting = true) ∧
    (s.row.status = .completed → s.row.phase = none) := by
  have hs : PhaseHeld s :=
    h.invariant (fun _ _ _ hs hC hstep => hs.step hC (jobStep_effect hstep))
      ⟨fun hset => absurd rfl hset, fun hstatus => by cases hstatus⟩
  refine ⟨hs.waiting, fun hstatus => ?_⟩
  by_contra hset
  obtain ⟨stage, hjob, -⟩ := hs.waiting hset
  rw [hs.completed hstatus] at hjob
  cases hjob

instance [DecidableEq R] (s : JobSite R T) (a : JobLabel R T) : Decidable (ClearsPhase s a) := by
  unfold ClearsPhase
  split <;> infer_instance

/-- The heal waits for its ingest job. -/
def waitingRun : List (JobLabel ℕ ℕ) := healedRun.take 9

theorem phase_waiting_poll : ∃ s : JobSite ℕ ℕ,
    s.row.phase = some "awaiting_data" ∧ s.row.healJobId = some "job-1" ∧
      ∃ stage ∈ s.job, stage.waiting = true := by
  have hrun : (exampleSystem.runWhere ClearsPhase (.created ℕ ℕ) waitingRun).map
      (fun s => (s.row.phase, s.row.healJobId)) = some (some "awaiting_data", some "job-1") := by
    decide +kernel
  obtain ⟨s, hs, heq⟩ := Option.map_eq_some_iff.mp hrun
  obtain ⟨hphase, hid⟩ := Prod.mk.inj heq
  refine ⟨s, hphase, hid, (phase_waiting (Path.of_runWhere hs)).1 ?_⟩
  rw [hphase]
  exact Option.some_ne_none _

end Msai.Backtests.Job
