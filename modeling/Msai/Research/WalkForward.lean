import Msai.Portfolio.Optimizer
import Msai.Research.Holdout

namespace Msai.Research

open Msai.Lib
open Msai.Portfolio.Optimizer (Window Mode Legs windowsFrom stepOrTestDays buildWalkForwardWindows
  windowsFrom_of_build)

/-!
# From a research report to a graduation candidate

`run_walk_forward` (`services/research_engine.py`) sweeps the training range of every window and
tests the winner on the days behind it.  `promote_research_result` (`api/research.py`) takes one
row of the report of a sweep or of a walk-forward and makes a candidate of it, with its training
metrics and the range that they come from.

* `runWalkForward`, `runResearch` — the two kinds of job;
* `resolveTrainingSelection`, `promoteResearchResult` — which row, and what is checked of it;
* `eligible_result` — what the sweep says of a result that may be selected;
* `row_congr` — rows of runs that agree on the training range;
* `promotion_evidence` — the theorem over both kinds of job.

The averages of the summary and the progress callbacks are left out.
-/

/-! ### Walk-forward -/

/-- The arguments of `run_walk_forward`: those of a sweep over the whole range, and the windows. -/
structure WalkForwardArgs extends SweepArgs where
  trainDays : ℤ
  testDays : ℤ
  stepDays : Option ℤ := none
  mode : String := "rolling"

/-- `build_walk_forward_windows`, with the mode as it is requested. -/
def WalkForwardArgs.windows (args : WalkForwardArgs) : Except String (List Window) :=
  if args.mode = "rolling" then
    buildWalkForwardWindows args.startDate args.endDate args.trainDays args.testDays args.stepDays
      .rolling
  else if args.mode = "expanding" then
    buildWalkForwardWindows args.startDate args.endDate args.trainDays args.testDays args.stepDays
      .expanding
  else if ¬(1 ≤ args.trainDays ∧ 1 ≤ args.testDays) then
    .error "train_days and test_days must be positive"
  else if ¬1 ≤ stepOrTestDays args.stepDays args.testDays then .error "step_days must be positive"
  else .error "mode must be either 'rolling' or 'expanding'"

/-- The sweep of a window. -/
def WalkForwardArgs.sweep (args : WalkForwardArgs) (w : Window) : SweepArgs :=
  { args.toSweepArgs with startDate := w.trainStart, endDate := w.trainEnd }

/-- `report["search"]["holdout"]` of a sweep. -/
def sweepHoldout (py : PyFloats) (args : SweepArgs) : Option HoldoutSplit :=
  (planSweep py args).toOption.bind SweepPlan.split

/-- An entry of `windows`; `holdout` is that of its `train_search`. -/
structure WindowPayload where
  window : Window
  trainResults : List Candidate
  holdout : Option HoldoutSplit
  trainFullPeriodResult : Option RunResult
  bestTrainResult : Option Candidate
  testResult : Option RunResult

/-- The body of the loop of `run_walk_forward`. -/
def runWindow (py : PyFloats) (optuna : Runner → SweepPlan → Except String SweepReport)
    (runner : Runner) (args : WalkForwardArgs) (w : Window) : Except String WindowPayload := do
  let report ← runParameterSweep py optuna runner (args.sweep w)
  .ok
    { window := w
      trainResults := report.results
      holdout := sweepHoldout py (args.sweep w)
      trainFullPeriodResult := report.fullPeriodResult
      bestTrainResult := report.bestResult
      testResult := report.bestResult.map fun best =>
        runOne runner (PyDict.merge args.baseConfig best.config) w.testStart w.testEnd }

/-- `selection_contract`. -/
structure SelectionContract where
  version : ℤ := 1
  basis : String := "train"
  scope : String := "exploratory"
  policy : String
  trialIndexKind : String
  selectedTrialIndex : Option ℕ
deriving DecidableEq, Repr

/-- The report of a research job.  A report from before the contract has no `selection`. -/
inductive JobReport
  | sweep (selection : Option SelectionContract) (objective : String)
      (holdout : Option HoldoutSplit) (results : List Candidate)
  | walkForward (selection : Option SelectionContract) (objective : String)
      (windows : List WindowPayload)

/-- `run_walk_forward`. -/
def runWalkForward (py : PyFloats) (optuna : Runner → SweepPlan → Except String SweepReport)
    (runner : Runner) (args : WalkForwardArgs) : Except String JobReport := do
  let windows ← args.windows
  let payloads ← windows.mapM (runWindow py optuna runner args)
  let best := payloads.getLast?.bind WindowPayload.bestTrainResult
  .ok (.walkForward
    (some
      { policy := "latest_window_training"
        trialIndexKind := "walk_forward_window"
        selectedTrialIndex := best.map fun _ => payloads.length - 1 })
    args.objective payloads)

/-- What `run_research_job` is to do. -/
inductive ResearchArgs
  | sweep (args : SweepArgs)
  | walkForward (args : WalkForwardArgs)

/-- The arguments that both kinds share. -/
def ResearchArgs.search : ResearchArgs → SweepArgs
  | .sweep args => args
  | .walkForward args => args.toSweepArgs

/-- The sweep that a row of the report comes from. -/
def ResearchArgs.rowSweep : ResearchArgs → ℕ → Option SweepArgs
  | .sweep args, _ => some args
  | .walkForward args, index =>
    (args.windows.toOption.bind fun windows => windows[index]?).map args.sweep

/-- The call of the engine. -/
def runResearch (py : PyFloats) (optuna : Runner → SweepPlan → Except String SweepReport)
    (runner : Runner) : ResearchArgs → Except String JobReport
  | .sweep args => do
    let report ← runParameterSweep py optuna runner args
    .ok (.sweep
      (some
        { policy := "best_training"
          trialIndexKind := "sweep_result"
          selectedTrialIndex := report.selectedTrialIndex })
      args.objective (sweepHoldout py args) report.results)
  | .walkForward args => runWalkForward py optuna runner args

/-! ### Promotion -/

def JobReport.selection : JobReport → Option SelectionContract
  | .sweep selection _ _ _ | .walkForward selection _ _ => selection

def JobReport.objective : JobReport → String
  | .sweep _ objective _ _ | .walkForward _ objective _ => objective

def JobReport.policy : JobReport → String
  | .walkForward _ _ _ => "latest_window_training"
  | .sweep _ _ _ _ => "best_training"

def JobReport.indexKind : JobReport → String
  | .walkForward _ _ _ => "walk_forward_window"
  | .sweep _ _ _ _ => "sweep_result"

/-- `_selection_contract`. -/
def JobReport.selectionContract (report : JobReport) : Option SelectionContract :=
  report.selection.filter fun s =>
    s.version = 1 && s.basis = "train" && s.scope = "exploratory" && s.policy = report.policy &&
      s.trialIndexKind = report.indexKind

/-- What a row says: its result, and the split of its sweep. -/
structure Row where
  result : Option Candidate
  holdout : Option HoldoutSplit

def JobReport.rows : JobReport → List Row
  | .sweep _ _ holdout results => results.map fun c => ⟨some c, holdout⟩
  | .walkForward _ _ windows => windows.map fun p => ⟨p.bestTrainResult, p.holdout⟩

/-- `_finite_number`. -/
def finiteNumber (py : PyFloats) : PyValue → Bool
  | .bool _ => false
  | value => (py.ofValue value).isSome

/-- The checks on a result that is to be promoted. -/
def Candidate.isEvidence (py : PyFloats) (objective : String) (c : Candidate) : Bool :=
  let metrics := (c.trainMetrics.getD none).getD []
  c.selectionEligible = some true && c.error.isNone && !c.pruned && c.completedFullRun &&
    !metrics.isEmpty && c.objectiveValue.isSome &&
    ((metrics.lookup (metricKey objective)).or (metrics.lookup objective)).any (finiteNumber py)

structure ResearchJob where
  id : String
  status : String
  /-- `config["instruments"]`. -/
  instruments : List String
  report : JobReport

/-- What a promotion says of its origin. -/
structure Provenance where
  selection : SelectionContract
  researchJobId : String
  selectedTrialIndex : ℕ
  trainStart : ℤ
  trainEnd : ℤ
deriving DecidableEq, Repr

/-- `provenance`. -/
def ResearchJob.provenance (job : ResearchJob) (trialIndex : Option ℕ)
    (selection : SelectionContract) (index : ℕ) (holdout : Option HoldoutSplit)
    (result : Candidate) : Provenance where
  selection :=
    { selection with
      policy := if trialIndex = none then selection.policy else "explicit_trial"
      selectedTrialIndex := some index }
  researchJobId := job.id
  selectedTrialIndex := index
  trainStart := (holdout.map HoldoutSplit.trainStart).getD result.startDate
  trainEnd := (holdout.map HoldoutSplit.trainEnd).getD result.endDate

def rerun : String :=
  " Rerun research with valid training inputs to create a discovery candidate."

/-- Why a result is refused. -/
def Candidate.refusal (c : Candidate) : String :=
  let unusable := "Training result is failed, pruned, incomplete or has unusable metrics."
  match c.selectionReason with
  | some reason => if reason = "" then unusable else reason
  | none => unusable

/-- The index is the last one of a walk-forward. -/
def JobReport.isLatest : JobReport → ℕ → Bool
  | .walkForward _ _ windows, index => index + 1 = windows.length
  | .sweep _ _ _ _, _ => true

/-- `_resolve_training_selection`. -/
def resolveTrainingSelection (py : PyFloats) (job : ResearchJob) (trialIndex : Option ℕ) :
    Except String (Candidate × Provenance) :=
  if job.status ≠ "completed" then
    .error ("Research job is " ++ job.status ++ "; execution must complete." ++ rerun)
  else
    match job.report.selectionContract with
    | none => .error
        ("Legacy or unknown selection evidence cannot establish training eligibility." ++ rerun)
    | some selection =>
      match trialIndex.or selection.selectedTrialIndex with
      | none => .error ("No eligible automatic training result is available." ++ rerun)
      | some index =>
        match job.report.rows[index]? with
        | none => .error
            ("Trial index " ++ toString index ++ " has no canonical training result." ++ rerun)
        | some row =>
          if trialIndex = none ∧ job.report.isLatest index = false then
            .error ("Automatic discovery requires the latest chronological training window."
              ++ rerun)
          else
            match row.result with
            | none => .error
                ("Trial index " ++ toString index ++ " has no eligible training winner." ++ rerun)
            | some result =>
              if result.isEvidence py job.report.objective = false then
                .error (result.refusal ++ rerun)
              else
                .ok (result, job.provenance trialIndex selection index row.holdout result)

/-- A candidate that is handed to the graduation service. -/
structure Promotion where
  config : PyDict
  trainMetrics : PyDict
  provenance : Provenance

/-- The instruments of the job are stamped into the configuration. -/
def ResearchJob.stampInstruments (job : ResearchJob) (config : PyDict) : PyDict :=
  if job.instruments = [] then config
  else PyDict.set config "instruments" (.list (job.instruments.map .str))

/-- `promote_research_result`; the error is the detail of the 409. -/
def promoteResearchResult (py : PyFloats) (job : ResearchJob) (trialIndex : Option ℕ) :
    Except String Promotion := do
  let (result, provenance) ← resolveTrainingSelection py job trialIndex
  .ok
    { config := job.stampInstruments result.config
      trainMetrics := (result.trainMetrics.getD none).getD []
      provenance := provenance }

/-- The first days that a row must not have been selected on: its holdout, and its test range. -/
def JobReport.unseen : JobReport → ℕ → List ℤ
  | .sweep _ _ holdout _, _ => holdout.toList.map HoldoutSplit.holdoutStart
  | .walkForward _ _ windows, index => windows[index]?.toList.flatMap fun p =>
      p.window.testStart :: p.holdout.toList.map HoldoutSplit.holdoutStart

/-- Every window tests behind its training range. -/
theorem trainEnd_lt_of_windowsFrom (legs : Legs) (mode : Mode) (startDate endDate cursor : ℤ) :
    ∀ windows, windowsFrom legs mode startDate endDate cursor = .ok windows →
      ∀ w ∈ windows, w.trainEnd < w.testStart := by
  fun_induction windowsFrom legs mode startDate endDate cursor with
  | case1 | case3 =>
    intro windows h
    exact absurd h (by simp)
  | case2 =>
    intro windows h w hw
    obtain rfl := Except.ok.inj h
    exact absurd hw List.not_mem_nil
  | case4 cursor trainStart trainEnd testStart testEnd hdates hend hnext ih =>
    intro windows h
    obtain ⟨rest, hrest, rfl⟩ := except_map_eq_ok h
    rw [List.forall_mem_cons]
    refine ⟨?_, ih rest hrest⟩
    show trainEnd < trainEnd + 1
    omega

theorem trainEnd_lt_of_buildWalkForwardWindows {startDate endDate trainDays testDays : ℤ}
    {stepDays : Option ℤ} {mode : Mode} {windows : List Window}
    (h : buildWalkForwardWindows startDate endDate trainDays testDays stepDays mode = .ok windows) :
    ∀ w ∈ windows, w.trainEnd < w.testStart := by
  obtain ⟨-, legs, hloop⟩ := windowsFrom_of_build h
  exact trainEnd_lt_of_windowsFrom legs mode startDate endDate startDate windows hloop

theorem WalkForwardArgs.trainEnd_lt {args : WalkForwardArgs} {windows : List Window}
    (h : args.windows = .ok windows) : ∀ w ∈ windows, w.trainEnd < w.testStart := by
  unfold WalkForwardArgs.windows at h
  split at h
  · exact trainEnd_lt_of_buildWalkForwardWindows h
  · split at h
    · exact trainEnd_lt_of_buildWalkForwardWindows h
    · split at h
      · exact absurd h (by simp)
      · split at h <;> exact absurd h (by simp)

/-! ### What a sweep says of its results -/

section Sweep

variable {py : PyFloats} {scr : Screening} {runner : Runner} {args : SweepArgs} {plan : SweepPlan}
  {st st' : HalvingState} {report : SweepReport}
  {optuna : Runner → SweepPlan → Except String SweepReport}

/-- The candidate is one of this range. -/
def Candidate.OfRange (startDate endDate : ℤ) (c : Candidate) : Prop :=
  c.startDate = startDate ∧ c.endDate = endDate

theorem ofRange_recordStage {startDate endDate : ℤ} {stageIndex stageCount : ℕ} {fraction : ℚ}
    (r : RunResult) (c : Candidate) (h : c.OfRange startDate endDate) :
    (c.recordStage py scr stageIndex stageCount fraction r).OfRange startDate endDate := by
  unfold Candidate.recordStage
  dsimp only
  split <;> exact h

theorem ofRange_markPruned {startDate endDate : ℤ} {stageIndex : ℕ} {reason : String} (_ : Unit)
    (c : Candidate) (h : c.OfRange startDate endDate) :
    (c.markPruned stageIndex reason).OfRange startDate endDate :=
  h

theorem ofRange_halvingStage {startDate endDate first : ℤ} {reductionFactor : ℤ} {stageCount : ℕ}
    {stage : HalvingStage × ℕ}
    (h : halvingStage py scr runner first reductionFactor stageCount st stage = .ok st')
    (hst : ∀ c ∈ st.candidates, c.OfRange startDate endDate) :
    ∀ c ∈ st'.candidates, c.OfRange startDate endDate := by
  unfold halvingStage at h
  dsimp only at h
  split at h
  · obtain rfl := Except.ok.inj h
    exact hst
  · split at h
    · obtain rfl := Except.ok.inj h
      exact forall_mem_modifyAll ofRange_recordStage hst
    · split at h
      · exact absurd h (by simp)
      · obtain rfl := Except.ok.inj h
        exact forall_mem_modifyAll ofRange_markPruned
          (forall_mem_modifyAll ofRange_recordStage hst)

/-- Every candidate is one of the training range. -/
theorem ofRange_screenCandidates (h : screenCandidates py runner args plan = .ok st) :
    ∀ c ∈ st.candidates, c.OfRange plan.trainStart plan.trainEnd := by
  have hfresh : ∀ c ∈ plan.combinations.map (fun params =>
      Candidate.fresh args.baseConfig params plan.trainStart plan.trainEnd),
      c.OfRange plan.trainStart plan.trainEnd := by
    simp [Candidate.OfRange, Candidate.fresh]
  unfold screenCandidates at h
  dsimp only at h
  split at h
  · unfold runSuccessiveHalving at h
    obtain ⟨last, hloop, rfl⟩ := except_map_eq_ok h
    have hlast := foldlM_ok_invariant
      (I := fun st => ∀ c ∈ st.candidates, c.OfRange plan.trainStart plan.trainEnd)
      (fun _ _ _ hst hstage => ofRange_halvingStage hstage hst) hloop hfresh
    intro c hc
    obtain ⟨c', hc', rfl⟩ := List.mem_map.mp hc
    exact hlast c' hc'
  · obtain rfl := Except.ok.inj h
    exact hfresh

/-- The evidence of a result: its metrics are those of one run of its configuration over the
    training range, and the run passes the filters. -/
structure Eligible (py : PyFloats) (runner : Runner) (args : SweepArgs) (plan : SweepPlan)
    (c : Candidate) : Prop where
  config : ∃ params ∈ plan.combinations, c.config = candidateConfig args.baseConfig params
  range : c.OfRange plan.trainStart plan.trainEnd
  trainMetrics :
    c.trainMetrics = some (runOne runner c.config plan.trainStart plan.trainEnd).metrics
  score : ∃ v, trainScore py runner plan c.config = some v

theorem Eligible.diagnose {c : Candidate} (h : Eligible py runner args plan c)
    (split : Option HoldoutSplit) : Eligible py runner args plan (c.diagnose runner split) := by
  cases split with
  | none => exact h
  | some split => exact ⟨h.config, h.range, h.trainMetrics, h.score⟩

/-- A ranked candidate that may be selected has its evidence. -/
theorem eligible_of_rankTraining (hscreen : screenCandidates py runner args plan = .ok st)
    {c : Candidate} (hmem : c ∈ rankTraining py runner plan st) (hc : c.isSelectable = true) :
    Eligible py runner args plan c := by
  have hst := SearchSound.of_screen hscreen
  obtain ⟨e, he, rfl⟩ := List.mem_map.mp (rankBy_perm.mem_iff.mp hmem)
  have hcompleted : e.completedFullRun = true := completedFullRun_of_isSelectable hc
  rcases mem_evaluateSurvivors hst he with hnot | ⟨survivor, hsurvivor, hpruned, rfl⟩
  · rw [hnot] at hcompleted
    exact absurd hcompleted (by simp)
  · obtain ⟨hpasses, hsome⟩ :=
      (rejection_recordFullTrain hpruned).mp (isSelectable_mark.mp hc)
    obtain ⟨v, hv⟩ := Option.isSome_iff_exists.mp hsome
    have hconfig : survivor.config ∈ plan.combinations.map (candidateConfig args.baseConfig) := by
      rw [← hst.configs]
      exact List.mem_map_of_mem hsurvivor
    obtain ⟨params, hparams, hconfig⟩ := List.mem_map.mp hconfig
    have hrange := ofRange_screenCandidates hscreen survivor hsurvivor
    exact ⟨⟨params, hparams, hconfig.symm⟩, hrange, rfl, v,
      trainScore_eq_some.mpr ⟨hpasses, hv⟩⟩

/-- **Every result of a report that may be selected has its evidence.** -/
theorem eligible_result (hplan : planSweep py args = .ok plan)
    (hstaged : plan.strategyUsed ≠ "optuna")
    (h : runParameterSweep py optuna runner args = .ok report) {c : Candidate}
    (hmem : c ∈ report.results) (hc : c.isSelectable = true) :
    Eligible py runner args plan c := by
  obtain ⟨st, hscreen, rfl⟩ := runParameterSweep_eq_ok hplan hstaged h
  obtain ⟨k, hk⟩ := List.getElem?_of_mem hmem
  have hk : (List.modify _ _ _)[k]? = some c := hk
  rw [List.getElem?_modify] at hk
  obtain ⟨c', hc', rfl⟩ := Option.map_eq_some_iff.mp hk
  have hmem' : c' ∈ rankTraining py runner plan st := List.mem_of_getElem? hc'
  split
  · -- the winner, with its diagnostics
    rename_i hbest
    simp only [if_pos hbest] at hc
    refine (eligible_of_rankTraining hscreen hmem' ?_).diagnose plan.split
    rw [← hc]
    cases plan.split <;> rfl
  · rename_i hother
    simp only [if_neg hother] at hc
    exact eligible_of_rankTraining hscreen hmem' hc

/-- The training range is a first part of the range of the sweep, and the holdout lies behind
    it. -/
theorem range_of_planSweep (hdays : ∀ n, args.holdoutDays = some n → 1 ≤ n)
    (hpurge : 0 ≤ args.purgeDays) (h : planSweep py args = .ok plan) :
    plan.trainStart = args.startDate ∧ plan.trainEnd ≤ args.endDate ∧
      ∀ split, plan.split = some split →
        split.trainStart = plan.trainStart ∧ split.trainEnd = plan.trainEnd ∧
          plan.trainEnd < split.holdoutStart := by
  unfold planSweep at h
  obtain ⟨combinations, -, h⟩ := except_bind_eq_ok h
  obtain ⟨split, hsplit, h⟩ := except_bind_eq_ok h
  obtain rfl := Except.ok.inj h
  cases split with
  | none => exact ⟨rfl, le_refl _, fun split hnone => absurd hnone (by simp)⟩
  | some split =>
    unfold resolveTrainHoldoutSplit at hsplit
    dsimp only at hsplit
    split at hsplit
    · exact absurd hsplit (by simp)
    · rename_i days hresolved
      have hpos : 1 ≤ days := resolved_pos hdays hresolved
      split at hsplit
      · split at hsplit <;> exact absurd hsplit (by simp)
      · split at hsplit
        · split at hsplit <;> exact absurd hsplit (by simp)
        · obtain rfl := Option.some.inj (Except.ok.inj hsplit)
          refine ⟨rfl, ?_, fun split hsome => ?_⟩
          · show args.endDate - (days - 1) - (args.purgeDays + 1) ≤ args.endDate
            omega
          · obtain rfl := Option.some.inj hsome
            refine ⟨rfl, rfl, ?_⟩
            show args.endDate - (days - 1) - (args.purgeDays + 1) < args.endDate - (days - 1)
            omega

end Sweep

/-! ### The rows of a report -/

section Rows

variable {py : PyFloats} {runner runner' : Runner} {args : ResearchArgs} {sweep : SweepArgs}
  {plan : SweepPlan} {report report' : JobReport} {index : ℕ} {row : Row} {c : Candidate}
  {optuna : Runner → SweepPlan → Except String SweepReport}

/-- The row without the diagnostics of its result. -/
def Row.choice (row : Row) : Row :=
  { row with result := row.result.map Candidate.choice }

/-- What a run of a job reports. -/
inductive RunOf (py : PyFloats) (optuna : Runner → SweepPlan → Except String SweepReport)
    (runner : Runner) : ResearchArgs → JobReport → Prop
  | sweep {args : SweepArgs} {r : SweepReport}
      (h : runParameterSweep py optuna runner args = .ok r) :
      RunOf py optuna runner (.sweep args) (.sweep
        (some
          { policy := "best_training"
            trialIndexKind := "sweep_result"
            selectedTrialIndex := r.selectedTrialIndex })
        args.objective (sweepHoldout py args) r.results)
  | walkForward {args : WalkForwardArgs} {windows : List Window} {payloads : List WindowPayload}
      (hwindows : args.windows = .ok windows)
      (hpayloads : windows.mapM (runWindow py optuna runner args) = .ok payloads) :
      RunOf py optuna runner (.walkForward args) (.walkForward
        (some
          { policy := "latest_window_training"
            trialIndexKind := "walk_forward_window"
            selectedTrialIndex :=
              (payloads.getLast?.bind WindowPayload.bestTrainResult).map fun _ =>
                payloads.length - 1 })
        args.objective payloads)

theorem runOf_of_runResearch (h : runResearch py optuna runner args = .ok report) :
    RunOf py optuna runner args report := by
  cases args with
  | sweep args =>
    obtain ⟨r, hr, h⟩ := except_bind_eq_ok h
    obtain rfl := Except.ok.inj h
    exact .sweep hr
  | walkForward args =>
    obtain ⟨windows, hwindows, h⟩ := except_bind_eq_ok h
    obtain ⟨payloads, hpayloads, h⟩ := except_bind_eq_ok h
    obtain rfl := Except.ok.inj h
    exact .walkForward hwindows hpayloads

/-- What a window says, from the sweep of its training range. -/
theorem runWindow_eq_ok {args : WalkForwardArgs} {w : Window} {p : WindowPayload}
    (h : runWindow py optuna runner args w = .ok p) :
    ∃ r, runParameterSweep py optuna runner (args.sweep w) = .ok r ∧ p.window = w ∧
      p.holdout = sweepHoldout py (args.sweep w) ∧ p.bestTrainResult = r.bestResult := by
  obtain ⟨r, hr, h⟩ := except_bind_eq_ok h
  obtain rfl := Except.ok.inj h
  exact ⟨r, hr, rfl, rfl, rfl⟩

/-- The winner of a sweep is among its results, and the selected index says if there is one. -/
theorem best_of_runParameterSweep {r : SweepReport} (hplan : planSweep py sweep = .ok plan)
    (hstaged : plan.strategyUsed ≠ "optuna")
    (h : runParameterSweep py optuna runner sweep = .ok r) :
    (∀ best, r.bestResult = some best → best ∈ r.results) ∧
      r.selectedTrialIndex = r.bestResult.map fun _ => 0 := by
  obtain ⟨st, -, rfl⟩ := runParameterSweep_eq_ok hplan hstaged h
  refine ⟨fun best hbest => mem_results_of_best hbest, ?_⟩
  show Option.map _ _ = Option.map _ (Option.map _ _)
  rw [Option.map_map]
  rfl

/-- The sweep of a row has what the job was given. -/
theorem search_of_rowSweep (h : args.rowSweep index = some sweep) :
    sweep.baseConfig = args.search.baseConfig ∧
      sweep.parameterGrid = args.search.parameterGrid ∧
      sweep.searchStrategy = args.search.searchStrategy ∧
      sweep.holdoutDays = args.search.holdoutDays ∧ sweep.purgeDays = args.search.purgeDays := by
  cases args with
  | sweep args =>
    obtain rfl := Option.some.inj h
    exact ⟨rfl, rfl, rfl, rfl, rfl⟩
  | walkForward args =>
    obtain ⟨w, -, rfl⟩ := Option.map_eq_some_iff.mp h
    exact ⟨rfl, rfl, rfl, rfl, rfl⟩

/-- A sweep that has a report had a plan. -/
theorem exists_plan {r : SweepReport} (h : runParameterSweep py optuna runner sweep = .ok r) :
    ∃ plan, planSweep py sweep = .ok plan ∧ sweepHoldout py sweep = plan.split := by
  obtain ⟨plan, hplan, -⟩ := except_bind_eq_ok h
  refine ⟨plan, hplan, ?_⟩
  unfold sweepHoldout
  rw [hplan]
  rfl

/-- **A row with a result comes from a sweep of the job.** -/
theorem rowSweep_of_row (hstaged : args.search.searchStrategy ≠ "optuna")
    (hrun : RunOf py optuna runner args report) (hrow : report.rows[index]? = some row)
    (hc : row.result = some c) :
    ∃ sweep plan r, args.rowSweep index = some sweep ∧ planSweep py sweep = .ok plan ∧
      runParameterSweep py optuna runner sweep = .ok r ∧ c ∈ r.results ∧
        row.holdout = plan.split := by
  cases hrun with
  | @sweep args r hr =>
    obtain ⟨plan, hplan, hholdout⟩ := exists_plan hr
    have hrow : (r.results.map fun c => (⟨some c, sweepHoldout py args⟩ : Row))[index]?
        = some row := hrow
    rw [List.getElem?_map] at hrow
    obtain ⟨c', hc', rfl⟩ := Option.map_eq_some_iff.mp hrow
    obtain rfl := Option.some.inj hc
    exact ⟨args, plan, r, rfl, hplan, hr, List.mem_of_getElem? hc', hholdout⟩
  | @walkForward args windows payloads hwindows hpayloads =>
    have hrow : (payloads.map fun p => (⟨p.bestTrainResult, p.holdout⟩ : Row))[index]? = some row :=
      hrow
    rw [List.getElem?_map] at hrow
    obtain ⟨p, hp, rfl⟩ := Option.map_eq_some_iff.mp hrow
    obtain ⟨w, hw, hpw⟩ := (getElem?_mapM_ok hpayloads).mp hp
    obtain ⟨r, hr, -, hholdout, hbest⟩ := runWindow_eq_ok hpw
    obtain ⟨plan, hplan, hsplit⟩ := exists_plan hr
    have hrequested : (args.sweep w).searchStrategy ≠ "optuna" := hstaged
    have hused : plan.strategyUsed ≠ "optuna" := strategyUsed_of_planSweep hrequested hplan
    refine ⟨args.sweep w, plan, r, ?_, hplan, hr, ?_, hholdout.trans hsplit⟩
    · show (args.windows.toOption.bind _).map args.sweep = _
      rw [hwindows]
      show (windows[index]?).map args.sweep = _
      rw [hw]
      rfl
    · exact (best_of_runParameterSweep hplan hused hr).1 c (hbest.symm.trans hc)

/-- The choice of a sweep, run by run. -/
theorem choice_eq {r r' : SweepReport} (hplan : planSweep py sweep = .ok plan)
    (hstaged : plan.strategyUsed ≠ "optuna")
    (hagree : AgreeInside runner runner' plan.trainStart plan.trainEnd)
    (hr : runParameterSweep py optuna runner sweep = .ok r)
    (hr' : runParameterSweep py optuna runner' sweep = .ok r') : r.choice = r'.choice := by
  have hsame : (runParameterSweep py optuna runner sweep).map SweepReport.choice =
      (runParameterSweep py optuna runner' sweep).map SweepReport.choice :=
    runParameterSweep_choice
      (fun plan' hplan' => by rwa [← Except.ok.inj (hplan.symm.trans hplan')])
      fun plan' hplan' => by rwa [← Except.ok.inj (hplan.symm.trans hplan')]
  rw [hr, hr'] at hsame
  exact Except.ok.inj hsame

/-- The row that is selected automatically. -/
def JobReport.selected (report : JobReport) : Option ℕ :=
  report.selectionContract.bind SelectionContract.selectedTrialIndex

/-- The contract that a run writes is the one that is expected. -/
theorem selected_of_expected {selected : Option ℕ}
    (h : report.selection = some
      { policy := report.policy
        trialIndexKind := report.indexKind
        selectedTrialIndex := selected }) : report.selected = selected := by
  unfold JobReport.selected JobReport.selectionContract
  rw [h]
  simp [Option.filter]

/-- The contract of a run. -/
theorem selectionContract_of_run (h : RunOf py optuna runner args report) :
    report.selectionContract = some
      { policy := report.policy
        trialIndexKind := report.indexKind
        selectedTrialIndex := report.selected } := by
  have hfilter : ∀ {report : JobReport} {selected : Option ℕ},
      report.selection = some
        { policy := report.policy
          trialIndexKind := report.indexKind
          selectedTrialIndex := selected } →
      report.selectionContract = some
        { policy := report.policy
          trialIndexKind := report.indexKind
          selectedTrialIndex := report.selected } := by
    intro report selected hselection
    rw [selected_of_expected hselection]
    unfold JobReport.selectionContract
    rw [hselection]
    simp [Option.filter]
  cases h with
  | sweep _ => exact hfilter rfl
  | walkForward _ _ => exact hfilter rfl

/-- What the reports of one job have in common. -/
theorem kind_congr (h : RunOf py optuna runner args report)
    (h' : RunOf py optuna runner' args report') :
    report.policy = report'.policy ∧ report.indexKind = report'.indexKind ∧
      report.objective = report'.objective := by
  cases h with
  | sweep _ =>
    cases h' with
    | sweep _ => exact ⟨rfl, rfl, rfl⟩
  | walkForward _ _ =>
    cases h' with
    | walkForward _ _ => exact ⟨rfl, rfl, rfl⟩

theorem map_const_of_choice {best best' : Option Candidate} {n : ℕ}
    (h : best.map Candidate.choice = best'.map Candidate.choice) :
    best.map (fun _ => n) = best'.map (fun _ => n) := by
  cases best <;> cases best' <;> simp_all

/-- **Runs that agree on the training range of a row agree on the row**, and on whether it is the
    one to be selected. -/
theorem row_congr (hstaged : args.search.searchStrategy ≠ "optuna")
    (hrun : RunOf py optuna runner args report) (hrun' : RunOf py optuna runner' args report')
    (hsweep : args.rowSweep index = some sweep) (hplan : planSweep py sweep = .ok plan)
    (hagree : AgreeInside runner runner' plan.trainStart plan.trainEnd) :
    (report.rows[index]?).map Row.choice = (report'.rows[index]?).map Row.choice ∧
      (report.selected = some index → report'.selected = some index) ∧
      report.isLatest index = report'.isLatest index := by
  have hrequested : sweep.searchStrategy ≠ "optuna" := by
    rwa [(search_of_rowSweep hsweep).2.2.1]
  have hused : plan.strategyUsed ≠ "optuna" := strategyUsed_of_planSweep hrequested hplan
  cases hrun with
  | @sweep args r hr =>
    cases hrun' with
    | @sweep _ r' hr' =>
      obtain rfl : args = sweep := Option.some.inj hsweep
      obtain ⟨hresults, hbest⟩ := Prod.ext_iff.mp (choice_eq hplan hused hagree hr hr')
      have hresults : r.results.map Candidate.choice = r'.results.map Candidate.choice := hresults
      refine ⟨?_, ?_, rfl⟩
      · have hrow : ∀ results : List Candidate,
            ((results.map fun c => (⟨some c, sweepHoldout py args⟩ : Row))[index]?).map Row.choice
              = ((results.map Candidate.choice)[index]?).map
                  fun c => (⟨some c, sweepHoldout py args⟩ : Row) := by
          intro results
          simp [Row.choice, Function.comp_def]
        show ((r.results.map _)[index]?).map _ = ((r'.results.map _)[index]?).map _
        rw [hrow, hrow, hresults]
      · rw [selected_of_expected rfl, selected_of_expected rfl,
          (best_of_runParameterSweep hplan hused hr).2,
          (best_of_runParameterSweep hplan hused hr').2, map_const_of_choice hbest]
        exact id
  | @walkForward args windows payloads hwindows hpayloads =>
    cases hrun' with
    | @walkForward _ windows' payloads' hwindows' hpayloads' =>
      obtain rfl : windows = windows' := Except.ok.inj (hwindows.symm.trans hwindows')
      have hlength : payloads.length = payloads'.length :=
        (length_mapM_ok hpayloads).trans (length_mapM_ok hpayloads').symm
      -- the window of the row, and what the two runs say of it
      obtain ⟨w, hbound, rfl⟩ := Option.map_eq_some_iff.mp hsweep
      have hw : windows[index]? = some w := by
        rw [hwindows] at hbound
        exact hbound
      have hindex : index < windows.length := (List.getElem?_eq_some_iff.mp hw).1
      have hpayload : ∀ {runner : Runner} {payloads : List WindowPayload},
          windows.mapM (runWindow py optuna runner args) = .ok payloads →
            ∃ p, payloads[index]? = some p ∧ runWindow py optuna runner args w = .ok p := by
        intro runner payloads h
        have hlt : index < payloads.length := by rwa [length_mapM_ok h]
        refine ⟨payloads[index], List.getElem?_eq_getElem hlt, ?_⟩
        obtain ⟨w', hw', hp⟩ := (getElem?_mapM_ok h).mp (List.getElem?_eq_getElem hlt)
        rwa [Option.some.inj (hw.symm.trans hw')]
      obtain ⟨p, hp, hrunp⟩ := hpayload hpayloads
      obtain ⟨p', hp', hrunp'⟩ := hpayload hpayloads'
      obtain ⟨r, hr, -, hholdout, hbest⟩ := runWindow_eq_ok hrunp
      obtain ⟨r', hr', -, hholdout', hbest'⟩ := runWindow_eq_ok hrunp'
      have hsame : p.bestTrainResult.map Candidate.choice
          = p'.bestTrainResult.map Candidate.choice := by
        rw [hbest, hbest']
        exact (Prod.ext_iff.mp (choice_eq hplan hused hagree hr hr')).2
      refine ⟨?_, ?_, ?_⟩
      · simp [JobReport.rows, hp, hp', Row.choice, hsame, hholdout, hholdout']
      · rw [selected_of_expected rfl, selected_of_expected rfl]
        intro hselected
        obtain ⟨best, hlast, hlastIndex⟩ := Option.map_eq_some_iff.mp hselected
        rw [List.getLast?_eq_getElem?, hlastIndex, hp] at hlast
        rw [List.getLast?_eq_getElem?, ← hlength, hlastIndex, hp']
        have hlast : p.bestTrainResult = some best := hlast
        show p'.bestTrainResult.map _ = _
        rw [← map_const_of_choice hsame, hlast]
        rfl
      · show decide (_ = payloads.length) = decide (_ = payloads'.length)
        rw [hlength]

/-- The days that a row must not have seen lie behind its training range. -/
theorem unseen_of_row (hstaged : args.search.searchStrategy ≠ "optuna")
    (hdays : ∀ n, args.search.holdoutDays = some n → 1 ≤ n) (hpurge : 0 ≤ args.search.purgeDays)
    (hrun : RunOf py optuna runner args report) (hsweep : args.rowSweep index = some sweep)
    (hplan : planSweep py sweep = .ok plan) : ∀ d ∈ report.unseen index, plan.trainEnd < d := by
  obtain ⟨-, -, -, hdaysEq, hpurgeEq⟩ := search_of_rowSweep hsweep
  rw [← hdaysEq] at hdays
  rw [← hpurgeEq] at hpurge
  obtain ⟨-, hend, hsplit⟩ := range_of_planSweep hdays hpurge hplan
  have hheld : ∀ d ∈ (sweepHoldout py sweep).toList.map HoldoutSplit.holdoutStart,
      plan.trainEnd < d := by
    have hsame : sweepHoldout py sweep = plan.split := by
      unfold sweepHoldout
      rw [hplan]
      rfl
    simpa [hsame] using fun split h => (hsplit split h).2.2
  cases hrun with
  | @sweep args r hr =>
    obtain rfl := Option.some.inj hsweep
    exact hheld
  | @walkForward args windows payloads hwindows hpayloads =>
    obtain ⟨w, hbound, rfl⟩ := Option.map_eq_some_iff.mp hsweep
    have hw : windows[index]? = some w := by
      rw [hwindows] at hbound
      exact hbound
    intro d hd
    obtain ⟨p, hp, hd⟩ := List.mem_flatMap.mp hd
    obtain ⟨w', hw', hrunp⟩ := (getElem?_mapM_ok hpayloads).mp (Option.mem_toList.mp hp)
    obtain rfl : w = w' := Option.some.inj (hw.symm.trans hw')
    obtain ⟨r, -, hwindow, hholdout, -⟩ := runWindow_eq_ok hrunp
    rw [hwindow, hholdout, List.mem_cons] at hd
    rcases hd with rfl | hd
    · have htest := args.trainEnd_lt hwindows w (List.mem_of_getElem? hw)
      have hend : plan.trainEnd ≤ w.trainEnd := hend
      omega
    · exact hheld d hd

end Rows

/-! ### Promotion -/

section Promotion

variable {py : PyFloats} {job : ResearchJob} {trialIndex : Option ℕ} {p : Promotion}

theorem eq_of_choice {c c' : Candidate} (h : c.choice = c'.choice) :
    c.config = c'.config ∧ c.trainMetrics = c'.trainMetrics ∧ c.startDate = c'.startDate ∧
      c.endDate = c'.endDate := by
  show c.choice.config = c'.choice.config ∧ c.choice.trainMetrics = c'.choice.trainMetrics ∧
    c.choice.startDate = c'.choice.startDate ∧ c.choice.endDate = c'.choice.endDate
  simp [h]

theorem isEvidence_choice {objective : String} {c c' : Candidate} (h : c.choice = c'.choice) :
    c.isEvidence py objective = c'.isEvidence py objective := by
  show c.choice.isEvidence py objective = c'.choice.isEvidence py objective
  rw [h]

/-- **Which rows are resolved.** -/
theorem resolveTrainingSelection_eq_ok {c : Candidate} {provenance : Provenance} :
    resolveTrainingSelection py job trialIndex = .ok (c, provenance) ↔
      job.status = "completed" ∧
        ∃ selection index row, job.report.selectionContract = some selection ∧
          trialIndex.or selection.selectedTrialIndex = some index ∧
          job.report.rows[index]? = some row ∧
          (trialIndex = none → job.report.isLatest index = true) ∧ row.result = some c ∧
          c.isEvidence py job.report.objective = true ∧
          provenance = job.provenance trialIndex selection index row.holdout c := by
  unfold resolveTrainingSelection
  constructor
  · intro h
    split at h
    · exact absurd h (by simp)
    · rename_i hstatus
      split at h
      · exact absurd h (by simp)
      · rename_i selection hselection
        split at h
        · exact absurd h (by simp)
        · rename_i index hindex
          split at h
          · exact absurd h (by simp)
          · rename_i row hrow
            split at h
            · exact absurd h (by simp)
            · rename_i hlatest
              split at h
              · exact absurd h (by simp)
              · rename_i result hresult
                split at h
                · exact absurd h (by simp)
                · rename_i hevidence
                  obtain ⟨rfl, rfl⟩ := Prod.mk.inj (Except.ok.inj h)
                  refine ⟨not_not.mp hstatus, selection, index, row, hselection, hindex, hrow,
                    fun hauto => ?_, hresult, by simpa using hevidence, rfl⟩
                  simpa [hauto] using hlatest
  · rintro ⟨hstatus, selection, index, row, hselection, hindex, hrow, hlatest, hc, hevidence, rfl⟩
    have hlatest : ¬(trialIndex = none ∧ job.report.isLatest index = false) := by
      rintro ⟨hauto, hnot⟩
      rw [hlatest hauto] at hnot
      exact absurd hnot (by simp)
    simp only [hstatus, hselection, hindex, hrow, hc, hevidence, ne_eq, not_true_eq_false,
      if_false, if_neg hlatest, Bool.true_eq_false]

/-- **What is promoted** of the row that is resolved. -/
theorem promoteResearchResult_eq_ok :
    promoteResearchResult py job trialIndex = .ok p ↔
      ∃ c provenance, resolveTrainingSelection py job trialIndex = .ok (c, provenance) ∧
        p = ⟨job.stampInstruments c.config, (c.trainMetrics.getD none).getD [], provenance⟩ := by
  unfold promoteResearchResult
  cases resolveTrainingSelection py job trialIndex with
  | error e => simp [bind, Except.bind]
  | ok resolved =>
    obtain ⟨c, provenance⟩ := resolved
    simp [bind, Except.bind, eq_comm]

theorem isSelectable_of_isEvidence {objective : String} {c : Candidate}
    (h : c.isEvidence py objective = true) :
    c.isSelectable = true ∧ (c.trainMetrics.getD none).getD [] ≠ [] := by
  unfold Candidate.isEvidence at h
  simp only [Bool.and_eq_true] at h
  obtain ⟨⟨⟨⟨⟨⟨heligible, -⟩, -⟩, -⟩, hmetrics⟩, -⟩, -⟩ := h
  exact ⟨heligible, by simpa using hmetrics⟩

/-- The range of the provenance is the training range of the sweep. -/
theorem provenance_range {args : SweepArgs} {plan : SweepPlan} {runner : Runner} {c : Candidate}
    {selection : SelectionContract} {index : ℕ}
    (hdays : ∀ n, args.holdoutDays = some n → 1 ≤ n) (hpurge : 0 ≤ args.purgeDays)
    (hplan : planSweep py args = .ok plan) (hc : Eligible py runner args plan c) :
    (job.provenance trialIndex selection index plan.split c).trainStart = plan.trainStart ∧
      (job.provenance trialIndex selection index plan.split c).trainEnd = plan.trainEnd := by
  have hsplit := (range_of_planSweep hdays hpurge hplan).2.2
  unfold ResearchJob.provenance
  cases h : plan.split with
  | none => exact hc.range
  | some split => exact ⟨(hsplit split h).1, (hsplit split h).2.1⟩

end Promotion

/-- **A promoted candidate carries the evidence of its training range, and of nothing else.**  Its
    configuration is one of the grid, its metrics are those of the run of this configuration over
    the range of the provenance, and the run passes the filters.  The range ends before the holdout
    and before the test range; and any run of the job that agrees on the range promotes the same. -/
theorem promotion_evidence (py : PyFloats)
    (optuna : Runner → SweepPlan → Except String SweepReport) (runner : Runner)
    (args : ResearchArgs) (hstaged : args.search.searchStrategy ≠ "optuna")
    (hdays : ∀ n, args.search.holdoutDays = some n → 1 ≤ n) (hpurge : 0 ≤ args.search.purgeDays)
    {job : ResearchJob} (hrun : runResearch py optuna runner args = .ok job.report)
    {trialIndex : Option ℕ} {p : Promotion}
    (h : promoteResearchResult py job trialIndex = .ok p) :
    (∃ sweep plan params v,
      args.rowSweep p.provenance.selectedTrialIndex = some sweep ∧
      planSweep py sweep = .ok plan ∧
      p.provenance.trainStart = plan.trainStart ∧ p.provenance.trainEnd = plan.trainEnd ∧
      params ∈ gridProduct args.search.parameterGrid ∧
      p.config = job.stampInstruments (candidateConfig args.search.baseConfig params) ∧
      (runOne runner (candidateConfig args.search.baseConfig params) p.provenance.trainStart
        p.provenance.trainEnd).metrics = some p.trainMetrics ∧
      trainScore py runner plan (candidateConfig args.search.baseConfig params) = some v) ∧
    (∀ d ∈ job.report.unseen p.provenance.selectedTrialIndex, p.provenance.trainEnd < d) ∧
    ∀ runner' report',
      AgreeInside runner runner' p.provenance.trainStart p.provenance.trainEnd →
      runResearch py optuna runner' args = .ok report' →
        promoteResearchResult py { job with report := report' } trialIndex = .ok p := by
  obtain ⟨c, provenance, hresolve, rfl⟩ := promoteResearchResult_eq_ok.mp h
  obtain ⟨hstatus, selection, index, row, hselection, hindex, hrow, hlatest, hc, hevidence, rfl⟩ :=
    resolveTrainingSelection_eq_ok.mp hresolve
  have hrunOf := runOf_of_runResearch hrun
  obtain ⟨sweep, plan, r, hsweep, hplan, hr, hmem, hholdout⟩ :=
    rowSweep_of_row hstaged hrunOf hrow hc
  obtain ⟨hbase, hgrid, hrequested, hdaysEq, hpurgeEq⟩ := search_of_rowSweep hsweep
  have hused : plan.strategyUsed ≠ "optuna" :=
    strategyUsed_of_planSweep (by rwa [hrequested]) hplan
  obtain ⟨hselectable, hmetrics⟩ := isSelectable_of_isEvidence hevidence
  have heligible : Eligible py runner sweep plan c :=
    eligible_result hplan hused hr hmem hselectable
  obtain ⟨hstart, hend⟩ : (job.provenance trialIndex selection index row.holdout c).trainStart
      = plan.trainStart ∧ (job.provenance trialIndex selection index row.holdout c).trainEnd
      = plan.trainEnd := by
    rw [hholdout]
    exact provenance_range (by rwa [hdaysEq]) (by rwa [hpurgeEq]) hplan heligible
  refine ⟨?_, ?_, fun runner' report' hagree hrun' => ?_⟩
  · obtain ⟨params, hparams, hconfig⟩ := heligible.config
    obtain ⟨v, hv⟩ := heligible.score
    rw [hbase] at hconfig
    refine ⟨sweep, plan, params, v, hsweep, hplan, hstart, hend, ?_, ?_, ?_, ?_⟩
    · rwa [← hgrid, ← (eq_of_planSweep hplan).1]
    · exact congrArg job.stampInstruments hconfig
    · rw [hstart, hend, ← hconfig]
      rw [heligible.trainMetrics] at hmetrics ⊢
      -- a run without metrics is no evidence
      cases hm : (runOne runner c.config plan.trainStart plan.trainEnd).metrics with
      | none =>
        rw [hm] at hmetrics
        exact absurd rfl hmetrics
      | some m => rfl
    · rwa [← hconfig]
  · rw [hend]
    exact unseen_of_row hstaged hdays hpurge hrunOf hsweep hplan
  · have hrunOf' := runOf_of_runResearch hrun'
    rw [hstart, hend] at hagree
    obtain ⟨hrows, hselected, hsameLatest⟩ :=
      row_congr hstaged hrunOf hrunOf' hsweep hplan hagree
    obtain ⟨hpolicy, hkind, hobjective⟩ := kind_congr hrunOf hrunOf'
    have hcontract := selectionContract_of_run hrunOf
    have hcontract' := selectionContract_of_run hrunOf'
    obtain rfl := Option.some.inj (hselection.symm.trans hcontract)
    -- the row of the other run has the same choice
    rw [hrow] at hrows
    obtain ⟨row', hrow', hchoice⟩ := Option.map_eq_some_iff.mp hrows.symm
    have hresults : row'.result.map Candidate.choice = row.result.map Candidate.choice :=
      congrArg Row.result hchoice
    rw [hc] at hresults
    obtain ⟨c', hc', hsame⟩ := Option.map_eq_some_iff.mp hresults
    have hholdout' : row'.choice.holdout = row.choice.holdout := by rw [hchoice]
    change row'.holdout = row.holdout at hholdout'
    refine promoteResearchResult_eq_ok.mpr ⟨c', _, resolveTrainingSelection_eq_ok.mpr
      ⟨hstatus, _, index, row', hcontract', ?_, hrow', ?_, hc', ?_, rfl⟩, ?_⟩
    · show trialIndex.or report'.selected = some index
      cases trialIndex with
      | none => exact hselected hindex
      | some i => exact hindex
    · intro hauto
      rw [← hsameLatest]
      exact hlatest hauto
    · rw [isEvidence_choice hsame, ← hobjective]
      exact hevidence
    · obtain ⟨hconfig, hmetrics', hstart', hend'⟩ := eq_of_choice hsame
      simp only [ResearchJob.provenance, ResearchJob.stampInstruments, hconfig, hmetrics', hstart',
        hend', hholdout', hpolicy, hkind]

/-- Two candidates in windows of ten days for training and five for the test. -/
def crossoverWalk : WalkForwardArgs where
  baseConfig := []
  parameterGrid := [("fast", [.int 5, .int 10])]
  startDate := 0
  endDate := 29
  trainDays := 10
  testDays := 5

def completedJob (report : JobReport) : ResearchJob where
  id := "job"
  status := "completed"
  instruments := ["AAPL.NASDAQ"]
  report := report

/-- The Sharpe ratio is the `fast` of the configuration up to day 24, and `tail` beyond. -/
def walkRunner (tail : ℤ) : Runner := fun config _ endDate =>
  .ok
    [("num_trades", .int 30),
      ("sharpe_ratio", if endDate ≤ 24 then (config.lookup "fast").getD .none else .int tail)]

/-- The last window trains on the days 15 to 24; what comes behind it does not matter. -/
theorem promotion_evidence_lastWindow :
    ∃ report p, runResearch exactFloats (fun _ _ => .error "") (walkRunner 1)
        (.walkForward crossoverWalk) = .ok report ∧
      promoteResearchResult exactFloats (completedJob report) none = .ok p ∧
      p.provenance.trainStart = 15 ∧ p.provenance.trainEnd = 24 ∧
      ∀ report', runResearch exactFloats (fun _ _ => .error "") (walkRunner 7)
          (.walkForward crossoverWalk) = .ok report' →
        promoteResearchResult exactFloats (completedJob report') none = .ok p := by
  have hrange : ((runResearch exactFloats (fun _ _ => .error "") (walkRunner 1)
      (.walkForward crossoverWalk)).toOption.bind fun report =>
        (promoteResearchResult exactFloats (completedJob report) none).toOption.map fun p =>
          (p.provenance.trainStart, p.provenance.trainEnd)) = some (15, 24) := by
    decide +kernel
  obtain ⟨report, hreport, hrange⟩ := Option.bind_eq_some_iff.mp hrange
  obtain ⟨p, hp, hrange⟩ := Option.map_eq_some_iff.mp hrange
  obtain ⟨hstart, hend⟩ := Prod.mk.inj hrange
  have hrun := ok_of_toOption hreport
  have hpromoted := ok_of_toOption hp
  have hdays : ∀ n, (ResearchArgs.walkForward crossoverWalk).search.holdoutDays = some n → 1 ≤ n :=
    fun n hn => absurd hn (by simp [ResearchArgs.search, crossoverWalk])
  have hjob : runResearch exactFloats (fun _ _ => .error "") (walkRunner 1)
      (.walkForward crossoverWalk) = .ok (completedJob report).report := hrun
  obtain ⟨-, -, hsame⟩ := promotion_evidence exactFloats (fun _ _ => .error "") (walkRunner 1)
    (.walkForward crossoverWalk) (by decide) hdays (by decide) hjob hpromoted
  refine ⟨report, p, hrun, hpromoted, hstart, hend, fun report' hrun' => ?_⟩
  refine hsame (walkRunner 7) report' (fun config s e hs he => ?_) hrun'
  rw [hend] at he
  simp [walkRunner, he]

end Msai.Research
