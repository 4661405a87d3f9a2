import Msai.Lib.Binary64
import Msai.Lib.IndexedFold
import Msai.Lib.Ranking
import Mathlib.Algebra.Order.Floor.Ring
import Mathlib.Data.List.Dedup
import Mathlib.Data.Prod.Lex
import Mathlib.Data.Rat.Floor

namespace Msai.Research

open Msai.Lib

/-!
# The parameter sweep (`services/research_engine.py`)

`run_parameter_sweep` runs a backtest for every combination of a parameter grid, over a training
range that leaves a holdout at its end, and reports the ranked candidates.  Under successive
halving the candidates are screened over growing prefixes of the training range first.

* `PyValue`, `toJsonable` — configurations and metrics;
* `isStageEligible`, `sortKey` — the filters and the ranking;
* `resolveTrainHoldoutSplit`, `buildSuccessiveHalvingStages` — the date ranges;
* `runSuccessiveHalving`, `markTrainingSelection`, `runParameterSweep` — the sweep.

Dates are day numbers.  A finite float is the rational it stands for, also where it is a literal;
the operations that round are parameters (`PyFloats`), and so are the backtests (`Runner`).
-/

/-! ### Values -/

/-- A Python value of a configuration or of the metrics of a backtest. -/
inductive PyValue
  | none
  | bool (b : Bool)
  | int (n : ℤ)
  | float (x : ℚ)
  /-- `nan`, `inf` or `-inf`. -/
  | nonFinite
  | str (s : String)
  /-- A `Decimal`, a date or a path, as its text. -/
  | text (s : String)
  | list (items : List PyValue)
  | dict (fields : List (String × PyValue))

/-- A dictionary, in the order of its keys. -/
abbrev PyDict := List (String × PyValue)

mutual

/-- `to_jsonable`. -/
def PyValue.toJsonable : PyValue → PyValue
  | .none => .none
  | .bool b => .bool b
  | .int n => .int n
  | .float x => .float x
  | .nonFinite => .none
  | .str s => .str s
  | .text s => .str s
  | .list items => .list (itemsToJsonable items)
  | .dict fields => .dict (dictToJsonable fields)

def itemsToJsonable : List PyValue → List PyValue
  | [] => []
  | v :: vs => v.toJsonable :: itemsToJsonable vs

def dictToJsonable : List (String × PyValue) → List (String × PyValue)
  | [] => []
  | (k, v) :: fields => (k, v.toJsonable) :: dictToJsonable fields

end

/-- `d[key] = value`. -/
def PyDict.set (d : PyDict) (key : String) (value : PyValue) : PyDict :=
  if key ∈ d.map Prod.fst then d.map fun p => if p.1 = key then (key, value) else p
  else d ++ [(key, value)]

/-- `{**d, **d'}`. -/
def PyDict.merge (d d' : PyDict) : PyDict := d'.foldl (fun d p => PyDict.set d p.1 p.2) d

/-- What the engine does with floats and texts beyond comparing them. -/
structure PyFloats where
  /-- `float(n)`; `none` if it overflows. -/
  ofInt : ℤ → Option ℚ
  /-- `float(s)`, if that is a finite number. -/
  ofStr : String → Option ℚ
  /-- `n * x`. -/
  mul : ℤ → ℚ → ℚ
  /-- `n / m`. -/
  div : ℤ → ℤ → ℚ
  /-- `str(value)`. -/
  str : PyValue → String

/-- `float(raw)`, if that is a finite number. -/
def PyFloats.ofValue (py : PyFloats) : PyValue → Option ℚ
  | .bool b => some (if b then 1 else 0)
  | .int n => py.ofInt n
  | .float x => some x
  | .str s | .text s => py.ofStr s
  | .none | .nonFinite | .list _ | .dict _ => none

/-! ### The objective and the filters -/

/-- `_METRIC_KEY_MAP.get(objective, objective)`. -/
def metricKey : String → String
  | "sharpe" => "sharpe_ratio"
  | "sortino" => "sortino_ratio"
  | objective => objective

/-- `extract_usable_objective_value`. -/
def extractUsableObjectiveValue (py : PyFloats) (metrics : Option PyDict) (objective : String) :
    Option ℚ :=
  (metrics.bind fun m => (m.lookup (metricKey objective)).or (m.lookup objective)).bind fun raw =>
    (py.ofValue raw).map fun value => if objective = "max_drawdown" then -|value| else value

/-- The objective of a sweep, and the filters on its results. -/
structure Screening where
  objective : String
  minTrades : Option ℤ
  requirePositiveReturn : Bool
deriving DecidableEq, Repr

/-- `scaled_min_trades`. -/
def scaledMinTrades (py : PyFloats) (minTrades : Option ℤ) (stageFraction : ℚ) : Option ℤ :=
  minTrades.map fun n => max 1 ⌈py.mul n stageFraction⌉

def tooFewTrades (py : PyFloats) (metrics : Option PyDict) (threshold : Option ℤ) : Bool :=
  match threshold, extractUsableObjectiveValue py metrics "num_trades" with
  | none, _ => false
  | some _, none => true
  | some t, some n => n < t

def nonPositiveReturn (py : PyFloats) (metrics : Option PyDict) : Bool :=
  match extractUsableObjectiveValue py metrics "total_return" with
  | none => true
  | some x => x ≤ 0

/-- `is_stage_eligible`. -/
def isStageEligible (py : PyFloats) (scr : Screening) (stageFraction : ℚ) (error : Option String)
    (metrics : Option PyDict) : Bool :=
  error.isNone && !tooFewTrades py metrics (scaledMinTrades py scr.minTrades stageFraction) &&
    !(scr.requirePositiveReturn && nonPositiveReturn py metrics)

/-- `build_prune_reason`. -/
def buildPruneReason (py : PyFloats) (scr : Screening) (stageFraction : ℚ) (error : Option String)
    (metrics : Option PyDict) : String :=
  match error with
  | some e => e
  | none =>
    let threshold := scaledMinTrades py scr.minTrades stageFraction
    if tooFewTrades py metrics threshold then
      "Insufficient trades for stage budget (" ++
        py.str (((metrics.getD []).lookup "num_trades").getD (.int 0)) ++ " < " ++
        toString (threshold.getD 1) ++ ")"
    else if scr.requirePositiveReturn && nonPositiveReturn py metrics then
      "Non-positive return during stage screening"
    else "Pruned during stage screening"

/-! ### The ranking -/

/-- The key of `rank_results`: the class, then the objective, the highest first. -/
def sortKey (value : Option ℚ) (error : Option String) (pruned completedFullRun : Bool)
    (selectionEligible : Option Bool) : ℕ ×ₗ ℚ :=
  match error, value with
  | none, some v =>
    -- usable, but out of the running
    if pruned || !completedFullRun || selectionEligible = some false then toLex (2, -v)
    else toLex (0, -v)
  | _, _ => toLex (3, 0)

/-! ### The grid -/

/-- The combinations of a grid; the last key changes first. -/
def gridProduct : List (String × List PyValue) → List PyDict
  | [] => [[]]
  | (key, values) :: grid => values.flatMap fun v => (gridProduct grid).map ((key, v) :: ·)

/-- `expand_parameter_grid`. -/
def expandParameterGrid (grid : List (String × List PyValue)) : Except String (List PyDict) :=
  match grid.find? (·.2.isEmpty) with
  | some (key, _) => .error ("Parameter grid entry '" ++ key ++ "' cannot be empty")
  | none => .ok (gridProduct grid)

/-! ### The date ranges -/

def totalDays (startDate endDate : ℤ) : ℤ := max 1 (endDate - startDate + 1)

/-- `resolve_search_strategy`. -/
def resolveSearchStrategy (requested : String) (candidateCount : ℕ) (startDate endDate : ℤ) :
    String :=
  if requested ≠ "auto" then requested
  else if 8 ≤ candidateCount ∧ 60 ≤ totalDays startDate endDate then "successive_halving"
  else "grid"

structure HoldoutSplit where
  explicit : Bool
  trainStart : ℤ
  trainEnd : ℤ
  holdoutStart : ℤ
  holdoutEnd : ℤ
  holdoutDays : ℤ
  purgeDays : ℤ
deriving DecidableEq, Repr

/-- `resolve_train_holdout_split`. -/
def resolveTrainHoldoutSplit (py : PyFloats) (startDate endDate : ℤ) (holdoutFraction : Option ℚ)
    (holdoutDays : Option ℤ) (purgeDays : ℤ) : Except String (Option HoldoutSplit) :=
  let total := totalDays startDate endDate
  let explicit := holdoutDays.isSome || holdoutFraction.isSome
  let fraction :=
    if !explicit && 252 ≤ total then some (Binary64.round (1 / 5)) else holdoutFraction
  -- an explicit number of days wins over a fraction
  match holdoutDays.or (fraction.map fun f => max 21 (min 126 ⌈py.mul total f⌉)) with
  | none => .ok none
  | some days =>
    if total ≤ days + purgeDays then
      if explicit then
        .error ("Requested holdout plus purge leaves no training range; reduce holdout/purge " ++
          "or extend the date range")
      else .ok none
    else
      let holdoutStart := endDate - (days - 1)
      let trainEnd := holdoutStart - (purgeDays + 1)
      if trainEnd < startDate then
        if explicit then .error "Requested holdout plus purge leaves no training range"
        else .ok none
      else
        .ok (some
          { explicit := explicit
            trainStart := startDate
            trainEnd := trainEnd
            holdoutStart := holdoutStart
            holdoutEnd := endDate
            holdoutDays := days
            purgeDays := purgeDays })

/-- `normalize_stage_fractions`. -/
def normalizeStageFractions (stageFractions : Option (List ℚ)) : List ℚ :=
  let fractions :=
    match stageFractions with
    | none | some [] => [Binary64.round (35 / 100), Binary64.round (7 / 10), 1]
    | some fractions => fractions
  let cleaned := ((fractions.map fun v =>
    min 1 (max (Binary64.round (5 / 100)) v)).dedup).insertionSort (· ≤ ·)
  match cleaned.getLast? with
  | some last => if last < 1 then cleaned ++ [1] else cleaned
  | none => [1]

/-- A screening stage: a prefix of the training range. -/
structure HalvingStage where
  fraction : ℚ
  endDate : ℤ
deriving DecidableEq, Repr

/-- The stage of a fraction, unless there is one with its end date already. -/
def addHalvingStage (py : PyFloats) (startDate endDate : ℤ) (stages : List HalvingStage)
    (fraction : ℚ) : List HalvingStage :=
  let stageDays := max 1 ⌈py.mul (totalDays startDate endDate) fraction⌉
  let stageEnd := min endDate (startDate + (stageDays - 1))
  -- `seen_end_dates`
  if stageEnd ∈ stages.map HalvingStage.endDate then stages else stages ++ [⟨fraction, stageEnd⟩]

/-- `build_successive_halving_stages`. -/
def buildSuccessiveHalvingStages (py : PyFloats) (startDate endDate : ℤ)
    (stageFractions : Option (List ℚ)) : List HalvingStage :=
  let stages :=
    (normalizeStageFractions stageFractions).foldl (addHalvingStage py startDate endDate) []
  if stages.getLast?.map HalvingStage.endDate = some endDate then stages
  else stages ++ [⟨1, endDate⟩]

/-! ### The backtests -/

/-- `BacktestRunner.run` on a configuration and a date range: the metrics, or the exception. -/
abbrev Runner := PyDict → ℤ → ℤ → Except String PyDict

/-- What `_run_one` returns. -/
structure RunResult where
  error : Option String
  metrics : Option PyDict

/-- `_run_one`. -/
def runOne (runner : Runner) (config : PyDict) (startDate endDate : ℤ) : RunResult :=
  match runner config startDate endDate with
  | .error e => { error := some e, metrics := none }
  | .ok metrics => { error := none, metrics := some (dictToJsonable metrics) }

/-- The result of one screening stage. -/
structure StageResult where
  stageIndex : ℕ
  stageCount : ℕ
  fraction : ℚ
  error : Option String
  metrics : Option PyDict

/-- A candidate of the sweep.  `trainMetrics`, the selection and the holdout are keys that are set
    late. -/
structure Candidate where
  config : PyDict
  startDate : ℤ
  endDate : ℤ
  error : Option String := none
  metrics : Option PyDict := none
  pruned : Bool := false
  pruneReason : Option String := none
  prunedAfterStage : Option ℕ := none
  completedFullRun : Bool := false
  stageResults : List StageResult := []
  trainMetrics : Option (Option PyDict) := none
  objectiveValue : Option ℚ := none
  selectionEligible : Option Bool := none
  selectionReason : Option String := none
  holdoutMetrics : Option PyDict := none
  holdoutError : Option String := none

/-- `to_jsonable({**base_config, **params})`. -/
def candidateConfig (baseConfig params : PyDict) : PyDict :=
  dictToJsonable (PyDict.merge baseConfig params)

def Candidate.fresh (baseConfig params : PyDict) (startDate endDate : ℤ) : Candidate where
  config := candidateConfig baseConfig params
  startDate := startDate
  endDate := endDate

/-- `_run_candidates`. -/
def runCandidates (runner : Runner) (candidates : List Candidate) (indexes : List ℕ)
    (startDate endDate : ℤ) : List (ℕ × RunResult) :=
  indexes.filterMap fun k =>
    (candidates[k]?).map fun c => (k, runOne runner c.config startDate endDate)

/-- `mark_candidate_pruned`. -/
def Candidate.markPruned (c : Candidate) (stageIndex : ℕ) (reason : String) : Candidate :=
  { c with
    pruned := true
    pruneReason := some reason
    prunedAfterStage := some stageIndex
    completedFullRun := false }

/-! ### Successive halving -/

/-- The candidates, the summaries of the stages (evaluated, eligible, surviving), and the indexes of
    the candidates that are still in the search. -/
structure HalvingState where
  candidates : List Candidate
  summaries : List (ℕ × ℕ × ℕ)
  survivors : List ℕ

section Halving

variable (py : PyFloats) (scr : Screening)

/-- The objective of a stage result can be used, and the result passes the filters. -/
def stagePasses (fraction : ℚ) (r : RunResult) : Bool :=
  (extractUsableObjectiveValue py r.metrics scr.objective).isSome &&
    isStageEligible py scr fraction r.error r.metrics

/-- What a stage result changes in its candidate. -/
def Candidate.recordStage (stageIndex stageCount : ℕ) (fraction : ℚ) (r : RunResult)
    (c : Candidate) : Candidate :=
  let c :=
    { c with
      stageResults := c.stageResults ++ [⟨stageIndex, stageCount, fraction, r.error, r.metrics⟩]
      metrics := r.metrics
      error := r.error }
  if (extractUsableObjectiveValue py r.metrics scr.objective).isSome && r.error.isNone &&
      !isStageEligible py scr fraction r.error r.metrics then
    c.markPruned stageIndex (buildPruneReason py scr fraction r.error r.metrics)
  else c

/-- The indexes of the results that pass a stage, ranked. -/
def rankStage (fraction : ℚ) (results : List (ℕ × RunResult)) : List ℕ :=
  (rankBy (fun p : ℕ × RunResult =>
      sortKey (extractUsableObjectiveValue py p.2.metrics scr.objective) p.2.error false true none)
    (results.filter fun p => stagePasses py scr fraction p.2)).map Prod.fst

/-- How many of the ranked candidates a stage keeps. -/
def keepCount (reductionFactor : ℤ) (ranked : ℕ) : ℕ :=
  min ranked (max 1 ⌈py.div ranked reductionFactor⌉).toNat

/-- One stage of `_run_successive_halving`. -/
def halvingStage (runner : Runner) (startDate : ℤ) (reductionFactor : ℤ) (stageCount : ℕ)
    (st : HalvingState) (stage : HalvingStage × ℕ) : Except String HalvingState :=
  if st.survivors.isEmpty then .ok st
  else
    let results := runCandidates runner st.candidates st.survivors startDate stage.1.endDate
    let recorded := modifyAll (Candidate.recordStage py scr stage.2 stageCount stage.1.fraction)
      results st.candidates
    let ranked := rankStage py scr stage.1.fraction results
    -- the last stage keeps all that pass
    if stage.2 = stageCount then
      .ok ⟨recorded, st.summaries ++ [(results.length, ranked.length, ranked.length)], ranked⟩
    -- `ZeroDivisionError`
    else if reductionFactor = 0 then .error "division by zero"
    else
      let keep := keepCount py reductionFactor ranked.length
      let reason := "Pruned by successive halving after stage " ++ toString stage.2
      let pruned := modifyAll (fun _ c => c.markPruned stage.2 reason)
        ((ranked.drop keep).map fun k => (k, ())) recorded
      .ok ⟨pruned, st.summaries ++ [(results.length, ranked.length, (ranked.take keep).length)],
        ranked.take keep⟩

/-- `to_jsonable` of a candidate. -/
def Candidate.toJsonable (c : Candidate) : Candidate :=
  { c with
    config := dictToJsonable c.config
    metrics := c.metrics.map dictToJsonable
    stageResults := c.stageResults.map fun r => { r with metrics := r.metrics.map dictToJsonable } }

/-- `_run_successive_halving`. -/
def runSuccessiveHalving (runner : Runner) (candidates : List Candidate) (startDate endDate : ℤ)
    (stageFractions : Option (List ℚ)) (reductionFactor : ℤ) : Except String HalvingState :=
  let stages := buildSuccessiveHalvingStages py startDate endDate stageFractions
  let start := ⟨candidates, [], List.range candidates.length⟩
  ((stages.zipIdx 1).foldlM (halvingStage py scr runner startDate reductionFactor stages.length)
    start).map fun st => { st with candidates := st.candidates.map Candidate.toJsonable }

/-! ### The selection -/

/-- What the run over the full training range changes in its candidate. -/
def Candidate.recordFullTrain (r : RunResult) (c : Candidate) : Candidate :=
  { c with
    trainMetrics := some r.metrics
    metrics := r.metrics
    error := r.error
    completedFullRun := r.error.isNone }

/-- Why a candidate may not be selected. -/
def Candidate.rejection (c : Candidate) : Option String :=
  let value := extractUsableObjectiveValue py (c.trainMetrics.getD c.metrics) scr.objective
  match c.error with
  | some e => some e
  | none =>
    if c.pruned then some (c.pruneReason.getD "Pruned during training search")
    else if value.isNone then
      some ("Training objective " ++ scr.objective ++ " is missing or nonfinite")
    else if !c.completedFullRun then some "Full training evaluation did not complete"
    else if !isStageEligible py scr 1 c.error c.metrics then
      some (buildPruneReason py scr 1 c.error c.metrics)
    else none

/-- The filters reject a candidate that nothing else does. -/
def Candidate.filteredOut (c : Candidate) : Bool :=
  c.error.isNone && !c.pruned &&
    (extractUsableObjectiveValue py (c.trainMetrics.getD c.metrics) scr.objective).isSome &&
    c.completedFullRun && !isStageEligible py scr 1 c.error c.metrics

/-- `mark_training_selection`. -/
def markTrainingSelection (c : Candidate) : Candidate :=
  let value := extractUsableObjectiveValue py (c.trainMetrics.getD c.metrics) scr.objective
  let reason := c.rejection py scr
  { c with
    trainMetrics := some (c.trainMetrics.getD c.metrics)
    objectiveValue := if c.completedFullRun && c.error.isNone then value else none
    pruned := c.pruned || c.filteredOut py scr
    pruneReason := if c.filteredOut py scr then reason else c.pruneReason
    selectionEligible := some reason.isNone
    selectionReason := reason }

def Candidate.rankKey (c : Candidate) : ℕ ×ₗ ℚ :=
  sortKey (extractUsableObjectiveValue py (c.trainMetrics.getD c.metrics) scr.objective) c.error
    c.pruned c.completedFullRun c.selectionEligible

/-- `rank_results`. -/
def rankResults (results : List Candidate) : List Candidate :=
  rankBy (Candidate.rankKey py scr) results

end Halving

/-- `_select_best_result` takes the first of these. -/
def Candidate.isSelectable (c : Candidate) : Bool := c.selectionEligible = some true

/-! ### The sweep -/

/-- The arguments of `run_parameter_sweep`, without those that every backtest is given alike. -/
structure SweepArgs where
  baseConfig : PyDict
  parameterGrid : List (String × List PyValue)
  startDate : ℤ
  endDate : ℤ
  objective : String := "sharpe"
  searchStrategy : String := "auto"
  stageFractions : Option (List ℚ) := none
  reductionFactor : ℤ := 2
  minTrades : Option ℤ := none
  requirePositiveReturn : Bool := false
  holdoutFraction : Option ℚ := none
  holdoutDays : Option ℤ := none
  purgeDays : ℤ := 5

/-- What is decided before the first backtest. -/
structure SweepPlan where
  combinations : List PyDict
  split : Option HoldoutSplit
  trainStart : ℤ
  trainEnd : ℤ
  strategyUsed : String
  screening : Screening

def planSweep (py : PyFloats) (args : SweepArgs) : Except String SweepPlan := do
  let combinations ← expandParameterGrid args.parameterGrid
  let split ← resolveTrainHoldoutSplit py args.startDate args.endDate args.holdoutFraction
    args.holdoutDays args.purgeDays
  let trainEnd := (split.map HoldoutSplit.trainEnd).getD args.endDate
  let strategyUsed := resolveSearchStrategy args.searchStrategy combinations.length args.startDate
    trainEnd
  let defaultMinTrades : Option ℤ :=
    if strategyUsed = "successive_halving" ∨ strategyUsed = "optuna" then some 10 else none
  .ok
    { combinations := combinations
      split := split
      trainStart := args.startDate
      trainEnd := trainEnd
      strategyUsed := strategyUsed
      screening :=
        { objective := args.objective
          minTrades := args.minTrades.or defaultMinTrades
          requirePositiveReturn := args.requirePositiveReturn } }

/-- The report, without what it repeats from the arguments. -/
structure SweepReport where
  results : List Candidate
  stageSummaries : List (ℕ × ℕ × ℕ)
  bestResult : Option Candidate
  selectedTrialIndex : Option ℕ
  fullPeriodResult : Option RunResult

/-- The candidates and the indexes of those that get a run over the full training range. -/
def screenCandidates (py : PyFloats) (runner : Runner) (args : SweepArgs) (plan : SweepPlan) :
    Except String HalvingState :=
  let candidates := plan.combinations.map fun params =>
    Candidate.fresh args.baseConfig params plan.trainStart plan.trainEnd
  if plan.strategyUsed = "successive_halving" then
    runSuccessiveHalving py plan.screening runner candidates plan.trainStart plan.trainEnd
      args.stageFractions args.reductionFactor
  else .ok ⟨candidates, [], List.range candidates.length⟩

/-- The runs of the survivors over the full training range. -/
def evaluateSurvivors (runner : Runner) (plan : SweepPlan) (st : HalvingState) : List Candidate :=
  modifyAll Candidate.recordFullTrain
    (runCandidates runner st.candidates st.survivors plan.trainStart plan.trainEnd) st.candidates

/-- The training ranking. -/
def rankTraining (py : PyFloats) (runner : Runner) (plan : SweepPlan) (st : HalvingState) :
    List Candidate :=
  rankResults py plan.screening
    ((evaluateSurvivors runner plan st).map (markTrainingSelection py plan.screening))

/-- What `_evaluate_selected_diagnostics` adds to the candidate that is selected. -/
def Candidate.diagnose (runner : Runner) (split : Option HoldoutSplit) (c : Candidate) :
    Candidate :=
  match split with
  | none => c
  | some split =>
    let holdout := runOne runner c.config split.holdoutStart split.holdoutEnd
    { c with holdoutMetrics := holdout.metrics, holdoutError := holdout.error }

/-- The report on a ranking.  The selected candidate is one object in two places. -/
def sweepReport (runner : Runner) (args : SweepArgs) (plan : SweepPlan) (st : HalvingState)
    (ranked : List Candidate) : SweepReport :=
  let best := ranked.find? Candidate.isSelectable
  { results :=
      ranked.modify (ranked.findIdx Candidate.isSelectable) (Candidate.diagnose runner plan.split)
    stageSummaries := st.summaries
    bestResult := best.map (Candidate.diagnose runner plan.split)
    selectedTrialIndex := best.map fun _ => 0
    fullPeriodResult :=
      plan.split.bind fun _ => best.map fun c =>
        runOne runner c.config args.startDate args.endDate }

/-- `run_parameter_sweep`; `optuna` is `_run_optuna_parameter_sweep`, whose trials a third-party
    sampler picks. -/
def runParameterSweep (py : PyFloats) (optuna : Runner → SweepPlan → Except String SweepReport)
    (runner : Runner) (args : SweepArgs) : Except String SweepReport := do
  let plan ← planSweep py args
  if plan.strategyUsed = "optuna" then optuna runner plan
  else
    let st ← screenCandidates py runner args plan
    .ok (sweepReport runner args plan st (rankTraining py runner plan st))

end Msai.Research
