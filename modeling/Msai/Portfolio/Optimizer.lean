import Msai.Lib.Calendar
import Msai.Lib.IndexedFold
import Msai.Lib.PyFloat
import Msai.Lib.Ranking

namespace Msai.Portfolio.Optimizer

open Msai.Lib Msai.Lib.PyFloat

/-!
# The Full-mode optimizer (`services/portfolio_backtest/optimizer.py`)

`run_portfolio_walk_forward` splits `n_trials` over the walk-forward windows.  A trial asks the
study for parameters, scores them on the training range of its window, checks the safety caps,
scores them on the test range, and tells the study.

* `buildWalkForwardWindows`, `enforceCaps`, `objectiveScore`, `buildSearchSpace` — the parts;
* `runTrial` — the body of the loop with its `try`, its handlers and its `finally`;
* `trialLoop`, `windowLoop`, `runPortfolioWalkForward` — the loops and the result;
* `Accounts` — the invariant: what the accumulators say about each other;
* `optimizer_accounting` — what a whole run leaves.

The sampler, the trial function, `cancel_check` and `study.tell` are arbitrary functions of the
number of the trial or of the call.  Dates are day numbers, `progress_callback` is left out, and an
exception is one that `except Exception` catches.
-/

variable {K : Type} [Field K] [LinearOrder K]

/-! ### Windows -/

/-- One pair of ranges. -/
structure Window where
  trainStart : ℤ
  trainEnd : ℤ
  testStart : ℤ
  testEnd : ℤ
deriving DecidableEq, Repr

/-- The lengths that `build_walk_forward_windows` has accepted. -/
structure Legs where
  trainDays : ℤ
  testDays : ℤ
  step : ℤ
  train_pos : 1 ≤ trainDays
  test_pos : 1 ≤ testDays
  step_pos : 1 ≤ step

inductive Mode
  | rolling
  | expanding
deriving DecidableEq, Repr

/-- `date.min` and `date.max`. -/
def dateMin : ℤ := Calendar.dayNumber 1 1 1

def dateMax : ℤ := Calendar.dayNumber 9999 12 31

theorem dateMin_eq : dateMin = -719162 := by decide +kernel

theorem dateMax_eq : dateMax = 2932896 := by decide +kernel

/-- The `OverflowError` of `d + timedelta(days=n)`, if there is one.  `n` is not negative here. -/
def sumOverflow (d n : ℤ) : Option String :=
  if 2 ^ 31 ≤ n then some "Python int too large to convert to C int"
  else if 999999999 < n then some ("days=" ++ toString n ++ "; must have magnitude <= 999999999")
  else if dateMax < d + n then some "date value out of range"
  else none

/-- The loop of `build_walk_forward_windows`. -/
def windowsFrom (legs : Legs) (mode : Mode) (startDate endDate cursor : ℤ) :
    Except String (List Window) :=
  let trainStart := if mode = .expanding then startDate else cursor
  let trainEnd := cursor + (legs.trainDays - 1)
  let testStart := trainEnd + 1
  let testEnd := testStart + (legs.testDays - 1)
  match (sumOverflow cursor (legs.trainDays - 1)).or
      ((sumOverflow trainEnd 1).or (sumOverflow testStart (legs.testDays - 1))) with
  | some text => .error text
  | none =>
    if testEnd > endDate then .ok []
    else
      match sumOverflow cursor legs.step with
      | some text => .error text
      | none =>
        (windowsFrom legs mode startDate endDate (cursor + legs.step)).map fun windows =>
          { trainStart := trainStart, trainEnd := trainEnd, testStart := testStart,
            testEnd := testEnd } :: windows
termination_by (endDate - cursor).toNat
decreasing_by
  have htrain := legs.train_pos
  have htest := legs.test_pos
  have hstep := legs.step_pos
  omega

/-- `step_days or test_days`. -/
def stepOrTestDays (stepDays : Option ℤ) (testDays : ℤ) : ℤ :=
  match stepDays with
  | some n => if n = 0 then testDays else n
  | none => testDays

/-- `build_walk_forward_windows`; the error is the text of the exception. -/
def buildWalkForwardWindows (startDate endDate trainDays testDays : ℤ) (stepDays : Option ℤ)
    (mode : Mode) : Except String (List Window) :=
  if hlegs : 1 ≤ trainDays ∧ 1 ≤ testDays then
    if hstep : 1 ≤ stepOrTestDays stepDays testDays then
      let legs : Legs :=
        { trainDays := trainDays, testDays := testDays, step := stepOrTestDays stepDays testDays,
          train_pos := hlegs.1, test_pos := hlegs.2, step_pos := hstep }
      (windowsFrom legs mode startDate endDate startDate).bind fun windows =>
        if windows = [] then .error "No walk-forward windows fit inside the requested date range"
        else .ok windows
    else .error "step_days must be positive"
  else .error "train_days and test_days must be positive"

/-- What the function returns comes out of the loop, and is not empty. -/
theorem windowsFrom_of_build {startDate endDate trainDays testDays : ℤ} {stepDays : Option ℤ}
    {mode : Mode} {windows : List Window}
    (h : buildWalkForwardWindows startDate endDate trainDays testDays stepDays mode
      = .ok windows) :
    windows ≠ [] ∧ ∃ legs, windowsFrom legs mode startDate endDate startDate = .ok windows := by
  unfold buildWalkForwardWindows at h
  split at h
  · split at h
    · obtain ⟨windows', hloop, h⟩ := except_bind_eq_ok h
      split at h
      · cases h
      · rename_i hne
        obtain rfl := Except.ok.inj h
        exact ⟨hne, _, hloop⟩
    · cases h
  · cases h

/-! ### Caps and scores -/

/-- `SafetyCaps`. -/
structure SafetyCaps (K : Type) where
  maxLeverage : K
  maxPositionSize : Option K
  maxDrawdownHalt : Option K
deriving DecidableEq, Repr

/-- The cap that a `SafetyCapsBreach` names; one that the trial function raises has its own text. -/
inductive Breach (K : Type)
  | leverage (total : Num K) (cap : K)
  | position (max : Num K) (cap : K)
  | drawdown (observed cap : K)
  | text (s : String)
deriving DecidableEq, Repr

/-- How the body of a trial fails. -/
inductive TrialError (K : Type)
  | breach (b : Breach K)
  | exception (message : String)
deriving DecidableEq, Repr

/-- `enforce_caps`. -/
def enforceCaps (caps : SafetyCaps K) (totalLeverage maxPosition : Num K) (observedMaxDd : K) :
    Except (TrialError K) Unit :=
  if exceeds totalLeverage caps.maxLeverage then
    .error (.breach (.leverage totalLeverage caps.maxLeverage))
  else
    match caps.maxPositionSize.filter (exceeds maxPosition) with
    | some cap => .error (.breach (.position maxPosition cap))
    | none =>
      match caps.maxDrawdownHalt.filter (exceeds (some observedMaxDd)) with
      | some cap => .error (.breach (.drawdown observedMaxDd cap))
      | none => .ok ()

/-- The metrics that a trial function returns; `none` is a key that is missing. -/
structure Metrics (K : Type) where
  totalReturn : Option K
  sharpe : Option K
  sortino : Option K
  maxDrawdown : Option K
  totalLeverage : Option (Num K)
  maxPosition : Option (Num K)
deriving DecidableEq, Repr

/-- `PortfolioObjective`. -/
inductive PortfolioObjective
  | equalWeight
  | manual
  | maximizeProfit
  | maximizeSharpe
  | maximizeSortino
  | maximizeCalmar
  | minimizeMaxDrawdown
deriving DecidableEq, Repr

/-- `_score_calmar`. -/
def scoreCalmar (m : Metrics K) : K :=
  let maxDd := m.maxDrawdown.getD 0
  if maxDd = 0 then 0 else m.totalReturn.getD 0 / |maxDd|

/-- `objective_score`. -/
def objectiveScore (m : Metrics K) : PortfolioObjective → Except (TrialError K) K
  | .maximizeProfit => .ok (m.totalReturn.getD 0)
  | .maximizeSharpe => .ok (m.sharpe.getD 0)
  | .maximizeSortino => .ok (m.sortino.getD 0)
  | .maximizeCalmar => .ok (scoreCalmar m)
  | .minimizeMaxDrawdown => .ok (-|m.maxDrawdown.getD 0|)
  | .equalWeight =>
    .error (.exception "unknown objective <PortfolioObjective.EQUAL_WEIGHT: 'equal_weight'>")
  | .manual => .error (.exception "unknown objective <PortfolioObjective.MANUAL: 'manual'>")

/-- The parameters of a trial. -/
structure Params (K : Type) where
  leverage : K
  positionSize : K
deriving DecidableEq, Repr

/-- The bounds for `suggest_float`. -/
structure SearchSpace (K : Type) where
  leverageLow : K
  leverageHigh : K
  positionSizeLow : K
  positionSizeHigh : K
deriving DecidableEq, Repr

/-- `build_search_space`. -/
def buildSearchSpace (caps : SafetyCaps K) : SearchSpace K where
  leverageLow := 0.1
  leverageHigh := caps.maxLeverage
  positionSizeLow := 0
  positionSizeHigh := caps.maxPositionSize.getD 1

/-! ### A trial -/

/-- The range on which the trial function is called. -/
inductive Leg
  | inSample
  | outOfSample
deriving DecidableEq, Repr

/-- What the optimizer is given. -/
structure Env (K : Type) where
  objective : PortfolioObjective
  safetyCaps : SafetyCaps K
  /-- The values of `suggest_float` for a trial, or the text of the exception. -/
  suggest : ℕ → SearchSpace K → Except String (Params K)
  /-- `portfolio_backtest_fn` in a trial, on a leg, with the dates. -/
  portfolioBacktestFn : Option
    (ℕ → Leg → Params K → (startDate endDate : ℤ) → Except (TrialError K) (Metrics K))
  /-- The `k`-th call of `cancel_check`. -/
  cancelCheck : ℕ → Bool
  /-- The text of the exception that the `k`-th call of `study.tell` raises. -/
  tellRaises : ℕ → Option String

/-- What the study is told about a trial. -/
inductive TrialState (K : Type)
  | complete (score : K)
  | pruned
  | fail
deriving DecidableEq, Repr

/-- The scores of a trial with the metrics they come from. -/
structure Scores (K : Type) where
  isScore : K
  oosScore : K
  isMetrics : Metrics K
  oosMetrics : Metrics K
deriving DecidableEq, Repr

/-- The worse of the two scores. -/
def Scores.robust (s : Scores K) : K := min s.isScore s.oosScore

/-- The rest of a trace entry. -/
inductive Outcome (K : Type)
  | scored (scores : Scores K)
  | pruned (reason : Breach K)
  | error (message : String)
deriving DecidableEq, Repr

/-- An entry of the optimization trace; `params` is `none` when the sampler has raised. -/
structure TraceEntry (K : Type) where
  trial : ℕ
  windowIndex : ℕ
  params : Option (Params K)
  outcome : Outcome K
deriving DecidableEq, Repr

/-- The study and the accumulators. -/
structure Progress (K : Type) where
  /-- The window of each trial that was asked; a trial is numbered by its place. -/
  asked : List ℕ := []
  /-- The calls of `study.tell`. -/
  tells : ℕ := 0
  /-- What the study has been told. -/
  told : List (ℕ × TrialState K) := []
  /-- The calls of `cancel_check`. -/
  checks : ℕ := 0
  inSampleScores : List K := []
  outOfSampleScores : List K := []
  trace : List (TraceEntry K) := []
  bestConfig : Option (K × Params K) := none
deriving DecidableEq, Repr

/-- `study.tell`: the exception it raises, if any. -/
def tell (env : Env K) (s : Progress K) (trial : ℕ) (state : TrialState K) :
    Option String × Progress K :=
  let s' := { s with tells := s.tells + 1 }
  match env.tellRaises s.tells with
  | some message => (some message, s')
  | none => (none, { s' with told := s.told ++ [(trial, state)] })

/-- A handler: tell the study, then leave an entry.  If the tell raises, `finally` tells FAIL,
    whatever comes of that, and the exception leaves the loop. -/
def handle (env : Env K) (s : Progress K) (entry : TraceEntry K) (state : TrialState K) :
    Option String × Progress K :=
  match tell env s entry.trial state with
  | (none, s) => (none, { s with trace := s.trace ++ [entry] })
  | (some message, s) => (some message, (tell env s entry.trial .fail).2)

/-- The evaluations of a trial, up to the scores. -/
def evaluate (env : Env K) (trial : ℕ) (params : Params K) (window : Window) :
    Except (TrialError K) (Scores K) := do
  match env.portfolioBacktestFn with
  | none => throw (.exception "portfolio_backtest_fn must be injected by Task F1")
  | some run =>
    let isMetrics ← run trial .inSample params window.trainStart window.trainEnd
    enforceCaps env.safetyCaps (isMetrics.totalLeverage.getD (some params.leverage))
      (isMetrics.maxPosition.getD (some 0)) |isMetrics.maxDrawdown.getD 0|
    let isScore ← objectiveScore isMetrics env.objective
    let oosMetrics ← run trial .outOfSample params window.testStart window.testEnd
    let oosScore ← objectiveScore oosMetrics env.objective
    return { isScore := isScore, oosScore := oosScore, isMetrics := isMetrics,
             oosMetrics := oosMetrics }

/-- The selection of `best_config`. -/
def selectBest (best : Option (K × Params K)) (score : K) (params : Params K) :
    Option (K × Params K) :=
  match best with
  | none => some (score, params)
  | some (bestScore, _) => if bestScore < score then some (score, params) else best

/-- The body of the inner loop. -/
def runTrial (env : Env K) (window : Window) (windowIndex : ℕ) (s : Progress K) :
    Option String × Progress K :=
  let trial := s.asked.length
  let s := { s with asked := s.asked ++ [windowIndex] }
  match env.suggest trial (buildSearchSpace env.safetyCaps) with
  | .error message => handle env s ⟨trial, windowIndex, none, .error message⟩ .fail
  | .ok params =>
    match evaluate env trial params window with
    | .error (.breach reason) =>
      handle env s ⟨trial, windowIndex, some params, .pruned reason⟩ .pruned
    | .error (.exception message) =>
      handle env s ⟨trial, windowIndex, some params, .error message⟩ .fail
    | .ok scores =>
      let s :=
        { s with
          inSampleScores := s.inSampleScores ++ [scores.isScore]
          outOfSampleScores := s.outOfSampleScores ++ [scores.oosScore]
          trace := s.trace ++ [⟨trial, windowIndex, some params, .scored scores⟩] }
      match tell env s trial (.complete scores.isScore) with
      | (none, s) => (none, { s with bestConfig := selectBest s.bestConfig scores.robust params })
      | (some message, s) =>
        handle env s ⟨trial, windowIndex, some params, .error message⟩ .fail

/-! ### The loops -/

/-- The inner loop, with `n` trials to go; an exception ends the run. -/
def trialLoop (env : Env K) (window : Window) (windowIndex : ℕ) :
    ℕ → Progress K → Except String (Progress K)
  | 0, s => .ok s
  | n + 1, s =>
    let s' := { s with checks := s.checks + 1 }
    if env.cancelCheck s.checks then .ok s'
    else
      match runTrial env window windowIndex s' with
      | (some message, _) => .error message
      | (none, s'') => trialLoop env window windowIndex n s''

/-- The trials of a window: the quotient, and one more for the first ones. -/
def trialsThisWindow (nTrials totalWindows windowIndex : ℕ) : ℕ :=
  nTrials / totalWindows + if windowIndex ≤ nTrials % totalWindows then 1 else 0

/-- The outer loop, from a window on. -/
def windowLoop (env : Env K) (nTrials totalWindows : ℕ) :
    List Window → (windowIndex : ℕ) → Progress K → Except String (Progress K)
  | [], _, s => .ok s
  | window :: windows, windowIndex, s =>
    let s' := { s with checks := s.checks + 1 }
    if env.cancelCheck s.checks then .ok s'
    else if trialsThisWindow nTrials totalWindows windowIndex = 0 then
      windowLoop env nTrials totalWindows windows (windowIndex + 1) s'
    else
      match trialLoop env window windowIndex
          (trialsThisWindow nTrials totalWindows windowIndex) s' with
      | .error message => .error message
      | .ok s'' => windowLoop env nTrials totalWindows windows (windowIndex + 1) s''

/-- `sum(scores) / len(scores) if scores else 0.0`. -/
def average (scores : List K) : K :=
  if scores = [] then 0 else scores.sum / (scores.length : K)

/-- `PortfolioOptimizationResult`; `bestConfig` is `none` for `{}`. -/
structure PortfolioOptimizationResult (K : Type) where
  isMetric : K
  oosMetric : K
  generalizationGap : K
  stabilityRatio : K
  bestConfig : Option (Params K)
  optimizationTrace : List (TraceEntry K)
  windows : List Window
  inSampleScores : List K
  outOfSampleScores : List K
deriving DecidableEq, Repr

/-- The result of the loops. -/
def summarize (windows : List Window) (s : Progress K) : PortfolioOptimizationResult K :=
  let isAvg := average s.inSampleScores
  let oosAvg := average s.outOfSampleScores
  { isMetric := isAvg
    oosMetric := oosAvg
    generalizationGap := isAvg - oosAvg
    stabilityRatio := if isAvg = 0 then 0 else oosAvg / isAvg
    bestConfig := s.bestConfig.map Prod.snd
    optimizationTrace := s.trace
    windows := windows
    inSampleScores := s.inSampleScores
    outOfSampleScores := s.outOfSampleScores }

/-- `run_portfolio_walk_forward`, with the study it leaves. -/
def runPortfolioWalkForward (env : Env K) (startDate endDate trainDays testDays : ℤ)
    (stepDays : Option ℤ) (nTrials : ℕ) :
    Except String (PortfolioOptimizationResult K × Progress K) := do
  let windows ←
    buildWalkForwardWindows startDate endDate trainDays testDays stepDays .rolling
  let s ← windowLoop env nTrials windows.length windows 1 {}
  return (summarize windows s, s)

/-! ### The accounts of a run -/

/-- The scores of an entry, with its parameters. -/
def TraceEntry.scores? (e : TraceEntry K) : Option (Scores K × Option (Params K)) :=
  match e.outcome with
  | .scored scores => some (scores, e.params)
  | _ => none

/-- The scored entries of a trace. -/
def scoredEntries (trace : List (TraceEntry K)) : List (Scores K × Option (Params K)) :=
  trace.filterMap TraceEntry.scores?

/-- The selection among the scored entries: the first with the greatest robust score. -/
def Selects (scored : List (Scores K × Option (Params K))) :
    Option (K × Params K) → Prop
  | none => scored = []
  | some (score, params) => ∃ e, FirstMax (fun e => e.1.robust) scored e ∧
      e.1.robust = score ∧ e.2 = some params

section Selection

variable {scored : List (Scores K × Option (Params K))} {best : Option (K × Params K)}

omit [Field K]

theorem Selects.none_iff (h : Selects scored best) : best.map Prod.snd = none ↔ scored = [] := by
  cases best with
  | none => exact iff_of_true rfl h
  | some b =>
    obtain ⟨e, ⟨before, after, rfl, -⟩, -⟩ := h
    simp

theorem Selects.some {params : Params K} (h : Selects scored best)
    (hbest : best.map Prod.snd = some params) :
    ∃ e, FirstMax (fun e => e.1.robust) scored e ∧ e.2 = some params := by
  cases best with
  | none => cases hbest
  | some b =>
    obtain rfl := Option.some.inj hbest
    obtain ⟨e, hmax, -, hparams⟩ := h
    exact ⟨e, hmax, hparams⟩

/-- The selection after one more scored entry. -/
theorem selectBest_selects {scores : Scores K} {params : Params K} (h : Selects scored best) :
    Selects (scored ++ [(scores, some params)]) (selectBest best scores.robust params) := by
  cases best with
  | none =>
    have hnil : scored = [] := h
    subst hnil
    exact ⟨(scores, some params), firstMax_singleton, rfl, rfl⟩
  | some b =>
    obtain ⟨bestScore, bestParams⟩ := b
    obtain ⟨e, hmax, hscore, hparams⟩ := h
    show Selects _ (if bestScore < scores.robust then some (scores.robust, params)
      else some (bestScore, bestParams))
    by_cases hlt : bestScore < scores.robust
    · rw [if_pos hlt]
      exact ⟨_, hmax.concat_lt (hscore.trans_lt hlt), rfl, rfl⟩
    · rw [if_neg hlt]
      exact ⟨e, hmax.concat_le (hscore ▸ not_lt.mp hlt), hscore, hparams⟩

end Selection

/-- What the accumulators say about each other. -/
structure Accounts (s : Progress K) : Prop where
  told : s.told.map Prod.fst = List.range s.asked.length
  trials : s.trace.map TraceEntry.trial = List.range s.asked.length
  windows : s.trace.map TraceEntry.windowIndex = s.asked
  inSample : s.inSampleScores = (scoredEntries s.trace).map fun e => e.1.isScore
  outOfSample : s.outOfSampleScores = (scoredEntries s.trace).map fun e => e.1.oosScore
  best : Selects (scoredEntries s.trace) s.bestConfig

variable {env : Env K} {s : Progress K} {window : Window} {windowIndex : ℕ}

omit [Field K] in
theorem accounts_initial : Accounts ({} : Progress K) :=
  ⟨rfl, rfl, rfl, rfl, rfl, rfl⟩

omit [Field K] [LinearOrder K] in
/-- A tell that does not raise. -/
theorem tell_eq (htell : ∀ k, env.tellRaises k = none) {trial : ℕ} {state : TrialState K} :
    tell env s trial state
      = (none, { s with tells := s.tells + 1, told := s.told ++ [(trial, state)] }) := by
  unfold tell
  rw [htell]

omit [Field K] [LinearOrder K] in
/-- A handler whose tell does not raise. -/
theorem handle_eq (htell : ∀ k, env.tellRaises k = none) {entry : TraceEntry K}
    {state : TrialState K} :
    handle env s entry state = (none, { s with
      tells := s.tells + 1
      told := s.told ++ [(entry.trial, state)]
      trace := s.trace ++ [entry] }) := by
  unfold handle
  rw [tell_eq htell]

/-- One more trial, which is told and has an entry; the scores and the selection follow. -/
structure Records (s s' : Progress K) (entry : TraceEntry K) : Prop where
  trial : entry.trial = s.asked.length
  asked : s'.asked = s.asked ++ [entry.windowIndex]
  told : ∃ state, s'.told = s.told ++ [(entry.trial, state)]
  trace : s'.trace = s.trace ++ [entry]

omit [LinearOrder K] [Field K] in
theorem Records.scoredEntries {s' : Progress K} {entry : TraceEntry K}
    (hrec : Records s s' entry) :
    scoredEntries s'.trace = scoredEntries s.trace ++ entry.scores?.toList := by
  show s'.trace.filterMap TraceEntry.scores? = _
  rw [hrec.trace, List.filterMap_append]
  cases hscores : entry.scores? with
  | none =>
    rw [List.filterMap_cons_none hscores]
    rfl
  | some scored =>
    rw [List.filterMap_cons_some hscores]
    rfl

omit [Field K] in
/-- One more trial, with or without scores. -/
theorem Accounts.recorded {s' : Progress K} {entry : TraceEntry K} (h : Accounts s)
    (hrec : Records s s' entry)
    (his : s'.inSampleScores = s.inSampleScores ++ entry.scores?.toList.map fun e => e.1.isScore)
    (hoos : s'.outOfSampleScores
      = s.outOfSampleScores ++ entry.scores?.toList.map fun e => e.1.oosScore)
    (hbest : Selects (scoredEntries s.trace ++ entry.scores?.toList) s'.bestConfig) :
    Accounts s' := by
  obtain ⟨state, htold⟩ := hrec.told
  have hlen : s'.asked.length = s.asked.length + 1 := by rw [hrec.asked, List.length_append]; rfl
  refine ⟨?_, ?_, ?_, ?_, ?_, ?_⟩
  · rw [htold, List.map_append, h.told, hlen, List.range_succ, ← hrec.trial]
    rfl
  · rw [hrec.trace, List.map_append, h.trials, hlen, List.range_succ, ← hrec.trial]
    rfl
  · rw [hrec.trace, List.map_append, h.windows, hrec.asked]
    rfl
  · rw [his, hrec.scoredEntries, List.map_append, h.inSample]
  · rw [hoos, hrec.scoredEntries, List.map_append, h.outOfSample]
  · rw [hrec.scoredEntries]
    exact hbest

omit [Field K] in
/-- A trial without scores. -/
theorem Accounts.failed {s' : Progress K} {entry : TraceEntry K} (h : Accounts s)
    (hrec : Records s s' entry) (hnone : entry.scores? = none)
    (his : s'.inSampleScores = s.inSampleScores)
    (hoos : s'.outOfSampleScores = s.outOfSampleScores) (hbest : s'.bestConfig = s.bestConfig) :
    Accounts s' := by
  apply h.recorded hrec
  · rw [his, hnone]
    exact (List.append_nil _).symm
  · rw [hoos, hnone]
    exact (List.append_nil _).symm
  · rw [hbest, hnone]
    simpa using h.best

omit [Field K] in
/-- A trial with scores. -/
theorem Accounts.scored {s' : Progress K} {entry : TraceEntry K} {scores : Scores K}
    {params : Params K} (h : Accounts s) (hrec : Records s s' entry)
    (hsome : entry.scores? = some (scores, some params))
    (his : s'.inSampleScores = s.inSampleScores ++ [scores.isScore])
    (hoos : s'.outOfSampleScores = s.outOfSampleScores ++ [scores.oosScore])
    (hbest : s'.bestConfig = selectBest s.bestConfig scores.robust params) : Accounts s' := by
  apply h.recorded hrec
  · rw [his, hsome]
    rfl
  · rw [hoos, hsome]
    rfl
  · rw [hbest, hsome]
    exact selectBest_selects h.best

/-- **Step.**  Whatever happens in the body of a trial, the accounts are kept and nothing
    escapes. -/
theorem runTrial_accounts (window : Window) (windowIndex : ℕ)
    (htell : ∀ k, env.tellRaises k = none) (h : Accounts s) :
    ∃ s', runTrial env window windowIndex s = (none, s') ∧ Accounts s' ∧
      s'.asked = s.asked ++ [windowIndex] := by
  unfold runTrial
  dsimp only
  cases env.suggest s.asked.length (buildSearchSpace env.safetyCaps) with
  | error message =>
    dsimp only
    rw [handle_eq htell]
    exact ⟨_, rfl, h.failed ⟨rfl, rfl, ⟨_, rfl⟩, rfl⟩ rfl rfl rfl rfl, rfl⟩
  | ok params =>
    dsimp only
    cases evaluate env s.asked.length params window with
    | error e =>
      cases e with
      | breach reason =>
        dsimp only
        rw [handle_eq htell]
        exact ⟨_, rfl, h.failed ⟨rfl, rfl, ⟨_, rfl⟩, rfl⟩ rfl rfl rfl rfl, rfl⟩
      | exception message =>
        dsimp only
        rw [handle_eq htell]
        exact ⟨_, rfl, h.failed ⟨rfl, rfl, ⟨_, rfl⟩, rfl⟩ rfl rfl rfl rfl, rfl⟩
    | ok scores =>
      dsimp only
      rw [tell_eq htell]
      exact ⟨_, rfl, h.scored ⟨rfl, rfl, ⟨_, rfl⟩, rfl⟩ rfl rfl rfl rfl, rfl⟩

omit [Field K] in
/-- Only the accumulators matter. -/
theorem Accounts.checked (h : Accounts s) : Accounts { s with checks := s.checks + 1 } :=
  ⟨h.told, h.trials, h.windows, h.inSample, h.outOfSample, h.best⟩

/-- **Run** of the inner loop. -/
theorem trialLoop_accounts (window : Window) (windowIndex : ℕ)
    (hcancel : ∀ k, env.cancelCheck k = false) (htell : ∀ k, env.tellRaises k = none) (n : ℕ)
    (h : Accounts s) :
    ∃ s', trialLoop env window windowIndex n s = .ok s' ∧ Accounts s' ∧
      s'.asked = s.asked ++ List.replicate n windowIndex := by
  induction n generalizing s with
  | zero => exact ⟨s, rfl, h, (List.append_nil _).symm⟩
  | succ n ih =>
    obtain ⟨s₁, hrun, haccounts, hasked⟩ :=
      runTrial_accounts window windowIndex htell h.checked
    obtain ⟨s₂, hloop, haccounts₂, hasked₂⟩ := ih haccounts
    refine ⟨s₂, ?_, haccounts₂, ?_⟩
    · unfold trialLoop
      dsimp only
      rw [hcancel, if_neg Bool.false_ne_true, hrun]
      exact hloop
    · rw [hasked₂, hasked, List.append_assoc, List.replicate_succ]
      rfl

/-- **Run** of the outer loop. -/
theorem windowLoop_accounts (nTrials total : ℕ) (windows : List Window) (windowIndex : ℕ)
    (hcancel : ∀ k, env.cancelCheck k = false) (htell : ∀ k, env.tellRaises k = none)
    (h : Accounts s) :
    ∃ s', windowLoop env nTrials total windows windowIndex s = .ok s' ∧ Accounts s' ∧
      s'.asked = s.asked ++ (List.range' windowIndex windows.length).flatMap fun i =>
        List.replicate (trialsThisWindow nTrials total i) i := by
  induction windows generalizing s windowIndex with
  | nil => exact ⟨s, rfl, h, (List.append_nil _).symm⟩
  | cons window windows ih =>
    obtain ⟨s₁, hloop, haccounts, hasked⟩ := trialLoop_accounts window windowIndex hcancel htell
      (trialsThisWindow nTrials total windowIndex) h.checked
    obtain ⟨s₂, hrest, haccounts₂, hasked₂⟩ := ih (windowIndex + 1) haccounts
    refine ⟨s₂, ?_, haccounts₂, ?_⟩
    · unfold windowLoop
      dsimp only
      rw [hcancel, if_neg Bool.false_ne_true]
      by_cases hzero : trialsThisWindow nTrials total windowIndex = 0
      · rw [if_pos hzero]
        rw [hzero] at hloop
        obtain rfl := Except.ok.inj hloop
        exact hrest
      · rw [if_neg hzero, hloop]
        exact hrest
    · rw [hasked₂, hasked, List.append_assoc, List.length_cons, List.range'_succ,
        List.flatMap_cons]

/-! ### A trial that is scored -/

omit [Field K] in
/-- Values within the caps pass. -/
theorem enforceCaps_ok {caps : SafetyCaps K} {totalLeverage maxPosition : Num K} {observedMaxDd : K}
    (hleverage : exceeds totalLeverage caps.maxLeverage = false)
    (hposition : ∀ cap, caps.maxPositionSize = some cap → exceeds maxPosition cap = false)
    (hdrawdown : ∀ cap, caps.maxDrawdownHalt = some cap →
      exceeds (some observedMaxDd) cap = false) :
    enforceCaps caps totalLeverage maxPosition observedMaxDd = .ok () := by
  have hp : caps.maxPositionSize.filter (exceeds maxPosition) = none := by
    rw [Option.filter_eq_none_iff]
    exact fun cap hcap => by rw [hposition cap hcap]; exact Bool.false_ne_true
  have hd : caps.maxDrawdownHalt.filter (exceeds (some observedMaxDd)) = none := by
    rw [Option.filter_eq_none_iff]
    exact fun cap hcap => by rw [hdrawdown cap hcap]; exact Bool.false_ne_true
  unfold enforceCaps
  rw [hleverage, if_neg Bool.false_ne_true, hp, hd]

/-- A trial whose parts go through. -/
theorem evaluate_ok {trial : ℕ} {params : Params K} {scores : Scores K}
    {run : ℕ → Leg → Params K → (startDate endDate : ℤ) → Except (TrialError K) (Metrics K)}
    (hrun : env.portfolioBacktestFn = some run)
    (htrain : run trial .inSample params window.trainStart window.trainEnd = .ok scores.isMetrics)
    (hcaps : enforceCaps env.safetyCaps
      (scores.isMetrics.totalLeverage.getD (some params.leverage))
      (scores.isMetrics.maxPosition.getD (some 0)) |scores.isMetrics.maxDrawdown.getD 0| = .ok ())
    (his : objectiveScore scores.isMetrics env.objective = .ok scores.isScore)
    (htest : run trial .outOfSample params window.testStart window.testEnd = .ok scores.oosMetrics)
    (hoos : objectiveScore scores.oosMetrics env.objective = .ok scores.oosScore) :
    evaluate env trial params window = .ok scores := by
  unfold evaluate
  rw [hrun]
  dsimp only
  rw [htrain]
  show (enforceCaps _ _ _ _ >>= fun _ => objectiveScore scores.isMetrics env.objective >>= fun _ =>
    run trial .outOfSample params window.testStart window.testEnd >>= _) = _
  rw [hcaps, his, htest]
  show (objectiveScore scores.oosMetrics env.objective >>= _) = _
  rw [hoos]
  rfl

/-- A run of a single trial that is scored. -/
theorem runPortfolioWalkForward_single {startDate endDate trainDays testDays : ℤ}
    {stepDays : Option ℤ} {params : Params K} {scores : Scores K}
    (hwindows : buildWalkForwardWindows startDate endDate trainDays testDays stepDays .rolling
      = .ok [window])
    (hcancel : ∀ k, env.cancelCheck k = false) (htell : ∀ k, env.tellRaises k = none)
    (hsuggest : env.suggest 0 (buildSearchSpace env.safetyCaps) = .ok params)
    (hscores : evaluate env 0 params window = .ok scores) :
    ∃ result s, runPortfolioWalkForward env startDate endDate trainDays testDays stepDays 1
        = .ok (result, s) ∧ result.bestConfig = some params := by
  obtain ⟨s, hloop, hbest⟩ : ∃ s, windowLoop env 1 1 [window] 1 {} = .ok s ∧
      s.bestConfig = some (scores.robust, params) := by
    simp [windowLoop, trialLoop, runTrial, hcancel, hsuggest, hscores, tell_eq htell,
      trialsThisWindow, selectBest]
  refine ⟨summarize [window] s, s, ?_, ?_⟩
  · unfold runPortfolioWalkForward
    rw [hwindows]
    show (windowLoop env 1 1 [window] 1 {} >>= fun s => pure (summarize [window] s, s)) = _
    rw [hloop]
    rfl
  · show s.bestConfig.map Prod.snd = some params
    rw [hbest]
    rfl

/-! ### Where the selected parameters come from -/

/-- The parameters are those of a trial. -/
def Suggested (env : Env K) (params : Params K) : Prop :=
  ∃ trial, env.suggest trial (buildSearchSpace env.safetyCaps) = .ok params

/-- The selected parameters, if any, are those of a trial. -/
def BestSuggested (env : Env K) (s : Progress K) : Prop :=
  ∀ best, s.bestConfig = some best → Suggested env best.2

omit [Field K] [LinearOrder K] in
theorem tell_bestConfig {trial : ℕ} {state : TrialState K} :
    (tell env s trial state).2.bestConfig = s.bestConfig := by
  unfold tell
  dsimp only
  split
  · rfl
  · rfl

omit [Field K] [LinearOrder K] in
theorem handle_bestConfig {entry : TraceEntry K} {state : TrialState K} :
    (handle env s entry state).2.bestConfig = s.bestConfig := by
  unfold handle
  have htell : (tell env s entry.trial state).2.bestConfig = s.bestConfig := tell_bestConfig
  split
  · rename_i heq
    rw [heq] at htell
    exact htell
  · rename_i heq
    rw [heq] at htell
    exact tell_bestConfig.trans htell

omit [Field K] in
theorem selectBest_cases (best : Option (K × Params K)) (score : K) (params : Params K) :
    selectBest best score params = best ∨ selectBest best score params = some (score, params) := by
  unfold selectBest
  split
  · exact Or.inr rfl
  · split
    · exact Or.inr rfl
    · exact Or.inl rfl

omit [LinearOrder K] in
theorem BestSuggested.checked (h : BestSuggested env s) :
    BestSuggested env { s with checks := s.checks + 1 } := h

/-- **Step.**  A trial selects its own parameters, or leaves the selection. -/
theorem runTrial_bestSuggested (h : BestSuggested env s) :
    BestSuggested env (runTrial env window windowIndex s).2 := by
  have hhandle (entry : TraceEntry K) (state : TrialState K) (s' : Progress K)
      (hs' : s'.bestConfig = s.bestConfig) :
      BestSuggested env (handle env s' entry state).2 := by
    intro best hbest
    rw [handle_bestConfig, hs'] at hbest
    exact h best hbest
  unfold runTrial
  dsimp only
  cases hsuggest : env.suggest s.asked.length (buildSearchSpace env.safetyCaps) with
  | error message => exact hhandle _ _ _ rfl
  | ok params =>
    dsimp only
    cases evaluate env s.asked.length params window with
    | error e =>
      cases e with
      | breach reason => exact hhandle _ _ _ rfl
      | exception message => exact hhandle _ _ _ rfl
    | ok scores =>
      dsimp only
      split
      · rename_i s' htell
        have hs' : s'.bestConfig = s.bestConfig :=
          (congrArg (fun r => r.2.bestConfig) htell).symm.trans tell_bestConfig
        intro best hbest
        rcases selectBest_cases s'.bestConfig scores.robust params with hsame | hnew
        · exact h best (hs' ▸ hsame ▸ hbest)
        · obtain rfl := Option.some.inj (hnew.symm.trans hbest)
          exact ⟨_, hsuggest⟩
      · rename_i message s' htell
        exact hhandle _ _ _
          ((congrArg (fun r => r.2.bestConfig) htell).symm.trans tell_bestConfig)

/-- **Run** of the inner loop. -/
theorem trialLoop_bestSuggested {n : ℕ} {s' : Progress K} (h : BestSuggested env s)
    (hrun : trialLoop env window windowIndex n s = .ok s') : BestSuggested env s' := by
  induction n generalizing s with
  | zero =>
    obtain rfl := Except.ok.inj hrun
    exact h
  | succ n ih =>
    unfold trialLoop at hrun
    dsimp only at hrun
    split at hrun
    · obtain rfl := Except.ok.inj hrun
      exact h
    · split at hrun
      · cases hrun
      · rename_i s'' heq
        have hstep : BestSuggested env (runTrial env window windowIndex _).2 :=
          runTrial_bestSuggested h.checked
        rw [heq] at hstep
        exact ih hstep hrun

/-- **Run** of the outer loop. -/
theorem windowLoop_bestSuggested {nTrials total : ℕ} {windows : List Window} {s' : Progress K}
    (h : BestSuggested env s)
    (hrun : windowLoop env nTrials total windows windowIndex s = .ok s') :
    BestSuggested env s' := by
  induction windows generalizing s windowIndex with
  | nil =>
    obtain rfl := Except.ok.inj hrun
    exact h
  | cons window windows ih =>
    unfold windowLoop at hrun
    dsimp only at hrun
    split at hrun
    · obtain rfl := Except.ok.inj hrun
      exact h
    · split at hrun
      · exact ih h.checked hrun
      · split at hrun
        · cases hrun
        · rename_i hloop
          exact ih (trialLoop_bestSuggested h.checked hloop) hrun

/-- The parameters of the best configuration were suggested in a trial. -/
theorem bestConfig_suggested {startDate endDate trainDays testDays : ℤ} {stepDays : Option ℤ}
    {nTrials : ℕ} {result : PortfolioOptimizationResult K} {params : Params K}
    (hrun : runPortfolioWalkForward env startDate endDate trainDays testDays stepDays nTrials
      = .ok (result, s)) (hbest : result.bestConfig = some params) : Suggested env params := by
  obtain ⟨windows, -, hrest⟩ := except_bind_eq_ok hrun
  obtain ⟨s', hloop, hresult⟩ := except_bind_eq_ok hrest
  obtain ⟨rfl, rfl⟩ := Prod.mk.inj (Except.ok.inj hresult)
  have hinitial : BestSuggested env ({} : Progress K) := fun _ h => by cases h
  obtain ⟨best, hs, rfl⟩ := Option.map_eq_some_iff.mp hbest
  exact windowLoop_bestSuggested hinitial hloop best hs

/-! ### The split over the windows -/

theorem count_flatMap_replicate {t : ℕ → ℕ} {l : List ℕ} (hnodup : l.Nodup) {j : ℕ} (hj : j ∈ l) :
    (l.flatMap fun i => List.replicate (t i) i).count j = t j := by
  have hother : ∀ l : List ℕ, j ∉ l → (l.flatMap fun i => List.replicate (t i) i).count j = 0 := by
    intro l hnot
    refine List.count_eq_zero.mpr fun hmem => ?_
    obtain ⟨i, hi, hrep⟩ := List.mem_flatMap.mp hmem
    exact hnot (List.eq_of_mem_replicate hrep ▸ hi)
  induction l with
  | nil => cases hj
  | cons i l ih =>
    obtain ⟨hi, hnodup⟩ := List.nodup_cons.mp hnodup
    rw [List.flatMap_cons, List.count_append]
    rcases List.mem_cons.mp hj with rfl | hmem
    · rw [List.count_replicate_self, hother l hi, Nat.add_zero]
    · have hne : i ≠ j := fun heq => hi (heq ▸ hmem)
      rw [List.count_replicate, if_neg (by simpa using hne), Nat.zero_add, ih hnodup hmem]

/-- The first `m` windows get the quotient each, and the remainder as far as it goes. -/
theorem length_split {nTrials total : ℕ} (m : ℕ) :
    ((List.range' 1 m).flatMap fun i =>
        List.replicate (trialsThisWindow nTrials total i) i).length
      = m * (nTrials / total) + min m (nTrials % total) := by
  induction m with
  | zero => simp
  | succ m ih =>
    rw [List.range'_1_concat, List.flatMap_append, List.length_append, ih, List.flatMap_singleton,
      List.length_replicate, trialsThisWindow, Nat.add_mul, Nat.one_mul]
    by_cases hle : 1 + m ≤ nTrials % total
    · rw [if_pos hle]
      omega
    · rw [if_neg hle]
      omega

/-- The shares differ by at most one, and the earlier windows get the larger one. -/
theorem trialsThisWindow_anti {nTrials total i j : ℕ} (hij : i ≤ j) :
    trialsThisWindow nTrials total j ≤ trialsThisWindow nTrials total i ∧
      trialsThisWindow nTrials total i ≤ trialsThisWindow nTrials total j + 1 := by
  unfold trialsThisWindow
  split
  · rw [if_pos (by omega)]
    omega
  · split
    · omega
    · omega

/-! ### The result -/

/-- What the study and the result say about a run of `nTrials` trials over `total` windows. -/
structure Balanced (nTrials total : ℕ) (result : PortfolioOptimizationResult K)
    (s : Progress K) : Prop where
  /-- Exactly `nTrials` trials are asked. -/
  asked : s.asked.length = nTrials
  /-- Each in one of the windows. -/
  windows : ∀ i ∈ s.asked, 1 ≤ i ∧ i ≤ total
  /-- Two windows differ by at most one trial, and the earlier one has the larger share. -/
  split : ∀ i j, 1 ≤ i → i ≤ j → j ≤ total →
    s.asked.count j ≤ s.asked.count i ∧ s.asked.count i ≤ s.asked.count j + 1
  /-- Every trial is told exactly once. -/
  told : s.told.map Prod.fst = List.range nTrials
  /-- Every trial has exactly one trace entry, with its window. -/
  trials : result.optimizationTrace.map TraceEntry.trial = List.range nTrials
  entryWindows : result.optimizationTrace.map TraceEntry.windowIndex = s.asked
  /-- There is one score of each kind for each entry with scores. -/
  inSample :
    result.inSampleScores.length = (scoredEntries result.optimizationTrace).length
  outOfSample :
    result.outOfSampleScores.length = (scoredEntries result.optimizationTrace).length
  /-- Without a scored trial there is no best configuration. -/
  noBest : result.bestConfig = none ↔ scoredEntries result.optimizationTrace = []
  /-- The best configuration is that of the first trial with the greatest robust score. -/
  best : ∀ params, result.bestConfig = some params →
    ∃ e, FirstMax (fun e => e.1.robust) (scoredEntries result.optimizationTrace) e ∧
      e.2 = some params

/-- Every run with at least one window that is not cancelled, and whose tells go through, returns,
    and its accounts are balanced. -/
theorem optimizer_accounting {K : Type} [Field K] [LinearOrder K] (env : Env K)
    (startDate endDate trainDays testDays : ℤ) (stepDays : Option ℤ) (nTrials : ℕ)
    (windows : List Window)
    (hwindows : buildWalkForwardWindows startDate endDate trainDays testDays stepDays .rolling
      = .ok windows)
    (hcancel : ∀ k, env.cancelCheck k = false) (htell : ∀ k, env.tellRaises k = none) :
    ∃ result s,
      runPortfolioWalkForward env startDate endDate trainDays testDays stepDays nTrials
        = .ok (result, s) ∧
      Balanced nTrials windows.length result s := by
  obtain ⟨s, hloop, haccounts, hasked⟩ := windowLoop_accounts nTrials windows.length windows 1
    hcancel htell accounts_initial
  have htotal : 0 < windows.length := List.length_pos_iff.mpr (windowsFrom_of_build hwindows).1
  rw [List.nil_append] at hasked
  have hlength : s.asked.length = nTrials := by
    have hmod : nTrials % windows.length < windows.length := Nat.mod_lt _ htotal
    rw [hasked, length_split, min_eq_right hmod.le]
    exact Nat.div_add_mod ..
  have hcount : ∀ i, 1 ≤ i → i ≤ windows.length →
      s.asked.count i = trialsThisWindow nTrials windows.length i := by
    intro i hlow hhigh
    rw [hasked]
    exact count_flatMap_replicate List.nodup_range' (List.mem_range'_1.mpr ⟨hlow, by omega⟩)
  refine ⟨summarize windows s, s, ?_, ⟨hlength, ?_, ?_, ?_, ?_, haccounts.windows, ?_, ?_, ?_, ?_⟩⟩
  · unfold runPortfolioWalkForward
    rw [hwindows]
    show (windowLoop env nTrials windows.length windows 1 {} >>= fun s =>
      pure (summarize windows s, s)) = _
    rw [hloop]
    rfl
  · intro i hi
    rw [hasked] at hi
    obtain ⟨j, hj, hrep⟩ := List.mem_flatMap.mp hi
    obtain rfl := List.eq_of_mem_replicate hrep
    have hrange := List.mem_range'_1.mp hj
    omega
  · intro i j hi hij hj
    rw [hcount i hi (hij.trans hj), hcount j (hi.trans hij) hj]
    exact trialsThisWindow_anti hij
  · rw [haccounts.told, hlength]
  · show s.trace.map TraceEntry.trial = _
    rw [haccounts.trials, hlength]
  · show s.inSampleScores.length = _
    rw [haccounts.inSample, List.length_map]
    rfl
  · show s.outOfSampleScores.length = _
    rw [haccounts.outOfSample, List.length_map]
    rfl
  · exact Selects.none_iff haccounts.best
  · intro params hparams
    exact Selects.some haccounts.best hparams

/-- A study of three trials: the first is pruned, the second raises, the third is scored. -/
def threeTrials : Env ℚ where
  objective := .maximizeSharpe
  safetyCaps := { maxLeverage := 2, maxPositionSize := none, maxDrawdownHalt := none }
  suggest := fun trial _ => .ok { leverage := 3 - trial, positionSize := 1 }
  portfolioBacktestFn := some fun trial _ params _ _ =>
    if trial = 1 then .error (.exception "no data")
    else .ok {
      totalReturn := none
      sharpe := some 1
      sortino := none
      maxDrawdown := none
      totalLeverage := some (some params.leverage)
      maxPosition := none }
  cancelCheck := fun _ => false
  tellRaises := fun _ => none

theorem optimizer_accounting_three_trials :
    ∃ result s, runPortfolioWalkForward threeTrials 1 15 5 5 none 3 = .ok (result, s) ∧
      Balanced 3 2 result s :=
  optimizer_accounting threeTrials 1 15 5 5 none 3 [⟨1, 5, 6, 10⟩, ⟨6, 10, 11, 15⟩]
    (by simp [buildWalkForwardWindows, stepOrTestDays, windowsFrom, sumOverflow, dateMax_eq]
        rfl) (fun _ => rfl) (fun _ => rfl)

end Msai.Portfolio.Optimizer
