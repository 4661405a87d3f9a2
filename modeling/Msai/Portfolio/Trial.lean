import Msai.Portfolio.Allocators
import Msai.Portfolio.Optimizer

namespace Msai.Portfolio.FullMode

open Msai.Lib Msai.Lib.PyFloat Msai.Analytics Optimizer

/-!
# The trial of Full mode (`services/portfolio/orchestration.py`)

Full mode backtests every allocation once, keeps the returns by strategy, and scores a trial on
the part of them in its window.

* `returnsCache` — the returns by strategy: of two allocations with one strategy the last one's;
* `sliceCachedReturns`, `trialFrame` — the part of the cache in a window;
* `scoreTrial`, `aggregateReturnsTrial` — `_aggregate_returns_trial`, with its intermediate values
  and as the optimizer sees it;
* `Faithful` — the trial trades and reports the weights of the list of allocations;
* `scoreTrial_total`, `trial_faithful` — no trial fails, and which ones are faithful.

Dates are day numbers, timestamps are in nanoseconds.
-/

variable {K : Type}

/-! ### The cache -/

/-- An entry of `cached_strategy_results`, with its timestamps parsed. -/
structure CandidateResult (K : Type) where
  strategyId : String
  weight : K
  timestamps : List ℤ
  returns : List K
  nodup : timestamps.Nodup

theorem map_fst_zip_sublist {α β : Type} :
    ∀ (xs : List α) (ys : List β), ((xs.zip ys).map Prod.fst).Sublist xs
  | [], _ => List.Sublist.refl _
  | _ :: _, [] => List.nil_sublist _
  | x :: xs, _ :: ys => (map_fst_zip_sublist xs ys).cons_cons x

namespace CandidateResult

/-- Neither list is empty, and they fit. -/
def usable (r : CandidateResult K) : Bool :=
  !r.timestamps.isEmpty && !r.returns.isEmpty && r.timestamps.length == r.returns.length

/-- `pd.Series(returns, index=timestamps)`. -/
def series (r : CandidateResult K) : Series K :=
  Series.ofRows (r.timestamps.zip r.returns)
    (r.nodup.sublist (map_fst_zip_sublist _ _))

/-- What the loop assigns for an entry. -/
def cacheEntry (r : CandidateResult K) : Option (String × Series K) :=
  if r.usable then some (r.strategyId, r.series) else none

end CandidateResult

/-- The loop that fills `returns_cache`. -/
def returnsCache (results : List (CandidateResult K)) : Dict String (Series K) :=
  Dict.build CandidateResult.cacheEntry results

/-! ### A window -/

/-- Nanoseconds in a day. -/
def nsPerDay : ℤ := 24 * 60 * 60 * 10 ^ 9

/-- `_slice_cached_returns`: from midnight of the first day to the last instant of the last. -/
def sliceCachedReturns (series : Series K) (startDate endDate : ℤ) : Series K :=
  series.between (startDate * nsPerDay) (endDate * nsPerDay + nsPerDay - 1)

/-- `returns_df` of a trial. -/
def trialFrame [Zero K] (memberStrategyIds : List String) (startDate endDate : ℤ)
    (cache : Dict String (Series K)) : Frame K :=
  Frame.ofSeries ((firstSeen id memberStrategyIds).map fun sid =>
    (sid, sliceCachedReturns ((cache.get sid).getD .empty) startDate endDate))

/-! ### A trial -/

/-- `risk_params`; `none` is a key that is missing. -/
structure RiskParams (K : Type) where
  leverage : Option K
  positionSize : Option K
deriving DecidableEq, Repr

/-- What a trial has computed on its way to its metrics. -/
structure TrialRun (K : Type) where
  /-- The weights of the allocator. -/
  rawWeights : Weights K
  /-- The weights behind the position cap. -/
  weights : Weights K
  combined : Series K
  metrics : Metrics K

section Trial

variable [Field K] [LinearOrder K]

/-- The metrics of a trial without data. -/
def emptyMetrics (leverage positionSize : K) : Metrics K where
  totalReturn := some 0
  sharpe := some 0
  sortino := some 0
  maxDrawdown := some 0
  totalLeverage := some (some leverage)
  maxPosition := some (some positionSize)

/-- `min(abs(w), position_size)` of a weight, if there is a position size. -/
def capWeight (positionSize : K) (w : Num K) : Num K :=
  if 0 < positionSize then capped (magnitude w) positionSize else w

/-- The position cap on a dictionary of weights. -/
def capWeights (positionSize : K) (weights : Weights K) : Weights K :=
  weights.map fun p => (p.1, capWeight positionSize p.2)

/-- `weights[sid]`; the allocators leave no id out. -/
def weightOf (weights : Weights K) (sid : String) : Num K := (weights.get sid).join

/-- `returns_df[sid]`; the frame has all the ids. -/
def columnSeries (frame : Frame K) (sid : String) : Series K :=
  Series.ofIndex frame.index frame.sorted ((frame.column sid).getD fun _ => 0)

/-- The metrics of a combined series, with the leverage and the position that are checked. -/
def trialMetrics (sqrt : K → K) (leverage positionSize : K) (weights : Weights K)
    (combined : Series K) : Metrics K :=
  if combined.rows = [] then emptyMetrics leverage positionSize
  else
    let core := computeSeriesMetrics sqrt combined.toReturns none
    { totalReturn := some core.totalReturn
      sharpe := some core.sharpe
      sortino := some core.sortino
      maxDrawdown := some core.maxDrawdown
      totalLeverage := some ((sum (weights.values.map magnitude)).map fun s => leverage * s)
      maxPosition := some (maximum (weights.values.map magnitude)) }

/-- The trial behind the allocator. -/
def trialRun (sqrt : K → K) (memberStrategyIds : List String) (riskParams : RiskParams K)
    (frame : Frame K) (rawWeights : Weights K) : TrialRun K :=
  let leverage := riskParams.leverage.getD 1
  let positionSize := riskParams.positionSize.getD 0
  let weights := capWeights positionSize rawWeights
  let combined := combineWeightedReturns
    (memberStrategyIds.map fun sid => (weightOf weights sid, (columnSeries frame sid).toReturns))
    leverage
  { rawWeights := rawWeights
    weights := weights
    combined := combined
    metrics := trialMetrics sqrt leverage positionSize weights combined }

/-- The allocator, with equal weights when it raises a `ValueError`. -/
def allocate (sqrt : K → K) (name : Option Allocator) (memberStrategyIds : List String)
    (frame : Frame K) : Except AllocatorError (Weights K) :=
  match Allocator.compute sqrt name memberStrategyIds frame with
  | .error (.valueError _) => equalWeight memberStrategyIds
  | result => result

/-- `_aggregate_returns_trial`; `none` when there are no data. -/
def scoreTrial (sqrt : K → K) (memberStrategyIds : List String) (name : Option Allocator)
    (riskParams : RiskParams K) (startDate endDate : ℤ) (cache : Dict String (Series K)) :
    Except AllocatorError (Option (TrialRun K)) := do
  if memberStrategyIds = [] then return none
  if endDate < startDate then return none
  let frame := trialFrame memberStrategyIds startDate endDate cache
  if frame.isEmpty then return none
  let rawWeights ← allocate sqrt name memberStrategyIds frame
  return some (trialRun sqrt memberStrategyIds riskParams frame rawWeights)

/-- `_aggregate_returns_trial` as the optimizer sees it. -/
def aggregateReturnsTrial (sqrt : K → K) (memberStrategyIds : List String)
    (name : Option Allocator) (riskParams : RiskParams K) (startDate endDate : ℤ)
    (cache : Dict String (Series K)) : Except AllocatorError (Metrics K) := do
  let run ← scoreTrial sqrt memberStrategyIds name riskParams startDate endDate cache
  match run with
  | some run => return run.metrics
  | none => return emptyMetrics (riskParams.leverage.getD 0) (riskParams.positionSize.getD 0)

end Trial

/-! ### The trial behind the allocator -/

section Run

variable [Field K] [LinearOrder K] {sqrt : K → K} {ids : List String} {f : Frame K}
  {riskParams : RiskParams K} {v : String → Num K} {p : K} {sid : String} {t : ℤ}

omit [Field K] [LinearOrder K] in
theorem weightOf_weightsOf (h : sid ∈ ids) : weightOf (weightsOf ids v) sid = v sid := by
  unfold weightOf
  rw [weightsOf_get h]
  rfl

omit [Field K] [LinearOrder K] in
theorem values_weightsOf : (weightsOf ids v).values = (firstSeen id ids).map v := by
  unfold Dict.values weightsOf
  rw [List.map_map]
  rfl

theorem capWeights_weightsOf :
    capWeights p (weightsOf ids v) = weightsOf ids fun sid => capWeight p (v sid) := by
  unfold capWeights weightsOf
  rw [List.map_map]
  rfl

omit [LinearOrder K] in
theorem columnSeries_index : (columnSeries f sid).index = f.index := Series.ofIndex_index

/-- The combined series behind weights for the ids. -/
theorem combined_eq (sqrt : K → K) (riskParams : RiskParams K) (f : Frame K)
    (v : String → Num K) (hids : ids ≠ []) :
    (trialRun sqrt ids riskParams f (weightsOf ids v)).combined
      = Series.ofIndex f.index f.sorted fun t =>
          (ids.map fun sid => weightedEntry (capWeight (riskParams.positionSize.getD 0) (v sid))
            (columnSeries f sid) t).sum * riskParams.leverage.getD 1 := by
  unfold trialRun
  dsimp only
  rw [capWeights_weightsOf, combine_sameIndex f.sorted hids fun _ _ => columnSeries_index]
  have hweight : ∀ t, (ids.map fun sid => weightedEntry (weightOf (weightsOf ids fun sid =>
        capWeight (riskParams.positionSize.getD 0) (v sid)) sid) (columnSeries f sid) t)
      = ids.map fun sid => weightedEntry (capWeight (riskParams.positionSize.getD 0) (v sid))
          (columnSeries f sid) t := by
    intro t
    refine List.map_congr_left fun sid hsid => ?_
    rw [weightOf_weightsOf hsid]
  simp only [hweight]

theorem combined_index (hids : ids ≠ []) :
    (trialRun sqrt ids riskParams f (weightsOf ids v)).combined.index = f.index := by
  rw [combined_eq _ _ _ _ hids, Series.ofIndex_index]

/-- The weight of a member, behind the position cap. -/
theorem weightOf_trialRun (h : sid ∈ ids) :
    weightOf (trialRun sqrt ids riskParams f (weightsOf ids v)).weights sid
      = capWeight (riskParams.positionSize.getD 0) (v sid) := by
  show weightOf (capWeights _ (weightsOf _ _)) _ = _
  rw [capWeights_weightsOf, weightOf_weightsOf h]

/-- The combined return at a timestamp, with numbers for weights. -/
theorem combined_get {y : String → K} (hids : ids ≠ []) (ht : t ∈ f.index)
    (hy : ∀ sid ∈ ids, capWeight (riskParams.positionSize.getD 0) (v sid) = some (y sid)) :
    (trialRun sqrt ids riskParams f (weightsOf ids v)).combined.get t
      = some ((ids.map fun sid => y sid * ((f.column sid).getD fun _ => 0) t).sum
          * riskParams.leverage.getD 1) := by
  rw [combined_eq _ _ _ _ hids, Series.ofIndex_get ht]
  congr 3
  refine List.map_congr_left fun sid hsid => ?_
  unfold weightedEntry columnSeries
  rw [hy sid hsid, Series.ofIndex_get ht]
  exact mul_comm _ _

theorem combined_rows (hids : ids ≠ []) (hindex : f.index ≠ []) :
    (trialRun sqrt ids riskParams f (weightsOf ids v)).combined.rows ≠ [] := by
  rw [combined_eq _ _ _ _ hids]
  exact List.map_eq_nil_iff.not.mpr hindex

/-- The leverage and the position that are reported: over the dictionary. -/
theorem reported_eq (sqrt : K → K) (riskParams : RiskParams K) (v : String → Num K)
    (hids : ids ≠ []) (hindex : f.index ≠ []) :
    (trialRun sqrt ids riskParams f (weightsOf ids v)).metrics.totalLeverage
        = some ((sum ((firstSeen id ids).map fun sid =>
            magnitude (capWeight (riskParams.positionSize.getD 0) (v sid)))).map
            fun s => riskParams.leverage.getD 1 * s) ∧
      (trialRun sqrt ids riskParams f (weightsOf ids v)).metrics.maxPosition
        = some (maximum ((firstSeen id ids).map fun sid =>
            magnitude (capWeight (riskParams.positionSize.getD 0) (v sid)))) := by
  have hrows : (trialRun sqrt ids riskParams f (weightsOf ids v)).combined.rows ≠ [] :=
    combined_rows hids hindex
  have hvalues : (capWeights (riskParams.positionSize.getD 0) (weightsOf ids v)).values.map
      magnitude = (firstSeen id ids).map fun sid =>
        magnitude (capWeight (riskParams.positionSize.getD 0) (v sid)) := by
    rw [capWeights_weightsOf, values_weightsOf, List.map_map]
    rfl
  rw [← hvalues]
  show (trialMetrics sqrt _ _ _ (trialRun sqrt ids riskParams f (weightsOf ids v)).combined
      ).totalLeverage = _ ∧
    (trialMetrics sqrt _ _ _ (trialRun sqrt ids riskParams f (weightsOf ids v)).combined
      ).maxPosition = _
  unfold trialMetrics
  rw [if_neg hrows]
  exact ⟨rfl, rfl⟩

end Run

/-! ### The list of allocations -/

/-- `member_strategy_ids`. -/
def memberStrategyIds (results : List (CandidateResult K)) : List String :=
  results.map CandidateResult.strategyId

/-- The frame of a trial of these allocations. -/
abbrev windowFrame [Zero K] (results : List (CandidateResult K)) (startDate endDate : ℤ) :
    Frame K :=
  trialFrame (memberStrategyIds results) startDate endDate (returnsCache results)

/-- The series of an allocation's own backtest. -/
def CandidateResult.ownSeries (r : CandidateResult K) : Series K :=
  if r.usable then r.series else .empty

/-- The return of an allocation's own backtest at a timestamp of a window; 0 where it has none. -/
def ownReturn [Zero K] (r : CandidateResult K) (startDate endDate t : ℤ) : K :=
  ((sliceCachedReturns r.ownSeries startDate endDate).get t).getD 0

/-- The trial trades and reports the weights of the list of allocations. -/
structure Faithful [Field K] [LinearOrder K] (name : Option Allocator)
    (results : List (CandidateResult K)) (leverage : K) (startDate endDate : ℤ)
    (run : TrialRun K) : Prop where
  /-- Each combined return is the leverage times the sum of weight and own return. -/
  combined : ∀ t ∈ run.combined.index, run.combined.get t
    = (sum (results.map fun r => (weightOf run.weights r.strategyId).map fun w =>
        w * ownReturn r startDate endDate t)).map fun s => leverage * s
  /-- The leverage that is reported is the leverage times the sum of the weights' magnitudes. -/
  totalLeverage : run.metrics.totalLeverage
    = some ((sum (results.map fun r => magnitude (weightOf run.weights r.strategyId))).map
        fun s => leverage * s)
  /-- Before the position cap the weights add up to 1. -/
  normalized : allocatorCls name = .equalWeight ∨ allocatorCls name = .inverseVol →
    sum (results.map fun r => weightOf run.rawWeights r.strategyId) = some 1

section Frames

variable {results : List (CandidateResult K)} {ids : List String} {startDate endDate : ℤ}
  {cache : Dict String (Series K)} {sid : String}

/-- Without a repeated strategy the cache has each allocation's own series. -/
theorem cache_own {r : CandidateResult K} (hnodup : (memberStrategyIds results).Nodup)
    (hr : r ∈ results) : ((returnsCache results).get r.strategyId).getD .empty = r.ownSeries := by
  have hkey : ∀ (r : CandidateResult K) p, r.cacheEntry = some p → p.1 = r.strategyId := by
    intro r p hp
    unfold CandidateResult.cacheEntry at hp
    split at hp
    · rw [← Option.some.inj hp]
    · cases hp
  unfold returnsCache
  rw [Dict.get_build_of_nodup hkey hnodup hr]
  unfold CandidateResult.cacheEntry CandidateResult.ownSeries
  split
  · rfl
  · rfl

variable [Zero K]

theorem trialFrame_column (h : sid ∈ ids) :
    (trialFrame ids startDate endDate cache).column sid = some fun t =>
      ((sliceCachedReturns ((cache.get sid).getD .empty) startDate endDate).get t).getD 0 := by
  unfold trialFrame
  rw [Frame.column_ofSeries, Dict.get_ofKeys (mem_firstSeen_id.mpr h)]
  rfl

theorem trialFrame_covers (h : (trialFrame ids startDate endDate cache).index ≠ []) :
    (trialFrame ids startDate endDate cache).Covers ids :=
  ⟨h, fun sid hsid => by rw [trialFrame_column hsid]; rfl⟩

/-- A frame with a row has a member. -/
theorem trialFrame_ids (h : (trialFrame ids startDate endDate cache).index ≠ []) : ids ≠ [] := by
  rintro rfl
  exact h rfl

/-- The rows of the frame are those of the cache in the window. -/
theorem mem_trialFrame_index {t : ℤ} :
    t ∈ (trialFrame ids startDate endDate cache).index ↔
      ∃ sid ∈ ids, t ∈ ((cache.get sid).getD .empty).index ∧
        startDate * nsPerDay ≤ t ∧ t ≤ endDate * nsPerDay + nsPerDay - 1 := by
  have hvalues : Dict.values ((firstSeen id ids).map fun sid =>
      (sid, sliceCachedReturns ((cache.get sid).getD .empty) startDate endDate))
      = (firstSeen id ids).map fun sid =>
          sliceCachedReturns ((cache.get sid).getD .empty) startDate endDate := by
    unfold Dict.values
    rw [List.map_map]
    rfl
  unfold trialFrame Frame.ofSeries
  rw [mem_unionIndex, hvalues]
  constructor
  · rintro ⟨s, hs, ht⟩
    obtain ⟨sid, hsid, rfl⟩ := List.mem_map.mp hs
    exact ⟨sid, mem_firstSeen_id.mp hsid, Series.mem_between.mp ht⟩
  · rintro ⟨sid, hsid, ht⟩
    exact ⟨_, List.mem_map.mpr ⟨sid, mem_firstSeen_id.mpr hsid, rfl⟩, Series.mem_between.mpr ht⟩

/-- And its window has a day. -/
theorem trialFrame_dates (h : (trialFrame ids startDate endDate cache).index ≠ []) :
    ¬ endDate < startDate := by
  intro hlt
  obtain ⟨t, ht⟩ := List.exists_mem_of_ne_nil _ h
  obtain ⟨sid, -, -, hlow, hhigh⟩ := mem_trialFrame_index.mp ht
  have hle : endDate ≤ startDate - 1 := by omega
  have hns : endDate * nsPerDay ≤ (startDate - 1) * nsPerDay :=
    mul_le_mul_of_nonneg_right hle (by decide)
  rw [sub_mul, one_mul] at hns
  omega

end Frames

section Score

variable [Field K] [LinearOrder K] {sqrt : K → K} {ids : List String} {name : Option Allocator}
  {riskParams : RiskParams K} {startDate endDate : ℤ} {cache : Dict String (Series K)}

/-- Without a row nothing is scored. -/
theorem scoreTrial_none (h : (trialFrame ids startDate endDate cache).index = []) :
    scoreTrial sqrt ids name riskParams startDate endDate cache = .ok none := by
  have hempty : (trialFrame ids startDate endDate cache).isEmpty = true := by
    unfold Frame.isEmpty
    rw [h]
    rfl
  unfold scoreTrial
  dsimp only
  rw [if_pos hempty]
  split
  · rfl
  · split
    · rfl
    · rfl

/-- With a row the trial runs on what the allocator returns. -/
theorem scoreTrial_some (riskParams : RiskParams K) {w : Weights K}
    (h : (trialFrame ids startDate endDate cache).index ≠ [])
    (hcompute : Allocator.compute sqrt name ids (trialFrame ids startDate endDate cache) = .ok w) :
    scoreTrial sqrt ids name riskParams startDate endDate cache
      = .ok (some (trialRun sqrt ids riskParams (trialFrame ids startDate endDate cache) w)) := by
  have hids := trialFrame_ids h
  have hempty := (trialFrame_covers h).not_isEmpty hids
  unfold scoreTrial allocate
  dsimp only
  rw [if_neg hids, if_neg (trialFrame_dates h), hempty, if_neg Bool.false_ne_true, hcompute]
  rfl

end Score

/-! ### Faithful trials -/

section Caps

variable [Field K] [LinearOrder K] {p x : K}

/-- The position cap on a number. -/
def capNumber (positionSize x : K) : K := if 0 < positionSize then min |x| positionSize else x

theorem capWeight_some : capWeight p (some x) = some (capNumber p x) := by
  unfold capWeight capNumber
  split
  · rfl
  · rfl

theorem capWeight_none : capWeight p (none : Num K) = none := by
  unfold capWeight
  split
  · rfl
  · rfl

theorem capNumber_pos [IsStrictOrderedRing K] (h : 0 < x) : 0 < capNumber p x := by
  unfold capNumber
  split
  · rename_i hp
    exact lt_min (abs_pos.mpr h.ne') hp
  · exact h

theorem capNumber_le [IsStrictOrderedRing K] (h : 0 < x) : capNumber p x ≤ x := by
  unfold capNumber
  split
  · exact (min_le_left _ _).trans_eq (abs_of_pos h)
  · exact le_rfl

end Caps

section Faithfulness

variable {results : List (CandidateResult ℝ)} {name : Option Allocator} {riskParams : RiskParams ℝ}
  {startDate endDate : ℤ} {f : Frame ℝ} {x y : String → ℝ}

/-- Numbers for the allocations, as numbers for their strategies. -/
theorem sum_members :
    (results.map fun r => y r.strategyId).sum = ((memberStrategyIds results).map y).sum := by
  unfold memberStrategyIds
  rw [List.map_map]
  rfl

theorem mem_members {r : CandidateResult ℝ} (hr : r ∈ results) :
    r.strategyId ∈ memberStrategyIds results := List.mem_map.mpr ⟨r, hr, rfl⟩

/-- With positive weights, what the trial says about itself are equations between numbers. -/
theorem faithful_iff (hids : memberStrategyIds results ≠ []) (hindex : f.index ≠ [])
    (hy : ∀ sid, capNumber (riskParams.positionSize.getD 0) (x sid) = y sid)
    (hpos : ∀ sid ∈ memberStrategyIds results, 0 < y sid) :
    Faithful name results (riskParams.leverage.getD 1) startDate endDate
        (trialRun Real.sqrt (memberStrategyIds results) riskParams f
          (weightsOf (memberStrategyIds results) fun sid => some (x sid))) ↔
      (∀ t ∈ f.index,
        (results.map fun r => y r.strategyId * ((f.column r.strategyId).getD fun _ => 0) t).sum
            * riskParams.leverage.getD 1
          = riskParams.leverage.getD 1
            * (results.map fun r => y r.strategyId * ownReturn r startDate endDate t).sum) ∧
      riskParams.leverage.getD 1 * ((firstSeen id (memberStrategyIds results)).map y).sum
        = riskParams.leverage.getD 1 * ((memberStrategyIds results).map y).sum ∧
      (allocatorCls name = .equalWeight ∨ allocatorCls name = .inverseVol →
        ((memberStrategyIds results).map x).sum = 1) := by
  let run := trialRun Real.sqrt (memberStrategyIds results) riskParams f
    (weightsOf (memberStrategyIds results) fun sid => some (x sid))
  have hcapped : ∀ sid, capWeight (riskParams.positionSize.getD 0) (some (x sid)) = some (y sid) :=
    fun sid => capWeight_some.trans (congrArg some (hy sid))
  have hweight : ∀ r ∈ results, weightOf run.weights r.strategyId = some (y r.strategyId) :=
    fun r hr => (weightOf_trialRun (mem_members hr)).trans (hcapped _)
  have hmagnitude : ∀ sid ∈ memberStrategyIds results, magnitude (some (y sid)) = some (y sid) :=
    fun sid hsid => congrArg some (abs_of_pos (hpos sid hsid))
  have hrun : run.combined.index = f.index := combined_index hids
  have hget : ∀ t ∈ f.index, run.combined.get t = some ((results.map fun r =>
      y r.strategyId * ((f.column r.strategyId).getD fun _ => 0) t).sum
        * riskParams.leverage.getD 1) := by
    intro t ht
    show (trialRun _ _ _ _ _).combined.get t = _
    rw [combined_get hids ht fun sid _ => hcapped sid, ← sum_members]
  have hown : ∀ t, sum (results.map fun r => (weightOf run.weights r.strategyId).map fun w =>
      w * ownReturn r startDate endDate t)
      = some (results.map fun r => y r.strategyId * ownReturn r startDate endDate t).sum := by
    intro t
    refine sum_map_of_some fun r hr => ?_
    rw [hweight r hr]
    rfl
  have hlist : sum (results.map fun r => magnitude (weightOf run.weights r.strategyId))
      = some ((memberStrategyIds results).map y).sum := by
    rw [← sum_members]
    refine sum_map_of_some fun r hr => ?_
    rw [hweight r hr, hmagnitude _ (mem_members hr)]
  have hdict : run.metrics.totalLeverage = some (some (riskParams.leverage.getD 1
      * ((firstSeen id (memberStrategyIds results)).map y).sum)) := by
    have hsum : sum ((firstSeen id (memberStrategyIds results)).map fun sid =>
        magnitude (capWeight (riskParams.positionSize.getD 0) (some (x sid))))
        = some ((firstSeen id (memberStrategyIds results)).map y).sum := by
      refine sum_map_of_some fun sid hsid => ?_
      rw [hcapped, hmagnitude sid (mem_firstSeen_id.mp hsid)]
    show (trialRun _ _ _ _ _).metrics.totalLeverage = _
    rw [(reported_eq _ _ _ hids hindex).1, hsum]
    rfl
  have hnormal : sum (results.map fun r => weightOf run.rawWeights r.strategyId)
      = some ((memberStrategyIds results).map x).sum := by
    rw [← sum_members]
    exact sum_map_of_some fun r hr => weightOf_weightsOf (mem_members hr)
  show Faithful name results _ startDate endDate run ↔ _
  constructor
  · intro h
    refine ⟨fun t ht => ?_, ?_, fun hname => ?_⟩
    · have heq := h.combined t (hrun ▸ ht)
      rw [hget t ht, hown t] at heq
      exact Option.some.inj heq
    · have heq := h.totalLeverage
      rw [hdict, hlist] at heq
      exact Option.some.inj (Option.some.inj heq)
    · exact Option.some.inj (hnormal.symm.trans (h.normalized hname))
  · rintro ⟨hcombined, hleverage, hone⟩
    refine ⟨fun t ht => ?_, ?_, fun hname => ?_⟩
    · rw [hget t (hrun ▸ ht), hown t]
      exact congrArg some (hcombined t (hrun ▸ ht))
    · rw [hdict, hlist]
      exact congrArg (fun s => some (some s)) hleverage
    · rw [hnormal, hone hname]

/-- With NaN for weights the combined returns are zeros, and the trial is not faithful. -/
theorem not_faithful_nan (hids : memberStrategyIds results ≠ []) (hindex : f.index ≠ []) :
    ¬ Faithful name results (riskParams.leverage.getD 1) startDate endDate
        (trialRun Real.sqrt (memberStrategyIds results) riskParams f
          (weightsOf (memberStrategyIds results) fun _ => none)) := by
  intro h
  obtain ⟨t, ht⟩ := List.exists_mem_of_ne_nil _ hindex
  obtain ⟨r, hr⟩ := List.exists_mem_of_ne_nil results
    fun hnil => hids (List.map_eq_nil_iff.mpr hnil)
  have hcombined := combined_eq Real.sqrt riskParams f (fun _ => none) hids
  have hnan : weightOf (trialRun Real.sqrt (memberStrategyIds results) riskParams f
      (weightsOf (memberStrategyIds results) fun _ => none)).weights r.strategyId = none :=
    (weightOf_trialRun (mem_members hr)).trans capWeight_none
  have heq := h.combined t (by rwa [combined_index hids])
  rw [sum_eq_none (List.mem_map.mpr ⟨r, hr, ?_⟩), hcombined, Series.ofIndex_get ht] at heq
  · cases heq
  · rw [hnan]
    rfl

end Faithfulness

/-! ### Which trials are faithful -/

section Main

variable {results : List (CandidateResult ℝ)} {name : Option Allocator} {riskParams : RiskParams ℝ}
  {startDate endDate : ℤ}

/-- The column of an allocation, when no strategy is repeated. -/
theorem column_own (hnodup : (memberStrategyIds results).Nodup) {r : CandidateResult ℝ}
    (hr : r ∈ results) (t : ℤ) :
    (((windowFrame results startDate endDate).column r.strategyId).getD fun _ => 0) t
      = ownReturn r startDate endDate t := by
  rw [trialFrame_column (mem_members hr), Option.getD_some, cache_own hnodup hr]
  rfl

/-- No trial fails. -/
theorem scoreTrial_total (results : List (CandidateResult ℝ)) (name : Option Allocator)
    (riskParams : RiskParams ℝ) (startDate endDate : ℤ) :
    ∃ result, scoreTrial Real.sqrt (memberStrategyIds results) name riskParams startDate endDate
      (returnsCache results) = .ok result := by
  by_cases hindex : (windowFrame results startDate endDate).index = []
  · exact ⟨none, scoreTrial_none hindex⟩
  · have hids := trialFrame_ids hindex
    have hcovers := trialFrame_covers hindex
    by_cases hvol : HasVol name (windowFrame results startDate endDate)
    · obtain ⟨x, hx, -⟩ := exists_weighs hvol hcovers hids
      exact ⟨_, scoreTrial_some _ hindex hx.compute⟩
    · obtain ⟨hname, hrows⟩ := not_or.mp hvol
      exact ⟨_, scoreTrial_some _ hindex (compute_nan hname hcovers hids (not_le.mp hrows))⟩

/-- With positive weights a trial is faithful just when no strategy is repeated, or nothing is
    traded and the weights add up all the same. -/
theorem faithful_scored (riskParams : RiskParams ℝ)
    (hindex : (windowFrame results startDate endDate).index ≠ [])
    (hvol : HasVol name (windowFrame results startDate endDate)) :
    ∃ run, scoreTrial Real.sqrt (memberStrategyIds results) name riskParams startDate endDate
        (returnsCache results) = .ok (some run) ∧
      (Faithful name results (riskParams.leverage.getD 1) startDate endDate run ↔
        (memberStrategyIds results).Nodup ∨
          riskParams.leverage.getD 1 = 0 ∧
            (allocatorCls name = .inverseVol → hasZeroVol Real.sqrt (memberStrategyIds results)
              (windowFrame results startDate endDate) = true)) := by
  have hids := trialFrame_ids hindex
  obtain ⟨x, hx, hlist, hdict, -⟩ := exists_weighs hvol (trialFrame_covers hindex) hids
  have hpos : ∀ sid ∈ memberStrategyIds results,
      0 < capNumber (riskParams.positionSize.getD 0) (x sid) :=
    fun sid hsid => capNumber_pos (hx.pos sid hsid)
  refine ⟨_, scoreTrial_some _ hindex hx.compute, ?_⟩
  rw [faithful_iff hids hindex (fun sid => rfl) hpos]
  constructor
  · rintro ⟨-, hleverage, hone⟩
    by_cases hnodup : (memberStrategyIds results).Nodup
    · exact Or.inl hnodup
    · -- a repeated strategy counts once in the report
      have hlt := sum_firstSeen_lt hpos hnodup
      refine Or.inr ⟨?_, fun hinv => ?_⟩
      · by_contra hne
        exact hlt.ne (mul_left_cancel₀ hne hleverage)
      · by_contra hzero
        have hsum := hdict ⟨hinv, Bool.eq_false_iff.mpr hzero⟩
        exact (sum_firstSeen_lt hx.pos hnodup).ne (hsum.trans (hone (Or.inr hinv)).symm)
  · rintro (hnodup | ⟨hzero, hinv⟩)
    · rw [firstSeen_eq_self hnodup] at hdict ⊢
      refine ⟨fun t _ => ?_, rfl, fun hname => ?_⟩
      · rw [mul_comm]
        congr 2
        exact List.map_congr_left fun r hr => by rw [column_own hnodup hr]
      · by_cases hzero : hasZeroVol Real.sqrt (memberStrategyIds results)
            (windowFrame results startDate endDate) = true
        · exact hlist (hname.imp_right fun h => ⟨h, hzero⟩)
        · rcases hname with heq | hinv
          · exact hlist (Or.inl heq)
          · exact hdict ⟨hinv, Bool.eq_false_iff.mpr hzero⟩
    · rw [hzero]
      refine ⟨fun t _ => by rw [mul_zero, zero_mul], by rw [zero_mul, zero_mul], fun hname => ?_⟩
      exact hlist (hname.imp_right fun h => ⟨h, hinv h⟩)

/-- **A trial is faithful** just when it scores nothing, or: the allocator has the rows it needs,
    and no two allocations share a strategy. -/
theorem trial_faithful (results : List (CandidateResult ℝ)) (name : Option Allocator)
    (riskParams : RiskParams ℝ) (startDate endDate : ℤ) :
    (∀ run, scoreTrial Real.sqrt (memberStrategyIds results) name riskParams startDate endDate
        (returnsCache results) = .ok (some run) →
      Faithful name results (riskParams.leverage.getD 1) startDate endDate run) ↔
    (windowFrame results startDate endDate).index = [] ∨
      HasVol name (windowFrame results startDate endDate) ∧
        ((memberStrategyIds results).Nodup ∨
          -- nothing is traded, and the weights add up all the same
          riskParams.leverage.getD 1 = 0 ∧
            (allocatorCls name = .inverseVol → hasZeroVol Real.sqrt (memberStrategyIds results)
              (windowFrame results startDate endDate) = true)) := by
  by_cases hindex : (windowFrame results startDate endDate).index = []
  · refine iff_of_true (fun run hrun => ?_) (Or.inl hindex)
    rw [scoreTrial_none hindex] at hrun
    cases hrun
  rw [or_iff_right hindex]
  by_cases hvol : HasVol name (windowFrame results startDate endDate)
  · obtain ⟨run, hscore, hiff⟩ := faithful_scored riskParams hindex hvol
    rw [and_iff_right hvol, ← hiff]
    constructor
    · exact fun h => h run hscore
    · intro h run' hrun'
      obtain rfl := Option.some.inj (Except.ok.inj (hscore.symm.trans hrun'))
      exact h
  · obtain ⟨hname, hrows⟩ := not_or.mp hvol
    have hids := trialFrame_ids hindex
    have hscore := scoreTrial_some riskParams hindex
      (compute_nan hname (trialFrame_covers hindex) hids (not_le.mp hrows))
    refine iff_of_false (fun h => not_faithful_nan hids hindex (h _ hscore)) ?_
    exact fun h => hvol h.1

end Main

/-- Two allocations of one strategy, with different returns. -/
def sharedStrategy (K : Type) [Field K] : List (CandidateResult K) :=
  [{ strategyId := "s", weight := 0.5, timestamps := [0], returns := [0.1],
     nodup := List.nodup_singleton 0 },
   { strategyId := "s", weight := 0.5, timestamps := [0], returns := [0.2],
     nodup := List.nodup_singleton 0 }]

/-- An allocation with a single return. -/
def oneReturn (K : Type) [Field K] : List (CandidateResult K) :=
  [{ strategyId := "s", weight := 1, timestamps := [0], returns := [0.1],
     nodup := List.nodup_singleton 0 }]

/-- The last of two allocations of one strategy is traded for both, and half the leverage is
    reported; over a single row nothing is traded and NaN is reported. -/
theorem trial_faithful_fails :
    (∃ run, scoreTrial Real.sqrt (memberStrategyIds (sharedStrategy ℝ)) (some .equalWeight)
        ⟨some 1, some 1⟩ 0 0 (returnsCache (sharedStrategy ℝ)) = .ok (some run) ∧
      run.combined.get 0 = some 0.2 ∧ run.metrics.totalLeverage = some (some (1 / 2)) ∧
      ¬ Faithful (some .equalWeight) (sharedStrategy ℝ) 1 0 0 run) ∧
    ∃ run, scoreTrial Real.sqrt (memberStrategyIds (oneReturn ℝ)) (some .inverseVol)
        ⟨some 1, some 1⟩ 0 0 (returnsCache (oneReturn ℝ)) = .ok (some run) ∧
      run.combined.get 0 = some 0 ∧ run.metrics.totalLeverage = some none ∧
      ¬ Faithful (some .inverseVol) (oneReturn ℝ) 1 0 0 run := by
  let risk : RiskParams ℝ := ⟨some 1, some 1⟩
  constructor
  · let ids := memberStrategyIds (sharedStrategy ℝ)
    let f := windowFrame (sharedStrategy ℝ) 0 0
    let x (_ : String) : ℝ := 1 / (ids.length : ℝ)
    let y (_ : String) : ℝ := 1 / 2
    let run := trialRun Real.sqrt ids risk f (weightsOf ids fun sid => some (x sid))
    have hindex : f.index ≠ [] := List.cons_ne_nil 0 []
    have hids : ids ≠ [] := trialFrame_ids hindex
    have hy : ∀ sid, capNumber (risk.positionSize.getD 0) (x sid) = y sid := by
      intro sid
      show (if (0 : ℝ) < 1 then min |1 / ((["s", "s"] : List String).length : ℝ)| 1 else _) = 1 / 2
      norm_num
    have hcap : ∀ sid, capWeight (risk.positionSize.getD 0) (some (x sid)) = some (y sid) :=
      fun sid => capWeight_some.trans (congrArg some (hy sid))
    have hget : run.combined.get 0 = some 0.2 := by
      refine (combined_get hids (List.mem_singleton_self 0) fun sid _ => hcap sid).trans ?_
      show some (([1 / 2 * 0.2, 1 / 2 * 0.2] : List ℝ).sum * 1) = some 0.2
      norm_num
    have htotal : run.metrics.totalLeverage = some (some (1 / 2)) := by
      refine (reported_eq _ _ _ hids hindex).1.trans ?_
      show some ((sum [magnitude (capWeight (risk.positionSize.getD 0) (some (x "s")))]).map
        fun s => 1 * s) = _
      rw [hcap "s"]
      show some (some (1 * (|1 / 2| + 0))) = some (some (1 / 2 : ℝ))
      norm_num
    refine ⟨run, scoreTrial_some _ hindex (compute_equalWeight rfl hids), hget, htotal, fun h => ?_⟩
    obtain ⟨-, hleverage, -⟩ := (faithful_iff hids hindex hy fun _ _ => one_half_pos).mp h
    have heq : (1 : ℝ) * ([1 / 2] : List ℝ).sum = 1 * ([1 / 2, 1 / 2] : List ℝ).sum := hleverage
    norm_num at heq
  · let ids := memberStrategyIds (oneReturn ℝ)
    let f := windowFrame (oneReturn ℝ) 0 0
    let run := trialRun Real.sqrt ids risk f (weightsOf ids fun _ => none)
    have hindex : f.index ≠ [] := List.cons_ne_nil 0 []
    have hids : ids ≠ [] := trialFrame_ids hindex
    have hcompute : Allocator.compute Real.sqrt (some .inverseVol) ids f
        = .ok (weightsOf ids fun _ => none) :=
      compute_nan (by decide) (trialFrame_covers hindex) hids (by decide +kernel)
    have hnan : capWeight (risk.positionSize.getD 0) (none : Num ℝ) = none := capWeight_none
    have hget : run.combined.get 0 = some 0 := by
      have hmem : (0 : ℤ) ∈ f.index := List.mem_singleton_self 0
      show (trialRun _ _ _ _ _).combined.get 0 = _
      rw [combined_eq _ _ _ _ hids, Series.ofIndex_get hmem, hnan]
      show some (([0] : List ℝ).sum * 1) = some 0
      norm_num
    have htotal : run.metrics.totalLeverage = some none := by
      refine (reported_eq _ _ _ hids hindex).1.trans ?_
      rw [hnan]
      rfl
    have hnot : ¬ Faithful (some .inverseVol) (oneReturn ℝ) (risk.leverage.getD 1) 0 0 run :=
      not_faithful_nan hids hindex
    exact ⟨run, scoreTrial_some _ hindex hcompute, hget, htotal, hnot⟩

end Msai.Portfolio.FullMode
