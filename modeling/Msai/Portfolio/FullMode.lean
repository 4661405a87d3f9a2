import Msai.Portfolio.Trial

namespace Msai.Portfolio.FullMode

open Msai.Lib Msai.Lib.PyFloat Msai.Analytics Optimizer

/-!
# The weights of Full mode (`services/portfolio/orchestration.py`)

Behind the optimizer Full mode computes the weights once more, over all the returns, and stores
them in `run.allocations`.

* `fullModeEnv`, `runFullMode` — the optimizer with the trial of Full mode, and the run;
* `fullWindowWeights`, `persistedWeights` — the weights over all the returns, and what is stored
  for each allocation;
* `Respects` — the stored weights keep to the caps that the trials are held against;
* `full_mode_weights` — when they do.

The lengths of the walk-forward ranges are those that `_scaled_walk_forward_params` returns.
-/

section Run

variable {K : Type} [Field K] [LinearOrder K]

/-- What a run of Full mode is given. -/
structure FullModeInput (K : Type) where
  /-- The backtests of the allocations. -/
  results : List (CandidateResult K)
  allocatorName : Option Allocator
  objective : PortfolioObjective
  safetyCaps : SafetyCaps K
  startDate : ℤ
  endDate : ℤ
  trainDays : ℤ
  testDays : ℤ
  stepDays : ℤ
  nTrials : ℕ
  suggest : ℕ → SearchSpace K → Except String (Params K)
  cancelCheck : ℕ → Bool
  tellRaises : ℕ → Option String

/-- The text of the exception. -/
def allocatorMessage : AllocatorError → String
  | .valueError message => message
  | .keyError key => "'" ++ key ++ "'"

/-- `_trial_body`. -/
def trialBody (sqrt : K → K) (results : List (CandidateResult K)) (name : Option Allocator)
    (params : Params K) (startDate endDate : ℤ) : Except (TrialError K) (Metrics K) :=
  match aggregateReturnsTrial sqrt (memberStrategyIds results) name
      { leverage := some params.leverage, positionSize := some params.positionSize }
      startDate endDate (returnsCache results) with
  | .ok metrics => .ok metrics
  | .error e => .error (.exception (allocatorMessage e))

/-- What the optimizer is given. -/
def fullModeEnv (sqrt : K → K) (input : FullModeInput K) : Env K where
  objective := input.objective
  safetyCaps := input.safetyCaps
  suggest := input.suggest
  portfolioBacktestFn := some fun _ _ params startDate endDate =>
    trialBody sqrt input.results input.allocatorName params startDate endDate
  cancelCheck := input.cancelCheck
  tellRaises := input.tellRaises

/-- `full_window_returns_df`. -/
def fullWindowFrame (results : List (CandidateResult K)) : Frame K :=
  Frame.ofSeries (returnsCache results)

/-- `full_window_weights`. -/
def fullWindowWeights (sqrt : K → K) (results : List (CandidateResult K)) (name : Option Allocator)
    (bestConfig : Option (Params K)) : Except AllocatorError (Weights K) :=
  match Allocator.compute sqrt name (returnsCache results).keys (fullWindowFrame results) with
  | .ok weights => .ok (capWeights ((bestConfig.map Params.positionSize).getD 0) weights)
  | .error (.valueError _) => .ok []
  | .error e => .error e

/-- The weights of `full_mode_allocations`, in the order of the allocations. -/
def persistedWeights (results : List (CandidateResult K)) (weights : Weights K) : List (Num K) :=
  results.map fun r => (weights.get r.strategyId).getD (some r.weight)

/-- `_run_full_mode`: the best configuration with the weights of `run.allocations`. -/
def runFullMode (sqrt : K → K) (input : FullModeInput K) :
    Except String (Option (Params K) × List (Num K)) :=
  if input.results = [] then .error "Portfolio has no allocations"
  else do
    let (result, _) ← runPortfolioWalkForward (fullModeEnv sqrt input) input.startDate
      input.endDate input.trainDays input.testDays (some input.stepDays) input.nTrials
    match fullWindowWeights sqrt input.results input.allocatorName result.bestConfig with
    | .error e => .error (allocatorMessage e)
    | .ok weights => .ok (result.bestConfig, persistedWeights input.results weights)

/-! ### What a run does -/

/-- The stored weights keep to the caps, and are those of a trial over the whole range. -/
structure Respects (sqrt : K → K) (input : FullModeInput K) (params : Params K)
    (persisted : List (Num K)) : Prop where
  /-- `|w| <= max_position_size`. -/
  position : ∀ cap, input.safetyCaps.maxPositionSize = some cap →
    ∀ w ∈ persisted, ∃ x, w = some x ∧ |x| ≤ cap
  /-- `leverage * sum(|w|) <= max_leverage`. -/
  leverage : ∃ total, sum (persisted.map magnitude) = some total ∧
    params.leverage * total ≤ input.safetyCaps.maxLeverage
  /-- For `equal_weight` they are the weights of the trial body. -/
  equalWeight : allocatorCls input.allocatorName = .equalWeight → ∀ run,
    scoreTrial sqrt (memberStrategyIds input.results) input.allocatorName
        ⟨some params.leverage, some params.positionSize⟩ input.startDate input.endDate
        (returnsCache input.results) = .ok (some run) →
      persisted = input.results.map fun r => weightOf run.weights r.strategyId

/-- The sampler stays within the bounds it is given. -/
def SuggestsWithin (suggest : ℕ → SearchSpace K → Except String (Params K)) : Prop :=
  ∀ trial space params, suggest trial space = .ok params →
    (space.leverageLow ≤ params.leverage ∧ params.leverage ≤ space.leverageHigh) ∧
      space.positionSizeLow ≤ params.positionSize ∧ params.positionSize ≤ space.positionSizeHigh

variable {sqrt : K → K} {input : FullModeInput K} {params : Params K} {persisted : List (Num K)}

/-- **Inversion.**  What a run that completes has done. -/
theorem runFullMode_inv (h : runFullMode sqrt input = .ok (some params, persisted)) :
    input.results ≠ [] ∧ Suggested (fullModeEnv sqrt input) params ∧
      ∃ weights, fullWindowWeights sqrt input.results input.allocatorName (some params)
          = .ok weights ∧
        persisted = persistedWeights input.results weights := by
  unfold runFullMode at h
  split at h
  · cases h
  · rename_i hne
    obtain ⟨⟨result, s⟩, hresult, hrest⟩ := except_bind_eq_ok h
    dsimp only at hrest
    split at hrest
    · cases hrest
    · rename_i weights hweights
      obtain ⟨hbest, rfl⟩ := Prod.mk.inj (Except.ok.inj hrest)
      rw [hbest] at hweights
      exact ⟨hne, bestConfig_suggested hresult hbest, weights, hweights, rfl⟩

theorem runFullMode_ok (hne : input.results ≠ []) {result : PortfolioOptimizationResult K}
    {s : Progress K} {weights : Weights K}
    (hresult : runPortfolioWalkForward (fullModeEnv sqrt input) input.startDate input.endDate
      input.trainDays input.testDays (some input.stepDays) input.nTrials = .ok (result, s))
    (hweights : fullWindowWeights sqrt input.results input.allocatorName result.bestConfig
      = .ok weights) :
    runFullMode sqrt input
      = .ok (result.bestConfig, persistedWeights input.results weights) := by
  unfold runFullMode
  rw [if_neg hne, hresult]
  show (match fullWindowWeights sqrt input.results input.allocatorName result.bestConfig with
    | .error e => Except.error (allocatorMessage e)
    | .ok weights => Except.ok (result.bestConfig, persistedWeights input.results weights)) = _
  rw [hweights]

end Run

/-! ### The cache -/

section Cache

variable {K : Type} {results : List (CandidateResult K)} {r : CandidateResult K}

theorem cacheEntry_eq_some {p : String × Series K} (h : r.cacheEntry = some p) :
    r.usable = true ∧ p = (r.strategyId, r.series) := by
  unfold CandidateResult.cacheEntry at h
  split at h
  · rename_i husable
    exact ⟨husable, (Option.some.inj h).symm⟩
  · cases h

/-- A usable result has a row. -/
theorem series_index_ne_nil (h : r.usable = true) : r.series.index ≠ [] := by
  unfold CandidateResult.usable at h
  simp only [Bool.and_eq_true, Bool.not_eq_true', List.isEmpty_eq_false_iff] at h
  obtain ⟨⟨htimestamps, hreturns⟩, -⟩ := h
  intro hnil
  have hrows : r.series.rows = [] := List.map_eq_nil_iff.mp hnil
  have hzip : r.timestamps.zip r.returns = [] := List.Perm.eq_nil (hrows ▸ rankBy_perm.symm)
  rcases List.zip_eq_nil_iff.mp hzip with h | h
  · exact htimestamps h
  · exact hreturns h

/-- Each allocation has usable returns, and a strategy of its own. -/
structure Complete (results : List (CandidateResult K)) : Prop where
  usable : ∀ r ∈ results, r.usable = true
  distinct : (memberStrategyIds results).Nodup

theorem Complete.keys (h : Complete results) :
    (returnsCache results).keys = memberStrategyIds results := by
  unfold returnsCache
  rw [Dict.keys_build]
  have hids : (results.filterMap fun r => r.cacheEntry.map Prod.fst)
      = memberStrategyIds results := by
    unfold memberStrategyIds
    rw [← List.filterMap_eq_map]
    refine List.filterMap_congr fun r hr => ?_
    unfold CandidateResult.cacheEntry
    rw [h.usable r hr]
    rfl
  rw [hids, firstSeen_eq_self h.distinct]

/-- The frame of the cache has a row, and all the cached strategies. -/
theorem fullWindowFrame_covers [Field K] (h : (returnsCache results).keys ≠ []) :
    (fullWindowFrame results).Covers (returnsCache results).keys := by
  refine ⟨?_, fun sid hsid => ?_⟩
  · obtain ⟨p, hp⟩ := List.exists_mem_of_ne_nil (returnsCache results)
      fun hnil => h (List.map_eq_nil_iff.mpr hnil)
    obtain ⟨r, -, hentry⟩ := Dict.mem_build hp
    obtain ⟨husable, rfl⟩ := cacheEntry_eq_some hentry
    obtain ⟨t, ht⟩ := List.exists_mem_of_ne_nil _ (series_index_ne_nil husable)
    exact List.ne_nil_of_mem
      (mem_unionIndex.mpr ⟨r.series, List.mem_map.mpr ⟨_, hp, rfl⟩, ht⟩)
  · unfold fullWindowFrame
    rw [Frame.column_ofSeries, Option.isSome_map, Option.isSome_iff_ne_none, Ne, Dict.get_eq_none]
    exact not_not.mpr hsid

end Cache

/-! ### Stored numbers -/

section Stored

variable {K : Type} [Field K] [LinearOrder K] {results : List (CandidateResult K)}

/-- The number that is stored for an allocation, when the cached strategies weigh `x`. -/
def stored (results : List (CandidateResult K)) (positionSize : K) (x : String → K)
    (r : CandidateResult K) : K :=
  if r.strategyId ∈ (returnsCache results).keys then capNumber positionSize (x r.strategyId)
  else r.weight

theorem persistedWeights_eq {p : K} {x : String → K} :
    persistedWeights results
        (capWeights p (weightsOf (returnsCache results).keys fun sid => some (x sid)))
      = results.map fun r => some (stored results p x r) := by
  unfold persistedWeights
  refine List.map_congr_left fun r _ => ?_
  rw [capWeights_weightsOf]
  unfold stored
  by_cases hr : r.strategyId ∈ (returnsCache results).keys
  · rw [weightsOf_get hr, if_pos hr, Option.getD_some, capWeight_some]
  · rw [weightsOf_get_none hr, if_neg hr]
    rfl

end Stored

section Numbers

variable {input : FullModeInput ℝ} {params : Params ℝ} {z : CandidateResult ℝ → ℝ}

/-- Stored numbers respect the caps just when these are facts about numbers. -/
theorem respects_iff :
    Respects Real.sqrt input params (input.results.map fun r => some (z r)) ↔
      (∀ cap, input.safetyCaps.maxPositionSize = some cap → ∀ r ∈ input.results, |z r| ≤ cap) ∧
      params.leverage * (input.results.map fun r => |z r|).sum ≤ input.safetyCaps.maxLeverage ∧
      (allocatorCls input.allocatorName = .equalWeight → ∀ run,
        scoreTrial Real.sqrt (memberStrategyIds input.results) input.allocatorName
            ⟨some params.leverage, some params.positionSize⟩ input.startDate input.endDate
            (returnsCache input.results) = .ok (some run) →
          ∀ r ∈ input.results, weightOf run.weights r.strategyId = some (z r)) := by
  have hsum : sum ((input.results.map fun r => some (z r)).map magnitude)
      = some (input.results.map fun r => |z r|).sum := by
    rw [List.map_map, ← sum_map_some]
    rfl
  constructor
  · intro h
    refine ⟨fun cap hcap r hr => ?_, ?_, fun hname run hrun r hr => ?_⟩
    · obtain ⟨x, hx, hle⟩ := h.position cap hcap _ (List.mem_map.mpr ⟨r, hr, rfl⟩)
      obtain rfl := Option.some.inj hx
      exact hle
    · obtain ⟨total, htotal, hle⟩ := h.leverage
      rw [hsum] at htotal
      obtain rfl := Option.some.inj htotal
      exact hle
    · exact (List.map_inj_left.mp (h.equalWeight hname run hrun) r hr).symm
  · rintro ⟨hposition, hleverage, hequal⟩
    refine ⟨fun cap hcap w hw => ?_, ⟨_, hsum, hleverage⟩, fun hname run hrun => ?_⟩
    · obtain ⟨r, hr, rfl⟩ := List.mem_map.mp hw
      exact ⟨z r, rfl, hposition cap hcap r hr⟩
    · exact List.map_congr_left fun r hr => (hequal hname run hrun r hr).symm

/-- NaN respects nothing. -/
theorem not_respects_nan (hne : input.results ≠ []) :
    ¬ Respects Real.sqrt input params (input.results.map fun _ => none) := by
  intro h
  obtain ⟨total, htotal, -⟩ := h.leverage
  obtain ⟨r, hr⟩ := List.exists_mem_of_ne_nil _ hne
  rw [sum_eq_none] at htotal
  · cases htotal
  · exact List.mem_map.mpr ⟨none, List.mem_map.mpr ⟨r, hr, rfl⟩, rfl⟩

/-- The bounds of the sampler. -/
theorem suggested_within (hsuggest : SuggestsWithin input.suggest)
    (h : Suggested (fullModeEnv Real.sqrt input) params) :
    0 < params.leverage ∧ params.leverage ≤ input.safetyCaps.maxLeverage ∧
      ∀ cap, input.safetyCaps.maxPositionSize = some cap → params.positionSize ≤ cap := by
  obtain ⟨trial, htrial⟩ := h
  obtain ⟨⟨hlow, hhigh⟩, -, hhigh'⟩ := hsuggest _ _ _ htrial
  have htenth : (0.1 : ℝ) ≤ params.leverage := hlow
  refine ⟨lt_of_lt_of_le (by norm_num) htenth, hhigh, fun cap hcap => ?_⟩
  have hle : params.positionSize ≤ input.safetyCaps.maxPositionSize.getD 1 := hhigh'
  rwa [hcap] at hle

/-- An allocation without a cached strategy keeps its own weight, whatever the caps. -/
theorem missing_stored {weights : Weights ℝ} {bestConfig : Option (Params ℝ)}
    (hweights : fullWindowWeights Real.sqrt input.results input.allocatorName bestConfig
      = .ok weights) {r : CandidateResult ℝ} (hr : r ∈ input.results)
    (hmissing : r.strategyId ∉ (returnsCache input.results).keys) :
    some r.weight ∈ persistedWeights input.results weights := by
  have hget : weights.get r.strategyId = none := by
    unfold fullWindowWeights at hweights
    split at hweights
    · rename_i w hcompute
      obtain ⟨value, rfl⟩ := compute_weightsOf hcompute
      obtain rfl := Except.ok.inj hweights
      rw [capWeights_weightsOf, weightsOf_get_none hmissing]
    · obtain rfl := Except.ok.inj hweights
      rfl
    · cases hweights
  refine List.mem_map.mpr ⟨r, hr, ?_⟩
  rw [hget]
  rfl

end Numbers

/-! ### Complete allocations -/

/-- When the weights of complete allocations keep to the caps. -/
structure Fits (input : FullModeInput ℝ) (params : Params ℝ) : Prop where
  /-- The allocator has the rows it needs. -/
  rows : HasVol input.allocatorName (fullWindowFrame input.results)
  /-- The position size caps the weights, or they are within the cap without it. -/
  position : 0 < params.positionSize ∨ ∀ cap, input.safetyCaps.maxPositionSize = some cap →
    ∀ weights, Allocator.compute Real.sqrt input.allocatorName (memberStrategyIds input.results)
        (fullWindowFrame input.results) = .ok weights →
      ∀ w ∈ weights.values, exceeds w cap = false
  /-- `vol_targeted` scales the weights by a volatility that leaves them within the leverage. -/
  leverage : allocatorCls input.allocatorName = .volTargeted → ∀ vol,
    realizedVol Real.sqrt (memberStrategyIds input.results) (fullWindowFrame input.results)
        = some vol →
      params.leverage * (((memberStrategyIds input.results).length : ℝ)
        * capNumber params.positionSize
          (min (1 / ((memberStrategyIds input.results).length : ℝ) * scalerOf vol) maxWeight))
        ≤ input.safetyCaps.maxLeverage

section Complete

variable {input : FullModeInput ℝ} {params : Params ℝ} {x : String → ℝ} {weights : Weights ℝ}

/-- The weights behind the allocator, for the allocations. -/
theorem persisted_complete (hcomplete : Complete input.results)
    (hx : Weighs input.allocatorName (memberStrategyIds input.results)
      (fullWindowFrame input.results) x)
    (hweights : fullWindowWeights Real.sqrt input.results input.allocatorName (some params)
      = .ok weights) :
    persistedWeights input.results weights
      = input.results.map fun r => some (capNumber params.positionSize (x r.strategyId)) := by
  unfold fullWindowWeights at hweights
  rw [hcomplete.keys, hx.compute] at hweights
  obtain rfl := Except.ok.inj hweights
  rw [← hcomplete.keys]
  refine persistedWeights_eq.trans (List.map_congr_left fun r hr => ?_)
  unfold stored
  rw [hcomplete.keys, if_pos (mem_members hr)]
  rfl

/-- NaN is stored for all of them. -/
theorem persisted_nan (hcomplete : Complete input.results)
    (hcompute : Allocator.compute Real.sqrt input.allocatorName (memberStrategyIds input.results)
      (fullWindowFrame input.results)
        = .ok (weightsOf (memberStrategyIds input.results) fun _ => none))
    (hweights : fullWindowWeights Real.sqrt input.results input.allocatorName (some params)
      = .ok weights) :
    persistedWeights input.results weights = input.results.map fun _ => none := by
  unfold fullWindowWeights at hweights
  rw [hcomplete.keys, hcompute] at hweights
  obtain rfl := Except.ok.inj hweights
  refine List.map_congr_left fun r hr => ?_
  rw [capWeights_weightsOf, weightsOf_get (mem_members hr), capWeight_none]
  rfl

/-- The position cap on the weights of complete allocations. -/
theorem position_iff (hx : Weighs input.allocatorName (memberStrategyIds input.results)
      (fullWindowFrame input.results) x)
    (hp : ∀ cap, input.safetyCaps.maxPositionSize = some cap → params.positionSize ≤ cap) :
    (∀ cap, input.safetyCaps.maxPositionSize = some cap →
        ∀ r ∈ input.results, |capNumber params.positionSize (x r.strategyId)| ≤ cap) ↔
      (0 < params.positionSize ∨ ∀ cap, input.safetyCaps.maxPositionSize = some cap →
        ∀ weights, Allocator.compute Real.sqrt input.allocatorName
            (memberStrategyIds input.results) (fullWindowFrame input.results) = .ok weights →
          ∀ w ∈ weights.values, exceeds w cap = false) := by
  by_cases hpos : 0 < params.positionSize
  · refine iff_of_true (fun cap hcap r hr => ?_) (Or.inl hpos)
    rw [abs_of_pos (capNumber_pos (hx.pos _ (mem_members hr))), capNumber, if_pos hpos]
    exact (min_le_right _ _).trans (hp cap hcap)
  · rw [or_iff_right hpos]
    refine forall₂_congr fun cap _ => ?_
    constructor
    · intro h weights hcompute w hw
      obtain rfl := Except.ok.inj (hx.compute.symm.trans hcompute)
      rw [values_weightsOf] at hw
      obtain ⟨sid, hsid, rfl⟩ := List.mem_map.mp hw
      obtain ⟨r, hr, rfl⟩ := List.mem_map.mp (mem_firstSeen_id.mp hsid)
      have hle := h r hr
      rw [capNumber, if_neg hpos, abs_of_pos (hx.pos _ (mem_members hr))] at hle
      exact decide_eq_false (not_lt.mpr hle)
    · intro h r hr
      rw [capNumber, if_neg hpos, abs_of_pos (hx.pos _ (mem_members hr))]
      have hmem : some (x r.strategyId) ∈ (weightsOf (memberStrategyIds input.results)
          fun sid => some (x sid)).values := by
        rw [values_weightsOf]
        exact List.mem_map.mpr ⟨_, mem_firstSeen_id.mpr (mem_members hr), rfl⟩
      exact not_lt.mp (of_decide_eq_false (h _ hx.compute _ hmem))

/-- The leverage of the weights of complete allocations. -/
theorem leverage_iff (hdistinct : (memberStrategyIds input.results).Nodup)
    (hx : Weighs input.allocatorName (memberStrategyIds input.results)
      (fullWindowFrame input.results) x)
    (hsum : AddsUp input.allocatorName (memberStrategyIds input.results)
      (fullWindowFrame input.results) x)
    (hpos : 0 < params.leverage) (hle : params.leverage ≤ input.safetyCaps.maxLeverage) :
    params.leverage * (input.results.map fun r =>
        |capNumber params.positionSize (x r.strategyId)|).sum ≤ input.safetyCaps.maxLeverage ↔
      (allocatorCls input.allocatorName = .volTargeted → ∀ vol,
        realizedVol Real.sqrt (memberStrategyIds input.results) (fullWindowFrame input.results)
            = some vol →
          params.leverage * (((memberStrategyIds input.results).length : ℝ)
            * capNumber params.positionSize
              (min (1 / ((memberStrategyIds input.results).length : ℝ) * scalerOf vol) maxWeight))
            ≤ input.safetyCaps.maxLeverage) := by
  have habs : (input.results.map fun r => |capNumber params.positionSize (x r.strategyId)|).sum
      = ((memberStrategyIds input.results).map fun sid =>
          capNumber params.positionSize (x sid)).sum := by
    rw [← sum_members]
    congr 1
    exact List.map_congr_left fun r hr => abs_of_pos (capNumber_pos (hx.pos _ (mem_members hr)))
  rw [habs]
  by_cases hvol : allocatorCls input.allocatorName = .volTargeted
  · obtain ⟨vol, hrealized, hscaled⟩ := hsum.scaled hvol
    have hconst : ((memberStrategyIds input.results).map fun sid =>
        capNumber params.positionSize (x sid)).sum
        = ((memberStrategyIds input.results).length : ℝ) * capNumber params.positionSize
          (min (1 / ((memberStrategyIds input.results).length : ℝ) * scalerOf vol) maxWeight) := by
      simp only [hscaled, List.map_const', List.sum_replicate, nsmul_eq_mul]
    rw [hconst]
    constructor
    · intro h _ vol' hvol'
      obtain rfl := Option.some.inj (hrealized.symm.trans hvol')
      exact h
    · exact fun h => h hvol vol hrealized
  · refine iff_of_true ?_ fun h => absurd h hvol
    have hone : ((memberStrategyIds input.results).map x).sum = 1 := by
      rcases allocatorCls_cases input.allocatorName with heq | hinv | hvol'
      · exact hsum.list (Or.inl heq)
      · by_cases hzero : hasZeroVol Real.sqrt (memberStrategyIds input.results)
            (fullWindowFrame input.results) = true
        · exact hsum.list (Or.inr ⟨hinv, hzero⟩)
        · have hdict := hsum.dict ⟨hinv, Bool.eq_false_iff.mpr hzero⟩
          rwa [firstSeen_eq_self hdistinct] at hdict
      · exact absurd hvol' hvol
    have hcapped : ((memberStrategyIds input.results).map fun sid =>
        capNumber params.positionSize (x sid)).sum ≤ 1 :=
      (List.sum_le_sum fun sid hsid => capNumber_le (hx.pos sid hsid)).trans_eq hone
    exact (mul_le_of_le_one_right hpos.le hcapped).trans hle

end Complete

/-! ### `equal_weight` -/

/-- When the stored weights of `equal_weight` keep to the caps and are those of the trials. -/
structure EqualFits (input : FullModeInput ℝ) (params : Params ℝ) : Prop where
  /-- As many strategies are cached as there are allocations, or the position size is at most the
      equal weight. -/
  count : (returnsCache input.results).keys.length = input.results.length ∨
    0 < params.positionSize ∧ params.positionSize ≤ 1 / (input.results.length : ℝ)
  /-- An allocation without a cached strategy comes with the weight of the trials. -/
  missing : ∀ r ∈ input.results, r.strategyId ∉ (returnsCache input.results).keys →
    r.weight = capNumber params.positionSize (1 / (input.results.length : ℝ))
  /-- The position size caps the weights, or they are within the cap without it. -/
  position : 0 < params.positionSize ∨ ∀ cap, input.safetyCaps.maxPositionSize = some cap →
    1 / (input.results.length : ℝ) ≤ cap

section Equal

variable {input : FullModeInput ℝ} {params : Params ℝ} {results : List (CandidateResult ℝ)}
  {name : Option Allocator} {riskParams : RiskParams ℝ} {startDate endDate : ℤ}

/-- The weights of the trial body. -/
theorem trial_equalWeight (riskParams : RiskParams ℝ) (hname : allocatorCls name = .equalWeight)
    (hindex : (windowFrame results startDate endDate).index ≠ []) :
    ∃ run, scoreTrial Real.sqrt (memberStrategyIds results) name riskParams startDate endDate
        (returnsCache results) = .ok (some run) ∧
      ∀ r ∈ results, weightOf run.weights r.strategyId
        = some (capNumber (riskParams.positionSize.getD 0) (1 / (results.length : ℝ))) := by
  have hids := trialFrame_ids hindex
  refine ⟨_, scoreTrial_some _ hindex (compute_equalWeight hname hids), fun r hr => ?_⟩
  rw [weightOf_trialRun (mem_members hr), capWeight_some, memberStrategyIds, List.length_map]

theorem trial_weights (hname : allocatorCls name = .equalWeight) {run : TrialRun ℝ}
    (hrun : scoreTrial Real.sqrt (memberStrategyIds results) name riskParams startDate endDate
      (returnsCache results) = .ok (some run)) {r : CandidateResult ℝ} (hr : r ∈ results) :
    weightOf run.weights r.strategyId
      = some (capNumber (riskParams.positionSize.getD 0) (1 / (results.length : ℝ))) := by
  by_cases hindex : (windowFrame results startDate endDate).index = []
  · rw [scoreTrial_none hindex] at hrun
    cases hrun
  · obtain ⟨run', hscore, hweights⟩ := trial_equalWeight riskParams hname hindex
    obtain rfl := Option.some.inj (Except.ok.inj (hscore.symm.trans hrun))
    exact hweights r hr

/-- A window with a row has a cached strategy. -/
theorem exists_cached (hindex : (windowFrame results startDate endDate).index ≠ []) :
    ∃ r ∈ results, r.strategyId ∈ (returnsCache results).keys := by
  obtain ⟨t, ht⟩ := List.exists_mem_of_ne_nil _ hindex
  obtain ⟨sid, hsid, hrow, -⟩ := mem_trialFrame_index.mp ht
  obtain ⟨r, hr, rfl⟩ := List.mem_map.mp hsid
  refine ⟨r, hr, ?_⟩
  by_contra hnot
  rw [Dict.get_eq_none.mpr hnot] at hrow
  cases hrow

theorem keys_length_le : (returnsCache results).keys.length ≤ results.length := by
  unfold returnsCache
  rw [Dict.keys_build]
  exact length_firstSeen_le.trans (List.length_filterMap_le _ _)

/-- Two positive numbers are the same behind the position cap. -/
theorem capNumber_eq_iff {p a b : ℝ} (hb : 0 < b) (hle : b ≤ a) :
    capNumber p a = capNumber p b ↔ a = b ∨ 0 < p ∧ p ≤ b := by
  unfold capNumber
  rw [abs_of_pos hb, abs_of_pos (hb.trans_le hle)]
  by_cases hp : 0 < p
  · rw [if_pos hp, if_pos hp]
    constructor
    · intro h
      by_cases hpb : p ≤ b
      · exact Or.inr ⟨hp, hpb⟩
      · -- the smaller number is below the cap, and so is the greater one
        have hlt : b < p := not_le.mp hpb
        rw [min_eq_left hlt.le] at h
        rcases min_choice a p with hmin | hmin
        · exact Or.inl (hmin.symm.trans h)
        · exact absurd (hmin.symm.trans h) hlt.ne'
    · rintro (rfl | ⟨-, hpb⟩)
      · rfl
      · rw [min_eq_right (hpb.trans hle), min_eq_right hpb]
  · rw [if_neg hp, if_neg hp]
    exact (or_iff_left fun h => hp h.1).symm

/-- What `equal_weight` stores. -/
theorem persisted_equalWeight {weights : Weights ℝ} {r₀ : CandidateResult ℝ}
    (hname : allocatorCls name = .equalWeight) (hr₀ : r₀.strategyId ∈ (returnsCache results).keys)
    (hweights : fullWindowWeights Real.sqrt results name (some params) = .ok weights) :
    persistedWeights results weights = results.map fun r => some (stored results
      params.positionSize (fun _ => 1 / ((returnsCache results).keys.length : ℝ)) r) := by
  unfold fullWindowWeights at hweights
  rw [compute_equalWeight hname (List.ne_nil_of_mem hr₀)] at hweights
  obtain rfl := Except.ok.inj hweights
  exact persistedWeights_eq

/-- The stored numbers of `equal_weight` are those of the trial body. -/
theorem stored_equalWeight {p : ℝ} {r₀ : CandidateResult ℝ} (hmem : r₀ ∈ results)
    (hr₀ : r₀.strategyId ∈ (returnsCache results).keys) :
    (∀ r ∈ results, stored results p (fun _ => 1 / ((returnsCache results).keys.length : ℝ)) r
        = capNumber p (1 / (results.length : ℝ))) ↔
      ((returnsCache results).keys.length = results.length ∨
          0 < p ∧ p ≤ 1 / (results.length : ℝ)) ∧
        ∀ r ∈ results, r.strategyId ∉ (returnsCache results).keys →
          r.weight = capNumber p (1 / (results.length : ℝ)) := by
  have hkeys : (0 : ℝ) < (returnsCache results).keys.length :=
    Nat.cast_pos.mpr (List.length_pos_of_mem hr₀)
  have hlength : (0 : ℝ) < results.length := Nat.cast_pos.mpr (List.length_pos_of_mem hmem)
  have hle : ((returnsCache results).keys.length : ℝ) ≤ results.length :=
    Nat.cast_le.mpr keys_length_le
  have hcap := capNumber_eq_iff (p := p) (one_div_pos.mpr hlength)
    (one_div_le_one_div_of_le hkeys hle)
  have hcount : (1 / ((returnsCache results).keys.length : ℝ) = 1 / (results.length : ℝ)) ↔
      (returnsCache results).keys.length = results.length := by
    rw [one_div, one_div, inv_inj, Nat.cast_inj]
  rw [hcount] at hcap
  rw [← hcap]
  constructor
  · intro h
    refine ⟨?_, fun r hr hnot => ?_⟩
    · have hcached := h r₀ hmem
      rwa [stored, if_pos hr₀] at hcached
    · have hmissing := h r hr
      rwa [stored, if_neg hnot] at hmissing
  · rintro ⟨hcached, hmissing⟩ r hr
    unfold stored
    by_cases hkey : r.strategyId ∈ (returnsCache results).keys
    · rw [if_pos hkey]
      exact hcached
    · rw [if_neg hkey]
      exact hmissing r hr hkey

end Equal

/-! ### The weights that are stored -/

section Main

variable {input : FullModeInput ℝ} {params : Params ℝ} {weights : Weights ℝ}

/-- Complete allocations: what is stored respects the caps just when it fits. -/
theorem respects_complete (hne : input.results ≠ []) (hcomplete : Complete input.results)
    (hlow : 0 < params.leverage) (hhigh : params.leverage ≤ input.safetyCaps.maxLeverage)
    (hcap : ∀ cap, input.safetyCaps.maxPositionSize = some cap → params.positionSize ≤ cap)
    (hweights : fullWindowWeights Real.sqrt input.results input.allocatorName (some params)
      = .ok weights) :
    Respects Real.sqrt input params (persistedWeights input.results weights) ↔
      Fits input params := by
  have hids : memberStrategyIds input.results ≠ [] := List.map_eq_nil_iff.not.mpr hne
  have hcovers : (fullWindowFrame input.results).Covers (memberStrategyIds input.results) := by
    rw [← hcomplete.keys]
    exact fullWindowFrame_covers (by rwa [hcomplete.keys])
  by_cases hvol : HasVol input.allocatorName (fullWindowFrame input.results)
  · obtain ⟨x, hx, hsum⟩ := exists_weighs hvol hcovers hids
    have hposition := position_iff hx hcap
    have hleverage := leverage_iff hcomplete.distinct hx hsum hlow hhigh
    rw [persisted_complete hcomplete hx hweights, respects_iff]
    constructor
    · rintro ⟨hpos, hlev, -⟩
      exact ⟨hvol, hposition.mp hpos, hleverage.mp hlev⟩
    · rintro ⟨-, hpos, hlev⟩
      refine ⟨hposition.mpr hpos, hleverage.mpr hlev, fun hname run hrun r hr => ?_⟩
      -- equal weights do not look at the returns
      rw [trial_weights hname hrun hr, hx.equal hname hids (mem_members hr), memberStrategyIds,
        List.length_map]
      rfl
  · obtain ⟨hname, hrows⟩ := not_or.mp hvol
    have hcompute := compute_nan hname hcovers hids (not_le.mp hrows)
    rw [persisted_nan hcomplete hcompute hweights]
    exact iff_of_false (not_respects_nan hne) fun h => hvol h.rows

/-- `equal_weight`, over dates with returns. -/
theorem respects_equalWeight (hname : allocatorCls input.allocatorName = .equalWeight)
    (hindex : (windowFrame input.results input.startDate input.endDate).index ≠ [])
    (hlow : 0 < params.leverage) (hhigh : params.leverage ≤ input.safetyCaps.maxLeverage)
    (hcap : ∀ cap, input.safetyCaps.maxPositionSize = some cap → params.positionSize ≤ cap)
    (hweights : fullWindowWeights Real.sqrt input.results input.allocatorName (some params)
      = .ok weights) :
    Respects Real.sqrt input params (persistedWeights input.results weights) ↔
      EqualFits input params := by
  obtain ⟨r₀, hmem, hr₀⟩ := exists_cached hindex
  obtain ⟨run, hscore, hrun⟩ := trial_equalWeight
    ⟨some params.leverage, some params.positionSize⟩ hname hindex
  have hstored := stored_equalWeight (p := params.positionSize) hmem hr₀
  have hlength : (0 : ℝ) < input.results.length := Nat.cast_pos.mpr (List.length_pos_of_mem hmem)
  rw [persisted_equalWeight hname hr₀ hweights, respects_iff]
  constructor
  · rintro ⟨hposition, -, hequal⟩
    have hsame : ∀ r ∈ input.results, stored input.results params.positionSize
        (fun _ => 1 / ((returnsCache input.results).keys.length : ℝ)) r
        = capNumber params.positionSize (1 / (input.results.length : ℝ)) :=
      fun r hr => Option.some.inj ((hequal hname run hscore r hr).symm.trans (hrun r hr))
    obtain ⟨hcount, hmissing⟩ := hstored.mp hsame
    refine ⟨hcount, hmissing, ?_⟩
    by_cases hpos : 0 < params.positionSize
    · exact Or.inl hpos
    · refine Or.inr fun cap hmax => ?_
      have hle := hposition cap hmax r₀ hmem
      rwa [hsame r₀ hmem, capNumber, if_neg hpos, abs_of_pos (one_div_pos.mpr hlength)] at hle
  · intro hfits
    have hsame := hstored.mpr ⟨hfits.count, hfits.missing⟩
    have hpositive := capNumber_pos (p := params.positionSize) (one_div_pos.mpr hlength)
    refine ⟨fun cap hmax r hr => ?_, ?_, fun _ run' hrun' r hr => ?_⟩
    · rw [hsame r hr, abs_of_pos hpositive]
      rcases hfits.position with hpos | hle
      · rw [capNumber, if_pos hpos]
        exact (min_le_right _ _).trans (hcap cap hmax)
      · exact (capNumber_le (one_div_pos.mpr hlength)).trans (hle cap hmax)
    · have hsum : (input.results.map fun r => |stored input.results params.positionSize
          (fun _ => 1 / ((returnsCache input.results).keys.length : ℝ)) r|).sum
          = (input.results.length : ℝ)
            * capNumber params.positionSize (1 / (input.results.length : ℝ)) := by
        rw [List.map_congr_left fun r hr => by rw [hsame r hr, abs_of_pos hpositive],
          List.map_const', List.sum_replicate, nsmul_eq_mul]
      have hone : (input.results.length : ℝ)
          * capNumber params.positionSize (1 / (input.results.length : ℝ)) ≤ 1 :=
        (mul_le_mul_of_nonneg_left (capNumber_le (one_div_pos.mpr hlength)) hlength.le).trans_eq
          (mul_one_div_cancel hlength.ne')
      rw [hsum]
      exact (mul_le_of_le_one_right hlow.le hone).trans hhigh
    · rw [trial_weights hname hrun' hr, hsame r hr]
      rfl

/-- **The stored weights** of every run that completes with a best configuration.  When each
    allocation has usable returns and a strategy of its own, they respect the caps just when they
    fit; for `equal_weight` there is a condition for all allocations. -/
theorem full_mode_weights (input : FullModeInput ℝ) (params : Params ℝ) (persisted : List (Num ℝ))
    (hsuggest : SuggestsWithin input.suggest)
    (hrun : runFullMode Real.sqrt input = .ok (some params, persisted)) :
    (Complete input.results → (Respects Real.sqrt input params persisted ↔ Fits input params)) ∧
    (allocatorCls input.allocatorName = .equalWeight →
      (windowFrame input.results input.startDate input.endDate).index ≠ [] →
      (Respects Real.sqrt input params persisted ↔ EqualFits input params)) ∧
    (Respects Real.sqrt input params persisted →
      ∀ cap, input.safetyCaps.maxPositionSize = some cap → ∀ r ∈ input.results,
        r.strategyId ∉ (returnsCache input.results).keys → |r.weight| ≤ cap) := by
  obtain ⟨hne, hsuggested, weights, hweights, rfl⟩ := runFullMode_inv hrun
  obtain ⟨hlow, hhigh, hcap⟩ := suggested_within hsuggest hsuggested
  refine ⟨fun hcomplete => respects_complete hne hcomplete hlow hhigh hcap hweights,
    fun hname hindex => respects_equalWeight hname hindex hlow hhigh hcap hweights, ?_⟩
  intro hrespects cap hmax r hr hmissing
  obtain ⟨x, hx, hle⟩ := hrespects.position cap hmax _ (missing_stored hweights hr hmissing)
  obtain rfl := Option.some.inj hx
  exact hle

end Main

/-! ### A run of one trial -/

/-- A run of one trial with equal weights, leverage and position size at their caps. -/
def oneTrial {K : Type} [Field K] [LinearOrder K] (results : List (CandidateResult K)) :
    FullModeInput K where
  results := results
  allocatorName := some .equalWeight
  objective := .maximizeSharpe
  safetyCaps := { maxLeverage := 1, maxPositionSize := some 0.5, maxDrawdownHalt := none }
  startDate := 0
  endDate := 1
  trainDays := 1
  testDays := 1
  stepDays := 1
  nTrials := 1
  suggest := fun _ space =>
    if space.leverageLow ≤ space.leverageHigh ∧ space.positionSizeLow ≤ space.positionSizeHigh then
      .ok { leverage := space.leverageHigh, positionSize := space.positionSizeHigh }
    else .error "low must not be greater than high"
  cancelCheck := fun _ => false
  tellRaises := fun _ => none

/-- An allocation with two daily returns. -/
def withReturns {K : Type} [Field K] (strategyId : String) (weight : K) : CandidateResult K where
  strategyId := strategyId
  weight := weight
  timestamps := [0, nsPerDay]
  returns := [0.1, 0.2]
  nodup := by decide

/-- An allocation without returns. -/
def withoutReturns {K : Type} (strategyId : String) (weight : K) : CandidateResult K where
  strategyId := strategyId
  weight := weight
  timestamps := []
  returns := []
  nodup := List.nodup_nil

theorem oneTrial_suggestsWithin {results : List (CandidateResult ℝ)} :
    SuggestsWithin (oneTrial results).suggest := by
  intro trial space params h
  change (if space.leverageLow ≤ space.leverageHigh ∧ _ then _ else _) = _ at h
  split at h
  · rename_i hle
    obtain rfl := Except.ok.inj h
    exact ⟨⟨hle.1, le_rfl⟩, hle.2, le_rfl⟩
  · cases h

section OneTrial

variable {results : List (CandidateResult ℝ)}

/-- What the trial reports. -/
theorem oneTrial_reports (hids : memberStrategyIds results = ["a", "b"])
    (hindex : (windowFrame results 0 0).index ≠ []) :
    ∃ metrics, trialBody Real.sqrt results (some .equalWeight) ⟨1, 0.5⟩ 0 0 = .ok metrics ∧
      metrics.totalLeverage = some (some 1) ∧ metrics.maxPosition = some (some 0.5) := by
  let risk : RiskParams ℝ := ⟨some 1, some 0.5⟩
  let v (_ : String) : Num ℝ := some (1 / ((memberStrategyIds results).length : ℝ))
  let run := trialRun Real.sqrt (memberStrategyIds results) risk (windowFrame results 0 0)
    (weightsOf (memberStrategyIds results) v)
  have hne := trialFrame_ids hindex
  have hscore : scoreTrial Real.sqrt (memberStrategyIds results) (some .equalWeight) risk 0 0
      (returnsCache results) = .ok (some run) :=
    scoreTrial_some _ hindex (compute_equalWeight rfl hne)
  have hcap : ∀ sid, magnitude (capWeight (risk.positionSize.getD 0) (v sid)) = some 0.5 := by
    intro sid
    show magnitude (capWeight 0.5 (some (1 / ((memberStrategyIds results).length : ℝ)))) = _
    rw [capWeight_some, hids]
    show some |if (0 : ℝ) < 0.5 then min |1 / ((["a", "b"] : List String).length : ℝ)| 0.5
      else _| = _
    norm_num
  have hcapped : ((firstSeen id (memberStrategyIds results)).map fun sid =>
      magnitude (capWeight (risk.positionSize.getD 0) (v sid))) = [some 0.5, some 0.5] := by
    simp only [hcap]
    rw [hids]
    rfl
  have hreported := reported_eq Real.sqrt risk v hne hindex
  rw [hcapped] at hreported
  refine ⟨run.metrics, ?_, hreported.1.trans ?_, hreported.2.trans ?_⟩
  · unfold trialBody aggregateReturnsTrial
    rw [hscore]
    rfl
  · show some (some ((1 : ℝ) * (0.5 + (0.5 + 0)))) = _
    norm_num
  · show some (some (max (0.5 : ℝ) 0.5)) = _
    rw [max_self]

/-- The trial passes the caps. -/
theorem oneTrial_evaluate (hids : memberStrategyIds results = ["a", "b"])
    (hindex : (windowFrame results 0 0).index ≠ []) :
    ∃ scores, evaluate (fullModeEnv Real.sqrt (oneTrial results)) 0 ⟨1, 0.5⟩ ⟨0, 0, 1, 1⟩
      = .ok scores := by
  obtain ⟨metrics, htrain, hleverage, hposition⟩ := oneTrial_reports hids hindex
  obtain ⟨metrics', htest⟩ : ∃ metrics',
      trialBody Real.sqrt results (some .equalWeight) ⟨1, 0.5⟩ 1 1 = .ok metrics' := by
    obtain ⟨run, hrun⟩ := scoreTrial_total results (some .equalWeight)
      ⟨some 1, some 0.5⟩ 1 1
    unfold trialBody aggregateReturnsTrial
    rw [hrun]
    cases run with
    | none => exact ⟨_, rfl⟩
    | some run => exact ⟨_, rfl⟩
  let scores : Scores ℝ :=
    { isScore := metrics.sharpe.getD 0, oosScore := metrics'.sharpe.getD 0,
      isMetrics := metrics, oosMetrics := metrics' }
  refine ⟨scores, evaluate_ok rfl htrain (enforceCaps_ok ?_ ?_ ?_) rfl htest rfl⟩
  · show exceeds (metrics.totalLeverage.getD (some 1)) 1 = false
    rw [hleverage]
    exact decide_eq_false (lt_irrefl 1)
  · intro cap hcap
    obtain rfl := Option.some.inj hcap
    show exceeds (metrics.maxPosition.getD (some 0)) 0.5 = false
    rw [hposition]
    exact decide_eq_false (lt_irrefl _)
  · intro cap hcap
    cases hcap

theorem oneTrial_weights (hkeys : (returnsCache results).keys ≠ []) :
    fullWindowWeights Real.sqrt results (some .equalWeight) (some ⟨1, 0.5⟩)
      = .ok (weightsOf (returnsCache results).keys fun _ =>
          some (capNumber 0.5 (1 / ((returnsCache results).keys.length : ℝ)))) := by
  unfold fullWindowWeights
  rw [compute_equalWeight rfl hkeys]
  show Except.ok (capWeights 0.5 (weightsOf (returnsCache results).keys _)) = _
  rw [capWeights_weightsOf]
  simp only [capWeight_some]

/-- The run completes. -/
theorem oneTrial_completes (hids : memberStrategyIds results = ["a", "b"])
    (hindex : (windowFrame results 0 0).index ≠ []) {weights : Weights ℝ}
    (hweights : fullWindowWeights Real.sqrt results (some .equalWeight) (some ⟨1, 0.5⟩)
      = .ok weights) :
    runFullMode Real.sqrt (oneTrial results)
      = .ok (some ⟨1, 0.5⟩, persistedWeights results weights) := by
  obtain ⟨scores, hscores⟩ := oneTrial_evaluate hids hindex
  have hne : (oneTrial results).results ≠ [] := by
    rintro (hnil : results = [])
    rw [hnil] at hids
    cases hids
  have hwindows : buildWalkForwardWindows 0 1 1 1 (some 1) .rolling = .ok [⟨0, 0, 1, 1⟩] := by
    simp [buildWalkForwardWindows, stepOrTestDays, windowsFrom, sumOverflow, dateMax_eq]
    rfl
  have hsuggest : (oneTrial results).suggest 0 (buildSearchSpace (oneTrial results).safetyCaps)
      = .ok ⟨1, 0.5⟩ := by
    have hbounds : (0.1 : ℝ) ≤ 1 ∧ (0 : ℝ) ≤ 0.5 := by norm_num
    exact if_pos hbounds
  obtain ⟨result, s, hresult, hbest⟩ := runPortfolioWalkForward_single hwindows (fun _ => rfl)
    (fun _ => rfl) hsuggest hscores
  rw [runFullMode_ok hne hresult (hbest ▸ hweights), hbest]
  rfl

end OneTrial

/-- Equal weights for two allocations with returns. -/
theorem full_mode_weights_oneTrial :
    Respects Real.sqrt (oneTrial [withReturns "a" 0.5, withReturns "b" 0.5]) ⟨1, 0.5⟩
      [some 0.5, some 0.5] := by
  let results : List (CandidateResult ℝ) := [withReturns "a" 0.5, withReturns "b" 0.5]
  have hkeys : (returnsCache results).keys = ["a", "b"] := rfl
  have hrow : (0 : ℤ) ∈ (((returnsCache results).get "a").getD .empty).index :=
    List.mem_cons_self
  have hmember : "a" ∈ memberStrategyIds results := List.mem_cons_self
  have hindex : (windowFrame results 0 0).index ≠ [] :=
    List.ne_nil_of_mem (mem_trialFrame_index.mpr ⟨"a", hmember, hrow, by decide, by decide⟩)
  have hrange : (windowFrame results 0 1).index ≠ [] :=
    List.ne_nil_of_mem (mem_trialFrame_index.mpr ⟨"a", hmember, hrow, by decide, by decide⟩)
  have hhalf : capNumber 0.5 (1 / ((["a", "b"] : List String).length : ℝ)) = 0.5 := by
    unfold capNumber
    norm_num
  have hweights : fullWindowWeights Real.sqrt results (some .equalWeight) (some ⟨1, 0.5⟩)
      = .ok [("a", some 0.5), ("b", some 0.5)] := by
    rw [oneTrial_weights (hkeys ▸ List.cons_ne_nil "a" ["b"]), hkeys, hhalf]
    rfl
  have hrun := oneTrial_completes rfl hindex hweights
  refine ((full_mode_weights (oneTrial results) ⟨1, 0.5⟩ _ oneTrial_suggestsWithin hrun).2.1 rfl
    hrange).mpr ⟨Or.inl rfl, fun r hr hmissing => ?_, Or.inl ?_⟩
  · exact absurd (hkeys ▸ mem_members hr) hmissing
  · show (0 : ℝ) < 0.5
    norm_num

/-- An allocation without returns is stored with its own weight: above the cap, and with the other
    one above the leverage. -/
theorem full_mode_weights_fail :
    SuggestsWithin (oneTrial [withReturns "a" 0.25, withoutReturns "b" (0.75 : ℝ)]).suggest ∧
    runFullMode Real.sqrt (oneTrial [withReturns "a" 0.25, withoutReturns "b" 0.75])
      = .ok (some ⟨1, 0.5⟩, [some 0.5, some 0.75]) ∧
    ¬ Respects Real.sqrt (oneTrial [withReturns "a" 0.25, withoutReturns "b" 0.75])
      ⟨1, 0.5⟩ [some 0.5, some 0.75] := by
  let results : List (CandidateResult ℝ) := [withReturns "a" 0.25, withoutReturns "b" 0.75]
  have hkeys : (returnsCache results).keys = ["a"] := rfl
  have hindex : (windowFrame results 0 0).index ≠ [] :=
    List.ne_nil_of_mem
      (mem_trialFrame_index.mpr ⟨"a", List.mem_cons_self, List.mem_cons_self, by decide, by decide⟩)
  have hhalf : capNumber 0.5 (1 / ((["a"] : List String).length : ℝ)) = 0.5 := by
    unfold capNumber
    norm_num
  have hweights : fullWindowWeights Real.sqrt results (some .equalWeight) (some ⟨1, 0.5⟩)
      = .ok [("a", some 0.5)] := by
    rw [oneTrial_weights (hkeys ▸ List.cons_ne_nil "a" []), hkeys, hhalf]
    rfl
  refine ⟨oneTrial_suggestsWithin, oneTrial_completes rfl hindex hweights, fun h => ?_⟩
  obtain ⟨x, hx, hle⟩ := h.position 0.5 rfl (some 0.75)
    (List.mem_cons_of_mem _ (List.mem_singleton_self _))
  obtain rfl := Option.some.inj hx
  rw [abs_of_pos (by norm_num)] at hle
  norm_num at hle

end Msai.Portfolio.FullMode
