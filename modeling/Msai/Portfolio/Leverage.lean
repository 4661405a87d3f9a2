import Msai.Analytics.Series
import Mathlib.Analysis.Real.Sqrt

namespace Msai.Portfolio

open Msai.Lib Msai.Lib.Moments Msai.Analytics

/-!
# Effective leverage (`effective_leverage` in `services/portfolio/computation.py`)

The requested leverage is scaled down by `target / risk`, where `risk` is the downside risk of the
portfolio at leverage 1, and raised to a floor of 0.1.

* `effectiveLeverage` — the computation;
* `downsideRisk_scale` — the downside risk of a portfolio is homogeneous in its leverage;
* `effectiveLeverage_eq` — what is returned;
* `leverage_scaling` — when that is within the request and the target.
-/

section Computation

variable {K : Type} [Field K] [LinearOrder K]

/-- The downside risk of the portfolio that is combined at a leverage. -/
def downsideRisk (sqrt : K → K) (weightedSeries : List (Option K × Returns K)) (leverage : K) : K :=
  (computeSeriesMetrics sqrt (combineWeightedReturns weightedSeries leverage).toReturns
    none).downsideRisk

/-- `effective_leverage`. -/
def effectiveLeverage (sqrt : K → K) (weightedSeries : List (Option K × Returns K))
    (requestedLeverage : K) (downsideTarget : Option K) : K :=
  let leverage := max 0 requestedLeverage
  match downsideTarget with
  | none => leverage
  | some target =>
    if leverage ≤ 0 ∨ target ≤ 0 then leverage
    else
      let risk := downsideRisk sqrt weightedSeries 1
      if risk ≤ 0 then leverage
      else max 0.1 (leverage * min 1 (target / risk))

end Computation

/-! ### The risk and the leverage -/

variable {ws : List (Option ℝ × Returns ℝ)} {leverage : ℝ} {s : Series ℝ}

/-- The leverage multiplies every combined return. -/
theorem combineWeightedReturns_scale :
    combineWeightedReturns ws leverage = (combineWeightedReturns ws 1).map (leverage * ·) := by
  unfold combineWeightedReturns
  dsimp only
  rw [Series.ofIndex_map]
  congr 1
  funext t
  rw [mul_one, mul_comm]

/-- The losses of a scaled series. -/
theorem downside_scale (hleverage : 0 ≤ leverage) (xs : List ℝ) :
    downside (xs.map (leverage * ·)) = (downside xs).map (leverage * ·) := by
  unfold downside
  rw [List.map_map, List.map_map]
  apply List.map_congr_left
  intro r _
  show (if leverage * r < 0 then leverage * r else 0) = leverage * (if r < 0 then r else 0)
  by_cases hr : r < 0
  · rw [if_pos hr]
    split
    · rfl
    · rename_i hle
      -- only a leverage of zero takes a loss away
      exact le_antisymm (not_lt.mp hle) (mul_nonpos_of_nonneg_of_nonpos hleverage hr.le)
  · rw [if_neg hr, if_neg (not_lt.mpr (mul_nonneg hleverage (not_lt.mp hr))), mul_zero]

/-- The downside risk of a cleaned series. -/
theorem downsideRisk_of_series :
    (computeSeriesMetrics Real.sqrt s.toReturns none).downsideRisk
      = Real.sqrt (meanSquare (downside s.values)) * Real.sqrt (inferPeriodsPerYear s.index) := by
  unfold computeSeriesMetrics
  rw [clean_toReturns]
  dsimp only
  by_cases hempty : s.rows = []
  · rw [if_pos hempty]
    have hvalues : s.values = [] := by rw [Series.values, hempty]; rfl
    show 0 = _
    rw [hvalues]
    simp [downside, meanSquare, mean]
  · rw [if_neg hempty]

/-- **Homogeneity.**  The downside risk grows in proportion to the leverage. -/
theorem downsideRisk_scale (hleverage : 0 ≤ leverage) :
    downsideRisk Real.sqrt ws leverage = leverage * downsideRisk Real.sqrt ws 1 := by
  unfold downsideRisk
  rw [combineWeightedReturns_scale, downsideRisk_of_series, downsideRisk_of_series]
  have hvalues (s : Series ℝ) : (s.map (leverage * ·)).values = s.values.map (leverage * ·) := by
    unfold Series.values Series.map
    rw [List.map_map, List.map_map]
    rfl
  have hindex (s : Series ℝ) : (s.map (leverage * ·)).index = s.index := by
    unfold Series.index Series.map
    rw [List.map_map]
    rfl
  rw [hvalues, hindex, downside_scale hleverage, meanSquare_scale,
    Real.sqrt_mul (sq_nonneg leverage), Real.sqrt_sq hleverage, mul_assoc]

/-! ### The result -/

variable {requested target : ℝ}

/-- With a target and a risk, the request is scaled and raised to the floor. -/
theorem effectiveLeverage_eq (hrequested : 0 < requested) (htarget : 0 < target)
    (hrisk : 0 < downsideRisk Real.sqrt ws 1) :
    effectiveLeverage Real.sqrt ws requested (some target)
      = max 0.1 (requested * min 1 (target / downsideRisk Real.sqrt ws 1)) := by
  unfold effectiveLeverage
  dsimp only
  rw [max_eq_right hrequested.le, if_neg (by push Not; exact ⟨hrequested, htarget⟩),
    if_neg (not_le.mpr hrisk)]

/-- Without a target, or without a risk, the request is returned. -/
theorem effectiveLeverage_verbatim {downsideTarget : Option ℝ} (hrequested : 0 < requested)
    (h : ∀ target ∈ downsideTarget, 0 < target → downsideRisk Real.sqrt ws 1 ≤ 0) :
    effectiveLeverage Real.sqrt ws requested downsideTarget = requested := by
  unfold effectiveLeverage
  dsimp only
  rw [max_eq_right hrequested.le]
  cases downsideTarget with
  | none => rfl
  | some target =>
    dsimp only
    by_cases htarget : target ≤ 0
    · rw [if_pos (Or.inr htarget)]
    · rw [if_neg (by push Not; exact ⟨hrequested, not_le.mp htarget⟩),
        if_pos (h target rfl (not_le.mp htarget))]

/-- The scale, the request and the floor. -/
theorem floor_scale_iff {risk : ℝ} (hrequested : 0 < requested) (htarget : 0 < target)
    (hrisk : 0 < risk) :
    (max 0.1 (requested * min 1 (target / risk)) ≤ requested ∧
        (0.1 < max 0.1 (requested * min 1 (target / risk)) →
          max 0.1 (requested * min 1 (target / risk)) * risk ≤ target)) ↔
      0.1 ≤ requested ∧
        (requested ≤ 1 ∨ requested * risk ≤ target ∨ requested * target ≤ risk / 10) := by
  have hscale : requested * min 1 (target / risk) ≤ requested :=
    mul_le_of_le_one_right hrequested.le (min_le_left _ _)
  rw [max_le_iff, and_iff_left hscale]
  apply and_congr_right
  intro hfloor
  by_cases hle : risk ≤ target
  · -- the target is met at leverage 1: nothing is scaled
    have hmin : min 1 (target / risk) = 1 := min_eq_left ((one_le_div hrisk).mpr hle)
    rw [hmin, mul_one, max_eq_right hfloor]
    constructor
    · intro h
      rcases eq_or_lt_of_le hfloor with heq | hlt
      · exact Or.inl (by linarith)
      · exact Or.inr (Or.inl (h hlt))
    · rintro (hone | hwithin | hfloored) habove
      · calc requested * risk ≤ 1 * risk := mul_le_mul_of_nonneg_right hone hrisk.le
          _ ≤ target := by rwa [one_mul]
      · exact hwithin
      · have : 0.1 * target < requested * target := mul_lt_mul_of_pos_right habove htarget
        linarith
  · -- the request is multiplied by the quotient
    have hlt : target < risk := not_le.mp hle
    have hmin : min 1 (target / risk) = target / risk :=
      min_eq_right ((div_le_one hrisk).mpr hlt.le)
    have habove : 0.1 < requested * (target / risk) ↔ risk / 10 < requested * target := by
      rw [← mul_div_assoc, lt_div_iff₀ hrisk]
      constructor
      · intro h
        linarith
      · intro h
        linarith
    rw [hmin, lt_max_iff, or_iff_right (lt_irrefl _), habove]
    constructor
    · intro h
      by_cases hscaled : risk / 10 < requested * target
      · have hmax : max 0.1 (requested * (target / risk)) = requested * (target / risk) :=
          max_eq_right (habove.mpr hscaled).le
        have hrisk' := h hscaled
        rw [hmax, mul_assoc, div_mul_cancel₀ _ hrisk.ne'] at hrisk'
        exact Or.inl ((mul_le_iff_le_one_left htarget).mp hrisk')
      · exact Or.inr (Or.inr (not_lt.mp hscaled))
    · intro h hscaled
      have hone : requested ≤ 1 := by
        rcases h with hone | hwithin | hfloored
        · exact hone
        · by_contra hgt
          have : 1 * risk < requested * risk := mul_lt_mul_of_pos_right (not_le.mp hgt) hrisk
          linarith
        · exact absurd hscaled (not_lt.mpr hfloored)
      rw [max_eq_right (habove.mpr hscaled).le, mul_assoc, div_mul_cancel₀ _ hrisk.ne']
      exact (mul_le_iff_le_one_left htarget).mpr hone

/-- The returned leverage is within the request, and if it is above the floor the portfolio at that
    leverage is within the target.  A target that is not positive is none. -/
def WithinTarget (ws : List (Option ℝ × Returns ℝ)) (requested : ℝ)
    (downsideTarget : Option ℝ) : Prop :=
  let leverage := effectiveLeverage Real.sqrt ws requested downsideTarget
  leverage ≤ requested ∧
    ∀ target ∈ downsideTarget, 0 < target → 0.1 < leverage →
      downsideRisk Real.sqrt ws leverage ≤ target

/-- The leverage is scaled as it should be just when there is nothing to scale for, or the request
    is at least the floor and either at most 1, or within the target already, or driven down to the
    floor. -/
theorem leverage_scaling (ws : List (Option ℝ × Returns ℝ)) (requested : ℝ)
    (downsideTarget : Option ℝ) (hrequested : 0 < requested) :
    WithinTarget ws requested downsideTarget ↔
      ∀ target ∈ downsideTarget, 0 < target → 0 < downsideRisk Real.sqrt ws 1 →
        0.1 ≤ requested ∧
          (requested ≤ 1 ∨ requested * downsideRisk Real.sqrt ws 1 ≤ target ∨
            requested * target ≤ downsideRisk Real.sqrt ws 1 / 10) := by
  by_cases hopen : ∃ target ∈ downsideTarget, 0 < target ∧ 0 < downsideRisk Real.sqrt ws 1
  · obtain ⟨target, rfl, htarget, hrisk⟩ := hopen
    have hleverage : 0 ≤ effectiveLeverage Real.sqrt ws requested (some target) := by
      rw [effectiveLeverage_eq hrequested htarget hrisk]
      exact le_max_of_le_left (by norm_num)
    unfold WithinTarget
    dsimp only
    rw [downsideRisk_scale hleverage, effectiveLeverage_eq hrequested htarget hrisk]
    simp only [Option.mem_def, Option.some.injEq, forall_eq', htarget, hrisk, forall_const]
    exact floor_scale_iff hrequested htarget hrisk
  · push Not at hopen
    have hverbatim := effectiveLeverage_verbatim hrequested hopen
    constructor
    · intro _ target hmem htarget hrisk
      exact absurd hrisk (not_lt.mpr (hopen target hmem htarget))
    · intro _
      unfold WithinTarget
      dsimp only
      rw [hverbatim]
      refine ⟨le_rfl, fun target hmem htarget _ => ?_⟩
      rw [downsideRisk_scale hrequested.le]
      have hrisk := hopen target hmem htarget
      exact (mul_nonpos_of_nonneg_of_nonpos hrequested.le hrisk).trans htarget.le

/-- One strategy with one day, on which it loses a fifth. -/
noncomputable def oneLoss : List (Option ℝ × Returns ℝ) :=
  [(some 1, (Series.ofIndex [0] (List.pairwise_singleton ..) fun _ => -(1 / 5)).toReturns)]

theorem downsideRisk_oneLoss :
    downsideRisk Real.sqrt oneLoss 1 = 1 / 5 * Real.sqrt 252 := by
  have hcombined : combineWeightedReturns oneLoss 1
      = Series.ofIndex [0] (List.pairwise_singleton ..) fun _ => -(1 / 5) := by
    ext1
    simp [combineWeightedReturns, oneLoss, clean_toReturns, unionIndex, Series.index,
      Series.ofIndex, rankBy, weightedEntry, Series.get]
  unfold downsideRisk
  rw [hcombined, downsideRisk_of_series]
  have hperiods : inferPeriodsPerYear (K := ℝ) [0] = 252 := rfl
  simp [Series.values, Series.index, Series.ofIndex, downside, meanSquare, mean, hperiods]

/-- At leverage 1 the risk is above 3; with a target of 3/2 it is scaled down to the target. -/
theorem leverage_scaling_oneLoss : WithinTarget oneLoss 1 (some (3 / 2)) :=
  (leverage_scaling oneLoss 1 (some (3 / 2)) (by norm_num)).mpr fun target htarget _ _ => by
    obtain rfl := Option.some.inj htarget
    exact ⟨by norm_num, Or.inl le_rfl⟩

/-- A request of 2 ends at twice the target, and a request of 0.05 is doubled. -/
theorem leverage_scaling_fails :
    (0.1 < effectiveLeverage Real.sqrt oneLoss 2 (some (3 / 2)) ∧
      downsideRisk Real.sqrt oneLoss (effectiveLeverage Real.sqrt oneLoss 2 (some (3 / 2))) = 3) ∧
    effectiveLeverage Real.sqrt oneLoss (1 / 20) (some (3 / 2)) = 0.1 ∧
    ¬ ∀ (ws : List (Option ℝ × Returns ℝ)) (requested : ℝ) (downsideTarget : Option ℝ),
      0 < requested → WithinTarget ws requested downsideTarget := by
  have hlow : 15 < Real.sqrt 252 := Real.lt_sqrt_of_sq_lt (by norm_num)
  have hhigh : Real.sqrt 252 < 16 := (Real.sqrt_lt' (by norm_num)).mpr (by norm_num)
  have hrisk : 3 < downsideRisk Real.sqrt oneLoss 1 := by
    rw [downsideRisk_oneLoss]
    linarith
  have hrisk' : downsideRisk Real.sqrt oneLoss 1 < 4 := by
    rw [downsideRisk_oneLoss]
    linarith
  have hpos : 0 < downsideRisk Real.sqrt oneLoss 1 := by linarith
  have htwo : effectiveLeverage Real.sqrt oneLoss 2 (some (3 / 2))
      = 3 / downsideRisk Real.sqrt oneLoss 1 := by
    have hbelow : 3 / 2 / downsideRisk Real.sqrt oneLoss 1 ≤ 1 := by
      rw [div_le_one hpos]
      linarith
    have hfloor : 0.1 ≤ 3 / downsideRisk Real.sqrt oneLoss 1 := by
      rw [le_div_iff₀ hpos]
      linarith
    rw [effectiveLeverage_eq (by norm_num) (by norm_num) hpos, min_eq_right hbelow,
      ← mul_div_assoc, show (2 : ℝ) * (3 / 2) = 3 by norm_num, max_eq_right hfloor]
  have habove : 0.1 < 3 / downsideRisk Real.sqrt oneLoss 1 := by
    rw [lt_div_iff₀ hpos]
    linarith
  have hthree : downsideRisk Real.sqrt oneLoss (3 / downsideRisk Real.sqrt oneLoss 1) = 3 := by
    rw [downsideRisk_scale (div_nonneg (by norm_num) hpos.le), div_mul_cancel₀ _ hpos.ne']
  refine ⟨⟨htwo ▸ habove, by rw [htwo, hthree]⟩, ?_, ?_⟩
  · rw [effectiveLeverage_eq (by norm_num) (by norm_num) hpos]
    refine max_eq_left ?_
    calc 1 / 20 * min 1 (3 / 2 / downsideRisk Real.sqrt oneLoss 1) ≤ 1 / 20 * 1 :=
          mul_le_mul_of_nonneg_left (min_le_left _ _) (by norm_num)
      _ ≤ 0.1 := by norm_num
  · intro hall
    have hle := (hall oneLoss 2 (some (3 / 2)) (by norm_num)).2 (3 / 2) rfl (by norm_num)
      (htwo ▸ habove)
    rw [htwo, hthree] at hle
    norm_num at hle

end Msai.Portfolio
