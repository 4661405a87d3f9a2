import Msai.Analytics.Series

namespace Msai.Analytics

open Msai.Lib Msai.Lib.Moments

/-!
# Alpha and beta of a linear model (`compute_alpha_beta` in `services/analytics_math.py`)

The strategy's returns are `a + k * b` for a benchmark `b`.

* `Returns.affine` — the strategy's returns;
* `computeAlphaBeta_affine` — what comes out: the covariance is divided by `n - 1` and the variance
  by `n`, so beta is `k * n / (n - 1)`;
* `linear_model_recovered` — so the model is recovered just for `k = 0`.
-/

variable {K : Type} [Field K]

/-- `a + k * b`. -/
def Returns.affine (b : Returns K) (a k : K) : Returns K := b.map fun v => a + k * v

/-- The rows of the strategy next to those of its benchmark. -/
theorem aligned_affine {b : Returns K} {a k : K} :
    ((clean (b.affine a k)).rows.filterMap fun p =>
        ((clean b).get p.1).map fun y => (p.1, p.2, y))
      = (clean b).rows.map fun p => (p.1, a + k * p.2, p.2) := by
  have hrows : (clean (b.affine a k)).rows = (clean b).rows.map fun p => (p.1, a + k * p.2) := by
    rw [Returns.affine, clean_map]
    rfl
  rw [hrows, List.filterMap_map, ← List.filterMap_eq_map]
  apply List.filterMap_congr
  intro p hp
  show ((clean b).get p.1).map _ = _
  rw [Series.get_of_mem hp]
  rfl

variable [LinearOrder K]

/-- The number of periods per year that `compute_alpha_beta` works with. -/
def periodsUsed (index : List ℤ) (periodsPerYear : Option K) : K :=
  match periodsPerYear with
  | some p => if p = 0 then inferPeriodsPerYear index else p
  | none => inferPeriodsPerYear index

variable [IsStrictOrderedRing K] {b : Returns K} {a k : K} {periods : Option K}

/-- What comes out for a linear model. -/
theorem computeAlphaBeta_affine
    (hb : ∃ x ∈ (clean b).values, ∃ y ∈ (clean b).values, x ≠ y) :
    let n : K := (clean b).values.length
    let beta := k * n / (n - 1)
    computeAlphaBeta (b.affine a k) b periods
      = (some ((a + k * mean (clean b).values - beta * mean (clean b).values)
          * periodsUsed (clean b).index periods), some beta) := by
  intro n beta
  have hlen : 2 ≤ (clean b).values.length := two_le_length hb
  have hne : (clean b).values ≠ [] := by
    intro hnil
    rw [hnil, List.length_nil] at hlen
    omega
  have hpairs : ((clean b).rows.map fun p => (p.1, a + k * p.2, p.2)).map Prod.snd
      = (clean b).values.map fun x => (a + k * x, x) := by
    rw [Series.values, List.map_map, List.map_map]
    rfl
  have hindex : ((clean b).rows.map fun p => (p.1, a + k * p.2, p.2)).map Prod.fst
      = (clean b).index := by
    rw [Series.index, List.map_map]
    rfl
  have hfst : ((clean b).values.map fun x => (a + k * x, x)).map Prod.fst
      = (clean b).values.map fun x => a + k * x := by
    rw [List.map_map]
    rfl
  have hsnd : ((clean b).values.map fun x => (a + k * x, x)).map Prod.snd = (clean b).values := by
    rw [List.map_map]
    exact List.map_id _
  have hvar : 0 < variance 0 (clean b).values := variance_pos_iff.mpr hb
  have hbeta : covariance 1 ((clean b).values.map fun x => (a + k * x, x))
      / variance 0 (clean b).values = beta := by
    rw [covariance_affine, mul_div_assoc, variance_ratio hvar.ne', ← mul_div_assoc]
  unfold computeAlphaBeta
  simp only [aligned_affine, hpairs, hindex, hfst, hsnd]
  rw [if_neg (by simpa using hne), if_neg (not_le.mpr hvar), hbeta, mean_affine hne]
  rfl

/-- The linear model is recovered just when the benchmark plays no part in it. -/
theorem linear_model_recovered {K : Type} [Field K] [LinearOrder K] [IsStrictOrderedRing K]
    (b : Returns K) (a k : K) (periods : Option K)
    (hb : ∃ x ∈ (clean b).values, ∃ y ∈ (clean b).values, x ≠ y) :
    computeAlphaBeta (b.affine a k) b periods
        = (some (a * periodsUsed (clean b).index periods), some k) ↔ k = 0 := by
  have hn : (2 : K) ≤ (clean b).values.length := by exact_mod_cast two_le_length hb
  have hpos : (0 : K) < (clean b).values.length - 1 := by linarith
  rw [computeAlphaBeta_affine hb]
  constructor
  · intro h
    have hbeta : k * ((clean b).values.length : K) / ((clean b).values.length - 1) = k :=
      Option.some.inj (Prod.ext_iff.mp h).2
    rw [div_eq_iff hpos.ne'] at hbeta
    linarith
  · rintro rfl
    simp

/-- Two days of a benchmark that gains a percent on the second one. -/
def twoDays : Returns ℚ where
  rows := [(some 0, some 0), (some 86400000000000, some (1 / 100))]
  nodup := by decide

theorem linear_model_recovered_two_days :
    computeAlphaBeta (twoDays.affine (1 / 1000) 0) twoDays none
        = (some (1 / 1000 * periodsUsed (clean twoDays).index none), some 0) ↔ (0 : ℚ) = 0 :=
  linear_model_recovered twoDays (1 / 1000) 0 none
    ⟨0, by decide +kernel, 1 / 100, by decide +kernel, by decide +kernel⟩

/-- A series measured against itself gets a beta of two. -/
theorem linear_model_recovered_fails :
    (∃ x ∈ (clean twoDays).values, ∃ y ∈ (clean twoDays).values, x ≠ y) ∧
    computeAlphaBeta (twoDays.affine 0 1) twoDays none
        = (some (-(1 / 200) * periodsUsed (clean twoDays).index none), some 2) ∧
    computeAlphaBeta (twoDays.affine 0 1) twoDays none
        ≠ (some (0 * periodsUsed (clean twoDays).index none), some 1) := by
  decide +kernel

end Msai.Analytics
