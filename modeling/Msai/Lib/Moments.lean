import Mathlib.Algebra.Order.Field.Basic
import Mathlib.Algebra.Order.Field.Rat
import Mathlib.Algebra.Order.BigOperators.Group.List
import Mathlib.Algebra.BigOperators.Ring.List
import Mathlib.Tactic.FieldSimp
import Mathlib.Tactic.Linarith
import Mathlib.Tactic.Ring

namespace Msai.Lib.Moments

/-!
# Moments of a sample

Mean, variance and covariance of a list of numbers, with a divisor `n - ddof`.

* `mean`, `variance`, `covariance` — the moments;
* `mean_affine`, `covariance_affine` — what they are of `a + k * x`;
* `variance_ratio` — how the variances with two divisors compare;
* `variance_pos_iff` — a sample has no variance just when it is constant;
* `meanSquare_scale` — the mean square is homogeneous of degree two.
-/

variable {K : Type} [Field K]

/-- The mean. -/
def mean (xs : List K) : K := xs.sum / (xs.length : K)

/-- The sum of the squared deviations from the mean. -/
def squaredDeviations (xs : List K) : K := (xs.map fun x => (x - mean xs) ^ 2).sum

/-- The variance with divisor `n - ddof`. -/
def variance (ddof : ℕ) (xs : List K) : K := squaredDeviations xs / ((xs.length : K) - ddof)

/-- The covariance of a list of pairs with divisor `n - ddof`. -/
def covariance (ddof : ℕ) (ps : List (K × K)) : K :=
  (ps.map fun p => (p.1 - mean (ps.map Prod.fst)) * (p.2 - mean (ps.map Prod.snd))).sum
    / ((ps.length : K) - ddof)

/-- The mean of the squares. -/
def meanSquare (xs : List K) : K := mean (xs.map (· ^ 2))

variable {xs : List K} {a k : K}

theorem length_cast_ne_zero [CharZero K] (h : xs ≠ []) : (xs.length : K) ≠ 0 :=
  Nat.cast_ne_zero.mpr fun hlen => h (List.length_eq_zero_iff.mp hlen)

theorem sum_affine : (xs.map fun x => a + k * x).sum = xs.length * a + k * xs.sum := by
  induction xs with
  | nil => simp
  | cons x xs ih =>
    rw [List.map_cons, List.sum_cons, ih, List.sum_cons, List.length_cons]
    push_cast
    ring

/-- The mean goes through an affine map. -/
theorem mean_affine [CharZero K] (h : xs ≠ []) :
    mean (xs.map fun x => a + k * x) = a + k * mean xs := by
  have hn : (xs.length : K) ≠ 0 := length_cast_ne_zero h
  unfold mean
  rw [sum_affine, List.length_map]
  field_simp

/-- The covariance of `a + k * x` with `x` is `k` times the variance. -/
theorem covariance_affine [CharZero K] {ddof : ℕ} :
    covariance ddof (xs.map fun x => (a + k * x, x)) = k * variance ddof xs := by
  by_cases h : xs = []
  · subst h
    simp [covariance, variance, squaredDeviations]
  · have hfst : (xs.map fun x => (a + k * x, x)).map Prod.fst = xs.map fun x => a + k * x := by
      rw [List.map_map]
      rfl
    have hsnd : (xs.map fun x => (a + k * x, x)).map Prod.snd = xs := by
      rw [List.map_map]
      exact List.map_id xs
    have hterm : ∀ x : K, (a + k * x - (a + k * mean xs)) * (x - mean xs)
        = k * (x - mean xs) ^ 2 := fun x => by ring
    unfold covariance variance squaredDeviations
    rw [hfst, hsnd, mean_affine h, List.map_map, List.length_map]
    show (xs.map fun x => (a + k * x - (a + k * mean xs)) * (x - mean xs)).sum / _ = _
    simp only [hterm]
    rw [List.sum_map_mul_left, mul_div_assoc]

/-- The two variances differ by a factor. -/
theorem variance_ratio (h : variance 0 xs ≠ 0) :
    variance 1 xs / variance 0 xs = (xs.length : K) / ((xs.length : K) - 1) := by
  unfold variance at h ⊢
  obtain ⟨hsum, hlen⟩ := div_ne_zero_iff.mp h
  rw [Nat.cast_zero, sub_zero, Nat.cast_one, div_div_div_eq, mul_comm ((xs.length : K) - 1),
    mul_div_mul_left _ _ hsum]

/-- The mean square is homogeneous. -/
theorem meanSquare_scale : meanSquare (xs.map (k * ·)) = k ^ 2 * meanSquare xs := by
  have hterm : ∀ x : K, (k * x) ^ 2 = k ^ 2 * x ^ 2 := fun x => by ring
  unfold meanSquare mean
  rw [List.map_map, List.length_map, List.length_map]
  show (xs.map fun x => (k * x) ^ 2).sum / _ = _
  simp only [hterm]
  rw [List.sum_map_mul_left, mul_div_assoc]

/-! ### Constant samples -/

variable [LinearOrder K] [IsStrictOrderedRing K]

theorem squaredDeviations_nonneg : 0 ≤ squaredDeviations xs := by
  apply List.sum_nonneg
  intro y hy
  obtain ⟨x, -, rfl⟩ := List.mem_map.mp hy
  exact sq_nonneg _

/-- Nothing deviates from the mean just when all elements are equal. -/
theorem squaredDeviations_eq_zero_iff :
    squaredDeviations xs = 0 ↔ ∀ x ∈ xs, ∀ y ∈ xs, x = y := by
  constructor
  · intro h
    have hmean : ∀ x ∈ xs, x = mean xs := by
      intro x hx
      have hle : (x - mean xs) ^ 2 ≤ squaredDeviations xs := by
        refine List.single_le_sum ?_ _ (List.mem_map.mpr ⟨x, hx, rfl⟩)
        intro y hy
        obtain ⟨z, -, rfl⟩ := List.mem_map.mp hy
        exact sq_nonneg _
      rw [h] at hle
      exact sub_eq_zero.mp ((pow_eq_zero_iff two_ne_zero).mp (le_antisymm hle (sq_nonneg _)))
    intro x hx y hy
    rw [hmean x hx, ← hmean y hy]
  · intro h
    have hzero : ∀ x ∈ xs, (x - mean xs) ^ 2 = 0 := by
      intro x hx
      have hmean : mean xs = x := by
        have hrep : xs = List.replicate xs.length x :=
          List.eq_replicate_iff.mpr ⟨rfl, fun y hy => h y hy x hx⟩
        have hn : (xs.length : K) ≠ 0 := length_cast_ne_zero (List.ne_nil_of_mem hx)
        unfold mean
        nth_rewrite 1 [hrep]
        rw [List.sum_replicate, nsmul_eq_mul]
        field_simp
      rw [hmean, sub_self]
      ring
    apply List.sum_eq_zero
    intro y hy
    obtain ⟨x, hx, rfl⟩ := List.mem_map.mp hy
    exact hzero x hx

/-- A sample has a positive variance just when it is not constant. -/
theorem variance_pos_iff : 0 < variance 0 xs ↔ ∃ x ∈ xs, ∃ y ∈ xs, x ≠ y := by
  have hiff : ¬ squaredDeviations xs = 0 ↔ ¬ ∀ x ∈ xs, ∀ y ∈ xs, x = y :=
    squaredDeviations_eq_zero_iff.not
  push Not at hiff
  rw [← hiff]
  by_cases h : xs = []
  · subst h
    simp [variance, squaredDeviations]
  · have hn : 0 < (xs.length : K) - (0 : ℕ) := by
      rw [Nat.cast_zero, sub_zero]
      exact Nat.cast_pos.mpr (List.length_pos_iff.mpr h)
    unfold variance
    rw [div_pos_iff_of_pos_right hn]
    exact ⟨fun hpos => ne_of_gt hpos, fun hne => lt_of_le_of_ne squaredDeviations_nonneg hne.symm⟩

/-- Two different elements make a sample of at least two. -/
theorem two_le_length {α : Type} {l : List α} (h : ∃ x ∈ l, ∃ y ∈ l, x ≠ y) : 2 ≤ l.length := by
  obtain ⟨x, hx, y, hy, hne⟩ := h
  by_contra hlt
  have hle : l.length ≤ 1 := by omega
  obtain ⟨i, hi, rfl⟩ := List.getElem_of_mem hx
  obtain ⟨j, hj, rfl⟩ := List.getElem_of_mem hy
  have hij : i = j := by omega
  subst hij
  exact hne rfl

end Msai.Lib.Moments
