import Mathlib.Algebra.Order.Field.Rat
import Mathlib.Data.Int.Log
import Mathlib.Data.Rat.Floor
import Mathlib.Tactic.Linarith
import Mathlib.Tactic.FieldSimp

namespace Msai.Lib.Binary64

/-!
# Rounding to a float

A float of 64 bits, as the rational it stands for: 53 binary digits, and no digit behind the 1074th
binary place.  Overflow to infinity is left out.

* `roundEven`, `round` — to the nearest integer and to the nearest float, ties to even;
* `round_mono` — rounding keeps the order;
* `round_dyadic` — a number of 53 digits is not changed;
* `toInt`, `mulInt` — `int(x)`, and the product of an `int` and a `float`.
-/

/-! ### To an integer -/

/-- The nearest integer, the even one of two. -/
def roundEven (x : ℚ) : ℤ :=
  if x - ⌊x⌋ < 1 / 2 then ⌊x⌋
  else if 1 / 2 < x - ⌊x⌋ then ⌊x⌋ + 1
  else ⌊x⌋ + ⌊x⌋ % 2

theorem roundEven_intCast (n : ℤ) : roundEven n = n := by
  unfold roundEven
  rw [Int.floor_intCast, sub_self]
  exact if_pos (by norm_num)

theorem roundEven_bounds (x : ℚ) : ⌊x⌋ ≤ roundEven x ∧ roundEven x ≤ ⌊x⌋ + 1 := by
  unfold roundEven
  split
  · omega
  · split
    · omega
    · omega

theorem roundEven_mono {x y : ℚ} (hle : x ≤ y) : roundEven x ≤ roundEven y := by
  rcases (Int.floor_mono hle).lt_or_eq with hlt | heq
  · have hx := (roundEven_bounds x).2
    have hy := (roundEven_bounds y).1
    omega
  · -- between the same two integers the distances decide
    have hdist : x - ⌊x⌋ ≤ y - ⌊x⌋ := by linarith
    unfold roundEven
    rw [← heq]
    split
    · split
      · exact le_rfl
      · split
        · omega
        · omega
    · rename_i hx
      rw [if_neg fun hy => hx (hdist.trans_lt hy)]
      split
      · rename_i hup
        rw [if_pos (hup.trans_le hdist)]
      · split
        · omega
        · exact le_rfl

/-! ### To a float -/

/-- The place of the last digit of a positive float. -/
def exponent (x : ℚ) : ℤ := max (Int.log 2 x - 52) (-1074)

/-- The nearest float of a number that is not negative. -/
def roundMagnitude (x : ℚ) : ℚ := roundEven (x / 2 ^ exponent x) * 2 ^ exponent x

/-- The nearest float. -/
def round (x : ℚ) : ℚ := if 0 ≤ x then roundMagnitude x else -roundMagnitude (-x)

variable {x y : ℚ} {m k : ℤ}

theorem two_zpow_pos (k : ℤ) : (0 : ℚ) < 2 ^ k := zpow_pos (by norm_num) k

/-- A multiple of a place is one of each place behind it. -/
theorem exists_int_mul (m : ℤ) {e : ℤ} (he : e ≤ k) : ∃ n : ℤ, (m : ℚ) * 2 ^ k / 2 ^ e = n := by
  refine ⟨m * 2 ^ (k - e).toNat, ?_⟩
  have hexp : ((k - e).toNat : ℤ) = k - e := Int.toNat_of_nonneg (by omega)
  rw [mul_div_assoc, ← zpow_sub₀ (by norm_num), ← hexp, zpow_natCast]
  push_cast
  rfl

/-- Rounding does not cross a multiple of the last place. -/
theorem roundMagnitude_le (h : x ≤ m * 2 ^ k) (he : exponent x ≤ k) :
    roundMagnitude x ≤ m * 2 ^ k := by
  obtain ⟨n, hn⟩ := exists_int_mul m he
  have hpos := two_zpow_pos (exponent x)
  have hround : roundEven (x / 2 ^ exponent x) ≤ n := by
    rw [← roundEven_intCast n, ← hn]
    exact roundEven_mono (div_le_div_of_nonneg_right h hpos.le)
  calc roundMagnitude x ≤ n * 2 ^ exponent x :=
        mul_le_mul_of_nonneg_right (Int.cast_le.mpr hround) hpos.le
    _ = m * 2 ^ k := by rw [← hn, div_mul_cancel₀ _ hpos.ne']

theorem le_roundMagnitude (h : m * 2 ^ k ≤ x) (he : exponent x ≤ k) :
    m * 2 ^ k ≤ roundMagnitude x := by
  obtain ⟨n, hn⟩ := exists_int_mul m he
  have hpos := two_zpow_pos (exponent x)
  have hround : n ≤ roundEven (x / 2 ^ exponent x) := by
    rw [← roundEven_intCast n, ← hn]
    exact roundEven_mono (div_le_div_of_nonneg_right h hpos.le)
  calc (m : ℚ) * 2 ^ k = n * 2 ^ exponent x := by rw [← hn, div_mul_cancel₀ _ hpos.ne']
    _ ≤ roundMagnitude x := mul_le_mul_of_nonneg_right (Int.cast_le.mpr hround) hpos.le

theorem roundMagnitude_zero : roundMagnitude 0 = 0 := by
  unfold roundMagnitude
  rw [zero_div, ← Int.cast_zero, roundEven_intCast, Int.cast_zero, zero_mul]

theorem roundMagnitude_nonneg (h : 0 ≤ x) : 0 ≤ roundMagnitude x := by
  have hround : 0 ≤ roundEven (x / 2 ^ exponent x) := by
    rw [← roundEven_intCast 0, Int.cast_zero]
    exact roundEven_mono (div_nonneg h (two_zpow_pos _).le)
  exact mul_nonneg (Int.cast_nonneg hround) (two_zpow_pos _).le

theorem roundMagnitude_mono (hx : 0 ≤ x) (hle : x ≤ y) : roundMagnitude x ≤ roundMagnitude y := by
  rcases hx.eq_or_lt with rfl | hx
  · rw [roundMagnitude_zero]
    exact roundMagnitude_nonneg hle
  have hy : 0 < y := hx.trans_le hle
  have hlog : Int.log 2 x ≤ Int.log 2 y := Int.log_mono_right hx hle
  rcases eq_or_ne (exponent x) (exponent y) with heq | hne
  · have hpos := two_zpow_pos (exponent y)
    unfold roundMagnitude
    rw [heq]
    exact mul_le_mul_of_nonneg_right (Int.cast_le.mpr
      (roundEven_mono (div_le_div_of_nonneg_right hle hpos.le))) hpos.le
  · -- a power of two lies between the two
    have hexp : exponent x < exponent y ∧ exponent y = Int.log 2 y - 52 ∧
        Int.log 2 x + 1 ≤ Int.log 2 y := by
      unfold exponent at hne ⊢
      omega
    obtain ⟨hlt, hey, hstep⟩ := hexp
    have hpower : ((2 ^ 52 : ℤ) : ℚ) * 2 ^ exponent y = 2 ^ Int.log 2 y := by
      have hsum : Int.log 2 y = 52 + (Int.log 2 y - 52) := by omega
      rw [hey, hsum, zpow_add₀ (by norm_num), ← hsum]
      norm_num
    have hbelow : x ≤ ((2 ^ 52 : ℤ) : ℚ) * 2 ^ exponent y := by
      rw [hpower]
      exact (Int.lt_zpow_succ_log_self (b := 2) (by norm_num) x).le.trans
        (zpow_le_zpow_right₀ (by norm_num) hstep)
    have habove : ((2 ^ 52 : ℤ) : ℚ) * 2 ^ exponent y ≤ y := by
      rw [hpower]
      exact Int.zpow_log_le_self (b := 2) (by norm_num) hy
    exact (roundMagnitude_le hbelow hlt.le).trans (le_roundMagnitude habove le_rfl)

/-- **Rounding keeps the order.** -/
theorem round_mono : Monotone round := by
  intro x y hle
  unfold round
  split
  · rename_i hx
    rw [if_pos (hx.trans hle)]
    exact roundMagnitude_mono hx hle
  · rename_i hx
    split
    · rename_i hy
      have hneg := roundMagnitude_nonneg (x := -x) (by linarith)
      have hpos := roundMagnitude_nonneg hy
      linarith
    · rename_i hy
      exact neg_le_neg (roundMagnitude_mono (by linarith) (neg_le_neg hle))

/-- **A number of 53 digits is not changed.** -/
theorem round_dyadic (hm : 0 ≤ m) (hdigits : m < 2 ^ 53) (hk : -1074 ≤ k) :
    round (m * 2 ^ k) = m * 2 ^ k := by
  have hpos := two_zpow_pos k
  have hnonneg : (0 : ℚ) ≤ m * 2 ^ k := mul_nonneg (Int.cast_nonneg hm) hpos.le
  rw [round, if_pos hnonneg]
  rcases hnonneg.eq_or_lt with hzero | hx
  · rw [← hzero, roundMagnitude_zero]
  have hlog : Int.log 2 ((m : ℚ) * 2 ^ k) < 53 + k := by
    rw [← Int.lt_zpow_iff_log_lt (by norm_num) hx]
    have hcast : (m : ℚ) < 2 ^ 53 := by exact_mod_cast hdigits
    calc (m : ℚ) * 2 ^ k < 2 ^ 53 * 2 ^ k := mul_lt_mul_of_pos_right hcast hpos
      _ = ((2 : ℕ) : ℚ) ^ (53 + k) := by
        rw [Nat.cast_ofNat, zpow_add₀ (by norm_num)]
        norm_num
  have hexp : exponent ((m : ℚ) * 2 ^ k) ≤ k := by
    unfold exponent
    omega
  exact le_antisymm (roundMagnitude_le le_rfl hexp) (le_roundMagnitude le_rfl hexp)

/-- An integer below `2 ^ 53` is a float. -/
theorem round_intCast (hm : 0 ≤ m) (hdigits : m < 2 ^ 53) : round m = m := by
  have hdyadic := round_dyadic (k := 0) hm hdigits (by norm_num)
  rwa [zpow_zero, mul_one] at hdyadic

/-- Half of one is a float as well. -/
theorem round_half (hm : 0 ≤ m) (hdigits : m < 2 ^ 53) : round (m / 2) = m / 2 := by
  have hdyadic := round_dyadic (k := -1) hm hdigits (by norm_num)
  rwa [zpow_neg_one, ← div_eq_mul_inv] at hdyadic

/-! ### Operations -/

/-- `int(x)`, which drops the digits behind the point. -/
def toInt (x : ℚ) : ℤ := if 0 ≤ x then ⌊x⌋ else ⌈x⌉

theorem toInt_le (h : x ≤ m) : toInt x ≤ m := by
  unfold toInt
  split
  · exact_mod_cast (Int.floor_le x).trans h
  · exact Int.ceil_le.mpr h

/-- `n * x` of an `int` and a `float`. -/
def mulInt (n : ℤ) (x : ℚ) : ℚ := round (round n * x)

/-- A product is monotone in its second factor. -/
theorem mulInt_mono {n : ℤ} (hn : 0 ≤ n) : Monotone (mulInt n) := by
  have hfactor : 0 ≤ round n := by
    have hcast : (0 : ℚ) ≤ n := Int.cast_nonneg hn
    rw [round, if_pos hcast]
    exact roundMagnitude_nonneg hcast
  exact fun x y hle => round_mono (mul_le_mul_of_nonneg_left hle hfactor)

end Msai.Lib.Binary64
