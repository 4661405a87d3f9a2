import Mathlib.Algebra.Order.Field.Basic
import Mathlib.Algebra.Order.Field.Rat
import Mathlib.Algebra.BigOperators.Group.List.Basic

namespace Msai.Lib.PyFloat

/-!
# Floats that may be NaN

A Python float in exact arithmetic: a number, or NaN.  No comparison with NaN holds, and every
operation on NaN is NaN.

* `exceeds`, `capped`, `magnitude`, `sum`, `maximum` — `x > cap`, `min(x, cap)`, `abs`, `sum`,
  `max`;
* `sum_map_some`, `sum_eq_none` — a sum of numbers is their sum, a sum with NaN is NaN.
-/

variable {K : Type}

/-- A float; `none` is NaN. -/
abbrev Num (K : Type) := Option K

section Order

variable [LinearOrder K]

/-- `x > cap`. -/
def exceeds (x : Num K) (cap : K) : Bool :=
  match x with
  | none => false
  | some x => decide (cap < x)

/-- `min(x, cap)`, which returns its first argument unless the second is less. -/
def capped (x : Num K) (cap : K) : Num K := x.map fun x => min x cap

/-- `max` of two, which returns its first argument unless the second is greater. -/
def max2 (x y : Num K) : Num K :=
  match x, y with
  | some a, some b => some (max a b)
  | _, _ => x

/-- `max(xs)` of a list that is not empty. -/
def maximum : List (Num K) → Num K
  | [] => none
  | x :: xs => xs.foldl max2 x

end Order

/-- `abs(x)`. -/
def magnitude [Lattice K] [AddGroup K] (x : Num K) : Num K := x.map fun x => |x|

section Sum

variable [Field K]

/-- `x + y`. -/
def add (x y : Num K) : Num K := x.bind fun a => y.map fun b => a + b

/-- `sum(xs)`. -/
def sum (xs : List (Num K)) : Num K := xs.foldr add (some 0)

theorem sum_cons {x : Num K} {xs : List (Num K)} : sum (x :: xs) = add x (sum xs) := rfl

/-- A sum of numbers. -/
theorem sum_map_some {α : Type} {l : List α} {f : α → K} :
    sum (l.map fun a => some (f a)) = some (l.map f).sum := by
  induction l with
  | nil => rfl
  | cons a l ih =>
    rw [List.map_cons, sum_cons, ih, List.map_cons, List.sum_cons]
    rfl

/-- The same where the summands are known to be numbers. -/
theorem sum_map_of_some {α : Type} {l : List α} {g : α → Num K} {f : α → K}
    (h : ∀ a ∈ l, g a = some (f a)) : sum (l.map g) = some (l.map f).sum := by
  rw [List.map_congr_left h, sum_map_some]

/-- NaN is not lost in a sum. -/
theorem sum_eq_none {xs : List (Num K)} (h : none ∈ xs) : sum xs = none := by
  induction xs with
  | nil => cases h
  | cons x xs ih =>
    rw [sum_cons]
    rcases List.mem_cons.mp h with rfl | hmem
    · rfl
    · rw [ih hmem]
      cases x with
      | none => rfl
      | some a => rfl

end Sum

end Msai.Lib.PyFloat
