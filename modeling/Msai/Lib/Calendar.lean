import Mathlib.Algebra.Order.Ring.Int
import Mathlib.Data.Int.Range
import Mathlib.Data.List.Sort

namespace Msai.Lib.Calendar

/-!
# Days and months

The Gregorian calendar, without its names: days are numbered from 1970-01-01, months from January
of the year 0, and a month is known by the number of its first day.

* `yearStart`, `monthStart` — the first day of a year that begins in March, and of a month;
* `monthOf` — the month of a day; `monthOf_spec` says that the day is in it;
* `dayNumber`, `isDate`, `weekday` — the day of a date, which dates there are, and the day of the
  week;
* `span` — the days, or the months, from one to another;
* `daysOn`, `thirdOn` — the days of a month on a day of the week, and the third of them;
* `dayOf` — the day of a timestamp in nanoseconds.
-/

/-! ### Months -/

/-- Days in front of 1 March of a year, counted from 1 March of the year 0. -/
def yearStart (y : ℤ) : ℤ := 365 * y + y / 4 - y / 100 + y / 400

/-- The first day of a month. -/
def monthStart (m : ℤ) : ℤ :=
  -- a year that begins in March has its leap day at the end
  yearStart ((m - 2) / 12) + (153 * ((m - 2) % 12) + 2) / 5 - 719468

/-- The year of a day that is `n` days into a cycle of 400 years. -/
def yearOfCycle (n : ℤ) : ℤ := if yearStart (n / 365) ≤ n then n / 365 else n / 365 - 1

/-- The month of a day. -/
def monthOf (d : ℤ) : ℤ :=
  let n := (d + 719468) % 146097
  let y := yearOfCycle n
  12 * (400 * ((d + 719468) / 146097) + y) + (5 * (n - yearStart y) + 2) / 153 + 2

variable {d : ℤ}

/-- A year has 365 or 366 days. -/
theorem yearStart_succ (y : ℤ) :
    yearStart (y + 1) = yearStart y + 365 ∨ yearStart (y + 1) = yearStart y + 366 := by
  unfold yearStart
  have hcentury : (y + 1) / 100 = y / 100 ∨
      (y + 1) / 100 = y / 100 + 1 ∧ (y + 1) / 4 = y / 4 + 1 := by omega
  have hcycle : (y + 1) / 400 = y / 400 ∨
      (y + 1) / 400 = y / 400 + 1 ∧ (y + 1) / 100 = y / 100 + 1 := by omega
  omega

theorem yearStart_cycle (c y : ℤ) : yearStart (400 * c + y) = 146097 * c + yearStart y := by
  unfold yearStart
  omega

/-- The first day of the `k`-th month from March. -/
theorem monthStart_eq {y k : ℤ} (hlow : 0 ≤ k) (hhigh : k < 12) :
    monthStart (12 * y + k + 2) = yearStart y + (153 * k + 2) / 5 - 719468 := by
  have hdiv : (12 * y + k + 2 - 2) / 12 = y := by omega
  have hmod : (12 * y + k + 2 - 2) % 12 = k := by omega
  rw [monthStart, hdiv, hmod]

/-- The month behind it; February is followed by the next year. -/
theorem monthStart_next {y k : ℤ} (hlow : 0 ≤ k) (hhigh : k < 12) :
    monthStart (12 * y + k + 2 + 1)
      = if k = 11 then yearStart (y + 1) - 719468
        else yearStart y + (153 * (k + 1) + 2) / 5 - 719468 := by
  split
  · have hsucc : 12 * y + k + 2 + 1 = 12 * (y + 1) + 0 + 2 := by omega
    rw [hsucc, monthStart_eq le_rfl (by decide)]
    omega
  · have hsucc : 12 * y + k + 2 + 1 = 12 * y + (k + 1) + 2 := by omega
    rw [hsucc, monthStart_eq (by omega) (by omega)]

/-- A month has 28 to 31 days. -/
theorem monthStart_succ (m : ℤ) :
    monthStart m + 28 ≤ monthStart (m + 1) ∧ monthStart (m + 1) ≤ monthStart m + 31 := by
  obtain ⟨y, k, hlow, hhigh, rfl⟩ : ∃ y k, 0 ≤ k ∧ k < 12 ∧ m = 12 * y + k + 2 :=
    ⟨(m - 2) / 12, (m - 2) % 12, by omega, by omega, by omega⟩
  have hyear := yearStart_succ y
  rw [monthStart_eq hlow hhigh, monthStart_next hlow hhigh]
  split
  · omega
  · omega

theorem monthStart_le {m m' : ℤ} (h : m ≤ m') : monthStart m ≤ monthStart m' := by
  induction m', h using Int.leInduction with
  | base => exact le_rfl
  | succ m' _ ih =>
    have hdays := (monthStart_succ m').1
    omega

/-- The year of a cycle is found. -/
theorem yearOfCycle_spec {n : ℤ} (hlow : 0 ≤ n) (hhigh : n < 146097) :
    yearStart (yearOfCycle n) ≤ n ∧ n < yearStart (yearOfCycle n + 1) := by
  unfold yearOfCycle
  split
  · rename_i hle
    refine ⟨hle, ?_⟩
    unfold yearStart
    omega
  · rename_i hgt
    rw [sub_add_cancel]
    refine ⟨?_, not_le.mp hgt⟩
    unfold yearStart
    omega

/-- A day is in its month. -/
theorem monthOf_spec (d : ℤ) : monthStart (monthOf d) ≤ d ∧ d < monthStart (monthOf d + 1) := by
  have hcycle : 0 ≤ (d + 719468) % 146097 ∧ (d + 719468) % 146097 < 146097 := by omega
  have hyear := yearOfCycle_spec hcycle.1 hcycle.2
  unfold monthOf
  dsimp only
  generalize yearOfCycle ((d + 719468) % 146097) = y at *
  have hlength := yearStart_succ y
  generalize hdoy : (d + 719468) % 146097 - yearStart y = doy
  have hk : 0 ≤ (5 * doy + 2) / 153 ∧ (5 * doy + 2) / 153 < 12 := by omega
  rw [monthStart_eq hk.1 hk.2, monthStart_next hk.1 hk.2, yearStart_cycle]
  refine ⟨by omega, ?_⟩
  split
  · rw [add_assoc, yearStart_cycle]
    omega
  · omega

theorem monthOf_mono {d d' : ℤ} (h : d ≤ d') : monthOf d ≤ monthOf d' := by
  by_contra hgt
  -- the month of `d` would begin when that of `d'` has ended
  have hstart := monthStart_le (show monthOf d' + 1 ≤ monthOf d by omega)
  have hlow := (monthOf_spec d).1
  have hhigh := (monthOf_spec d').2
  omega

/-! ### Dates -/

/-- The day of a date. -/
def dayNumber (year month day : ℤ) : ℤ := monthStart (12 * year + (month - 1)) + (day - 1)

/-- There is such a date. -/
def isDate (year month day : ℤ) : Bool :=
  decide (1 ≤ month ∧ month ≤ 12 ∧ 1 ≤ day ∧
    dayNumber year month day < monthStart (12 * year + month))

theorem isDate_range {year month day : ℤ} (h : isDate year month day = true) :
    (1 ≤ month ∧ month ≤ 12) ∧ 1 ≤ day ∧ day ≤ 31 := by
  obtain ⟨hlow, hhigh, hday, hlast⟩ := of_decide_eq_true h
  have hlength := (monthStart_succ (12 * year + (month - 1))).2
  have hnext : 12 * year + (month - 1) + 1 = 12 * year + month := by omega
  rw [hnext] at hlength
  unfold dayNumber at hlast
  omega

/-- `date.weekday()`: Monday is 0. -/
def weekday (d : ℤ) : ℤ := (d + 3) % 7

example : isDate 2024 2 29 = true ∧ isDate 2023 2 29 = false := by decide

/-! ### Spans -/

/-- The days, or the months, from one to another. -/
def span (first last : ℤ) : List ℤ := Int.range first (last + 1)

theorem mem_span {first last : ℤ} : d ∈ span first last ↔ first ≤ d ∧ d ≤ last := by
  rw [span, Int.mem_range_iff, Int.lt_add_one_iff]

theorem pairwise_span (first last : ℤ) : (span first last).Pairwise (· < ·) := by
  refine List.pairwise_map.mpr (List.pairwise_lt_range.imp fun h => ?_)
  omega

theorem length_span (first last : ℤ) : (span first last).length = (last + 1 - first).toNat := by
  rw [span, Int.range, List.length_map, List.length_range]

/-- A span in two pieces. -/
theorem span_append {first middle last : ℤ} (hlow : first ≤ middle + 1) (hhigh : middle ≤ last) :
    span first middle ++ span (middle + 1) last = span first last := by
  have hsorted : (span first middle ++ span (middle + 1) last).Pairwise (· < ·) := by
    refine List.pairwise_append.mpr ⟨pairwise_span _ _, pairwise_span _ _, fun d hd e he => ?_⟩
    have hle := (mem_span.mp hd).2
    have hge := (mem_span.mp he).1
    omega
  refine hsorted.eq_of_mem_iff (pairwise_span _ _) fun d => ?_
  rw [List.mem_append, mem_span, mem_span, mem_span]
  omega

/-! ### Days of the week in a month -/

/-- The days of a month on a day of the week. -/
def daysOn (w m : ℤ) : List ℤ :=
  (span (monthStart m) (monthStart (m + 1) - 1)).filter fun d => weekday d = w

/-- The third of them. -/
def thirdOn (w m : ℤ) : ℤ := monthStart m + ((w - weekday (monthStart m)) % 7 + 14)

/-- It is one of the days from the 15th to the 21st. -/
theorem thirdOn_range (w m : ℤ) :
    monthStart m + 14 ≤ thirdOn w m ∧ thirdOn w m < monthStart m + 21 := by
  unfold thirdOn
  omega

theorem thirdOn_lt_monthStart {w m m' : ℤ} (h : m < m') : thirdOn w m < monthStart m' := by
  have hrange := thirdOn_range w m
  have hdays := (monthStart_succ m).1
  have hnext := monthStart_le (show m + 1 ≤ m' by omega)
  omega

theorem thirdOn_lt {w m m' : ℤ} (h : m < m') : thirdOn w m < thirdOn w m' := by
  have hrange := thirdOn_range w m'
  have hlt := thirdOn_lt_monthStart (w := w) h
  omega

/-- A later month has a later one. -/
@[simp] theorem thirdOn_le_iff {w m m' : ℤ} : thirdOn w m ≤ thirdOn w m' ↔ m ≤ m' := by
  constructor
  · intro hle
    by_contra hnot
    have hlt := thirdOn_lt (w := w) (show m' < m by omega)
    omega
  · intro hle
    rcases Int.le_iff_eq_or_lt.mp hle with rfl | hlt
    · exact Int.le_refl _
    · exact Int.le_of_lt (thirdOn_lt hlt)

/-- Two of them are before it, and none is between. -/
theorem daysOn_third {w : ℤ} (hw : 0 ≤ w ∧ w < 7) (m : ℤ) :
    (daysOn w m)[2]? = some (thirdOn w m) := by
  have hrange := thirdOn_range w m
  have hdays := (monthStart_succ m).1
  have hday : weekday (thirdOn w m) = w := by
    unfold thirdOn weekday
    omega
  have hsplit : span (monthStart m) (thirdOn w m) ++
      span (thirdOn w m + 1) (monthStart (m + 1) - 1) =
        span (monthStart m) (monthStart (m + 1) - 1) :=
    span_append (by omega) (by omega)
  have hfirst : (span (monthStart m) (thirdOn w m)).filter (fun d => weekday d = w) =
      [thirdOn w m - 14, thirdOn w m - 7, thirdOn w m] := by
    refine ((pairwise_span _ _).filter _).eq_of_mem_iff (by simp) fun d => ?_
    rw [List.mem_filter, mem_span, decide_eq_true_eq]
    simp only [List.mem_cons, List.not_mem_nil, or_false]
    unfold weekday at hday ⊢
    omega
  rw [daysOn, ← hsplit, List.filter_append, hfirst]
  rfl

example : daysOn 4 (12 * 2026 + 2) = [20518, 20525, 20532, 20539] := by decide

/-! ### Timestamps -/

/-- Nanoseconds in a day. -/
def dayNs : ℤ := 24 * 60 * 60 * 10 ^ 9

/-- The day of a timestamp. -/
def dayOf (t : ℤ) : ℤ := t / dayNs

theorem dayOf_mono {t t' : ℤ} (h : t ≤ t') : dayOf t ≤ dayOf t' :=
  Int.ediv_le_ediv (by decide) h

end Msai.Lib.Calendar
