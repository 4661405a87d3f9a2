import Msai.Lib.Binary64
import Msai.Portfolio.Trial
import Mathlib.Tactic.Ring

namespace Msai.Portfolio.FullMode

open Msai.Lib Msai.Analytics Optimizer

/-!
# The ranges of the walk-forward

The optimizer tunes on the training range of a window and scores on the test range behind it.

* `windowAt` — the window at a cursor;
* `Fit` — how many windows end in the range;
* `windowsFrom_eq`, `Builds`, `buildWalkForwardWindows_eq` — which windows are returned, and when a
  date behind the last one is met;
* `LeakFree` — no bar is both trained and tested on, none is tested on twice;
* `scaledWalkForwardParams` — `_scaled_walk_forward_params`;
* `walkForward_leakFree`, `scaled_fits` — whole windows, and windows of scaled lengths.

Dates are day numbers, timestamps are in nanoseconds.
-/

variable {K : Type}

/-! ### The windows -/

/-- The window that the loop builds at a cursor. -/
def windowAt (mode : Mode) (startDate trainDays testDays cursor : ℤ) : Window where
  trainStart := if mode = .expanding then startDate else cursor
  trainEnd := cursor + (trainDays - 1)
  testStart := cursor + (trainDays - 1) + 1
  testEnd := cursor + (trainDays - 1) + 1 + (testDays - 1)

/-- The first `n` windows, and no others, end in the range. -/
def Fit (mode : Mode) (startDate endDate trainDays testDays step cursor : ℤ) (n : ℕ) : Prop :=
  ∀ i : ℕ, i < n ↔
    (windowAt mode startDate trainDays testDays (cursor + i * step)).testEnd ≤ endDate

/-- The sum of a date and some days is a date, or raises. -/
theorem sumOverflow_eq_none_iff {d n : ℤ} (hd : dateMin ≤ d) :
    sumOverflow d n = none ↔ d + n ≤ dateMax := by
  rw [dateMin_eq] at hd
  unfold sumOverflow
  rw [dateMax_eq]
  split
  · simp only [reduceCtorEq, false_iff]
    omega
  · split
    · simp only [reduceCtorEq, false_iff]
      omega
    · split
      · simp only [reduceCtorEq, false_iff]
        omega
      · simp only [true_iff]
        omega

section Loop

variable {mode : Mode} {startDate endDate cursor : ℤ}

/-- Of the dates of a window the last one decides. -/
theorem windowOverflow_eq_none_iff (legs : Legs) (hcursor : dateMin ≤ cursor) :
    (sumOverflow cursor (legs.trainDays - 1)).or
        ((sumOverflow (cursor + (legs.trainDays - 1)) 1).or
          (sumOverflow (cursor + (legs.trainDays - 1) + 1) (legs.testDays - 1))) = none ↔
      (windowAt mode startDate legs.trainDays legs.testDays cursor).testEnd ≤ dateMax := by
  have htrain := legs.train_pos
  have htest := legs.test_pos
  rw [Option.or_eq_none_iff, Option.or_eq_none_iff, sumOverflow_eq_none_iff hcursor,
    sumOverflow_eq_none_iff (by omega), sumOverflow_eq_none_iff (by omega)]
  show _ ↔ cursor + (legs.trainDays - 1) + 1 + (legs.testDays - 1) ≤ dateMax
  omega

/-- Later windows end later. -/
theorem testEnd_le {trainDays testDays step : ℤ} (hstep : 1 ≤ step) (i : ℕ) :
    (windowAt mode startDate trainDays testDays cursor).testEnd
      ≤ (windowAt mode startDate trainDays testDays (cursor + i * step)).testEnd := by
  have hoffset : 0 ≤ (i : ℤ) * step := mul_nonneg (Int.natCast_nonneg i) (by omega)
  simp only [windowAt]
  omega

/-- If the first window does not fit, none does. -/
theorem fit_zero {trainDays testDays step : ℤ} (hstep : 1 ≤ step)
    (hend : endDate < (windowAt mode startDate trainDays testDays cursor).testEnd) :
    Fit mode startDate endDate trainDays testDays step cursor 0 := by
  intro i
  refine iff_of_false (Nat.not_lt_zero i) fun hle => ?_
  exact absurd (hend.trans_le (testEnd_le hstep i)) (not_lt.mpr hle)

theorem cursor_next (cursor step : ℤ) (i : ℕ) :
    cursor + step + i * step = cursor + ((i + 1 : ℕ) : ℤ) * step := by
  push_cast
  ring

theorem cursor_zero (cursor step : ℤ) : cursor + ((0 : ℕ) : ℤ) * step = cursor := by simp

/-- One window more. -/
theorem Fit.succ {trainDays testDays step : ℤ} {n : ℕ}
    (h : Fit mode startDate endDate trainDays testDays step (cursor + step) n)
    (hend : (windowAt mode startDate trainDays testDays cursor).testEnd ≤ endDate) :
    Fit mode startDate endDate trainDays testDays step cursor (n + 1) := by
  intro i
  cases i with
  | zero =>
    rw [cursor_zero]
    exact iff_of_true (Nat.zero_lt_succ n) hend
  | succ i =>
    rw [← cursor_next, ← h i]
    exact Nat.succ_lt_succ_iff

/-- **The loop takes the windows that end in the range**, one for each step; and raises if the
    first one that does not ends behind the last date. -/
theorem windowsFrom_eq (legs : Legs) (mode : Mode) (startDate endDate cursor : ℤ)
    (hcursor : dateMin ≤ cursor) (hlast : endDate ≤ dateMax) :
    ∃ n : ℕ, Fit mode startDate endDate legs.trainDays legs.testDays legs.step cursor n ∧
      ((windowAt mode startDate legs.trainDays legs.testDays (cursor + n * legs.step)).testEnd
          ≤ dateMax →
        windowsFrom legs mode startDate endDate cursor = .ok ((List.range n).map fun i : ℕ =>
          windowAt mode startDate legs.trainDays legs.testDays (cursor + i * legs.step))) ∧
      (dateMax < (windowAt mode startDate legs.trainDays legs.testDays
          (cursor + n * legs.step)).testEnd →
        ∃ text, windowsFrom legs mode startDate endDate cursor = .error text) := by
  have hstep := legs.step_pos
  have htrain := legs.train_pos
  have htest := legs.test_pos
  fun_induction windowsFrom legs mode startDate endDate cursor with
  | case1 cursor trainEnd testStart text hover =>
    -- a date of the first window is no date
    have hbehind :
        dateMax < (windowAt mode startDate legs.trainDays legs.testDays cursor).testEnd :=
      not_le.mp fun hle => by
        have hnone := (windowOverflow_eq_none_iff legs hcursor).mpr hle
        exact absurd (hover.symm.trans hnone) (by simp)
    refine ⟨0, fit_zero hstep (hlast.trans_lt hbehind), fun hle => ?_, fun _ => ⟨text, rfl⟩⟩
    rw [cursor_zero] at hle
    exact absurd hbehind (not_lt.mpr hle)
  | case2 cursor trainEnd testStart testEnd hdates hend =>
    refine ⟨0, fit_zero hstep hend, fun _ => rfl, fun hbehind => ?_⟩
    rw [cursor_zero] at hbehind
    exact absurd hbehind (not_lt.mpr ((windowOverflow_eq_none_iff legs hcursor).mp hdates))
  | case3 cursor trainEnd testStart testEnd hdates hend text hover =>
    -- the window fits, and there is no date for the next one
    have hbehind : dateMax < cursor + legs.step := not_le.mp fun hle => by
      exact absurd (hover.symm.trans ((sumOverflow_eq_none_iff hcursor).mpr hle)) (by simp)
    have hnext : cursor + legs.step
        ≤ (windowAt mode startDate legs.trainDays legs.testDays (cursor + legs.step)).testEnd := by
      simp only [windowAt]
      omega
    have hone := cursor_next cursor legs.step 0
    rw [cursor_zero] at hone
    refine ⟨1, (fit_zero hstep (hlast.trans_lt (hbehind.trans_le hnext))).succ (not_lt.mp hend),
      fun hle => ?_, fun _ => ⟨text, rfl⟩⟩
    rw [← hone] at hle
    exact absurd (hbehind.trans_le hnext) (not_lt.mpr hle)
  | case4 cursor trainStart trainEnd testStart testEnd hdates hend hnext ih =>
    obtain ⟨n, hfit, hreturns, hraises⟩ := ih (by omega)
    refine ⟨n + 1, hfit.succ (not_lt.mp hend), fun hle => ?_, fun hbehind => ?_⟩
    · rw [← cursor_next] at hle
      rw [hreturns hle, List.range_succ_eq_map, List.map_cons, List.map_map, cursor_zero]
      refine congrArg (fun windows => Except.ok (_ :: windows)) (List.map_congr_left fun i _ => ?_)
      rw [cursor_next]
      rfl
    · rw [← cursor_next] at hbehind
      obtain ⟨text, htext⟩ := hraises hbehind
      exact ⟨text, by rw [htext]; rfl⟩

end Loop

/-- What the function answers: the windows that end in the range, and an error if there is none, or
    if the first one that does not fit ends behind the last date. -/
structure Builds (mode : Mode) (startDate endDate trainDays testDays step : ℤ) (n : ℕ) : Prop where
  fit : Fit mode startDate endDate trainDays testDays step startDate n
  returns : (windowAt mode startDate trainDays testDays (startDate + n * step)).testEnd ≤ dateMax →
    buildWalkForwardWindows startDate endDate trainDays testDays (some step) mode
      = if n = 0 then .error "No walk-forward windows fit inside the requested date range"
        else .ok ((List.range n).map fun i : ℕ =>
          windowAt mode startDate trainDays testDays (startDate + i * step))
  raises : dateMax < (windowAt mode startDate trainDays testDays (startDate + n * step)).testEnd →
    ∃ text, buildWalkForwardWindows startDate endDate trainDays testDays (some step) mode
      = .error text

/-- What the function returns for lengths that it accepts. -/
theorem buildWalkForwardWindows_eq {startDate endDate trainDays testDays step : ℤ} (mode : Mode)
    (hfirst : dateMin ≤ startDate) (hlast : endDate ≤ dateMax) (htrain : 1 ≤ trainDays)
    (htest : 1 ≤ testDays) (hstep : 1 ≤ step) :
    ∃ n : ℕ, Builds mode startDate endDate trainDays testDays step n := by
  have hgiven : stepOrTestDays (some step) testDays = step := by
    unfold stepOrTestDays
    exact if_neg (by omega)
  obtain ⟨n, hfit, hreturns, hraises⟩ := windowsFrom_eq
    { trainDays := trainDays, testDays := testDays, step := step, train_pos := htrain
      test_pos := htest, step_pos := hstep } mode startDate endDate startDate hfirst hlast
  refine ⟨n, hfit, fun hle => ?_, fun hbehind => ?_⟩
  · unfold buildWalkForwardWindows
    simp only [hgiven, hreturns hle, dif_pos (And.intro htrain htest), dif_pos hstep]
    exact if_congr (List.map_eq_nil_iff.trans List.range_eq_nil) rfl rfl
  · obtain ⟨text, htext⟩ := hraises hbehind
    refine ⟨text, ?_⟩
    unfold buildWalkForwardWindows
    simp only [hgiven, htext, dif_pos (And.intro htrain htest), dif_pos hstep]
    rfl

/-! ### Leaks -/

/-- Days of two ranges that follow each other share no bar, whatever its time of day. -/
theorem not_mem_both {series : Series K} {first last first' last' t : ℤ} (h : last < first') :
    ¬ (t ∈ (sliceCachedReturns series first last).index ∧
      t ∈ (sliceCachedReturns series first' last').index) := by
  rintro ⟨hmem, hmem'⟩
  have hhigh := (Series.mem_between.mp hmem).2.2
  have hlow := (Series.mem_between.mp hmem').2.1
  have hday : (last + 1) * nsPerDay ≤ first' * nsPerDay :=
    mul_le_mul_of_nonneg_right (by omega) (by decide)
  rw [add_mul, one_mul] at hday
  omega

/-- A window inside a range. -/
structure WindowWithin (w : Window) (startDate endDate : ℤ) : Prop where
  start_le : startDate ≤ w.trainStart
  train : w.trainStart ≤ w.trainEnd
  next_day : w.testStart = w.trainEnd + 1
  test : w.testStart ≤ w.testEnd
  le_end : w.testEnd ≤ endDate

/-- No bar of a series is in both ranges of a window. -/
def WindowSplit (w : Window) (series : Series K) : Prop :=
  ∀ t, ¬ (t ∈ (sliceCachedReturns series w.trainStart w.trainEnd).index ∧
    t ∈ (sliceCachedReturns series w.testStart w.testEnd).index)

/-- The test ranges of two windows are disjoint, and share no bar of a series. -/
def TestsApart (series : Series K) (w w' : Window) : Prop :=
  w.testEnd < w'.testStart ∧
    ∀ t, ¬ (t ∈ (sliceCachedReturns series w.testStart w.testEnd).index ∧
      t ∈ (sliceCachedReturns series w'.testStart w'.testEnd).index)

/-- The windows of lengths that the function accepts, each of them in the range. -/
theorem windowAt_within {mode : Mode} {startDate endDate trainDays testDays step : ℤ} {i : ℕ}
    (htrain : 1 ≤ trainDays) (htest : 1 ≤ testDays) (hstep : 1 ≤ step)
    (hend : (windowAt mode startDate trainDays testDays (startDate + i * step)).testEnd
      ≤ endDate) :
    WindowWithin (windowAt mode startDate trainDays testDays (startDate + i * step))
      startDate endDate := by
  have hoffset : 0 ≤ (i : ℤ) * step := mul_nonneg (Int.natCast_nonneg i) (by omega)
  constructor
  · unfold windowAt
    dsimp only
    split
    · exact le_rfl
    · omega
  · unfold windowAt
    dsimp only
    split
    · omega
    · omega
  · rfl
  · show startDate + i * step + (trainDays - 1) + 1
      ≤ startDate + i * step + (trainDays - 1) + 1 + (testDays - 1)
    omega
  · exact hend

/-- Where a step is no shorter than a test range, test ranges do not meet. -/
theorem testsApart_of_le {mode : Mode} {startDate trainDays testDays step : ℤ}
    (hstep : 1 ≤ step) (hle : testDays ≤ step) (series : Series K) (n : ℕ) :
    ((List.range n).map fun i : ℕ =>
      windowAt mode startDate trainDays testDays (startDate + i * step)).Pairwise
        (TestsApart series) := by
  refine List.pairwise_map.mpr (List.pairwise_lt_range.imp fun {i j} hij => ?_)
  have hoffset : ((i : ℤ) + 1) * step ≤ j * step :=
    mul_le_mul_of_nonneg_right (by omega) (by omega)
  rw [add_mul, one_mul] at hoffset
  have hapart : startDate + i * step + (trainDays - 1) + 1 + (testDays - 1)
      < startDate + j * step + (trainDays - 1) + 1 := by omega
  exact ⟨hapart, fun t => not_mem_both hapart⟩

/-! ### Scaled lengths -/

/-- `_scaled_walk_forward_params`: the lengths of the training and the test range, and the step. -/
def scaledWalkForwardParams (rangeDays : ℤ) : ℤ × ℤ × ℤ :=
  if 252 + 63 ≤ rangeDays then (252, 63, 63)
  else
    let testDays := max 30 (Binary64.toInt (Binary64.mulInt rangeDays (Binary64.round (2 / 10))))
    let proportionalTrain := Binary64.toInt (Binary64.mulInt rangeDays (Binary64.round (7 / 10)))
    let availableTrain := rangeDays - testDays
    let trainDays := max 30 (min proportionalTrain availableTrain)
    (trainDays, testDays, testDays)

/-- A fifth of a range, as a float, is no more than its half. -/
theorem toInt_fifth_le {rangeDays : ℤ} (hlow : 60 ≤ rangeDays) (hhigh : rangeDays < 315) :
    Binary64.toInt (Binary64.mulInt rangeDays (Binary64.round (2 / 10))) ≤ rangeDays - 30 := by
  have hfactor : Binary64.round (2 / 10) ≤ 1 / 2 := by
    have hhalf := Binary64.round_half (m := 1) (by norm_num) (by norm_num)
    rw [Int.cast_one] at hhalf
    rw [← hhalf]
    exact Binary64.round_mono (by norm_num)
  have hproduct : Binary64.mulInt rangeDays (1 / 2) = rangeDays / 2 := by
    have hself := Binary64.round_intCast (m := rangeDays) (by omega) (by omega)
    rw [Binary64.mulInt, hself, mul_one_div]
    exact Binary64.round_half (by omega) (by omega)
  refine Binary64.toInt_le (((Binary64.mulInt_mono (by omega) hfactor).trans hproduct.le).trans ?_)
  have hcast : (60 : ℚ) ≤ rangeDays := by exact_mod_cast hlow
  push_cast
  linarith

/-- **Scaled lengths fit into the range**, and a step is a test range. -/
theorem scaled_fits {rangeDays : ℤ} (hrange : 60 ≤ rangeDays) :
    ∃ trainDays testDays, scaledWalkForwardParams rangeDays = (trainDays, testDays, testDays) ∧
      1 ≤ trainDays ∧ 1 ≤ testDays ∧ trainDays + testDays ≤ rangeDays := by
  unfold scaledWalkForwardParams
  split
  · exact ⟨252, 63, rfl, by decide, by decide, by omega⟩
  · rename_i hshort
    have hfifth := toInt_fifth_le hrange (by omega)
    refine ⟨_, _, rfl, ?_, ?_, ?_⟩
    · omega
    · omega
    · omega

/-! ### The walk-forward -/

/-- What the windows of a range are to be. -/
structure LeakFree (windows : List Window) (startDate endDate : ℤ) : Prop where
  within : ∀ w ∈ windows, WindowWithin w startDate endDate
  split : ∀ w ∈ windows, ∀ {K : Type} (series : Series K), WindowSplit w series
  apart : ∀ {K : Type} (series : Series K), windows.Pairwise (TestsApart series)

/-- **Walk-forward windows and slices do not leak.**  The windows are those that end in the range;
    the function fails if there is none, or if the first one that does not fit ends behind the last
    date.  Test ranges stay apart unless a step is shorter than they are, and a window of scaled
    lengths fits into every range of 60 days. -/
theorem walkForward_leakFree (startDate endDate : ℤ) (mode : Mode) (hfirst : dateMin ≤ startDate)
    (hlast : endDate ≤ dateMax) :
    (∀ trainDays testDays step : ℤ, 1 ≤ trainDays → 1 ≤ testDays → 1 ≤ step →
      ∃ n : ℕ,
        let windows := (List.range n).map fun i : ℕ =>
          windowAt mode startDate trainDays testDays (startDate + i * step)
        Builds mode startDate endDate trainDays testDays step n ∧
        (∀ w ∈ windows, WindowWithin w startDate endDate) ∧
        (∀ w ∈ windows, ∀ {K : Type} (series : Series K), WindowSplit w series) ∧
        (testDays ≤ step → LeakFree windows startDate endDate)) ∧
    (60 ≤ endDate - startDate + 1 →
      ∃ trainDays testDays step n,
        let windows := (List.range n).map fun i : ℕ =>
          windowAt mode startDate trainDays testDays (startDate + i * step)
        scaledWalkForwardParams (endDate - startDate + 1) = (trainDays, testDays, step) ∧
        Builds mode startDate endDate trainDays testDays step n ∧
        0 < n ∧ LeakFree windows startDate endDate) := by
  have hwindows : ∀ trainDays testDays step : ℤ, 1 ≤ trainDays → 1 ≤ testDays → 1 ≤ step →
      ∀ n : ℕ, Fit mode startDate endDate trainDays testDays step startDate n →
      (∀ w ∈ (List.range n).map fun i : ℕ =>
          windowAt mode startDate trainDays testDays (startDate + i * step),
        WindowWithin w startDate endDate ∧
          ∀ {K : Type} (series : Series K), WindowSplit w series) := by
    intro trainDays testDays step htrain htest hstep n hfit w hw
    obtain ⟨i, hi, rfl⟩ := List.mem_map.mp hw
    have hwithin := windowAt_within htrain htest hstep ((hfit i).mp (List.mem_range.mp hi))
    refine ⟨hwithin, fun series t => not_mem_both ?_⟩
    rw [hwithin.next_day]
    omega
  refine ⟨fun trainDays testDays step htrain htest hstep => ?_, fun hrange => ?_⟩
  · obtain ⟨n, hbuilds⟩ := buildWalkForwardWindows_eq mode hfirst hlast htrain htest hstep
    have hspec := hwindows trainDays testDays step htrain htest hstep n hbuilds.fit
    exact ⟨n, hbuilds, fun w hw => (hspec w hw).1, fun w hw => (hspec w hw).2,
      fun hle => ⟨fun w hw => (hspec w hw).1, fun w hw => (hspec w hw).2,
        fun series => testsApart_of_le hstep hle series n⟩⟩
  · obtain ⟨trainDays, testDays, hparams, htrain, htest, hfits⟩ := scaled_fits hrange
    obtain ⟨n, hbuilds⟩ := buildWalkForwardWindows_eq mode hfirst hlast htrain htest htest
    have hspec := hwindows trainDays testDays testDays htrain htest htest n hbuilds.fit
    -- the first window fits
    have hpos : 0 < n := by
      rw [hbuilds.fit 0, cursor_zero]
      simp only [windowAt]
      omega
    exact ⟨trainDays, testDays, testDays, n, hparams, hbuilds, hpos, fun w hw => (hspec w hw).1,
      fun w hw => (hspec w hw).2, fun series => testsApart_of_le htest le_rfl series n⟩

/-- The year 2024, in windows of scaled lengths. -/
theorem walkForward_leakFree_year :
    ∃ n, Builds .rolling 19723 20088 252 63 63 n ∧ 0 < n ∧
      LeakFree ((List.range n).map fun i : ℕ =>
        windowAt .rolling 19723 252 63 (19723 + i * 63)) 19723 20088 := by
  have hfirst : dateMin ≤ 19723 := by
    rw [dateMin_eq]
    decide
  have hlast : (20088 : ℤ) ≤ dateMax := by
    rw [dateMax_eq]
    decide
  obtain ⟨-, hscaled⟩ := walkForward_leakFree 19723 20088 .rolling hfirst hlast
  obtain ⟨trainDays, testDays, step, n, hparams, hbuilds, hpos, hfree⟩ := hscaled (by decide)
  obtain ⟨rfl, hrest⟩ := Prod.mk.inj hparams
  obtain ⟨rfl, rfl⟩ := Prod.mk.inj hrest
  exact ⟨n, hbuilds, hpos, hfree⟩

/-- Steps of one day: a bar of the third day is tested on in both windows.  And December 9999: the
    first window fits, but the test range of the second one begins behind the last date. -/
theorem walkForward_leakFree_fails :
    let series : Series ℚ := ⟨[(2 * nsPerDay + 7, 0)], List.pairwise_singleton _ _⟩
    (buildWalkForwardWindows 0 3 1 2 (some 1) .rolling = .ok [⟨0, 0, 1, 2⟩, ⟨1, 1, 2, 3⟩] ∧
      2 * nsPerDay + 7 ∈ (sliceCachedReturns series 1 2).index ∧
      2 * nsPerDay + 7 ∈ (sliceCachedReturns series 2 3).index) ∧
    (windowAt .rolling (dateMax - 30) 20 11 (dateMax - 30)).testEnd ≤ dateMax ∧
      buildWalkForwardWindows (dateMax - 30) dateMax 20 11 (some 11) .rolling
        = .error "date value out of range" := by
  refine ⟨⟨?_, by decide, by decide⟩, ?_, ?_⟩
  · simp [buildWalkForwardWindows, stepOrTestDays, windowsFrom, sumOverflow, dateMax_eq]
    rfl
  · simp [windowAt, dateMax_eq]
  · simp [buildWalkForwardWindows, stepOrTestDays, windowsFrom, sumOverflow, dateMax_eq]
    rfl

end Msai.Portfolio.FullMode
