import Msai.Lib.Calendar
import Msai.Research.Selection

namespace Msai.Research

open Msai.Lib.Calendar

/-!
# The holdout of a sweep

`resolve_train_holdout_split` cuts the range of a sweep into a training range, a gap that is purged,
and a holdout.

* `resolvedHoldoutDays` — how long the holdout is to be;
* `IsSplit` — the three pieces are the range, each of its length;
* `exists_isSplit_iff` — when there is such a split;
* `holdout_partitions` — the split that is returned, and when an explicit request fails.
-/

/-- `resolved_holdout_days`. -/
def resolvedHoldoutDays (py : PyFloats) (startDate endDate : ℤ) (holdoutFraction : Option ℚ)
    (holdoutDays : Option ℤ) : Option ℤ :=
  let total := totalDays startDate endDate
  let fraction :=
    if !(holdoutDays.isSome || holdoutFraction.isSome) && 252 ≤ total then
      some (Lib.Binary64.round (1 / 5))
    else holdoutFraction
  holdoutDays.or (fraction.map fun f => max 21 (min 126 ⌈py.mul total f⌉))

/-- The days up to `trainEnd`, the purged days and the days from `holdoutStart` on. -/
structure IsSplit (startDate endDate holdoutDays purgeDays trainEnd holdoutStart : ℤ) : Prop where
  train : startDate ≤ trainEnd
  gap : (span (trainEnd + 1) (holdoutStart - 1)).length = purgeDays
  holdout : (span holdoutStart endDate).length = holdoutDays
  partition : span startDate trainEnd ++ span (trainEnd + 1) (holdoutStart - 1)
    ++ span holdoutStart endDate = span startDate endDate

variable {py : PyFloats} {startDate endDate holdoutDays purgeDays trainEnd holdoutStart : ℤ}

/-- The pieces follow from the lengths. -/
theorem isSplit_of_lengths (hholdout : 0 ≤ holdoutDays) (hpurge : 0 ≤ purgeDays)
    (htrain : startDate ≤ endDate - (holdoutDays - 1) - (purgeDays + 1)) :
    IsSplit startDate endDate holdoutDays purgeDays (endDate - (holdoutDays - 1) - (purgeDays + 1))
      (endDate - (holdoutDays - 1)) where
  train := htrain
  gap := by
    rw [length_span]
    omega
  holdout := by
    rw [length_span]
    omega
  partition := by
    have hholdoutStart : endDate - (holdoutDays - 1) = endDate - (holdoutDays - 1) - 1 + 1 := by
      omega
    rw [span_append (by omega) (by omega)]
    nth_rewrite 2 [hholdoutStart]
    exact span_append (by omega) (by omega)

/-- **There is a split unless holdout and purge use up the range.** -/
theorem exists_isSplit_iff (hholdout : 1 ≤ holdoutDays) (hpurge : 0 ≤ purgeDays) :
    (∃ trainEnd holdoutStart,
      IsSplit startDate endDate holdoutDays purgeDays trainEnd holdoutStart) ↔
        holdoutDays + purgeDays < endDate - startDate + 1 := by
  constructor
  · rintro ⟨trainEnd, holdoutStart, h⟩
    have hlength := congrArg List.length h.partition
    have hgap := h.gap
    have hdays := h.holdout
    have htrain := h.train
    rw [List.length_append, List.length_append] at hlength
    rw [length_span startDate trainEnd, length_span startDate endDate] at hlength
    omega
  · intro hlt
    exact ⟨_, _, isSplit_of_lengths (by omega) hpurge (by omega)⟩

theorem resolved_pos {holdoutFraction : Option ℚ} {holdoutDays : Option ℤ} {days : ℤ}
    (hdays : ∀ n, holdoutDays = some n → 1 ≤ n)
    (h : resolvedHoldoutDays py startDate endDate holdoutFraction holdoutDays = some days) :
    1 ≤ days := by
  unfold resolvedHoldoutDays at h
  cases holdoutDays with
  | some n =>
    obtain rfl := Option.some.inj h
    exact hdays n rfl
  | none =>
    obtain ⟨f, -, rfl⟩ := Option.map_eq_some_iff.mp h
    omega

/-- An explicit request has a length. -/
theorem resolved_of_explicit {holdoutFraction : Option ℚ} {holdoutDays : Option ℤ}
    (h : holdoutDays.isSome || holdoutFraction.isSome) :
    ∃ days, resolvedHoldoutDays py startDate endDate holdoutFraction holdoutDays = some days := by
  unfold resolvedHoldoutDays
  cases holdoutDays with
  | some n => exact ⟨n, rfl⟩
  | none =>
    cases holdoutFraction with
    | some f => exact ⟨_, rfl⟩
    | none => exact absurd h (by simp)

/-- What the function does with the length of the holdout. -/
theorem resolveTrainHoldoutSplit_eq (hdates : startDate ≤ endDate)
    (holdoutFraction : Option ℚ) (holdoutDays : Option ℤ) :
    resolveTrainHoldoutSplit py startDate endDate holdoutFraction holdoutDays purgeDays
      = match resolvedHoldoutDays py startDate endDate holdoutFraction holdoutDays with
        | none => .ok none
        | some days =>
          if endDate - startDate + 1 ≤ days + purgeDays then
            if holdoutDays.isSome || holdoutFraction.isSome then
              .error ("Requested holdout plus purge leaves no training range; reduce " ++
                "holdout/purge or extend the date range")
            else .ok none
          else .ok (some
            { explicit := holdoutDays.isSome || holdoutFraction.isSome
              trainStart := startDate
              trainEnd := endDate - (days - 1) - (purgeDays + 1)
              holdoutStart := endDate - (days - 1)
              holdoutEnd := endDate
              holdoutDays := days
              purgeDays := purgeDays }) := by
  have htotal : totalDays startDate endDate = endDate - startDate + 1 := by
    unfold totalDays
    omega
  unfold resolveTrainHoldoutSplit resolvedHoldoutDays
  dsimp only
  rw [htotal]
  generalize holdoutDays.or _ = resolved
  cases resolved with
  | none => rfl
  | some days =>
    by_cases hlong : endDate - startDate + 1 ≤ days + purgeDays
    · simp only [if_pos hlong]
      rfl
    · -- the training range has a day then, and the second check passes
      simp only [if_neg hlong]
      rw [if_neg (by omega)]

/-- **The split is a partition of the range**, and an explicit request fails exactly if there is
    none. -/
theorem holdout_partitions (py : PyFloats) (startDate endDate purgeDays : ℤ)
    (holdoutFraction : Option ℚ) (holdoutDays : Option ℤ) (hdates : startDate ≤ endDate)
    (hdays : ∀ n, holdoutDays = some n → 1 ≤ n) (hpurge : 0 ≤ purgeDays) :
    let result :=
      resolveTrainHoldoutSplit py startDate endDate holdoutFraction holdoutDays purgeDays
    let resolved := resolvedHoldoutDays py startDate endDate holdoutFraction holdoutDays
    (∀ split, result = .ok (some split) →
      resolved = some split.holdoutDays ∧ split.trainStart = startDate ∧
      split.holdoutEnd = endDate ∧ split.purgeDays = purgeDays ∧
      IsSplit startDate endDate split.holdoutDays purgeDays split.trainEnd split.holdoutStart) ∧
    (holdoutDays.isSome || holdoutFraction.isSome → ∃ days, resolved = some days ∧
      result ≠ .ok none ∧
      ((∃ e, result = .error e) ↔
        ¬ ∃ trainEnd holdoutStart,
          IsSplit startDate endDate days purgeDays trainEnd holdoutStart)) := by
  intro result resolved
  have hresult : result = _ :=
    resolveTrainHoldoutSplit_eq hdates holdoutFraction holdoutDays
  refine ⟨fun split hsplit => ?_, fun hexplicit => ?_⟩
  · rw [hsplit] at hresult
    cases hresolved : resolvedHoldoutDays py startDate endDate holdoutFraction holdoutDays with
    | none =>
      rw [hresolved] at hresult
      exact absurd hresult (by simp)
    | some days =>
      have hpos := resolved_pos hdays hresolved
      rw [hresolved] at hresult
      dsimp only at hresult
      by_cases hlong : endDate - startDate + 1 ≤ days + purgeDays
      · rw [if_pos hlong] at hresult
        split at hresult
        · exact absurd hresult (by simp)
        · exact absurd hresult (by simp)
      · rw [if_neg hlong] at hresult
        have hpieces : IsSplit startDate endDate days purgeDays
            (endDate - (days - 1) - (purgeDays + 1)) (endDate - (days - 1)) :=
          isSplit_of_lengths (by omega) hpurge (by omega)
        obtain rfl := Option.some.inj (Except.ok.inj hresult)
        exact ⟨hresolved, rfl, rfl, rfl, hpieces⟩
  · obtain ⟨days, hresolved⟩ : ∃ days,
        resolvedHoldoutDays py startDate endDate holdoutFraction holdoutDays = some days :=
      resolved_of_explicit hexplicit
    have hpos := resolved_pos hdays hresolved
    rw [hresolved] at hresult
    dsimp only at hresult
    refine ⟨days, hresolved, ?_⟩
    rw [exists_isSplit_iff hpos hpurge, hresult, if_pos hexplicit]
    by_cases hlong : endDate - startDate + 1 ≤ days + purgeDays
    · rw [if_pos hlong]
      exact ⟨by simp, fun _ => by omega, fun _ => ⟨_, rfl⟩⟩
    · rw [if_neg hlong]
      refine ⟨by simp, ?_, fun h => absurd (by omega) h⟩
      rintro ⟨e, he⟩
      exact absurd he (by simp)

/-- A fifth of 30 days is less than the least holdout: 21 days, behind 3 that are purged. -/
theorem holdout_partitions_month :
    (0 : ℤ) ≤ 29 ∧ (0 : ℤ) ≤ 3 ∧
      ∃ split, resolveTrainHoldoutSplit exactFloats 0 29 (some (1 / 5)) none 3 = .ok (some split) ∧
        IsSplit 0 29 21 3 split.trainEnd split.holdoutStart := by
  have hpartition := holdout_partitions exactFloats 0 29 3 (some (1 / 5)) none (by decide)
    (fun n hn => absurd hn (by simp)) (by decide)
  have hsplit : resolveTrainHoldoutSplit exactFloats 0 29 (some (1 / 5)) none 3
      = .ok (some ⟨true, 0, 5, 9, 29, 21, 3⟩) := by decide +kernel
  exact ⟨by decide, by decide, _, hsplit, (hpartition.1 _ hsplit).2.2.2.2⟩

end Msai.Research
