import Msai.Instruments.FuturesId

namespace Msai.Instruments

open Msai.Lib Calendar

/-!
# The front month of a quarterly future
(`services/nautilus/live_instrument_bootstrap.py`)

A quarterly future is subscribed to under its month, which is derived from the date of the spawn.

* `thirdFridayOf`, `currentQuarterlyExpiry` — the expiry of a month, and the loop over the months;
* `ExpiresOn`, `IsFront` — the expiries of the calendar, and the first of them after a day;
* `expiryLoop_run` — the loop stops at the first expiry;
* `front_month` — which month is returned, and when none is.

A `date` has a year of at most four digits; the calendar goes on.
-/

/-! ### The loop -/

inductive ExpiryError
  /-- `ValueError`: the year is not one of `date`. -/
  | valueError
  /-- `RuntimeError`, behind the loop. -/
  | runtimeError
deriving DecidableEq, Repr

def Date.number (d : Date) : ℤ := dayNumber d.year d.month d.day

/-- `third_friday_of`. -/
def thirdFridayOf (year month : ℕ) : Except ExpiryError ℤ :=
  if 1 ≤ year ∧ year ≤ 9999 then
    let first := dayNumber year month 1
    let firstFridayOffset := (4 - weekday first) % 7
    .ok (first + (firstFridayOffset + 14))
  else .error .valueError

/-- `f"{year}{month:02d}"`. -/
def expiryText (year month : ℕ) : String :=
  toString year ++ String.ofList (PyDate.twoDigits month)

/-- The loop over the months that are ahead. -/
def expiryLoop (today : Date) : List ℕ → Except ExpiryError String
  | [] => .error .runtimeError
  | monthsAhead :: rest =>
    let year := today.year + (today.month + monthsAhead - 1) / 12
    let month := (today.month + monthsAhead - 1) % 12 + 1
    if month % 3 ≠ 0 then expiryLoop today rest
    else
      (thirdFridayOf year month).bind fun expiry =>
        if today.number < expiry then .ok (expiryText year month) else expiryLoop today rest

/-- `current_quarterly_expiry`. -/
def currentQuarterlyExpiry (today : Date) : Except ExpiryError String :=
  expiryLoop today (List.range 12)

/-! ### The calendar -/

/-- A contract of March, June, September or December expires on the third Friday of the month. -/
structure ExpiresOn (year month : ℕ) (expiry : ℤ) : Prop where
  quarterly : month ∈ [3, 6, 9, 12]
  third_friday : (daysOn 4 (12 * year + (month - 1)))[2]? = some expiry

/-- The contract that expires first after a day. -/
structure IsFront (today : ℤ) (year month : ℕ) (expiry : ℤ) : Prop where
  expires : ExpiresOn year month expiry
  after : today < expiry
  first : ∀ year' month' expiry', ExpiresOn year' month' expiry' → today < expiry' →
    expiry ≤ expiry'

/-- `int(s)` of a month. -/
def monthNumber (s : String) : ℕ := Nat.ofDigitChars 10 s.toList 0

theorem monthNumber_expiryText {year month : ℕ} (h : month < 100) :
    monthNumber (expiryText year month) = 100 * year + month := by
  have hdigits : PyDate.twoDigits month =
      [Nat.digitChar (month / 10), Nat.digitChar (month % 10)] := by
    interval_cases month <;> rfl
  rw [monthNumber, expiryText, String.toList_append, String.toList_ofList, hdigits,
    Nat.toString_eq_repr, Nat.toList_repr, Nat.ofDigitChars_append, Nat.ofDigitChars_ten_toDigits,
    Nat.ofDigitChars_cons_digitChar_of_lt_ten (by omega),
    Nat.ofDigitChars_cons_digitChar_of_lt_ten (by omega), Nat.ofDigitChars_nil]
  omega

section Months

variable {year month : ℕ} {expiry : ℤ}

/-- The expiry of a month is the one that is computed. -/
theorem expiresOn_iff : ExpiresOn year month expiry ↔
    month ∈ [3, 6, 9, 12] ∧ expiry = thirdOn 4 (12 * year + (month - 1)) := by
  constructor
  · rintro ⟨hquarterly, hthird⟩
    rw [daysOn_third (by decide)] at hthird
    exact ⟨hquarterly, (Option.some.inj hthird).symm⟩
  · rintro ⟨hquarterly, rfl⟩
    exact ⟨hquarterly, daysOn_third (by decide) _⟩

theorem thirdFridayOf_eq (month : ℕ) (h : 1 ≤ year) : thirdFridayOf year month =
    if year ≤ 9999 then .ok (thirdOn 4 (12 * year + (month - 1))) else .error .valueError := by
  have hfirst : dayNumber year month 1 = monthStart (12 * year + (month - 1)) := by
    rw [dayNumber, sub_self, add_zero]
  simp only [thirdFridayOf, hfirst, h, true_and]
  rfl

end Months

/-! ### The first expiry -/

namespace Date

variable {today : Date} {k : ℕ}

/-- The month that is `k` months ahead, by its number. -/
def monthAhead (today : Date) (k : ℕ) : ℤ := 12 * today.year + (today.month - 1) + k

/-- It is quarterly, and its expiry is to come. -/
def ExpiresAhead (today : Date) (k : ℕ) : Prop :=
  today.monthAhead k % 3 = 2 ∧ today.number < thirdOn 4 (today.monthAhead k)

instance : Decidable (today.ExpiresAhead k) := inferInstanceAs (Decidable (_ ∧ _))

/-- A date is in its month. -/
theorem number_range (today : Date) :
    monthStart (today.monthAhead 0) ≤ today.number ∧
      today.number < monthStart (today.monthAhead 0 + 1) := by
  obtain ⟨-, -, hday, hlast⟩ := of_decide_eq_true today.exists_day
  have hnext : today.monthAhead 0 + 1 = 12 * today.year + today.month := by
    unfold monthAhead
    omega
  have hthis : today.monthAhead 0 = 12 * today.year + (today.month - 1) := by
    unfold monthAhead
    omega
  rw [hnext, hthis]
  refine ⟨?_, hlast⟩
  unfold number dayNumber
  omega

/-- An expiry that is to come is in this month or in a later one. -/
theorem monthAhead_le {m : ℤ} (h : today.number < thirdOn 4 m) : today.monthAhead 0 ≤ m := by
  by_contra hgt
  have hlt := thirdOn_lt_monthStart (w := 4) (not_le.mp hgt)
  have hday := today.number_range.1
  omega

/-- A later month expires in the future. -/
theorem number_lt_thirdOn {m : ℤ} (h : today.monthAhead 0 < m) : today.number < thirdOn 4 m := by
  have hday := today.number_range.2
  have hnext := monthStart_le (show today.monthAhead 0 + 1 ≤ m by omega)
  have hrange := thirdOn_range 4 m
  omega

/-- One of the months up to three months ahead expires in the future. -/
theorem exists_expiresAhead (today : Date) : ∃ k, k ≤ 3 ∧ today.ExpiresAhead k := by
  obtain ⟨k, hk, hquarterly⟩ : ∃ k : ℕ, (1 ≤ k ∧ k ≤ 3) ∧ today.monthAhead k % 3 = 2 := by
    have hmod : today.monthAhead 0 % 3 = 0 ∨ today.monthAhead 0 % 3 = 1 ∨
        today.monthAhead 0 % 3 = 2 := by omega
    unfold monthAhead at hmod ⊢
    rcases hmod with h | h | h
    · exact ⟨2, by omega, by omega⟩
    · exact ⟨1, by omega, by omega⟩
    · exact ⟨3, by omega, by omega⟩
  refine ⟨k, hk.2, hquarterly, number_lt_thirdOn ?_⟩
  unfold monthAhead
  omega

/-- The year and the month that the loop looks at. -/
def ahead (today : Date) (k : ℕ) : ℕ × ℕ :=
  (today.year + (today.month + k - 1) / 12, (today.month + k - 1) % 12 + 1)

theorem ahead_number (today : Date) (k : ℕ) :
    12 * ((today.ahead k).1 : ℤ) + ((today.ahead k).2 - 1) = today.monthAhead k := by
  have hmonth := today.month_range.1
  simp only [ahead, monthAhead]
  push_cast
  omega

theorem one_le_ahead (today : Date) (k : ℕ) : 1 ≤ (today.ahead k).1 := by
  have hyear := today.year_range.1
  simp only [ahead]
  omega

theorem ahead_month_range (today : Date) (k : ℕ) :
    1 ≤ (today.ahead k).2 ∧ (today.ahead k).2 ≤ 12 := by
  simp only [ahead]
  omega

theorem ahead_quarterly : (today.ahead k).2 % 3 = 0 ↔ today.monthAhead k % 3 = 2 := by
  have hnumber := today.ahead_number k
  have hmonth := today.ahead_month_range k
  omega

/-- The contract of the first expiry ahead is the front one. -/
theorem isFront_ahead (hk : today.ExpiresAhead k)
    (hfirst : ∀ j, j < k → ¬ today.ExpiresAhead j) :
    IsFront today.number (today.ahead k).1 (today.ahead k).2 (thirdOn 4 (today.monthAhead k)) := by
  refine ⟨expiresOn_iff.mpr ⟨?_, by rw [ahead_number]⟩, hk.2, ?_⟩
  · have hquarterly := ahead_quarterly.mpr hk.1
    have hrange := today.ahead_month_range k
    generalize (today.ahead k).2 = month at hquarterly hrange
    simp only [List.mem_cons, List.not_mem_nil, or_false]
    omega
  · intro year month expiry hexpires hafter
    obtain ⟨hquarterly, rfl⟩ := expiresOn_iff.mp hexpires
    -- the month is one of those that are ahead, at some distance `j`
    obtain ⟨j, hj⟩ := Int.le.dest (monthAhead_le hafter)
    have hmonth : today.monthAhead j = 12 * year + (month - 1) := by
      rw [← hj]
      unfold monthAhead
      omega
    rw [← hmonth] at hafter ⊢
    have hmod : today.monthAhead j % 3 = 2 := by
      simp only [List.mem_cons, List.not_mem_nil, or_false] at hquarterly
      omega
    rcases (not_lt.mp fun hlt => hfirst j hlt ⟨hmod, hafter⟩).eq_or_lt with rfl | hlt
    · exact le_refl _
    · exact (thirdOn_lt (by unfold monthAhead; omega)).le

end Date

/-! ### The loop finds it -/

section Loop

variable {today : Date} {k : ℕ} {rest : List ℕ}

theorem expiryLoop_cons : expiryLoop today (k :: rest) =
    if today.monthAhead k % 3 = 2 then
      if (today.ahead k).1 ≤ 9999 then
        if today.number < thirdOn 4 (today.monthAhead k) then
          .ok (expiryText (today.ahead k).1 (today.ahead k).2)
        else expiryLoop today rest
      else .error .valueError
    else expiryLoop today rest := by
  have hexpiry := thirdFridayOf_eq (today.ahead k).2 (today.one_le_ahead k)
  rw [Date.ahead_number] at hexpiry
  change (if (today.ahead k).2 % 3 ≠ 0 then expiryLoop today rest
    else (thirdFridayOf (today.ahead k).1 (today.ahead k).2).bind _) = _
  rw [hexpiry]
  by_cases hquarterly : today.monthAhead k % 3 = 2
  · rw [if_neg (not_not.mpr (Date.ahead_quarterly.mpr hquarterly)), if_pos hquarterly]
    split
    · rfl
    · rfl
  · rw [if_pos fun h => hquarterly (Date.ahead_quarterly.mp h), if_neg hquarterly]

/-- A month that does not expire in the future is passed over: a quarterly one is this month. -/
theorem expiryLoop_not (h : ¬ today.ExpiresAhead k) :
    expiryLoop today (k :: rest) = expiryLoop today rest := by
  rw [expiryLoop_cons]
  split
  · next hquarterly =>
    have hpast : ¬ today.number < thirdOn 4 (today.monthAhead k) := fun hlt => h ⟨hquarterly, hlt⟩
    have hthis : ¬ today.monthAhead 0 < today.monthAhead k := fun hlt =>
      hpast (Date.number_lt_thirdOn hlt)
    have hyear : (today.ahead k).1 ≤ 9999 := by
      have hrange := today.year_range.2
      have hmonth := today.month_range
      unfold Date.monthAhead at hthis
      simp only [Date.ahead]
      omega
    rw [if_pos hyear, if_neg hpast]
  · rfl

theorem expiryLoop_hit (h : today.ExpiresAhead k) : expiryLoop today (k :: rest) =
    if (today.ahead k).1 ≤ 9999 then .ok (expiryText (today.ahead k).1 (today.ahead k).2)
    else .error .valueError := by
  rw [expiryLoop_cons, if_pos h.1, if_pos h.2]

/-- The loop stops at the first expiry, by induction on the months that it may look at. -/
theorem expiryLoop_run (hk : today.ExpiresAhead k) (hfirst : ∀ j, j < k → ¬ today.ExpiresAhead j)
    (n start : ℕ) (hstart : start ≤ k) (hend : k < start + n) :
    expiryLoop today (List.range' start n) =
      if (today.ahead k).1 ≤ 9999 then .ok (expiryText (today.ahead k).1 (today.ahead k).2)
      else .error .valueError := by
  induction n generalizing start with
  | zero => omega
  | succ n ih =>
    rw [List.range'_succ]
    rcases hstart.eq_or_lt with rfl | hlt
    · exact expiryLoop_hit hk
    · rw [expiryLoop_not (hfirst start hlt)]
      exact ih (start + 1) hlt (by omega)

end Loop

/-- The first expiry ahead, and what is returned for it. -/
theorem currentQuarterlyExpiry_eq (today : Date) : ∃ k,
    IsFront today.number (today.ahead k).1 (today.ahead k).2 (thirdOn 4 (today.monthAhead k)) ∧
      currentQuarterlyExpiry today =
        if (today.ahead k).1 ≤ 9999 then .ok (expiryText (today.ahead k).1 (today.ahead k).2)
        else .error .valueError := by
  obtain ⟨i, hi, hahead⟩ := today.exists_expiresAhead
  have hexists : ∃ k, today.ExpiresAhead k := ⟨i, hahead⟩
  have hfirst : ∀ j, j < Nat.find hexists → ¬ today.ExpiresAhead j := fun j => Nat.find_min hexists
  have hle := Nat.find_min' hexists hahead
  refine ⟨Nat.find hexists, Date.isFront_ahead (Nat.find_spec hexists) hfirst, ?_⟩
  rw [currentQuarterlyExpiry, List.range_eq_range']
  exact expiryLoop_run (Nat.find_spec hexists) hfirst 12 0 (Nat.zero_le _) (by omega)

/-! ### Which month is returned -/

namespace IsFront

variable {today today' : ℤ} {year month year' month' : ℕ} {expiry expiry' : ℤ}

/-- The last expiry of a `date` is on 17 December 9999. -/
theorem year_le_iff (h : IsFront today year month expiry) :
    year ≤ 9999 ↔ today < dayNumber 9999 12 17 := by
  have hlast : dayNumber 9999 12 17 = thirdOn 4 (12 * (9999 : ℕ) + ((12 : ℕ) - 1)) := by decide
  obtain ⟨hquarterly, rfl⟩ := expiresOn_iff.mp h.expires
  have hmonth : 1 ≤ month ∧ month ≤ 12 := by
    simp only [List.mem_cons, List.not_mem_nil, or_false] at hquarterly
    omega
  constructor
  · intro hyear
    rw [hlast]
    refine lt_of_lt_of_le h.after (thirdOn_le_iff.mpr ?_)
    omega
  · intro hday
    have hle := h.first 9999 12 _ (expiresOn_iff.mpr ⟨by decide, hlast⟩) hday
    rw [hlast, thirdOn_le_iff] at hle
    omega

/-- On a later day the front contract is not an earlier one. -/
theorem mono (h : IsFront today year month expiry) (h' : IsFront today' year' month' expiry')
    (hle : today ≤ today') : 100 * year + month ≤ 100 * year' + month' := by
  have hexpiry := h.first year' month' expiry' h'.expires (lt_of_le_of_lt hle h'.after)
  obtain ⟨hquarterly, rfl⟩ := expiresOn_iff.mp h.expires
  obtain ⟨hquarterly', rfl⟩ := expiresOn_iff.mp h'.expires
  rw [thirdOn_le_iff] at hexpiry
  simp only [List.mem_cons, List.not_mem_nil, or_false] at hquarterly hquarterly'
  omega

end IsFront

/-- What is returned on a day of the calendar. -/
theorem currentQuarterlyExpiry_cases (today : Date) : ∃ year month expiry,
    month < 100 ∧ IsFront today.number year month expiry ∧
      currentQuarterlyExpiry today =
        if today.number < dayNumber 9999 12 17 then .ok (expiryText year month)
        else .error .valueError := by
  obtain ⟨k, hfront, hresult⟩ := currentQuarterlyExpiry_eq today
  have hmonth := (today.ahead_month_range k).2
  refine ⟨_, _, _, by omega, hfront, ?_⟩
  rw [hresult]
  exact if_congr hfront.year_le_iff rfl rfl

/-- Up to the last expiry of a `date` the first one after the day is found, whatever the year; from
that day on its month has no `date`. The end of the loop is not reached, and the contracts follow
the days. -/
theorem front_month :
    (∀ today : Date, today.number < dayNumber 9999 12 17 → ∃ year month expiry,
      IsFront today.number year month expiry ∧
        currentQuarterlyExpiry today = .ok (expiryText year month)) ∧
    (∀ today : Date, dayNumber 9999 12 17 ≤ today.number →
      currentQuarterlyExpiry today = .error .valueError) ∧
    (∀ today : Date, currentQuarterlyExpiry today ≠ .error .runtimeError) ∧
    ∀ (today today' : Date) (s s' : String), today.number ≤ today'.number →
      currentQuarterlyExpiry today = .ok s → currentQuarterlyExpiry today' = .ok s' →
        monthNumber s ≤ monthNumber s' := by
  refine ⟨fun today hday => ?_, fun today hday => ?_, fun today => ?_, ?_⟩
  · obtain ⟨year, month, expiry, -, hfront, hresult⟩ := currentQuarterlyExpiry_cases today
    rw [if_pos hday] at hresult
    exact ⟨year, month, expiry, hfront, hresult⟩
  · obtain ⟨year, month, expiry, -, -, hresult⟩ := currentQuarterlyExpiry_cases today
    rw [hresult, if_neg (not_lt.mpr hday)]
  · obtain ⟨year, month, expiry, -, -, hresult⟩ := currentQuarterlyExpiry_cases today
    rw [hresult]
    split
    · exact fun h => nomatch h
    · exact fun h => nomatch h
  · intro today today' s s' hle hs hs'
    obtain ⟨year, month, expiry, hmonth, hfront, hresult⟩ := currentQuarterlyExpiry_cases today
    obtain ⟨year', month', expiry', hmonth', hfront', hresult'⟩ :=
      currentQuarterlyExpiry_cases today'
    rw [hresult] at hs
    rw [hresult'] at hs'
    split at hs
    · split at hs'
      · cases hs
        cases hs'
        rw [monthNumber_expiryText hmonth, monthNumber_expiryText hmonth']
        exact hfront.mono hfront' hle
      · cases hs'
    · cases hs

theorem front_month_at_spring : ∃ year month expiry,
    IsFront (Date.number ⟨2026, 4, 15, by decide, by decide⟩) year month expiry ∧
      currentQuarterlyExpiry ⟨2026, 4, 15, by decide, by decide⟩ =
        .ok (expiryText year month) :=
  front_month.1 _ (by decide)

/-- On the last expiry of a `date` the contract of March 10000 is the front one. -/
theorem no_front_month_at_last_expiry :
    currentQuarterlyExpiry ⟨9999, 12, 17, by decide, by decide⟩ = .error .valueError ∧
      ∀ s, currentQuarterlyExpiry ⟨9999, 12, 17, by decide, by decide⟩ ≠ .ok s := by
  have hresult : currentQuarterlyExpiry ⟨9999, 12, 17, by decide, by decide⟩ =
      .error .valueError := by decide
  refine ⟨hresult, fun s => ?_⟩
  rw [hresult]
  exact fun h => nomatch h

-- the day of an expiry is the first one of the next contract
example : currentQuarterlyExpiry ⟨2026, 6, 18, by decide, by decide⟩ = .ok "202606" := by decide
example : currentQuarterlyExpiry ⟨2026, 6, 19, by decide, by decide⟩ = .ok "202609" := by decide

end Msai.Instruments
