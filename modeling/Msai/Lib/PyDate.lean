import Mathlib.Tactic.IntervalCases
import Msai.Lib.Calendar

namespace Msai.Lib.PyDate

open Msai.Lib.Calendar

/-!
# Numbers and dates in texts

* `digit`, `twoDigits`, `fourDigits` — numbers with leading zeros;
* `splitOnce` — `s.split(c, 1)`;
* `strptimeYmd` — `datetime.strptime(s, "%Y%m%d")`;
* `strptimeYmd_format` — it reads what the format writes;
* `isoformat` — `date.isoformat()`, which is injective.

Digits are those of ASCII.
-/

/-! ### Digits -/

/-- The character of a digit. -/
def digit (n : ℕ) : Char := Char.ofNat (48 + n)

def twoDigits (n : ℕ) : List Char := [digit (n / 10), digit (n % 10)]

def fourDigits (n : ℕ) : List Char := twoDigits (n / 100) ++ twoDigits (n % 100)

/-- The digit of a character. -/
def digitOf (c : Char) : Option ℕ := if c.isDigit then some (c.toNat - 48) else none

variable {n : ℕ} {c : Char}

theorem digitOf_digit (h : n < 10) : digitOf (digit n) = some n := by
  interval_cases n <;> rfl

theorem isDigit_digit (h : n < 10) : (digit n).isDigit = true := by
  interval_cases n <;> rfl

theorem isDigit_twoDigits (h : n < 100) (hc : c ∈ twoDigits n) : c.isDigit = true := by
  rcases List.mem_cons.mp hc with rfl | hc
  · exact isDigit_digit (by omega)
  · rw [List.mem_singleton.mp hc]
    exact isDigit_digit (by omega)

theorem isDigit_fourDigits (h : n < 10000) (hc : c ∈ fourDigits n) : c.isDigit = true := by
  rcases List.mem_append.mp hc with hc | hc
  · exact isDigit_twoDigits (by omega) hc
  · exact isDigit_twoDigits (by omega) hc

theorem twoDigits_inj {n m : ℕ} (hn : n < 100) (hm : m < 100) (h : twoDigits n = twoDigits m) :
    n = m := by
  simp only [twoDigits, List.cons.injEq, and_true] at h
  have htens := congrArg digitOf h.1
  have hones := congrArg digitOf h.2
  rw [digitOf_digit (by omega), digitOf_digit (by omega), Option.some.injEq] at htens hones
  omega

theorem fourDigits_inj {n m : ℕ} (hn : n < 10000) (hm : m < 10000)
    (h : fourDigits n = fourDigits m) : n = m := by
  obtain ⟨hhigh, hlow⟩ := List.append_inj h (by simp [twoDigits])
  have hhundreds := twoDigits_inj (by omega) (by omega) hhigh
  have hrest := twoDigits_inj (by omega) (by omega) hlow
  omega

/-! ### One split -/

/-- `s.split(c, 1)`, which has two parts if `c` is in the text. -/
def splitOnce (c : Char) : List Char → Option (List Char × List Char)
  | [] => none
  | d :: cs => if d = c then some ([], cs) else (splitOnce c cs).map fun p => (d :: p.1, p.2)

theorem splitOnce_append {front rest : List Char} (h : c ∉ front) :
    splitOnce c (front ++ c :: rest) = some (front, rest) := by
  induction front with
  | nil => exact if_pos rfl
  | cons d front ih =>
    obtain ⟨hd, hfront⟩ := not_or.mp (List.mem_cons.not.mp h)
    rw [List.cons_append, splitOnce, if_neg (Ne.symm hd), ih hfront]
    rfl

/-- The split is at the first `c`. -/
theorem splitOnce_eq_some {cs front rest : List Char} :
    splitOnce c cs = some (front, rest) ↔ cs = front ++ c :: rest ∧ c ∉ front := by
  constructor
  · intro h
    induction cs generalizing front with
    | nil => cases h
    | cons d cs ih =>
      rw [splitOnce] at h
      split at h
      · next hd =>
        cases h
        exact ⟨by rw [hd, List.nil_append], List.not_mem_nil⟩
      · next hd =>
        obtain ⟨⟨front', rest'⟩, hsplit, heq⟩ := Option.map_eq_some_iff.mp h
        cases heq
        obtain ⟨rfl, hfront⟩ := ih hsplit
        exact ⟨rfl, List.not_mem_cons_of_ne_of_not_mem (Ne.symm hd) hfront⟩
  · rintro ⟨rfl, hfront⟩
    exact splitOnce_append hfront

/-! ### Dates -/

/-- Two digits, if their number is admitted. -/
def readTwo (ok : ℕ → Bool) : List Char → List (ℕ × List Char)
  | a :: b :: rest =>
    match digitOf a, digitOf b with
    | some i, some j => if ok (10 * i + j) then [(10 * i + j, rest)] else []
    | _, _ => []
  | _ => []

/-- One digit that is not 0. -/
def readOne : List Char → List (ℕ × List Char)
  | a :: rest =>
    match digitOf a with
    | some i => if 1 ≤ i then [(i, rest)] else []
    | none => []
  | [] => []

/-- `%m`: what `1[0-2]|0[1-9]|[1-9]` can match, in order. -/
def readMonth (cs : List Char) : List (ℕ × List Char) :=
  readTwo (fun n => decide (1 ≤ n ∧ n ≤ 12)) cs ++ readOne cs

/-- `%d`: what `3[0-1]|[1-2]\d|0[1-9]|[1-9]| [1-9]` can match, in order. -/
def readDay (cs : List Char) : List (ℕ × List Char) :=
  readTwo (fun n => decide (1 ≤ n ∧ n ≤ 31)) cs ++ readOne cs ++
    match cs with
    | ' ' :: rest => readOne rest
    | _ => []

/-- `%Y`: what `\d\d\d\d` matches. -/
def readYear : List Char → Option (ℕ × List Char)
  | a :: b :: c :: d :: rest =>
    match readTwo (fun _ => true) [a, b], readTwo (fun _ => true) [c, d] with
    | (high, _) :: _, (low, _) :: _ => some (100 * high + low, rest)
    | _, _ => none
  | _ => none

/-- The first match of `%m%d`. -/
def readMonthDay (cs : List Char) : Option (ℕ × ℕ × List Char) :=
  ((readMonth cs).flatMap fun m => (readDay m.2).map fun d => (m.1, d.1, d.2)).head?

/-- `datetime.strptime(s, "%Y%m%d").date()`: the match has to be the whole text, and a date. -/
def strptimeYmd (cs : List Char) : Option ℤ :=
  (readYear cs).bind fun y => (readMonthDay y.2).bind fun m =>
    if m.2.2 = [] ∧ 1 ≤ y.1 ∧ isDate y.1 m.1 m.2.1 = true then some (dayNumber y.1 m.1 m.2.1)
    else none

/-- A date as `%Y%m%d` writes it. -/
def formatYmd (year month day : ℕ) : List Char :=
  fourDigits year ++ (twoDigits month ++ twoDigits day)

example : strptimeYmd "20240229".toList = some (dayNumber 2024 2 29) ∧
    strptimeYmd "20230229".toList = none := by
  decide

theorem readTwo_twoDigits {ok : ℕ → Bool} {rest : List Char} (h : n < 100) (hok : ok n = true) :
    readTwo ok (twoDigits n ++ rest) = [(n, rest)] := by
  have hn : 10 * (n / 10) + n % 10 = n := Nat.div_add_mod n 10
  show (match digitOf (digit (n / 10)), digitOf (digit (n % 10)) with
    | some i, some j => if ok (10 * i + j) then [(10 * i + j, rest)] else []
    | _, _ => []) = [(n, rest)]
  rw [digitOf_digit (by omega), digitOf_digit (by omega)]
  dsimp only
  rw [hn, if_pos hok]

theorem readYear_fourDigits {rest : List Char} (h : n < 10000) :
    readYear (fourDigits n ++ rest) = some (n, rest) := by
  have hn : 100 * (n / 100) + n % 100 = n := Nat.div_add_mod n 100
  show (match readTwo (fun _ => true) (twoDigits (n / 100) ++ []),
      readTwo (fun _ => true) (twoDigits (n % 100) ++ []) with
    | (high, _) :: _, (low, _) :: _ => some (100 * high + low, rest)
    | _, _ => none) = some (n, rest)
  rw [readTwo_twoDigits (by omega) rfl, readTwo_twoDigits (by omega) rfl]
  dsimp only
  rw [hn]

theorem readMonthDay_twoDigits {month day : ℕ} (hmonth : 1 ≤ month ∧ month ≤ 12)
    (hday : 1 ≤ day ∧ day ≤ 31) :
    readMonthDay (twoDigits month ++ twoDigits day) = some (month, day, []) := by
  have hone : ∃ more, readMonth (twoDigits month ++ twoDigits day)
      = (month, twoDigits day) :: more :=
    ⟨_, congrArg (· ++ readOne _) (readTwo_twoDigits (by omega) (decide_eq_true hmonth))⟩
  have htwo : ∃ more, readDay (twoDigits day ++ []) = (day, []) :: more := by
    unfold readDay
    rw [readTwo_twoDigits (by omega) (decide_eq_true hday)]
    exact ⟨_, rfl⟩
  obtain ⟨months, hmonths⟩ := hone
  obtain ⟨days, hdays⟩ := htwo
  rw [List.append_nil] at hdays
  unfold readMonthDay
  rw [hmonths, List.flatMap_cons, hdays]
  rfl

/-- **A date is read back.** -/
theorem strptimeYmd_format {year month day : ℕ} (hyear : 1 ≤ year ∧ year < 10000)
    (hdate : isDate year month day = true) :
    strptimeYmd (formatYmd year month day) = some (dayNumber year month day) := by
  obtain ⟨hmonth, hday⟩ := isDate_range hdate
  unfold strptimeYmd formatYmd
  rw [readYear_fourDigits hyear.2, Option.bind_some]
  show (readMonthDay (twoDigits month ++ twoDigits day)).bind _ = _
  rw [readMonthDay_twoDigits (by omega) (by omega), Option.bind_some]
  exact if_pos ⟨rfl, hyear.1, hdate⟩

/-- `date.isoformat()`. -/
def isoformat (d : ℤ) : List Char :=
  fourDigits (monthOf d / 12).toNat ++
    '-' :: (twoDigits (monthOf d % 12 + 1).toNat ++
      '-' :: twoDigits (d - monthStart (monthOf d) + 1).toNat)

/-- The dates that Python has: the years 1 to 9999. -/
def InRange (d : ℤ) : Prop := 12 ≤ monthOf d ∧ monthOf d < 120000

instance (d : ℤ) : Decidable (InRange d) :=
  inferInstanceAs (Decidable (12 ≤ monthOf d ∧ monthOf d < 120000))

/-- **The text of a date is the text of no other.** -/
theorem isoformat_inj {d d' : ℤ} (hd : InRange d) (hd' : InRange d')
    (h : isoformat d = isoformat d') : d = d' := by
  obtain ⟨hlow, hhigh⟩ := hd
  obtain ⟨hlow', hhigh'⟩ := hd'
  have hmonth := monthOf_spec d
  have hmonth' := monthOf_spec d'
  have hdays := (monthStart_succ (monthOf d)).2
  have hdays' := (monthStart_succ (monthOf d')).2
  unfold isoformat at h
  obtain ⟨hyear, hrest⟩ := List.append_inj h (by simp [fourDigits, twoDigits])
  obtain ⟨hmonths, hrest⟩ := List.append_inj (List.cons.inj hrest).2 (by simp [twoDigits])
  have hyears := fourDigits_inj (by omega) (by omega) hyear
  have hmonths := twoDigits_inj (by omega) (by omega) hmonths
  have hday := twoDigits_inj (by omega) (by omega) (List.cons.inj hrest).2
  have hsame : monthOf d = monthOf d' := by omega
  rw [hsame] at hmonth hday hdays
  omega

end Msai.Lib.PyDate
