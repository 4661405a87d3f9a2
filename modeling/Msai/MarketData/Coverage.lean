import Msai.Lib.Calendar
import Msai.Lib.Runs
import Msai.MarketData.PartitionIndex

namespace Msai.MarketData

open Msai.Lib Msai.Lib.Calendar

/-!
# The coverage scan (`services/symbol_onboarding/coverage.py`, `services/trading_calendar.py`)

Which trading days of a window have data, and which ranges of days are missing.

* `assetClassToExchange`, `isTradingDay`, `tradingDays` — the calendar of an asset class;
* `coveredDays`, `tolerated`, `missingDays`, `collapseMissing` — the parts of the scan;
* `computeCoverage` — `compute_coverage`, given the cached rows and those of the walk;
* `tolerance_iff` — when the days that are treated as missing are those that should be;
* `collapse_iff` — when the ranges that are reported are a faithful compression.

Days are numbered from 1970-01-01, and a set of days is a list of its members.  The sessions of an
exchange come from a third-party package and are an argument.
-/

/-! ### Trading days -/

/-- `asset_class.lower()`, as far as a comparison with the keys of the table can tell: beside the
    capitals only the Kelvin sign has a lower case in ASCII. -/
def lower (s : String) : String :=
  s.map fun c => if c = Char.ofNat 0x212A then 'k' else c.toLower

/-- `asset_class_to_exchange`. -/
def assetClassToExchange (assetClass : String) : Option String :=
  match lower assetClass with
  | "stocks" => some "XNYS"
  | "options" => some "XNYS"
  | "forex" => some "XNYS"
  | "futures" => some "CMES"
  | "equity" => some "XNYS"
  | "option" => some "XNYS"
  | "fx" => some "XNYS"
  | _ => none

/-- The calendar of an asset class has the day: a session of its exchange, or a weekday. -/
def isTradingDay (sessions : String → ℤ → Bool) (assetClass : String) (d : ℤ) : Bool :=
  match assetClassToExchange assetClass with
  | none => decide (weekday d < 5)
  | some key => sessions key d

section Scan

variable (trading : ℤ → Bool)

/-- `trading_days`, in order. -/
def tradingDays (startDate endDate : ℤ) : List ℤ :=
  if startDate > endDate then [] else (span startDate endDate).filter trading

/-- The days of a row that the window admits. -/
def rowDays (startDate endDate : ℤ) (row : PartitionRow) : List ℤ :=
  let clippedFirst := max (dayOf row.footer.minTs) startDate
  let clippedLast := min (dayOf row.footer.maxTs) endDate
  if clippedFirst > clippedLast then [] else tradingDays trading clippedFirst clippedLast

/-- `_covered_days_from_rows`. -/
def coveredDays (startDate endDate : ℤ) (rows : List PartitionRow) : List ℤ :=
  rows.flatMap (rowDays trading startDate endDate)

/-- The set `tolerated` of `_apply_trailing_edge_tolerance`. -/
def tolerated (today : ℤ) : List ℤ :=
  let recent := tradingDays trading (today - 21) today
  -- `recent[-7:]`
  recent.drop (recent.length - 7) ++ [today]

/-- `_apply_trailing_edge_tolerance`. -/
def applyTrailingEdgeTolerance (today : ℤ) (missing : List ℤ) : List ℤ :=
  missing.filter fun d => d ∉ tolerated trading today

/-- What `missing` is behind the tolerance. -/
def missingDays (startDate endDate today : ℤ) (covered : List ℤ) : List ℤ :=
  applyTrailingEdgeTolerance trading today
    ((tradingDays trading startDate endDate).filter fun d => d ∉ covered)

/-- `_collapse_missing`. -/
def collapseMissing (missing : List ℤ) : List (ℤ × ℤ) :=
  runs (fun prev current => current - prev ≤ 5) missing

inductive CoverageStatus
  | full
  | gapped
  | none
deriving DecidableEq, Repr

/-- `CoverageReport`. -/
structure CoverageReport where
  status : CoverageStatus
  coveredRange : Option (ℤ × ℤ)
  missingRanges : List (ℤ × ℤ)
deriving DecidableEq, Repr

/-- `_derive_covered_range` of a set that is not empty. -/
def deriveCoveredRange (covered : List ℤ) : Option (ℤ × ℤ) :=
  covered.min?.bind fun first => covered.max?.map fun last => (first, last)

/-- The report on the days that are covered. -/
def reportCovered (startDate endDate today : ℤ) (covered : List ℤ) : CoverageReport :=
  if covered.isEmpty then
    { status := .none, coveredRange := none, missingRanges := [(startDate, endDate)] }
  else
    let missing := missingDays trading startDate endDate today covered
    if missing.isEmpty then
      { status := .full, coveredRange := deriveCoveredRange covered, missingRanges := [] }
    else
      { status := .gapped, coveredRange := deriveCoveredRange covered
        missingRanges := collapseMissing missing }

/-- The rows that a scan relies on: those of the walk if the cached ones cover nothing. -/
def rowsUsed (startDate endDate : ℤ) (cached walked : List PartitionRow) : List PartitionRow :=
  if (coveredDays trading startDate endDate cached).isEmpty then walked else cached

/-- `compute_coverage`. -/
def computeCoverage (startDate endDate today : ℤ) (cached walked : List PartitionRow) :
    CoverageReport :=
  if (tradingDays trading startDate endDate).isEmpty then
    { status := .full, coveredRange := none, missingRanges := [] }
  else
    reportCovered trading startDate endDate today
      (coveredDays trading startDate endDate (rowsUsed trading startDate endDate cached walked))

end Scan

/-! ### The parts -/

section Parts

variable {trading : ℤ → Bool} {startDate endDate today d : ℤ} {rows : List PartitionRow}
  {covered : List ℤ}

theorem mem_tradingDays : d ∈ tradingDays trading startDate endDate ↔
    (startDate ≤ d ∧ d ≤ endDate) ∧ trading d = true := by
  unfold tradingDays
  split
  · rename_i hgt
    exact iff_of_false List.not_mem_nil fun h => by omega
  · rw [List.mem_filter, mem_span]

theorem tradingDays_sorted : (tradingDays trading startDate endDate).Pairwise (· < ·) := by
  unfold tradingDays
  split
  · exact List.Pairwise.nil
  · exact (pairwise_span _ _).filter _

/-- A day is covered by a row. -/
def Covers (row : PartitionRow) (d : ℤ) : Prop :=
  dayOf row.footer.minTs ≤ d ∧ d ≤ dayOf row.footer.maxTs

instance (row : PartitionRow) (d : ℤ) : Decidable (Covers row d) :=
  inferInstanceAs (Decidable (_ ∧ _))

/-- The covered days are the trading days of the window that a row covers. -/
theorem mem_coveredDays : d ∈ coveredDays trading startDate endDate rows ↔
    d ∈ tradingDays trading startDate endDate ∧ ∃ row ∈ rows, Covers row d := by
  unfold coveredDays
  rw [List.mem_flatMap, mem_tradingDays]
  have hrow : ∀ row, d ∈ rowDays trading startDate endDate row ↔
      ((startDate ≤ d ∧ d ≤ endDate) ∧ trading d = true) ∧ Covers row d := by
    intro row
    unfold rowDays Covers
    dsimp only
    split
    · exact iff_of_false List.not_mem_nil fun h => by omega
    · rw [mem_tradingDays, max_le_iff, le_min_iff]
      tauto
  constructor
  · rintro ⟨row, hmem, hd⟩
    exact ⟨((hrow row).mp hd).1, row, hmem, ((hrow row).mp hd).2⟩
  · rintro ⟨hd, row, hmem, hcovers⟩
    exact ⟨row, hmem, (hrow row).mpr ⟨hd, hcovers⟩⟩

/-- The trading days between two days, without them. -/
def tradingBetween (trading : ℤ → Bool) (d d' : ℤ) : List ℤ :=
  (span (d + 1) (d' - 1)).filter trading

/-- What the look-back finds: a trading day has few trading days behind it, today included. -/
theorem mem_tolerated : d ∈ tolerated trading today ↔ d = today ∨
    (today - 21 ≤ d ∧ d < today ∧ trading d = true ∧
      (tradingBetween trading d today).length + (if trading today then 1 else 0) < 7) := by
  unfold tolerated
  dsimp only
  rw [List.mem_append, List.mem_singleton, mem_drop_length_sub tradingDays_sorted, mem_tradingDays]
  rcases lt_trichotomy d today with hlt | rfl | hgt
  · -- the days of the look-back behind `d`
    have hbehind : d + 1 ≤ today - 1 + 1 := by omega
    have hcount : today - 21 ≤ d →
        ((tradingDays trading (today - 21) today).filter fun b => d < b).length
          = (tradingBetween trading d today).length + (if trading today then 1 else 0) := by
      intro hlow
      have hsame : (tradingDays trading (today - 21) today).filter (fun b => d < b)
          = (span (d + 1) today).filter trading := by
        refine (tradingDays_sorted.filter _).eq_of_mem_iff ((pairwise_span _ _).filter _)
          fun b => ?_
        rw [List.mem_filter, mem_tradingDays, List.mem_filter, mem_span, decide_eq_true_eq]
        constructor
        · rintro ⟨⟨hb, htrading⟩, hdb⟩
          exact ⟨by omega, htrading⟩
        · rintro ⟨hb, htrading⟩
          exact ⟨⟨by omega, htrading⟩, by omega⟩
      have htoday : span (today - 1 + 1) today = [today] := by
        rw [sub_add_cancel, span, Int.range]
        simp
      rw [hsame, ← span_append hbehind (by omega), htoday, List.filter_append, List.length_append]
      refine congrArg _ ?_
      cases htrading : trading today with
      | true => simp [htrading]
      | false => simp [htrading]
    constructor
    · rintro (⟨⟨hin, htrading⟩, hfew⟩ | rfl)
      · rw [hcount hin.1] at hfew
        exact Or.inr ⟨hin.1, hlt, htrading, hfew⟩
      · exact absurd hlt (lt_irrefl _)
    · rintro (rfl | ⟨hlow, -, htrading, hfew⟩)
      · exact absurd hlt (lt_irrefl _)
      · exact Or.inl ⟨⟨⟨hlow, hlt.le⟩, htrading⟩, by rw [hcount hlow]; exact hfew⟩
  · exact iff_of_true (Or.inr rfl) (Or.inl rfl)
  · refine iff_of_false ?_ ?_
    · rintro (⟨⟨hin, -⟩, -⟩ | rfl)
      · omega
      · exact absurd hgt (lt_irrefl _)
    · rintro (rfl | ⟨-, hlt, -⟩)
      · exact absurd hgt (lt_irrefl _)
      · omega

theorem mem_missingDays : d ∈ missingDays trading startDate endDate today covered ↔
    (d ∈ tradingDays trading startDate endDate ∧ d ∉ covered) ∧
      d ∉ tolerated trading today := by
  unfold missingDays applyTrailingEdgeTolerance
  rw [List.mem_filter, List.mem_filter, decide_eq_true_eq, decide_eq_true_eq]

theorem missingDays_sorted :
    (missingDays trading startDate endDate today covered).Pairwise (· < ·) :=
  (tradingDays_sorted.filter _).filter _

end Parts

/-! ### The tolerance -/

section Tolerance

variable {trading : ℤ → Bool} {startDate endDate today d : ℤ} {rows cached walked :
  List PartitionRow}

/-- One of the seven last trading days before today. -/
def LastSeven (trading : ℤ → Bool) (today d : ℤ) : Prop :=
  trading d = true ∧ d < today ∧ (tradingBetween trading d today).length < 7

/-- A trading day of the window that no row covers. -/
def Uncovered (trading : ℤ → Bool) (startDate endDate : ℤ) (rows : List PartitionRow) (d : ℤ) :
    Prop :=
  d ∈ tradingDays trading startDate endDate ∧ ∀ row ∈ rows, ¬ Covers row d

/-- A day that should be treated as missing. -/
def Missing (trading : ℤ → Bool) (startDate endDate today : ℤ) (rows : List PartitionRow) (d : ℤ) :
    Prop :=
  Uncovered trading startDate endDate rows d ∧ d ≠ today ∧ ¬ LastSeven trading today d

instance : Decidable (LastSeven trading today d) := inferInstanceAs (Decidable (_ ∧ _))

instance : Decidable (Uncovered trading startDate endDate rows d) :=
  inferInstanceAs (Decidable (_ ∧ _))

instance : Decidable (Missing trading startDate endDate today rows d) :=
  inferInstanceAs (Decidable (_ ∧ _))

/-- The look-back finds one of the seven last trading days: it reaches back far enough, and today
    does not take its place. -/
def Found (trading : ℤ → Bool) (today d : ℤ) : Prop :=
  today - 21 ≤ d ∧ (trading today = true → (tradingBetween trading d today).length < 6)

instance : Decidable (Found trading today d) := inferInstanceAs (Decidable (_ ∧ _))

/-- What is tolerated should be: it is one of the seven that the look-back finds. -/
theorem mem_tolerated_iff : d ∈ tolerated trading today ↔
    d = today ∨ (LastSeven trading today d ∧ Found trading today d) := by
  rw [mem_tolerated]
  refine or_congr_right ?_
  unfold LastSeven Found
  cases htoday : trading today with
  | true =>
    rw [if_pos rfl]
    constructor
    · rintro ⟨hlow, hlt, htrading, hfew⟩
      exact ⟨⟨htrading, hlt, by omega⟩, hlow, fun _ => by omega⟩
    · rintro ⟨⟨htrading, hlt, -⟩, hlow, hfew⟩
      have hsix := hfew rfl
      exact ⟨hlow, hlt, htrading, by omega⟩
  | false =>
    rw [if_neg (by simp), add_zero]
    constructor
    · rintro ⟨hlow, hlt, htrading, hfew⟩
      exact ⟨⟨htrading, hlt, hfew⟩, hlow, fun h => absurd h (by simp)⟩
    · rintro ⟨⟨htrading, hlt, hfew⟩, hlow, -⟩
      exact ⟨hlow, hlt, htrading, hfew⟩

theorem mem_missingDays_iff : d ∈ missingDays trading startDate endDate today
      (coveredDays trading startDate endDate rows) ↔
    Uncovered trading startDate endDate rows d ∧ d ≠ today ∧
      ¬ (LastSeven trading today d ∧ Found trading today d) := by
  rw [mem_missingDays, mem_tolerated_iff, mem_coveredDays, not_or]
  refine and_congr_left fun _ => ?_
  unfold Uncovered
  refine and_congr_right fun hday => ?_
  rw [not_and]
  exact ⟨fun h row hrow hcovers => h hday ⟨row, hrow, hcovers⟩,
    fun h _ ⟨row, hrow, hcovers⟩ => h row hrow hcovers⟩

/-- A report on days that are covered is full unless days are missing. -/
theorem status_reportCovered {covered : List ℤ} (h : covered ≠ []) :
    (reportCovered trading startDate endDate today covered).status = .full ↔
      ∀ d, d ∉ missingDays trading startDate endDate today covered := by
  unfold reportCovered
  rw [if_neg (by simpa using h), ← List.eq_nil_iff_forall_not_mem]
  dsimp only
  split
  · rename_i hempty
    exact iff_of_true rfl (List.isEmpty_iff.mp hempty)
  · rename_i hne
    exact iff_of_false (by simp) fun hnil => hne (List.isEmpty_iff.mpr hnil)

/-- **The days that are treated as missing are those that should be** exactly if the look-back
    finds the uncovered ones among the seven last trading days. -/
theorem tolerance_iff (sessions : String → ℤ → Bool) (assetClass : String)
    (startDate endDate today : ℤ) (cached walked : List PartitionRow) :
    let trading := isTradingDay sessions assetClass
    let rows := rowsUsed trading startDate endDate cached walked
    let covered := coveredDays trading startDate endDate rows
    covered ≠ [] →
      (((∀ d, d ∈ missingDays trading startDate endDate today covered ↔
            Missing trading startDate endDate today rows d) ∧
          ((computeCoverage trading startDate endDate today cached walked).status = .full ↔
            ∀ d, ¬ Missing trading startDate endDate today rows d)) ↔
        ∀ d, Uncovered trading startDate endDate rows d → LastSeven trading today d →
          Found trading today d) := by
  intro trading rows covered hcovered
  -- a covered day is a trading day of the window
  have hexpected : tradingDays trading startDate endDate ≠ [] := by
    obtain ⟨d, hd⟩ := List.exists_mem_of_ne_nil covered hcovered
    exact List.ne_nil_of_mem (mem_coveredDays.mp hd).1
  have hstatus : (computeCoverage trading startDate endDate today cached walked).status = .full ↔
      ∀ d, d ∉ missingDays trading startDate endDate today covered := by
    unfold computeCoverage
    rw [if_neg (by simpa using hexpected)]
    exact status_reportCovered hcovered
  constructor
  · rintro ⟨hmissing, -⟩ d huncovered hseven
    by_contra hnot
    have hmem : d ∈ missingDays trading startDate endDate today covered :=
      mem_missingDays_iff.mpr ⟨huncovered, hseven.2.1.ne, fun h => hnot h.2⟩
    exact ((hmissing d).mp hmem).2.2 hseven
  · intro hfound
    have hmissing : ∀ d, d ∈ missingDays trading startDate endDate today covered ↔
        Missing trading startDate endDate today rows d := by
      intro d
      rw [mem_missingDays_iff]
      unfold Missing
      refine and_congr_right fun huncovered => and_congr_right fun _ => ?_
      exact not_congr ⟨fun h => h.1, fun h => ⟨h, hfound d huncovered h⟩⟩
    refine ⟨hmissing, hstatus.trans (forall_congr' fun d => not_congr (hmissing d))⟩

/-- A month file with data from one day to another. -/
def rowOfDays (month first last : ℤ) : PartitionRow where
  month := month
  footer := { minTs := first * dayNs, maxTs := last * dayNs, rowCount := 2, fileMtime := 0
              fileSize := 0 }

/-- On Monday, 22 January 2024, the last data are of the 10th.  The 11th is the seventh trading day
    before today, and is reported as missing. -/
theorem tolerance_counts_today :
    let trading := isTradingDay (fun _ _ => false) "crypto"
    let day := fun d => dayNumber 2024 1 d
    let rows := [rowOfDays (12 * 2024) (day 2) (day 10)]
    computeCoverage trading (day 2) (day 22) (day 22) rows []
        = { status := .gapped, coveredRange := some (day 2, day 10)
            missingRanges := [(day 11, day 11)] } ∧
      LastSeven trading (day 22) (day 11) ∧
      ∀ d ∈ span (day 2) (day 22), ¬ Missing trading (day 2) (day 22) (day 22) rows d := by
  decide +kernel

/-- With data up to the 17th, nothing is treated as missing that should not be. -/
theorem tolerance_iff_recent :
    let trading := isTradingDay (fun _ _ => false) "crypto"
    let day := fun d => dayNumber 2024 1 d
    let rows := rowsUsed trading (day 2) (day 22) [rowOfDays (12 * 2024) (day 2) (day 17)] []
    coveredDays trading (day 2) (day 22) rows ≠ [] ∧
      ∀ d, d ∈ missingDays trading (day 2) (day 22) (day 22)
          (coveredDays trading (day 2) (day 22) rows) ↔
        Missing trading (day 2) (day 22) (day 22) rows d := by
  intro trading day rows
  have hcovered : coveredDays trading (day 2) (day 22) rows ≠ [] := by decide +kernel
  have hfound : ∀ d ∈ span (day 2) (day 22), Uncovered trading (day 2) (day 22) rows d →
      LastSeven trading (day 22) d → Found trading (day 22) d := by decide +kernel
  have hiff := tolerance_iff (fun _ _ => false) "crypto" (day 2) (day 22) (day 22)
    [rowOfDays (12 * 2024) (day 2) (day 17)] [] hcovered
  refine ⟨hcovered, (hiff.mpr fun d hd => ?_).1⟩
  exact hfound d (mem_span.mpr (mem_tradingDays.mp hd.1).1) hd

end Tolerance

/-! ### The ranges -/

section Ranges

variable {trading : ℤ → Bool} {startDate endDate today d : ℤ} {covered : List ℤ}

/-- Ranges that say which days are missing, and nothing else. -/
structure FaithfulRanges (trading : ℤ → Bool) (today : ℤ) (covered missing : List ℤ)
    (ranges : List (ℤ × ℤ)) : Prop where
  /-- They are sorted and disjoint. -/
  apart : ranges.Pairwise fun r r' => r.2 < r'.1
  /-- Every missing day is in one of them, and in one only. -/
  once : ∀ d ∈ missing, ∃! r, r ∈ ranges ∧ r.1 ≤ d ∧ d ≤ r.2
  /-- They start and end on missing days. -/
  ends : ∀ r ∈ ranges, r.1 ∈ missing ∧ r.2 ∈ missing ∧ r.1 ≤ r.2
  /-- No covered day is in one. -/
  avoid : ∀ r ∈ ranges, ∀ d ∈ covered, ¬ (r.1 ≤ d ∧ d ≤ r.2)
  /-- Two that follow each other have a covered or tolerated trading day between them. -/
  between : ranges.IsChain fun r r' => ∃ d, r.2 < d ∧ d < r'.1 ∧ trading d = true ∧
    (d ∈ covered ∨ d ∈ tolerated trading today)

/-- Ranges that are apart hold a day once. -/
theorem once_of_apart {ranges : List (ℤ × ℤ)} (hapart : ranges.Pairwise fun r r' => r.2 < r'.1)
    (h : ∃ r ∈ ranges, r.1 ≤ d ∧ d ≤ r.2) : ∃! r, r ∈ ranges ∧ r.1 ≤ d ∧ d ≤ r.2 := by
  obtain ⟨r, hr, hin⟩ := h
  refine ⟨r, ⟨hr, hin⟩, fun r' ⟨hr', hin'⟩ => ?_⟩
  by_contra hne
  have hsymm : Std.Symm fun r r' : ℤ × ℤ => r.2 < r'.1 ∨ r'.2 < r.1 := ⟨fun _ _ h => h.symm⟩
  have hlt := (hapart.imp Or.inl : ranges.Pairwise fun r r' => r.2 < r'.1 ∨ r'.2 < r.1).forall
    hr hr' (Ne.symm hne)
  omega

/-- What is between two neighbours that are missing is covered or tolerated. -/
theorem between_missing :
    (missingDays trading startDate endDate today covered).IsChain fun a b =>
      ∀ d, a < d → d < b → trading d = true → d ∈ covered ∨ d ∈ tolerated trading today := by
  refine (isChain_not_between missingDays_sorted).imp_of_mem_imp fun a b ha hb hnone d had hdb
    htrading => ?_
  by_contra hneither
  obtain ⟨hcovered, htolerated⟩ := not_or.mp hneither
  have hlow := (mem_tradingDays.mp (mem_missingDays.mp ha).1.1).1.1
  have hhigh := (mem_tradingDays.mp (mem_missingDays.mp hb).1.1).1.2
  have hday : d ∈ tradingDays trading startDate endDate :=
    mem_tradingDays.mpr ⟨⟨by omega, by omega⟩, htrading⟩
  exact hnone d (mem_missingDays.mpr ⟨⟨hday, hcovered⟩, htolerated⟩) ⟨had, hdb⟩

/-- What the ranges need of two missing days that follow each other: no covered day between them if
    they are at most five days apart, and a trading day if they are further apart. -/
def Separable (trading : ℤ → Bool) (covered : List ℤ) (a b : ℤ) : Prop :=
  (b - a ≤ 5 → ∀ d ∈ covered, ¬ (a < d ∧ d < b)) ∧
    (¬ b - a ≤ 5 → ∃ d, a < d ∧ d < b ∧ trading d = true)

/-- **The ranges are faithful** exactly if missing days that follow each other are separable. -/
theorem collapse_iff (sessions : String → ℤ → Bool) (assetClass : String)
    (startDate endDate today : ℤ) (cached walked : List PartitionRow) :
    let trading := isTradingDay sessions assetClass
    let covered := coveredDays trading startDate endDate
      (rowsUsed trading startDate endDate cached walked)
    let missing := missingDays trading startDate endDate today covered
    FaithfulRanges trading today covered missing (collapseMissing missing) ↔
      missing.IsChain (Separable trading covered) := by
  intro trading covered missing
  have hsorted : missing.Pairwise (· < ·) := missingDays_sorted
  have havoid : (∀ r ∈ collapseMissing missing, ∀ d ∈ covered, ¬ (r.1 ≤ d ∧ d ≤ r.2)) ↔
      missing.IsChain fun a b => b - a ≤ 5 → ∀ d ∈ covered, ¬ (a < d ∧ d < b) :=
    runs_avoid_iff hsorted fun a ha => (mem_missingDays.mp ha).1.2
  have hbetween : (collapseMissing missing).IsChain (fun r r' => ∃ d, r.2 < d ∧ d < r'.1 ∧
      trading d = true ∧ (d ∈ covered ∨ d ∈ tolerated trading today)) ↔
      missing.IsChain fun a b => ¬ b - a ≤ 5 → ∃ d, a < d ∧ d < b ∧ trading d = true := by
    refine (runs_isChain_iff (R := fun a b => ∃ d, a < d ∧ d < b ∧ trading d = true ∧
      (d ∈ covered ∨ d ∈ tolerated trading today))).trans ⟨fun h => ?_, fun h => ?_⟩
    · refine h.imp fun a b hR hnot => ?_
      obtain ⟨d, had, hdb, htrading, -⟩ := hR hnot
      exact ⟨d, had, hdb, htrading⟩
    · refine (isChain_and_iff.mpr ⟨h, between_missing⟩).imp fun a b hboth hnot => ?_
      obtain ⟨d, had, hdb, htrading⟩ := hboth.1 hnot
      exact ⟨d, had, hdb, htrading, hboth.2 d had hdb htrading⟩
  have hapart : (collapseMissing missing).Pairwise fun r r' => r.2 < r'.1 := runs_pairwise hsorted
  unfold Separable
  rw [isChain_and_iff, ← havoid, ← hbetween]
  constructor
  · exact fun h => ⟨h.avoid, h.between⟩
  · rintro ⟨havoids, hbetweens⟩
    exact
      { apart := hapart
        once := fun d hd => once_of_apart hapart (exists_mem_runs hsorted hd)
        ends := fun r hr => ends_of_mem_runs hsorted hr
        avoid := havoids
        between := hbetweens }

/-- Data of a Tuesday only: Monday and Wednesday are missing, and the range that is reported holds
    the Tuesday as well. -/
theorem collapse_swallows_covered :
    let trading := isTradingDay (fun _ _ => false) "crypto"
    let day := fun d => dayNumber 2024 1 d
    computeCoverage trading (day 8) (day 10) (day 31)
        [rowOfDays (12 * 2024) (day 9) (day 9)] []
      = { status := .gapped, coveredRange := some (day 9, day 9)
          missingRanges := [(day 8, day 10)] } ∧
      day 9 ∈ coveredDays trading (day 8) (day 10) [rowOfDays (12 * 2024) (day 9) (day 9)] ∧
      day 8 < day 9 ∧ day 9 < day 10 := by
  decide +kernel

end Ranges

end Msai.MarketData
