import Msai.Lib.Moments
import Msai.Lib.Ranking
import Mathlib.Data.List.Dedup

namespace Msai.Analytics

open Msai.Lib Msai.Lib.Moments

/-!
# Series of returns (`services/analytics_math.py`)

A pandas Series as the analytics use it: one return per timestamp, in the order of time.

* `Returns`, `Series` — a series as it comes in, and a cleaned one;
* `clean` — `_clean_returns_series`;
* `combineWeightedReturns` — `combine_weighted_returns`;
* `inferPeriodsPerYear`, `computeAlphaBeta`, `computeSeriesMetrics`;
* `Series.get_of_mem`, `clean_toReturns`, `clean_map`, `combine_sameIndex` — the facts the results
  about them share.

Arithmetic is exact: numbers are those of an ordered field, `none` stands for NaN and the
infinities, and `sqrt` is an argument, `Real.sqrt` in the results.  No series has two rows with one
timestamp: the reports have one row a day, and pandas refuses to align series otherwise.
-/

variable {K : Type}

/-- A series as it comes in.  A timestamp is in nanoseconds, `none` if it cannot be parsed; a value
    is `none` if it is not a finite number. -/
structure Returns (K : Type) where
  rows : List (Option ℤ × Option K)
  nodup : (rows.filterMap Prod.fst).Nodup

/-- Change every value. -/
def Returns.map (s : Returns K) (f : K → K) : Returns K where
  rows := s.rows.map fun p => (p.1, p.2.map f)
  nodup := by
    rw [List.filterMap_map]
    exact s.nodup

/-- A cleaned series. -/
@[ext] structure Series (K : Type) where
  rows : List (ℤ × K)
  sorted : rows.Pairwise fun p q => p.1 < q.1

namespace Series

/-- The index. -/
def index (s : Series K) : List ℤ := s.rows.map Prod.fst

/-- The values, without the index. -/
def values (s : Series K) : List K := s.rows.map Prod.snd

/-- The value at a timestamp. -/
def get (s : Series K) (t : ℤ) : Option K := (s.rows.find? fun p => p.1 = t).map Prod.snd

/-- `sort_index` of rows without a repeated timestamp. -/
def ofRows (rows : List (ℤ × K)) (h : (rows.map Prod.fst).Nodup) : Series K where
  rows := rankBy Prod.fst rows
  sorted := by
    have hne : (rankBy Prod.fst rows).Pairwise fun p q => p.1 ≠ q.1 :=
      List.pairwise_map.mp ((rankBy_perm.map Prod.fst).nodup_iff.mpr h)
    exact (rankBy_pairwise.and hne).imp fun hpq => lt_of_le_of_ne hpq.1 hpq.2

/-- One value for each of the timestamps. -/
def ofIndex (ts : List ℤ) (h : ts.Pairwise (· < ·)) (f : ℤ → K) : Series K where
  rows := ts.map fun t => (t, f t)
  sorted := List.pairwise_map.mpr h

/-- Change every value. -/
def map (s : Series K) (f : K → K) : Series K where
  rows := s.rows.map fun p => (p.1, f p.2)
  sorted := List.pairwise_map.mpr s.sorted

/-- The rows from one timestamp to another. -/
def between (s : Series K) (low high : ℤ) : Series K where
  rows := s.rows.filter fun p => low ≤ p.1 ∧ p.1 ≤ high
  sorted := s.sorted.filter _

theorem mem_between {s : Series K} {low high t : ℤ} :
    t ∈ (s.between low high).index ↔ t ∈ s.index ∧ low ≤ t ∧ t ≤ high := by
  unfold index between
  constructor
  · intro h
    obtain ⟨p, hp, rfl⟩ := List.mem_map.mp h
    obtain ⟨hmem, hrow⟩ := List.mem_filter.mp hp
    exact ⟨List.mem_map.mpr ⟨p, hmem, rfl⟩, of_decide_eq_true hrow⟩
  · rintro ⟨h, hrow⟩
    obtain ⟨p, hp, rfl⟩ := List.mem_map.mp h
    exact List.mem_map.mpr ⟨p, List.mem_filter.mpr ⟨hp, decide_eq_true hrow⟩, rfl⟩

/-- The series without rows. -/
def empty : Series K := ⟨[], List.Pairwise.nil⟩

/-- A cleaned series, taken as input again. -/
def toReturns (s : Series K) : Returns K where
  rows := s.rows.map fun p => (some p.1, some p.2)
  nodup := by
    have hfst : (s.rows.map fun p => (some p.1, some p.2)).filterMap Prod.fst = s.index := by
      rw [List.filterMap_map]
      exact congrFun List.filterMap_eq_map s.rows
    rw [hfst, index]
    exact List.pairwise_map.mpr (s.sorted.imp fun h => ne_of_lt h)

end Series

/-- The rows with a timestamp and a value. -/
def finiteRows (rows : List (Option ℤ × Option K)) : List (ℤ × K) :=
  rows.filterMap fun p => match p with
    | (some t, some v) => some (t, v)
    | _ => none

theorem finiteRows_sublist (rows : List (Option ℤ × Option K)) :
    ((finiteRows rows).map Prod.fst).Sublist (rows.filterMap Prod.fst) := by
  induction rows with
  | nil => exact List.Sublist.slnil
  | cons p rows ih =>
    obtain ⟨t?, v?⟩ := p
    cases t? with
    | none => exact ih
    | some t =>
      cases v? with
      | none => exact ih.cons t
      | some v => exact ih.cons_cons t

/-- Rows that all have a timestamp and a value. -/
theorem finiteRows_some (rows : List (ℤ × K)) :
    finiteRows (rows.map fun p => (some p.1, some p.2)) = rows := by
  unfold finiteRows
  rw [List.filterMap_map]
  exact List.filterMap_some

/-- `_clean_returns_series`. -/
def clean (s : Returns K) : Series K :=
  Series.ofRows (finiteRows s.rows) (s.nodup.sublist (finiteRows_sublist s.rows))

/-! ### Combining -/

/-- The union of the indices, in order. -/
def unionIndex (ss : List (Series K)) : List ℤ := rankBy id (ss.flatMap Series.index).dedup

theorem unionIndex_sorted (ss : List (Series K)) : (unionIndex ss).Pairwise (· < ·) := by
  have hnodup : (unionIndex ss).Nodup := rankBy_perm.nodup_iff.mpr (List.nodup_dedup _)
  exact (rankBy_pairwise.and hnodup).imp fun hpq => lt_of_le_of_ne hpq.1 hpq.2

theorem mem_unionIndex {ss : List (Series K)} {t : ℤ} :
    t ∈ unionIndex ss ↔ ∃ s ∈ ss, t ∈ s.index := by
  unfold unionIndex
  rw [rankBy_perm.mem_iff, List.mem_dedup, List.mem_flatMap]

/-- Series over one index. -/
theorem unionIndex_same {ss : List (Series K)} {ts : List ℤ} (hts : ts.Pairwise (· < ·))
    (hss : ss ≠ []) (h : ∀ s ∈ ss, s.index = ts) : unionIndex ss = ts := by
  have hmem : ∀ t, t ∈ unionIndex ss ↔ t ∈ ts := by
    intro t
    rw [mem_unionIndex]
    constructor
    · rintro ⟨s, hs, ht⟩
      rwa [h s hs] at ht
    · intro ht
      obtain ⟨s, hs⟩ := List.exists_mem_of_ne_nil ss hss
      exact ⟨s, hs, by rwa [h s hs]⟩
  have hne {l : List ℤ} (hl : l.Pairwise (· < ·)) : l.Nodup := hl.imp fun hlt => ne_of_lt hlt
  have hperm : (unionIndex ss).Perm ts :=
    (List.perm_ext_iff_of_nodup (hne (unionIndex_sorted ss)) (hne hts)).mpr hmem
  exact hperm.eq_of_pairwise (fun a b _ _ hab hba => absurd hab (lt_asymm hba))
    (unionIndex_sorted ss) hts

section Combine

variable [Field K]

/-- The entry of a column of weighted returns, behind `fillna(0.0)`. -/
def weightedEntry (weight : Option K) (s : Series K) (t : ℤ) : K :=
  match s.get t, weight with
  | some v, some w => v * w
  | _, _ => 0

/-- `combine_weighted_returns`.  The names of the columns play no part. -/
def combineWeightedReturns (weightedSeries : List (Option K × Returns K)) (leverage : K) :
    Series K :=
  let columns := weightedSeries.map fun p => (p.1, clean p.2)
  Series.ofIndex (unionIndex (columns.map Prod.snd)) (unionIndex_sorted _) fun t =>
    (columns.map fun c => weightedEntry c.1 c.2 t).sum * leverage

end Combine

/-! ### Metrics -/

section Metrics

variable [Field K] [LinearOrder K]

/-- The median of a list that is not empty. -/
def median (xs : List K) : K :=
  let sorted := rankBy id xs
  let mid := sorted.length / 2
  if sorted.length % 2 = 1 then sorted.getD mid 0
  else (sorted.getD (mid - 1) 0 + sorted.getD mid 0) / 2

/-- `infer_periods_per_year`. -/
def inferPeriodsPerYear (index : List ℤ) : K :=
  if index.length < 2 then 252
  else
    let deltas := List.zipWith (fun t u => (u - t : ℤ)) index index.tail
    let medianSeconds : K := median (deltas.map fun d => (d : K) / 10 ^ 9)
    if medianSeconds ≤ 90 then 252 * 390
    else if medianSeconds ≤ 60 * 15 then 252 * 26
    else if medianSeconds ≤ 60 * 90 then 252 * (13 / 2)
    else 252

/-- `compute_alpha_beta`. -/
def computeAlphaBeta (returns benchmarkReturns : Returns K) (periodsPerYear : Option K) :
    Option K × Option K :=
  let benchmark := clean benchmarkReturns
  let aligned := (clean returns).rows.filterMap fun p =>
    (benchmark.get p.1).map fun b => (p.1, p.2, b)
  let pairs := aligned.map Prod.snd
  if pairs = [] then (none, none)
  else
    let benchmarkVar := variance 0 (pairs.map Prod.snd)
    if benchmarkVar ≤ 0 then (none, none)
    else
      -- pandas divides the covariance by `n - 1`
      let beta := covariance 1 pairs / benchmarkVar
      let periods :=
        match periodsPerYear with
        | some p => if p = 0 then inferPeriodsPerYear (aligned.map Prod.fst) else p
        | none => inferPeriodsPerYear (aligned.map Prod.fst)
      let alpha := (mean (pairs.map Prod.fst) - beta * mean (pairs.map Prod.snd)) * periods
      (some alpha, some beta)

/-- `(1.0 + series).cumprod()`, from `acc` on. -/
def equityCurve (acc : K) : List K → List K
  | [] => []
  | r :: rs => acc * (1 + r) :: equityCurve (acc * (1 + r)) rs

/-- `equity / equity.cummax().clip(lower=1.0) - 1.0`, with the maximum so far. -/
def drawdowns (peak : K) : List K → List K
  | [] => []
  | e :: es => (e / max peak e - 1) :: drawdowns (max peak e) es

/-- `series.min()`. -/
def minimum : List K → K
  | [] => 0
  | x :: xs => xs.foldl min x

/-- `_safe_ratio`. -/
def safeRatio (numerator denominator : K) : K :=
  if |denominator| ≤ 1 / 10 ^ 12 then 0 else numerator / denominator

/-- `SeriesMetrics`. -/
structure SeriesMetrics (K : Type) where
  totalReturn : K
  sharpe : K
  sortino : K
  maxDrawdown : K
  winRate : K
  annualizedVolatility : K
  downsideRisk : K
  alpha : Option K
  beta : Option K
deriving DecidableEq, Repr

/-- The metrics of an empty series. -/
def SeriesMetrics.empty : SeriesMetrics K :=
  { totalReturn := 0, sharpe := 0, sortino := 0, maxDrawdown := 0, winRate := 0,
    annualizedVolatility := 0, downsideRisk := 0, alpha := none, beta := none }

/-- `series.where(series < 0.0, 0.0)`. -/
def downside (xs : List K) : List K := xs.map fun r => if r < 0 then r else 0

/-- `compute_series_metrics`. -/
def computeSeriesMetrics (sqrt : K → K) (returns : Returns K)
    (benchmarkReturns : Option (Returns K)) : SeriesMetrics K :=
  let series := clean returns
  if series.rows = [] then .empty
  else
    let periods := inferPeriodsPerYear series.index
    let meanReturn := mean series.values
    let stdReturn := sqrt (variance 0 series.values)
    let downsideStd := sqrt (meanSquare (downside series.values))
    let equity := equityCurve 1 series.values
    let alphaBeta :=
      match benchmarkReturns with
      | none => (none, none)
      | some benchmark => computeAlphaBeta series.toReturns benchmark (some periods)
    { totalReturn := equity.getLastD 1 - 1
      sharpe := safeRatio meanReturn stdReturn * sqrt periods
      sortino := safeRatio meanReturn downsideStd * sqrt periods
      maxDrawdown := minimum (drawdowns 1 equity)
      winRate := mean (series.values.map fun r => if 0 < r then 1 else 0)
      annualizedVolatility := stdReturn * sqrt periods
      downsideRisk := downsideStd * sqrt periods
      alpha := alphaBeta.1
      beta := alphaBeta.2 }

end Metrics

/-! ### Facts -/

variable {s : Series K} {t : ℤ} {v : K}

theorem find?_of_mem {rows : List (ℤ × K)} (hsorted : rows.Pairwise fun p q => p.1 < q.1)
    (h : (t, v) ∈ rows) : rows.find? (fun p => p.1 = t) = some (t, v) := by
  induction hsorted with
  | nil => cases h
  | @cons p rows hlt _ ih =>
    rcases List.mem_cons.mp h with rfl | hmem
    · exact List.find?_cons_of_pos (by simp)
    · have hne : p.1 ≠ t := ne_of_lt (hlt _ hmem)
      rw [List.find?_cons_of_neg (by simpa using hne)]
      exact ih hmem

theorem Series.get_of_mem (h : (t, v) ∈ s.rows) : s.get t = some v := by
  unfold Series.get
  rw [find?_of_mem s.sorted h]
  rfl

/-- Cleaning a cleaned series changes nothing. -/
theorem clean_toReturns (s : Series K) : clean s.toReturns = s := by
  ext1
  show rankBy Prod.fst (finiteRows (s.rows.map fun p => (some p.1, some p.2))) = s.rows
  rw [finiteRows_some]
  exact List.Pairwise.insertionSort_eq (s.sorted.imp fun h => le_of_lt h)

theorem Series.ofIndex_map {ts : List ℤ} {h : ts.Pairwise (· < ·)} {f : ℤ → K} {g : K → K} :
    (Series.ofIndex ts h f).map g = Series.ofIndex ts h fun t => g (f t) := by
  ext1
  show (ts.map fun t => (t, f t)).map (fun p => (p.1, g p.2)) = ts.map fun t => (t, g (f t))
  rw [List.map_map]
  rfl

theorem Series.ofIndex_get {ts : List ℤ} {h : ts.Pairwise (· < ·)} {f : ℤ → K} (ht : t ∈ ts) :
    (Series.ofIndex ts h f).get t = some (f t) :=
  Series.get_of_mem (List.mem_map.mpr ⟨t, ht, rfl⟩)

theorem Series.ofIndex_index {ts : List ℤ} {h : ts.Pairwise (· < ·)} {f : ℤ → K} :
    (Series.ofIndex ts h f).index = ts := by
  show (ts.map fun t => (t, f t)).map Prod.fst = ts
  rw [List.map_map]
  exact List.map_id _

/-- Combining cleaned series over one index. -/
theorem combine_sameIndex [Field K] {α : Type} {l : List α} {weight : α → Option K}
    {series : α → Series K} {ts : List ℤ} {leverage : K} (hts : ts.Pairwise (· < ·))
    (hne : l ≠ []) (h : ∀ a ∈ l, (series a).index = ts) :
    combineWeightedReturns (l.map fun a => (weight a, (series a).toReturns)) leverage
      = Series.ofIndex ts hts fun t =>
          (l.map fun a => weightedEntry (weight a) (series a) t).sum * leverage := by
  have hcolumns : (l.map fun a => (weight a, (series a).toReturns)).map
      (fun p => (p.1, clean p.2)) = l.map fun a => (weight a, series a) := by
    rw [List.map_map]
    refine List.map_congr_left fun a _ => ?_
    show (weight a, clean (series a).toReturns) = _
    rw [clean_toReturns]
  have hindex : unionIndex ((l.map fun a => (weight a, series a)).map Prod.snd) = ts := by
    rw [List.map_map]
    refine unionIndex_same hts (List.map_eq_nil_iff.not.mpr hne) fun s hs => ?_
    obtain ⟨a, ha, rfl⟩ := List.mem_map.mp hs
    exact h a ha
  ext1
  unfold combineWeightedReturns Series.ofIndex
  dsimp only
  rw [hcolumns, hindex]
  simp only [List.map_map, Function.comp_def]

theorem finiteRows_map (s : Returns K) (f : K → K) :
    finiteRows (s.map f).rows = (finiteRows s.rows).map fun p => (p.1, f p.2) := by
  unfold finiteRows Returns.map
  rw [List.filterMap_map, List.map_filterMap]
  congr 1
  funext p
  obtain ⟨t?, v?⟩ := p
  cases t? with
  | none => rfl
  | some t =>
    cases v? with
    | none => rfl
    | some v => rfl

theorem clean_map (s : Returns K) (f : K → K) : clean (s.map f) = (clean s).map f := by
  ext1
  show rankBy Prod.fst (finiteRows (s.map f).rows)
    = (rankBy Prod.fst (finiteRows s.rows)).map fun p => (p.1, f p.2)
  rw [finiteRows_map]
  exact rankBy_map fun _ => rfl

end Msai.Analytics
