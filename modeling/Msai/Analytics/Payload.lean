import Msai.Analytics.Series
import Msai.Lib.Calendar
import Msai.Lib.Grouping
import Msai.Lib.Runs
import Mathlib.Algebra.Order.Field.Basic
import Mathlib.Order.Bounds.Basic
import Mathlib.Data.Finset.Max
import Mathlib.Algebra.Order.Ring.Rat
import Mathlib.Tactic.NormNum

namespace Msai.Analytics

open Msai.Lib Msai.Lib.Calendar

/-!
# The series payload (`services/analytics_math.py`)

What a report shows of a backtest: equity and drawdown by day, returns by month.

* `normalizeDailyReturns` — `normalize_daily_returns`: the bars of a day as one return;
* `buildSeriesFromReturns` — `build_series_from_returns`: equity and drawdown of cleaned returns;
* `buildSeriesPayload` — `build_series_payload`: the days, and the returns of the months;
* `growth_compoundDaily`, `growth_resampleMonths` — neither grouping changes a compounded return;
* `buildSeriesFromReturns_getElem?`, `runningMax_isGreatest` — the rows of the frame;
* `payload_agrees` — the three views agree with the bars.

Arithmetic is exact, and a return is a number or NaN: an infinite one, which the code keeps up to
the frame and in its month, is left out.  A timestamp is in nanoseconds on the clock of its index.
-/

variable {K : Type}

/-! ### Days -/

/-- `index.normalize()` of the bars, without repetitions and in order. -/
def barDays (bars : List (ℤ × K)) : List ℤ := rankBy id (firstSeen (fun b => dayOf b.1) bars)

theorem barDays_sorted (bars : List (ℤ × K)) : (barDays bars).Pairwise (· < ·) := by
  have hnodup : (barDays bars).Nodup := rankBy_perm.nodup_iff.mpr nodup_firstSeen
  exact (rankBy_pairwise.and hnodup).imp fun hpq => lt_of_le_of_ne hpq.1 hpq.2

theorem mem_barDays {bars : List (ℤ × K)} {d : ℤ} :
    d ∈ barDays bars ↔ ∃ b ∈ bars, dayOf b.1 = d := by
  unfold barDays
  rw [rankBy_perm.mem_iff, mem_firstSeen]

theorem midnights_sorted {ds : List ℤ} (h : ds.Pairwise (· < ·)) :
    (ds.map (· * dayNs)).Pairwise (· < ·) :=
  List.pairwise_map.mpr (h.imp fun hlt => mul_lt_mul_of_pos_right hlt (by decide))

section Days

variable [Field K]

/-- What a series grows by: the product of `1 + r`. -/
def growth {α : Type} (ret : α → K) (l : List α) : K := (l.map fun a => 1 + ret a).prod

/-- `(1.0 + normalized).groupby(normalized.index.normalize()).prod() - 1.0`. -/
def compoundDaily (bars : List (ℤ × K)) : Series K :=
  Series.ofIndex ((barDays bars).map (· * dayNs)) (midnights_sorted (barDays_sorted bars)) fun t =>
    growth Prod.snd (bars.filter fun b => dayOf b.1 = dayOf t) - 1

/-- `normalize_daily_returns`; there are no rows in `None`.  The result is `none` if no number has
    a timestamp: such a series is left as it is, and has no row that could be cleaned. -/
def normalizeDailyReturns (rows : List (Option ℤ × Option K)) : Option (Series K) :=
  let numeric := rows.filter fun p => p.2.isSome
  if numeric.isEmpty then some .empty
  else if numeric.all fun p => p.1.isNone then none
  else some (compoundDaily (finiteRows rows))

end Days

/-! ### Months -/

/-- An entry of `monthly_returns`. -/
structure MonthlyReturn (K : Type) where
  month : ℤ
  pct : K
deriving DecidableEq, Repr

/-- The month of a row. -/
def rowMonth (p : ℤ × K) : ℤ := monthOf (dayOf p.1)

theorem rowMonth_mono {p q : ℤ × K} (h : p.1 ≤ q.1) : rowMonth p ≤ rowMonth q :=
  monthOf_mono (dayOf_mono h)

/-- The months of a series lie between those of its first and its last row. -/
theorem rowMonth_mem_span {series : Series K} {first last p : ℤ × K}
    (hfirst : series.rows.head? = some first)
    (hlast : series.rows.getLast? = some last) (hp : p ∈ series.rows) :
    rowMonth first ≤ rowMonth p ∧ rowMonth p ≤ rowMonth last := by
  have hsorted : series.rows.Pairwise fun p q => p.1 ≤ q.1 := series.sorted.imp fun h => le_of_lt h
  constructor
  · obtain ⟨rest, hrows⟩ := List.head?_eq_some_iff.mp hfirst
    rw [hrows] at hp hsorted
    rcases List.mem_cons.mp hp with rfl | hrest
    · exact le_rfl
    · exact rowMonth_mono ((List.pairwise_cons.mp hsorted).1 p hrest)
  · obtain ⟨rest, hrows⟩ := List.getLast?_eq_some_iff.mp hlast
    rw [hrows] at hp hsorted
    rcases List.mem_append.mp hp with hrest | hlast
    · exact rowMonth_mono ((List.pairwise_append.mp hsorted).2.2 p hrest last
        (List.mem_singleton_self last))
    · exact (congrArg rowMonth (List.mem_singleton.mp hlast)).le

/-- `(1.0 + daily_returns).resample("ME").prod() - 1.0`: every month from the first to the last;
    the product over a month without days is 1. -/
def resampleMonths [Field K] (series : Series K) : List (MonthlyReturn K) :=
  match series.rows.head?, series.rows.getLast? with
  | some first, some last => (span (rowMonth first) (rowMonth last)).map fun m =>
      { month := m, pct := growth Prod.snd (series.rows.filter fun p => rowMonth p = m) - 1 }
  | _, _ => []

/-! ### The payload -/

section Payload

variable [Field K] [LinearOrder K]

/-- A row of the frame of `build_series_from_returns`. -/
structure FrameRow (K : Type) where
  timestamp : ℤ
  returns : K
  equity : K
  drawdown : K
deriving DecidableEq, Repr

/-- `build_series_from_returns`. -/
def buildSeriesFromReturns (returns : Returns K) (baseValue : K) : List (FrameRow K) :=
  let series := clean returns
  let equity := (equityCurve 1 series.values).map fun e => e * baseValue
  let drawdown := drawdowns baseValue equity
  List.zipWith (fun p q => ⟨p.1, p.2, q.1, q.2⟩) series.rows (equity.zip drawdown)

/-- An entry of `daily`. -/
structure DailyPoint (K : Type) where
  date : ℤ
  equity : K
  drawdown : K
  dailyReturn : K
deriving DecidableEq, Repr

/-- What `build_series_payload` returns. -/
structure Payload (K : Type) where
  daily : List (DailyPoint K)
  monthlyReturns : List (MonthlyReturn K)
deriving DecidableEq, Repr

/-- The point of a row. -/
def FrameRow.point (row : FrameRow K) : DailyPoint K :=
  { date := dayOf row.timestamp, equity := row.equity, drawdown := row.drawdown,
    dailyReturn := row.returns }

/-- `build_series_payload`. -/
def buildSeriesPayload (rows : List (Option ℤ × Option K)) (startingEquity : K) : Payload K :=
  match normalizeDailyReturns rows with
  -- the frame of rows without timestamps is empty
  | none => { daily := [], monthlyReturns := [] }
  | some dailyReturns =>
    if dailyReturns.rows.isEmpty then { daily := [], monthlyReturns := [] }
    else
      let frame := buildSeriesFromReturns dailyReturns.toReturns startingEquity
      if frame.isEmpty then { daily := [], monthlyReturns := [] }
      else
        { daily := frame.map FrameRow.point
          monthlyReturns := resampleMonths dailyReturns }

end Payload

/-! ### Compounded returns -/

section Growth

variable [Field K] {α β : Type} {ret : α → K} {l : List α}

theorem growth_pos [LinearOrder K] [IsStrictOrderedRing K] (h : ∀ a ∈ l, -1 < ret a) :
    0 < growth ret l := by
  induction l with
  | nil => exact one_pos
  | cons a l ih =>
    have ha : 0 < 1 + ret a := by linarith [h a List.mem_cons_self]
    exact mul_pos ha (ih fun b hb => h b (List.mem_cons_of_mem a hb))

/-- Compounding by groups first changes nothing. -/
theorem growth_groups (ret : α → K) (key : α → ℤ) (l : List α) {ret' : β → K} {ds : List ℤ}
    {entry : ℤ → β}
    (hnodup : ds.Nodup)
    (hentry : ∀ d ∈ ds, ret' (entry d) = growth ret (l.filter fun a => key a = d) - 1) :
    growth ret' (ds.map entry) = growth ret (l.filter fun a => key a ∈ ds) := by
  show ((ds.map entry).map fun b => 1 + ret' b).prod = _
  rw [growth, ← prod_grouped hnodup, List.map_map]
  refine congrArg List.prod (List.map_congr_left fun d hd => ?_)
  show 1 + ret' (entry d) = _
  rw [hentry d hd, add_sub_cancel]
  rfl

end Growth

section Groups

variable [Field K] {bars : List (ℤ × K)}

/-- The row of a day. -/
def dayRow (bars : List (ℤ × K)) (d : ℤ) : ℤ × K :=
  (d * dayNs, growth Prod.snd (bars.filter fun b => dayOf b.1 = d) - 1)

theorem dayOf_midnight (d : ℤ) : dayOf (d * dayNs) = d := Int.mul_ediv_cancel d (by decide)

theorem compoundDaily_rows (bars : List (ℤ × K)) :
    (compoundDaily bars).rows = (barDays bars).map (dayRow bars) := by
  show ((barDays bars).map (· * dayNs)).map (fun t =>
    (t, growth Prod.snd (bars.filter fun b => dayOf b.1 = dayOf t) - 1)) = _
  rw [List.map_map]
  refine List.map_congr_left fun d _ => ?_
  show (d * dayNs, growth Prod.snd (bars.filter fun b => dayOf b.1 = dayOf (d * dayNs)) - 1) = _
  rw [dayOf_midnight]
  rfl

/-- **The days compound to what their bars do.** -/
theorem growth_compoundDaily (P : ℤ → Prop) [DecidablePred P] :
    growth Prod.snd ((compoundDaily bars).rows.filter fun p => P (dayOf p.1))
      = growth Prod.snd (bars.filter fun b => P (dayOf b.1)) := by
  have hrows : (compoundDaily bars).rows.filter (fun p => P (dayOf p.1))
      = ((barDays bars).filter fun d => P d).map (dayRow bars) := by
    rw [compoundDaily_rows, List.filter_map]
    refine congrArg (List.map (dayRow bars)) (List.filter_congr fun d _ => ?_)
    show decide (P (dayOf (d * dayNs))) = decide (P d)
    rw [dayOf_midnight]
  have hnodup : ((barDays bars).filter fun d => P d).Nodup :=
    (barDays_sorted bars).nodup.filter _
  rw [hrows, growth_groups Prod.snd (fun b => dayOf b.1) bars hnodup fun d _ => rfl]
  -- every bar has a day
  refine congrArg (growth Prod.snd) (List.filter_congr fun b hb => ?_)
  have hday := mem_barDays.mpr ⟨b, hb, rfl⟩
  simp [List.mem_filter, hday]

variable {series : Series K}

/-- The first and the last row bound the months. -/
theorem resampleMonths_eq {first last : ℤ × K} (hfirst : series.rows.head? = some first)
    (hlast : series.rows.getLast? = some last) :
    resampleMonths series = (span (rowMonth first) (rowMonth last)).map fun m =>
      { month := m, pct := growth Prod.snd (series.rows.filter fun p => rowMonth p = m) - 1 } := by
  unfold resampleMonths
  rw [hfirst, hlast]

/-- **The months compound to what their days do.** -/
theorem growth_resampleMonths (m : ℤ) :
    growth MonthlyReturn.pct ((resampleMonths series).filter fun x => x.month ≤ m)
      = growth Prod.snd (series.rows.filter fun p => rowMonth p ≤ m) := by
  cases hfirst : series.rows.head? with
  | none =>
    rw [List.head?_eq_none_iff] at hfirst
    unfold resampleMonths
    rw [hfirst]
    rfl
  | some first =>
    obtain ⟨last, hlast⟩ : ∃ last, series.rows.getLast? = some last := by
      refine Option.ne_none_iff_exists'.mp fun hnone => ?_
      rw [List.getLast?_eq_none_iff.mp hnone] at hfirst
      cases hfirst
    rw [resampleMonths_eq hfirst hlast, List.filter_map]
    have hnodup := (pairwise_span (rowMonth first) (rowMonth last)).nodup
    refine (growth_groups Prod.snd rowMonth series.rows (hnodup.filter _) fun d _ => rfl).trans ?_
    refine congrArg (growth Prod.snd) (List.filter_congr fun p hp => ?_)
    have hspan := mem_span.mpr (rowMonth_mem_span hfirst hlast hp)
    simp [hspan]

end Groups

/-! ### Rows of the frame -/

section Rows

variable {series : Series K}

variable [Field K]

theorem equityCurve_getElem? (acc : K) (rows : List (ℤ × K)) (i : ℕ) :
    (equityCurve acc (rows.map Prod.snd))[i]?
      = rows[i]?.map fun _ => acc * growth Prod.snd (rows.take (i + 1)) := by
  induction rows generalizing acc i with
  | nil => rfl
  | cons p rows ih =>
    cases i with
    | zero =>
      show some (acc * (1 + p.2)) = some (acc * growth Prod.snd [p])
      simp [growth]
    | succ i =>
      show (equityCurve (acc * (1 + p.2)) (rows.map Prod.snd))[i]? = _
      rw [ih]
      simp [growth, mul_assoc]

variable [LinearOrder K]

/-- `cummax().clip(lower=base)` of a list. -/
def runningMax (base : K) (es : List K) : K := es.foldl max base

omit [Field K] in
theorem runningMax_isGreatest (base : K) (es : List K) :
    IsGreatest {x | x = base ∨ x ∈ es} (runningMax base es) := by
  induction es generalizing base with
  | nil => exact ⟨Or.inl rfl, fun x hx => (hx.resolve_right List.not_mem_nil).le⟩
  | cons e es ih =>
    obtain ⟨hmem, hle⟩ := ih (max base e)
    refine ⟨?_, ?_⟩
    · rcases hmem with hmax | hes
      · rcases max_choice base e with hbase | he
        · exact Or.inl (hmax.trans hbase)
        · exact Or.inr (List.mem_cons.mpr (Or.inl (hmax.trans he)))
      · exact Or.inr (List.mem_cons_of_mem e hes)
    · have hmax : max base e ≤ runningMax (max base e) es := hle (Or.inl rfl)
      rintro x (rfl | hx)
      · exact (le_max_left _ _).trans hmax
      · rcases List.mem_cons.mp hx with rfl | hx
        · exact (le_max_right _ _).trans hmax
        · exact hle (Or.inr hx)

theorem drawdowns_getElem? (peak : K) (es : List K) (i : ℕ) :
    (drawdowns peak es)[i]? = es[i]?.map fun e => e / runningMax peak (es.take (i + 1)) - 1 := by
  induction es generalizing peak i with
  | nil => rfl
  | cons e es ih =>
    cases i with
    | zero => rfl
    | succ i =>
      show (drawdowns (max peak e) es)[i]? = _
      rw [ih]
      rfl

/-- The equity behind the rows up to a time. -/
def equityUpTo (series : Series K) (base : K) (t : ℤ) : K :=
  growth Prod.snd (series.rows.filter fun q => q.1 ≤ t) * base

/-- The highest equity up to a time. -/
def peakUpTo (series : Series K) (base : K) (t : ℤ) : K :=
  runningMax base ((series.rows.filter fun q => q.1 ≤ t).map fun q => equityUpTo series base q.1)

/-- The row of a return. -/
def frameRow (series : Series K) (base : K) (p : ℤ × K) : FrameRow K :=
  { timestamp := p.1, returns := p.2, equity := equityUpTo series base p.1
    drawdown := equityUpTo series base p.1 / peakUpTo series base p.1 - 1 }

omit [LinearOrder K] in
theorem equity_eq (series : Series K) (base : K) :
    (equityCurve 1 series.values).map (fun e => e * base)
      = series.rows.map fun p => equityUpTo series base p.1 := by
  refine List.ext_getElem? fun i => ?_
  rw [List.getElem?_map, List.getElem?_map, Series.values, equityCurve_getElem?, Option.map_map]
  refine Option.map_congr fun p hp => ?_
  show 1 * growth Prod.snd (series.rows.take (i + 1)) * base = equityUpTo series base p.1
  rw [one_mul, ← filter_le_eq_take series.sorted hp]
  rfl

theorem drawdown_eq (series : Series K) (base : K) :
    drawdowns base (series.rows.map fun p => equityUpTo series base p.1)
      = series.rows.map fun p =>
          equityUpTo series base p.1 / peakUpTo series base p.1 - 1 := by
  refine List.ext_getElem? fun i => ?_
  rw [drawdowns_getElem?, List.getElem?_map, List.getElem?_map, Option.map_map]
  refine Option.map_congr fun p hp => ?_
  rw [← List.map_take, ← filter_le_eq_take series.sorted hp]
  rfl

/-- **The frame, row by row.** -/
theorem buildSeriesFromReturns_eq (series : Series K) (base : K) :
    buildSeriesFromReturns series.toReturns base = series.rows.map (frameRow series base) := by
  unfold buildSeriesFromReturns
  rw [clean_toReturns]
  dsimp only
  rw [equity_eq, drawdown_eq, List.zip_map', List.zipWith_map_right, List.zipWith_self]
  rfl

end Rows

/-! ### The three views -/

variable [Field K] [LinearOrder K]

/-- The payload of a list of bars, as a reader understands it. -/
structure Payload.Agrees (payload : Payload K) (bars : List (ℤ × K)) (startingEquity : K) :
    Prop where
  /-- The days are in order. -/
  dates : (payload.daily.map DailyPoint.date).Pairwise (· < ·)
  /-- They are the days of the bars. -/
  mem_dates : ∀ d, d ∈ payload.daily.map DailyPoint.date ↔ ∃ b ∈ bars, dayOf b.1 = d
  /-- The equity of a day is what the bars up to its end make of the first one. -/
  equity : ∀ pt ∈ payload.daily,
    pt.equity = startingEquity * growth Prod.snd (bars.filter fun b => dayOf b.1 ≤ pt.date)
  /-- The drawdown of a day is taken from the highest equity so far, the first one included. -/
  drawdown : ∀ pt ∈ payload.daily, ∃ peak,
    IsGreatest {x | x = startingEquity ∨
      ∃ q ∈ payload.daily, q.date ≤ pt.date ∧ q.equity = x} peak ∧
    pt.drawdown = pt.equity / peak - 1 ∧ -1 < pt.drawdown ∧ pt.drawdown ≤ 0 ∧
    (pt.drawdown = 0 ↔ pt.equity = peak)
  /-- The months are in order. -/
  months : (payload.monthlyReturns.map MonthlyReturn.month).Pairwise (· < ·)
  /-- They are those from the first bar to the last. -/
  mem_months : ∀ m, m ∈ payload.monthlyReturns.map MonthlyReturn.month ↔
    (∃ b ∈ bars, rowMonth b ≤ m) ∧ ∃ b ∈ bars, m ≤ rowMonth b
  /-- The months up to one of them compound to the equity of the last day so far. -/
  compounded : ∀ mr ∈ payload.monthlyReturns, ∃ pt ∈ payload.daily,
    monthOf pt.date ≤ mr.month ∧
    (∀ q ∈ payload.daily, monthOf q.date ≤ mr.month → q.date ≤ pt.date) ∧
    growth MonthlyReturn.pct (payload.monthlyReturns.filter fun x => x.month ≤ mr.month)
      = pt.equity / startingEquity

variable {bars : List (ℤ × K)} {base : K}

/-- The payload of bars that all have a timestamp and a value. -/
theorem buildSeriesPayload_some (bars : List (ℤ × K)) (base : K) :
    buildSeriesPayload (bars.map fun b => (some b.1, some b.2)) base =
      { daily := ((compoundDaily bars).rows.map (frameRow (compoundDaily bars) base)).map
          FrameRow.point
        monthlyReturns := resampleMonths (compoundDaily bars) } := by
  have hnormalize : normalizeDailyReturns (bars.map fun b => (some b.1, some b.2))
      = some (compoundDaily bars) := by
    unfold normalizeDailyReturns
    rw [finiteRows_some]
    cases bars with
    | nil => rfl
    | cons b bars => simp
  unfold buildSeriesPayload
  rw [hnormalize]
  dsimp only
  rw [buildSeriesFromReturns_eq]
  by_cases hempty : (compoundDaily bars).rows = []
  · simp [hempty, resampleMonths]
  · simp [hempty]

/-- The equity of a day. -/
def dayEquity (bars : List (ℤ × K)) (base : K) (d : ℤ) : K :=
  base * growth Prod.snd (bars.filter fun b => dayOf b.1 ≤ d)

omit [LinearOrder K] in
/-- The rows up to a midnight are those of the days up to it. -/
theorem filter_midnight (d : ℤ) :
    (compoundDaily bars).rows.filter (fun q => q.1 ≤ d * dayNs)
      = (compoundDaily bars).rows.filter fun q => dayOf q.1 ≤ d := by
  refine List.filter_congr fun q hq => ?_
  rw [compoundDaily_rows] at hq
  obtain ⟨d', -, rfl⟩ := List.mem_map.mp hq
  have hle : d' * dayNs ≤ d * dayNs ↔ d' ≤ d := mul_le_mul_iff_left₀ (by decide)
  show decide (d' * dayNs ≤ d * dayNs) = decide (dayOf (d' * dayNs) ≤ d)
  rw [dayOf_midnight, decide_eq_decide, hle]

omit [LinearOrder K] in
theorem equityUpTo_midnight (d : ℤ) :
    equityUpTo (compoundDaily bars) base (d * dayNs) = dayEquity bars base d := by
  unfold equityUpTo dayEquity
  rw [filter_midnight, growth_compoundDaily (· ≤ d), mul_comm]

/-- The highest equity so far. -/
theorem peakUpTo_midnight (d : ℤ) :
    IsGreatest {x | x = base ∨ ∃ d' ∈ barDays bars, d' ≤ d ∧ dayEquity bars base d' = x}
      (peakUpTo (compoundDaily bars) base (d * dayNs)) := by
  have hmem : ∀ x, x ∈ ((compoundDaily bars).rows.filter fun q => q.1 ≤ d * dayNs).map
      (fun q => equityUpTo (compoundDaily bars) base q.1)
        ↔ ∃ d' ∈ barDays bars, d' ≤ d ∧ dayEquity bars base d' = x := by
    intro x
    rw [filter_midnight, compoundDaily_rows]
    constructor
    · intro hx
      obtain ⟨q, hq, rfl⟩ := List.mem_map.mp hx
      obtain ⟨hrow, hle⟩ := List.mem_filter.mp hq
      obtain ⟨d', hday, rfl⟩ := List.mem_map.mp hrow
      refine ⟨d', hday, ?_, (equityUpTo_midnight d').symm⟩
      exact (dayOf_midnight d').symm.trans_le (of_decide_eq_true hle)
    · rintro ⟨d', hday, hle, rfl⟩
      refine List.mem_map.mpr
        ⟨dayRow bars d', List.mem_filter.mpr ⟨List.mem_map_of_mem hday, ?_⟩, ?_⟩
      · exact decide_eq_true ((dayOf_midnight d').trans_le hle)
      · exact equityUpTo_midnight d'
  have hgreatest := runningMax_isGreatest base (((compoundDaily bars).rows.filter
    fun q => q.1 ≤ d * dayNs).map fun q => equityUpTo (compoundDaily bars) base q.1)
  simp only [hmem] at hgreatest
  exact hgreatest

/-- The point of a day. -/
def dayPoint (bars : List (ℤ × K)) (base : K) (d : ℤ) : DailyPoint K :=
  (frameRow (compoundDaily bars) base (dayRow bars d)).point

@[simp] theorem dayPoint_date (d : ℤ) : (dayPoint bars base d).date = d := dayOf_midnight d

@[simp] theorem dayPoint_equity (d : ℤ) :
    (dayPoint bars base d).equity = dayEquity bars base d := equityUpTo_midnight d

theorem dayPoint_drawdown (d : ℤ) : (dayPoint bars base d).drawdown
    = dayEquity bars base d / peakUpTo (compoundDaily bars) base (d * dayNs) - 1 := by
  rw [← equityUpTo_midnight]
  rfl

/-- The days of the payload. -/
theorem daily_eq (bars : List (ℤ × K)) (base : K) :
    ((compoundDaily bars).rows.map (frameRow (compoundDaily bars) base)).map FrameRow.point
      = (barDays bars).map (dayPoint bars base) := by
  rw [compoundDaily_rows, List.map_map, List.map_map]
  rfl

variable [IsStrictOrderedRing K]

/-- **The drawdown of a day.** -/
theorem dayPoint_drawdown_spec (hbars : ∀ b ∈ bars, -1 < b.2) (hbase : 0 < base) {d : ℤ}
    (hday : d ∈ barDays bars) :
    -1 < (dayPoint bars base d).drawdown ∧ (dayPoint bars base d).drawdown ≤ 0 ∧
      ((dayPoint bars base d).drawdown = 0 ↔
        dayEquity bars base d = peakUpTo (compoundDaily bars) base (d * dayNs)) := by
  generalize hdef : peakUpTo (compoundDaily bars) base (d * dayNs) = peak
  have hgreatest : IsGreatest _ peak := hdef ▸ peakUpTo_midnight d
  have hpeak : 0 < peak := hbase.trans_le (hgreatest.2 (Or.inl rfl))
  have hequity : 0 < dayEquity bars base d :=
    mul_pos hbase (growth_pos fun b hb => hbars b (List.mem_of_mem_filter hb))
  have hle : dayEquity bars base d ≤ peak :=
    hgreatest.2 (Or.inr ⟨d, hday, le_rfl, rfl⟩)
  rw [dayPoint_drawdown, hdef]
  refine ⟨?_, ?_, ?_⟩
  · have hratio : 0 < dayEquity bars base d / peak := div_pos hequity hpeak
    linarith
  · have hratio : dayEquity bars base d / peak ≤ 1 := (div_le_one hpeak).mpr hle
    linarith
  · rw [sub_eq_zero, div_eq_one_iff_eq hpeak.ne']

omit [LinearOrder K] [IsStrictOrderedRing K] in
/-- The months of the payload are those between the first bar and the last. -/
theorem months_spec (bars : List (ℤ × K)) :
    ((resampleMonths (compoundDaily bars)).map MonthlyReturn.month).Pairwise (· < ·) ∧
      ∀ m, m ∈ (resampleMonths (compoundDaily bars)).map MonthlyReturn.month ↔
        (∃ b ∈ bars, rowMonth b ≤ m) ∧ ∃ b ∈ bars, m ≤ rowMonth b := by
  -- the months of the bars are those of the rows
  have hrow : ∀ p ∈ (compoundDaily bars).rows, ∃ b ∈ bars, rowMonth b = rowMonth p := by
    intro p hp
    rw [compoundDaily_rows] at hp
    obtain ⟨d, hday, rfl⟩ := List.mem_map.mp hp
    obtain ⟨b, hb, rfl⟩ := mem_barDays.mp hday
    exact ⟨b, hb, congrArg monthOf (dayOf_midnight _).symm⟩
  have hbar : ∀ b ∈ bars, ∃ p ∈ (compoundDaily bars).rows, rowMonth p = rowMonth b := by
    intro b hb
    rw [compoundDaily_rows]
    exact ⟨_, List.mem_map_of_mem (mem_barDays.mpr ⟨b, hb, rfl⟩),
      congrArg monthOf (dayOf_midnight _)⟩
  cases hfirst : (compoundDaily bars).rows.head? with
  | none =>
    have hmonths : resampleMonths (compoundDaily bars) = [] := by
      unfold resampleMonths
      rw [hfirst]
    rw [hmonths]
    refine ⟨List.Pairwise.nil, fun m => ⟨fun h => absurd h List.not_mem_nil, ?_⟩⟩
    rintro ⟨⟨b, hb, -⟩, -⟩
    obtain ⟨p, hp, -⟩ := hbar b hb
    rw [List.head?_eq_none_iff.mp hfirst] at hp
    exact absurd hp List.not_mem_nil
  | some first =>
    obtain ⟨last, hlast⟩ : ∃ last, (compoundDaily bars).rows.getLast? = some last := by
      refine Option.ne_none_iff_exists'.mp fun hnone => ?_
      rw [List.getLast?_eq_none_iff.mp hnone] at hfirst
      cases hfirst
    have hspan : (resampleMonths (compoundDaily bars)).map MonthlyReturn.month
        = span (rowMonth first) (rowMonth last) := by
      rw [resampleMonths_eq hfirst hlast, List.map_map]
      exact List.map_id _
    rw [hspan]
    refine ⟨pairwise_span _ _, fun m => ?_⟩
    rw [mem_span]
    constructor
    · rintro ⟨hlow, hhigh⟩
      obtain ⟨b, hb, hmonth⟩ := hrow first (List.mem_of_head? hfirst)
      obtain ⟨b', hb', hmonth'⟩ := hrow last (List.mem_of_getLast? hlast)
      exact ⟨⟨b, hb, hmonth.trans_le hlow⟩, b', hb', hhigh.trans hmonth'.ge⟩
    · rintro ⟨⟨b, hb, hlow⟩, b', hb', hhigh⟩
      obtain ⟨p, hp, hmonth⟩ := hbar b hb
      obtain ⟨p', hp', hmonth'⟩ := hbar b' hb'
      exact ⟨(rowMonth_mem_span hfirst hlast hp).1.trans (hmonth.trans_le hlow),
        (hhigh.trans hmonth'.ge).trans (rowMonth_mem_span hfirst hlast hp').2⟩

omit [IsStrictOrderedRing K] in
/-- The months up to one of them, and the last day in them. -/
theorem months_compounded (hbase : 0 < base) {m : ℤ} (hm : ∃ b ∈ bars, rowMonth b ≤ m) :
    ∃ d ∈ barDays bars, monthOf d ≤ m ∧ (∀ d' ∈ barDays bars, monthOf d' ≤ m → d' ≤ d) ∧
      growth MonthlyReturn.pct ((resampleMonths (compoundDaily bars)).filter fun x => x.month ≤ m)
        = dayEquity bars base d / base := by
  obtain ⟨b, hb, hmonth⟩ := hm
  obtain ⟨d, hd, hlast⟩ := Finset.exists_max_image
    ((barDays bars).filter fun d => monthOf d ≤ m).toFinset id
    ⟨dayOf b.1, List.mem_toFinset.mpr (List.mem_filter.mpr
      ⟨mem_barDays.mpr ⟨b, hb, rfl⟩, decide_eq_true hmonth⟩)⟩
  obtain ⟨hday, hdm⟩ := List.mem_filter.mp (List.mem_toFinset.mp hd)
  have hmax : ∀ d' ∈ barDays bars, monthOf d' ≤ m → d' ≤ d := fun d' hd' hle =>
    hlast d' (List.mem_toFinset.mpr (List.mem_filter.mpr ⟨hd', decide_eq_true hle⟩))
  refine ⟨d, hday, of_decide_eq_true hdm, hmax, ?_⟩
  have hbars : bars.filter (fun b => monthOf (dayOf b.1) ≤ m)
      = bars.filter fun b => dayOf b.1 ≤ d := by
    refine List.filter_congr fun b hb => decide_eq_decide.mpr ⟨fun hle => ?_, fun hle => ?_⟩
    · exact hmax _ (mem_barDays.mpr ⟨b, hb, rfl⟩) hle
    · exact (monthOf_mono hle).trans (of_decide_eq_true hdm)
  calc growth MonthlyReturn.pct
        ((resampleMonths (compoundDaily bars)).filter fun x => x.month ≤ m)
      = growth Prod.snd (bars.filter fun b => monthOf (dayOf b.1) ≤ m) := by
        rw [growth_resampleMonths, ← growth_compoundDaily fun d => monthOf d ≤ m]
        rfl
    _ = dayEquity bars base d / base := by
        rw [hbars, dayEquity, mul_div_cancel_left₀ _ hbase.ne']

/-- **Equity, drawdown and monthly returns agree** with the bars, whatever their order and however
    many a day has. -/
theorem payload_agrees (bars : List (ℤ × K)) (startingEquity : K)
    (hbars : ∀ b ∈ bars, -1 < b.2) (hstart : 0 < startingEquity) :
    (buildSeriesPayload (bars.map fun b => (some b.1, some b.2)) startingEquity).Agrees bars
      startingEquity := by
  rw [buildSeriesPayload_some bars startingEquity, daily_eq]
  have hmem : ∀ {pt}, pt ∈ (barDays bars).map (dayPoint bars startingEquity) →
      ∃ d ∈ barDays bars, dayPoint bars startingEquity d = pt := List.mem_map.mp
  have hdates : ((barDays bars).map (dayPoint bars startingEquity)).map DailyPoint.date
      = barDays bars := by
    rw [List.map_map]
    exact (List.map_congr_left fun d _ => dayPoint_date d).trans (List.map_id _)
  exact
    { dates := by
        dsimp only
        rw [hdates]
        exact barDays_sorted bars
      mem_dates := by
        intro d
        dsimp only
        rw [hdates]
        exact mem_barDays
      equity := by
        intro pt hpt
        obtain ⟨d, -, rfl⟩ := hmem hpt
        rw [dayPoint_equity, dayPoint_date, dayEquity]
      drawdown := by
        intro pt hpt
        obtain ⟨d, hday, rfl⟩ := hmem hpt
        refine ⟨peakUpTo (compoundDaily bars) startingEquity (d * dayNs), ?_,
          by rw [dayPoint_drawdown, dayPoint_equity], ?_⟩
        · simpa using peakUpTo_midnight d
        · rw [dayPoint_equity]
          exact dayPoint_drawdown_spec hbars hstart hday
      months := (months_spec bars).1
      mem_months := (months_spec bars).2
      compounded := by
        intro mr hmr
        have hmonth := ((months_spec bars).2 mr.month).mp (List.mem_map_of_mem hmr)
        obtain ⟨d, hday, hle, hlast, hgrowth⟩ := months_compounded hstart hmonth.1
        refine ⟨_, List.mem_map_of_mem hday, ?_, ?_, ?_⟩
        · rwa [dayPoint_date]
        · intro q hq hqm
          obtain ⟨d', hday', rfl⟩ := hmem hq
          rw [dayPoint_date] at hqm ⊢
          rw [dayPoint_date]
          exact hlast d' hday' hqm
        · rw [dayPoint_equity]
          exact hgrowth }

/-- Two months that both lose, the second one out of order. -/
theorem payload_agrees_losses :
    (∀ b ∈ [(40 * dayNs, (-1 : ℚ) / 2), (3 * dayNs + 7, -1 / 4)], -1 < b.2) ∧ 0 < (100 : ℚ) ∧
      (buildSeriesPayload
        ([(40 * dayNs, (-1 : ℚ) / 2), (3 * dayNs + 7, -1 / 4)].map fun b => (some b.1, some b.2))
          100).Agrees [(40 * dayNs, (-1 : ℚ) / 2), (3 * dayNs + 7, -1 / 4)] 100 :=
  have hbars : ∀ b ∈ [(40 * dayNs, (-1 : ℚ) / 2), (3 * dayNs + 7, -1 / 4)], -1 < b.2 := by
    simp only [List.forall_mem_cons]
    norm_num
  ⟨hbars, by norm_num, payload_agrees _ _ hbars (by norm_num)⟩

end Msai.Analytics
