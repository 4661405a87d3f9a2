import Msai.Analytics.Series
import Msai.Lib.Dict
import Msai.Lib.PyFloat
import Mathlib.Analysis.Real.Sqrt

namespace Msai.Portfolio

open Msai.Lib Msai.Lib.Moments Msai.Lib.PyFloat Msai.Analytics

/-!
# Allocators (`services/portfolio_backtest/allocators.py`)

An allocator turns a list of strategy ids, and a frame of their returns, into a dictionary of
weights.  The list may repeat an id; the dictionary cannot.

* `Frame` — the returns of the strategies over one index, zero where there is none;
* `equalWeight`, `inverseVol`, `volTargeted` — the allocators;
* `compute_nan` — over a single row the data-driven weights are NaN;
* `weighs_equalWeight`, `weighs_inverseVol`, `weighs_volTargeted` — over more rows, the weights as
  positive numbers, and what they add up to.
-/

/-! ### Frames -/

/-- A pandas frame behind `fillna(0.0)`. -/
structure Frame (K : Type) where
  index : List ℤ
  sorted : index.Pairwise (· < ·)
  columns : Dict String (ℤ → K)

namespace Frame

variable {K : Type}

/-- `frame[name]`. -/
def column (f : Frame K) (name : String) : Option (ℤ → K) := Dict.get f.columns name

/-- The values of a column. -/
def values (f : Frame K) (column : ℤ → K) : List K := f.index.map column

/-- `frame.empty`. -/
def isEmpty (f : Frame K) : Bool := f.index.isEmpty || f.columns.isEmpty

/-- `pd.concat` of a dictionary of series, with `fillna(0.0)`. -/
def ofSeries [Zero K] (series : Dict String (Series K)) : Frame K where
  index := unionIndex series.values
  sorted := unionIndex_sorted _
  columns := series.map fun p => (p.1, fun t => (p.2.get t).getD 0)

/-- The column of a frame of series. -/
theorem column_ofSeries [Zero K] {series : Dict String (Series K)} {name : String} :
    (ofSeries series).column name
      = (series.get name).map fun s t => (s.get t).getD 0 :=
  Dict.get_map (f := fun (s : Series K) t => (s.get t).getD 0)

end Frame

/-! ### The allocators -/

/-- How an allocator fails. -/
inductive AllocatorError
  /-- `ValueError`, which its callers catch. -/
  | valueError (message : String)
  /-- `KeyError`, which they do not. -/
  | keyError (key : String)
deriving DecidableEq, Repr

/-- A dictionary of weights, in the order of its keys. -/
abbrev Weights (K : Type) := Dict String (Num K)

/-- `{sid: value(sid) for sid in strategy_ids}`. -/
def weightsOf {K : Type} (strategyIds : List String) (value : String → Num K) : Weights K :=
  (firstSeen id strategyIds).map fun sid => (sid, value sid)

section Compute

variable {K : Type} [Field K] [LinearOrder K]

/-- `series.std()`, with pandas' divisor `n - 1`: NaN for less than two values. -/
def sampleStd (sqrt : K → K) (xs : List K) : Num K :=
  if xs.length < 2 then none else some (sqrt (variance 1 xs))

/-- `EqualWeightAllocator.compute`. -/
def equalWeight (strategyIds : List String) : Except AllocatorError (Weights K) :=
  if strategyIds = [] then .error (.valueError "at least one strategy required")
  else .ok (weightsOf strategyIds fun _ => some (1 / (strategyIds.length : K)))

/-- `float(returns[sid].std())`. -/
def strategyVol (sqrt : K → K) (returns : Frame K) (sid : String) : Num K :=
  (returns.column sid).bind fun c => sampleStd sqrt (returns.values c)

/-- `any(v == 0.0 for v in vols.values())`. -/
def hasZeroVol (sqrt : K → K) (strategyIds : List String) (returns : Frame K) : Bool :=
  (firstSeen id strategyIds).any fun sid => strategyVol sqrt returns sid = some 0

/-- `inv[sid]`. -/
def inverseOfVol (sqrt : K → K) (returns : Frame K) (sid : String) : Num K :=
  (strategyVol sqrt returns sid).map fun v => 1 / v

/-- `InverseVolAllocator.compute`. -/
def inverseVol (sqrt : K → K) (strategyIds : List String) (returns : Frame K) :
    Except AllocatorError (Weights K) :=
  if returns.isEmpty then .error (.valueError "returns required for inverse_vol allocator")
  else
    let missing := strategyIds.filter fun sid => (returns.column sid).isNone
    if missing ≠ [] then
      .error (.valueError ("returns missing for ['" ++ String.intercalate "', '" missing ++ "']"))
    else if hasZeroVol sqrt strategyIds returns then
      .ok (weightsOf strategyIds fun _ => some (1 / (strategyIds.length : K)))
    else
      let total := sum ((firstSeen id strategyIds).map (inverseOfVol sqrt returns))
      .ok (weightsOf strategyIds fun sid =>
        (inverseOfVol sqrt returns sid).bind fun w => total.map fun t => w / t)

/-- `target_vol_annualized`. -/
def targetVolAnnualized : K := 0.15

/-- `max_weight`. -/
def maxWeight : K := 2.0

/-- The returns of the equal-weight portfolio. -/
def eqReturns (strategyIds : List String) (returns : Frame K) (t : ℤ) : K :=
  (strategyIds.map fun sid =>
    ((returns.column sid).elim 0 fun c => c t) * (1 / (strategyIds.length : K))).sum

/-- `TRADING_DAYS_PER_YEAR`. -/
def tradingDaysPerYear : ℕ := 252

/-- The annualized volatility of the equal-weight portfolio. -/
def realizedVol (sqrt : K → K) (strategyIds : List String) (returns : Frame K) : Num K :=
  (sampleStd sqrt (returns.values (eqReturns strategyIds returns))).map
    (· * sqrt tradingDaysPerYear)

/-- `scaler`. -/
def scalerOf (realized : K) : K := if realized = 0 then 1 else targetVolAnnualized / realized

/-- `VolTargetedAllocator.compute`. -/
def volTargeted (sqrt : K → K) (strategyIds : List String) (returns : Frame K) :
    Except AllocatorError (Weights K) :=
  if returns.isEmpty then .error (.valueError "returns required for vol_targeted allocator")
  else
    match strategyIds.find? fun sid => (returns.column sid).isNone with
    | some sid => .error (.keyError sid)
    | none =>
      let scaler := (realizedVol sqrt strategyIds returns).map scalerOf
      .ok (weightsOf strategyIds fun _ =>
        capped (scaler.map fun s => 1 / (strategyIds.length : K) * s) maxWeight)

/-- The registry. -/
inductive Allocator
  | equalWeight
  | fixedWeight
  | inverseVol
  | volTargeted
deriving DecidableEq, Repr

/-- `ALLOCATORS.get(name, EqualWeightAllocator)`, with equal weights also for `fixed_weight`. -/
def allocatorCls : Option Allocator → Allocator
  | none => .equalWeight
  | some .fixedWeight => .equalWeight
  | some a => a

/-- `compute` of the class that Full mode uses for a name. -/
def Allocator.compute (sqrt : K → K) (name : Option Allocator) (strategyIds : List String)
    (returns : Frame K) : Except AllocatorError (Weights K) :=
  match allocatorCls name with
  | .inverseVol => Msai.Portfolio.inverseVol sqrt strategyIds returns
  | .volTargeted => Msai.Portfolio.volTargeted sqrt strategyIds returns
  | _ => Msai.Portfolio.equalWeight strategyIds

end Compute

/-! ### Dictionaries of weights -/

theorem weightsOf_get {K : Type} {ids : List String} {value : String → Num K} {sid : String}
    (h : sid ∈ ids) : (weightsOf ids value).get sid = some (value sid) :=
  Dict.get_ofKeys (mem_firstSeen_id.mpr h)

theorem weightsOf_get_none {K : Type} {ids : List String} {value : String → Num K} {sid : String}
    (h : sid ∉ ids) : (weightsOf ids value).get sid = none := by
  have hkeys : (weightsOf ids value).keys = firstSeen id ids := by
    unfold Dict.keys weightsOf
    rw [List.map_map]
    exact List.map_id _
  rw [Dict.get_eq_none, hkeys, mem_firstSeen_id]
  exact h

theorem weightsOf_congr {K : Type} {ids : List String} {value value' : String → Num K}
    (h : ∀ sid ∈ ids, value sid = value' sid) : weightsOf ids value = weightsOf ids value' := by
  apply List.map_congr_left
  intro sid hsid
  rw [h sid (mem_firstSeen_id.mp hsid)]

/-- Every allocator returns a dictionary over the ids. -/
theorem compute_weightsOf {K : Type} [Field K] [LinearOrder K] {sqrt : K → K}
    {name : Option Allocator} {ids : List String} {f : Frame K} {w : Weights K}
    (h : Allocator.compute sqrt name ids f = .ok w) : ∃ value, w = weightsOf ids value := by
  unfold Allocator.compute at h
  split at h
  · unfold Msai.Portfolio.inverseVol at h
    dsimp only at h
    split at h
    · cases h
    · split at h
      · cases h
      · split at h
        · exact ⟨_, (Except.ok.inj h).symm⟩
        · exact ⟨_, (Except.ok.inj h).symm⟩
  · unfold Msai.Portfolio.volTargeted at h
    split at h
    · cases h
    · split at h
      · cases h
      · exact ⟨_, (Except.ok.inj h).symm⟩
  · unfold Msai.Portfolio.equalWeight at h
    split at h
    · cases h
    · exact ⟨_, (Except.ok.inj h).symm⟩

/-! ### The weights over a complete frame -/

/-- The frame has a row, and all the strategies. -/
structure Frame.Covers {K : Type} (f : Frame K) (ids : List String) : Prop where
  index : f.index ≠ []
  columns : ∀ sid ∈ ids, (f.column sid).isSome = true

variable {ids : List String} {f : Frame ℝ} {name : Option Allocator}

/-- The condition under which the weights are numbers. -/
def HasVol {K : Type} (name : Option Allocator) (f : Frame K) : Prop :=
  allocatorCls name = .equalWeight ∨ 2 ≤ f.index.length

theorem sampleStd_nonneg {xs : List ℝ} {v : ℝ} (h : sampleStd Real.sqrt xs = some v) : 0 ≤ v := by
  unfold sampleStd at h
  split at h
  · cases h
  · rw [← Option.some.inj h]
    exact Real.sqrt_nonneg _

theorem sampleStd_isSome {xs : List ℝ} (h : 2 ≤ xs.length) : ∃ v, sampleStd Real.sqrt xs = some v :=
  ⟨_, if_neg (by omega)⟩

theorem sampleStd_eq_none {xs : List ℝ} (h : xs.length < 2) : sampleStd Real.sqrt xs = none :=
  if_pos h

theorem Frame.Covers.not_isEmpty {K : Type} {f : Frame K} (h : f.Covers ids) (hids : ids ≠ []) :
    f.isEmpty = false := by
  obtain ⟨sid, hsid⟩ := List.exists_mem_of_ne_nil ids hids
  have hcol := h.columns sid hsid
  have hcolumns : f.columns ≠ [] := by
    intro hnil
    rw [Frame.column, hnil] at hcol
    cases hcol
  unfold Frame.isEmpty
  rw [Bool.or_eq_false_iff, List.isEmpty_eq_false_iff, List.isEmpty_eq_false_iff]
  exact ⟨h.index, hcolumns⟩

/-- `equal_weight`. -/
theorem compute_equalWeight (hname : allocatorCls name = .equalWeight) (hids : ids ≠ []) :
    Allocator.compute Real.sqrt name ids f
      = .ok (weightsOf ids fun _ => some (1 / (ids.length : ℝ))) := by
  unfold Allocator.compute
  rw [hname]
  exact if_neg hids

theorem Frame.Covers.no_missing (h : f.Covers ids) :
    (ids.filter fun sid => (f.column sid).isNone) = [] := by
  rw [List.filter_eq_nil_iff]
  intro sid hsid
  simpa [Option.isSome_iff_ne_none] using h.columns sid hsid

/-- `inverse_vol` once the checks are passed. -/
theorem compute_inverseVol (hname : allocatorCls name = .inverseVol) (h : f.Covers ids)
    (hids : ids ≠ []) :
    Allocator.compute Real.sqrt name ids f
      = .ok (weightsOf ids fun sid =>
          if hasZeroVol Real.sqrt ids f then some (1 / (ids.length : ℝ))
          else (inverseOfVol Real.sqrt f sid).bind fun w =>
            (sum ((firstSeen id ids).map (inverseOfVol Real.sqrt f))).map fun t => w / t) := by
  unfold Allocator.compute
  rw [hname]
  show inverseVol Real.sqrt ids f = _
  unfold inverseVol
  rw [if_neg (by rw [h.not_isEmpty hids]; exact Bool.false_ne_true)]
  dsimp only
  rw [if_neg (not_not.mpr h.no_missing)]
  by_cases hzero : hasZeroVol Real.sqrt ids f = true
  · simp only [if_pos hzero]
  · simp only [if_neg hzero]

/-- `vol_targeted` once the checks are passed. -/
theorem compute_volTargeted (hname : allocatorCls name = .volTargeted) (h : f.Covers ids)
    (hids : ids ≠ []) :
    Allocator.compute Real.sqrt name ids f
      = .ok (weightsOf ids fun _ => capped (((realizedVol Real.sqrt ids f).map scalerOf).map
          fun s => 1 / (ids.length : ℝ) * s) maxWeight) := by
  have hfind : ids.find? (fun sid => (f.column sid).isNone) = none := by
    rw [List.find?_eq_none]
    intro sid hsid
    simpa [Option.isSome_iff_ne_none] using h.columns sid hsid
  unfold Allocator.compute
  rw [hname]
  show volTargeted Real.sqrt ids f = _
  unfold volTargeted
  rw [if_neg (by rw [h.not_isEmpty hids]; exact Bool.false_ne_true), hfind]

theorem Frame.Covers.strategyVol_eq (h : f.Covers ids) {sid : String} (hsid : sid ∈ ids) :
    ∃ c, strategyVol Real.sqrt f sid = sampleStd Real.sqrt (f.values c) := by
  obtain ⟨c, hc⟩ := Option.isSome_iff_exists.mp (h.columns sid hsid)
  refine ⟨c, ?_⟩
  unfold strategyVol
  rw [hc]
  rfl

theorem allocatorCls_cases (name : Option Allocator) :
    allocatorCls name = .equalWeight ∨ allocatorCls name = .inverseVol ∨
      allocatorCls name = .volTargeted := by
  match name with
  | none => exact Or.inl rfl
  | some .equalWeight => exact Or.inl rfl
  | some .fixedWeight => exact Or.inl rfl
  | some .inverseVol => exact Or.inr (Or.inl rfl)
  | some .volTargeted => exact Or.inr (Or.inr rfl)

/-- Over a single row the data-driven weights are NaN. -/
theorem compute_nan (hname : allocatorCls name ≠ .equalWeight) (h : f.Covers ids)
    (hids : ids ≠ []) (hrows : f.index.length < 2) :
    Allocator.compute Real.sqrt name ids f = .ok (weightsOf ids fun _ => none) := by
  have hstd (c : ℤ → ℝ) : sampleStd Real.sqrt (f.values c) = none :=
    sampleStd_eq_none (by rwa [Frame.values, List.length_map])
  rcases allocatorCls_cases name with heq | hinv | hvol
  · exact absurd heq hname
  · have hnone : ∀ sid ∈ ids, strategyVol Real.sqrt f sid = none := by
      intro sid hsid
      obtain ⟨c, hc⟩ := h.strategyVol_eq hsid
      rw [hc, hstd]
    have hzero : hasZeroVol Real.sqrt ids f = false := by
      unfold hasZeroVol
      rw [List.any_eq_false]
      intro sid hsid
      rw [hnone sid (mem_firstSeen_id.mp hsid)]
      simp
    rw [compute_inverseVol hinv h hids]
    congr 1
    refine weightsOf_congr fun sid hsid => ?_
    rw [hzero, if_neg Bool.false_ne_true, inverseOfVol, hnone sid hsid]
    rfl
  · rw [compute_volTargeted hvol h hids, realizedVol, hstd]
    rfl

/-- The weights are these numbers, all positive. -/
structure Weighs (name : Option Allocator) (ids : List String) (f : Frame ℝ)
    (x : String → ℝ) : Prop where
  compute : Allocator.compute Real.sqrt name ids f = .ok (weightsOf ids fun sid => some (x sid))
  pos : ∀ sid ∈ ids, 0 < x sid

theorem length_pos_cast (hids : ids ≠ []) : (0 : ℝ) < ids.length :=
  Nat.cast_pos.mpr (List.length_pos_iff.mpr hids)

theorem weighs_equalWeight (hname : allocatorCls name = .equalWeight) (hids : ids ≠ []) :
    Weighs name ids f fun _ => 1 / (ids.length : ℝ) :=
  ⟨compute_equalWeight hname hids, fun _ _ => one_div_pos.mpr (length_pos_cast hids)⟩

theorem Weighs.equal {x : String → ℝ} (hx : Weighs name ids f x)
    (hname : allocatorCls name = .equalWeight) (hids : ids ≠ []) {sid : String} (hsid : sid ∈ ids) :
    x sid = 1 / (ids.length : ℝ) := by
  have hsame := Except.ok.inj (hx.compute.symm.trans (compute_equalWeight hname hids))
  have hget : Dict.get _ sid = Dict.get _ sid := congrArg (Dict.get · sid) hsame
  rw [weightsOf_get hsid, weightsOf_get hsid] at hget
  exact Option.some.inj (Option.some.inj hget)

/-- `1 / n` for each of a list of `n`. -/
theorem sum_equalWeights (hids : ids ≠ []) :
    (ids.map fun _ => 1 / (ids.length : ℝ)).sum = 1 := by
  rw [List.map_const', List.sum_replicate, nsmul_eq_mul]
  exact mul_one_div_cancel (length_pos_cast hids).ne'

/-- `inverse_vol` with a strategy that has no volatility. -/
theorem weighs_zeroVol (hname : allocatorCls name = .inverseVol) (h : f.Covers ids)
    (hids : ids ≠ []) (hzero : hasZeroVol Real.sqrt ids f = true) :
    Weighs name ids f fun _ => 1 / (ids.length : ℝ) := by
  refine ⟨?_, fun _ _ => one_div_pos.mpr (length_pos_cast hids)⟩
  rw [compute_inverseVol hname h hids]
  simp only [if_pos hzero]

/-- `inverse_vol` otherwise: positive weights that add up to 1 over the dictionary. -/
theorem weighs_inverseVol (hname : allocatorCls name = .inverseVol) (h : f.Covers ids)
    (hids : ids ≠ []) (hzero : hasZeroVol Real.sqrt ids f = false) (hrows : 2 ≤ f.index.length) :
    ∃ x, Weighs name ids f x ∧ ((firstSeen id ids).map x).sum = 1 := by
  have hvol : ∀ sid ∈ ids, ∃ v, strategyVol Real.sqrt f sid = some v ∧ 0 < v := by
    intro sid hsid
    obtain ⟨c, hc⟩ := h.strategyVol_eq hsid
    have hlength : 2 ≤ (f.values c).length := by rwa [Frame.values, List.length_map]
    obtain ⟨v, hv⟩ := sampleStd_isSome hlength
    refine ⟨v, hc.trans hv, lt_of_le_of_ne (sampleStd_nonneg hv) ?_⟩
    rintro rfl
    unfold hasZeroVol at hzero
    rw [List.any_eq_false] at hzero
    exact hzero sid (mem_firstSeen_id.mpr hsid) (by simpa using hc.trans hv)
  -- the inverse volatilities as numbers
  let inv (sid : String) : ℝ := 1 / ((strategyVol Real.sqrt f sid).getD 0)
  have hinv : ∀ sid ∈ ids, inverseOfVol Real.sqrt f sid = some (inv sid) ∧ 0 < inv sid := by
    intro sid hsid
    obtain ⟨v, hv, hpos⟩ := hvol sid hsid
    unfold inverseOfVol
    have heq : inv sid = 1 / v := by
      show 1 / ((strategyVol Real.sqrt f sid).getD 0) = _
      rw [hv]
      rfl
    rw [hv, heq]
    exact ⟨rfl, one_div_pos.mpr hpos⟩
  let total : ℝ := ((firstSeen id ids).map inv).sum
  have hsum : sum ((firstSeen id ids).map (inverseOfVol Real.sqrt f)) = some total := by
    rw [List.map_congr_left fun sid hsid => (hinv sid (mem_firstSeen_id.mp hsid)).1]
    exact sum_map_some
  have htotal : 0 < total := by
    obtain ⟨sid, hsid⟩ := List.exists_mem_of_ne_nil ids hids
    refine List.sum_pos _ ?_ ?_
    · intro y hy
      obtain ⟨sid, hsid, rfl⟩ := List.mem_map.mp hy
      exact (hinv sid (mem_firstSeen_id.mp hsid)).2
    · exact List.ne_nil_of_mem (List.mem_map.mpr ⟨sid, mem_firstSeen_id.mpr hsid, rfl⟩)
  refine ⟨fun sid => inv sid / total, ⟨?_, fun sid hsid => div_pos (hinv sid hsid).2 htotal⟩, ?_⟩
  · rw [compute_inverseVol hname h hids]
    congr 1
    refine weightsOf_congr fun sid hsid => ?_
    rw [hzero, if_neg Bool.false_ne_true, (hinv sid hsid).1, hsum]
    rfl
  · show ((firstSeen id ids).map fun sid => inv sid / total).sum = 1
    simp only [div_eq_mul_inv]
    rw [List.sum_map_mul_right]
    exact mul_inv_cancel₀ htotal.ne'

/-- `vol_targeted`: the same positive weight for all. -/
theorem weighs_volTargeted (hname : allocatorCls name = .volTargeted) (h : f.Covers ids)
    (hids : ids ≠ []) (hrows : 2 ≤ f.index.length) :
    ∃ vol, realizedVol Real.sqrt ids f = some vol ∧ 0 ≤ vol ∧
      Weighs name ids f fun _ => min (1 / (ids.length : ℝ) * scalerOf vol) maxWeight := by
  have hlength : 2 ≤ (f.values (eqReturns ids f)).length := by
    rwa [Frame.values, List.length_map]
  obtain ⟨v, hv⟩ := sampleStd_isSome hlength
  have hvol : realizedVol Real.sqrt ids f = some (v * Real.sqrt tradingDaysPerYear) := by
    rw [realizedVol, hv]
    rfl
  have hnonneg : 0 ≤ v * Real.sqrt tradingDaysPerYear :=
    mul_nonneg (sampleStd_nonneg hv) (Real.sqrt_nonneg _)
  have hscaler : 0 < scalerOf (v * Real.sqrt tradingDaysPerYear) := by
    unfold scalerOf targetVolAnnualized
    split
    · exact one_pos
    · rename_i hne
      exact div_pos (by norm_num) (lt_of_le_of_ne hnonneg (Ne.symm hne))
  refine ⟨_, hvol, hnonneg, ?_, fun _ _ => ?_⟩
  · rw [compute_volTargeted hname h hids, hvol]
    rfl
  · exact lt_min (mul_pos (one_div_pos.mpr (length_pos_cast hids)) hscaler)
      (by unfold maxWeight; norm_num)

/-- What the weights add up to. -/
structure AddsUp (name : Option Allocator) (ids : List String) (f : Frame ℝ)
    (x : String → ℝ) : Prop where
  /-- The weights of the list add up to 1. -/
  list : allocatorCls name = .equalWeight ∨
      allocatorCls name = .inverseVol ∧ hasZeroVol Real.sqrt ids f = true →
    (ids.map x).sum = 1
  /-- Those of the dictionary do. -/
  dict : allocatorCls name = .inverseVol ∧ hasZeroVol Real.sqrt ids f = false →
    ((firstSeen id ids).map x).sum = 1
  /-- All are the same part of the target volatility. -/
  scaled : allocatorCls name = .volTargeted → ∃ vol, realizedVol Real.sqrt ids f = some vol ∧
    ∀ sid, x sid = min (1 / (ids.length : ℝ) * scalerOf vol) maxWeight

theorem exists_weighs (hname : HasVol name f) (h : f.Covers ids) (hids : ids ≠ []) :
    ∃ x, Weighs name ids f x ∧ AddsUp name ids f x := by
  rcases allocatorCls_cases name with heq | hinv | hvol
  · refine ⟨_, weighs_equalWeight heq hids, fun _ => sum_equalWeights hids, ?_, ?_⟩
    · rintro ⟨hinv, -⟩
      rw [heq] at hinv
      cases hinv
    · intro hvol
      rw [heq] at hvol
      cases hvol
  · have hrows : 2 ≤ f.index.length := hname.resolve_left (by rw [hinv]; decide)
    have hnot : allocatorCls name ≠ .volTargeted := by rw [hinv]; decide
    cases hzero : hasZeroVol Real.sqrt ids f with
    | true =>
      refine ⟨_, weighs_zeroVol hinv h hids hzero, fun _ => sum_equalWeights hids, ?_,
        fun hvol => absurd hvol hnot⟩
      rintro ⟨-, hfalse⟩
      rw [hzero] at hfalse
      cases hfalse
    | false =>
      obtain ⟨x, hx, hsum⟩ := weighs_inverseVol hinv h hids hzero hrows
      refine ⟨x, hx, ?_, fun _ => hsum, fun hvol => absurd hvol hnot⟩
      rintro (heq | ⟨-, htrue⟩)
      · rw [hinv] at heq
        cases heq
      · rw [hzero] at htrue
        cases htrue
  · have hrows : 2 ≤ f.index.length := hname.resolve_left (by rw [hvol]; decide)
    obtain ⟨vol, hrealized, -, hx⟩ := weighs_volTargeted hvol h hids hrows
    refine ⟨_, hx, ?_, ?_, fun _ => ⟨vol, hrealized, fun _ => rfl⟩⟩
    · rintro (heq | ⟨hinv, -⟩)
      · rw [hvol] at heq
        cases heq
      · rw [hvol] at hinv
        cases hinv
    · rintro ⟨hinv, -⟩
      rw [hvol] at hinv
      cases hinv

end Msai.Portfolio
