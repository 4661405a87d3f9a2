import Msai.Lib.Transition
import Msai.Risk.RiskAwareStrategy

namespace Msai.Risk

open Lib TransitionSystem

/-!
# The halt gate of a live node (`services/nautilus/risk/risk_aware_strategy.py`)

A background task refreshes the halt cache; the calls of the strategy read it.  While the gate is
armed, an order that opens a position passes only on a fresh refresh that found no halt, and an
order that only flattens passes always.

* `haltSystem` — refreshes and calls in any order;
* `lastRefresh` — the last refresh that succeeded;
* `run_haltCache` — the cache is the last refresh;
* `halt_gate` — the theorem over every sequence of refreshes and every call.
-/

/-! ### Calls -/

/-- The four ways to the base class. -/
inductive Call
  | submitOrder (order : Order)
  | submitOrderList (orders : OrderListArg)
  | modifyOrder (order : Order) (args : ModifyArgs)
  | submitOrderWithRiskCheck (order : Order)
deriving DecidableEq, Repr

namespace Call

/-- The orders the gate looks at. -/
def legs : Call → List Order
  | .submitOrder order | .modifyOrder order _ | .submitOrderWithRiskCheck order => [order]
  | .submitOrderList orders => iterOrderList orders

/-- The call of the base class that hands everything on. -/
def base : Call → BaseCall
  | .submitOrder order | .submitOrderWithRiskCheck order => .submitOrder order
  | .submitOrderList orders => .submitOrderList orders
  | .modifyOrder order args => .modifyOrder order args

/-- The call of the base class it comes to; the `i`-th order is looked at when the clock reads
    `clock i`. -/
def execute (s : Strategy) (p : Portfolio) (clock : ℕ → ℚ) : Call → Option BaseCall
  | .submitOrder order => Risk.submitOrder s p order (clock 0)
  | .submitOrderList orders => Risk.submitOrderList s p orders clock
  | .modifyOrder order args => Risk.modifyOrder s p order args (clock 0)
  | .submitOrderWithRiskCheck order => (Risk.submitOrderWithRiskCheck s p order (clock 0)).2

end Call

/-! ### Refreshes -/

inductive HaltEvent
  /-- `refresh_halt_cache`: the reader's value, or `none` if it raised, and the clock behind it. -/
  | refresh (result : Option Bool) (ts : ℚ)
  | call (c : Call) (p : Portfolio) (clock : ℕ → ℚ)

/-- `refresh_halt_cache`. -/
def refreshHaltCache (s : Strategy) (result : Option Bool) (ts : ℚ) : Strategy :=
  match result with
  | none => s
  | some value => { s with haltCache := some (value, ts) }

/-- A strategy of a live node. -/
def haltSystem : TransitionSystem Strategy HaltEvent where
  step s
    | .refresh result ts => some (refreshHaltCache s result ts)
    | .call _ _ _ => some s

/-- The last refresh that succeeded, `cache` being the one before the events. -/
def lastRefresh (cache : Option (Bool × ℚ)) : List HaltEvent → Option (Bool × ℚ)
  | [] => cache
  | .refresh (some value) ts :: events => lastRefresh (some (value, ts)) events
  | _ :: events => lastRefresh cache events

/-! ### What passes the gate -/

section Gate

variable {s t : Strategy} {p : Portfolio} {clock : ℕ → ℚ} {c : Call} {events : List HaltEvent}
variable {leg : Order} {now : ℚ}

/-- A refresh changes the cache alone, a call nothing. -/
theorem run_haltCache (h : Path haltSystem anyStep s events t) :
    t.haltCache = lastRefresh s.haltCache events ∧ t.haltGateArmed = s.haltGateArmed := by
  induction h with
  | nil s => exact ⟨rfl, rfl⟩
  | @cons s m t a events _ hstep _ ih =>
    cases a with
    | refresh result ts =>
      obtain rfl := Option.some.inj hstep
      cases result with
      | none => exact ih
      | some value => exact ih
    | call c p clock =>
      obtain rfl := Option.some.inj hstep
      exact ih

/-- No halt stops an order exactly on a fresh refresh that found none. -/
theorem haltIsActive_eq_false_iff :
    haltIsActive s now = false ↔ ∃ ts, s.haltCache = some (false, ts) ∧
      now - ts ≤ haltCacheMaxAgeS := by
  unfold haltIsActive
  cases hcache : s.haltCache with
  | none => simp
  | some cache =>
    obtain ⟨halted, ts⟩ := cache
    cases halted with
    | true => simp
    | false => simp

/-- The deprecated alias reaches the base class exactly as the override does. -/
theorem submitOrderWithRiskCheck_snd {order : Order} :
    (Risk.submitOrderWithRiskCheck s p order now).2 = Risk.submitOrder s p order now := by
  unfold Risk.submitOrderWithRiskCheck Risk.submitOrder gateAllows
  by_cases hallowed : (gateDecision s p order now).allowed = true
  · simp only [hallowed, Bool.not_true, Bool.false_eq_true, if_false]
  · simp only [Bool.not_eq_true] at hallowed
    simp only [hallowed, Bool.not_false, if_true]

theorem submitOrder_eq_some_iff {order : Order} {b : BaseCall} :
    Risk.submitOrder s p order now = some b ↔
      b = .submitOrder order ∧ gateAllows s p order now = true := by
  unfold Risk.submitOrder
  cases gateAllows s p order now with
  | true => simp [eq_comm]
  | false => simp

/-- **What a call comes to**: everything is handed on if the gate lets every order pass, and
    nothing if not. -/
theorem execute_eq_some_iff {b : BaseCall} :
    c.execute s p clock = some b ↔
      b = c.base ∧ ∀ i leg, c.legs[i]? = some leg → gateAllows s p leg (clock i) = true := by
  have hone : ∀ order : Order, (∀ i leg, [order][i]? = some leg →
      gateAllows s p leg (clock i) = true) ↔ gateAllows s p order (clock 0) = true := by
    intro order
    constructor
    · exact fun h => h 0 order rfl
    · rintro h i leg hleg
      obtain ⟨rfl, rfl⟩ : i = 0 ∧ order = leg := by
        cases i with
        | zero => exact ⟨rfl, by simpa using hleg⟩
        | succ i => exact absurd hleg (by simp)
      exact h
  cases c with
  | submitOrder order =>
    rw [Call.legs, hone]
    exact submitOrder_eq_some_iff
  | submitOrderList orders =>
    rw [Call.legs, ← anyDenied_eq_false_iff]
    show Risk.submitOrderList s p orders clock = some b ↔ _
    unfold Risk.submitOrderList
    cases anyDenied s p clock (iterOrderList orders) with
    | true => simp
    | false => simp [Call.base, eq_comm]
  | modifyOrder order args =>
    rw [Call.legs, hone]
    show Risk.modifyOrder s p order args (clock 0) = some b ↔ _
    unfold Risk.modifyOrder
    cases gateAllows s p order (clock 0) with
    | true => simp [Call.base, eq_comm]
    | false => simp
  | submitOrderWithRiskCheck order =>
    rw [Call.legs, hone]
    show (Risk.submitOrderWithRiskCheck s p order (clock 0)).2 = some b ↔ _
    rw [submitOrderWithRiskCheck_snd]
    exact submitOrder_eq_some_iff

/-- An opening order that passes an armed gate has found a fresh refresh without halt. -/
theorem fresh_of_gateAllows (harmed : s.haltGateArmed = true)
    (hopening : isReduceOnlyOrFlatten leg = false) (h : gateAllows s p leg now = true) :
    ∃ ts, s.haltCache = some (false, ts) ∧ now - ts ≤ haltCacheMaxAgeS := by
  rcases gateAllows_iff.mp h with hflatten | ⟨hno, -⟩
  · exact absurd (hopening.symm.trans hflatten) (by decide)
  · rw [harmed, Bool.true_and] at hno
    exact haltIsActive_eq_false_iff.mp hno

/-- **The halt gate.**  While the gate is armed, after every sequence of refreshes and calls: a call
    reaches the base class only if all its orders flatten, or the last successful refresh found no
    halt and is fresh whenever an opening order is looked at; a call whose orders all flatten
    reaches it; and it is handed on whole or not at all. -/
theorem halt_gate (harmed : s.haltGateArmed = true) (h : Path haltSystem anyStep s events t)
    (c : Call) (p : Portfolio) (clock : ℕ → ℚ) :
    (c.execute t p clock ≠ none →
      (∀ leg ∈ c.legs, isReduceOnlyOrFlatten leg = true) ∨
      ∃ ts, lastRefresh s.haltCache events = some (false, ts) ∧
        ∀ i leg, c.legs[i]? = some leg → isReduceOnlyOrFlatten leg = false →
          clock i - ts ≤ haltCacheMaxAgeS) ∧
    ((∀ leg ∈ c.legs, isReduceOnlyOrFlatten leg = true) → c.execute t p clock = some c.base) ∧
    (c.execute t p clock = none ∨ c.execute t p clock = some c.base) := by
  obtain ⟨hcache, harmed'⟩ := run_haltCache h
  rw [harmed] at harmed'
  refine ⟨fun hreached => ?_, fun hflatten => ?_, ?_⟩
  · obtain ⟨b, hb⟩ := Option.ne_none_iff_exists'.mp hreached
    obtain ⟨-, hpass⟩ := execute_eq_some_iff.mp hb
    by_cases hall : ∀ leg ∈ c.legs, isReduceOnlyOrFlatten leg = true
    · exact Or.inl hall
    · -- some order opens a position, and every such order has found the same refresh
      right
      push Not at hall
      obtain ⟨leg, hleg, hopening⟩ := hall
      obtain ⟨i, hi⟩ := List.getElem?_of_mem hleg
      obtain ⟨ts, hts, -⟩ := fresh_of_gateAllows harmed' (by simpa using hopening) (hpass i leg hi)
      refine ⟨ts, by rw [← hcache, hts], fun j leg' hj hopening' => ?_⟩
      obtain ⟨ts', hts', hfresh⟩ := fresh_of_gateAllows harmed' hopening' (hpass j leg' hj)
      obtain rfl : ts = ts' := by simpa using hts.symm.trans hts'
      exact hfresh
  · refine execute_eq_some_iff.mpr ⟨rfl, fun i leg hi => ?_⟩
    exact gateAllows_iff.mpr (Or.inl (hflatten leg (List.mem_of_getElem? hi)))
  · cases hexec : c.execute t p clock with
    | none => exact Or.inl rfl
    | some b => exact Or.inr (by rw [(execute_eq_some_iff.mp hexec).1])

end Gate

/-! ### A refresh, a lost one, and two calls -/

/-- A node before its first refresh. -/
def armedStrategy : Strategy where
  riskLimits := none
  haltGateArmed := true
  haltCache := none
  marketHoursCheck := none
  usdCurrency := true

/-- No positions, no results. -/
def flatPortfolio : Portfolio := ⟨fun _ => none, fun _ => [], fun _ => []⟩

/-- A market order for one share. -/
def buyOne : Order := ⟨"O-1", ⟨"AAPL", "NASDAQ"⟩, .buy, 1, none, false, none⟩

/-- A bracket of an opening and a closing order. -/
def bracket : Call := .submitOrderList (.orderList [buyOne, { buyOne with isReduceOnly := true }])

/-- The latch was read at second 10, and the reader failed at second 11: at second 12 the bracket is
    still handed on. -/
theorem halt_gate_bracket :
    bracket.execute armedStrategy flatPortfolio (fun _ => 12) = none ∧
      ∃ t, Path haltSystem anyStep armedStrategy
          [.refresh (some false) 10, .refresh none 11] t ∧
        bracket.execute t flatPortfolio (fun _ => 12) ≠ none ∧
        ((∀ leg ∈ bracket.legs, isReduceOnlyOrFlatten leg = true) ∨
          ∃ ts, lastRefresh none [.refresh (some false) 10, .refresh none 11] = some (false, ts) ∧
            ∀ (i : ℕ) leg, bracket.legs[i]? = some leg → isReduceOnlyOrFlatten leg = false →
              (12 : ℚ) - ts ≤ haltCacheMaxAgeS) := by
  have hpath : Path haltSystem anyStep armedStrategy [.refresh (some false) 10, .refresh none 11]
      { armedStrategy with haltCache := some (false, 10) } := Path.of_run rfl
  have hreached : bracket.execute { armedStrategy with haltCache := some (false, 10) } flatPortfolio
      (fun _ => 12) ≠ none := by decide +kernel
  exact ⟨by decide +kernel, _, hpath, hreached,
    (halt_gate rfl hpath bracket flatPortfolio fun _ => 12).1 hreached⟩

end Msai.Risk
