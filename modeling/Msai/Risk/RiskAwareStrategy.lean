import Mathlib.Algebra.Order.Ring.Rat
import Mathlib.Algebra.Order.Group.Abs
import Mathlib.Algebra.BigOperators.Group.List.Basic

namespace Msai.Risk

/-!
# The gate before every order (`services/nautilus/risk/risk_aware_strategy.py`)

`RiskAwareStrategy` overrides the calls with which a strategy reaches Nautilus.  Each of them asks
the gate first, and goes on to the method of the base class or returns.

* `Order`, `OrderListArg`, `Portfolio`, `Strategy` — what the gate reads;
* `runRiskChecks` — position, daily loss, exposure, market hours;
* `gateDecision` — flatten orders pass, the halt latch comes next, then the suite;
* `submitOrder`, `submitOrderList`, `modifyOrder`, `submitOrderWithRiskCheck` — the four calls;
* `gateAllows_iff`, `runRiskChecks_allowed_iff` — what the gate lets through.

A `Decimal` is the rational it stands for.
-/

/-! ### Orders and what the gate reads -/

structure InstrumentId where
  symbol : String
  venue : String
deriving DecidableEq, Repr

inductive OrderSide
  | noOrderSide
  | buy
  | sell
deriving DecidableEq, Repr

structure Order where
  clientOrderId : String
  instrumentId : InstrumentId
  side : OrderSide
  quantity : ℚ
  price : Option ℚ
  isReduceOnly : Bool
  tags : Option (List String)
deriving DecidableEq, Repr

/-- What `submit_order_list` may be handed. -/
inductive OrderListArg
  /-- Nautilus's `OrderList`. -/
  | orderList (orders : List Order)
  /-- A bare `list` or `tuple`. -/
  | bare (legs : List Order)
  /-- Anything else; the base class raises a `TypeError`. -/
  | other
deriving DecidableEq, Repr

/-- The changes `modify_order` hands on; `none` leaves the value as it is. -/
structure ModifyArgs where
  quantity : Option ℚ
  price : Option ℚ
deriving DecidableEq, Repr

structure RiskLimits where
  dailyLossLimitUsd : ℚ
  maxNotionalExposureUsd : ℚ
  maxPositionPerInstrument : ℚ
deriving DecidableEq, Repr

/-- What the portfolio answers at the moment of a check.  The plural accessors return a map from
    currencies to amounts in USD, and a missing map reads as the empty one. -/
structure Portfolio where
  netPosition : InstrumentId → Option ℚ
  totalPnls : String → List (String × ℚ)
  netExposures : String → List (String × ℚ)

/-- The slots of the mixin that the gate reads. -/
structure Strategy where
  riskLimits : Option RiskLimits
  haltGateArmed : Bool
  /-- The last value that was fetched, and when. -/
  haltCache : Option (Bool × ℚ)
  /-- `none` as an answer stands for an exception. -/
  marketHoursCheck : Option (InstrumentId → Option Bool)
  /-- `_usd_currency()` finds Nautilus. -/
  usdCurrency : Bool

structure RiskCheckResult where
  allowed : Bool
  reason : Option String
deriving DecidableEq, Repr

/-- `HALT_CACHE_MAX_AGE_S`. -/
def haltCacheMaxAgeS : ℚ := 2

/-! ### The risk suite -/

/-- `_signed_quantity`. -/
def signedQuantity (order : Order) : ℚ :=
  if order.side = .sell then -order.quantity else order.quantity

/-- `_order_notional`: zero for an order without price. -/
def orderNotional (order : Order) : ℚ :=
  match order.price with
  | none => 0
  | some price => order.quantity * price

/-- `sum(values)` of a map of amounts. -/
def total (amounts : List (String × ℚ)) : ℚ := (amounts.map Prod.snd).sum

section Suite

variable (s : Strategy) (limits : RiskLimits) (p : Portfolio) (order : Order)

/-- `_check_position_limit`. -/
def checkPositionLimit : Bool :=
  let current := (p.netPosition order.instrumentId).getD 0
  |current + signedQuantity order| ≤ limits.maxPositionPerInstrument

/-- `_within_daily_loss_limit`. -/
def withinDailyLossLimit (pnls : List (String × ℚ)) : Bool :=
  total pnls ≥ -limits.dailyLossLimitUsd

/-- `_check_daily_loss_limit`. -/
def checkDailyLossLimit : Bool :=
  if !s.usdCurrency then true
  else
    let venuePnls := p.totalPnls order.instrumentId.venue
    if venuePnls.isEmpty then true else withinDailyLossLimit limits venuePnls

/-- `_within_exposure_limit`. -/
def withinExposureLimit (exposures : List (String × ℚ)) : Bool :=
  total exposures + orderNotional order ≤ limits.maxNotionalExposureUsd

/-- `_check_exposure_limit`. -/
def checkExposureLimit : Bool :=
  if !s.usdCurrency then true
  else
    let venueExposures := p.netExposures order.instrumentId.venue
    -- no exposure yet: the notional of the order is not looked at
    if venueExposures.isEmpty then true else withinExposureLimit limits order venueExposures

/-- `_check_market_hours`: an exception counts as outside the hours. -/
def checkMarketHours : Bool :=
  match s.marketHoursCheck with
  | none => true
  | some check => (check order.instrumentId).getD false

/-- `_run_risk_checks`. -/
def runRiskChecks : RiskCheckResult :=
  match s.riskLimits with
  | none => ⟨true, none⟩
  | some limits =>
    if !checkPositionLimit limits p order then ⟨false, some "risk:position_limit"⟩
    else if !checkDailyLossLimit s limits p order then ⟨false, some "risk:daily_loss"⟩
    else if !checkExposureLimit s limits p order then ⟨false, some "risk:exposure"⟩
    else if !checkMarketHours s order then ⟨false, some "risk:market_hours"⟩
    else ⟨true, none⟩

/-! ### The gate -/

/-- `_is_reduce_only_or_flatten`. -/
def isReduceOnlyOrFlatten : Bool :=
  order.isReduceOnly || (order.tags.getD []).contains "MARKET_EXIT"

/-- `_halt_is_active` when the clock reads `now`. -/
def haltIsActive (now : ℚ) : Bool :=
  match s.haltCache with
  | none => true
  | some (halted, ts) => halted || now - ts > haltCacheMaxAgeS

/-- `_gate_decision` when the clock reads `now`. -/
def gateDecision (now : ℚ) : RiskCheckResult :=
  if isReduceOnlyOrFlatten order then ⟨true, none⟩
  else if s.haltGateArmed && haltIsActive s now then ⟨false, some "risk:halt"⟩
  else
    let result := runRiskChecks s p order
    if !result.allowed then ⟨false, some (result.reason.getD "risk:unknown")⟩ else ⟨true, none⟩

/-- `_gate_allows`. -/
def gateAllows (now : ℚ) : Bool := (gateDecision s p order now).allowed

end Suite

/-- `_iter_order_list`. -/
def iterOrderList : OrderListArg → List Order
  | .orderList orders => orders
  | .bare legs => legs
  | .other => []

/-! ### The calls -/

/-- A call of a method of the base class. -/
inductive BaseCall
  | submitOrder (order : Order)
  | submitOrderList (orders : OrderListArg)
  | modifyOrder (order : Order) (args : ModifyArgs)
deriving DecidableEq, Repr

section Calls

variable (s : Strategy) (p : Portfolio)

/-- `submit_order`: the call of the base class, if it comes to one. -/
def submitOrder (order : Order) (now : ℚ) : Option BaseCall :=
  if !gateAllows s p order now then none else some (.submitOrder order)

/-- `any(not self._gate_allows(leg) for leg in legs)`; the clock is read once for each leg. -/
def anyDenied (clock : ℕ → ℚ) : List Order → Bool
  | [] => false
  | leg :: legs => !gateAllows s p leg (clock 0) || anyDenied (fun i => clock (i + 1)) legs

/-- `submit_order_list`. -/
def submitOrderList (orders : OrderListArg) (clock : ℕ → ℚ) : Option BaseCall :=
  if anyDenied s p clock (iterOrderList orders) then none else some (.submitOrderList orders)

/-- `modify_order`: the gate sees the order as it stands, not the changes. -/
def modifyOrder (order : Order) (args : ModifyArgs) (now : ℚ) : Option BaseCall :=
  if !gateAllows s p order now then none else some (.modifyOrder order args)

/-- `submit_order_with_risk_check`. -/
def submitOrderWithRiskCheck (order : Order) (now : ℚ) : RiskCheckResult × Option BaseCall :=
  let decision := gateDecision s p order now
  if !decision.allowed then (decision, none) else (⟨true, none⟩, some (.submitOrder order))

end Calls

/-! ### What passes -/

section Passes

variable {s : Strategy} {p : Portfolio} {limits : RiskLimits} {order leg : Order} {now : ℚ}
variable {legs : List Order} {clock : ℕ → ℚ}

/-- The suite lets an order through that passes the four checks. -/
theorem runRiskChecks_allowed_iff (hlimits : s.riskLimits = some limits) :
    (runRiskChecks s p order).allowed = true ↔
      checkPositionLimit limits p order = true ∧ checkDailyLossLimit s limits p order = true ∧
        checkExposureLimit s limits p order = true ∧ checkMarketHours s order = true := by
  simp only [runRiskChecks, hlimits]
  cases checkPositionLimit limits p order with
  | false => simp
  | true =>
    cases checkDailyLossLimit s limits p order with
    | false => simp
    | true =>
      cases checkExposureLimit s limits p order with
      | false => simp
      | true =>
        cases checkMarketHours s order with
        | false => simp
        | true => simp

/-- The gate lets an order through that only flattens, or that no halt and no check stops. -/
theorem gateAllows_iff :
    gateAllows s p order now = true ↔ isReduceOnlyOrFlatten order = true ∨
      (s.haltGateArmed && haltIsActive s now) = false ∧
        (runRiskChecks s p order).allowed = true := by
  unfold gateAllows gateDecision
  cases isReduceOnlyOrFlatten order with
  | true => simp
  | false =>
    cases s.haltGateArmed && haltIsActive s now with
    | true => simp
    | false =>
      cases hallowed : (runRiskChecks s p order).allowed with
      | true => simp [hallowed]
      | false => simp [hallowed]

/-- A list passes if each leg does when it is looked at. -/
theorem anyDenied_eq_false_iff :
    anyDenied s p clock legs = false ↔
      ∀ i leg, legs[i]? = some leg → gateAllows s p leg (clock i) = true := by
  induction legs generalizing clock with
  | nil => simp [anyDenied]
  | cons leg legs ih =>
    rw [anyDenied, Bool.or_eq_false_iff, ih]
    constructor
    · rintro ⟨hfirst, hrest⟩ i l hl
      cases i with
      | zero =>
        obtain rfl : leg = l := by simpa using hl
        simpa using hfirst
      | succ i => exact hrest i l (by simpa using hl)
    · intro h
      exact ⟨by simpa using h 0 leg rfl, fun i l hl => h (i + 1) l (by simpa using hl)⟩

end Passes

end Msai.Risk
