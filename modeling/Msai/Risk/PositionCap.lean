import Mathlib.Algebra.Order.BigOperators.Group.List
import Mathlib.Tactic.Linarith
import Mathlib.Tactic.Ring
import Msai.Lib.Transition
import Msai.Risk.RiskAwareStrategy

namespace Msai.Risk

open Lib TransitionSystem

/-!
# The position cap over a run (`services/nautilus/risk/risk_aware_strategy.py`)

The gate holds the projected position against the cap: the net position and the quantity of *one*
order, as it stands.  It projects the legs of a list one by one, and a modified order with the
quantity it had before.

* `WorkingOrder`, `CapState`, `capSystem` — the orders of one instrument, the calls of the strategy
  and what the broker does with the orders;
* `CapInv` — the position stays within the cap, whatever is filled;
* `KeepsCap` — the condition on lists, modifications and orders that the gate lets pass unseen;
* `position_within_cap` — the theorem over every run.
-/

/-! ### Orders at the broker -/

/-- An order that the broker has, or had. -/
structure WorkingOrder where
  /-- The order as it stands. -/
  order : Order
  filled : ℚ
  /-- Neither completely filled nor canceled. -/
  working : Bool
  /-- The quantities that were asked for and not answered yet. -/
  requested : List ℚ
deriving DecidableEq, Repr

/-- `x` in the direction of a side. -/
def OrderSide.signed (side : OrderSide) (x : ℚ) : ℚ := if side = .sell then -x else x

namespace WorkingOrder

/-- The order arrives at the broker. -/
def new (order : Order) : WorkingOrder := ⟨order, 0, true, []⟩

/-- The most that can still be filled. -/
def rest (w : WorkingOrder) : ℚ :=
  if w.working then
    (w.order.quantity :: w.requested).foldr (fun q m => max (q - w.filled) m) 0
  else 0

def fill (w : WorkingOrder) (f : ℚ) : WorkingOrder :=
  { w with filled := w.filled + f, working := decide (w.filled + f < w.order.quantity) }

/-- The order gets the quantity that was asked for first. -/
def update (w : WorkingOrder) (q : ℚ) (later : List ℚ) : WorkingOrder :=
  { w with
    order := { w.order with quantity := q }
    working := decide (w.filled < q)
    requested := later }

/-- The base class has sent a modification. -/
def request (w : WorkingOrder) (args : ModifyArgs) : WorkingOrder :=
  match args.quantity with
  | none => w
  | some q => { w with requested := w.requested ++ [q] }

end WorkingOrder

/-- The position in one instrument, and its orders. -/
structure CapState where
  position : ℚ
  orders : List WorkingOrder
deriving DecidableEq, Repr

/-- No order was sent. -/
def CapState.initial (position : ℚ) : CapState := ⟨position, []⟩

/-- What the gate reads during a call. -/
structure Moment where
  strategy : Strategy
  portfolio : Portfolio
  clock : ℕ → ℚ

inductive CapLabel
  | submitOrder (m : Moment) (order : Order)
  | submitOrderList (m : Moment) (orders : OrderListArg)
  | modifyOrder (m : Moment) (k : ℕ) (args : ModifyArgs)
  /-- The broker fills a part of an order, -/
  | fill (k : ℕ) (f : ℚ)
  /-- accepts a modification, -/
  | update (k : ℕ)
  /-- rejects one, -/
  | reject (k : ℕ)
  /-- or cancels the order. -/
  | cancel (k : ℕ)

section System

variable (limits : RiskLimits) (instrument : InstrumentId)

/-- No order but the `k`-th is working. -/
def CapState.OnlyWorking (s : CapState) (k : Option ℕ) : Prop :=
  ∀ j : Fin s.orders.length, k ≠ some j.val → s.orders[j].working = false

instance (s : CapState) (k : Option ℕ) : Decidable (s.OnlyWorking k) :=
  inferInstanceAs (Decidable (∀ _, _))

/-- The limits are wired, and the portfolio knows the position. -/
def Moment.Reads (m : Moment) (s : CapState) : Prop :=
  m.strategy.riskLimits = some limits ∧ (m.portfolio.netPosition instrument).getD 0 = s.position

instance (m : Moment) (s : CapState) : Decidable (m.Reads limits instrument s) :=
  inferInstanceAs (Decidable (_ ∧ _))

/-- An order on the instrument that is not reduce-only. -/
def Order.Opens (order : Order) : Prop :=
  order.instrumentId = instrument ∧ order.isReduceOnly = false

instance (order : Order) : Decidable (order.Opens instrument) :=
  inferInstanceAs (Decidable (_ ∧ _))

/-- The base class sends orders to the broker. -/
def CapState.place (s : CapState) (orders : List Order) : CapState :=
  { s with orders := s.orders ++ orders.map .new }

/-- What a call of the base class changes; a modification is one of the `k`-th order. -/
def CapState.dispatch (s : CapState) (k : ℕ) : BaseCall → CapState
  | .submitOrder order => s.place [order]
  | .submitOrderList orders => s.place (iterOrderList orders)
  | .modifyOrder _ args => { s with orders := s.orders.modify k (·.request args) }

/-- The `k`-th order becomes `w`. -/
def CapState.put (s : CapState) (k : ℕ) (w : WorkingOrder) : CapState :=
  { s with orders := s.orders.set k w }

/-- What a call of the base class changes, if it comes to one. -/
def CapState.dispatchAll (s : CapState) (k : ℕ) (call : Option BaseCall) : CapState :=
  call.elim s (s.dispatch k)

def capStep (s : CapState) : CapLabel → Option CapState
  | .submitOrder m order =>
    if s.OnlyWorking none ∧ m.Reads limits instrument s ∧ order.Opens instrument then
      some (s.dispatchAll 0 (submitOrder m.strategy m.portfolio order (m.clock 0)))
    else none
  | .submitOrderList m orders =>
    if s.OnlyWorking none ∧ m.Reads limits instrument s ∧
        ∀ leg ∈ iterOrderList orders, leg.Opens instrument then
      some (s.dispatchAll 0 (submitOrderList m.strategy m.portfolio orders m.clock))
    else none
  | .modifyOrder m k args =>
    s.orders[k]?.bind fun w =>
      if s.OnlyWorking (some k) ∧ m.Reads limits instrument s ∧ w.order.Opens instrument then
        some (s.dispatchAll k (modifyOrder m.strategy m.portfolio w.order args (m.clock 0)))
      else none
  | .fill k f =>
    s.orders[k]?.bind fun w =>
      if w.working = true ∧ 0 < f ∧ w.filled + f ≤ w.order.quantity then
        some { s.put k (w.fill f) with position := s.position + w.order.side.signed f }
      else none
  | .update k =>
    s.orders[k]?.bind fun w =>
      match w.working, w.requested with
      | true, q :: later => some (s.put k (w.update q later))
      | _, _ => none
  | .reject k =>
    s.orders[k]?.bind fun w =>
      match w.requested with
      | _ :: later => some (s.put k { w with requested := later })
      | [] => none
  | .cancel k => s.orders[k]?.map fun w => s.put k { w with working := false }

/-- The calls on one instrument and the broker. -/
def capSystem : TransitionSystem CapState CapLabel := ⟨capStep limits instrument⟩

end System

/-! ### The condition -/

/-- What a list of orders buys. -/
def bought (orders : List Order) : ℚ :=
  (orders.map fun o => if o.side = .sell then 0 else max o.quantity 0).sum

/-- What it sells. -/
def sold (orders : List Order) : ℚ :=
  (orders.map fun o => if o.side = .sell then max o.quantity 0 else 0).sum

/-- The position is within the cap with all buys filled, and with all sells. -/
def Fits (limits : RiskLimits) (position : ℚ) (orders : List Order) : Prop :=
  position + bought orders ≤ limits.maxPositionPerInstrument ∧
    -limits.maxPositionPerInstrument ≤ position - sold orders

instance (limits : RiskLimits) (position : ℚ) (orders : List Order) :
    Decidable (Fits limits position orders) :=
  inferInstanceAs (Decidable (_ ∧ _))

/-- What a list sends fits as a whole; a modified order fits with its new quantity; and so does an
    order tagged `MARKET_EXIT` that may open a position. -/
def KeepsCap (limits : RiskLimits) (s : CapState) : CapLabel → Prop
  | .submitOrder _ order => isReduceOnlyOrFlatten order = true → Fits limits s.position [order]
  | .submitOrderList m orders =>
    submitOrderList m.strategy m.portfolio orders m.clock ≠ none →
      Fits limits s.position (iterOrderList orders)
  | .modifyOrder m k args => ∀ w ∈ s.orders[k]?, ∀ q ∈ args.quantity,
    modifyOrder m.strategy m.portfolio w.order args (m.clock 0) ≠ none →
      Fits limits s.position [{ w.order with quantity := q - w.filled }]
  | _ => True

instance (limits : RiskLimits) (s : CapState) : (a : CapLabel) → Decidable (KeepsCap limits s a)
  | .submitOrder _ _ => inferInstanceAs (Decidable (_ → _))
  | .submitOrderList _ _ => inferInstanceAs (Decidable (_ → _))
  | .modifyOrder m k args => inferInstanceAs (Decidable (∀ w ∈ s.orders[k]?, ∀ q ∈ args.quantity,
      modifyOrder m.strategy m.portfolio w.order args (m.clock 0) ≠ none →
        Fits limits s.position [{ w.order with quantity := q - w.filled }]))
  | .fill _ _ | .update _ | .reject _ | .cancel _ => inferInstanceAs (Decidable True)

/-! ### What is filled at most -/

section Cap

variable {limits : RiskLimits} {instrument : InstrumentId} {s t : CapState} {w w' : WorkingOrder}
variable {k : ℕ} {a : CapLabel} {f q : ℚ} {order : Order} {orders : List Order} {m : Moment}

/-- What may still be bought. -/
def WorkingOrder.up (w : WorkingOrder) : ℚ := if w.order.side = .sell then 0 else w.rest

/-- What may still be sold. -/
def WorkingOrder.down (w : WorkingOrder) : ℚ := if w.order.side = .sell then w.rest else 0

/-- Within the cap, whatever is filled. -/
structure CapInv (limits : RiskLimits) (s : CapState) : Prop where
  above : s.position + (s.orders.map (·.up)).sum ≤ limits.maxPositionPerInstrument
  below : -limits.maxPositionPerInstrument ≤ s.position - (s.orders.map (·.down)).sum

private theorem foldr_max_le_iff {filled x : ℚ} {qs : List ℚ} :
    qs.foldr (fun q m => max (q - filled) m) 0 ≤ x ↔ 0 ≤ x ∧ ∀ q ∈ qs, q - filled ≤ x := by
  induction qs with
  | nil => simp
  | cons q qs ih =>
    rw [List.foldr_cons, max_le_iff, ih, List.forall_mem_cons]
    exact and_left_comm

theorem WorkingOrder.rest_le_iff {x : ℚ} :
    w.rest ≤ x ↔
      0 ≤ x ∧ (w.working = true → ∀ q ∈ w.order.quantity :: w.requested, q - w.filled ≤ x) := by
  unfold rest
  cases w.working with
  | true =>
    rw [if_pos rfl, foldr_max_le_iff]
    exact and_congr_right fun _ => ⟨fun h _ => h, fun h => h rfl⟩
  | false => simp

theorem WorkingOrder.rest_nonneg : 0 ≤ w.rest := (rest_le_iff.mp le_rfl).1

theorem WorkingOrder.sub_le_rest (hw : w.working = true)
    (hq : q ∈ w.order.quantity :: w.requested) : q - w.filled ≤ w.rest :=
  (rest_le_iff.mp le_rfl).2 hw q hq

theorem WorkingOrder.rest_of_closed (hw : w.working = false) : w.rest = 0 := by
  simp [rest, hw]

theorem WorkingOrder.of_sell (h : w.order.side = .sell) : w.up = 0 ∧ w.down = w.rest :=
  ⟨if_pos h, if_pos h⟩

theorem WorkingOrder.of_buy (h : w.order.side ≠ .sell) : w.up = w.rest ∧ w.down = 0 :=
  ⟨if_neg h, if_neg h⟩

theorem WorkingOrder.nonneg : 0 ≤ w.up ∧ 0 ≤ w.down := by
  by_cases hsell : w.order.side = .sell
  · rw [(of_sell hsell).1, (of_sell hsell).2]
    exact ⟨le_rfl, rest_nonneg⟩
  · rw [(of_buy hsell).1, (of_buy hsell).2]
    exact ⟨rest_nonneg, le_rfl⟩

theorem WorkingOrder.of_closed (hw : w.working = false) : w.up = 0 ∧ w.down = 0 := by
  by_cases hsell : w.order.side = .sell
  · rw [(of_sell hsell).1, (of_sell hsell).2, rest_of_closed hw]
    exact ⟨rfl, rfl⟩
  · rw [(of_buy hsell).1, (of_buy hsell).2, rest_of_closed hw]
    exact ⟨rfl, rfl⟩

/-- The invariant bounds the position. -/
theorem CapInv.position_le (h : CapInv limits s) :
    |s.position| ≤ limits.maxPositionPerInstrument := by
  have hup : 0 ≤ (s.orders.map (·.up)).sum :=
    List.sum_nonneg fun x hx => by
      obtain ⟨w, -, rfl⟩ := List.mem_map.mp hx
      exact w.nonneg.1
  have hdown : 0 ≤ (s.orders.map (·.down)).sum :=
    List.sum_nonneg fun x hx => by
      obtain ⟨w, -, rfl⟩ := List.mem_map.mp hx
      exact w.nonneg.2
  have habove := h.above
  have hbelow := h.below
  rw [abs_le]
  constructor
  · linarith
  · linarith

private theorem sum_map_set (g : WorkingOrder → ℚ) {l : List WorkingOrder} (w' : WorkingOrder)
    (h : l[k]? = some w) : ((l.set k w').map g).sum + g w = (l.map g).sum + g w' := by
  induction l generalizing k with
  | nil => simp at h
  | cons x l ih =>
    cases k with
    | zero =>
      obtain rfl : x = w := by simpa using h
      simp only [List.set_cons_zero, List.map_cons, List.sum_cons]
      ring
    | succ k =>
      have hl := ih (k := k) (by simpa using h)
      simp only [List.set_cons_succ, List.map_cons, List.sum_cons]
      linarith

/-- A fill, an update, a rejection or a cancellation: what the order gains in position it loses in
    rest. -/
theorem CapInv.replace (h : CapInv limits s) (hk : s.orders[k]? = some w)
    (hside : w'.order.side = w.order.side) (hf : 0 ≤ f) (hrest : f + w'.rest ≤ w.rest) :
    CapInv limits { s.put k w' with position := s.position + w.order.side.signed f } := by
  have hup := sum_map_set (·.up) w' hk
  have hdown := sum_map_set (·.down) w' hk
  have habove := h.above
  have hbelow := h.below
  by_cases hsell : w.order.side = .sell
  · have hw := WorkingOrder.of_sell hsell
    have hw' := WorkingOrder.of_sell (hside.trans hsell)
    have hsigned : w.order.side.signed f = -f := if_pos hsell
    rw [hsigned]
    refine ⟨?_, ?_⟩
    · show s.position + -f + ((s.orders.set k w').map (·.up)).sum ≤ _
      linarith
    · show _ ≤ s.position + -f - ((s.orders.set k w').map (·.down)).sum
      linarith
  · have hw := WorkingOrder.of_buy hsell
    have hw' := WorkingOrder.of_buy (w := w') (by rwa [hside])
    have hsigned : w.order.side.signed f = f := if_neg hsell
    rw [hsigned]
    refine ⟨?_, ?_⟩
    · show s.position + f + ((s.orders.set k w').map (·.up)).sum ≤ _
      linarith
    · show _ ≤ s.position + f - ((s.orders.set k w').map (·.down)).sum
      linarith

/-- The same where nothing is filled. -/
theorem CapInv.put (h : CapInv limits s) (hk : s.orders[k]? = some w)
    (hside : w'.order.side = w.order.side) (hrest : w'.rest ≤ w.rest) :
    CapInv limits (s.put k w') := by
  have hsame := h.replace (f := 0) hk hside le_rfl (by rwa [zero_add])
  have hzero : s.position + w.order.side.signed 0 = s.position := by
    unfold OrderSide.signed
    split
    · rw [neg_zero, add_zero]
    · rw [add_zero]
  rw [hzero] at hsame
  exact hsame

/-! ### Calls -/

theorem sum_of_closed {l : List WorkingOrder} (h : ∀ w ∈ l, w.working = false) :
    (l.map (·.up)).sum = 0 ∧ (l.map (·.down)).sum = 0 := by
  induction l with
  | nil => exact ⟨rfl, rfl⟩
  | cons w l ih =>
    obtain ⟨hw, hl⟩ := List.forall_mem_cons.mp h
    obtain ⟨hup, hdown⟩ := ih hl
    obtain ⟨hwup, hwdown⟩ := WorkingOrder.of_closed hw
    simp only [List.map_cons, List.sum_cons, hup, hdown, hwup, hwdown, add_zero, and_self]

/-- Of an order that arrives, everything may be filled. -/
theorem WorkingOrder.rest_new : (new order).rest = max order.quantity 0 := by
  simp [new, rest]

theorem sum_new : ((orders.map WorkingOrder.new).map (·.up)).sum = bought orders ∧
    ((orders.map WorkingOrder.new).map (·.down)).sum = sold orders := by
  unfold bought sold
  rw [List.map_map, List.map_map]
  constructor
  · refine congrArg List.sum (List.map_congr_left fun o _ => ?_)
    show (if o.side = .sell then 0 else (WorkingOrder.new o).rest) = _
    rw [WorkingOrder.rest_new]
  · refine congrArg List.sum (List.map_congr_left fun o _ => ?_)
    show (if o.side = .sell then (WorkingOrder.new o).rest else 0) = _
    rw [WorkingOrder.rest_new]

theorem CapState.OnlyWorking.closed (h : s.OnlyWorking none) :
    ∀ w ∈ s.orders, w.working = false := by
  intro w hw
  obtain ⟨j, hj, rfl⟩ := List.mem_iff_getElem.mp hw
  exact h ⟨j, hj⟩ (by simp)

/-- Orders that fit as a whole may be sent while no other works. -/
theorem CapInv.place (hnone : s.OnlyWorking none) (hfits : Fits limits s.position orders) :
    CapInv limits (s.place orders) := by
  obtain ⟨hup, hdown⟩ := sum_of_closed hnone.closed
  refine ⟨?_, ?_⟩
  · show s.position + ((s.orders ++ orders.map WorkingOrder.new).map (·.up)).sum ≤ _
    rw [List.map_append, List.sum_append, hup, sum_new.1, zero_add]
    exact hfits.1
  · show _ ≤ s.position - ((s.orders ++ orders.map WorkingOrder.new).map (·.down)).sum
    rw [List.map_append, List.sum_append, hdown, sum_new.2, zero_add]
    exact hfits.2

/-- One order fits if the position with all of it filled does. -/
theorem fits_of_projected (hposition : |s.position| ≤ limits.maxPositionPerInstrument)
    (hprojected : |s.position + signedQuantity order| ≤ limits.maxPositionPerInstrument) :
    Fits limits s.position [order] := by
  obtain ⟨hlow, hhigh⟩ := abs_le.mp hposition
  obtain ⟨hlow', hhigh'⟩ := abs_le.mp hprojected
  unfold Fits bought sold
  unfold signedQuantity at hlow' hhigh'
  simp only [List.map_cons, List.map_nil, List.sum_cons, List.sum_nil, add_zero]
  by_cases hsell : order.side = .sell
  · simp only [hsell, if_true] at hlow' hhigh' ⊢
    refine ⟨by linarith, ?_⟩
    rcases max_choice order.quantity 0 with hmax | hmax
    · rw [hmax]
      linarith
    · rw [hmax]
      linarith
  · simp only [hsell, if_false] at hlow' hhigh' ⊢
    refine ⟨?_, by linarith⟩
    rcases max_choice order.quantity 0 with hmax | hmax
    · rw [hmax]
      linarith
    · rw [hmax]
      linarith

/-- An order that opens a position and passes the gate has passed the position check. -/
theorem projected_of_gateAllows {strategy : Strategy} {p : Portfolio} {now : ℚ}
    (hlimits : strategy.riskLimits = some limits)
    (hopening : isReduceOnlyOrFlatten order = false)
    (h : gateAllows strategy p order now = true) :
    |(p.netPosition order.instrumentId).getD 0 + signedQuantity order| ≤
      limits.maxPositionPerInstrument := by
  rcases gateAllows_iff.mp h with hflatten | ⟨-, hchecks⟩
  · exact absurd (hopening.symm.trans hflatten) (by decide)
  · have hposition := ((runRiskChecks_allowed_iff hlimits).mp hchecks).1
    simpa [checkPositionLimit] using hposition

private theorem modify_eq_set {g : WorkingOrder → WorkingOrder} {l : List WorkingOrder}
    (h : l[k]? = some w) : l.modify k g = l.set k (g w) := by
  apply List.ext_getElem?
  intro j
  rw [List.getElem?_modify, List.getElem?_set]
  by_cases hj : k = j
  · subst hj
    obtain ⟨hlt, rfl⟩ := List.getElem?_eq_some_iff.mp h
    simp [hlt]
  · simp [hj]

/-- Beside the only working order nothing else counts. -/
theorem CapState.OnlyWorking.sum_set (h : s.OnlyWorking (some k)) (hk : s.orders[k]? = some w)
    (w' : WorkingOrder) :
    ((s.orders.set k w').map (·.up)).sum = w'.up ∧
      ((s.orders.set k w').map (·.down)).sum = w'.down := by
  have hclosed : ∀ x ∈ s.orders.set k { w with working := false }, x.working = false := by
    intro x hx
    obtain ⟨j, hj⟩ := List.getElem?_of_mem hx
    rcases getElem?_set_cases hj with ⟨-, rfl⟩ | ⟨hne, hj⟩
    · rfl
    · obtain ⟨hlt, rfl⟩ := List.getElem?_eq_some_iff.mp hj
      exact h ⟨j, hlt⟩ (by simpa using Ne.symm hne)
  obtain ⟨hup, hdown⟩ := sum_of_closed hclosed
  have hk' : (s.orders.set k { w with working := false })[k]? =
      some { w with working := false } := by
    obtain ⟨hlt, -⟩ := List.getElem?_eq_some_iff.mp hk
    simp [hlt]
  have hzero := WorkingOrder.of_closed (w := { w with working := false }) rfl
  have hsetup := sum_map_set (·.up) w' hk'
  have hsetdown := sum_map_set (·.down) w' hk'
  rw [List.set_set, hup, hzero.1] at hsetup
  rw [List.set_set, hdown, hzero.2] at hsetdown
  exact ⟨by linarith, by linarith⟩

/-- With a new quantity asked for, as much may be filled as before, or up to it. -/
theorem WorkingOrder.rest_request {args : ModifyArgs} (hq : args.quantity = some q) :
    (w.request args).rest ≤ max w.rest (max (q - w.filled) 0) := by
  have hrequest : w.request args = { w with requested := w.requested ++ [q] } := by
    simp [request, hq]
  rw [hrequest, rest_le_iff]
  refine ⟨le_max_of_le_left rest_nonneg, fun hworking r hr => ?_⟩
  rw [List.mem_cons, List.mem_append, List.mem_singleton, ← or_assoc, ← List.mem_cons] at hr
  rcases hr with hold | rfl
  · exact le_max_of_le_left (sub_le_rest hworking hold)
  · exact le_max_of_le_right (le_max_left _ _)

/-- A modification that fits may be asked for. -/
theorem CapInv.request (h : CapInv limits s) (honly : s.OnlyWorking (some k))
    (hk : s.orders[k]? = some w) {args : ModifyArgs}
    (hfits : ∀ q, args.quantity = some q →
      Fits limits s.position [{ w.order with quantity := q - w.filled }]) :
    CapInv limits { s with orders := s.orders.modify k (·.request args) } := by
  rw [modify_eq_set hk]
  cases hquantity : args.quantity with
  | none =>
    have hsame : w.request args = w := by simp [WorkingOrder.request, hquantity]
    rw [hsame]
    exact h.put hk rfl le_rfl
  | some q =>
    have hrest := w.rest_request hquantity
    have hside : (w.request args).order.side = w.order.side := by
      simp [WorkingOrder.request, hquantity]
    obtain ⟨hup, hdown⟩ := honly.sum_set hk (w.request args)
    -- the order alone carries the invariant, before and after
    have hself : s.orders.set k w = s.orders := by
      obtain ⟨hlt, rfl⟩ := List.getElem?_eq_some_iff.mp hk
      exact List.set_getElem_self hlt
    obtain ⟨hupOld, hdownOld⟩ := honly.sum_set hk w
    rw [hself] at hupOld hdownOld
    have habove := h.above
    have hbelow := h.below
    rw [hupOld] at habove
    rw [hdownOld] at hbelow
    obtain ⟨hbuys, hsells⟩ := hfits q hquantity
    unfold bought at hbuys
    unfold sold at hsells
    simp only [List.map_cons, List.map_nil, List.sum_cons, List.sum_nil, add_zero] at hbuys hsells
    refine ⟨?_, ?_⟩
    · show s.position + ((s.orders.set k (w.request args)).map (·.up)).sum ≤ _
      rw [hup]
      by_cases hsell : w.order.side = .sell
      · rw [(WorkingOrder.of_sell hsell).1] at habove
        rw [(WorkingOrder.of_sell (hside.trans hsell)).1]
        exact habove
      · rw [(WorkingOrder.of_buy hsell).1] at habove
        rw [(WorkingOrder.of_buy (by rwa [hside])).1]
        rw [if_neg hsell] at hbuys
        rcases le_max_iff.mp hrest with hle | hle
        · linarith
        · linarith
    · show _ ≤ s.position - ((s.orders.set k (w.request args)).map (·.down)).sum
      rw [hdown]
      by_cases hsell : w.order.side = .sell
      · rw [(WorkingOrder.of_sell hsell).2] at hbelow
        rw [(WorkingOrder.of_sell (hside.trans hsell)).2]
        rw [if_pos hsell] at hsells
        rcases le_max_iff.mp hrest with hle | hle
        · linarith
        · linarith
      · rw [(WorkingOrder.of_buy hsell).2] at hbelow
        rw [(WorkingOrder.of_buy (by rwa [hside])).2]
        exact hbelow

/-! ### The broker -/

theorem WorkingOrder.rest_fill (hworking : w.working = true)
    (hf : w.filled + f ≤ w.order.quantity) : f + (w.fill f).rest ≤ w.rest := by
  have hall : (w.fill f).rest ≤ w.rest - f := by
    rw [rest_le_iff]
    refine ⟨?_, fun _ r hr => ?_⟩
    · have hown := sub_le_rest hworking (List.mem_cons_self (a := w.order.quantity))
      linarith
    · have hr := sub_le_rest hworking hr
      show r - (w.filled + f) ≤ w.rest - f
      linarith
  linarith

theorem WorkingOrder.rest_update {later : List ℚ} (hworking : w.working = true)
    (hrequested : w.requested = q :: later) : (w.update q later).rest ≤ w.rest := by
  rw [rest_le_iff]
  refine ⟨rest_nonneg, fun _ r hr => sub_le_rest hworking ?_⟩
  rw [hrequested]
  exact List.mem_cons_of_mem _ hr

theorem WorkingOrder.rest_reject {later : List ℚ} (hrequested : w.requested = q :: later) :
    ({ w with requested := later } : WorkingOrder).rest ≤ w.rest := by
  rw [rest_le_iff]
  refine ⟨rest_nonneg, fun hworking r hr => sub_le_rest hworking ?_⟩
  rw [hrequested]
  rcases List.mem_cons.mp hr with rfl | hr
  · exact List.mem_cons_self
  · exact List.mem_cons_of_mem _ (List.mem_cons_of_mem _ hr)

theorem WorkingOrder.rest_cancel : ({ w with working := false } : WorkingOrder).rest ≤ w.rest := by
  rw [rest_of_closed rfl]
  exact rest_nonneg

/-! ### Runs -/

/-- **Every step** that meets the condition keeps the invariant. -/
theorem CapInv.step (h : CapInv limits s) (hC : KeepsCap limits s a)
    (hstep : capStep limits instrument s a = some t) : CapInv limits t := by
  cases a with
  | submitOrder m order =>
    simp only [capStep] at hstep
    split at hstep
    · rename_i hguard
      obtain ⟨hnone, ⟨hlimits, hposition⟩, hinstrument, -⟩ := hguard
      obtain rfl := Option.some.inj hstep
      unfold Risk.submitOrder
      cases hpass : gateAllows m.strategy m.portfolio order (m.clock 0) with
      | false => exact h
      | true =>
        refine CapInv.place hnone ?_
        cases hflatten : isReduceOnlyOrFlatten order with
        | true => exact hC hflatten
        | false =>
          -- the gate has projected this order
          have hprojected := projected_of_gateAllows hlimits hflatten hpass
          rw [hinstrument, hposition] at hprojected
          exact fits_of_projected h.position_le hprojected
    · exact absurd hstep (by simp)
  | submitOrderList m orders =>
    simp only [capStep] at hstep
    split at hstep
    · rename_i hguard
      obtain rfl := Option.some.inj hstep
      simp only [KeepsCap] at hC
      unfold Risk.submitOrderList at hC ⊢
      cases hdenied : anyDenied m.strategy m.portfolio m.clock (iterOrderList orders) with
      | true => exact h
      | false =>
        rw [hdenied] at hC
        exact CapInv.place hguard.1 (hC (by simp))
    · exact absurd hstep (by simp)
  | modifyOrder m k args =>
    obtain ⟨w, hk, hcall⟩ := Option.bind_eq_some_iff.mp hstep
    split at hcall
    · rename_i hguard
      obtain rfl := Option.some.inj hcall
      simp only [KeepsCap] at hC
      have hC := hC w hk
      unfold Risk.modifyOrder at hC ⊢
      cases hpass : gateAllows m.strategy m.portfolio w.order (m.clock 0) with
      | false => exact h
      | true =>
        rw [hpass] at hC
        exact h.request hguard.1 hk fun q hq => hC q hq (by simp)
    · exact absurd hcall (by simp)
  | fill k f =>
    obtain ⟨w, hk, hfill⟩ := Option.bind_eq_some_iff.mp hstep
    split at hfill
    · rename_i hguard
      obtain ⟨hworking, hf, hle⟩ := hguard
      obtain rfl := Option.some.inj hfill
      exact h.replace hk rfl hf.le (WorkingOrder.rest_fill hworking hle)
    · exact absurd hfill (by simp)
  | update k =>
    obtain ⟨w, hk, hupdate⟩ := Option.bind_eq_some_iff.mp hstep
    split at hupdate
    · rename_i q later hworking hrequested
      obtain rfl := Option.some.inj hupdate
      exact h.put hk rfl (WorkingOrder.rest_update hworking hrequested)
    · exact absurd hupdate (by simp)
  | reject k =>
    obtain ⟨w, hk, hreject⟩ := Option.bind_eq_some_iff.mp hstep
    split at hreject
    · rename_i q later hrequested
      obtain rfl := Option.some.inj hreject
      exact h.put hk rfl (WorkingOrder.rest_reject hrequested)
    · exact absurd hreject (by simp)
  | cancel k =>
    obtain ⟨w, hk, rfl⟩ := Option.map_eq_some_iff.mp hstep
    exact h.put hk rfl WorkingOrder.rest_cancel

/-- **The position cap.**  In every run from a position within the cap whose lists, modifications
    and `MARKET_EXIT` orders fit, the position stays within the cap. -/
theorem position_within_cap {position : ℚ} {labels : List CapLabel}
    (hstart : |position| ≤ limits.maxPositionPerInstrument)
    (h : Path (capSystem limits instrument) (KeepsCap limits) (.initial position) labels t) :
    |t.position| ≤ limits.maxPositionPerInstrument := by
  have hinit : CapInv limits (.initial position) := by
    obtain ⟨hlow, hhigh⟩ := abs_le.mp hstart
    exact ⟨by simpa [CapState.initial] using hhigh, by simpa [CapState.initial] using hlow⟩
  exact (h.invariant (fun s a t hs hC hstep => hs.step hC hstep) hinit).position_le

end Cap

/-! ### One share too many -/

/-- At most a hundred shares. -/
def capLimits : RiskLimits := ⟨10000, 1000000, 100⟩

def aapl : InstrumentId := ⟨"AAPL", "NASDAQ"⟩

/-- The strategy of a backtest with limits, at a position. -/
def momentAt (position : ℚ) : Moment where
  strategy := ⟨some capLimits, false, none, none, true⟩
  portfolio := ⟨fun _ => some position, fun _ => [], fun _ => []⟩
  clock := fun _ => 0

/-- A market order. -/
def market (side : OrderSide) (quantity : ℚ) : Order :=
  ⟨"O-1", aapl, side, quantity, none, false, none⟩

/-- A bracket that is filled on one side, and an order whose quantity is raised within the cap. -/
def fittingRun : List CapLabel :=
  [.submitOrderList (momentAt 0) (.orderList [market .buy 60, market .sell 60]), .fill 0 60,
    .cancel 1, .submitOrder (momentAt 60) (market .buy 10),
    .modifyOrder (momentAt 60) 2 ⟨some 40, none⟩, .update 2, .fill 2 40]

/-- The run ends at the cap. -/
theorem position_within_cap_fitting :
    |(0 : ℚ)| ≤ capLimits.maxPositionPerInstrument ∧
      ∃ t, Path (capSystem capLimits aapl) (KeepsCap capLimits) (.initial 0) fittingRun t ∧
        |t.position| ≤ capLimits.maxPositionPerInstrument := by
  have hrun : ((capSystem capLimits aapl).runWhere (KeepsCap capLimits) (.initial 0)
      fittingRun).isSome = true := by decide +kernel
  obtain ⟨t, ht⟩ := Option.isSome_iff_exists.mp hrun
  have hstart : |(0 : ℚ)| ≤ capLimits.maxPositionPerInstrument := by decide +kernel
  exact ⟨hstart, t, Path.of_runWhere ht, position_within_cap hstart (Path.of_runWhere ht)⟩

/-- An order for ten shares, raised to a hundred and fifty. -/
def modifyRun : List CapLabel :=
  [.submitOrder (momentAt 0) (market .buy 10), .modifyOrder (momentAt 0) 0 ⟨some 150, none⟩,
    .update 0, .fill 0 150]

/-- A list of two orders for a hundred shares each. -/
def listRun : List CapLabel :=
  [.submitOrderList (momentAt 0) (.orderList [market .buy 100, market .buy 100]), .fill 0 100,
    .fill 1 100]

/-- Both runs leave the cap behind: the gate has projected ten shares in the first, and a hundred
    twice in the second. -/
theorem position_within_cap_fails :
    (∃ t, Path (capSystem capLimits aapl) anyStep (.initial 0) modifyRun t ∧
      capLimits.maxPositionPerInstrument < |t.position|) ∧
    ∃ t, Path (capSystem capLimits aapl) anyStep (.initial 0) listRun t ∧
      capLimits.maxPositionPerInstrument < |t.position| := by
  have hbreaks : ∀ labels, (((capSystem capLimits aapl).run (.initial 0) labels).any fun t =>
      decide (capLimits.maxPositionPerInstrument < |t.position|)) = true →
      ∃ t, Path (capSystem capLimits aapl) anyStep (.initial 0) labels t ∧
        capLimits.maxPositionPerInstrument < |t.position| := by
    intro labels h
    obtain ⟨t, ht, hover⟩ := (Option.any_eq_true ..).mp h
    exact ⟨t, Path.of_run ht, of_decide_eq_true hover⟩
  exact ⟨hbreaks _ (by decide +kernel), hbreaks _ (by decide +kernel)⟩

end Msai.Risk
