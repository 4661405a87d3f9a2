import Mathlib.Tactic.Linarith
import Msai.Lib.Transition
import Msai.Risk.RiskAwareStrategy

namespace Msai.Risk

open Lib TransitionSystem

/-!
# The exposure cap of a venue (`services/nautilus/risk/risk_aware_strategy.py`)

The suite adds the notional of a priced order to the exposures that the portfolio reports for the
venue.  If it reports none, the order is not looked at: the first order on a venue is free.

* `WithinExposure` — what an admitted order satisfies;
* `ReadsExposure`, `OtherwiseRefused`, `ExposureSeen` — the conditions under which it does;
* `all_withinExposure_iff` — for all orders on an instrument;
* `exposureSystem` — priced orders, one filled after the other, while the marks stand still;
* `KeepsExposure` — the condition on a run;
* `exposure_capped` — for one order, for all on an instrument, and for runs.
-/

section Suite

variable (s : Strategy) (limits : RiskLimits) (p : Portfolio) (order : Order)

/-- The venue with the order is within the cap. -/
def WithinExposure : Prop :=
  total (p.netExposures order.instrumentId.venue) + orderNotional order ≤
    limits.maxNotionalExposureUsd

instance : Decidable (WithinExposure limits p order) := inferInstanceAs (Decidable (_ ≤ _))

/-- The suite reads the exposure of a venue. -/
def ReadsExposure (venue : String) : Prop := s.usdCurrency = true ∧ p.netExposures venue ≠ []

instance (venue : String) : Decidable (ReadsExposure s p venue) :=
  inferInstanceAs (Decidable (_ ∧ _))

/-- A check other than that of the exposure refuses the order. -/
def OtherwiseRefused : Prop :=
  checkPositionLimit limits p order = false ∨ checkDailyLossLimit s limits p order = false ∨
    checkMarketHours s order = false

instance : Decidable (OtherwiseRefused s limits p order) := inferInstanceAs (Decidable (_ ∨ _))

/-- The suite looks at the exposure, or need not: the order is within the cap, or one of the other
    checks refuses it. -/
def ExposureSeen : Prop :=
  ReadsExposure s p order.instrumentId.venue ∨ WithinExposure limits p order ∨
    OtherwiseRefused s limits p order

instance : Decidable (ExposureSeen s limits p order) := inferInstanceAs (Decidable (_ ∨ _))

end Suite

/-! ### One order after the other -/

/-- What the portfolio reports for each venue. -/
abbrev Exposures := String → List (String × ℚ)

/-- A call of `submit_order` for a priced order, and what becomes of the order if it is sent. -/
structure PricedTrade where
  strategy : Strategy
  netPosition : InstrumentId → Option ℚ
  totalPnls : String → List (String × ℚ)
  now : ℚ
  order : Order
  price : ℚ
  fillPrice : ℚ
  /-- The map of the venue after the fill. -/
  after : List (String × ℚ)

section System

variable (limits : RiskLimits) (e : Exposures) (a : PricedTrade)

/-- What the gate reads. -/
def PricedTrade.portfolio : Portfolio := ⟨a.netPosition, a.totalPnls, e⟩

/-- The limits are wired, and the order opens a position at a price.  It is filled no worse than
    that, and while the marks stand still the exposure of the venue grows by at most the notional of
    the fill. -/
def PricedTrade.Valid : Prop :=
  a.strategy.riskLimits = some limits ∧ isReduceOnlyOrFlatten a.order = false ∧
    a.order.price = some a.price ∧ 0 ≤ a.order.quantity ∧
    (if a.order.side = .sell then a.price ≤ a.fillPrice else a.fillPrice ≤ a.price) ∧
    total a.after ≤ total (e a.order.instrumentId.venue) + a.order.quantity * a.fillPrice

instance : Decidable (a.Valid limits e) := inferInstanceAs (Decidable (_ ∧ _))

/-- The order is sent and filled, or refused. -/
def exposureStep : Option Exposures :=
  if a.Valid limits e then
    match submitOrder a.strategy (a.portfolio e) a.order a.now with
    | none => some e
    | some _ => some (Function.update e a.order.instrumentId.venue a.after)
  else none

/-- Priced orders, each submitted after the one before was filled. -/
def exposureSystem : TransitionSystem Exposures PricedTrade := ⟨exposureStep limits⟩

/-- The suite looks at the exposure or need not, and a sell is filled at its limit. -/
def KeepsExposure : Prop :=
  ExposureSeen a.strategy limits (a.portfolio e) a.order ∧
    (a.order.side = .sell → a.fillPrice ≤ a.price)

instance : Decidable (KeepsExposure limits e a) := inferInstanceAs (Decidable (_ ∧ _))

end System

/-! ### What the cap holds for -/

section Cap

variable {s : Strategy} {limits : RiskLimits} {p : Portfolio} {order : Order}
variable {e e' : Exposures} {a : PricedTrade}

/-- The exposure check, where it is made. -/
theorem checkExposureLimit_eq_true_iff :
    checkExposureLimit s limits p order = true ↔
      (ReadsExposure s p order.instrumentId.venue → WithinExposure limits p order) := by
  unfold checkExposureLimit ReadsExposure
  cases s.usdCurrency with
  | false => simp
  | true =>
    cases hmap : p.netExposures order.instrumentId.venue with
    | nil => simp
    | cons c cs => simp [withinExposureLimit, WithinExposure, hmap]

/-- What the suite admits. -/
theorem admitted_iff (hlimits : s.riskLimits = some limits) :
    (runRiskChecks s p order).allowed = true ↔
      ¬ OtherwiseRefused s limits p order ∧
        (ReadsExposure s p order.instrumentId.venue → WithinExposure limits p order) := by
  rw [runRiskChecks_allowed_iff hlimits, checkExposureLimit_eq_true_iff]
  simp only [OtherwiseRefused, not_or, Bool.not_eq_false]
  constructor
  · rintro ⟨hposition, hloss, hexposure, hhours⟩
    exact ⟨⟨hposition, hloss, hhours⟩, hexposure⟩
  · rintro ⟨⟨hposition, hloss, hhours⟩, hexposure⟩
    exact ⟨hposition, hloss, hexposure, hhours⟩

/-- **One order.**  What the suite admits is within the cap, exactly if it looks at the exposure or
    need not. -/
theorem admitted_withinExposure_iff (hlimits : s.riskLimits = some limits) :
    ((runRiskChecks s p order).allowed = true → WithinExposure limits p order) ↔
      ExposureSeen s limits p order := by
  rw [admitted_iff hlimits]
  constructor
  · intro h
    by_cases hreads : ReadsExposure s p order.instrumentId.venue
    · exact Or.inl hreads
    · -- the check is skipped, so the others decide
      by_cases hrefused : OtherwiseRefused s limits p order
      · exact Or.inr (Or.inr hrefused)
      · exact Or.inr (Or.inl (h ⟨hrefused, fun hs => absurd hs hreads⟩))
  · rintro (hreads | hwithin | hrefused) ⟨hpasses, hexposure⟩
    · exact hexposure hreads
    · exact hwithin
    · exact absurd hrefused hpasses

/-- An opening order of a positive quantity at a positive price. -/
def Order.OpensAt (order : Order) (price : ℚ) : Prop :=
  0 < order.quantity ∧ 0 < price ∧ order.price = some price ∧ isReduceOnlyOrFlatten order = false

/-- **All orders on an instrument.**  The cap holds for them exactly if the suite reads the exposure
    of the venue, or the other checks refuse all of them. -/
theorem all_withinExposure_iff (hlimits : s.riskLimits = some limits) (instrument : InstrumentId) :
    (∀ (order : Order) (price : ℚ), order.instrumentId = instrument → order.OpensAt price →
      (runRiskChecks s p order).allowed = true → WithinExposure limits p order) ↔
      ReadsExposure s p instrument.venue ∨
        ∀ order : Order, order.instrumentId = instrument → 0 < order.quantity →
          OtherwiseRefused s limits p order := by
  constructor
  · intro h
    by_cases hreads : ReadsExposure s p instrument.venue
    · exact Or.inl hreads
    · refine Or.inr fun order hinstrument hquantity => ?_
      by_contra hpasses
      subst hinstrument
      -- the other checks do not see the price, so the order passes at any
      let room : ℚ :=
        limits.maxNotionalExposureUsd - total (p.netExposures order.instrumentId.venue)
      let price : ℚ := (|room| + 1) / order.quantity
      let priced : Order := { order with price := some price, isReduceOnly := false, tags := none }
      have hprice : 0 < price := div_pos (by positivity) hquantity
      have hadmitted : (runRiskChecks s p priced).allowed = true :=
        (admitted_iff hlimits).mpr ⟨hpasses, fun hs => absurd hs hreads⟩
      have hwithin : WithinExposure limits p priced :=
        h priced price rfl ⟨hquantity, hprice, rfl, rfl⟩ hadmitted
      have hnotional : orderNotional priced = |room| + 1 := mul_div_cancel₀ _ hquantity.ne'
      have hle : orderNotional priced ≤ room := le_sub_iff_add_le'.mpr hwithin
      rw [hnotional] at hle
      linarith [le_abs_self room]
  · rintro (hreads | hrefused) order price rfl ⟨hquantity, -⟩ hadmitted
    · exact ((admitted_iff hlimits).mp hadmitted).2 hreads
    · exact absurd (hrefused order rfl hquantity) ((admitted_iff hlimits).mp hadmitted).1

/-- An opening order that is sent has passed the suite. -/
theorem admitted_of_submitOrder {now : ℚ} {b : BaseCall}
    (hopening : isReduceOnlyOrFlatten order = false)
    (h : submitOrder s p order now = some b) : (runRiskChecks s p order).allowed = true := by
  have hpass : gateAllows s p order now = true := by
    unfold submitOrder at h
    cases hgate : gateAllows s p order now with
    | true => rfl
    | false =>
      rw [hgate] at h
      exact absurd h (by simp)
  rcases gateAllows_iff.mp hpass with hflatten | ⟨-, hchecks⟩
  · exact absurd (hopening.symm.trans hflatten) (by decide)
  · exact hchecks

/-- One trade under the condition. -/
theorem exposureStep_within (he : ∀ venue, total (e venue) ≤ limits.maxNotionalExposureUsd)
    (hC : KeepsExposure limits e a) (hstep : exposureStep limits e a = some e') (venue : String) :
    total (e' venue) ≤ limits.maxNotionalExposureUsd := by
  unfold exposureStep at hstep
  split at hstep
  · rename_i hvalid
    obtain ⟨hlimits, hopening, hprice, hquantity, hfill, hafter⟩ := hvalid
    split at hstep
    · rw [← Option.some.inj hstep]
      exact he venue
    · rename_i b hcall
      rw [← Option.some.inj hstep]
      by_cases hvenue : venue = a.order.instrumentId.venue
      · have hwithin : WithinExposure limits (a.portfolio e) a.order :=
          (admitted_withinExposure_iff hlimits).mpr hC.1 (admitted_of_submitOrder hopening hcall)
        have hle : a.fillPrice ≤ a.price := by
          by_cases hsell : a.order.side = .sell
          · exact hC.2 hsell
          · rwa [if_neg hsell] at hfill
        rw [hvenue, Function.update_self]
        calc total a.after
            ≤ total (e a.order.instrumentId.venue) + a.order.quantity * a.fillPrice := hafter
          _ ≤ total (e a.order.instrumentId.venue) + a.order.quantity * a.price := by
              have hnotional := mul_le_mul_of_nonneg_left hle hquantity
              linarith
          _ = total (e a.order.instrumentId.venue) + orderNotional a.order := by
              rw [orderNotional, hprice]
          _ ≤ limits.maxNotionalExposureUsd := hwithin
      · rw [Function.update_of_ne hvenue]
        exact he venue
  · exact absurd hstep (by simp)

/-- **The exposure cap.**  An admitted opening order with a price is within the cap exactly if the
    suite looks at the exposure or need not; all those on an instrument are exactly if it reads the
    exposure or refuses them for another reason; and every run from within the cap whose orders all
    meet the condition stays within it on every venue. -/
theorem exposure_capped (limits : RiskLimits) :
    (∀ (s : Strategy) (p : Portfolio) (order : Order) (price : ℚ),
      s.riskLimits = some limits → order.price = some price →
      isReduceOnlyOrFlatten order = false →
      (((runRiskChecks s p order).allowed = true →
          total (p.netExposures order.instrumentId.venue) + order.quantity * price ≤
            limits.maxNotionalExposureUsd) ↔
        ExposureSeen s limits p order)) ∧
    (∀ (s : Strategy) (p : Portfolio) (instrument : InstrumentId),
      s.riskLimits = some limits →
      ((∀ (order : Order) (price : ℚ), order.instrumentId = instrument → order.OpensAt price →
          (runRiskChecks s p order).allowed = true →
          total (p.netExposures order.instrumentId.venue) + order.quantity * price ≤
            limits.maxNotionalExposureUsd) ↔
        ReadsExposure s p instrument.venue ∨
          ∀ order : Order, order.instrumentId = instrument → 0 < order.quantity →
            OtherwiseRefused s limits p order)) ∧
    ∀ (e t : Exposures) (trades : List PricedTrade),
      (∀ venue, total (e venue) ≤ limits.maxNotionalExposureUsd) →
      Path (exposureSystem limits) (KeepsExposure limits) e trades t →
      ∀ venue, total (t venue) ≤ limits.maxNotionalExposureUsd := by
  have hnotional (order : Order) (price : ℚ) (h : order.price = some price) :
      order.quantity * price = orderNotional order := by rw [orderNotional, h]
  refine ⟨fun s p order price hlimits hprice _ => ?_, fun s p instrument hlimits => ?_,
    fun e t trades he h => ?_⟩
  · rw [hnotional order price hprice]
    exact admitted_withinExposure_iff hlimits
  · rw [← all_withinExposure_iff hlimits]
    refine forall₄_congr fun order price _ hopens => ?_
    rw [hnotional order price hopens.2.2.1]
    rfl
  · exact h.invariant
      (I := fun e : Exposures => ∀ venue, total (e venue) ≤ limits.maxNotionalExposureUsd)
      (fun e a e' he hC hstep => exposureStep_within he hC hstep) he

end Cap

/-! ### The first order, and a sell below the market -/

/-- At most a thousand dollars. -/
def exposureLimits : RiskLimits := ⟨10000, 1000, 10000⟩

/-- A hundred shares at a limit of `price`, filled at `fillPrice`. -/
def hundredShares (side : OrderSide) (price fillPrice before : ℚ) : PricedTrade where
  strategy := ⟨some exposureLimits, false, none, none, true⟩
  netPosition := fun _ => none
  totalPnls := fun _ => []
  now := 0
  order := ⟨"O-1", ⟨"AAPL", "NASDAQ"⟩, side, 100, some price, false, none⟩
  price := price
  fillPrice := fillPrice
  after := [("USD", before + 100 * fillPrice)]

/-- Two orders for four hundred dollars each. -/
theorem exposure_capped_two_orders :
    ∃ t, Path (exposureSystem exposureLimits) (KeepsExposure exposureLimits) (fun _ => [])
        [hundredShares .buy 4 4 0, hundredShares .buy 4 4 400] t ∧
      ∀ venue, total (t venue) ≤ exposureLimits.maxNotionalExposureUsd := by
  have hrun : ((exposureSystem exposureLimits).runWhere (KeepsExposure exposureLimits) (fun _ => [])
      [hundredShares .buy 4 4 0, hundredShares .buy 4 4 400]).isSome = true := by decide +kernel
  obtain ⟨t, ht⟩ := Option.isSome_iff_exists.mp hrun
  have hstart : ∀ venue, total ((fun _ => [] : Exposures) venue) ≤
      exposureLimits.maxNotionalExposureUsd := by
    intro venue
    show total [] ≤ exposureLimits.maxNotionalExposureUsd
    decide +kernel
  have hwithin := (exposure_capped exposureLimits).2.2 _ _ _ hstart (Path.of_runWhere ht)
  exact ⟨t, Path.of_runWhere ht, hwithin⟩

/-- On a venue without exposure the suite admits an order for two thousand dollars; and beside an
    exposure of one dollar it admits a sell for a hundred that is filled for two thousand. -/
theorem exposure_capped_fails :
    (∃ (p : Portfolio) (order : Order),
      (runRiskChecks (hundredShares .buy 20 20 0).strategy p order).allowed = true ∧
        order.price = some 20 ∧ exposureLimits.maxNotionalExposureUsd <
          total (p.netExposures order.instrumentId.venue) + order.quantity * 20) ∧
    (∃ t, Path (exposureSystem exposureLimits) anyStep (fun _ => [])
        [hundredShares .buy 20 20 0] t ∧
      exposureLimits.maxNotionalExposureUsd < total (t "NASDAQ")) ∧
    ∃ t, Path (exposureSystem exposureLimits) anyStep (fun _ => [("USD", 1)])
        [hundredShares .sell 1 20 1] t ∧
      exposureLimits.maxNotionalExposureUsd < total (t "NASDAQ") := by
  have hbreaks : ∀ e trades, (((exposureSystem exposureLimits).run e trades).any fun t =>
      decide (exposureLimits.maxNotionalExposureUsd < total (t "NASDAQ"))) = true →
      ∃ t, Path (exposureSystem exposureLimits) anyStep e trades t ∧
        exposureLimits.maxNotionalExposureUsd < total (t "NASDAQ") := by
    intro e trades h
    obtain ⟨t, ht, hover⟩ := (Option.any_eq_true ..).mp h
    exact ⟨t, Path.of_run ht, of_decide_eq_true hover⟩
  refine ⟨⟨(hundredShares .buy 20 20 0).portfolio fun _ => [], (hundredShares .buy 20 20 0).order,
    by decide +kernel, rfl, by decide +kernel⟩, hbreaks _ _ (by decide +kernel),
    hbreaks _ _ (by decide +kernel)⟩

end Msai.Risk
