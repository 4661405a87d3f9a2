import Mathlib.Algebra.Order.Floor.Ring
import Mathlib.Data.Rat.Floor
import Mathlib.Tactic.Linarith

namespace Msai.Live.TradePnl

/-!
# The PnL of a closing order (`services/nautilus/audit_hook.py`, `models/trade.py`)

`write_trade_fill` records every fill of an order as a row of `trades`, and `update_trade_pnl`
writes what a position has realized to the rows of the order that closed it.

* `amountColumn` — the column `Numeric(18, 8)`;
* `writeTradeFill`, `updateTradePnl` — the two transactions;
* `Lands` — the PnL is on the most recent fill of the order, and nowhere else;
* `lands_iff` — it is where the order has one fill.

A transaction that raises leaves the table as it was.
-/

/-! ### Rows -/

/-- `Numeric(18, 8)`, in units of the last place: a tie is rounded away from zero, and `none` is an
    overflow. -/
def amountColumn (x : ℚ) : Option ℤ :=
  let units := if 0 ≤ x then ⌊x * 10 ^ 8 + 1 / 2⌋ else -⌊-x * 10 ^ 8 + 1 / 2⌋
  if |units| < 10 ^ 18 then some units else none

/-- `TradeFillFacts`, with the time in microseconds. -/
structure TradeFillFacts (Uuid : Type) where
  brokerTradeId : String
  clientOrderId : String
  deploymentId : Uuid
  strategyId : Uuid
  strategyCodeHash : String
  instrument : String
  side : String
  quantity : ℚ
  price : ℚ
  commission : Option ℚ
  executedAt : ℤ

/-- `ck_trade_source`: a trade is of a backtest or of a deployment. -/
inductive TradeSource (Uuid : Type)
  | backtest (backtestId : Uuid)
  | deployment (deploymentId : Uuid)
deriving DecidableEq, Repr

/-- A `trades` row. -/
structure Trade (Uuid : Type) where
  id : Uuid
  source : TradeSource Uuid
  strategyId : Uuid
  strategyCodeHash : String
  instrument : String
  side : String
  quantity : ℤ
  price : ℤ
  commission : Option ℤ
  brokerTradeId : Option String
  clientOrderId : Option String
  pnl : Option ℤ
  isLive : Bool
  executedAt : ℤ
deriving DecidableEq, Repr

inductive TradeError
  /-- `DataError`: a value does not fit its column. -/
  | dataError
  /-- `MultipleResultsFound`, by `scalar_one_or_none`. -/
  | multipleResultsFound
deriving DecidableEq, Repr

/-! ### Transactions -/

section Transactions

variable {Uuid : Type} [DecidableEq Uuid] (trades : List (Trade Uuid))

/-- The texts fit their columns. -/
def TradeFillFacts.textsFit (facts : TradeFillFacts Uuid) : Bool :=
  decide (facts.strategyCodeHash.length ≤ 64) && decide (facts.instrument.length ≤ 100) &&
    decide (facts.side.length ≤ 10) && decide (facts.brokerTradeId.length ≤ 64) &&
    decide (facts.clientOrderId.length ≤ 128)

/-- The row of a fill, under a new id. -/
def TradeFillFacts.row (facts : TradeFillFacts Uuid) (id : Uuid) : Option (Trade Uuid) :=
  if !facts.textsFit then none
  else
    match amountColumn facts.quantity, amountColumn facts.price,
      facts.commission.map amountColumn with
    | some quantity, some price, commission =>
      if commission = some none then none
      else
        some
          { id := id, source := .deployment facts.deploymentId, strategyId := facts.strategyId
            strategyCodeHash := facts.strategyCodeHash, instrument := facts.instrument
            side := facts.side, quantity := quantity, price := price
            commission := commission.join, brokerTradeId := some facts.brokerTradeId
            clientOrderId := some facts.clientOrderId, pnl := none, isLive := true
            executedAt := facts.executedAt }
    | _, _, _ => none

/-- `write_trade_fill`: the table behind it, and what it returns. -/
def writeTradeFill (facts : TradeFillFacts Uuid) (id : Uuid) :
    List (Trade Uuid) × Except TradeError Bool :=
  match facts.row id with
  | none => (trades, .error .dataError)
  | some row =>
    -- `ON CONFLICT DO NOTHING` on `ix_trades_broker_trade_id_deployment`
    if trades.any fun t => decide (t.source = row.source ∧ t.brokerTradeId = row.brokerTradeId) then
      (trades, .ok false)
    else (trades ++ [row], .ok true)

/-- The fills of an order, each under a new id. -/
def recordFills (trades : List (Trade Uuid)) :
    List (TradeFillFacts Uuid × Uuid) → List (Trade Uuid)
  | [] => trades
  | f :: rest => recordFills (writeTradeFill trades f.1 f.2).1 rest

/-- The predicate of the UPDATE. -/
def Trade.isFill (deploymentId : Uuid) (closingOrderId : String) (t : Trade Uuid) : Bool :=
  decide (t.source = .deployment deploymentId ∧ t.clientOrderId = some closingOrderId)

/-- The rows that the UPDATE matches. -/
def fills (deploymentId : Uuid) (closingOrderId : String) : List (Trade Uuid) :=
  trades.filter (Trade.isFill deploymentId closingOrderId)

/-- The UPDATE. -/
def setPnl (deploymentId : Uuid) (closingOrderId : String) (pnl : ℤ) : List (Trade Uuid) :=
  trades.map fun t =>
    if t.isFill deploymentId closingOrderId then { t with pnl := some pnl } else t

/-- `update_trade_pnl`: the table behind it, and what it returns. -/
def updateTradePnl (closingOrderId : String) (deploymentId : Uuid) (realizedPnl : ℚ) :
    List (Trade Uuid) × Except TradeError Bool :=
  match amountColumn realizedPnl with
  | none => (trades, .error .dataError)
  | some pnl =>
    match fills trades deploymentId closingOrderId with
    | [] => (setPnl trades deploymentId closingOrderId pnl, .ok false)
    | [_] => (setPnl trades deploymentId closingOrderId pnl, .ok true)
    -- the exception leaves `session.begin()`, which rolls back
    | _ => (trades, .error .multipleResultsFound)

end Transactions

/-! ### The column -/

/-- An amount is a value of the column. -/
def FitsColumn (x : ℚ) : Prop := ∃ units : ℤ, |units| < 10 ^ 18 ∧ x = units / 10 ^ 8

/-- The amount that a row has. -/
def recorded (pnl : Option ℤ) : ℚ := pnl.elim 0 fun units => units / 10 ^ 8

/-- A number of units and a half is rounded down to the units. -/
theorem floor_add_half (n : ℤ) : ⌊(n : ℚ) + 1 / 2⌋ = n := by
  rw [Int.floor_intCast_add]
  norm_num

/-- A value of the column is kept. -/
theorem amountColumn_units {units : ℤ} (h : |units| < 10 ^ 18) :
    amountColumn (units / 10 ^ 8) = some units := by
  have hscale : (units : ℚ) / 10 ^ 8 * 10 ^ 8 = units := by
    field_simp
  have hunits : (if (0 : ℚ) ≤ units / 10 ^ 8 then ⌊(units : ℚ) / 10 ^ 8 * 10 ^ 8 + 1 / 2⌋
      else -⌊-((units : ℚ) / 10 ^ 8) * 10 ^ 8 + 1 / 2⌋) = units := by
    split
    · rw [hscale, floor_add_half]
    · have hneg := floor_add_half (-units)
      rw [Int.cast_neg] at hneg
      rw [neg_mul, hscale, hneg, neg_neg]
  simp only [amountColumn, hunits, if_pos h]

/-- **The column keeps** its own values, and no others. -/
theorem recorded_amountColumn {x : ℚ} {units : ℤ} (hcolumn : amountColumn x = some units) :
    recorded (some units) = x ↔ FitsColumn x := by
  constructor
  · intro hx
    refine ⟨units, ?_, hx.symm⟩
    obtain ⟨hlt, hunits⟩ := Option.ite_none_right_eq_some.mp hcolumn
    rwa [Option.some.inj hunits] at hlt
  · rintro ⟨n, hn, rfl⟩
    rw [amountColumn_units hn] at hcolumn
    rw [← Option.some.inj hcolumn]
    rfl

/-! ### Fills -/

section Fills

variable {Uuid : Type} [DecidableEq Uuid] {trades : List (Trade Uuid)} {deploymentId : Uuid}
  {closingOrderId : String} {realizedPnl : ℚ} {pnl : ℤ}

/-- The PnL is not what a fill is known by. -/
theorem isFill_set (t : Trade Uuid) :
    ({ t with pnl := some pnl } : Trade Uuid).isFill deploymentId closingOrderId =
      t.isFill deploymentId closingOrderId := rfl

/-- The rows of other orders are left alone. -/
theorem setPnl_eq_self (pnl : ℤ)
    (h : ∀ t ∈ trades, t.isFill deploymentId closingOrderId = false) :
    setPnl trades deploymentId closingOrderId pnl = trades := by
  unfold setPnl
  conv_rhs => rw [← List.map_id trades]
  refine List.map_congr_left fun t ht => ?_
  rw [h t ht]
  rfl

/-- A single fill, and the rows around it. -/
theorem fills_singleton (h : (fills trades deploymentId closingOrderId).length = 1) :
    ∃ before t after, trades = before ++ t :: after ∧
      t.isFill deploymentId closingOrderId = true ∧
      (∀ x ∈ before, x.isFill deploymentId closingOrderId = false) ∧
      ∀ x ∈ after, x.isFill deploymentId closingOrderId = false := by
  obtain ⟨t, ht⟩ := List.length_eq_one_iff.mp h
  obtain ⟨before, after, hsplit, hbefore, hfill, hafter⟩ := List.filter_eq_cons_iff.mp ht
  refine ⟨before, t, after, hsplit, hfill, fun x hx => ?_, fun x hx => ?_⟩
  · exact Bool.eq_false_iff.mpr (hbefore x hx)
  · exact Bool.eq_false_iff.mpr (List.filter_eq_nil_iff.mp hafter x hx)

/-- The UPDATE, where one row is a fill. -/
theorem setPnl_append_cons {before after : List (Trade Uuid)} {t : Trade Uuid}
    (hfill : t.isFill deploymentId closingOrderId = true)
    (hbefore : ∀ x ∈ before, x.isFill deploymentId closingOrderId = false)
    (hafter : ∀ x ∈ after, x.isFill deploymentId closingOrderId = false) :
    setPnl (before ++ t :: after) deploymentId closingOrderId pnl =
      before ++ { t with pnl := some pnl } :: after := by
  have hb := setPnl_eq_self pnl hbefore
  have ha := setPnl_eq_self pnl hafter
  unfold setPnl at hb ha ⊢
  rw [List.map_append, List.map_cons, hb, ha, if_pos hfill]

/-- **Two fills or more**: `update_trade_pnl` raises, and no row has the PnL. -/
theorem updateTradePnl_many (h : 1 < (fills trades deploymentId closingOrderId).length) :
    (updateTradePnl trades closingOrderId deploymentId realizedPnl).1 = trades ∧
      ∃ e, (updateTradePnl trades closingOrderId deploymentId realizedPnl).2 = .error e := by
  unfold updateTradePnl
  cases amountColumn realizedPnl with
  | none => exact ⟨rfl, .dataError, rfl⟩
  | some pnl =>
    match hfills : fills trades deploymentId closingOrderId, h with
    | _ :: _ :: _, _ => exact ⟨rfl, .multipleResultsFound, rfl⟩

/-- It returns `True` for one fill, and an amount that does not overflow. -/
theorem updateTradePnl_true :
    (updateTradePnl trades closingOrderId deploymentId realizedPnl).2 = .ok true ↔
      (fills trades deploymentId closingOrderId).length = 1 ∧
        (amountColumn realizedPnl).isSome = true := by
  unfold updateTradePnl
  cases amountColumn realizedPnl with
  | none => simp
  | some pnl =>
    match fills trades deploymentId closingOrderId with
    | [] => simp
    | [_] => simp
    | _ :: _ :: _ => simp

/-- **The PnL lands**: the update succeeds, it changes one row, which is the most recent fill of
    the order, and the fills of the order add up to it. -/
structure Lands (trades : List (Trade Uuid)) (closingOrderId : String) (deploymentId : Uuid)
    (realizedPnl : ℚ) : Prop where
  succeeds : (updateTradePnl trades closingOrderId deploymentId realizedPnl).2 = .ok true
  latest : ∃ before t after pnl, trades = before ++ t :: after ∧
    t.isFill deploymentId closingOrderId = true ∧
    (∀ x ∈ fills trades deploymentId closingOrderId, x.executedAt ≤ t.executedAt) ∧
    (updateTradePnl trades closingOrderId deploymentId realizedPnl).1 =
      before ++ { t with pnl := some pnl } :: after
  total : ((fills (updateTradePnl trades closingOrderId deploymentId realizedPnl).1 deploymentId
    closingOrderId).map fun x => recorded x.pnl).sum = realizedPnl

/-- The fills, where one row is a fill. -/
theorem fills_append_cons {before after : List (Trade Uuid)} {t : Trade Uuid}
    (hfill : t.isFill deploymentId closingOrderId = true)
    (hbefore : ∀ x ∈ before, x.isFill deploymentId closingOrderId = false)
    (hafter : ∀ x ∈ after, x.isFill deploymentId closingOrderId = false) :
    fills (before ++ t :: after) deploymentId closingOrderId = [t] := by
  have hb : before.filter (Trade.isFill deploymentId closingOrderId) = [] :=
    List.filter_eq_nil_iff.mpr fun x hx => by simp [hbefore x hx]
  have ha : after.filter (Trade.isFill deploymentId closingOrderId) = [] :=
    List.filter_eq_nil_iff.mpr fun x hx => by simp [hafter x hx]
  rw [fills, List.filter_append, List.filter_cons_of_pos hfill, hb, ha, List.nil_append]

/-- **One fill**: the table behind the update, row by row. -/
theorem updateTradePnl_one (hlength : (fills trades deploymentId closingOrderId).length = 1)
    (hcolumn : amountColumn realizedPnl = some pnl) :
    ∃ before t after, trades = before ++ t :: after ∧
      t.isFill deploymentId closingOrderId = true ∧
      fills trades deploymentId closingOrderId = [t] ∧
      (updateTradePnl trades closingOrderId deploymentId realizedPnl).1 =
        before ++ { t with pnl := some pnl } :: after ∧
      fills (updateTradePnl trades closingOrderId deploymentId realizedPnl).1 deploymentId
        closingOrderId = [{ t with pnl := some pnl }] := by
  obtain ⟨before, t, after, rfl, hfill, hbefore, hafter⟩ := fills_singleton hlength
  have hfills := fills_append_cons hfill hbefore hafter
  have htable : (updateTradePnl (before ++ t :: after) closingOrderId deploymentId realizedPnl).1 =
      before ++ { t with pnl := some pnl } :: after := by
    unfold updateTradePnl
    rw [hcolumn]
    dsimp only
    rw [hfills]
    exact setPnl_append_cons hfill hbefore hafter
  refine ⟨before, t, after, rfl, hfill, hfills, htable, ?_⟩
  rw [htable]
  exact fills_append_cons ((isFill_set t).trans hfill) hbefore hafter

/-- **Where the PnL lands**: the order has one fill, and the amount is one of the column. -/
theorem lands_iff : Lands trades closingOrderId deploymentId realizedPnl ↔
    (fills trades deploymentId closingOrderId).length = 1 ∧ FitsColumn realizedPnl := by
  constructor
  · intro h
    obtain ⟨hlength, hsome⟩ := updateTradePnl_true.mp h.succeeds
    obtain ⟨pnl, hcolumn⟩ := Option.isSome_iff_exists.mp hsome
    obtain ⟨before, t, after, _, _, _, _, hfills⟩ := updateTradePnl_one hlength hcolumn
    have htotal := h.total
    rw [hfills, List.map_singleton, List.sum_singleton] at htotal
    exact ⟨hlength, (recorded_amountColumn hcolumn).mp htotal⟩
  · rintro ⟨hlength, hfits⟩
    obtain ⟨units, hunits, hx⟩ := id hfits
    have hcolumn : amountColumn realizedPnl = some units := by
      rw [hx, amountColumn_units hunits]
    obtain ⟨before, t, after, hsplit, hfill, hone, htable, hfills⟩ :=
      updateTradePnl_one hlength hcolumn
    refine ⟨updateTradePnl_true.mpr ⟨hlength, by rw [hcolumn]; rfl⟩,
      ⟨before, t, after, units, hsplit, hfill, ?_, htable⟩, ?_⟩
    · intro x hx
      rw [hone, List.mem_singleton] at hx
      rw [hx]
    · rw [hfills, List.map_singleton, List.sum_singleton]
      exact (recorded_amountColumn hcolumn).mpr hfits

/-- A fill of an order, of one unit at a price. -/
def fillOf (brokerTradeId : String) (price : ℚ) (executedAt : ℤ) : TradeFillFacts ℕ where
  brokerTradeId := brokerTradeId
  clientOrderId := "O-1"
  deploymentId := 7
  strategyId := 1
  strategyCodeHash := "engine-audit"
  instrument := "AAPL.NASDAQ"
  side := "SELL"
  quantity := 1
  price := price
  commission := none
  executedAt := executedAt

/-- An order of two fills: the update raises, and no row has a PnL. -/
theorem lands_fails :
    let trades := recordFills [] [(fillOf "T-1" 190 1, 101), (fillOf "T-2" 191 2, 102)]
    (fills trades 7 "O-1").length = 2 ∧
      updateTradePnl trades "O-1" 7 (25 / 2) = (trades, .error .multipleResultsFound) ∧
      ¬ Lands trades "O-1" 7 (25 / 2) := by
  intro trades
  have hraises : updateTradePnl trades "O-1" 7 (25 / 2) =
      (trades, .error .multipleResultsFound) := by decide +kernel
  refine ⟨by decide +kernel, hraises, fun h => ?_⟩
  have hok := h.succeeds
  rw [hraises] at hok
  cases hok

end Fills

end Msai.Live.TradePnl
