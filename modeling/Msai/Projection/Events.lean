import Mathlib.Data.Int.Notation
import Mathlib.Data.List.Basic

namespace Msai.Projection

/-!
# The events of the projection (`projection/events.py`, `projection/translator.py`)

The consumer decodes a message-bus entry to a plain dictionary and `translate` turns it into
one of the internal events.  A deployment is known by an id of type `ι`, and `Dec` is the type
of Python's `Decimal`; only what the code asks of it is assumed (a zero, a sum, equality).

* `Value`, `EventDict` — a decoded message;
* `InternalEvent` — the six event types;
* `translate` — the routing table with its decoders.  `.error` is a raised exception, `none`
  an unrouted topic.
-/

/-! ### Decoded messages -/

/-- A scalar of a decoded message. -/
inductive Value
  | null
  | int (n : ℤ)
  | text (s : String)
deriving DecidableEq, Repr

namespace Value

/-- Python's truth value. -/
def isTruthy : Value → Bool
  | .null => false
  | .int n => n != 0
  | .text s => s != ""

/-- `a or b`. -/
def orElse (a b : Value) : Value := if a.isTruthy then a else b

/-- `str(value)`. -/
def str : Value → String
  | .null => "None"
  | .int n => toString n
  | .text s => s

end Value

/-- A dictionary with scalar values. -/
abbrev Row := List (String × Value)

/-- `row.get(key)`. -/
def Row.get (row : Row) (key : String) : Value :=
  ((row.find? fun p => p.1 == key).map (·.2)).getD .null

/-- `str(row.get(key, ""))`. -/
def Row.getStr (row : Row) (key : String) : String :=
  ((row.find? fun p => p.1 == key).map (·.2.str)).getD ""

/-- A decoded event: its scalars, and the two arrays of an account state (`[]` when missing). -/
structure EventDict where
  fields : Row
  balances : List Row
  margins : List Row
deriving DecidableEq, Repr

/-- `event_dict.get(key) or event_dict.get(fallback)`. -/
def EventDict.getOr (d : EventDict) (key fallback : String) : Value :=
  (d.fields.get key).orElse (d.fields.get fallback)

/-! ### The internal events -/

variable {ι Dec : Type}

/-- Full position state for one instrument inside one deployment. -/
structure PositionSnapshot (ι Dec : Type) where
  deploymentId : ι
  instrumentId : String
  qty : Dec
  avgPrice : Dec
  unrealizedPnl : Dec
  realizedPnl : Dec
  ts : ℤ
deriving DecidableEq, Repr

/-- Side of a fill. -/
inductive Side
  | buy
  | sell
deriving DecidableEq, Repr

/-- Atomic fill notification. -/
structure FillEvent (ι Dec : Type) where
  deploymentId : ι
  clientOrderId : String
  instrumentId : String
  side : Side
  qty : Dec
  price : Dec
  commission : Dec
  ts : ℤ
deriving DecidableEq, Repr

/-- `OrderStatusChange.status`. -/
inductive OrderStatus
  | submitted
  | accepted
  | filled
  | partiallyFilled
  | cancelled
  | rejected
  | denied
deriving DecidableEq, Repr

/-- Order state-machine transition. -/
structure OrderStatusChange (ι : Type) where
  deploymentId : ι
  clientOrderId : String
  status : OrderStatus
  reason : Option String
  ts : ℤ
deriving DecidableEq, Repr

/-- Broker account snapshot. -/
structure AccountStateUpdate (ι Dec : Type) where
  deploymentId : ι
  accountId : String
  balance : Dec
  marginUsed : Dec
  marginAvailable : Dec
  ts : ℤ
deriving DecidableEq, Repr

/-- Kill switch fired. -/
structure RiskHaltEvent (ι : Type) where
  deploymentId : ι
  reason : String
  setAt : ℤ
deriving DecidableEq, Repr

/-- Row status change on the supervisor's side. -/
structure DeploymentStatusEvent (ι : Type) where
  deploymentId : ι
  status : String
  ts : ℤ
deriving DecidableEq, Repr

/-- `InternalEvent`. -/
inductive InternalEvent (ι Dec : Type)
  | position (e : PositionSnapshot ι Dec)
  | fill (e : FillEvent ι Dec)
  | orderStatus (e : OrderStatusChange ι)
  | accountState (e : AccountStateUpdate ι Dec)
  | riskHalt (e : RiskHaltEvent ι)
  | deploymentStatus (e : DeploymentStatusEvent ι)
deriving DecidableEq, Repr

/-- The deployment an event belongs to. -/
def InternalEvent.deploymentId : InternalEvent ι Dec → ι
  | .position e => e.deploymentId
  | .fill e => e.deploymentId
  | .orderStatus e => e.deploymentId
  | .accountState e => e.deploymentId
  | .riskHalt e => e.deploymentId
  | .deploymentStatus e => e.deploymentId

/-! ### The translator -/

section Translate

/-- `Decimal(str(value))`, and the clock for a missing timestamp. -/
structure Coercion (Dec : Type) where
  decimal : String → Option Dec
  now : ℤ

variable [Zero Dec] [Add Dec] (c : Coercion Dec)

/-- `_decimal`. -/
def toDecimal : Value → Except String Dec
  | .null => .ok 0
  | v =>
    match c.decimal v.str with
    | some x => .ok x
    | none => .error "decimal.InvalidOperation"

/-- `_ts_ns_to_dt`, in nanoseconds. -/
def toTs : Value → Except String ℤ
  | .null => .ok c.now
  | .int n => .ok n
  | .text s =>
    if s = "" then .ok c.now
    else match s.toInt? with
      | some n => .ok n
      | none => .error "ValueError: invalid literal for int()"

/-- The timestamp of an event. -/
def EventDict.ts (d : EventDict) : Except String ℤ := toTs c (d.getOr "ts_event" "ts_init")

/-- `_translate_position`. -/
def translatePosition (d : EventDict) (id : ι) : Except String (InternalEvent ι Dec) := do
  return .position
    { deploymentId := id
      instrumentId := d.fields.getStr "instrument_id"
      qty := ← toDecimal c (d.getOr "quantity" "net_qty")
      avgPrice := ← toDecimal c (d.getOr "avg_px_open" "avg_price")
      unrealizedPnl := ← toDecimal c (d.fields.get "unrealized_pnl")
      realizedPnl := ← toDecimal c (d.fields.get "realized_pnl")
      ts := ← d.ts c }

/-- The side of a fill, from `order_side` or `side`. -/
def EventDict.side (d : EventDict) : Except String Side :=
  let v := d.getOr "order_side" "side"
  let raw := (if v.isTruthy then v.str else "").map Char.toUpper
  if raw = "BUY" then .ok .buy
  else if raw = "SELL" then .ok .sell
  else .error ("unrecognized fill side: '" ++ raw ++ "'")

/-- `_translate_fill`. -/
def translateFill (d : EventDict) (id : ι) : Except String (InternalEvent ι Dec) := do
  let side ← d.side
  return .fill
    { deploymentId := id
      clientOrderId := d.fields.getStr "client_order_id"
      instrumentId := d.fields.getStr "instrument_id"
      side := side
      qty := ← toDecimal c (d.getOr "last_qty" "quantity")
      price := ← toDecimal c (d.getOr "last_px" "price")
      commission := ← toDecimal c (d.fields.get "commission")
      ts := ← d.ts c }

/-- `_ORDER_STATUS_BY_TOPIC`. -/
def orderStatusByTopic (topic : String) : Option OrderStatus :=
  if topic = "events.order.submitted" then some .submitted
  else if topic = "events.order.accepted" then some .accepted
  else if topic = "events.order.partially_filled" then some .partiallyFilled
  else if topic = "events.order.cancelled" then some .cancelled
  else if topic = "events.order.canceled" then some .cancelled
  else if topic = "events.order.rejected" then some .rejected
  else if topic = "events.order.denied" then some .denied
  else none

/-- `_translate_order_status`; an unknown order topic is not routed. -/
def translateOrderStatus (topic : String) (d : EventDict) (id : ι) :
    Except String (Option (InternalEvent ι Dec)) :=
  match orderStatusByTopic topic with
  | none => .ok none
  | some status => do
    let reason := d.fields.get "reason"
    return some (.orderStatus
      { deploymentId := id
        clientOrderId := d.fields.getStr "client_order_id"
        status := status
        reason := if reason.isTruthy then some reason.str else none
        ts := ← d.ts c })

/-- The margin in use: the sum over the margin rows, or what the first balance has locked. -/
def EventDict.marginUsed (d : EventDict) : Except String Dec :=
  match d.margins, d.balances with
  | [], first :: _ => toDecimal c (first.get "locked")
  | margins, _ => margins.foldlM (fun acc m => do return acc + (← toDecimal c (m.get "initial"))) 0

/-- `_translate_account_state`. -/
def translateAccountState (d : EventDict) (id : ι) : Except String (InternalEvent ι Dec) := do
  let first := d.balances.head?
  return .accountState
    { deploymentId := id
      accountId := d.fields.getStr "account_id"
      balance := ← toDecimal c ((first.map (·.get "total")).getD .null)
      marginUsed := ← d.marginUsed c
      marginAvailable := ← toDecimal c ((first.map (·.get "free")).getD .null)
      ts := ← d.ts c }

/-- `str.startswith`. -/
def startsWith (s pre : String) : Bool := pre.toList.isPrefixOf s.toList

/-- `str.endswith`. -/
def endsWith (s suf : String) : Bool := suf.toList.isSuffixOf s.toList

/-- `translate`: the routing table. -/
def translate (topic : String) (d : EventDict) (id : ι) :
    Except String (Option (InternalEvent ι Dec)) :=
  if startsWith topic "events.position." then (translatePosition c d id).map some
  else if topic = "events.order.filled" then (translateFill c d id).map some
  else if startsWith topic "events.order." then translateOrderStatus c topic d id
  else if topic = "events.account.state" then (translateAccountState c d id).map some
  else .ok none

end Translate

end Msai.Projection
