import Msai.Instruments.LiveResolver
import Msai.Lib.Dict
import Msai.Lib.PyJson
import Msai.Lib.PyText

namespace Msai.Supervisor

open Msai.Lib Msai.Instruments

/-!
# The payload of a strategy member (`live_supervisor/__main__.py`)

The supervisor resolves the instruments of a member, and derives from the first of them what the
member's configuration does not say.

* `deriveConfig` — `instrument_id` and `bar_type` of the configuration;
* `memberPayload` — the member with its instruments and its configuration;
* `bar_type_iff` — when a derived bar type has the prices of its asset class.

`upper` is `str.upper`.
-/

/-! ### The configuration -/

/-- `_strip_venue_suffix`. -/
def stripVenueSuffix (instrument : String) : String :=
  ((rpartitionDot instrument).map Prod.fst).getD instrument

section Root

variable {text front suffix : String} {c : Char}

theorem stripVenueSuffix_append (h : '.' ∉ suffix.toList) :
    stripVenueSuffix (front ++ "." ++ suffix) = front := by
  rw [stripVenueSuffix, rpartitionDot_append h]
  rfl

theorem exists_stripVenueSuffix (h : '.' ∈ text.toList) :
    ∃ suffix, text = stripVenueSuffix text ++ "." ++ suffix ∧ '.' ∉ suffix.toList := by
  cases hsplit : rpartitionDot text with
  | none => exact absurd h (rpartitionDot_eq_none.mp hsplit)
  | some p =>
    obtain ⟨htext, hsuffix⟩ := rpartitionDot_eq_some.mp hsplit
    rw [stripVenueSuffix, hsplit]
    exact ⟨p.2, htext, hsuffix⟩

theorem mem_stripVenueSuffix (h : c ∈ (stripVenueSuffix text).toList) : c ∈ text.toList := by
  by_cases hdot : '.' ∈ text.toList
  · obtain ⟨suffix, htext, -⟩ := exists_stripVenueSuffix hdot
    rw [htext, String.toList_append, String.toList_append]
    exact List.mem_append_left _ (List.mem_append_left _ h)
  · rwa [stripVenueSuffix, rpartitionDot_eq_none.mpr hdot] at h

end Root

/-- The marks of `_is_fx`. -/
def fxMarks : List String := ["IDEALPRO", "CASH", "EUR", "GBP", "JPY", "AUD", "CHF"]

section Source

variable (upper : String → String)

/-- `_is_fx`. -/
def isFx (firstInst : String) : Bool :=
  fxMarks.any fun x => PyText.contains x.toList (upper firstInst).toList

/-- `f"{first_inst}-1-MINUTE-{_price_type}-EXTERNAL"`. -/
def barType (firstInst priceType : String) : String :=
  firstInst ++ "-1-MINUTE-" ++ priceType ++ "-EXTERNAL"

/-- `bool(value)`. -/
def isTruthy : Json → Bool
  | .null => false
  | .bool b => b
  | .num repr => repr ∉ ["0", "0.0", "-0.0"]
  | .str s => s ≠ ""
  | .arr items => !items.isEmpty
  | .obj fields => !fields.isEmpty

/-- `d.setdefault(k, v)`. -/
def setDefault (config : Dict String Json) (key : String) (value : Json) : Dict String Json :=
  match Dict.get config key with
  | some _ => config
  | none => config.set key value

/-- What the factory writes into `member_config`; `none` is the `AttributeError` of a bar type that
    is not a text. -/
def deriveConfig (config : Dict String Json) (firstUserInst firstInst : String) :
    Option (Dict String Json) :=
  let priceType := if isFx upper firstInst then "MID" else "LAST"
  if stripVenueSuffix firstUserInst ≠ stripVenueSuffix firstInst then
    let config := config.set "instrument_id" (.str firstInst)
    match Dict.get config "bar_type" with
    | none => some (config.set "bar_type" (.str (barType firstInst priceType)))
    | some existing =>
      if !isTruthy existing then
        some (config.set "bar_type" (.str (barType firstInst priceType)))
      else
        match existing with
        | .str existing =>
          if PyText.startsWith existing (firstUserInst ++ "-") then
            some (config.set "bar_type" (.str (firstInst
              ++ String.ofList (existing.toList.drop firstUserInst.length))))
          else some config
        | _ => none
  else
    let config := setDefault config "instrument_id" (.str firstInst)
    some (setDefault config "bar_type" (.str (barType firstInst priceType)))

/-! ### The payload -/

/-- What the factory reads of a member. -/
structure StrategyMember where
  config : Option (Dict String Json)
  instruments : List String

/-- `StrategyMemberPayload`, without the strategy. -/
structure MemberPayload where
  strategyConfig : Dict String Json
  instruments : List String
  resolvedInstruments : List ResolvedInstrument

inductive PayloadError
  /-- `ValueError`: the member has no instruments. -/
  | noInstruments
  | lookup (error : LiveResolverError)
  /-- `AttributeError`. -/
  | barTypeNotText
deriving DecidableEq, Repr

/-- The body of the loop over the members. -/
def memberPayload (s : Registry) (spawnToday : ℕ) (member : StrategyMember) :
    Except PayloadError MemberPayload :=
  match member.instruments with
  | [] => .error .noInstruments
  | firstUserInst :: _ =>
    match lookupForLive s member.instruments spawnToday .interactiveBrokers none with
    | .error e => .error (.lookup e)
    | .ok resolved =>
      let config := member.config.getD []
      let derived := match resolved with
        | [] => some config
        | first :: _ => deriveConfig upper config firstUserInst first.canonicalId
      match derived with
      | none => .error .barTypeNotText
      | some config =>
        .ok
          { strategyConfig := config
            instruments := member.instruments.map stripVenueSuffix
            resolvedInstruments := resolved }

end Source

/-! ### Bar types -/

section BarTypes

variable {upper : String → String} {config : Dict String Json} {firstUserInst firstInst : String}

theorem get_setDefault_new {k : String} {v : Json} (h : Dict.get config k = none) :
    Dict.get (setDefault config k v) k = some v := by
  unfold setDefault
  rw [h]
  exact Dict.get_set.trans (if_pos rfl)

theorem get_setDefault_other {k k' : String} {v : Json} (h : k ≠ k') :
    Dict.get (setDefault config k v) k' = Dict.get config k' := by
  unfold setDefault
  cases Dict.get config k with
  | some _ => rfl
  | none => exact Dict.get_set.trans (if_neg h)

/-- **A bar type that is not configured** is derived from the instrument, on both branches. -/
theorem deriveConfig_barType (h : Dict.get config "bar_type" = none) :
    ∃ config', deriveConfig upper config firstUserInst firstInst = some config' ∧
      Dict.get config' "bar_type"
        = some (.str (barType firstInst (if isFx upper firstInst then "MID" else "LAST"))) := by
  unfold deriveConfig
  dsimp only
  split
  · have hkept : Dict.get (config.set "instrument_id" (.str firstInst)) "bar_type" = none :=
      Dict.get_set.trans ((if_neg (by decide)).trans h)
    rw [hkept]
    exact ⟨_, rfl, Dict.get_set.trans (if_pos rfl)⟩
  · have hkept : Dict.get (setDefault config "instrument_id" (.str firstInst)) "bar_type" = none :=
      (get_setDefault_other (by decide)).trans h
    exact ⟨_, rfl, get_setDefault_new hkept⟩

theorem barType_inj {priceType priceType' : String} :
    barType firstInst priceType = barType firstInst priceType' ↔ priceType = priceType' := by
  refine ⟨fun heq => ?_, congrArg _⟩
  have hlist := congrArg String.toList heq
  unfold barType at hlist
  simp only [String.toList_append, List.append_assoc, List.append_cancel_left_eq,
    List.append_cancel_right_eq] at hlist
  exact String.toList_injective hlist

end BarTypes

/-- **A derived bar type has the prices of its asset class**, MID of fx and LAST of all others,
    exactly if the marks find the asset class in the resolved id. -/
theorem bar_type_iff (upper : String → String) (s : Registry) (spawnToday : ℕ)
    (member : StrategyMember) (first : ResolvedInstrument) (rest : List ResolvedInstrument)
    (hlookup : lookupForLive s member.instruments spawnToday .interactiveBrokers none
      = .ok (first :: rest))
    (hbar : Dict.get (member.config.getD []) "bar_type" = none) :
    ∃ payload, memberPayload upper s spawnToday member = .ok payload ∧
      (Dict.get payload.strategyConfig "bar_type" = some (.str (barType first.canonicalId
          (if first.assetClass = .fx then "MID" else "LAST"))) ↔
        (isFx upper first.canonicalId = true ↔ first.assetClass = .fx)) := by
  cases hinstruments : member.instruments with
  | nil =>
    rw [hinstruments] at hlookup
    exact absurd hlookup (by simp [lookupForLive])
  | cons firstUserInst others =>
    obtain ⟨config, hconfig, hget⟩ := @deriveConfig_barType upper (member.config.getD [])
      firstUserInst first.canonicalId hbar
    have hpayload : memberPayload upper s spawnToday member
        = .ok ⟨config, member.instruments.map stripVenueSuffix, first :: rest⟩ := by
      unfold memberPayload
      rw [hlookup, hinstruments]
      dsimp only
      rw [hconfig]
    refine ⟨_, hpayload, ?_⟩
    show Dict.get config "bar_type" = _ ↔ _
    rw [hget, Option.some_inj, Json.str.injEq, barType_inj]
    by_cases hfx : first.assetClass = .fx
    · rw [if_pos hfx]
      split
      · rename_i hmarked
        exact iff_of_true rfl (iff_of_true hmarked hfx)
      · rename_i hmarked
        exact iff_of_false (by decide) fun h => hmarked (h.mpr hfx)
    · rw [if_neg hfx]
      split
      · rename_i hmarked
        exact iff_of_false (by decide) fun h => hfx (h.mp hmarked)
      · rename_i hmarked
        exact iff_of_true rfl (iff_of_false hmarked hfx)

/-! ### A share whose symbol has a currency in it -/

/-- `str.upper` of an ASCII text. -/
def asciiUpper (s : String) : String := String.ofList (s.toList.map Char.toUpper)

def oneShare (symbol : String) : Registry where
  definitions :=
    [{ instrumentUid := 0, rawSymbol := symbol, listingVenue := "NASDAQ", routingVenue := "SMART"
       assetClass := .equity, provider := .interactiveBrokers }]
  aliases :=
    [{ instrumentUid := 0, aliasString := symbol ++ ".NASDAQ", venueFormat := .exchangeName
       sourceVenueRaw := none, provider := .interactiveBrokers, effectiveFrom := 0
       effectiveTo := none }]
  nextUid := 1
  today := 0

def resolvedShare (symbol : String) : ResolvedInstrument where
  canonicalId := symbol ++ ".NASDAQ"
  assetClass := .equity
  contractSpec :=
    [("secType", "STK"), ("symbol", symbol), ("exchange", "SMART"),
      ("primaryExchange", "NASDAQ"), ("currency", "USD")]
  effectiveWindow := (0, none)

/-- The shares of AudioCodes get bars of mid prices. -/
theorem bar_type_fails :
    lookupForLive (oneShare "AUDC") ["AUDC"] 46021 .interactiveBrokers none
        = .ok [resolvedShare "AUDC"] ∧
      ∃ payload, memberPayload asciiUpper (oneShare "AUDC") 46021 ⟨none, ["AUDC"]⟩
        = .ok payload ∧
        Dict.get payload.strategyConfig "bar_type"
          = some (.str "AUDC.NASDAQ-1-MINUTE-MID-EXTERNAL") :=
  ⟨by decide +kernel, _, rfl, rfl⟩

/-- Those of Apple get bars of last prices. -/
theorem bar_type_iff_apple :
    ∃ payload, memberPayload asciiUpper (oneShare "AAPL") 46021 ⟨none, ["AAPL"]⟩ = .ok payload ∧
      (Dict.get payload.strategyConfig "bar_type"
          = some (.str (barType "AAPL.NASDAQ" "LAST")) ↔
        (isFx asciiUpper "AAPL.NASDAQ" = true ↔ (resolvedShare "AAPL").assetClass = .fx)) :=
  bar_type_iff asciiUpper (oneShare "AAPL") 46021 ⟨none, ["AAPL"]⟩ (resolvedShare "AAPL") []
    (by decide +kernel) rfl

end Msai.Supervisor
