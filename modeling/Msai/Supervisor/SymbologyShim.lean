import Msai.Lib.IndexedFold
import Msai.Supervisor.PayloadFactory

namespace Msai.Supervisor

open Msai.Lib Msai.Instruments

/-!
# The symbology shim
(`services/symbology_shim.py`, `services/nautilus/databento_live_config.py`)

A strategy knows its instruments under the venue IBKR, the Databento feed under the venue of their
listing.

* `resolveForDatabento`, `resolveDatabentoTargets` — the targets of the canonical ids;
* `ibkrId` — the canonical id of a symbol;
* `nativeVenue_mem`, `nativeId_ne_ibkrId` — the venue of a target is one of the listing.

`fromStr` is `InstrumentId.from_str`.
-/

/-! ### The symbology shim -/

structure InstrumentId where
  symbol : String
  venue : String
deriving DecidableEq, Repr

inductive ShimError
  /-- `ValueError` of `InstrumentId.from_str`. -/
  | malformedId
  /-- `ValueError`: the venue is not IBKR. -/
  | notCanonical (venue : String)
  | lookup (error : LiveResolverError)
  /-- `IndexError` of `resolved_items[0]`. -/
  | noItem
  /-- `NotImplementedError`. -/
  | notEquity (assetClass : AssetClass)
  /-- `ValueError`: `contract_spec` without the key. -/
  | missingKey (key : String)
  | unsupportedListingVenue (listingVenue : String)
deriving DecidableEq, Repr

/-- `DatabentoSubscriptionTarget`. -/
structure DatabentoTarget where
  dataset : String
  nativeSymbol : String
  nativeVenue : String
deriving DecidableEq, Repr

/-- `f"{target.native_symbol}.{target.native_venue}"`. -/
def DatabentoTarget.nativeId (target : DatabentoTarget) : String :=
  target.nativeSymbol ++ "." ++ target.nativeVenue

/-- `_LISTING_VENUE_TO_DATABENTO_NATIVE`. -/
def listingVenueToDatabentoNative : Dict String String :=
  [("NASDAQ", "XNAS"), ("NYSE", "XNYS"), ("ARCA", "ARCX"), ("AMEX", "XASE")]

section Shim

variable (s : Registry) (asOf : ℕ) (fromStr : String → Option InstrumentId)

/-- Without an asset class first; a symbol of several classes as an equity, and one that is missing
    under the whole id. -/
def lookupCanonical (canonical : InstrumentId) :
    Except LiveResolverError (List ResolvedInstrument) :=
  match lookupForLive s [canonical.symbol] asOf .interactiveBrokers none with
  | .error (.ambiguousRegistry _ _) =>
    lookupForLive s [canonical.symbol] asOf .interactiveBrokers (some .equity)
  | .error (.registryMiss _ _) =>
    lookupForLive s [canonical.symbol ++ "." ++ canonical.venue] asOf .interactiveBrokers none
  | resolved => resolved

/-- `contract_spec.get(key)`, which must not be empty. -/
def contractField (contractSpec : List (String × String)) (key : String) :
    Except ShimError String :=
  match Dict.get contractSpec key with
  | none => .error (.missingKey key)
  | some value => if value = "" then .error (.missingKey key) else .ok value

/-- `resolve_for_databento`. The data set is that of the equities. -/
def resolveForDatabento (canonical : InstrumentId) : Except ShimError DatabentoTarget :=
  if canonical.venue ≠ "IBKR" then .error (.notCanonical canonical.venue)
  else
    match lookupCanonical s asOf canonical with
    | .error e => .error (.lookup e)
    | .ok [] => .error .noItem
    | .ok (resolved :: _) =>
      if resolved.assetClass ≠ .equity then .error (.notEquity resolved.assetClass)
      else
        (contractField resolved.contractSpec "symbol").bind fun nativeSymbol =>
          (contractField resolved.contractSpec "primaryExchange").bind fun listingVenue =>
            match Dict.get listingVenueToDatabentoNative listingVenue with
            | none => .error (.unsupportedListingVenue listingVenue)
            | some nativeVenue => .ok ⟨"EQUS.MINI", nativeSymbol, nativeVenue⟩

/-- The target of a canonical id. -/
def resolveTarget (canonicalId : String) : Except ShimError DatabentoTarget :=
  match fromStr canonicalId with
  | none => .error .malformedId
  | some canonical => resolveForDatabento s asOf canonical

structure ResolvedDatabentoTargets where
  nativeInstrumentIds : List String
  venueDatasetMap : Dict String String

/-- `resolve_databento_targets`. -/
def resolveDatabentoTargets (canonicalIds : List String) :
    Except ShimError ResolvedDatabentoTargets :=
  (canonicalIds.mapM (resolveTarget s asOf fromStr)).map fun targets =>
    { nativeInstrumentIds := targets.map DatabentoTarget.nativeId
      venueDatasetMap := Dict.build (fun t => some (t.nativeVenue, t.dataset)) targets }

end Shim

/-! ### Canonical ids and native ones -/

/-- The root under `_IBKR_VENUE_SUFFIX`. -/
def ibkrId (root : String) : String := root ++ "." ++ "IBKR"

section Ids

variable {s : Registry} {asOf : ℕ} {fromStr : String → Option InstrumentId}
  {target : DatabentoTarget} {text root front rest : String}

theorem stripVenueSuffix_ibkrId : stripVenueSuffix (ibkrId root) = root :=
  stripVenueSuffix_append (by decide)

theorem ibkrId_inj : ibkrId root = ibkrId front ↔ root = front := by
  refine ⟨fun h => ?_, congrArg _⟩
  rw [← @stripVenueSuffix_ibkrId root, h, stripVenueSuffix_ibkrId]

theorem nativeVenue_mem (h : resolveTarget s asOf fromStr text = .ok target) :
    target.nativeVenue ∈ ["XNAS", "XNYS", "ARCX", "XASE"] := by
  unfold resolveTarget at h
  split at h
  · cases h
  · unfold resolveForDatabento at h
    split at h
    · cases h
    · split at h
      · cases h
      · cases h
      · split at h
        · cases h
        · obtain ⟨nativeSymbol, -, h⟩ := except_bind_eq_ok h
          obtain ⟨listingVenue, -, h⟩ := except_bind_eq_ok h
          split at h
          · cases h
          · next nativeVenue hget =>
            cases h
            exact (Dict.mem_values (by decide)).mpr ⟨listingVenue, hget⟩

theorem dot_notMem_nativeVenue (h : resolveTarget s asOf fromStr root = .ok target) :
    '.' ∉ target.nativeVenue.toList := by
  have hvenue := nativeVenue_mem h
  simp only [List.mem_cons, List.not_mem_nil, or_false] at hvenue
  rcases hvenue with hv | hv | hv | hv <;> rw [hv] <;> decide

/-- No native id has the venue of the strategies. -/
theorem nativeId_ne_ibkrId (h : resolveTarget s asOf fromStr root = .ok target) :
    target.nativeId ≠ ibkrId rest := by
  intro heq
  have hparts := congrArg rpartitionDot heq
  rw [DatabentoTarget.nativeId, rpartitionDot_append (dot_notMem_nativeVenue h), ibkrId,
    rpartitionDot_append (by decide)] at hparts
  have hvenue := nativeVenue_mem h
  rw [(Prod.mk.inj (Option.some.inj hparts)).2] at hvenue
  exact absurd hvenue (by decide)

end Ids

end Msai.Supervisor
