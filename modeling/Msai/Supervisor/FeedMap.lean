import Mathlib.Data.List.Dedup
import Msai.Lib.PyDate
import Msai.Live.DataFreshness
import Msai.Supervisor.SymbologyShim

namespace Msai.Supervisor

open Msai.Lib Msai.Instruments
open Msai.Live.DataFreshness (pySplit splitBarType symbolFromBarType parseIntervalS IsBarSpec
  pySplit_append splitBarType_append symbolFromBarType_append parseIntervalS_append)

/-!
# The native feeds of a portfolio (`live_supervisor/__main__.py`)

The factory maps the bar type of every member to that of the feed its bars come from. It reads the
symbol up to the first hyphen; the freshness monitor reads the feed from its end.

* `canonicalToNativeBarTypes`, `portfolioPayload` — the map, and the factory;
* `memberFeed` — the bar type that the factory derives for a member;
* `MapsFeeds`, `mapsFeeds` — the items of the map;
* `AllFed`, `feeds_iff` — when every member has its own feed.

`upper` is `str.upper`, `str` is `str` of a value that is no text, and `fromStr` is
`InstrumentId.from_str`.
-/

/-! ### The map of bar types -/

/-- The symbol root of an id, if it has one. -/
def canonicalRoot (canonicalId : String) : Option String :=
  if '.' ∈ canonicalId.toList then
    if stripVenueSuffix canonicalId = "" then none else some (stripVenueSuffix canonicalId)
  else none

/-- The ids that are resolved: every root once. -/
def canonicalIbkrIds (canonicalInstrumentIds : List String) : List String :=
  (firstSeen id (canonicalInstrumentIds.filterMap canonicalRoot)).map ibkrId

/-- `root_to_native_iid`. -/
def rootToNativeIid (ids nativeIds : List String) : Dict String String :=
  Dict.build (fun p => some (stripVenueSuffix p.1, p.2)) (ids.zip nativeIds)

section Source

variable (str : Json → String)

/-- `str(strategy_config.get("bar_type") or "")`. -/
def barTypeText (config : Dict String Json) : String :=
  match Dict.get config "bar_type" with
  | none => ""
  | some value =>
    if !isTruthy value then ""
    else
      match value with
      | .str text => text
      | value => str value

/-- `bar_type_str.partition("-")`: the root of what is before the hyphen, and what is after it. -/
def splitCanonical (barTypeStr : String) : Option (String × String) :=
  (PyDate.splitOnce '-' barTypeStr.toList).bind fun p =>
    if '.' ∈ p.1 then some (stripVenueSuffix (String.ofList p.1), String.ofList p.2) else none

/-- The item that a bar type puts into the map; a member whose bar type is skipped has none. -/
def barTypeEntry (rootToNative : Dict String String) (barTypeStr : String) :
    Option (String × String) :=
  (splitCanonical barTypeStr).bind fun p =>
    match Dict.get rootToNative p.1 with
    | none => none
    | some nativeIid =>
      if nativeIid = "" then none else some (ibkrId p.1 ++ "-" ++ p.2, nativeIid ++ "-" ++ p.2)

/-- `canonical_to_native_bar_types`. -/
def canonicalToNativeBarTypes (rootToNative : Dict String String) (members : List MemberPayload) :
    Dict String String :=
  Dict.build (fun member => barTypeEntry rootToNative (barTypeText str member.strategyConfig))
    members

/-- What the factory adds for the account; the derived client id is left out. -/
structure AccountFields where
  nativeInstrumentIds : List String
  venueDatasetMap : Dict String String
  canonicalToNativeBarTypes : Dict String String

def AccountFields.empty : AccountFields := ⟨[], [], []⟩

/-- `except (NotImplementedError, LiveResolverError)`. -/
def ShimError.isSkipped : ShimError → Bool
  | .notEquity _ => true
  | .lookup .emptySymbols => false
  | .lookup _ => true
  | _ => false

variable (s : Registry) (spawnToday : ℕ) (fromStr : String → Option InstrumentId)

/-- `sorted(set(all_canonical_instruments))`. -/
def canonicalInstrumentIds (members : List MemberPayload) : List String :=
  let ids := members.flatMap fun member => member.resolvedInstruments.map (·.canonicalId)
  ids.dedup.insertionSort (· ≤ ·)

def accountFields (account : String) (members : List MemberPayload) :
    Except ShimError AccountFields :=
  if account = "" then .ok .empty
  else
    let ids := canonicalIbkrIds (canonicalInstrumentIds members)
    match resolveDatabentoTargets s spawnToday fromStr ids with
    | .error e => if e.isSkipped then .ok .empty else .error e
    | .ok targets =>
      .ok
        { nativeInstrumentIds := targets.nativeInstrumentIds
          venueDatasetMap := targets.venueDatasetMap
          canonicalToNativeBarTypes :=
            canonicalToNativeBarTypes str (rootToNativeIid ids targets.nativeInstrumentIds)
              members }

/-- A deployment of a portfolio: it has a member, and `validate_port_account_consistency` has
    refused an account that is blank. -/
structure PortfolioDeployment where
  account : String
  members : List StrategyMember
  has_account : account ≠ ""
  has_members : members ≠ []

inductive FactoryError
  | member (error : PayloadError)
  | shim (error : ShimError)
deriving DecidableEq, Repr

/-- The factory of the payload. -/
def portfolioPayload (upper : String → String) (deployment : PortfolioDeployment) :
    Except FactoryError (List MemberPayload × AccountFields) :=
  match deployment.members.mapM (memberPayload upper s spawnToday) with
  | .error e => .error (.member e)
  | .ok members =>
    match accountFields str s spawnToday fromStr deployment.account members with
    | .error e => .error (.shim e)
    | .ok fields => .ok (members, fields)

end Source

/-! ### The derived bar types -/

/-- The bar type of a member: its first resolved id, and the bar spec. -/
structure MemberFeed where
  instrumentId : String
  spec : String
deriving DecidableEq, Repr

namespace MemberFeed

def barType (f : MemberFeed) : String := f.instrumentId ++ "-" ++ f.spec

/-- The symbol. -/
def root (f : MemberFeed) : String := stripVenueSuffix f.instrumentId

/-- The bar type under the venue of the strategies. -/
def canonicalKey (f : MemberFeed) : String := ibkrId f.root ++ "-" ++ f.spec

end MemberFeed

/-- The bar spec that the factory derives; there is none for a bar type that it keeps. -/
def derivedSpec (upper : String → String) (config : Dict String Json)
    (firstUserInst firstInst : String) : Option String :=
  let minutes := "1-MINUTE-" ++ (if isFx upper firstInst then "MID" else "LAST") ++ "-EXTERNAL"
  match Dict.get config "bar_type" with
  | none => some minutes
  | some existing =>
    if stripVenueSuffix firstUserInst = stripVenueSuffix firstInst then none
    else if !isTruthy existing then some minutes
    else
      match existing with
      | .str existing =>
        if PyText.startsWith existing (firstUserInst ++ "-") then
          some (String.ofList (existing.toList.drop (firstUserInst.length + 1)))
        else none
      | _ => none

/-- The bar type of a member, if the factory derives it. -/
def memberFeed (upper : String → String) (s : Registry) (spawnToday : ℕ)
    (member : StrategyMember) : Option MemberFeed :=
  match member.instruments, lookupForLive s member.instruments spawnToday .interactiveBrokers none
  with
  | firstUserInst :: _, .ok (first :: _) =>
    (derivedSpec upper (member.config.getD []) firstUserInst first.canonicalId).map fun spec =>
      ⟨first.canonicalId, spec⟩
  | _, _ => none

section Derived

variable {upper : String → String} {str : Json → String} {config : Dict String Json}
  {firstUserInst firstInst spec : String} {s : Registry} {spawnToday : ℕ}
  {member : StrategyMember} {f : MemberFeed}

theorem barType_eq {priceType : String} : barType firstInst priceType =
    firstInst ++ "-" ++ ("1-MINUTE-" ++ priceType ++ "-EXTERNAL") := by
  refine String.toList_injective ?_
  simp [barType]

theorem deriveConfig_derived
    (h : derivedSpec upper config firstUserInst firstInst = some spec) :
    ∃ config', deriveConfig upper config firstUserInst firstInst = some config' ∧
      Dict.get config' "bar_type" = some (.str (firstInst ++ "-" ++ spec)) := by
  unfold derivedSpec at h
  cases hget : Dict.get config "bar_type" with
  | none =>
    rw [hget] at h
    cases h
    rw [← barType_eq]
    exact deriveConfig_barType hget
  | some existing =>
    rw [hget] at h
    dsimp only at h
    split at h
    · cases h
    · next hroots =>
      have hkept : Dict.get (config.set "instrument_id" (.str firstInst)) "bar_type" =
          some existing := Dict.get_set.trans ((if_neg (by decide)).trans hget)
      unfold deriveConfig
      dsimp only
      rw [if_pos hroots, hkept]
      dsimp only
      split at h
      · next hfalsy =>
        cases h
        rw [if_pos hfalsy, ← barType_eq]
        exact ⟨_, rfl, Dict.get_set.trans (if_pos rfl)⟩
      · next htruthy =>
        rw [if_neg htruthy]
        split at h
        · next existing =>
          split at h
          · next hstarts =>
            cases h
            simp only [if_pos hstarts]
            refine ⟨_, rfl, (Dict.get_set.trans (if_pos rfl)).trans ?_⟩
            -- the text goes on with the hyphen
            obtain ⟨rest, hrest⟩ := List.isPrefixOf_iff_prefix.mp hstarts
            have htext : existing.toList = firstUserInst.toList ++ '-' :: rest := by
              simpa using hrest.symm
            refine congrArg (some ∘ Json.str) (String.toList_injective ?_)
            rw [htext, ← String.length_toList, List.drop_left, ← List.drop_drop, List.drop_left]
            simp
          · cases h
        · cases h

theorem barType_ne_empty (f : MemberFeed) : f.barType ≠ "" := by
  intro h
  have hlength := congrArg (fun t : String => t.toList.length) h
  simp [MemberFeed.barType] at hlength

/-- What the payload of such a member has. -/
theorem memberPayload_derived (str : Json → String)
    (h : memberFeed upper s spawnToday member = some f) :
    ∃ payload, memberPayload upper s spawnToday member = .ok payload ∧
      barTypeText str payload.strategyConfig = f.barType ∧
      f.instrumentId ∈ payload.resolvedInstruments.map (·.canonicalId) ∧
      lookupForLive s member.instruments spawnToday .interactiveBrokers none =
        .ok payload.resolvedInstruments := by
  unfold memberFeed at h
  split at h
  · next firstUserInst others first rest hinstruments hlookup =>
    obtain ⟨spec, hspec, rfl⟩ := Option.map_eq_some_iff.mp h
    obtain ⟨config, hconfig, hget⟩ := deriveConfig_derived hspec
    have hpayload : memberPayload upper s spawnToday member =
        .ok ⟨config, member.instruments.map stripVenueSuffix, first :: rest⟩ := by
      unfold memberPayload
      rw [hlookup, hinstruments]
      dsimp only
      rw [hconfig]
    refine ⟨_, hpayload, ?_, List.mem_cons_self, hlookup⟩
    have htruthy : isTruthy (.str (first.canonicalId ++ "-" ++ spec)) = true :=
      decide_eq_true (barType_ne_empty ⟨first.canonicalId, spec⟩)
    unfold barTypeText
    rw [hget]
    dsimp only
    rw [htruthy]
    rfl
  · cases h

end Derived

/-! ### Where a bar type is cut -/

section Cut

variable {f : MemberFeed} {text root specTail front front' rest rest' suffix : String} {c : Char}

theorem toList_hyphen : (front ++ "-" ++ rest).toList = front.toList ++ '-' :: rest.toList := by
  simp

theorem exists_hyphen (h : '-' ∈ text.toList) :
    ∃ front rest, text = front ++ "-" ++ rest ∧ '-' ∉ front.toList := by
  obtain ⟨front, rest, htext, hfront⟩ := List.eq_append_cons_of_mem h
  refine ⟨String.ofList front, String.ofList rest, String.toList_injective ?_, ?_⟩
  · rw [toList_hyphen, String.toList_ofList, String.toList_ofList, htext]
  · rwa [String.toList_ofList]

/-- Two texts that are cut at their first hyphens. -/
theorem hyphen_cancel (hfront : '-' ∉ front.toList) (hfront' : '-' ∉ front'.toList)
    (h : front ++ "-" ++ rest = front' ++ "-" ++ rest') : front = front' ∧ rest = rest' := by
  have hsplit := congrArg (PyDate.splitOnce '-') (congrArg String.toList h)
  rw [toList_hyphen, toList_hyphen, PyDate.splitOnce_append hfront,
    PyDate.splitOnce_append hfront'] at hsplit
  obtain ⟨hfronts, hrests⟩ := Prod.mk.inj (Option.some.inj hsplit)
  exact ⟨String.toList_injective hfronts, String.toList_injective hrests⟩

theorem splitCanonical_eq_some : splitCanonical text = some (root, specTail) ↔
    ∃ head, text = head ++ "-" ++ specTail ∧ '-' ∉ head.toList ∧ '.' ∈ head.toList ∧
      stripVenueSuffix head = root := by
  rw [splitCanonical, Option.bind_eq_some_iff]
  constructor
  · rintro ⟨⟨front, rest⟩, hsplit, hif⟩
    obtain ⟨htext, hfront⟩ := PyDate.splitOnce_eq_some.mp hsplit
    split at hif
    · next hdot =>
      cases hif
      refine ⟨String.ofList front, String.toList_injective ?_, ?_, ?_, rfl⟩
      · rw [toList_hyphen, String.toList_ofList, String.toList_ofList, htext]
      · rwa [String.toList_ofList]
      · rwa [String.toList_ofList]
    · cases hif
  · rintro ⟨head, rfl, hhyphen, hdot, rfl⟩
    refine ⟨(head.toList, specTail.toList), ?_, ?_⟩
    · rw [toList_hyphen]
      exact PyDate.splitOnce_append hhyphen
    · rw [if_pos hdot, String.ofList_toList, String.ofList_toList]

/-- The root that is read has no hyphen. -/
theorem hyphen_notMem_root (h : splitCanonical text = some (root, specTail)) :
    '-' ∉ root.toList := by
  obtain ⟨head, -, hhyphen, -, rfl⟩ := splitCanonical_eq_some.mp h
  exact fun hmem => hhyphen (mem_stripVenueSuffix hmem)

theorem hyphen_notMem_ibkrId (h : '-' ∉ root.toList) : '-' ∉ (ibkrId root).toList := by
  have hsuffix : '-' ∉ ("." ++ "IBKR").toList := by decide
  rw [ibkrId, String.append_assoc, String.toList_append, List.mem_append]
  exact not_or.mpr ⟨h, hsuffix⟩

namespace MemberFeed

/-- The first hyphen of the bar type is that of its spec, and its id has a symbol and a venue. -/
structure Plain (f : MemberFeed) : Prop where
  hyphen : '-' ∉ f.instrumentId.toList
  dot : '.' ∈ f.instrumentId.toList
  root : f.root ≠ ""

theorem Plain.splitCanonical (h : f.Plain) :
    splitCanonical f.barType = some (f.root, f.spec) :=
  splitCanonical_eq_some.mpr ⟨f.instrumentId, rfl, h.hyphen, h.dot, rfl⟩

/-- A bar type is cut behind the id, or within it. -/
theorem splitCanonical_cases (h : splitCanonical f.barType = some (root, specTail)) :
    ('-' ∉ f.instrumentId.toList ∧ '.' ∈ f.instrumentId.toList ∧ root = f.root ∧
      specTail = f.spec) ∨
    ∃ head rest, f.instrumentId = head ++ "-" ++ rest ∧ '.' ∈ head.toList ∧
      '-' ∉ head.toList ∧ root = stripVenueSuffix head ∧ specTail = rest ++ "-" ++ f.spec := by
  obtain ⟨head, hbar, hhyphen, hdot, rfl⟩ := splitCanonical_eq_some.mp h
  by_cases hid : '-' ∈ f.instrumentId.toList
  · obtain ⟨front, rest, hparts, hfront⟩ := exists_hyphen hid
    have hcut : front ++ "-" ++ (rest ++ "-" ++ f.spec) = head ++ "-" ++ specTail := by
      rw [← hbar, barType, hparts]
      simp only [String.append_assoc]
    obtain ⟨rfl, rfl⟩ := hyphen_cancel hfront hhyphen hcut
    exact Or.inr ⟨_, _, hparts, hdot, hhyphen, rfl, rfl⟩
  · obtain ⟨rfl, rfl⟩ := hyphen_cancel hid hhyphen hbar
    exact Or.inl ⟨hid, hdot, rfl, rfl⟩

end MemberFeed

end Cut

/-! ### The items of the map -/

section Items

variable {rootToNative : Dict String String} {str : Json → String} {s : Registry} {asOf : ℕ}
  {fromStr : String → Option InstrumentId} {target : DatabentoTarget} {members : List MemberPayload}
  {text text' root root' specTail specTail' key native native' : String} {roots : List String}
  {targets : List DatabentoTarget}

/-- A key says which symbol and which spec it is for. -/
theorem key_inj (hroot : '-' ∉ root.toList) (hroot' : '-' ∉ root'.toList)
    (h : ibkrId root ++ "-" ++ specTail = ibkrId root' ++ "-" ++ specTail') :
    root = root' ∧ specTail = specTail' := by
  obtain ⟨hids, htails⟩ :=
    hyphen_cancel (hyphen_notMem_ibkrId hroot) (hyphen_notMem_ibkrId hroot') h
  exact ⟨ibkrId_inj.mp hids, htails⟩

theorem barTypeEntry_eq_some : barTypeEntry rootToNative text = some (key, native) ↔
    ∃ root specTail nativeIid, splitCanonical text = some (root, specTail) ∧
      Dict.get rootToNative root = some nativeIid ∧ nativeIid ≠ "" ∧
      key = ibkrId root ++ "-" ++ specTail ∧ native = nativeIid ++ "-" ++ specTail := by
  rw [barTypeEntry, Option.bind_eq_some_iff]
  constructor
  · rintro ⟨⟨root, specTail⟩, hsplit, hentry⟩
    dsimp only at hentry
    split at hentry
    · cases hentry
    · next nativeIid hget =>
      split at hentry
      · cases hentry
      · next hne =>
        cases hentry
        exact ⟨root, specTail, nativeIid, hsplit, hget, hne, rfl, rfl⟩
  · rintro ⟨root, specTail, nativeIid, hsplit, hget, hne, rfl, rfl⟩
    refine ⟨_, hsplit, ?_⟩
    dsimp only
    rw [hget]
    exact if_neg hne

/-- Two bar types with one key have one feed. -/
theorem barTypeEntry_agree (h : barTypeEntry rootToNative text = some (key, native))
    (h' : barTypeEntry rootToNative text' = some (key, native')) : native = native' := by
  obtain ⟨root, specTail, nativeIid, hsplit, hget, -, hkey, rfl⟩ := barTypeEntry_eq_some.mp h
  obtain ⟨root', specTail', nativeIid', hsplit', hget', -, hkey', rfl⟩ :=
    barTypeEntry_eq_some.mp h'
  obtain ⟨rfl, rfl⟩ := key_inj (hyphen_notMem_root hsplit) (hyphen_notMem_root hsplit')
    (hkey.symm.trans hkey')
  rw [Option.some.inj (hget.symm.trans hget')]

theorem get_canonicalToNativeBarTypes :
    Dict.get (canonicalToNativeBarTypes str rootToNative members) key = some native ↔
      ∃ member ∈ members,
        barTypeEntry rootToNative (barTypeText str member.strategyConfig) = some (key, native) :=
  Dict.get_build_iff fun _ _ _ _ _ _ _ h h' => barTypeEntry_agree h h'

/-- Every root that is resolved has its native id. -/
theorem get_rootToNativeIid (h : List.Forall₂
    (fun canonicalId target => resolveTarget s asOf fromStr canonicalId = .ok target)
      (roots.map ibkrId) targets) :
    Dict.get (rootToNativeIid (roots.map ibkrId) (targets.map DatabentoTarget.nativeId)) root =
      some native ↔
    root ∈ roots ∧ ∃ target, resolveTarget s asOf fromStr (ibkrId root) = .ok target ∧
      native = target.nativeId := by
  have hitem : ∀ p ∈ (roots.map ibkrId).zip (targets.map DatabentoTarget.nativeId),
      ∃ root ∈ roots, p.1 = ibkrId root ∧
        ∃ target, resolveTarget s asOf fromStr (ibkrId root) = .ok target ∧
          p.2 = target.nativeId := by
    intro p hp
    rw [List.zip_map_right] at hp
    obtain ⟨⟨canonicalId, target⟩, hmem, rfl⟩ := List.mem_map.mp hp
    obtain ⟨root, hroot, rfl⟩ := List.mem_map.mp (List.of_mem_zip hmem).1
    exact ⟨root, hroot, rfl, target, List.forall₂_zip h hmem, rfl⟩
  have hget : Dict.get (rootToNativeIid (roots.map ibkrId) (targets.map DatabentoTarget.nativeId))
      root = some native ↔
      ∃ p ∈ (roots.map ibkrId).zip (targets.map DatabentoTarget.nativeId),
        some (stripVenueSuffix p.1, p.2) = some (root, native) := by
    refine Dict.get_build_iff fun p hp q hq root native native' hroot hroot' => ?_
    cases hroot
    obtain ⟨rp, -, hrp, tp, htp, hnp⟩ := hitem p hp
    obtain ⟨rq, -, hrq, tq, htq, hnq⟩ := hitem q hq
    obtain ⟨hroots, rfl⟩ := Prod.mk.inj (Option.some.inj hroot')
    rw [hrp, hrq, stripVenueSuffix_ibkrId, stripVenueSuffix_ibkrId] at hroots
    subst hroots
    rw [hnp, hnq, Except.ok.inj (htp.symm.trans htq)]
  rw [hget]
  constructor
  · rintro ⟨p, hp, heq⟩
    obtain ⟨root', hroot', hid, target, htarget, hnative⟩ := hitem p hp
    obtain ⟨hroots, hnatives⟩ := Prod.mk.inj (Option.some.inj heq)
    rw [hid, stripVenueSuffix_ibkrId] at hroots
    subst hroots
    exact ⟨hroot', target, htarget, hnatives.symm.trans hnative⟩
  · rintro ⟨hroot, target, htarget, rfl⟩
    have hlength : (roots.map ibkrId).length ≤ (targets.map DatabentoTarget.nativeId).length := by
      rw [h.length_eq, List.length_map]
    have hmem : ibkrId root ∈
        ((roots.map ibkrId).zip (targets.map DatabentoTarget.nativeId)).map Prod.fst := by
      rw [List.map_fst_zip hlength]
      exact List.mem_map_of_mem hroot
    obtain ⟨p, hp, hid⟩ := List.mem_map.mp hmem
    obtain ⟨root', -, hid', target', htarget', hnative⟩ := hitem p hp
    obtain rfl := ibkrId_inj.mp (hid.symm.trans hid')
    refine ⟨p, hp, ?_⟩
    rw [hid, hnative, stripVenueSuffix_ibkrId, Except.ok.inj (htarget.symm.trans htarget')]

end Items

/-! ### When every member has its feed -/

/-- The feed of a member: the one of its own symbol, and the monitor reads it so. -/
structure IsFeed (resolve : String → Except ShimError DatabentoTarget) (map : Dict String String)
    (f : MemberFeed) (target : DatabentoTarget) (native : String) : Prop where
  resolved : resolve (ibkrId f.root) = .ok target
  entry : Dict.get map f.canonicalKey = some native
  split : ∃ step aggregation, IsBarSpec f.spec step aggregation ∧
    splitBarType native = some (target.nativeId, step, aggregation)
  symbol : symbolFromBarType native = some target.nativeSymbol
  interval : parseIntervalS native = parseIntervalS f.barType

/-- No member is left without its feed, and no feed is read as another symbol or cadence than that
    of a member. -/
structure AllFed (resolve : String → Except ShimError DatabentoTarget) (map : Dict String String)
    (feeds : List MemberFeed) : Prop where
  fed : ∀ f ∈ feeds, ∃ target native, IsFeed resolve map f target native
  read : ∀ key native, Dict.get map key = some native → ∃ f ∈ feeds, ∃ target,
    resolve (ibkrId f.root) = .ok target ∧ symbolFromBarType native = some target.nativeSymbol ∧
      parseIntervalS native = parseIntervalS f.barType

/-- What the factory puts into the map: the item of each bar type, for the roots that it has
    resolved. -/
structure MapsFeeds (resolve : String → Except ShimError DatabentoTarget) (feeds : List MemberFeed)
    (roots : List String) (map : Dict String String) : Prop where
  root_ne : ∀ root ∈ roots, root ≠ ""
  mem_roots : ∀ f ∈ feeds, f.Plain → f.root ∈ roots
  items : ∀ key native, Dict.get map key = some native ↔ ∃ f ∈ feeds, ∃ root specTail target,
    splitCanonical f.barType = some (root, specTail) ∧ root ∈ roots ∧
      resolve (ibkrId root) = .ok target ∧ key = ibkrId root ++ "-" ++ specTail ∧
      native = target.nativeId ++ "-" ++ specTail

/-- A bar spec, and a member with the symbol and the spec whose bar type is cut behind its id. -/
def MemberFeed.IsServed (feeds : List MemberFeed) (f : MemberFeed) : Prop :=
  (∃ step aggregation, IsBarSpec f.spec step aggregation) ∧
    ∃ g ∈ feeds, g.Plain ∧ g.root = f.root ∧ g.spec = f.spec

section Feeds

variable {s : Registry} {asOf : ℕ} {fromStr : String → Option InstrumentId}
  {feeds : List MemberFeed} {roots : List String} {map : Dict String String} {f g : MemberFeed}
  {target : DatabentoTarget} {native spec step aggregation root specTail rest : String}

/-- More than four segments are no bar spec. -/
theorem not_isBarSpec_append {step' aggregation' : String}
    (h : IsBarSpec spec step aggregation) :
    ¬ IsBarSpec (rest ++ "-" ++ spec) step' aggregation' := by
  obtain ⟨price, source, hspec⟩ := h
  rintro ⟨price', source', hlong⟩
  have hparts : pySplit (rest ++ "-" ++ spec) '-' = pySplit rest '-' ++ pySplit spec '-' :=
    pySplit_append (by decide)
  have hlength := congrArg List.length (hlong.symm.trans hparts)
  rw [hspec, List.length_append, pySplit, List.length_map] at hlength
  have hrest := List.length_pos_of_ne_nil (List.splitOn_ne_nil '-' rest.toList)
  simp only [List.length_cons, List.length_nil] at hlength
  omega

/-- The feed that a plain bar type is mapped to. -/
theorem MapsFeeds.isFeed (h : MapsFeeds (resolveTarget s asOf fromStr) feeds roots map)
    (hg : g ∈ feeds) (hplain : g.Plain) (hroot : g.root = f.root) (hspec : g.spec = f.spec)
    (hbar : IsBarSpec f.spec step aggregation)
    (htarget : resolveTarget s asOf fromStr (ibkrId f.root) = .ok target) :
    IsFeed (resolveTarget s asOf fromStr) map f target (target.nativeId ++ "-" ++ f.spec) where
  resolved := htarget
  entry := by
    refine (h.items _ _).mpr ⟨g, hg, f.root, f.spec, target, ?_, ?_, htarget, rfl, rfl⟩
    · rw [hplain.splitCanonical, hroot, hspec]
    · rw [← hroot]
      exact h.mem_roots g hg hplain
  split := ⟨step, aggregation, hbar, splitBarType_append hbar⟩
  symbol := symbolFromBarType_append hbar (dot_notMem_nativeVenue htarget)
  interval := parseIntervalS_append hbar

/-- An id without a hyphen in its symbol that is cut has the cut in its venue. -/
theorem cut_in_venue {head : String} (hid : f.instrumentId = head ++ "-" ++ rest)
    (hdot : '.' ∈ head.toList) (hroot : '-' ∉ f.root.toList) :
    stripVenueSuffix head = f.root ∧ '.' ∉ rest.toList := by
  have hrest : '.' ∉ rest.toList := by
    intro hmem
    obtain ⟨suffix, hsplit, hsuffix⟩ := exists_stripVenueSuffix hmem
    have hlast : f.instrumentId = head ++ "-" ++ stripVenueSuffix rest ++ "." ++ suffix := by
      rw [hid]
      conv_lhs => rw [hsplit]
      simp only [String.append_assoc]
    rw [MemberFeed.root, hlast, stripVenueSuffix_append hsuffix, toList_hyphen] at hroot
    exact hroot (List.mem_append_right _ List.mem_cons_self)
  obtain ⟨suffix, hsplit, hsuffix⟩ := exists_stripVenueSuffix hdot
  have hlast : f.instrumentId = stripVenueSuffix head ++ "." ++ (suffix ++ "-" ++ rest) := by
    rw [hid]
    conv_lhs => rw [hsplit]
    simp only [String.append_assoc]
  have hvenue : '.' ∉ (suffix ++ "-" ++ rest).toList := by
    rw [toList_hyphen, List.mem_append, List.mem_cons]
    exact not_or.mpr ⟨hsuffix, not_or.mpr ⟨by decide, hrest⟩⟩
  rw [MemberFeed.root, hlast, stripVenueSuffix_append hvenue]
  exact ⟨rfl, hrest⟩

/-- Every item is read as the symbol and the cadence of its member. -/
theorem MapsFeeds.read (h : MapsFeeds (resolveTarget s asOf fromStr) feeds roots map)
    (hserved : ∀ f ∈ feeds, f.IsServed feeds) {key : String}
    (hget : Dict.get map key = some native) : ∃ f ∈ feeds, ∃ target,
      resolveTarget s asOf fromStr (ibkrId f.root) = .ok target ∧
        symbolFromBarType native = some target.nativeSymbol ∧
        parseIntervalS native = parseIntervalS f.barType := by
  obtain ⟨f, hf, root, specTail, target, hsplit, -, htarget, -, rfl⟩ := (h.items _ _).mp hget
  obtain ⟨⟨step, aggregation, hbar⟩, g, hg, hplain, hroot, -⟩ := hserved f hf
  have hfree : '-' ∉ f.root.toList := by
    rw [← hroot]
    exact fun hmem => hplain.hyphen (mem_stripVenueSuffix hmem)
  refine ⟨f, hf, target, ?_⟩
  rcases MemberFeed.splitCanonical_cases hsplit with
    ⟨-, -, rfl, rfl⟩ | ⟨head, rest, hid, hdot, -, rfl, rfl⟩
  · exact ⟨htarget, symbolFromBarType_append hbar (dot_notMem_nativeVenue htarget),
      parseIntervalS_append hbar⟩
  · obtain ⟨hhead, hrest⟩ := cut_in_venue hid hdot hfree
    rw [hhead] at htarget
    -- the rest of the venue is read as a part of the native one
    have hnative : target.nativeId ++ "-" ++ (rest ++ "-" ++ f.spec) =
        target.nativeSymbol ++ "." ++ (target.nativeVenue ++ "-" ++ rest) ++ "-" ++ f.spec := by
      simp only [DatabentoTarget.nativeId, String.append_assoc]
    have hvenue : '.' ∉ (target.nativeVenue ++ "-" ++ rest).toList := by
      rw [toList_hyphen, List.mem_append, List.mem_cons]
      exact not_or.mpr ⟨dot_notMem_nativeVenue htarget, not_or.mpr ⟨by decide, hrest⟩⟩
    rw [hnative]
    exact ⟨htarget, symbolFromBarType_append hbar hvenue, parseIntervalS_append hbar⟩

/-- A member that has its feed is served. -/
theorem MapsFeeds.isServed (h : MapsFeeds (resolveTarget s asOf fromStr) feeds roots map)
    (hfed : ∀ f ∈ feeds, ∃ target native, IsFeed (resolveTarget s asOf fromStr) map f target native)
    (hf : f ∈ feeds) : f.IsServed feeds := by
  obtain ⟨target, native, hfeed⟩ := hfed f hf
  obtain ⟨step, aggregation, hbar, hsplit⟩ := hfeed.split
  refine ⟨⟨step, aggregation, hbar⟩, ?_⟩
  obtain ⟨g, hg, root, specTail, target', hcut, hroot, -, hkey, rfl⟩ :=
    (h.items _ _).mp hfeed.entry
  have hfree := hyphen_notMem_root hcut
  by_cases hhyphen : '-' ∈ f.root.toList
  · obtain ⟨front, rest, hparts, hfront⟩ := exists_hyphen hhyphen
    -- the key is cut within the symbol, and the feed goes on with the venue of the strategies
    have hcanonical : f.canonicalKey = front ++ "-" ++ (ibkrId rest ++ "-" ++ f.spec) := by
      rw [MemberFeed.canonicalKey, hparts]
      simp only [ibkrId, String.append_assoc]
    obtain ⟨-, htail⟩ :=
      hyphen_cancel hfront (hyphen_notMem_ibkrId hfree) (hcanonical.symm.trans hkey)
    have hnative : target'.nativeId ++ "-" ++ specTail =
        ibkrId (target'.nativeId ++ "-" ++ rest) ++ "-" ++ f.spec := by
      rw [← htail]
      simp only [ibkrId, String.append_assoc]
    rw [hnative, splitBarType_append hbar] at hsplit
    exact absurd (Prod.mk.inj (Option.some.inj hsplit)).1.symm
      (nativeId_ne_ibkrId hfeed.resolved)
  · obtain ⟨rfl, rfl⟩ := key_inj hhyphen hfree hkey
    rcases MemberFeed.splitCanonical_cases hcut with
      ⟨hid, hdot, hroots, hspec⟩ | ⟨head, rest, -, -, -, -, hlong⟩
    · exact ⟨g, hg, ⟨hid, hdot, hroots ▸ h.root_ne _ hroot⟩, hroots.symm, hspec.symm⟩
    · obtain ⟨target'', native'', hfeed'⟩ := hfed g hg
      obtain ⟨step', aggregation', hbar', -⟩ := hfeed'.split
      rw [hlong] at hbar
      exact absurd hbar (not_isBarSpec_append hbar')

theorem allFed_iff (h : MapsFeeds (resolveTarget s asOf fromStr) feeds roots map)
    (htargets : ∀ f ∈ feeds, ∃ target, resolveTarget s asOf fromStr (ibkrId f.root) = .ok target) :
    AllFed (resolveTarget s asOf fromStr) map feeds ↔ ∀ f ∈ feeds, f.IsServed feeds := by
  constructor
  · exact fun hall f hf => h.isServed hall.fed hf
  · intro hserved
    refine ⟨fun f hf => ?_, fun key native hget => h.read hserved hget⟩
    obtain ⟨⟨step, aggregation, hbar⟩, g, hg, hplain, hroot, hspec⟩ := hserved f hf
    obtain ⟨target, htarget⟩ := htargets f hf
    exact ⟨target, _, h.isFeed hg hplain hroot hspec hbar htarget⟩

end Feeds

/-! ### The deployments -/

section Deployments

variable {upper : String → String} {str : Json → String} {s : Registry} {spawnToday : ℕ}
  {fromStr : String → Option InstrumentId} {members : List MemberPayload}
  {root canonicalId : String}

/-- The roots that are resolved. -/
def resolvedRoots (members : List MemberPayload) : List String :=
  firstSeen id ((canonicalInstrumentIds members).filterMap canonicalRoot)

theorem canonicalRoot_eq_some : canonicalRoot canonicalId = some root ↔
    '.' ∈ canonicalId.toList ∧ stripVenueSuffix canonicalId ≠ "" ∧
      stripVenueSuffix canonicalId = root := by
  unfold canonicalRoot
  split
  · next hdot =>
    split
    · next hempty => exact iff_of_false (by simp) fun h => h.2.1 hempty
    · next hne =>
      rw [Option.some_inj]
      exact ⟨fun h => ⟨hdot, hne, h⟩, fun h => h.2.2⟩
  · next hdot => exact iff_of_false (by simp) fun h => hdot h.1

theorem mem_resolvedRoots : root ∈ resolvedRoots members ↔
    ∃ member ∈ members, ∃ r ∈ member.resolvedInstruments,
      canonicalRoot r.canonicalId = some root := by
  rw [resolvedRoots, mem_firstSeen_id, List.mem_filterMap]
  unfold canonicalInstrumentIds
  simp only [(List.perm_insertionSort _ _).mem_iff, List.mem_dedup, List.mem_flatMap, List.mem_map]
  constructor
  · rintro ⟨_, ⟨member, hmember, r, hr, rfl⟩, hroot⟩
    exact ⟨member, hmember, r, hr, hroot⟩
  · rintro ⟨member, hmember, r, hr, hroot⟩
    exact ⟨r.canonicalId, ⟨member, hmember, r, hr, rfl⟩, hroot⟩

/-- The bar types that are derived for the members. -/
def PortfolioDeployment.feeds (deployment : PortfolioDeployment) (upper : String → String)
    (s : Registry) (spawnToday : ℕ) : List MemberFeed :=
  deployment.members.filterMap (memberFeed upper s spawnToday)

/-- Every instrument of the members is an equity that Databento has. -/
def PortfolioDeployment.HasTargets (deployment : PortfolioDeployment) (s : Registry)
    (spawnToday : ℕ) (fromStr : String → Option InstrumentId) : Prop :=
  ∀ member ∈ deployment.members, ∀ resolved,
    lookupForLive s member.instruments spawnToday .interactiveBrokers none = .ok resolved →
      ∀ r ∈ resolved, ∃ target,
        resolveTarget s spawnToday fromStr (ibkrId (stripVenueSuffix r.canonicalId)) = .ok target

variable {deployment : PortfolioDeployment} {feeds : List MemberFeed}
  {targets : List DatabentoTarget} {account : String}

/-- The payloads are those of the feeds. -/
structure PayloadsOf (str : Json → String) (feeds : List MemberFeed)
    (members : List MemberPayload) : Prop where
  feed : ∀ payload ∈ members, ∃ f ∈ feeds, barTypeText str payload.strategyConfig = f.barType
  payload : ∀ f ∈ feeds, ∃ payload ∈ members,
    barTypeText str payload.strategyConfig = f.barType ∧
      f.instrumentId ∈ payload.resolvedInstruments.map (·.canonicalId)

/-- When every bar type is derived, the members are resolved. -/
theorem exists_payloads (str : Json → String)
    (h : ∀ member ∈ deployment.members, ∃ f, memberFeed upper s spawnToday member = some f) :
    ∃ members, deployment.members.mapM (memberPayload upper s spawnToday) = .ok members ∧
      PayloadsOf str (deployment.feeds upper s spawnToday) members ∧
      ∀ payload ∈ members, ∃ member ∈ deployment.members,
        lookupForLive s member.instruments spawnToday .interactiveBrokers none =
          .ok payload.resolvedInstruments := by
  have hpayloads : ∀ member ∈ deployment.members, ∃ payload,
      memberPayload upper s spawnToday member = .ok payload := by
    intro member hmember
    obtain ⟨f, hf⟩ := h member hmember
    obtain ⟨payload, hpayload, -⟩ := memberPayload_derived str hf
    exact ⟨payload, hpayload⟩
  obtain ⟨members, hmembers⟩ := exists_mapM_ok hpayloads
  have hmem : ∀ payload, payload ∈ members ↔ ∃ member ∈ deployment.members,
      memberPayload upper s spawnToday member = .ok payload := fun payload =>
    mem_iff_of_forall₂_ok (mapM_eq_ok_iff.mp hmembers)
  refine ⟨members, hmembers, ⟨fun payload hpayload => ?_, fun f hf => ?_⟩,
    fun payload hpayload => ?_⟩
  · obtain ⟨member, hmember, hok⟩ := (hmem payload).mp hpayload
    obtain ⟨f, hf⟩ := h member hmember
    obtain ⟨payload', hok', htext, -⟩ := memberPayload_derived str hf
    obtain rfl := Except.ok.inj (hok'.symm.trans hok)
    exact ⟨f, List.mem_filterMap.mpr ⟨member, hmember, hf⟩, htext⟩
  · obtain ⟨member, hmember, hf⟩ := List.mem_filterMap.mp hf
    obtain ⟨payload, hok, htext, hid, -⟩ := memberPayload_derived str hf
    exact ⟨payload, (hmem payload).mpr ⟨member, hmember, hok⟩, htext, hid⟩
  · obtain ⟨member, hmember, hok⟩ := (hmem payload).mp hpayload
    obtain ⟨f, hf⟩ := h member hmember
    obtain ⟨payload', hok', -, -, hlookup⟩ := memberPayload_derived str hf
    obtain rfl := Except.ok.inj (hok'.symm.trans hok)
    exact ⟨member, hmember, hlookup⟩

/-- The natives of the resolved roots. -/
def nativesOf (members : List MemberPayload) (targets : List DatabentoTarget) :
    Dict String String :=
  rootToNativeIid ((resolvedRoots members).map ibkrId) (targets.map DatabentoTarget.nativeId)

/-- The fields with these targets. -/
def fieldsOf (str : Json → String) (members : List MemberPayload)
    (targets : List DatabentoTarget) : AccountFields where
  nativeInstrumentIds := targets.map DatabentoTarget.nativeId
  venueDatasetMap := Dict.build (fun t => some (t.nativeVenue, t.dataset)) targets
  canonicalToNativeBarTypes := canonicalToNativeBarTypes str (nativesOf members targets) members

theorem accountFields_eq (haccount : account ≠ "")
    (h : ((resolvedRoots members).map ibkrId).mapM (resolveTarget s spawnToday fromStr) =
      .ok targets) :
    accountFields str s spawnToday fromStr account members =
      .ok (fieldsOf str members targets) := by
  have hresolved : resolveDatabentoTargets s spawnToday fromStr
      (canonicalIbkrIds (canonicalInstrumentIds members)) = .ok
        { nativeInstrumentIds := targets.map DatabentoTarget.nativeId
          venueDatasetMap := Dict.build (fun t => some (t.nativeVenue, t.dataset)) targets } := by
    rw [resolveDatabentoTargets]
    exact congrArg (Except.map _) h
  unfold accountFields
  rw [if_neg haccount]
  dsimp only
  rw [hresolved]
  rfl

theorem mapsFeeds (hpayloads : PayloadsOf str feeds members)
    (h : ((resolvedRoots members).map ibkrId).mapM (resolveTarget s spawnToday fromStr) =
      .ok targets) :
    MapsFeeds (resolveTarget s spawnToday fromStr) feeds (resolvedRoots members)
      (fieldsOf str members targets).canonicalToNativeBarTypes where
  root_ne := by
    intro root hroot
    obtain ⟨-, -, r, -, hroot⟩ := mem_resolvedRoots.mp hroot
    obtain ⟨-, hne, rfl⟩ := canonicalRoot_eq_some.mp hroot
    exact hne
  mem_roots := by
    intro f hf hplain
    obtain ⟨payload, hpayload, -, hid⟩ := hpayloads.payload f hf
    obtain ⟨r, hr, hid⟩ := List.mem_map.mp hid
    refine mem_resolvedRoots.mpr ⟨payload, hpayload, r, hr, ?_⟩
    rw [hid]
    exact canonicalRoot_eq_some.mpr ⟨hplain.dot, hplain.root, rfl⟩
  items := by
    intro key native
    have hentry : ∀ text, barTypeEntry (nativesOf members targets) text = some (key, native) ↔
        ∃ root specTail target, splitCanonical text = some (root, specTail) ∧
          root ∈ resolvedRoots members ∧
          resolveTarget s spawnToday fromStr (ibkrId root) = .ok target ∧
          key = ibkrId root ++ "-" ++ specTail ∧ native = target.nativeId ++ "-" ++ specTail := by
      intro text
      rw [barTypeEntry_eq_some]
      constructor
      · rintro ⟨root, specTail, nativeIid, hsplit, hget, -, hkey, hnative⟩
        obtain ⟨hroot, target, htarget, rfl⟩ :=
          (get_rootToNativeIid (mapM_eq_ok_iff.mp h)).mp hget
        exact ⟨root, specTail, target, hsplit, hroot, htarget, hkey, hnative⟩
      · rintro ⟨root, specTail, target, hsplit, hroot, htarget, hkey, hnative⟩
        refine ⟨root, specTail, target.nativeId, hsplit, ?_, ?_, hkey, hnative⟩
        · exact (get_rootToNativeIid (mapM_eq_ok_iff.mp h)).mpr ⟨hroot, target, htarget, rfl⟩
        · intro hempty
          have hlength := congrArg (fun t : String => t.toList.length) hempty
          simp [DatabentoTarget.nativeId] at hlength
    rw [fieldsOf, get_canonicalToNativeBarTypes]
    constructor
    · rintro ⟨payload, hpayload, hitem⟩
      obtain ⟨f, hf, htext⟩ := hpayloads.feed payload hpayload
      rw [htext] at hitem
      exact ⟨f, hf, (hentry _).mp hitem⟩
    · rintro ⟨f, hf, hitem⟩
      obtain ⟨payload, hpayload, htext, -⟩ := hpayloads.payload f hf
      refine ⟨payload, hpayload, ?_⟩
      rw [htext]
      exact (hentry _).mpr hitem

/-- **Every member has its own feed** in the map of a deployment exactly if for every member there
    is one with its symbol and its spec whose bar type is cut behind the id: a symbol with a hyphen
    is cut within. -/
theorem feeds_iff (upper : String → String) (str : Json → String) (s : Registry) (spawnToday : ℕ)
    (fromStr : String → Option InstrumentId) (deployment : PortfolioDeployment)
    (hderived : ∀ member ∈ deployment.members, ∃ f, memberFeed upper s spawnToday member = some f)
    (htargets : deployment.HasTargets s spawnToday fromStr) :
    ∃ members fields,
      portfolioPayload str s spawnToday fromStr upper deployment = .ok (members, fields) ∧
        (AllFed (resolveTarget s spawnToday fromStr) fields.canonicalToNativeBarTypes
            (deployment.feeds upper s spawnToday) ↔
          ∀ f ∈ deployment.feeds upper s spawnToday,
            f.IsServed (deployment.feeds upper s spawnToday)) := by
  obtain ⟨members, hmembers, hpayloads, hlookup⟩ := exists_payloads str hderived
  have hresolved : ∀ payload ∈ members, ∀ r ∈ payload.resolvedInstruments, ∃ target,
      resolveTarget s spawnToday fromStr (ibkrId (stripVenueSuffix r.canonicalId)) =
        .ok target := by
    intro payload hpayload r hr
    obtain ⟨member, hmember, hlookup⟩ := hlookup payload hpayload
    exact htargets member hmember _ hlookup r hr
  obtain ⟨targets, hmapM⟩ : ∃ targets,
      ((resolvedRoots members).map ibkrId).mapM (resolveTarget s spawnToday fromStr) =
        .ok targets := by
    refine exists_mapM_ok fun canonicalId hcanonical => ?_
    obtain ⟨root, hroot, rfl⟩ := List.mem_map.mp hcanonical
    obtain ⟨payload, hpayload, r, hr, hroot⟩ := mem_resolvedRoots.mp hroot
    obtain ⟨-, -, rfl⟩ := canonicalRoot_eq_some.mp hroot
    exact hresolved payload hpayload r hr
  refine ⟨members, fieldsOf str members targets, ?_,
    allFed_iff (mapsFeeds hpayloads hmapM) fun f hf => ?_⟩
  · rw [portfolioPayload, hmembers]
    dsimp only
    rw [accountFields_eq deployment.has_account hmapM]
  · obtain ⟨payload, hpayload, -, hid⟩ := hpayloads.payload f hf
    obtain ⟨r, hr, hid⟩ := List.mem_map.mp hid
    have htarget := hresolved payload hpayload r hr
    rw [hid] at htarget
    exact htarget

end Deployments

/-! ### Shares of two classes -/

/-- `InstrumentId.from_str` of an id with a symbol and a venue. -/
def idFromStr (text : String) : Option InstrumentId :=
  (rpartitionDot text).map fun p => ⟨p.1, p.2⟩

def listedShare (uid : ℕ) (symbol venue : String) : Definition where
  instrumentUid := uid
  rawSymbol := symbol
  listingVenue := venue
  routingVenue := "SMART"
  assetClass := .equity
  provider := .interactiveBrokers

def listedAlias (uid : ℕ) (symbol venue : String) : Alias where
  instrumentUid := uid
  aliasString := symbol ++ "." ++ venue
  venueFormat := .exchangeName
  sourceVenueRaw := none
  provider := .interactiveBrokers
  effectiveFrom := 0
  effectiveTo := none

/-- The class B shares under a symbol with a dot, and under one with a hyphen. -/
def listedShares : Registry where
  definitions :=
    [listedShare 0 "AAPL" "NASDAQ", listedShare 1 "BRK.B" "NYSE", listedShare 2 "BRK-B" "NYSE"]
  aliases :=
    [listedAlias 0 "AAPL" "NASDAQ", listedAlias 1 "BRK.B" "NYSE", listedAlias 2 "BRK-B" "NYSE"]
  nextUid := 3
  today := 0

def dottedDeployment : PortfolioDeployment where
  account := "DU1"
  members := [⟨none, ["BRK.B.NYSE"]⟩, ⟨none, ["AAPL.NASDAQ"]⟩]
  has_account := by decide
  has_members := by decide

def hyphenatedDeployment : PortfolioDeployment where
  account := "DU1"
  members := [⟨none, ["BRK-B.NYSE"]⟩]
  has_account := by decide
  has_members := by decide

/-- A lookup of one share of the list, and the target of its root. -/
theorem listed_target (symbol venue : String) (r : ResolvedInstrument) (target : DatabentoTarget)
    (hlookup : lookupForLive listedShares [symbol ++ "." ++ venue] 46021 .interactiveBrokers none =
      .ok [r])
    (htarget : resolveTarget listedShares 46021 idFromStr
      (ibkrId (stripVenueSuffix r.canonicalId)) = .ok target) :
    ∀ resolved, lookupForLive listedShares [symbol ++ "." ++ venue] 46021 .interactiveBrokers none =
      .ok resolved → ∀ r ∈ resolved, ∃ target, resolveTarget listedShares 46021 idFromStr
        (ibkrId (stripVenueSuffix r.canonicalId)) = .ok target := by
  intro resolved hresolved r' hr'
  obtain rfl := Except.ok.inj (hlookup.symm.trans hresolved)
  obtain rfl := List.mem_singleton.mp hr'
  exact ⟨target, htarget⟩

def listedResolved (symbol venue : String) : ResolvedInstrument where
  canonicalId := symbol ++ "." ++ venue
  assetClass := .equity
  contractSpec :=
    [("secType", "STK"), ("symbol", symbol), ("exchange", "SMART"), ("primaryExchange", venue),
      ("currency", "USD")]
  effectiveWindow := (0, none)

theorem hyphenated_feeds : hyphenatedDeployment.feeds asciiUpper listedShares 46021 =
    [⟨"BRK-B.NYSE", "1-MINUTE-LAST-EXTERNAL"⟩] := by decide +kernel

/-- The bar type of the shares with the hyphen is skipped. -/
theorem feeds_fail :
    (∀ member ∈ hyphenatedDeployment.members,
      ∃ f, memberFeed asciiUpper listedShares 46021 member = some f) ∧
    hyphenatedDeployment.HasTargets listedShares 46021 idFromStr ∧
    ∃ members fields,
      portfolioPayload (fun _ => "") listedShares 46021 idFromStr asciiUpper
        hyphenatedDeployment = .ok (members, fields) ∧
      fields.canonicalToNativeBarTypes = [] ∧
      ¬ AllFed (resolveTarget listedShares 46021 idFromStr) fields.canonicalToNativeBarTypes
        (hyphenatedDeployment.feeds asciiUpper listedShares 46021) := by
  refine ⟨fun member hmember => ?_, fun member hmember => ?_, _, _, rfl, rfl, fun hall => ?_⟩
  · obtain rfl := List.mem_singleton.mp hmember
    exact ⟨⟨"BRK-B.NYSE", "1-MINUTE-LAST-EXTERNAL"⟩, by decide +kernel⟩
  · obtain rfl := List.mem_singleton.mp hmember
    exact listed_target "BRK-B" "NYSE" (listedResolved "BRK-B" "NYSE")
      ⟨"EQUS.MINI", "BRK-B", "XNYS"⟩ (by decide +kernel) (by decide +kernel)
  · obtain ⟨target, native, hfeed⟩ := hall.fed _ (hyphenated_feeds ▸ List.mem_singleton_self _)
    exact absurd hfeed.entry nofun

theorem feeds_iff_dotted : ∃ members fields,
    portfolioPayload (fun _ => "") listedShares 46021 idFromStr asciiUpper dottedDeployment =
      .ok (members, fields) ∧
    (AllFed (resolveTarget listedShares 46021 idFromStr) fields.canonicalToNativeBarTypes
        (dottedDeployment.feeds asciiUpper listedShares 46021) ↔
      ∀ f ∈ dottedDeployment.feeds asciiUpper listedShares 46021,
        f.IsServed (dottedDeployment.feeds asciiUpper listedShares 46021)) := by
  refine feeds_iff asciiUpper (fun _ => "") listedShares 46021 idFromStr dottedDeployment ?_ ?_
  · intro member hmember
    rcases List.mem_pair.mp hmember with rfl | rfl
    · exact ⟨⟨"BRK.B.NYSE", "1-MINUTE-LAST-EXTERNAL"⟩, by decide +kernel⟩
    · exact ⟨⟨"AAPL.NASDAQ", "1-MINUTE-LAST-EXTERNAL"⟩, by decide +kernel⟩
  · intro member hmember
    rcases List.mem_pair.mp hmember with rfl | rfl
    · exact listed_target "BRK.B" "NYSE" (listedResolved "BRK.B" "NYSE")
        ⟨"EQUS.MINI", "BRK.B", "XNYS"⟩ (by decide +kernel) (by decide +kernel)
    · exact listed_target "AAPL" "NASDAQ" (listedResolved "AAPL" "NASDAQ")
        ⟨"EQUS.MINI", "AAPL", "XNAS"⟩ (by decide +kernel) (by decide +kernel)

end Msai.Supervisor
