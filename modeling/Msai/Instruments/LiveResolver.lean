import Mathlib.Data.List.MinMax
import Mathlib.Data.List.Sort
import Msai.Instruments.Aliases
import Msai.Lib.PyText

namespace Msai.Instruments

open Msai.Lib

/-!
# The readers of the registry
(`services/nautilus/security_master/registry.py`, `services/nautilus/security_master/live_resolver.py`)

Three readers ask which alias is active on a date: `find_by_alias` for the definition behind an
alias, `_pick_active_alias` for the alias of a definition, and `lookup_for_live` for both.

* `Alias.activeOn` — the half-open window `[effective_from, effective_to)`;
* `findByAlias`, `findByRawSymbol`, `pickActiveAlias`, `buildContractSpec`, `lookupForLive`;
* `Tradable`, `buildContractSpec_isOk` — which definitions have a contract;
* `IsActive.lookupForLive` — what the lookup of an alias returns where all windows of its
  instrument that contain the date have it, and no other instrument has.
-/

/-! ### Windows -/

/-- `effective_from <= as_of_date < effective_to`, or no end. -/
def Alias.activeOn (r : Alias) (asOf : ℕ) : Bool :=
  decide (r.effectiveFrom ≤ asOf) && r.effectiveTo.all fun day => decide (asOf < day)

/-- `find_by_alias`: of the active rows the one that began last. -/
def findByAlias (s : Registry) (aliasString : String) (provider : Provider) (asOf : ℕ) :
    Option Definition :=
  ((s.aliases.filter fun r =>
    r.aliasString == aliasString && r.provider == provider && r.activeOn asOf).argmax
      fun r => r.effectiveFrom).bind fun r =>
        s.definitions.find? fun d => d.instrumentUid == r.instrumentUid

/-- `find_by_raw_symbol`; `AmbiguousSymbolError` carries the classes. -/
def findByRawSymbol (s : Registry) (rawSymbol : String) (provider : Provider)
    (assetClass : Option AssetClass) : Except (List AssetClass) (Option Definition) :=
  let rows := s.definitions.filter fun d => d.rawSymbol == rawSymbol && d.provider == provider
  match assetClass with
  | some ac => .ok (rows.find? fun d => d.assetClass == ac)
  | none =>
    if 1 < rows.length then .error (rows.map (·.assetClass)).dedup
    else .ok rows.head?

/-! ### The errors of a lookup -/

/-- `AmbiguityReason`. -/
inductive AmbiguityReason
  | crossAssetClass (classes : List AssetClass)
  | sameDayOverlap (aliases : List String)
deriving DecidableEq, Repr

/-- `missing_field` of a `RegistryIncompleteError`. -/
inductive MissingField
  | listingVenue
  | routingVenue
  /-- `raw_symbol.base_quote_split` -/
  | baseQuoteSplit
  /-- `raw_symbol.malformed` -/
  | malformedRawSymbol
  /-- `alias.root_mismatch: …` -/
  | rootMismatch (aliasString : String)
  /-- `alias.month_code: …` -/
  | monthCode (aliasString : String)
  /-- `alias.year_digit: …` -/
  | yearDigit (aliasString : String)
  /-- `asset_class=…` -/
  | assetClass (ac : AssetClass)
deriving DecidableEq, Repr

/-- Why `lookup_for_live` raises. -/
inductive LiveResolverError
  /-- `ValueError`: no symbols. -/
  | emptySymbols
  | registryMiss (symbols : List String) (asOf : ℕ)
  | registryIncomplete (symbol : String) (field : MissingField)
  | unsupportedAssetClass (symbol : String) (ac : AssetClass)
  | ambiguousRegistry (symbol : String) (reason : AmbiguityReason)
  /-- `ValueError` of `int`: a digit that is not decimal. -/
  | invalidLiteral (digit : Char)
deriving DecidableEq, Repr

/-! ### The contract -/

/-- The year of a date, by the proleptic Gregorian calendar: years begin in March, in eras of 400
    years. -/
def yearOf (date : ℕ) : ℕ :=
  let z := date + 693901
  let doe := z % 146097
  let yoe := (doe - doe / 1460 + doe / 36524 - doe / 146096) / 365
  let doy := doe - (365 * yoe + yoe / 4 - yoe / 100)
  let march := yoe + z / 146097 * 400
  if (5 * doy + 2) / 153 < 10 then march else march + 1

/-- `_FUTURES_MONTH_CODES`. -/
def futuresMonthCodes : List (Char × String) :=
  [('F', "01"), ('G', "02"), ('H', "03"), ('J', "04"), ('K', "05"), ('M', "06"), ('N', "07"),
    ('Q', "08"), ('U', "09"), ('V', "10"), ('X', "11"), ('Z', "12")]

/-- `f"{year:04d}"`. -/
def fourDigits (year : ℕ) : String :=
  let digits := (toString year).toList
  String.ofList (List.replicate (4 - digits.length) '0' ++ digits)

/-- `_parse_futures_expiry`, with the year of `effective_from`. -/
def futuresExpiry (aliasString : String) (base : ℕ) (rawSymbol : String) :
    Except LiveResolverError String :=
  let root := aliasString.toList.takeWhile (· != '.')
  if !rawSymbol.toList.isPrefixOf root then
    .error (.registryIncomplete rawSymbol (.rootMismatch aliasString))
  else
    match root.drop rawSymbol.toList.length with
    | [month, digit] =>
      match futuresMonthCodes.lookup month with
      | none => .error (.registryIncomplete rawSymbol (.monthCode aliasString))
      | some code =>
        if !PyText.isDigit digit then
          .error (.registryIncomplete rawSymbol (.yearDigit aliasString))
        else
          match PyText.decimalValue digit with
          | none => .error (.invalidLiteral digit)
          | some yearDigit =>
            let candidate := base / 10 * 10 + yearDigit
            .ok (fourDigits (if candidate < base then candidate + 10 else candidate) ++ code)
    | _ => .error (.registryIncomplete rawSymbol (.monthCode aliasString))

/-- `_parse_futures_expiry`, at a date of the registry. -/
def parseFuturesExpiry (aliasString : String) (effectiveFrom : ℕ) (rawSymbol : String) :
    Except LiveResolverError String :=
  futuresExpiry aliasString (yearOf effectiveFrom) rawSymbol

/-- `raw_symbol.split("/", 1)`, if there is a slash. -/
def splitSlash (rawSymbol : String) : Option (String × String) :=
  match rawSymbol.toList.span (· != '/') with
  | (_, []) => none
  | (base, _ :: quote) => some (String.ofList base, String.ofList quote)

/-- `_build_contract_spec`. -/
def buildContractSpec (d : Definition) (r : Alias) :
    Except LiveResolverError (List (String × String)) :=
  if d.listingVenue = "" then .error (.registryIncomplete d.rawSymbol .listingVenue)
  else if d.routingVenue = "" then .error (.registryIncomplete d.rawSymbol .routingVenue)
  else
    match d.assetClass with
    | .equity =>
      .ok [("secType", "STK"), ("symbol", d.rawSymbol), ("exchange", d.routingVenue),
        ("primaryExchange", d.listingVenue), ("currency", "USD")]
    | .fx =>
      match splitSlash d.rawSymbol with
      | none => .error (.registryIncomplete d.rawSymbol .baseQuoteSplit)
      | some (base, quote) =>
        if base = "" ∨ quote = "" then
          .error (.registryIncomplete d.rawSymbol .malformedRawSymbol)
        else
          .ok [("secType", "CASH"), ("symbol", base), ("exchange", d.routingVenue),
            ("currency", quote)]
    | .futures =>
      (parseFuturesExpiry r.aliasString r.effectiveFrom d.rawSymbol).map fun expiry =>
        [("secType", "FUT"), ("symbol", d.rawSymbol), ("exchange", d.routingVenue),
          ("lastTradeDateOrContractMonth", expiry), ("currency", "USD")]
    | ac => .error (.registryIncomplete d.rawSymbol (.assetClass ac))

/-! ### The lookup -/

/-- `_pick_active_alias`; the error carries the aliases that are tied. -/
def pickActiveAlias (s : Registry) (d : Definition) (provider : Provider) (asOf : ℕ) :
    Except (List String) (Option Alias) :=
  let candidates := s.aliases.filter fun r =>
    r.instrumentUid == d.instrumentUid && r.provider == provider && r.activeOn asOf
  match candidates.argmax fun r => r.effectiveFrom with
  | none => .ok none
  | some latest =>
    let tied := candidates.filter fun r => r.effectiveFrom == latest.effectiveFrom
    if 1 < tied.length then .error ((tied.map (·.aliasString)).insertionSort (· ≤ ·))
    else .ok tied.head?

/-- A `ResolvedInstrument`. -/
structure ResolvedInstrument where
  canonicalId : String
  assetClass : AssetClass
  contractSpec : List (String × String)
  effectiveWindow : ℕ × Option ℕ
deriving DecidableEq, Repr

/-- The definition a symbol stands for: a raw symbol first, and an alias if it has a dot. -/
def findDefinition (s : Registry) (symbol : String) (provider : Provider) (asOf : ℕ)
    (assetClass : Option AssetClass) : Except LiveResolverError (Option Definition) :=
  match findByRawSymbol s symbol provider assetClass with
  | .error classes => .error (.ambiguousRegistry symbol (.crossAssetClass classes))
  | .ok (some d) => .ok (some d)
  | .ok none =>
    .ok (if '.' ∈ symbol.toList then findByAlias s symbol provider asOf else none)

/-- The rest of the loop body, for a definition; `none` for a symbol that is missing. -/
def resolveDefinition (s : Registry) (symbol : String) (d : Definition) (provider : Provider)
    (asOf : ℕ) : Except LiveResolverError (Option ResolvedInstrument) :=
  if d.assetClass = .option ∨ d.assetClass = .crypto then
    .error (.unsupportedAssetClass symbol d.assetClass)
  else
    match pickActiveAlias s d provider asOf with
    | .error aliases => .error (.ambiguousRegistry symbol (.sameDayOverlap aliases))
    | .ok none => .ok none
    | .ok (some r) =>
      match buildContractSpec d r with
      | .error e => .error e
      | .ok spec =>
        .ok (some
          { canonicalId := r.aliasString, assetClass := d.assetClass, contractSpec := spec
            effectiveWindow := (r.effectiveFrom, r.effectiveTo) })

/-- The loop body. -/
def resolveOne (s : Registry) (symbol : String) (provider : Provider) (asOf : ℕ)
    (assetClass : Option AssetClass) : Except LiveResolverError (Option ResolvedInstrument) :=
  (findDefinition s symbol provider asOf assetClass).bind fun d =>
    match d with
    | none => .ok none
    | some d => resolveDefinition s symbol d provider asOf

/-- The loop: the symbols that are missing, and what the others stand for. -/
def resolveAll (s : Registry) (provider : Provider) (asOf : ℕ) (assetClass : Option AssetClass) :
    List String → Except LiveResolverError (List String × List ResolvedInstrument)
  | [] => .ok ([], [])
  | symbol :: symbols =>
    (resolveOne s symbol provider asOf assetClass).bind fun r =>
      (resolveAll s provider asOf assetClass symbols).map fun rest =>
        match r with
        | none => (symbol :: rest.1, rest.2)
        | some r => (rest.1, r :: rest.2)

/-- `lookup_for_live`. -/
def lookupForLive (s : Registry) (symbols : List String) (asOf : ℕ) (provider : Provider)
    (assetClass : Option AssetClass) : Except LiveResolverError (List ResolvedInstrument) :=
  if symbols.isEmpty then .error .emptySymbols
  else
    (resolveAll s provider asOf assetClass symbols).bind fun r =>
      if r.1.isEmpty then .ok r.2 else .error (.registryMiss r.1 asOf)

example : yearOf 0 = 1900 ∧ yearOf 364 = 1900 ∧ yearOf 365 = 1901 ∧ yearOf 46021 = 2026 := by decide

example : parseFuturesExpiry "ESM6.CME" 46021 "ES" = .ok "202606"
    ∧ parseFuturesExpiry "ESH0.CME" 47464 "ES" = .ok "203003" := by decide

/-! ### What has a contract -/

section Contract

variable {d : Definition} {r : Alias}

/-- Two currencies, with the first slash between them. -/
def IsPair (rawSymbol : String) : Prop :=
  ∃ base quote : List Char, base ≠ [] ∧ quote ≠ [] ∧ '/' ∉ base ∧
    rawSymbol.toList = base ++ '/' :: quote

/-- The root of an alias is the symbol with the letter of a month and a decimal digit. -/
def HasExpiry (aliasString rawSymbol : String) : Prop :=
  ∃ month digit : Char, month ∈ futuresMonthCodes.map Prod.fst ∧
    PyText.isDecimal digit = true ∧
    aliasString.toList.takeWhile (· != '.') = rawSymbol.toList ++ [month, digit]

/-- **A definition that has a contract** under an alias. -/
structure Tradable (d : Definition) (r : Alias) : Prop where
  listing : d.listingVenue ≠ ""
  routing : d.routingVenue ≠ ""
  contract : d.assetClass = .equity ∨ (d.assetClass = .fx ∧ IsPair d.rawSymbol) ∨
    (d.assetClass = .futures ∧ HasExpiry r.aliasString d.rawSymbol)

/-- The halves of a pair. -/
theorem splitSlash_eq_some {rawSymbol base quote : String} :
    splitSlash rawSymbol = some (base, quote) ↔
      '/' ∉ base.toList ∧ rawSymbol.toList = base.toList ++ '/' :: quote.toList := by
  have hspan : rawSymbol.toList.span (· != '/') =
      (rawSymbol.toList.takeWhile (· != '/'), rawSymbol.toList.dropWhile (· != '/')) :=
    List.span_eq_takeWhile_dropWhile _ _
  constructor
  · intro h
    rw [splitSlash, hspan] at h
    cases hrest : rawSymbol.toList.dropWhile (· != '/') with
    | nil => simp [hrest] at h
    | cons c rest =>
      simp only [hrest, Option.some.injEq, Prod.mk.injEq] at h
      obtain ⟨rfl, rfl⟩ := h
      -- what is behind the base begins with the slash that has ended it
      have hslash : c = '/' := by
        have hhead := List.head?_dropWhile_not (· != '/') rawSymbol.toList
        rw [hrest] at hhead
        simpa using hhead
      rw [String.toList_ofList, String.toList_ofList]
      refine ⟨fun hmem => ?_, ?_⟩
      · simpa using List.mem_takeWhile_imp hmem
      · rw [hslash] at hrest
        rw [← hrest, List.takeWhile_append_dropWhile]
  · rintro ⟨hbase, hraw⟩
    have hne : ∀ c ∈ base.toList, (c != '/') = true := by
      intro c hc
      rw [bne_iff_ne]
      rintro rfl
      exact hbase hc
    rw [splitSlash, hspan, hraw, List.takeWhile_append_of_pos hne, List.dropWhile_append_of_pos hne,
      List.takeWhile_cons_of_neg (by simp), List.dropWhile_cons_of_neg (by simp), List.append_nil]
    simp only [String.ofList_toList]

/-- A symbol is split into two currencies if it is a pair. -/
theorem splitSlash_isPair {rawSymbol : String} :
    (∃ base quote, splitSlash rawSymbol = some (base, quote) ∧ base ≠ "" ∧ quote ≠ "") ↔
      IsPair rawSymbol := by
  constructor
  · rintro ⟨base, quote, hsplit, hbase, hquote⟩
    obtain ⟨hslash, hraw⟩ := splitSlash_eq_some.mp hsplit
    exact ⟨base.toList, quote.toList, mt String.toList_eq_nil_iff.mp hbase,
      mt String.toList_eq_nil_iff.mp hquote, hslash, hraw⟩
  · rintro ⟨base, quote, hbase, hquote, hslash, hraw⟩
    have hsplit : splitSlash rawSymbol = some (String.ofList base, String.ofList quote) :=
      splitSlash_eq_some.mpr (by simpa using ⟨hslash, hraw⟩)
    exact ⟨_, _, hsplit, by simp [hbase], by simp [hquote]⟩

/-- A letter of a month has its number. -/
theorem futuresMonthCodes_lookup {month : Char} :
    (∃ code, futuresMonthCodes.lookup month = some code) ↔
      month ∈ futuresMonthCodes.map Prod.fst := by
  rw [← Option.isSome_iff_exists, List.lookup_isSome_iff]
  simp

/-- What the parser reads. -/
theorem futuresExpiry_isOk {aliasString rawSymbol : String} (base : ℕ) :
    (∃ expiry, futuresExpiry aliasString base rawSymbol = .ok expiry) ↔
      HasExpiry aliasString rawSymbol := by
  unfold futuresExpiry
  dsimp only
  constructor
  · rintro ⟨expiry, h⟩
    -- one branch returns a text: a month and a decimal digit are left behind the symbol
    split at h
    · cases h
    · rename_i hstarts
      split at h
      · rename_i month digit htail
        split at h
        · cases h
        · rename_i code hcode
          split at h
          · cases h
          · split at h
            · cases h
            · rename_i yearDigit hvalue
              refine ⟨month, digit, futuresMonthCodes_lookup.mp ⟨code, hcode⟩, ?_, ?_⟩
              · rw [PyText.isDecimal, hvalue]
                rfl
              · obtain ⟨tail, htail'⟩ : rawSymbol.toList <+:
                    aliasString.toList.takeWhile (· != '.') := by
                  simpa [List.isPrefixOf_iff_prefix] using hstarts
                rw [← htail', List.drop_left] at htail
                rw [← htail', htail]
      · cases h
  · rintro ⟨month, digit, hmonth, hdigit, hroot⟩
    obtain ⟨code, hcode⟩ := futuresMonthCodes_lookup.mpr hmonth
    obtain ⟨yearDigit, hvalue⟩ := Option.isSome_iff_exists.mp hdigit
    have hstarts : rawSymbol.toList.isPrefixOf (rawSymbol.toList ++ [month, digit]) = true :=
      List.isPrefixOf_iff_prefix.mpr (List.prefix_append _ _)
    have hisDigit : PyText.isDigit digit = true := by rw [PyText.isDigit, hdigit, Bool.true_or]
    simp only [hroot, hstarts, List.drop_left, hcode, hisDigit, hvalue, Bool.not_true,
      Bool.false_eq_true, if_false]
    exact ⟨_, rfl⟩

/-- **What has a contract** is built one. -/
theorem buildContractSpec_isOk : (∃ spec, buildContractSpec d r = .ok spec) ↔ Tradable d r := by
  unfold buildContractSpec
  by_cases hlisting : d.listingVenue = ""
  · simp only [if_pos hlisting]
    exact iff_of_false (by simp) fun h => h.listing hlisting
  by_cases hrouting : d.routingVenue = ""
  · simp only [if_neg hlisting, if_pos hrouting]
    exact iff_of_false (by simp) fun h => h.routing hrouting
  simp only [if_neg hlisting, if_neg hrouting]
  have htradable : Tradable d r ↔ d.assetClass = .equity ∨
      (d.assetClass = .fx ∧ IsPair d.rawSymbol) ∨
      (d.assetClass = .futures ∧ HasExpiry r.aliasString d.rawSymbol) :=
    ⟨fun h => h.contract, fun h => ⟨hlisting, hrouting, h⟩⟩
  rw [htradable]
  cases hclass : d.assetClass with
  | equity => exact iff_of_true ⟨_, rfl⟩ (Or.inl rfl)
  | fx =>
    simp only [reduceCtorEq, true_and, false_and, false_or, or_false]
    rw [← splitSlash_isPair]
    cases hsplit : splitSlash d.rawSymbol with
    | none => exact iff_of_false (by simp) (by simp)
    | some p =>
      by_cases hempty : p.1 = "" ∨ p.2 = ""
      · -- an empty half is refused
        simp only [if_pos hempty]
        refine iff_of_false (by simp) ?_
        rintro ⟨base, quote, hp, hbase, hquote⟩
        obtain rfl := Option.some.inj hp
        exact hempty.elim hbase hquote
      · simp only [if_neg hempty]
        exact iff_of_true ⟨_, rfl⟩ ⟨p.1, p.2, rfl, not_or.mp hempty⟩
  | futures =>
    simp only [reduceCtorEq, true_and, false_and, false_or]
    rw [← futuresExpiry_isOk (yearOf r.effectiveFrom), parseFuturesExpiry]
    cases futuresExpiry r.aliasString (yearOf r.effectiveFrom) d.rawSymbol <;> simp [Except.map]
  | option => exact iff_of_false (by simp) (by simp)
  | crypto => exact iff_of_false (by simp) (by simp)

end Contract

/-! ### An alias of one instrument -/

section Active

variable {s : Registry} {d : Definition} {a : String} {asOf : ℕ} {ac : Option AssetClass}

/-- On a date the alias is the instrument's, under all windows that contain the date, and no other
    instrument's. -/
structure IsActive (s : Registry) (d : Definition) (a : String) (asOf : ℕ) : Prop where
  window : ∃ r ∈ s.aliases, r.instrumentUid = d.instrumentUid ∧ r.provider = d.provider ∧
    r.aliasString = a ∧ r.activeOn asOf = true
  windows : ∀ r ∈ s.aliases, r.instrumentUid = d.instrumentUid → r.activeOn asOf = true →
    r.aliasString = a
  owner : ∀ r ∈ s.aliases, r.aliasString = a → r.provider = d.provider →
    r.instrumentUid = d.instrumentUid

/-- A definition is found under its id. -/
theorem find_definition (huids : (s.definitions.map (·.instrumentUid)).Nodup)
    (hd : d ∈ s.definitions) :
    s.definitions.find? (fun d' => d'.instrumentUid == d.instrumentUid) = some d := by
  obtain ⟨d', hd'⟩ : ∃ d', s.definitions.find?
      (fun d' => d'.instrumentUid == d.instrumentUid) = some d' :=
    Option.isSome_iff_exists.mp (List.find?_isSome.mpr ⟨d, hd, by simp⟩)
  have hid := List.find?_some hd'
  have heq := List.inj_on_of_nodup_map huids (List.mem_of_find?_eq_some hd') hd
    (by simpa using hid)
  rw [hd', heq]

/-- A member with the greatest value is there. -/
theorem argmax_isSome {α : Type} {l : List α} {f : α → ℕ} {x : α} (hx : x ∈ l) :
    ∃ m, l.argmax f = some m ∧ m ∈ l := by
  cases hm : l.argmax f with
  | none =>
    rw [List.argmax_eq_none.mp hm] at hx
    cases hx
  | some m => exact ⟨m, rfl, List.argmax_mem hm⟩

/-- `find_by_alias` finds the instrument. -/
theorem IsActive.findByAlias (h : IsActive s d a asOf) (hd : d ∈ s.definitions)
    (huids : (s.definitions.map (·.instrumentUid)).Nodup) :
    findByAlias s a d.provider asOf = some d := by
  obtain ⟨r, hr, _, hprovider, halias, hactive⟩ := h.window
  obtain ⟨m, hm, hmem⟩ := argmax_isSome (f := fun r : Alias => r.effectiveFrom)
    (List.mem_filter.mpr ⟨hr, by simp [halias, hprovider, hactive]⟩ :
      r ∈ s.aliases.filter fun r =>
        r.aliasString == a && r.provider == d.provider && r.activeOn asOf)
  obtain ⟨hmem, hfits⟩ := List.mem_filter.mp hmem
  simp only [Bool.and_eq_true, beq_iff_eq] at hfits
  have howner := h.owner m hmem hfits.1.1 hfits.1.2
  rw [Instruments.findByAlias, hm, Option.bind_some, howner]
  exact find_definition huids hd

/-- `_pick_active_alias` is not ambiguous. -/
theorem IsActive.pickActiveAlias (h : IsActive s d a asOf)
    (hkeys : (s.aliases.map Alias.key).Nodup) :
    ∃ r ∈ s.aliases, r.instrumentUid = d.instrumentUid ∧ r.aliasString = a ∧
      r.activeOn asOf = true ∧ pickActiveAlias s d d.provider asOf = .ok (some r) := by
  obtain ⟨r, hr, hid, hprovider, halias, hactive⟩ := h.window
  let candidates := s.aliases.filter fun r =>
    r.instrumentUid == d.instrumentUid && r.provider == d.provider && r.activeOn asOf
  have hmem : r ∈ candidates := List.mem_filter.mpr ⟨hr, by simp [hid, hprovider, hactive]⟩
  obtain ⟨m, hm, hmem⟩ := argmax_isSome (f := fun r : Alias => r.effectiveFrom) hmem
  have hcandidate : ∀ q ∈ candidates, q ∈ s.aliases ∧ q.instrumentUid = d.instrumentUid ∧
      q.provider = d.provider ∧ q.activeOn asOf = true ∧ q.aliasString = a := by
    intro q hq
    obtain ⟨hq, hfits⟩ := List.mem_filter.mp hq
    simp only [Bool.and_eq_true, beq_iff_eq] at hfits
    exact ⟨hq, hfits.1.1, hfits.1.2, hfits.2, h.windows q hq hfits.1.1 hfits.2⟩
  obtain ⟨hm_mem, hm_id, hm_provider, hm_active, hm_alias⟩ := hcandidate m hmem
  -- two tied rows would have one key
  have htied : candidates.filter (fun q => q.effectiveFrom == m.effectiveFrom) = [m] := by
    have hnodup : (candidates.filter fun q => q.effectiveFrom == m.effectiveFrom).Nodup :=
      (List.Nodup.of_map _ hkeys).filter _ |>.filter _
    have hall : ∀ q ∈ candidates.filter (fun q => q.effectiveFrom == m.effectiveFrom), q = m := by
      intro q hq
      obtain ⟨hq, hfrom⟩ := List.mem_filter.mp hq
      obtain ⟨hq_mem, _, hq_provider, _, hq_alias⟩ := hcandidate q hq
      refine List.inj_on_of_nodup_map hkeys hq_mem hm_mem ?_
      simp [Alias.key, hq_alias, hm_alias, hq_provider, hm_provider, beq_iff_eq.mp hfrom]
    have hself : m ∈ candidates.filter (fun q => q.effectiveFrom == m.effectiveFrom) :=
      List.mem_filter.mpr ⟨hmem, by simp⟩
    by_contra hne
    rcases (hnodup.ne_singleton_iff m).mp hne with hnil | ⟨q, hq, hqm⟩
    · rw [hnil] at hself
      cases hself
    · exact hqm (hall q hq)
  refine ⟨m, hm_mem, hm_id, hm_alias, hm_active, ?_⟩
  simp only [candidates] at hm htied
  simp only [Instruments.pickActiveAlias, hm, htied]
  rfl

/-- What the lookup of an active alias returns. -/
def resolvesTo (d : Definition) (a : String) (r : Alias) :
    Except LiveResolverError (List ResolvedInstrument) :=
  if d.assetClass = .option ∨ d.assetClass = .crypto then
    .error (.unsupportedAssetClass a d.assetClass)
  else
    match buildContractSpec d r with
    | .error e => .error e
    | .ok spec =>
      .ok [{ canonicalId := a, assetClass := d.assetClass, contractSpec := spec
             effectiveWindow := (r.effectiveFrom, r.effectiveTo) }]

/-- A dotted text that is no raw symbol is looked up as an alias. -/
theorem IsActive.findDefinition (h : IsActive s d a asOf) (hd : d ∈ s.definitions)
    (huids : (s.definitions.map (·.instrumentUid)).Nodup) (hdot : '.' ∈ a.toList)
    (hraw : ∀ d' ∈ s.definitions, d'.rawSymbol ≠ a) :
    findDefinition s a d.provider asOf ac = .ok (some d) := by
  have hnil : s.definitions.filter (fun d' => d'.rawSymbol == a && d'.provider == d.provider)
      = [] := List.filter_eq_nil_iff.mpr fun d' hd' => by simp [hraw d' hd']
  have hsymbol : findByRawSymbol s a d.provider ac = .ok none := by
    simp only [findByRawSymbol, hnil]
    cases ac <;> rfl
  simp only [Instruments.findDefinition, hsymbol, if_pos hdot, h.findByAlias hd huids]

/-- **The lookup of an active alias** never misses it and is never ambiguous. -/
theorem IsActive.lookupForLive (h : IsActive s d a asOf) (hd : d ∈ s.definitions)
    (huids : (s.definitions.map (·.instrumentUid)).Nodup)
    (hkeys : (s.aliases.map Alias.key).Nodup) (hdot : '.' ∈ a.toList)
    (hraw : ∀ d' ∈ s.definitions, d'.rawSymbol ≠ a) :
    ∃ r ∈ s.aliases, r.instrumentUid = d.instrumentUid ∧ r.aliasString = a ∧
      r.activeOn asOf = true ∧ lookupForLive s [a] asOf d.provider ac = resolvesTo d a r := by
  obtain ⟨r, hr, hid, halias, hactive, hpick⟩ := h.pickActiveAlias hkeys
  refine ⟨r, hr, hid, halias, hactive, ?_⟩
  have hone : resolveOne s a d.provider asOf ac = resolveDefinition s a d d.provider asOf := by
    rw [resolveOne, h.findDefinition hd huids hdot hraw]
    rfl
  simp only [Instruments.lookupForLive, List.isEmpty_cons, resolveAll, hone, resolveDefinition,
    resolvesTo, hpick]
  by_cases hclass : d.assetClass = .option ∨ d.assetClass = .crypto
  · simp only [if_pos hclass]
    rfl
  · simp only [if_neg hclass]
    cases buildContractSpec d r with
    | error e => rfl
    | ok spec =>
      simp only [halias]
      rfl

end Active

end Msai.Instruments
