import Msai.Instruments.LiveResolver
import Msai.Lib.PyText
import Mathlib.Data.List.TakeDrop

namespace Msai.Instruments

open Msai.Lib

/-!
# The resolver of backtests
(`services/nautilus/security_master/service.py`,
`services/nautilus/security_master/venue_normalization.py`)

`resolve_for_backtest` and `lookup_for_live` read one registry: the first under `databento` on the
start date of a backtest, the second under the provider of its caller on a date.

* `isContinuous`, `normalizeForLookup` — the shapes of a symbol;
* `resolveDotted`, `resolveBare`, `resolveContinuous`, `resolveForBacktest` — the paths;
* `Finds` — what the registry has to hold for a path to return an alias;
* `LiveFinds` — a live lookup returns the instrument of an alias;
* `resolve_alike_iff` — when the two resolvers agree on a raw symbol, and on an alias.

The client of Databento is an argument.
-/

/-! ### Symbols -/

/-- A letter, a digit, an underscore, a slash or a dash. -/
def isRootChar (c : Char) : Bool := c.isAlphanum || c == '_' || c == '/' || c == '-'

/-- `_DATABENTO_CONTINUOUS_SYMBOL`: a root, a letter and a number, with dots between them. -/
def continuousBody (cs : List Char) : Bool :=
  match cs.splitOn '.' with
  | [root, [letter], digits] =>
    !root.isEmpty && root.all isRootChar && letter.isAlpha && !digits.isEmpty &&
      digits.all PyText.isDecimal
  | _ => false

/-- `is_databento_continuous_pattern`. -/
def isContinuous (value : String) : Bool := PyText.matchesLine continuousBody value.toList

/-- `raw_symbol_from_request` of a continuous pattern. -/
def rawSymbolFromRequest (requested : String) : String := PyText.strip requested

/-- `_DATABENTO_EXCHANGE_NAMES`. -/
def databentoExchangeNames : List String := databentoMicToExchangeName.map Prod.snd

/-- `normalize_databento_alias_for_lookup`; `none` is `UnknownDatabentoVenueError`. -/
def normalizeForLookup (aliasString : String) : Option String :=
  match rpartitionDot aliasString with
  | none => none
  | some (symbol, suffix) =>
    if suffix ∈ databentoExchangeNames then some aliasString
    else
      (databentoMicToExchangeName.lookup suffix).map fun exchangeName =>
        symbol ++ "." ++ exchangeName

/-! ### The paths -/

/-- Why `DatabentoDefinitionMissing` is raised. -/
inductive MissingReason
  /-- `Cannot resolve alias …` -/
  | unknownVenue
  /-- `Venue mismatch: …` -/
  | venueMismatch (aliasString : String)
  /-- `No registry row for …` -/
  | noRow
deriving DecidableEq, Repr

inductive BacktestError
  | definitionMissing (symbol : String) (reason : MissingReason)
  /-- `AmbiguousSymbolError`. -/
  | ambiguousSymbol (symbol : String) (classes : List AssetClass)
  /-- `DatabentoClientUnavailableError`. -/
  | clientUnavailable (symbol : String)
  | fetch (message : String)
  | upsert (error : UpsertError)
deriving DecidableEq, Repr

/-- A `ResolvedInstrumentDefinition`. -/
structure ResolvedDefinition where
  instrumentId : String
  rawSymbol : String
  listingVenue : String
  routingVenue : String
  assetClass : AssetClass
deriving DecidableEq, Repr

section Paths

variable (s : Registry) (asOf : ℕ)

/-- The first of `idef.aliases` that is active. -/
def firstActive (d : Definition) : Option Alias :=
  s.aliases.find? fun r => r.instrumentUid == d.instrumentUid && r.activeOn asOf

/-- `find_by_raw_symbol` under `databento`. -/
def findRaw (rawSymbol : String) : Except BacktestError (Option Definition) :=
  match findByRawSymbol s rawSymbol .databento none with
  | .error classes => .error (.ambiguousSymbol rawSymbol classes)
  | .ok d => .ok d

/-- Path 2c, with the requested alias and its normal form. -/
def resolveByRoot (sym lookupAlias : String) : Except BacktestError String :=
  (findRaw s (((rpartitionDot sym).map Prod.fst).getD "")).bind fun d =>
    match d.bind (firstActive s asOf) with
    | none => .error (.definitionMissing sym .noRow)
    | some active =>
      if (normalizeForLookup active.aliasString).getD active.aliasString = lookupAlias then
        .ok active.aliasString
      else .error (.definitionMissing sym (.venueMismatch active.aliasString))

/-- Path 2: a symbol with a dot. -/
def resolveDotted (sym : String) : Except BacktestError String :=
  match normalizeForLookup sym with
  | none => .error (.definitionMissing sym .unknownVenue)
  | some lookupAlias =>
    if (findByAlias s lookupAlias .databento asOf).isSome then .ok lookupAlias
    else if sym ≠ lookupAlias ∧ (findByAlias s sym .databento asOf).isSome then .ok sym
    else resolveByRoot s asOf sym lookupAlias

/-- Path 3: a symbol without a dot. -/
def resolveBare (sym : String) : Except BacktestError String :=
  (findRaw s sym).bind fun d =>
    match d.bind (firstActive s asOf) with
    | none => .error (.definitionMissing sym .noRow)
    | some active => .ok active.aliasString

end Paths

/-- The client, and the dates of the clocks. -/
structure BacktestEnv where
  /-- `fetch_definition_instruments` and `resolved_databento_definition` of a raw symbol. -/
  databento : Option (String → Except String ResolvedDefinition)
  /-- `exchange_local_today()`. -/
  localToday : ℕ
  /-- `datetime.now(UTC).date()`. -/
  utcToday : ℕ

/-- The arguments of the upsert on the cold path. -/
def ResolvedDefinition.upsertArgs (d : ResolvedDefinition) (localToday : ℕ) : UpsertArgs where
  rawSymbol := d.rawSymbol
  listingVenue := d.listingVenue
  routingVenue := d.routingVenue
  assetClass := d.assetClass
  aliasString := d.instrumentId
  provider := .databento
  venueFormat := .databentoContinuous
  sourceVenueRaw := none
  today := localToday

section Resolver

variable (env : BacktestEnv) (s : Registry)

/-- The first of `idef.aliases` that is open. -/
def firstOpen (d : Definition) : Option Alias :=
  s.aliases.find? fun r => r.instrumentUid == d.instrumentUid && r.effectiveTo.isNone

/-- Step 2 of `_resolve_databento_continuous`. -/
def fetchContinuous (raw : String) : Except BacktestError (String × Registry) :=
  match env.databento with
  | none => .error (.clientUnavailable raw)
  | some fetch =>
    match fetch raw with
    | .error message => .error (.fetch message)
    | .ok resolved =>
      match upsert s (resolved.upsertArgs env.localToday) with
      | .error e => .error (.upsert e)
      | .ok s' => .ok (resolved.instrumentId, s')

/-- `_resolve_databento_continuous`. -/
def resolveContinuous (sym : String) : Except BacktestError (String × Registry) :=
  let raw := rawSymbolFromRequest sym
  (findRaw s raw).bind fun d =>
    match d.bind (firstOpen s) with
    | some active => .ok (active.aliasString, s)
    | none => fetchContinuous env s raw

/-- The body of the loop: the alias, and the registry behind it. -/
def resolveSymbol (asOf : ℕ) (sym : String) : Except BacktestError (String × Registry) :=
  if isContinuous sym then resolveContinuous env s sym
  else if '.' ∈ sym.toList then (resolveDotted s asOf sym).map fun a => (a, s)
  else (resolveBare s asOf sym).map fun a => (a, s)

/-- The loop. -/
def resolveSymbols (env : BacktestEnv) (asOf : ℕ) :
    Registry → List String → Except BacktestError (List String × Registry)
  | s, [] => .ok ([], s)
  | s, sym :: symbols =>
    (resolveSymbol env s asOf sym).bind fun r =>
      (resolveSymbols env asOf r.2 symbols).map fun rest => (r.1 :: rest.1, rest.2)

/-- `resolve_for_backtest`. -/
def resolveForBacktest (symbols : List String) (start : Option ℕ) :
    Except BacktestError (List String) :=
  (resolveSymbols env (start.getD env.utcToday) s symbols).map Prod.fst

end Resolver

/-! ### What a path returns -/

/-- An alias is active under `databento`. -/
def ActiveAs (s : Registry) (asOf : ℕ) (aliasString : String) : Prop :=
  ∃ r ∈ s.aliases, r.aliasString = aliasString ∧ r.provider = .databento ∧ r.activeOn asOf = true

/-- Every alias belongs to a definition. -/
def AliasesOwned (s : Registry) : Prop :=
  ∀ r ∈ s.aliases, ∃ d ∈ s.definitions, d.instrumentUid = r.instrumentUid

/-- **What the registry holds** where a symbol is resolved to an alias. -/
inductive Finds (env : BacktestEnv) (s : Registry) (asOf : ℕ) (sym a : String) : Prop
  /-- No dot: the first active row of the instrument has the alias. -/
  | bare (hcontinuous : isContinuous sym = false) (hdot : '.' ∉ sym.toList) (d : Definition)
      (r : Alias) (hraw : findRaw s sym = .ok (some d)) (hfirst : firstActive s asOf d = some r)
      (ha : r.aliasString = a)
  /-- The alias is the normal form of the symbol. -/
  | canonical (hcontinuous : isContinuous sym = false) (hnormal : normalizeForLookup sym = some a)
      (hactive : ActiveAs s asOf a)
  /-- It is the symbol, and the normal form is no active alias. -/
  | historical (hcontinuous : isContinuous sym = false) (normal : String)
      (hnormal : normalizeForLookup sym = some normal) (hmiss : ¬ ActiveAs s asOf normal)
      (hactive : ActiveAs s asOf sym) (ha : sym = a)
  /-- Neither is active, and the instrument of the root has an alias of the same normal form. -/
  | root (hcontinuous : isContinuous sym = false) (normal : String)
      (hnormal : normalizeForLookup sym = some normal) (hmiss : ¬ ActiveAs s asOf normal)
      (hmiss' : ¬ ActiveAs s asOf sym) (d : Definition) (r : Alias)
      (hraw : findRaw s (((rpartitionDot sym).map Prod.fst).getD "") = .ok (some d))
      (hfirst : firstActive s asOf d = some r) (ha : r.aliasString = a)
      (hsame : (normalizeForLookup a).getD a = normal)
  /-- A continuous pattern: the open row of the instrument has the alias. -/
  | continuousOpen (hcontinuous : isContinuous sym = true) (d : Definition) (r : Alias)
      (hraw : findRaw s (rawSymbolFromRequest sym) = .ok (some d)) (hopen : firstOpen s d = some r)
      (ha : r.aliasString = a)
  /-- Or it has none, and the definition that is fetched has it. -/
  | continuousFetched (hcontinuous : isContinuous sym = true) (d : Option Definition)
      (hraw : findRaw s (rawSymbolFromRequest sym) = .ok d) (hopen : d.bind (firstOpen s) = none)
      (s' : Registry) (hfetch : fetchContinuous env s (rawSymbolFromRequest sym) = .ok (a, s'))

section Resolved

variable {env : BacktestEnv} {s s' : Registry} {asOf : ℕ} {sym a : String} {d : Definition}

/-- `find_by_alias` finds what is active. -/
theorem findByAlias_isSome (howned : AliasesOwned s) :
    (findByAlias s a .databento asOf).isSome = true ↔ ActiveAs s asOf a := by
  unfold findByAlias
  cases hlatest : (s.aliases.filter fun r =>
      r.aliasString == a && r.provider == .databento && r.activeOn asOf).argmax
        fun r => r.effectiveFrom with
  | none =>
    refine iff_of_false (by simp) ?_
    rintro ⟨r, hr, halias, hprovider, hactive⟩
    have hmem : r ∈ s.aliases.filter fun r =>
        r.aliasString == a && r.provider == .databento && r.activeOn asOf :=
      List.mem_filter.mpr ⟨hr, by simp [halias, hprovider, hactive]⟩
    rw [List.argmax_eq_none.mp hlatest] at hmem
    exact absurd hmem List.not_mem_nil
  | some r =>
    obtain ⟨hr, hfits⟩ := List.mem_filter.mp (List.argmax_mem hlatest)
    simp only [Bool.and_eq_true, beq_iff_eq] at hfits
    obtain ⟨d, hd, huid⟩ := howned r hr
    refine iff_of_true ?_ ⟨r, hr, hfits.1.1, hfits.1.2, hfits.2⟩
    exact List.find?_isSome.mpr ⟨d, hd, by simp [huid]⟩

/-- Path 2c. -/
theorem resolveByRoot_eq_ok {normal : String} :
    resolveByRoot s asOf sym normal = .ok a ↔
      ∃ d r, findRaw s (((rpartitionDot sym).map Prod.fst).getD "") = .ok (some d) ∧
        firstActive s asOf d = some r ∧ r.aliasString = a ∧
        (normalizeForLookup a).getD a = normal := by
  unfold resolveByRoot
  cases hraw : findRaw s (((rpartitionDot sym).map Prod.fst).getD "") with
  | error e => simp [Except.bind]
  | ok d =>
    cases d with
    | none => simp [Except.bind]
    | some d =>
      cases hfirst : firstActive s asOf d with
      | none => simp [Except.bind, hfirst]
      | some r =>
        simp only [Except.bind, Option.bind_some, hfirst]
        split
        · rename_i hsame
          rw [Except.ok.injEq]
          constructor
          · rintro rfl
            exact ⟨d, r, rfl, hfirst, rfl, hsame⟩
          · rintro ⟨d', r', hd, hr, ha, -⟩
            obtain rfl := Option.some.inj (Except.ok.inj hd)
            obtain rfl := Option.some.inj (hfirst.symm.trans hr)
            exact ha
        · rename_i hother
          refine iff_of_false (by simp) ?_
          rintro ⟨d', r', hd, hr, rfl, hsame⟩
          obtain rfl := Option.some.inj (Except.ok.inj hd)
          obtain rfl := Option.some.inj (hfirst.symm.trans hr)
          exact hother hsame

/-- Path 3. -/
theorem resolveBare_eq_ok : resolveBare s asOf sym = .ok a ↔
    ∃ d r, findRaw s sym = .ok (some d) ∧ firstActive s asOf d = some r ∧ r.aliasString = a := by
  unfold resolveBare
  cases hraw : findRaw s sym with
  | error e => simp [Except.bind]
  | ok d =>
    cases d with
    | none => simp [Except.bind]
    | some d =>
      cases hfirst : firstActive s asOf d with
      | none => simp [Except.bind, hfirst]
      | some r => simp [Except.bind, hfirst]

/-- Path 1. -/
theorem resolveContinuous_eq_ok : resolveContinuous env s sym = .ok (a, s') ↔
    ∃ d, findRaw s (rawSymbolFromRequest sym) = .ok d ∧
      ((∃ d' r, d = some d' ∧ firstOpen s d' = some r ∧ r.aliasString = a ∧ s = s') ∨
        d.bind (firstOpen s) = none ∧
          fetchContinuous env s (rawSymbolFromRequest sym) = .ok (a, s')) := by
  unfold resolveContinuous
  dsimp only
  cases hraw : findRaw s (rawSymbolFromRequest sym) with
  | error e => simp [Except.bind]
  | ok d =>
    cases d with
    | none => simp [Except.bind]
    | some d =>
      cases hopen : firstOpen s d with
      | none => simp [Except.bind, hopen]
      | some r => simp [Except.bind, hopen]

/-- A symbol with a venue has a dot. -/
theorem dot_of_normalize {normal : String} (h : normalizeForLookup sym = some normal) :
    '.' ∈ sym.toList := by
  by_contra hdot
  rw [normalizeForLookup, rpartitionDot_eq_none.mpr hdot] at h
  cases h

/-- Path 2. -/
theorem resolveDotted_iff (howned : AliasesOwned s) (hdot : '.' ∈ sym.toList)
    (hcontinuous : isContinuous sym = false) :
    resolveDotted s asOf sym = .ok a ↔ Finds env s asOf sym a := by
  cases hnormal : normalizeForLookup sym with
  | none =>
    simp only [resolveDotted, hnormal]
    refine iff_of_false (by simp) fun h => ?_
    cases h with
    | bare _ h => exact h hdot
    | canonical _ h => exact absurd (hnormal.symm.trans h) (by simp)
    | historical _ _ h => exact absurd (hnormal.symm.trans h) (by simp)
    | root _ _ h => exact absurd (hnormal.symm.trans h) (by simp)
    | continuousOpen h => exact absurd (hcontinuous.symm.trans h) (by simp)
    | continuousFetched h => exact absurd (hcontinuous.symm.trans h) (by simp)
  | some normal =>
    simp only [resolveDotted, hnormal]
    have hfound : ∀ b, (findByAlias s b .databento asOf).isSome = true ↔ ActiveAs s asOf b :=
      fun b => findByAlias_isSome howned
    constructor
    · intro h
      split at h
      · rename_i hactive
        obtain rfl := Except.ok.inj h
        exact .canonical hcontinuous hnormal ((hfound normal).mp hactive)
      · rename_i hmiss
        rw [hfound] at hmiss
        split at h
        · rename_i hhistorical
          obtain rfl := Except.ok.inj h
          exact .historical hcontinuous normal hnormal hmiss ((hfound sym).mp hhistorical.2) rfl
        · rename_i hother
          rw [hfound] at hother
          obtain ⟨d, r, hraw, hfirst, ha, hsame⟩ := resolveByRoot_eq_ok.mp h
          refine .root hcontinuous normal hnormal hmiss (fun hactive => ?_) d r hraw hfirst ha hsame
          by_cases hne : sym = normal
          · exact hmiss (hne ▸ hactive)
          · exact hother ⟨hne, hactive⟩
    · intro h
      cases h with
      | bare _ h => exact absurd hdot h
      | canonical _ h hactive =>
        obtain rfl := Option.some.inj (hnormal.symm.trans h)
        rw [if_pos ((hfound normal).mpr hactive)]
      | historical _ normal' h hmiss hactive ha =>
        obtain rfl := Option.some.inj (hnormal.symm.trans h)
        have hne : sym ≠ normal := fun hsym => hmiss (hsym ▸ hactive)
        rw [if_neg (mt (hfound normal).mp hmiss), if_pos ⟨hne, (hfound sym).mpr hactive⟩, ha]
      | root _ normal' h hmiss hmiss' d r hraw hfirst ha hsame =>
        obtain rfl := Option.some.inj (hnormal.symm.trans h)
        rw [if_neg (mt (hfound normal).mp hmiss),
          if_neg fun hactive => hmiss' ((hfound sym).mp hactive.2)]
        exact resolveByRoot_eq_ok.mpr ⟨d, r, hraw, hfirst, ha, hsame⟩
      | continuousOpen h => exact absurd (hcontinuous.symm.trans h) (by simp)
      | continuousFetched h => exact absurd (hcontinuous.symm.trans h) (by simp)

/-- **A symbol of a backtest** is resolved to an alias where the registry has it for the symbol. -/
theorem resolveSymbol_iff (howned : AliasesOwned s) :
    (∃ s', resolveSymbol env s asOf sym = .ok (a, s')) ↔ Finds env s asOf sym a := by
  cases hcontinuous : isContinuous sym with
  | true =>
    simp only [resolveSymbol, hcontinuous, if_true, resolveContinuous_eq_ok]
    constructor
    · rintro ⟨s', d, hraw, ⟨d', r, rfl, hopen, ha, -⟩ | ⟨hopen, hfetch⟩⟩
      · exact .continuousOpen hcontinuous d' r hraw hopen ha
      · exact .continuousFetched hcontinuous d hraw hopen s' hfetch
    · intro h
      cases h with
      | continuousOpen _ d r hraw hopen ha =>
        exact ⟨s, some d, hraw, Or.inl ⟨d, r, rfl, hopen, ha, rfl⟩⟩
      | continuousFetched _ d hraw hopen s' hfetch =>
        exact ⟨s', d, hraw, Or.inr ⟨hopen, hfetch⟩⟩
      | bare h => exact absurd (hcontinuous.symm.trans h) (by simp)
      | canonical h => exact absurd (hcontinuous.symm.trans h) (by simp)
      | historical h => exact absurd (hcontinuous.symm.trans h) (by simp)
      | root h => exact absurd (hcontinuous.symm.trans h) (by simp)
  | false =>
    by_cases hdot : '.' ∈ sym.toList
    · have hpath : (∃ s', resolveSymbol env s asOf sym = .ok (a, s')) ↔
          resolveDotted s asOf sym = .ok a := by
        simp only [resolveSymbol, hcontinuous, Bool.false_eq_true, if_false, if_pos hdot]
        cases resolveDotted s asOf sym <;> simp [Except.map]
      rw [hpath, resolveDotted_iff howned hdot hcontinuous]
    · have hpath : (∃ s', resolveSymbol env s asOf sym = .ok (a, s')) ↔
          resolveBare s asOf sym = .ok a := by
        simp only [resolveSymbol, hcontinuous, Bool.false_eq_true, if_false, if_neg hdot]
        cases resolveBare s asOf sym <;> simp [Except.map]
      rw [hpath, resolveBare_eq_ok]
      constructor
      · rintro ⟨d, r, hraw, hfirst, ha⟩
        exact .bare hcontinuous hdot d r hraw hfirst ha
      · intro h
        cases h with
        | bare _ _ d r hraw hfirst ha => exact ⟨d, r, hraw, hfirst, ha⟩
        | canonical _ hnormal => exact absurd (dot_of_normalize hnormal) hdot
        | historical _ _ hnormal => exact absurd (dot_of_normalize hnormal) hdot
        | root _ _ hnormal => exact absurd (dot_of_normalize hnormal) hdot
        | continuousOpen h => exact absurd (hcontinuous.symm.trans h) (by simp)
        | continuousFetched h => exact absurd (hcontinuous.symm.trans h) (by simp)

/-- One symbol is one turn of the loop. -/
theorem resolveForBacktest_iff (howned : AliasesOwned s) :
    resolveForBacktest env s [sym] (some asOf) = .ok [a] ↔ Finds env s asOf sym a := by
  rw [← resolveSymbol_iff howned]
  simp only [resolveForBacktest, Option.getD_some, resolveSymbols]
  cases resolveSymbol env s asOf sym with
  | error e => simp [Except.bind, Except.map]
  | ok r =>
    simp only [Except.bind, Except.map, Except.ok.injEq, List.cons.injEq, and_true]
    constructor
    · intro h
      exact ⟨r.2, Prod.ext h rfl⟩
    · rintro ⟨s', rfl⟩
      rfl

end Resolved

/-! ### The two resolvers -/

/-- A raw symbol is registered under a provider: it has one instrument, with one alias on the
    date. -/
structure Registered (s : Registry) (provider : Provider) (assetClass : Option AssetClass)
    (sym : String) (asOf : ℕ) (d : Definition) (r : Alias) : Prop where
  definition : findByRawSymbol s sym provider assetClass = .ok (some d)
  active : pickActiveAlias s d provider asOf = .ok (some r)

/-- A text with a dot is registered as an alias under a provider, and is no raw symbol. -/
structure RegisteredAlias (s : Registry) (provider : Provider) (sym : String) (asOf : ℕ)
    (d : Definition) (r : Alias) : Prop where
  dot : '.' ∈ sym.toList
  noRawSymbol : ∀ d' ∈ s.definitions, d'.rawSymbol ≠ sym
  definition : findByAlias s sym provider asOf = some d
  active : pickActiveAlias s d provider asOf = .ok (some r)

/-- A live lookup returns one instrument, under the alias. -/
def LiveFinds (s : Registry) (sym : String) (asOf : ℕ) (p : Provider) (ac : Option AssetClass)
    (aliasString : String) : Prop :=
  ∃ x, lookupForLive s [sym] asOf p ac = .ok [x] ∧ x.canonicalId = aliasString

section Both

variable {s : Registry} {p : Provider} {ac : Option AssetClass} {sym : String} {asOf : ℕ}
  {d : Definition} {r : Alias} {a : String}

/-- A live lookup returns an instrument where the definition that it finds has a contract. -/
theorem liveFinds_iff (hdefinition : findDefinition s sym p asOf ac = .ok (some d))
    (hactive : pickActiveAlias s d p asOf = .ok (some r)) :
    LiveFinds s sym asOf p ac a ↔ Tradable d r ∧ r.aliasString = a := by
  have hone : resolveOne s sym p asOf ac = resolveDefinition s sym d p asOf := by
    rw [resolveOne, hdefinition]
    rfl
  simp only [LiveFinds, lookupForLive, List.isEmpty_cons, resolveAll, hone, resolveDefinition,
    hactive]
  by_cases hclass : d.assetClass = .option ∨ d.assetClass = .crypto
  · -- refused before the contract is built, which would be refused too
    simp only [if_pos hclass]
    refine iff_of_false (by simp [Except.bind]) fun h => ?_
    rcases hclass with hclass | hclass <;> simpa [hclass] using h.1.contract
  · simp only [if_neg hclass]
    rw [← buildContractSpec_isOk]
    cases buildContractSpec d r with
    | error e => simp [Except.bind]
    | ok spec => simp [Except.bind, Except.map]

/-- A registered symbol is found as a raw symbol, with or without a dot. -/
theorem Registered.liveFinds_iff (h : Registered s p ac sym asOf d r) :
    LiveFinds s sym asOf p ac a ↔ Tradable d r ∧ r.aliasString = a :=
  Instruments.liveFinds_iff (by rw [findDefinition, h.definition]) h.active

/-- An alias is found as an alias. -/
theorem RegisteredAlias.liveFinds_iff (h : RegisteredAlias s p sym asOf d r) :
    LiveFinds s sym asOf p ac a ↔ Tradable d r ∧ r.aliasString = a := by
  refine Instruments.liveFinds_iff ?_ h.active
  have hnil : s.definitions.filter (fun d' => d'.rawSymbol == sym && d'.provider == p) = [] :=
    List.filter_eq_nil_iff.mpr fun d' hd' => by simp [h.noRawSymbol d' hd']
  have hsymbol : findByRawSymbol s sym p ac = .ok none := by
    simp only [findByRawSymbol, hnil]
    cases ac <;> rfl
  simp only [findDefinition, hsymbol, if_pos h.dot, h.definition]

/-- **The resolvers agree** on a raw symbol, and on an alias that is no raw symbol, exactly where
    the path that the shape of the text selects finds the alias and the live definition has a
    contract under the same one. -/
theorem resolve_alike_iff {env : BacktestEnv} {s : Registry} {p : Provider}
    {ac : Option AssetClass} {sym : String} {asOf : ℕ} {d d' : Definition} {r r' : Alias}
    (howned : AliasesOwned s) :
    (Registered s .databento none sym asOf d r → Registered s p ac sym asOf d' r' →
      ((resolveForBacktest env s [sym] (some asOf) = .ok [r.aliasString] ∧
          LiveFinds s sym asOf p ac r.aliasString) ↔
        Finds env s asOf sym r.aliasString ∧ Tradable d' r' ∧
          r'.aliasString = r.aliasString)) ∧
      (ActiveAs s asOf sym → RegisteredAlias s p sym asOf d' r' →
        ((resolveForBacktest env s [sym] (some asOf) = .ok [sym] ∧
            LiveFinds s sym asOf p ac sym) ↔
          Finds env s asOf sym sym ∧ Tradable d' r' ∧ r'.aliasString = sym)) := by
  constructor
  · intro _ hlive
    rw [resolveForBacktest_iff howned, hlive.liveFinds_iff]
  · intro _ hlive
    rw [resolveForBacktest_iff howned, hlive.liveFinds_iff]

/-- An equity that is registered under both providers from the first day of the calendar. -/
def listed (rawSymbol listingVenue aliasString : String) : Registry where
  definitions :=
    [⟨0, rawSymbol, listingVenue, "SMART", .equity, .databento⟩,
      ⟨1, rawSymbol, listingVenue, "SMART", .equity, .interactiveBrokers⟩]
  aliases :=
    [⟨0, aliasString, .exchangeName, none, .databento, 0, none⟩,
      ⟨1, aliasString, .exchangeName, none, .interactiveBrokers, 0, none⟩]
  nextUid := 2
  today := 2

/-- `AAPL` and its alias, under both providers. -/
theorem resolve_alike_iff_apple :
    let s := listed "AAPL" "NASDAQ" "AAPL.NASDAQ"
    let env : BacktestEnv := ⟨none, 2, 2⟩
    (resolveForBacktest env s ["AAPL"] (some 1) = .ok ["AAPL.NASDAQ"] ∧
        LiveFinds s "AAPL" 1 .interactiveBrokers none "AAPL.NASDAQ") ∧
      resolveForBacktest env s ["AAPL.NASDAQ"] (some 1) = .ok ["AAPL.NASDAQ"] ∧
        LiveFinds s "AAPL.NASDAQ" 1 .interactiveBrokers none "AAPL.NASDAQ" := by
  intro s env
  have howned : AliasesOwned s := by
    unfold AliasesOwned
    decide
  have happle : Registered s .databento none "AAPL" 1 s.definitions[0] s.aliases[0] :=
    ⟨by decide, by decide⟩
  have happle' : Registered s .interactiveBrokers none "AAPL" 1 s.definitions[1] s.aliases[1] :=
    ⟨by decide, by decide⟩
  have halias : RegisteredAlias s .interactiveBrokers "AAPL.NASDAQ" 1 s.definitions[1]
      s.aliases[1] := ⟨by decide, by decide, by decide, by decide⟩
  have hactive : ActiveAs s 1 "AAPL.NASDAQ" := ⟨s.aliases[0], by decide, by decide⟩
  have htradable : Tradable s.definitions[1] s.aliases[1] := ⟨by decide, by decide, Or.inl rfl⟩
  have hbare : Finds env s 1 "AAPL" "AAPL.NASDAQ" :=
    .bare (by decide) (by decide) s.definitions[0] s.aliases[0] (by decide) (by decide) rfl
  have hcanonical : Finds env s 1 "AAPL.NASDAQ" "AAPL.NASDAQ" :=
    .canonical (by decide) (by decide) hactive
  have hraw := (@resolve_alike_iff env s .interactiveBrokers none "AAPL" 1 _ _ _ _ howned).1
    happle happle'
  have hdotted := (@resolve_alike_iff env s .interactiveBrokers none "AAPL.NASDAQ" 1
    s.definitions[0] _ s.aliases[0] _ howned).2 hactive halias
  exact ⟨hraw.mpr ⟨hbare, htradable, rfl⟩, hdotted.mpr ⟨hcanonical, htradable, rfl⟩⟩

/-- `BRK.B` is registered under both providers, and a backtest of it is refused: the text after the
    dot is no venue. -/
theorem resolve_alike_fails :
    let s := listed "BRK.B" "NYSE" "BRK.B.NYSE"
    let env : BacktestEnv := ⟨none, 2, 2⟩
    Registered s .databento none "BRK.B" 1 s.definitions[0] s.aliases[0] ∧
      Registered s .interactiveBrokers none "BRK.B" 1 s.definitions[1] s.aliases[1] ∧
      resolveForBacktest env s ["BRK.B"] (some 1) =
        .error (.definitionMissing "BRK.B" .unknownVenue) ∧
      (lookupForLive s ["BRK.B"] 1 .interactiveBrokers none).map
        (fun l => l.map fun x => x.canonicalId) = .ok ["BRK.B.NYSE"] := by
  refine ⟨⟨by decide, by decide⟩, ⟨by decide, by decide⟩, by decide, by decide⟩

end Both

end Msai.Instruments
