import Msai.Lib.PyText

namespace Msai.Onboarding

open Msai.Lib

/-!
# Where onboarded bars are stored and looked for
(`services/data_ingestion.py`, `services/parquet_store.py`, `services/symbol_onboarding/`)

The onboarding of a symbol ingests its bars and then asks for their coverage.  The ingest stores
them under a raw symbol that it derives from the request; the coverage reads the directory and the
partition index under the symbol as it was requested.

* `OnboardSymbolSpec` — a symbol the request schema accepts;
* `rawSymbolFromRequest`, `writeBars`, `ingestHistorical` — the write path;
* `coverageDirectory`, `coverageKey` — the read path;
* `AsIs` — the condition: the symbol has no dot, or is a continuous future, and has no line feed;
* `rawSymbol_eq_iff` — the raw symbol is the symbol exactly then;
* `onboarded_found_iff` — the theorem over any onboarded symbols.
-/

/-! ### The request -/

/-- `OnboardSymbolSpec.asset_class`. -/
inductive AssetClass
  | equity
  | futures
  | fx
  | option
deriving DecidableEq, Repr

/-- `normalize_asset_class_for_ingest`. -/
def AssetClass.normalizeForIngest : AssetClass → String
  | .equity => "stocks"
  | .futures => "futures"
  | .fx => "forex"
  | .option => "options"

/-- A letter, a digit, or one of `.`, `_`, `/`, `-`. -/
def isSymbolChar (c : Char) : Bool :=
  c.isAlphanum || c == '.' || c == '_' || c == '/' || c == '-'

/-- `_SYMBOL_PATTERN` of the request schema. -/
def symbolPattern (s : String) : Bool :=
  PyText.matchesLine (fun cs => !cs.isEmpty && cs.all isSymbolChar) s.toList

/-- A symbol of an onboarding request. -/
structure OnboardSymbolSpec where
  symbol : String
  assetClass : AssetClass
  min_length : 1 ≤ symbol.length
  max_length : symbol.length ≤ 32
  symbol_regex : symbolPattern symbol = true
deriving DecidableEq

/-! ### The raw symbol -/

/-- A letter, a digit, or one of `_`, `/`, `-`. -/
def isRootChar (c : Char) : Bool := c.isAlphanum || c == '_' || c == '/' || c == '-'

/-- A root, a letter and a number, with dots between them. -/
def continuousChars (cs : List Char) : Bool :=
  match cs.dropWhile isRootChar with
  | '.' :: roll :: '.' :: rank =>
    !(cs.takeWhile isRootChar).isEmpty && roll.isAlpha && !rank.isEmpty && rank.all Char.isDigit
  | _ => false

/-- `_DATABENTO_CONTINUOUS_SYMBOL`.  In an accepted symbol `\d` is an ASCII digit. -/
def continuousSymbol (s : String) : Bool := PyText.matchesLine continuousChars s.toList

/-- What the ingest may raise. -/
inductive IngestError
  | emptySymbol
  /-- An exception of the provider or of its configuration. -/
  | provider (text : String)
  | noData
deriving DecidableEq, Repr

/-- `_raw_symbol_from_request`. -/
def rawSymbolFromRequest (requestedSymbol : String) : Except IngestError String :=
  let value := PyText.strip requestedSymbol
  if value = "" then .error .emptySymbol
  else if continuousSymbol value then .ok value
  -- `value.split(".", 1)[0]`
  else if '.' ∈ value.toList then .ok (String.ofList (value.toList.takeWhile fun c => c != '.'))
  else .ok value

structure HistoricalIngestTarget where
  requestedSymbol : String
  rawSymbol : String
  instrumentId : Option String
deriving DecidableEq, Repr

/-- `_build_ingest_targets`: the first request of each raw symbol. -/
def buildIngestTargets (requestedSymbols : List String) :
    Except IngestError (List HistoricalIngestTarget) :=
  requestedSymbols.foldlM
    (fun targets requestedSymbol => do
      let rawSymbol ← rawSymbolFromRequest requestedSymbol
      -- a second request of the raw symbol is skipped
      if targets.any fun t => t.rawSymbol == rawSymbol then return targets
      else return targets ++ [⟨requestedSymbol, rawSymbol, none⟩])
    []

/-! ### The store -/

/-- A path, component by component; an absolute one begins with `/`. -/
abbrev Path := List String

/-- `p / s`. -/
def Path.div (p : Path) (s : String) : Path :=
  let parts := ((s.toList.splitOn '/').map String.ofList).filter fun c => c != "" && c != "."
  if PyText.startsWith s "/" then "/" :: parts else p ++ parts

/-- A letter, a digit, or one of `.`, `_`, `-`. -/
def isStoreChar (c : Char) : Bool := c.isAlphanum || c == '.' || c == '_' || c == '-'

/-- `_SYMBOL_PATTERN` of the Parquet store. -/
def storePattern (s : String) : Bool :=
  PyText.matchesLine (fun cs => decide (1 ≤ cs.length ∧ cs.length ≤ 20) && cs.all isStoreChar)
    s.toList

/-- The month of a bar; its other columns play no part here. -/
structure Bar where
  year : ℕ
  month : ℕ
deriving DecidableEq, Repr

/-- One month of bars on disk, with the key of its row in `parquet_partition_index`. -/
structure Partition where
  directory : Path
  assetClass : String
  symbol : String
  year : ℕ
  month : ℕ
deriving DecidableEq, Repr

/-- `write_bars`: the partitions it writes.  A symbol that the store rejects is logged. -/
def writeBars (root : Path) (assetClass symbol : String) (frame : List Bar) : List Partition :=
  if storePattern symbol then
    frame.dedup.map fun bar =>
      { directory := (root.div assetClass).div symbol
        assetClass := assetClass
        symbol := symbol
        year := bar.year
        month := bar.month }
  else []

/-! ### The ingest -/

/-- The partitions an ingest has written, the bars it reports, and the exception it ends in. -/
structure IngestOutcome where
  written : List Partition
  ingested : List (String × ℕ)
  error : Option IngestError
deriving DecidableEq, Repr

/-- The loop over the targets.  What was written before an exception stays. -/
def ingestTargets (fetchBars : String → Except String (List Bar)) (root : Path)
    (assetClass : String) : List HistoricalIngestTarget → IngestOutcome
  | [] => ⟨[], [], none⟩
  | target :: targets =>
    match fetchBars target.rawSymbol with
    | .error text => ⟨[], [], some (.provider text)⟩
    | .ok frame =>
      let rest := ingestTargets fetchBars root assetClass targets
      { rest with
        written := writeBars root assetClass target.rawSymbol frame ++ rest.written
        ingested := (target.rawSymbol, frame.length) :: rest.ingested }

/-- `ingest_historical`.  `fetchBars` is the provider with its plan and dates. -/
def ingestHistorical (fetchBars : String → Except String (List Bar)) (root : Path)
    (assetClass : String) (symbols : List String) : IngestOutcome :=
  match buildIngestTargets symbols with
  | .error e => ⟨[], [], some e⟩
  | .ok targets =>
    let outcome := ingestTargets fetchBars root assetClass targets
    -- no bars for any target
    if outcome.error.isNone && outcome.ingested.all fun d => d.2 == 0 then
      { outcome with error := some .noData }
    else outcome

/-! ### The onboarding of one symbol -/

/-- `settings.parquet_root`. -/
def parquetRoot (dataRoot : Path) : Path := dataRoot.div "parquet"

/-- Phase 2 of `_onboard_one_symbol`. -/
def OnboardSymbolSpec.ingest (spec : OnboardSymbolSpec)
    (fetchBars : String → String → Except String (List Bar)) (dataRoot : Path) : IngestOutcome :=
  ingestHistorical (fetchBars spec.assetClass.normalizeForIngest) (parquetRoot dataRoot)
    spec.assetClass.normalizeForIngest [spec.symbol]

/-- The directory that `compute_coverage` walks. -/
def coverageDirectory (dataRoot : Path) (assetClass symbol : String) : Path :=
  ((dataRoot.div "parquet").div assetClass).div symbol

/-- The rows that `compute_coverage` selects from the partition index in phase 3 of
    `_onboard_one_symbol`. -/
def coverageKey (spec : OnboardSymbolSpec) : String × String :=
  (spec.assetClass.normalizeForIngest, spec.symbol)

/-- The asset class and the symbol of the partition's row in the index. -/
def Partition.storageKey (p : Partition) : String × String := (p.assetClass, p.symbol)

/-- `compute_coverage` for the symbol looks where the partition was stored. -/
structure Partition.FoundBy (p : Partition) (dataRoot : Path) (spec : OnboardSymbolSpec) :
    Prop where
  directory : p.directory =
    coverageDirectory dataRoot spec.assetClass.normalizeForIngest spec.symbol
  key : p.storageKey = coverageKey spec

/-- The symbol is not normalised: no line feed, and no dot but those of a continuous future. -/
def OnboardSymbolSpec.AsIs (spec : OnboardSymbolSpec) : Prop :=
  '\n' ∉ spec.symbol.toList ∧ ('.' ∈ spec.symbol.toList → continuousSymbol spec.symbol = true)

instance (spec : OnboardSymbolSpec) : Decidable spec.AsIs :=
  inferInstanceAs (Decidable (_ ∧ (_ → _)))

/-! ### The raw symbol of an accepted one -/

section RawSymbol

variable {spec : OnboardSymbolSpec} {raw : String} {cs : List Char} {c : Char}

/-- The characters of a symbol are no white space. -/
theorem isSpace_of_isSymbolChar (h : isSymbolChar c = true) : PyText.isSpace c = false := by
  have hrange : (97 ≤ c.toNat ∧ c.toNat ≤ 122) ∨ (65 ≤ c.toNat ∧ c.toNat ≤ 90) ∨
      (48 ≤ c.toNat ∧ c.toNat ≤ 57) ∨ c.toNat = 46 ∨ c.toNat = 95 ∨ c.toNat = 47 ∨
      c.toNat = 45 := by
    unfold isSymbolChar Char.isAlphanum Char.isAlpha Char.isUpper Char.isLower Char.isDigit at h
    simp only [Bool.or_eq_true, beq_iff_eq, Bool.and_eq_true, decide_eq_true_eq,
      UInt32.le_iff_toNat_le, ge_iff_le] at h
    have hval : c.toNat = c.val.toNat := rfl
    -- upper case, lower case, a digit, or one of the four signs
    rcases h with (((((h | h) | h) | rfl) | rfl) | rfl) | rfl
    · exact Or.inr (Or.inl h)
    · exact Or.inl h
    · exact Or.inr (Or.inr (Or.inl h))
    all_goals decide
  simp only [PyText.isSpace, Bool.or_eq_false_iff, decide_eq_false_iff_not, beq_eq_false_iff_ne]
  omega

/-- An accepted symbol is a body without white space, or one behind which a line feed stands. -/
theorem OnboardSymbolSpec.body_cases (spec : OnboardSymbolSpec) :
    ∃ body : List Char, body ≠ [] ∧ (∀ c ∈ body, isSymbolChar c = true) ∧
      (spec.symbol.toList = body ∨ spec.symbol.toList = body ++ ['\n']) := by
  have hbody : ∀ cs : List Char, (!cs.isEmpty && cs.all isSymbolChar) = true →
      cs ≠ [] ∧ ∀ c ∈ cs, isSymbolChar c = true := by
    intro cs h
    simpa using h
  rcases PyText.matchesLine_cases spec.symbol_regex with h | ⟨body, heq, h⟩
  · exact ⟨_, (hbody _ h).1, (hbody _ h).2, Or.inl rfl⟩
  · exact ⟨body, (hbody _ h).1, (hbody _ h).2, Or.inr heq⟩

/-- `strip` leaves the body. -/
theorem strip_of_body {body : List Char} (hne : body ≠ [])
    (hbody : ∀ c ∈ body, isSymbolChar c = true) {s : String}
    (h : s.toList = body ∨ s.toList = body ++ ['\n']) :
    PyText.strip s = String.ofList body := by
  have hspace : ∀ c ∈ body, PyText.isSpace c = false :=
    fun c hc => isSpace_of_isSymbolChar (hbody c hc)
  rw [PyText.strip]
  rcases h with h | h
  · rw [h, PyText.stripChars_eq_self hspace]
  · rw [h, PyText.stripChars_concat hne hspace (by decide)]

/-- The raw symbol of a body is the body, unless it is cut at a dot. -/
theorem rawSymbolFromRequest_of_strip {s : String} {body : List Char}
    (hstrip : PyText.strip s = String.ofList body) (h : rawSymbolFromRequest s = .ok raw) :
    raw.toList = body ∧ ('.' ∈ body → continuousSymbol (String.ofList body) = true) ∨
      '.' ∈ body ∧ continuousSymbol (String.ofList body) = false ∧ '.' ∉ raw.toList ∧
        raw.toList <+: body := by
  unfold rawSymbolFromRequest at h
  simp only [hstrip] at h
  split at h
  · exact absurd h (by simp)
  · split at h
    · rename_i hcontinuous
      obtain rfl := Except.ok.inj h
      exact Or.inl ⟨String.toList_ofList, fun _ => hcontinuous⟩
    · rename_i hcontinuous
      split at h
      · rename_i hdot
        obtain rfl := Except.ok.inj h
        rw [String.toList_ofList] at hdot
        -- the part before the first dot has no dot
        refine Or.inr ⟨hdot, by simpa using hcontinuous, ?_, ?_⟩
        · rw [String.toList_ofList]
          intro hmem
          simpa using List.mem_takeWhile_imp hmem
        · rw [String.toList_ofList, String.toList_ofList]
          exact List.takeWhile_prefix _
      · rename_i hdot
        obtain rfl := Except.ok.inj h
        rw [String.toList_ofList] at hdot
        exact Or.inl ⟨String.toList_ofList, fun hmem => absurd hmem hdot⟩

/-- **The raw symbol is the symbol** exactly if the symbol is not normalised. -/
theorem rawSymbol_eq_iff (h : rawSymbolFromRequest spec.symbol = .ok raw) :
    raw = spec.symbol ↔ spec.AsIs := by
  obtain ⟨body, hne, hbody, hcases⟩ := spec.body_cases
  have hraw := rawSymbolFromRequest_of_strip (strip_of_body hne hbody hcases) h
  have hfeed : '\n' ∉ body := fun hmem => absurd (hbody _ hmem) (by decide)
  rcases hcases with hsymbol | hsymbol
  · -- no line feed: the symbol is cut at a dot or kept
    have hspec : spec.symbol = String.ofList body := by rw [← hsymbol, String.ofList_toList]
    rw [OnboardSymbolSpec.AsIs, hsymbol, hspec]
    rcases hraw with ⟨hraw, hdot⟩ | ⟨hdot, hcontinuous, hcut, -⟩
    · refine iff_of_true ?_ ⟨hfeed, hdot⟩
      rw [← hraw, String.ofList_toList]
    · refine iff_of_false (fun heq => hcut ?_) fun hasIs => ?_
      · rw [heq, String.toList_ofList]
        exact hdot
      · rw [hasIs.2 hdot] at hcontinuous
        exact absurd hcontinuous (by decide)
  · -- the line feed is stripped
    have hin : '\n' ∈ spec.symbol.toList := by simp [hsymbol]
    refine iff_of_false (fun heq => ?_) fun hasIs => hasIs.1 hin
    have hout : '\n' ∉ raw.toList := by
      rcases hraw with ⟨hraw, -⟩ | ⟨-, -, -, hpre⟩
      · rwa [hraw]
      · exact fun hmem => hfeed (hpre.subset hmem)
    rw [heq] at hout
    exact hout hin

end RawSymbol

/-! ### What an onboarding writes -/

section Onboarding

variable {fetchBars : String → String → Except String (List Bar)} {dataRoot : Path}
  {spec s t : OnboardSymbolSpec} {p q : Partition}

/-- A partition of the store has the directory and the key it was written with. -/
theorem mem_writeBars {root : Path} {assetClass symbol : String} {frame : List Bar}
    (h : p ∈ writeBars root assetClass symbol frame) :
    p.directory = (root.div assetClass).div symbol ∧ p.storageKey = (assetClass, symbol) := by
  unfold writeBars at h
  split at h
  · obtain ⟨bar, -, rfl⟩ := List.mem_map.mp h
    exact ⟨rfl, rfl⟩
  · exact absurd h List.not_mem_nil

/-- The one target of an onboarding. -/
theorem buildIngestTargets_singleton (symbol : String) :
    buildIngestTargets [symbol] =
      (rawSymbolFromRequest symbol).map fun raw => [⟨symbol, raw, none⟩] := by
  cases h : rawSymbolFromRequest symbol with
  | error e => simp [buildIngestTargets, h, Except.map, bind, Except.bind]
  | ok raw => simp [buildIngestTargets, h, Except.map, bind, Except.bind, pure, Except.pure]

/-- An onboarding writes under the raw symbol. -/
theorem mem_ingest (h : p ∈ (spec.ingest fetchBars dataRoot).written) :
    ∃ raw, rawSymbolFromRequest spec.symbol = .ok raw ∧
      p.directory = coverageDirectory dataRoot spec.assetClass.normalizeForIngest raw ∧
      p.storageKey = (spec.assetClass.normalizeForIngest, raw) := by
  unfold OnboardSymbolSpec.ingest ingestHistorical at h
  rw [buildIngestTargets_singleton] at h
  cases hraw : rawSymbolFromRequest spec.symbol with
  | error e =>
    rw [hraw] at h
    exact absurd h List.not_mem_nil
  | ok raw =>
    rw [hraw] at h
    refine ⟨raw, rfl, ?_⟩
    simp only [Except.map, ingestTargets] at h
    cases hframe : fetchBars spec.assetClass.normalizeForIngest raw with
    | error text =>
      simp [hframe] at h
    | ok frame =>
      have hmem : p ∈ writeBars (parquetRoot dataRoot) spec.assetClass.normalizeForIngest raw
          frame := by
        simp only [hframe] at h
        split at h <;> simpa using h
      exact mem_writeBars hmem

/-- A partition is where the coverage looks for it exactly if the symbol is not normalised. -/
theorem foundBy_iff (h : p ∈ (spec.ingest fetchBars dataRoot).written) :
    p.FoundBy dataRoot spec ↔ spec.AsIs := by
  obtain ⟨raw, hraw, hdirectory, hkey⟩ := mem_ingest h
  rw [← rawSymbol_eq_iff hraw]
  constructor
  · intro hfound
    -- the keys agree, so the symbols do
    have hpair := hkey.symm.trans hfound.key
    exact congrArg Prod.snd hpair
  · rintro rfl
    exact ⟨hdirectory, hkey⟩

/-- **Onboarded symbols are found, each in a place of its own**, exactly if none of them is
    normalised. -/
theorem onboarded_found_iff {specs : List OnboardSymbolSpec}
    (hwritten : ∀ spec ∈ specs, (spec.ingest fetchBars dataRoot).written ≠ []) :
    ((∀ spec ∈ specs, ∀ p ∈ (spec.ingest fetchBars dataRoot).written, p.FoundBy dataRoot spec) ∧
      ∀ s ∈ specs, ∀ t ∈ specs, s.assetClass = t.assetClass → s.symbol ≠ t.symbol →
        ∀ p ∈ (s.ingest fetchBars dataRoot).written, ∀ q ∈ (t.ingest fetchBars dataRoot).written,
          p.storageKey ≠ q.storageKey) ↔
      ∀ spec ∈ specs, spec.AsIs := by
  constructor
  · rintro ⟨hfound, -⟩ spec hspec
    obtain ⟨p, hp⟩ := List.exists_mem_of_ne_nil _ (hwritten spec hspec)
    exact (foundBy_iff hp).mp (hfound spec hspec p hp)
  · intro hasIs
    refine ⟨fun spec hspec p hp => (foundBy_iff hp).mpr (hasIs spec hspec), ?_⟩
    intro s hs t ht _ hne p hp q hq hkey
    -- each partition has the symbol itself in its key
    have hsKey := ((foundBy_iff hp).mpr (hasIs s hs)).key
    have htKey := ((foundBy_iff hq).mpr (hasIs t ht)).key
    have hpair : coverageKey s = coverageKey t := by rw [← hsKey, ← htKey, hkey]
    exact hne (congrArg Prod.snd hpair)

end Onboarding

/-! ### Two share classes -/

/-- An equity. -/
def equitySpec (symbol : String) (hmin : 1 ≤ symbol.length) (hmax : symbol.length ≤ 32)
    (hregex : symbolPattern symbol = true) : OnboardSymbolSpec :=
  ⟨symbol, .equity, hmin, hmax, hregex⟩

def aapl : OnboardSymbolSpec := equitySpec "AAPL" (by decide) (by decide) (by decide)

def brkA : OnboardSymbolSpec := equitySpec "BRK.A" (by decide) (by decide) (by decide)

def brkB : OnboardSymbolSpec := equitySpec "BRK.B" (by decide) (by decide) (by decide)

/-- A continuous future. -/
def esFront : OnboardSymbolSpec := ⟨"ES.n.0", .futures, by decide, by decide, by decide⟩

/-- A provider with a bar of January for every symbol. -/
def january : String → String → Except String (List Bar) := fun _ _ => .ok [⟨2025, 1⟩]

/-- The bars of January under the root of two share classes. -/
def brk : Partition where
  directory := ["/", "data", "parquet", "stocks", "BRK"]
  assetClass := "stocks"
  symbol := "BRK"
  year := 2025
  month := 1

theorem onboarded_found_as_is :
    (∀ spec ∈ [aapl, esFront], (spec.ingest january ["/", "data"]).written ≠ []) ∧
      ∀ spec ∈ [aapl, esFront], ∀ p ∈ (spec.ingest january ["/", "data"]).written,
        p.FoundBy ["/", "data"] spec := by
  have hwritten : ∀ spec ∈ [aapl, esFront], (spec.ingest january ["/", "data"]).written ≠ [] := by
    decide +kernel
  exact ⟨hwritten, ((onboarded_found_iff hwritten).mpr (by decide)).1⟩

/-- **The slip.**  `BRK.A` and `BRK.B` are both stored under `BRK`, where the coverage of neither
    looks. -/
theorem onboarded_found_fails :
    ¬∀ (fetchBars : String → String → Except String (List Bar)) (dataRoot : Path)
      (specs : List OnboardSymbolSpec),
      (∀ spec ∈ specs, (spec.ingest fetchBars dataRoot).written ≠ []) →
      (∀ spec ∈ specs, ∀ p ∈ (spec.ingest fetchBars dataRoot).written,
        p.FoundBy dataRoot spec) ∧
      ∀ s ∈ specs, ∀ t ∈ specs, s.assetClass = t.assetClass → s.symbol ≠ t.symbol →
        ∀ p ∈ (s.ingest fetchBars dataRoot).written, ∀ q ∈ (t.ingest fetchBars dataRoot).written,
          p.storageKey ≠ q.storageKey := by
  intro h
  have hapart := h january ["/", "data"] [brkA, brkB] (by decide +kernel)
  have hA : brk ∈ (brkA.ingest january ["/", "data"]).written := by decide +kernel
  have hB : brk ∈ (brkB.ingest january ["/", "data"]).written := by decide +kernel
  exact hapart.2 brkA (by simp) brkB (by simp) (by decide) (by decide) brk hA brk hB rfl

end Msai.Onboarding
