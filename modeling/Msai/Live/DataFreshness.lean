import Mathlib.Data.List.DropRight
import Mathlib.Algebra.Order.Group.Int
import Mathlib.Order.Lattice

namespace Msai.Live.DataFreshness

/-!
# Feed freshness (`services/live/data_freshness.py`)

The pure layer of the data-stale monitor: which required feeds, and which datasets as a
whole, are stale.

* `FeedKey` — a feed; symbol and cadence are parsed from the native bar type, and a key
  whose bar type does not parse cannot be built.
* `evaluate` — the findings over a required-feed universe.
* `exists_stale_or_absent` — every list of findings, dataset-level ones included, comes
  with a required feed that is itself found stale or was never observed.

Timestamps are nanoseconds, intervals and graces are seconds, all of them integers.  The
session calendar is a parameter (`phaseResolver`).
-/

/-! ### Bar types -/

/-- Decimal digits with single underscores between them, most significant first. -/
def digits : List Char → Option ℕ
  | [] => none
  | cs => go cs none
where
  /-- `acc` is `none` where a digit must follow. -/
  go : List Char → Option ℕ → Option ℕ
    | [], acc => acc
    | c :: cs, none => if c.isDigit then go cs (some (c.toNat - 48)) else none
    | '_' :: c :: cs, some n => if c.isDigit then go cs (some (10 * n + (c.toNat - 48))) else none
    | c :: cs, some n => if c.isDigit then go cs (some (10 * n + (c.toNat - 48))) else none

/-- `int(s)` on ASCII texts. -/
def pyInt (s : String) : Option ℤ :=
  match (s.toList.dropWhile Char.isWhitespace).rdropWhile Char.isWhitespace with
  | '-' :: cs => (digits cs).map fun n => -(n : ℤ)
  | '+' :: cs => (digits cs).map fun n => (n : ℤ)
  | cs => (digits cs).map fun n => (n : ℤ)

/-- `_AGGREGATION_S`. -/
def aggregationS : List (String × ℤ) :=
  [("SECOND", 1), ("MINUTE", 60), ("HOUR", 3600), ("DAY", 86400)]

/-- `s.split(c)`. -/
def pySplit (s : String) (c : Char) : List String :=
  (s.toList.splitOn c).map String.ofList

/-- `c.join(parts)`. -/
def pyJoin (c : Char) (parts : List String) : String :=
  String.ofList ([c].intercalate (parts.map String.toList))

/-- `_SPEC_SEGMENTS`. -/
def specSegments : ℕ := 4

/-- `_split_bar_type`: instrument id, step and aggregation.  The last four dash-segments are
    the bar spec; `none` stands for `ValueError`. -/
def splitBarType (native : String) : Option (String × String × String) :=
  let parts := pySplit native '-'
  if parts.length < specSegments + 1 then none
  else
    let instrumentId := pyJoin '-' (parts.take (parts.length - specSegments))
    match parts.drop (parts.length - specSegments) with
    | step :: aggregation :: _ => some (instrumentId, step, aggregation)
    | _ => none

/-- `parse_interval_s`. -/
def parseIntervalS (native : String) : Option ℤ := do
  let (_, step, aggregation) ← splitBarType native
  let n ← pyInt step
  let unit ← aggregationS.lookup aggregation
  return n * unit

/-- `_symbol_from_bar_type`: the instrument id without its venue. -/
def symbolFromBarType (native : String) : Option String := do
  let (instrumentId, _, _) ← splitBarType native
  let parts := pySplit instrumentId '.'
  if parts.length < 2 then none else return pyJoin '.' parts.dropLast

/-- A bar spec: `STEP-AGGREGATION-PRICE-SOURCE`. -/
def IsBarSpec (spec step aggregation : String) : Prop :=
  ∃ price source, pySplit spec '-' = [step, aggregation, price, source]

section BarTypes

variable {c : Char} {head front spec step aggregation symbol venue : String}

theorem pySplit_append {sep : String} (hsep : sep.toList = [c]) :
    pySplit (front ++ sep ++ spec) c = pySplit front c ++ pySplit spec c := by
  rw [pySplit, String.toList_append, String.toList_append, hsep, List.append_assoc,
    List.singleton_append, List.splitOn_append_cons_self, List.map_append]
  rfl

theorem pyJoin_pySplit (s : String) : pyJoin c (pySplit s c) = s := by
  have hlists : (pySplit s c).map String.toList = s.toList.splitOn c := by
    rw [pySplit, List.map_map]
    exact List.map_id'' (fun _ => String.toList_ofList) _
  rw [pyJoin, hlists, List.intercalate_splitOn, String.ofList_toList]

theorem pySplit_of_notMem (h : c ∉ front.toList) : pySplit front c = [front] := by
  rw [pySplit, List.splitOn_eq_singleton h]
  simp

/-- The spec is read from the end, whatever stands before it. -/
theorem splitBarType_append (h : IsBarSpec spec step aggregation) :
    splitBarType (head ++ "-" ++ spec) = some (head, step, aggregation) := by
  obtain ⟨price, source, hspec⟩ := h
  have hparts : pySplit (head ++ "-" ++ spec) '-' =
      pySplit head '-' ++ [step, aggregation, price, source] := by
    rw [← hspec]
    exact pySplit_append (by decide)
  have hhead : 0 < (pySplit head '-').length := by
    rw [pySplit, List.length_map]
    exact List.length_pos_of_ne_nil (List.splitOn_ne_nil _ _)
  have hlength : (pySplit head '-' ++ [step, aggregation, price, source]).length - specSegments =
      (pySplit head '-').length := by
    rw [List.length_append]
    rfl
  unfold splitBarType
  dsimp only
  rw [hparts, hlength, List.take_left, List.drop_left, pyJoin_pySplit, if_neg]
  rw [List.length_append]
  simp only [List.length_cons, List.length_nil, specSegments]
  omega

theorem symbolFromBarType_append (h : IsBarSpec spec step aggregation)
    (hvenue : '.' ∉ venue.toList) :
    symbolFromBarType (symbol ++ "." ++ venue ++ "-" ++ spec) = some symbol := by
  have hparts : pySplit (symbol ++ "." ++ venue) '.' = pySplit symbol '.' ++ [venue] := by
    rw [← pySplit_of_notMem hvenue]
    exact pySplit_append (by decide)
  have hsymbol : 0 < (pySplit symbol '.').length := by
    rw [pySplit, List.length_map]
    exact List.length_pos_of_ne_nil (List.splitOn_ne_nil _ _)
  unfold symbolFromBarType
  rw [splitBarType_append h]
  dsimp only [Option.bind_eq_bind, Option.bind_some]
  rw [hparts, List.dropLast_concat, pyJoin_pySplit, if_neg]
  · rfl
  · rw [List.length_append, List.length_singleton]
    omega

/-- The cadence depends on the spec only. -/
theorem parseIntervalS_append (h : IsBarSpec spec step aggregation) :
    parseIntervalS (front ++ "-" ++ spec) = parseIntervalS (head ++ "-" ++ spec) := by
  unfold parseIntervalS
  rw [splitBarType_append h, splitBarType_append h]
  rfl

end BarTypes

/-- A feed.  `symbol` and `expectedIntervalS` are what the bar type parses to. -/
structure FeedKey where
  dataset : String
  nativeBarTypeStr : String
  symbol : String
  expectedIntervalS : ℤ
  symbol_eq : symbolFromBarType nativeBarTypeStr = some symbol
  interval_eq : parseIntervalS nativeBarTypeStr = some expectedIntervalS
deriving DecidableEq

/-! ### Sessions and grace -/

inductive AssetClass
  | equity
  | futures
deriving DecidableEq, Repr

inductive Phase
  | rth
  | pre
  | post
  | closed
  | maintenance
deriving DecidableEq, Repr

/-- `_OPEN_PHASES`. -/
def Phase.isOpen : Phase → Bool
  | .rth | .pre | .post => true
  | .closed | .maintenance => false

/-- Current phase and the moment it opened. -/
structure SessionPhase where
  phase : Phase
  phaseOpenTs : Option ℤ
deriving DecidableEq, Repr

/-- Grace seconds per asset class and phase (`none`: never stale), and the two scalars. -/
structure GraceConfig where
  graceS : AssetClass → Phase → Option ℤ
  startupGraceS : ℤ := 180
  intervalS : ℤ := 5
  one_le_intervalS : 1 ≤ intervalS
  one_le_startupGraceS : 1 ≤ startupGraceS
  four_intervals : ∀ c p g, p.isOpen = true → graceS c p = some g → intervalS * 4 ≤ g

/-- `_default_grace`. -/
def defaultGrace : AssetClass → Phase → Option ℤ
  | .equity, .rth => some 90
  | .equity, .pre => some 300
  | .equity, .post => some 300
  | .futures, .rth => some 120
  | _, _ => none

/-- The default configuration passes its own checks. -/
def GraceConfig.default : GraceConfig where
  graceS := defaultGrace
  one_le_intervalS := by decide
  one_le_startupGraceS := by decide
  four_intervals := by
    intro c p g hp hg
    cases c <;> cases p <;> simp_all [defaultGrace, Phase.isOpen] <;> omega

/-- `asset_class_for_dataset`. -/
def assetClassForDataset (dataset : String) : AssetClass :=
  if ['G', 'L', 'B', 'X'].isPrefixOf (dataset.toList.map Char.toUpper) then .futures else .equity

/-- The most recent event and arrival of a feed. -/
structure FeedObservation where
  tsEventNs : ℤ
  tsArrivalNs : ℤ
deriving DecidableEq, Repr

/-- What the registry has recorded. -/
abbrev Snapshot := FeedKey → Option FeedObservation

inductive Granularity
  | feed
  | dataset
deriving DecidableEq, Repr

/-- A stale feed, or a stale dataset (then `feedKey` and `symbol` are `none`). -/
structure StaleFinding where
  dataset : String
  feedKey : Option FeedKey
  symbol : Option String
  lastEventTs : Option ℤ
  detectedAt : ℤ
  granularity : Granularity
deriving DecidableEq

/-- `_NS_PER_S`. -/
def nsPerS : ℤ := 1000000000

/-! ### Evaluation -/

section Evaluate

variable (cfg : GraceConfig) (phaseResolver : AssetClass → ℤ → SessionPhase)
variable (snapshot : Snapshot) (nowNs monitorStartedNs : ℤ)

/-- The datasets in order of first appearance. -/
def datasets (required : List FeedKey) : List String :=
  required.foldl (fun ds fk => if fk.dataset ∈ ds then ds else ds ++ [fk.dataset]) []

/-- The smallest cadence among a dataset's feeds. -/
def minInterval : List FeedKey → ℤ
  | [] => 0
  | f :: fs => fs.foldl (fun m g => min m g.expectedIntervalS) f.expectedIntervalS

/-- The finding for one feed of a dataset in an open phase, if it is stale. -/
def feedFinding (grace clamp : ℤ) (fk : FeedKey) : Option StaleFinding :=
  match snapshot fk with
  | none =>
    -- absent: cadence-aware startup budget, measured from monitor start or phase open
    let absentBudgetS := max cfg.startupGraceS (fk.expectedIntervalS + grace)
    let absentStartNs := max monitorStartedNs clamp
    if nowNs - absentStartNs > absentBudgetS * nsPerS then
      some ⟨fk.dataset, some fk, some fk.symbol, none, nowNs, .feed⟩
    else none
  | some obs =>
    if nowNs - max obs.tsEventNs clamp > (fk.expectedIntervalS + grace) * nsPerS then
      some ⟨fk.dataset, some fk, some fk.symbol, some obs.tsEventNs, nowNs, .feed⟩
    else none

/-- The rollup over the observed feeds of a dataset. -/
def datasetFinding (dataset : String) (feeds : List FeedKey) (grace clamp : ℤ) :
    Option StaleFinding :=
  let observed := feeds.filterMap snapshot
  match (observed.map fun obs => max obs.tsEventNs clamp).max? with
  | none => none
  | some datasetMaxClamped =>
    if nowNs - datasetMaxClamped > (minInterval feeds + grace) * nsPerS then
      some ⟨dataset, none, none, (observed.map (·.tsEventNs)).max?, nowNs, .dataset⟩
    else none

/-- The findings of one dataset in an open phase: feed by feed, then the rollup. -/
def openFindings (dataset : String) (feeds : List FeedKey) (grace clamp : ℤ) :
    List StaleFinding :=
  feeds.filterMap (feedFinding cfg snapshot nowNs monitorStartedNs grace clamp) ++
    (datasetFinding snapshot nowNs dataset feeds grace clamp).toList

/-- The findings of one dataset; closed and maintenance phases have none. -/
def evaluateDataset (dataset : String) (feeds : List FeedKey) : List StaleFinding :=
  let assetClass := assetClassForDataset dataset
  let sp := phaseResolver assetClass nowNs
  if !sp.phase.isOpen then []
  else
    match cfg.graceS assetClass sp.phase with
    | none => []
    | some grace =>
      openFindings cfg snapshot nowNs monitorStartedNs dataset feeds grace (sp.phaseOpenTs.getD 0)

/-- `evaluate`. -/
def evaluate (required : List FeedKey) : List StaleFinding :=
  (datasets required).flatMap fun dataset =>
    evaluateDataset cfg phaseResolver snapshot nowNs monitorStartedNs dataset
      (required.filter fun fk => fk.dataset = dataset)

/-- The feeds that have a finding of their own. -/
def staleFeeds (findings : List StaleFinding) : List FeedKey :=
  findings.filterMap (·.feedKey)

end Evaluate

/-! ### Every finding shows on a feed -/

section Feeds

variable {cfg : GraceConfig} {phaseResolver : AssetClass → ℤ → SessionPhase}
variable {snapshot : Snapshot} {nowNs monitorStartedNs grace clamp : ℤ}
variable {required feeds : List FeedKey} {dataset : String} {fk : FeedKey} {f : StaleFinding}

/-- A feed's finding names the feed. -/
theorem feedFinding_feedKey
    (h : feedFinding cfg snapshot nowNs monitorStartedNs grace clamp fk = some f) :
    f.feedKey = some fk := by
  unfold feedFinding at h
  split at h
  · simp only at h
    split at h
    · rw [← Option.some.inj h]
    · cases h
  · split at h
    · rw [← Option.some.inj h]
    · cases h

private theorem foldl_min_spec (fs : List FeedKey) (m : ℤ) :
    fs.foldl (fun m g => min m g.expectedIntervalS) m = m ∨
    ∃ g ∈ fs, g.expectedIntervalS = fs.foldl (fun m g => min m g.expectedIntervalS) m := by
  induction fs generalizing m with
  | nil => exact .inl rfl
  | cons g fs ih =>
    rw [List.foldl_cons]
    rcases ih (min m g.expectedIntervalS) with h | ⟨k, hk, h⟩
    · rcases min_choice m g.expectedIntervalS with hm | hm
      · exact .inl (h.trans hm)
      · exact .inr ⟨g, List.mem_cons_self, (h.trans hm).symm⟩
    · exact .inr ⟨k, List.mem_cons_of_mem _ hk, h⟩

/-- The smallest cadence belongs to one of the feeds. -/
theorem exists_minInterval (h : feeds ≠ []) :
    ∃ g ∈ feeds, g.expectedIntervalS = minInterval feeds := by
  cases feeds with
  | nil => exact absurd rfl h
  | cons f fs =>
    rcases foldl_min_spec fs f.expectedIntervalS with h | ⟨g, hg, h⟩
    · exact ⟨f, List.mem_cons_self, h.symm⟩
    · exact ⟨g, List.mem_cons_of_mem _ hg, h⟩

/-- A stale dataset has a feed that is stale itself, or was never observed: take the feed
    with the smallest cadence. -/
theorem datasetFinding_feed (cfg : GraceConfig) (monitorStartedNs : ℤ)
    (h : datasetFinding snapshot nowNs dataset feeds grace clamp = some f) :
    ∃ g ∈ feeds, snapshot g = none ∨
      (feedFinding cfg snapshot nowNs monitorStartedNs grace clamp g).isSome = true := by
  unfold datasetFinding at h
  simp only at h
  split at h
  · cases h
  · rename_i m hmax
    split at h
    · rename_i hlate
      have hne : feeds ≠ [] := by
        rintro rfl
        simp at hmax
      obtain ⟨g, hg, hmin⟩ := exists_minInterval hne
      refine ⟨g, hg, ?_⟩
      cases hobs : snapshot g with
      | none => exact .inl rfl
      | some obs =>
        refine .inr ?_
        -- the feed's own clamped timestamp is no later than the dataset's
        have hmem : max obs.tsEventNs clamp ∈
            (feeds.filterMap snapshot).map fun obs => max obs.tsEventNs clamp :=
          List.mem_map.mpr ⟨obs, List.mem_filterMap.mpr ⟨g, hg, hobs⟩, rfl⟩
        have hle : max obs.tsEventNs clamp ≤ m := (List.max?_eq_some_iff.mp hmax).2 _ hmem
        have hown : nowNs - max obs.tsEventNs clamp > (g.expectedIntervalS + grace) * nsPerS := by
          rw [hmin]
          omega
        simp only [feedFinding, hobs]
        rw [if_pos hown]
        rfl
    · cases h

/-- A stale feed is among the stale feeds of its dataset. -/
theorem mem_staleFeeds_openFindings (hfk : fk ∈ feeds)
    (h : feedFinding cfg snapshot nowNs monitorStartedNs grace clamp fk = some f) :
    fk ∈ staleFeeds
      (openFindings cfg snapshot nowNs monitorStartedNs dataset feeds grace clamp) := by
  refine List.mem_filterMap.mpr ⟨f, ?_, feedFinding_feedKey h⟩
  exact List.mem_append_left _ (List.mem_filterMap.mpr ⟨fk, hfk, h⟩)

/-- The findings of an open phase come with a feed that is found stale, or was never
    observed. -/
theorem openFindings_feed
    (h : f ∈ openFindings cfg snapshot nowNs monitorStartedNs dataset feeds grace clamp) :
    ∃ g ∈ feeds, snapshot g = none ∨ g ∈ staleFeeds
      (openFindings cfg snapshot nowNs monitorStartedNs dataset feeds grace clamp) := by
  rcases List.mem_append.mp h with h | h
  · obtain ⟨g, hg, h⟩ := List.mem_filterMap.mp h
    exact ⟨g, hg, .inr (mem_staleFeeds_openFindings hg h)⟩
  · obtain ⟨g, hg, hnone | hsome⟩ :=
      datasetFinding_feed cfg monitorStartedNs (Option.mem_toList.mp h)
    · exact ⟨g, hg, .inl hnone⟩
    · obtain ⟨y, hy⟩ := Option.isSome_iff_exists.mp hsome
      exact ⟨g, hg, .inr (mem_staleFeeds_openFindings hg hy)⟩

/-- The same for a dataset in any phase. -/
theorem evaluateDataset_feed
    (h : f ∈ evaluateDataset cfg phaseResolver snapshot nowNs monitorStartedNs dataset feeds) :
    ∃ g ∈ feeds, snapshot g = none ∨ g ∈ staleFeeds
      (evaluateDataset cfg phaseResolver snapshot nowNs monitorStartedNs dataset feeds) := by
  unfold evaluateDataset at h ⊢
  simp only at h ⊢
  split at h
  · cases h
  · rename_i hopen
    rw [if_neg hopen]
    split at h
    · cases h
    · exact openFindings_feed h

/-- **Findings show on the feeds.**  If `evaluate` reports anything, some required feed is
    among the stale feeds or was never observed. -/
theorem exists_stale_or_absent
    (h : evaluate cfg phaseResolver snapshot nowNs monitorStartedNs required ≠ []) :
    ∃ g ∈ required, snapshot g = none ∨ g ∈ staleFeeds
      (evaluate cfg phaseResolver snapshot nowNs monitorStartedNs required) := by
  obtain ⟨x, hx⟩ := List.exists_mem_of_ne_nil _ h
  obtain ⟨dataset, hd, hx⟩ := List.mem_flatMap.mp hx
  obtain ⟨g, hg, hstale⟩ := evaluateDataset_feed hx
  refine ⟨g, (List.mem_filter.mp hg).1, hstale.imp_right fun hmem => ?_⟩
  obtain ⟨y, hy, hkey⟩ := List.mem_filterMap.mp hmem
  exact List.mem_filterMap.mpr ⟨y, List.mem_flatMap.mpr ⟨dataset, hd, hy⟩, hkey⟩

end Feeds

end Msai.Live.DataFreshness
