import Msai.Lib.Grouping
import Msai.Live.DataFreshness

namespace Msai.Live.DataFreshness

open Lib

/-!
# A stale dataset and its feeds (`services/live/data_freshness.py`)

Each feed has a budget of its own: an observed one its cadence and the grace, an absent one the
startup budget.  The rollup over a dataset takes the newest event of the *observed* feeds and
holds it against the smallest cadence of *all* of them.  While a fast feed is still awaited, an
observed slow one is measured with the cadence of the fast one.

* `ShownOnFeeds` — every finding for a dataset comes with one for a feed of it;
* `WithinBudget` — a feed is within its own budget;
* `FastAwaited` — the condition that goes wrong: the fast feeds of a dataset are awaited while
  the slow ones pause for longer than the fast cadence;
* `openFindings_shownOnFeeds_iff` — one dataset;
* `evaluate_shownOnFeeds_iff` — the theorem over every evaluation.
-/

/-- Behind every finding for a dataset is a finding for a feed of it. -/
def ShownOnFeeds (findings : List StaleFinding) : Prop :=
  ∀ f ∈ findings, f.granularity = .dataset →
    ∃ g ∈ findings, g.granularity = .feed ∧
      ∃ fk, g.feedKey = some fk ∧ fk.dataset = f.dataset

section Evaluate

variable (cfg : GraceConfig) (phaseResolver : AssetClass → ℤ → SessionPhase)
variable (snapshot : Snapshot) (nowNs monitorStartedNs : ℤ)

/-- The grace of a dataset, unless its session is closed or never stale. -/
def openGrace (dataset : String) : Option ℤ :=
  let assetClass := assetClassForDataset dataset
  let phase := (phaseResolver assetClass nowNs).phase
  if phase.isOpen then cfg.graceS assetClass phase else none

/-- The moment at which the phase of a dataset opened. -/
def phaseOpenNs (dataset : String) : ℤ :=
  (phaseResolver (assetClassForDataset dataset) nowNs).phaseOpenTs.getD 0

/-- The feeds of one dataset. -/
def feedsOf (required : List FeedKey) (dataset : String) : List FeedKey :=
  required.filter fun fk => fk.dataset = dataset

/-- The feed is within its own budget, the startup budget if it was never observed. -/
def WithinBudget (grace clamp : ℤ) (fk : FeedKey) : Prop :=
  match snapshot fk with
  | none =>
    nowNs - max monitorStartedNs clamp ≤
      max cfg.startupGraceS (fk.expectedIntervalS + grace) * nsPerS
  | some obs => nowNs - max obs.tsEventNs clamp ≤ (fk.expectedIntervalS + grace) * nsPerS

/-- The fast feeds are awaited while the slow ones pause. -/
structure FastAwaited (feeds : List FeedKey) (grace clamp : ℤ) : Prop where
  /-- No feed with the smallest cadence was observed. -/
  fast : ∀ fk ∈ feeds, fk.expectedIntervalS = minInterval feeds → snapshot fk = none
  /-- Another feed was. -/
  slow : ∃ fk ∈ feeds, snapshot fk ≠ none
  /-- All feeds are within their own budgets, -/
  budgets : ∀ fk ∈ feeds, WithinBudget cfg snapshot nowNs monitorStartedNs grace clamp fk
  /-- and those that were observed are over the budget of the smallest cadence. -/
  pause : ∀ fk ∈ feeds, ∀ obs, snapshot fk = some obs →
    (minInterval feeds + grace) * nsPerS < nowNs - max obs.tsEventNs clamp

end Evaluate

/-! ### One dataset -/

section Datasets

variable {cfg : GraceConfig} {phaseResolver : AssetClass → ℤ → SessionPhase}
variable {snapshot : Snapshot} {nowNs monitorStartedNs grace clamp : ℤ}
variable {required feeds : List FeedKey} {dataset : String} {fk : FeedKey} {f : StaleFinding}

/-- A feed has a finding exactly if it is over its own budget. -/
theorem feedFinding_eq_none_iff :
    feedFinding cfg snapshot nowNs monitorStartedNs grace clamp fk = none ↔
      WithinBudget cfg snapshot nowNs monitorStartedNs grace clamp fk := by
  unfold feedFinding WithinBudget
  cases hobs : snapshot fk with
  | none =>
    simp only
    split <;> simp <;> omega
  | some obs =>
    simp only
    split <;> simp <;> omega

/-- The finding of a feed is of its dataset and its granularity. -/
theorem feedFinding_granularity
    (h : feedFinding cfg snapshot nowNs monitorStartedNs grace clamp fk = some f) :
    f.granularity = .feed ∧ f.dataset = fk.dataset := by
  unfold feedFinding at h
  cases hobs : snapshot fk with
  | none =>
    simp only [hobs] at h
    split at h
    · rw [← Option.some.inj h]
      exact ⟨rfl, rfl⟩
    · exact absurd h (by simp)
  | some obs =>
    simp only [hobs] at h
    split at h
    · rw [← Option.some.inj h]
      exact ⟨rfl, rfl⟩
    · exact absurd h (by simp)

/-- The rollup has a finding exactly if a feed was observed and all observed ones are over the
    budget of the smallest cadence. -/
theorem datasetFinding_isSome_iff :
    (datasetFinding snapshot nowNs dataset feeds grace clamp).isSome = true ↔
      (∃ fk ∈ feeds, snapshot fk ≠ none) ∧ ∀ fk ∈ feeds, ∀ obs, snapshot fk = some obs →
        (minInterval feeds + grace) * nsPerS < nowNs - max obs.tsEventNs clamp := by
  have hmem : ∀ x : ℤ,
      x ∈ (feeds.filterMap snapshot).map (fun obs => max obs.tsEventNs clamp) ↔
        ∃ fk ∈ feeds, ∃ obs, snapshot fk = some obs ∧ max obs.tsEventNs clamp = x := by
    intro x
    simp only [List.mem_map, List.mem_filterMap]
    constructor
    · rintro ⟨obs, ⟨fk, hfk, hobs⟩, rfl⟩
      exact ⟨fk, hfk, obs, hobs, rfl⟩
    · rintro ⟨fk, hfk, obs, hobs, rfl⟩
      exact ⟨obs, ⟨fk, hfk, hobs⟩, rfl⟩
  unfold datasetFinding
  simp only
  cases hmax : ((feeds.filterMap snapshot).map fun obs => max obs.tsEventNs clamp).max? with
  | none =>
    have hnil := List.max?_eq_none_iff.mp hmax
    -- no event was observed: the rollup leaves the dataset to the absent feeds
    have hnone : ¬ ∃ fk ∈ feeds, snapshot fk ≠ none := by
      rintro ⟨fk, hfk, hne⟩
      obtain ⟨obs, hobs⟩ := Option.ne_none_iff_exists'.mp hne
      have hx := (hmem (max obs.tsEventNs clamp)).mpr ⟨fk, hfk, obs, hobs, rfl⟩
      rw [hnil] at hx
      exact List.not_mem_nil hx
    simp [hnone]
  | some m =>
    obtain ⟨hm, hle⟩ := List.max?_eq_some_iff.mp hmax
    obtain ⟨fk, hfk, obs, hobs, rfl⟩ := (hmem m).mp hm
    have hsome : ∃ fk ∈ feeds, snapshot fk ≠ none := ⟨fk, hfk, by rw [hobs]; simp⟩
    simp only
    split
    · -- the newest event is too old, so all are
      rename_i hlate
      refine iff_of_true rfl ⟨hsome, fun g hg obs' hobs' => ?_⟩
      have hnewest := hle _ ((hmem _).mpr ⟨g, hg, obs', hobs', rfl⟩)
      omega
    · rename_i hlate
      refine iff_of_false (by simp) fun h => hlate ?_
      exact h.2 fk hfk obs hobs

/-- The finding of the rollup is of its dataset, and of no feed. -/
theorem datasetFinding_granularity
    (h : datasetFinding snapshot nowNs dataset feeds grace clamp = some f) :
    f.granularity = .dataset ∧ f.dataset = dataset ∧ f.feedKey = none := by
  unfold datasetFinding at h
  simp only at h
  split at h
  · exact absurd h (by simp)
  · split at h
    · rw [← Option.some.inj h]
      exact ⟨rfl, rfl, rfl⟩
    · exact absurd h (by simp)

/-- A feed that is over the budget of the smallest cadence and within its own is a slow one. -/
theorem WithinBudget.slower {obs : FeedObservation} (hobs : snapshot fk = some obs)
    (hbudget : WithinBudget cfg snapshot nowNs monitorStartedNs grace clamp fk)
    (hpause : (minInterval feeds + grace) * nsPerS < nowNs - max obs.tsEventNs clamp) :
    minInterval feeds < fk.expectedIntervalS := by
  have hown : nowNs - max obs.tsEventNs clamp ≤ (fk.expectedIntervalS + grace) * nsPerS := by
    simpa only [WithinBudget, hobs] using hbudget
  -- the age lies between the two budgets
  have hlt : (minInterval feeds + grace) * nsPerS < (fk.expectedIntervalS + grace) * nsPerS := by
    omega
  unfold nsPerS at hlt
  omega

/-- **One dataset in an open phase**: its findings show on its feeds, unless the fast ones are
    awaited while the slow ones pause. -/
theorem openFindings_shownOnFeeds_iff (hfeeds : ∀ fk ∈ feeds, fk.dataset = dataset) :
    ShownOnFeeds (openFindings cfg snapshot nowNs monitorStartedNs dataset feeds grace clamp) ↔
      ¬ FastAwaited cfg snapshot nowNs monitorStartedNs feeds grace clamp := by
  constructor
  · intro hshown hawaited
    -- the rollup has a finding, and no feed has one to show for it
    have hsome : (datasetFinding snapshot nowNs dataset feeds grace clamp).isSome = true :=
      datasetFinding_isSome_iff.mpr ⟨hawaited.slow, hawaited.pause⟩
    obtain ⟨f, hf⟩ := Option.isSome_iff_exists.mp hsome
    obtain ⟨g, hg, hfeed, -⟩ := hshown f
      (List.mem_append_right _ (Option.mem_toList.mpr hf)) (datasetFinding_granularity hf).1
    rcases List.mem_append.mp hg with hg | hg
    · obtain ⟨fk, hfk, hg⟩ := List.mem_filterMap.mp hg
      rw [feedFinding_eq_none_iff.mpr (hawaited.budgets fk hfk)] at hg
      exact absurd hg (by simp)
    · have hgran := (datasetFinding_granularity (Option.mem_toList.mp hg)).1
      exact absurd (hgran.symm.trans hfeed) (by decide)
  · intro hno f hf hgran
    have hf' : datasetFinding snapshot nowNs dataset feeds grace clamp = some f := by
      rcases List.mem_append.mp hf with hf | hf
      · obtain ⟨fk, -, hfk⟩ := List.mem_filterMap.mp hf
        exact absurd ((feedFinding_granularity hfk).1.symm.trans hgran) (by decide)
      · exact Option.mem_toList.mp hf
    obtain ⟨hslow, hpause⟩ := datasetFinding_isSome_iff.mp (Option.isSome_of_eq_some hf')
    -- were all feeds within their own budgets, the observed ones would all be slow
    have hover : ∃ fk ∈ feeds,
        ¬ WithinBudget cfg snapshot nowNs monitorStartedNs grace clamp fk := by
      by_contra hall
      have hbudgets : ∀ fk ∈ feeds,
          WithinBudget cfg snapshot nowNs monitorStartedNs grace clamp fk := by
        simpa using hall
      refine hno ⟨fun fk hfk hmin => ?_, hslow, hbudgets, hpause⟩
      cases hobs : snapshot fk with
      | none => rfl
      | some obs =>
        have hslower := (hbudgets fk hfk).slower hobs (hpause fk hfk obs hobs)
        omega
    obtain ⟨fk, hfk, hbudget⟩ := hover
    -- a feed over its own budget has a finding, and it is of this dataset
    obtain ⟨g, hg⟩ := Option.ne_none_iff_exists'.mp (mt feedFinding_eq_none_iff.mp hbudget)
    refine ⟨g, ?_, (feedFinding_granularity hg).1, fk, feedFinding_feedKey hg, ?_⟩
    · exact List.mem_append_left _ (List.mem_filterMap.mpr ⟨fk, hfk, hg⟩)
    · rw [(datasetFinding_granularity hf').2.1]
      exact hfeeds fk hfk

/-! ### All datasets -/

/-- The datasets are those of the required feeds. -/
theorem mem_datasets : dataset ∈ datasets required ↔ ∃ fk ∈ required, fk.dataset = dataset := by
  show dataset ∈ firstSeen (fun fk : FeedKey => fk.dataset) required ↔ _
  exact mem_firstSeen

/-- A dataset is evaluated with its grace, if it has one. -/
theorem evaluateDataset_eq :
    evaluateDataset cfg phaseResolver snapshot nowNs monitorStartedNs dataset feeds =
      match openGrace cfg phaseResolver nowNs dataset with
      | none => []
      | some grace => openFindings cfg snapshot nowNs monitorStartedNs dataset feeds grace
          (phaseOpenNs phaseResolver nowNs dataset) := by
  unfold evaluateDataset openGrace phaseOpenNs
  simp only
  cases (phaseResolver (assetClassForDataset dataset) nowNs).phase.isOpen with
  | false => rfl
  | true => rfl

/-- A finding of an open phase is of the dataset, and so is the feed it names. -/
theorem openFindings_dataset (hfeeds : ∀ fk ∈ feeds, fk.dataset = dataset)
    (h : f ∈ openFindings cfg snapshot nowNs monitorStartedNs dataset feeds grace clamp) :
    f.dataset = dataset ∧ ∀ fk, f.feedKey = some fk → fk.dataset = dataset := by
  rcases List.mem_append.mp h with h | h
  · obtain ⟨g, hg, hf⟩ := List.mem_filterMap.mp h
    have hkey := feedFinding_feedKey hf
    refine ⟨(feedFinding_granularity hf).2.trans (hfeeds g hg), fun fk hfk => ?_⟩
    rw [hkey] at hfk
    rw [← Option.some.inj hfk]
    exact hfeeds g hg
  · obtain ⟨-, hdataset, hkey⟩ := datasetFinding_granularity (Option.mem_toList.mp h)
    refine ⟨hdataset, fun fk hfk => ?_⟩
    rw [hkey] at hfk
    exact absurd hfk (by simp)

/-- The same for a dataset in any phase. -/
theorem evaluateDataset_dataset (hfeeds : ∀ fk ∈ feeds, fk.dataset = dataset)
    (h : f ∈ evaluateDataset cfg phaseResolver snapshot nowNs monitorStartedNs dataset feeds) :
    f.dataset = dataset ∧ ∀ fk, f.feedKey = some fk → fk.dataset = dataset := by
  rw [evaluateDataset_eq] at h
  cases hgrace : openGrace cfg phaseResolver nowNs dataset with
  | none =>
    rw [hgrace] at h
    exact absurd h List.not_mem_nil
  | some grace =>
    rw [hgrace] at h
    exact openFindings_dataset hfeeds h

/-- Findings that name their datasets show on the feeds exactly if those of each dataset do. -/
theorem shownOnFeeds_flatMap {ds : List String} {find : String → List StaleFinding}
    (hds : ∀ d, ∀ f ∈ find d, f.dataset = d ∧ ∀ fk, f.feedKey = some fk → fk.dataset = d) :
    ShownOnFeeds (ds.flatMap find) ↔ ∀ d ∈ ds, ShownOnFeeds (find d) := by
  constructor
  · intro h d hd f hf hgran
    obtain ⟨g, hg, hfeed, fk, hfk, hsame⟩ := h f (List.mem_flatMap.mpr ⟨d, hd, hf⟩) hgran
    obtain ⟨d', -, hg⟩ := List.mem_flatMap.mp hg
    -- the finding of the feed names its dataset
    have hd' : d' = d := by
      rw [← (hds d' g hg).2 fk hfk, hsame]
      exact (hds d f hf).1
    rw [hd'] at hg
    exact ⟨g, hg, hfeed, fk, hfk, hsame⟩
  · intro h f hf hgran
    obtain ⟨d, hd, hf⟩ := List.mem_flatMap.mp hf
    obtain ⟨g, hg, hfeed⟩ := h d hd f hf hgran
    exact ⟨g, List.mem_flatMap.mpr ⟨d, hd, hg⟩, hfeed⟩

/-- **Every evaluation.**  A stale dataset shows on one of its feeds, exactly if no dataset in an
    open phase awaits its fast feeds while its slow ones pause. -/
theorem evaluate_shownOnFeeds_iff (cfg : GraceConfig)
    (phaseResolver : AssetClass → ℤ → SessionPhase) (snapshot : Snapshot)
    (nowNs monitorStartedNs : ℤ) (required : List FeedKey) :
    ShownOnFeeds (evaluate cfg phaseResolver snapshot nowNs monitorStartedNs required) ↔
      ∀ dataset grace, openGrace cfg phaseResolver nowNs dataset = some grace →
        ¬ FastAwaited cfg snapshot nowNs monitorStartedNs (feedsOf required dataset) grace
          (phaseOpenNs phaseResolver nowNs dataset) := by
  have hfeeds : ∀ dataset, ∀ fk ∈ feedsOf required dataset, fk.dataset = dataset := by
    intro dataset fk hfk
    simpa using (List.mem_filter.mp hfk).2
  have hdataset : ∀ dataset, ShownOnFeeds (evaluateDataset cfg phaseResolver snapshot nowNs
      monitorStartedNs dataset (feedsOf required dataset)) ↔
      ∀ grace, openGrace cfg phaseResolver nowNs dataset = some grace →
        ¬ FastAwaited cfg snapshot nowNs monitorStartedNs (feedsOf required dataset) grace
          (phaseOpenNs phaseResolver nowNs dataset) := by
    intro dataset
    rw [evaluateDataset_eq]
    cases hgrace : openGrace cfg phaseResolver nowNs dataset with
    | none => simp [ShownOnFeeds]
    | some grace =>
      simp only [Option.some.injEq, forall_eq']
      exact openFindings_shownOnFeeds_iff (hfeeds dataset)
  show ShownOnFeeds ((datasets required).flatMap fun dataset => evaluateDataset cfg phaseResolver
    snapshot nowNs monitorStartedNs dataset (feedsOf required dataset)) ↔ _
  rw [shownOnFeeds_flatMap fun d f hf => evaluateDataset_dataset (hfeeds d) hf]
  constructor
  · intro h dataset grace hgrace hawaited
    -- a dataset that awaits its feeds has some
    obtain ⟨fk, hfk, -⟩ := hawaited.slow
    have hmem : dataset ∈ datasets required :=
      mem_datasets.mpr ⟨fk, (List.mem_filter.mp hfk).1, hfeeds dataset fk hfk⟩
    exact (hdataset dataset).mp (h dataset hmem) grace hgrace hawaited
  · intro h dataset _
    exact (hdataset dataset).mpr (h dataset)

end Datasets

/-! ### A slow feed next to an awaited fast one -/

/-- A feed with a one-minute cadence. -/
def fastFeed : FeedKey where
  dataset := "EQUS.MINI"
  nativeBarTypeStr := "NVDA.XNAS-1-MINUTE-LAST-EXTERNAL"
  symbol := "NVDA"
  expectedIntervalS := 60
  symbol_eq := by decide
  interval_eq := by decide

/-- A feed with a five-minute cadence. -/
def slowFeed : FeedKey where
  dataset := "EQUS.MINI"
  nativeBarTypeStr := "MSFT.XNAS-5-MINUTE-LAST-EXTERNAL"
  symbol := "MSFT"
  expectedIntervalS := 300
  symbol_eq := by decide
  interval_eq := by decide

/-- The slow feed was seen at second 10, the fast one not yet. -/
def slowSeen : Snapshot := fun fk => if fk = slowFeed then some ⟨10 * nsPerS, 10 * nsPerS⟩ else none

/-- At second 170 of a monitor that started at 0, the slow feed has 230 s left and the fast one
    10 s, and the dataset is stale. -/
theorem shownOnFeeds_fails :
    ¬ ∀ (cfg : GraceConfig) (phaseResolver : AssetClass → ℤ → SessionPhase) (snapshot : Snapshot)
      (nowNs monitorStartedNs : ℤ) (required : List FeedKey), monitorStartedNs ≤ nowNs →
      ShownOnFeeds (evaluate cfg phaseResolver snapshot nowNs monitorStartedNs required) := by
  intro h
  have hshown := h .default (fun _ _ => ⟨.rth, some 0⟩) slowSeen (170 * nsPerS) 0
    [fastFeed, slowFeed] (by decide)
  have hfindings : evaluate .default (fun _ _ => ⟨.rth, some 0⟩) slowSeen (170 * nsPerS) 0
      [fastFeed, slowFeed] =
        [⟨"EQUS.MINI", none, none, some (10 * nsPerS), 170 * nsPerS, .dataset⟩] := by decide
  rw [hfindings] at hshown
  obtain ⟨g, hg, hfeed, -⟩ := hshown _ List.mem_cons_self rfl
  rw [List.mem_singleton] at hg
  rw [hg] at hfeed
  exact absurd hfeed (by decide)

end Msai.Live.DataFreshness
