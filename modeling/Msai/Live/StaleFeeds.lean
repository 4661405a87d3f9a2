import Msai.Live.FalseHalt

namespace Msai.Live.DataFreshness

open Lib

/-!
# Which feeds are stale, and for how long (`services/live/data_freshness.py`)

`evaluate` runs over the datasets and threads their newest events through the feeds.  Feed by feed
it comes to one comparison: the time since the feed's last sign of life against its budget.

* `record` — the registry that feeds the snapshot;
* `budgetS`, `sinceNs`, `IsStale` — the comparison;
* `feedFindings_perm` — the feeds with a finding, one for each time they are required;
* `mem_evaluate_later` — a finding stays while the snapshot and the phase do;
* `NoOlder.isStale` — more events do not make an observed feed stale;
* `evaluate_meets_spec` — the three together.
-/

/-! ### The registry -/

/-- A call of `FreshnessRegistry.record`. -/
structure RecordCall where
  feedKey : FeedKey
  tsEventNs : ℤ
  tsArrivalNs : ℤ
deriving DecidableEq

/-- `FreshnessRegistry.record`: the newest event of a feed is kept. -/
def record (snapshot : Snapshot) (call : RecordCall) : Snapshot :=
  match snapshot call.feedKey with
  | some existing =>
    if existing.tsEventNs ≥ call.tsEventNs then snapshot
    else Function.update snapshot call.feedKey (some ⟨call.tsEventNs, call.tsArrivalNs⟩)
  | none => Function.update snapshot call.feedKey (some ⟨call.tsEventNs, call.tsArrivalNs⟩)

/-- The snapshot after several calls. -/
def recordAll (snapshot : Snapshot) (calls : List RecordCall) : Snapshot :=
  calls.foldl record snapshot

/-! ### The comparison -/

section Comparison

variable (cfg : GraceConfig) (phaseResolver : AssetClass → ℤ → SessionPhase)
variable (snapshot : Snapshot) (nowNs monitorStartedNs : ℤ)

/-- The budget of a feed in seconds. -/
def budgetS (grace : ℤ) (fk : FeedKey) : ℤ :=
  match snapshot fk with
  | none => max cfg.startupGraceS (fk.expectedIntervalS + grace)
  | some _ => fk.expectedIntervalS + grace

/-- The moment from which the budget of a feed runs. -/
def sinceNs (clamp : ℤ) (fk : FeedKey) : ℤ :=
  match snapshot fk with
  | none => max monitorStartedNs clamp
  | some obs => max obs.tsEventNs clamp

/-- The dataset is in an open phase with a grace, and the feed is over its budget. -/
def IsStale (fk : FeedKey) : Prop :=
  ∃ grace ∈ openGrace cfg phaseResolver nowNs fk.dataset,
    nowNs - sinceNs snapshot monitorStartedNs (phaseOpenNs phaseResolver nowNs fk.dataset) fk >
      budgetS cfg snapshot grace fk * nsPerS

instance : DecidablePred (IsStale cfg phaseResolver snapshot nowNs monitorStartedNs) := fun _ =>
  inferInstanceAs (Decidable (∃ _ ∈ openGrace _ _ _ _, _))

/-- The finding for a stale feed. -/
def staleFinding (fk : FeedKey) : StaleFinding where
  dataset := fk.dataset
  feedKey := some fk
  symbol := some fk.symbol
  lastEventTs := (snapshot fk).map (·.tsEventNs)
  detectedAt := nowNs
  granularity := .feed

/-- The findings for feeds. -/
def feedFindings (findings : List StaleFinding) : List StaleFinding :=
  findings.filter fun f => f.granularity = .feed

end Comparison

section Findings

variable {cfg : GraceConfig} {phaseResolver : AssetClass → ℤ → SessionPhase}
variable {snapshot later : Snapshot} {nowNs laterNs monitorStartedNs grace clamp : ℤ}
variable {required feeds : List FeedKey} {dataset : String} {fk : FeedKey} {f : StaleFinding}
variable {call : RecordCall} {calls : List RecordCall} {obs : FeedObservation}

/-! ### The feeds with a finding -/

/-- The two branches of the loop are one comparison. -/
theorem feedFinding_eq :
    feedFinding cfg snapshot nowNs monitorStartedNs grace clamp fk =
      if nowNs - sinceNs snapshot monitorStartedNs clamp fk > budgetS cfg snapshot grace fk * nsPerS
      then some (staleFinding snapshot nowNs fk) else none := by
  unfold feedFinding sinceNs budgetS staleFinding
  cases hobs : snapshot fk with
  | none => rfl
  | some obs => rfl

/-- The rollup adds no finding for a feed. -/
theorem feedFindings_openFindings :
    feedFindings (openFindings cfg snapshot nowNs monitorStartedNs dataset feeds grace clamp) =
      (feeds.filter fun fk => nowNs - sinceNs snapshot monitorStartedNs clamp fk >
        budgetS cfg snapshot grace fk * nsPerS).map (staleFinding snapshot nowNs) := by
  unfold feedFindings openFindings
  rw [List.filter_append]
  have hrollup : ((datasetFinding snapshot nowNs dataset feeds grace clamp).toList.filter
      fun f => f.granularity = .feed) = [] := by
    rw [List.filter_eq_nil_iff]
    intro f hf
    simp [(datasetFinding_granularity (Option.mem_toList.mp hf)).1]
  rw [hrollup, List.append_nil]
  clear hrollup
  induction feeds with
  | nil => rfl
  | cons fk feeds ih =>
    by_cases hlate : nowNs - sinceNs snapshot monitorStartedNs clamp fk >
        budgetS cfg snapshot grace fk * nsPerS
    · rw [List.filterMap_cons_some (feedFinding_eq.trans (if_pos hlate)),
        List.filter_cons_of_pos (by simp [staleFinding]), ih,
        List.filter_cons_of_pos (by simpa using hlate), List.map_cons]
    · rw [List.filterMap_cons_none (feedFinding_eq.trans (if_neg hlate)), ih,
        List.filter_cons_of_neg (by simpa using hlate)]

/-- The findings for the feeds of one dataset. -/
theorem feedFindings_evaluateDataset :
    feedFindings (evaluateDataset cfg phaseResolver snapshot nowNs monitorStartedNs dataset
      (feedsOf required dataset)) =
      ((feedsOf required dataset).filter fun fk =>
        IsStale cfg phaseResolver snapshot nowNs monitorStartedNs fk).map
          (staleFinding snapshot nowNs) := by
  have hdataset : ∀ fk ∈ feedsOf required dataset, fk.dataset = dataset := by
    intro fk hfk
    simpa using (List.mem_filter.mp hfk).2
  rw [evaluateDataset_eq]
  cases hgrace : openGrace cfg phaseResolver nowNs dataset with
  | none =>
    symm
    show List.map _ _ = []
    rw [List.map_eq_nil_iff, List.filter_eq_nil_iff]
    intro fk hfk
    simp [IsStale, hdataset fk hfk, hgrace]
  | some grace =>
    refine feedFindings_openFindings.trans (congrArg _ (List.filter_congr fun fk hfk => ?_))
    simp [IsStale, hdataset fk hfk, hgrace]

/-- **The feeds with a finding** are the required feeds that are stale, each as often as it is
    required. -/
theorem feedFindings_perm :
    (feedFindings (evaluate cfg phaseResolver snapshot nowNs monitorStartedNs required)).Perm
      ((required.filter fun fk =>
        IsStale cfg phaseResolver snapshot nowNs monitorStartedNs fk).map
          (staleFinding snapshot nowNs)) := by
  have heq : feedFindings (evaluate cfg phaseResolver snapshot nowNs monitorStartedNs required) =
      ((datasets required).flatMap fun dataset =>
        (required.filter fun fk =>
          IsStale cfg phaseResolver snapshot nowNs monitorStartedNs fk).filter
            fun fk => fk.dataset = dataset).map (staleFinding snapshot nowNs) := by
    unfold evaluate
    rw [feedFindings, List.filter_flatMap, List.map_flatMap]
    refine List.flatMap_congr fun dataset _ => ?_
    refine feedFindings_evaluateDataset.trans (congrArg _ ?_)
    rw [feedsOf, List.filter_filter, List.filter_filter]
    exact List.filter_congr fun fk _ => Bool.and_comm _ _
  rw [heq]
  refine (grouped_perm nodup_firstSeen fun fk hfk => ?_).map _
  exact mem_datasets.mpr ⟨fk, (List.mem_filter.mp hfk).1, rfl⟩

/-- A finding for a feed names a required feed that is stale. -/
theorem mem_feedFindings :
    f ∈ feedFindings (evaluate cfg phaseResolver snapshot nowNs monitorStartedNs required) ↔
      ∃ fk ∈ required, IsStale cfg phaseResolver snapshot nowNs monitorStartedNs fk ∧
        staleFinding snapshot nowNs fk = f := by
  rw [feedFindings_perm.mem_iff]
  simp only [List.mem_map, List.mem_filter, decide_eq_true_eq, and_assoc]

/-- A finding that names a feed is a finding for a feed. -/
theorem evaluate_feedKey
    (hf : f ∈ evaluate cfg phaseResolver snapshot nowNs monitorStartedNs required)
    (hkey : f.feedKey = some fk) : f.granularity = .feed := by
  obtain ⟨dataset, -, hf⟩ := List.mem_flatMap.mp hf
  rw [evaluateDataset_eq] at hf
  cases hgrace : openGrace cfg phaseResolver nowNs dataset with
  | none =>
    rw [hgrace] at hf
    exact absurd hf List.not_mem_nil
  | some grace =>
    rw [hgrace] at hf
    rcases List.mem_append.mp hf with hf | hf
    · obtain ⟨g, -, hg⟩ := List.mem_filterMap.mp hf
      exact (feedFinding_granularity hg).1
    · have hnone := (datasetFinding_granularity (Option.mem_toList.mp hf)).2.2
      exact absurd (hnone.symm.trans hkey) (by simp)

/-- The stale feeds of an evaluation. -/
theorem mem_staleFeeds_evaluate :
    fk ∈ staleFeeds (evaluate cfg phaseResolver snapshot nowNs monitorStartedNs required) ↔
      fk ∈ required ∧ IsStale cfg phaseResolver snapshot nowNs monitorStartedNs fk := by
  constructor
  · intro h
    obtain ⟨f, hf, hkey⟩ := List.mem_filterMap.mp h
    have hfeed : f ∈ feedFindings
        (evaluate cfg phaseResolver snapshot nowNs monitorStartedNs required) :=
      List.mem_filter.mpr ⟨hf, by simpa using evaluate_feedKey hf hkey⟩
    obtain ⟨fk', hreq, hstale, rfl⟩ := mem_feedFindings.mp hfeed
    obtain rfl : fk' = fk := Option.some.inj hkey
    exact ⟨hreq, hstale⟩
  · rintro ⟨hreq, hstale⟩
    have hfeed := mem_feedFindings.mpr ⟨fk, hreq, hstale, rfl⟩
    exact List.mem_filterMap.mpr ⟨_, (List.mem_filter.mp hfeed).1, rfl⟩

/-! ### Later evaluations -/

/-- The finding of a feed stays. -/
theorem feedFinding_later (hle : nowNs ≤ laterNs)
    (h : feedFinding cfg snapshot nowNs monitorStartedNs grace clamp fk = some f) :
    feedFinding cfg snapshot laterNs monitorStartedNs grace clamp fk =
      some { f with detectedAt := laterNs } := by
  rw [feedFinding_eq] at h ⊢
  by_cases hlate : nowNs - sinceNs snapshot monitorStartedNs clamp fk >
      budgetS cfg snapshot grace fk * nsPerS
  · rw [if_pos hlate] at h
    have hlater : laterNs - sinceNs snapshot monitorStartedNs clamp fk >
        budgetS cfg snapshot grace fk * nsPerS := by omega
    rw [if_pos hlater, ← Option.some.inj h]
    rfl
  · rw [if_neg hlate] at h
    exact absurd h (by simp)

/-- The finding of the rollup stays. -/
theorem datasetFinding_later (hle : nowNs ≤ laterNs)
    (h : datasetFinding snapshot nowNs dataset feeds grace clamp = some f) :
    datasetFinding snapshot laterNs dataset feeds grace clamp =
      some { f with detectedAt := laterNs } := by
  unfold datasetFinding at h ⊢
  simp only at h ⊢
  cases hmax : ((feeds.filterMap snapshot).map fun obs => max obs.tsEventNs clamp).max? with
  | none =>
    rw [hmax] at h
    exact absurd h (by simp)
  | some newest =>
    rw [hmax] at h
    simp only at h ⊢
    by_cases hlate : nowNs - newest > (minInterval feeds + grace) * nsPerS
    · rw [if_pos hlate] at h
      have hlater : laterNs - newest > (minInterval feeds + grace) * nsPerS := by omega
      rw [if_pos hlater, ← Option.some.inj h]
    · rw [if_neg hlate] at h
      exact absurd h (by simp)

/-- **A finding stays** while the snapshot and the phase of its dataset do. -/
theorem mem_evaluate_later (hle : nowNs ≤ laterNs)
    (hf : f ∈ evaluate cfg phaseResolver snapshot nowNs monitorStartedNs required)
    (hphase : phaseResolver (assetClassForDataset f.dataset) laterNs =
      phaseResolver (assetClassForDataset f.dataset) nowNs) :
    { f with detectedAt := laterNs } ∈
      evaluate cfg phaseResolver snapshot laterNs monitorStartedNs required := by
  obtain ⟨dataset, hd, hf⟩ := List.mem_flatMap.mp hf
  have hfeeds : ∀ fk ∈ feedsOf required dataset, fk.dataset = dataset := by
    intro fk hfk
    simpa using (List.mem_filter.mp hfk).2
  rw [(evaluateDataset_dataset hfeeds hf).1] at hphase
  refine List.mem_flatMap.mpr ⟨dataset, hd, ?_⟩
  rw [evaluateDataset_eq] at hf ⊢
  have hgrace : openGrace cfg phaseResolver laterNs dataset =
      openGrace cfg phaseResolver nowNs dataset := by
    simp only [openGrace, hphase]
  have hclamp : phaseOpenNs phaseResolver laterNs dataset =
      phaseOpenNs phaseResolver nowNs dataset := by
    unfold phaseOpenNs
    rw [hphase]
  rw [hgrace, hclamp]
  cases hopen : openGrace cfg phaseResolver nowNs dataset with
  | none =>
    rw [hopen] at hf
    exact absurd hf List.not_mem_nil
  | some grace =>
    rw [hopen] at hf
    rcases List.mem_append.mp hf with hf | hf
    · obtain ⟨fk, hfk, hf⟩ := List.mem_filterMap.mp hf
      exact List.mem_append_left _ (List.mem_filterMap.mpr ⟨fk, hfk, feedFinding_later hle hf⟩)
    · refine List.mem_append_right _ (Option.mem_toList.mpr ?_)
      exact datasetFinding_later hle (Option.mem_toList.mp hf)

/-! ### More events -/

/-- What was observed is still there, or a newer event. -/
def NoOlder (snapshot later : Snapshot) : Prop :=
  ∀ fk obs, snapshot fk = some obs → ∃ obs', later fk = some obs' ∧ obs.tsEventNs ≤ obs'.tsEventNs

theorem noOlder_update (hnew : ∀ existing, snapshot fk = some existing →
    existing.tsEventNs ≤ obs.tsEventNs) : NoOlder snapshot (Function.update snapshot fk obs) := by
  intro fk' old hold
  by_cases hfk : fk' = fk
  · subst hfk
    exact ⟨obs, Function.update_self .., hnew old hold⟩
  · exact ⟨old, (Function.update_of_ne hfk ..).trans hold, le_rfl⟩

/-- A call of `record` replaces no event by an older one. -/
theorem noOlder_record : NoOlder snapshot (record snapshot call) := by
  unfold record
  cases hold : snapshot call.feedKey with
  | none => exact noOlder_update (by simp [hold])
  | some existing =>
    simp only
    by_cases hkeep : existing.tsEventNs ≥ call.tsEventNs
    · rw [if_pos hkeep]
      exact fun fk obs hobs => ⟨obs, hobs, le_rfl⟩
    · rw [if_neg hkeep]
      refine noOlder_update fun other hother => ?_
      obtain rfl := Option.some.inj (hold.symm.trans hother)
      exact le_of_lt (not_le.mp hkeep)

theorem noOlder_recordAll : NoOlder snapshot (recordAll snapshot calls) := by
  induction calls generalizing snapshot with
  | nil => exact fun fk obs hobs => ⟨obs, hobs, le_rfl⟩
  | cons call calls ih =>
    intro fk obs hobs
    have hrecord : NoOlder snapshot (record snapshot call) := noOlder_record
    obtain ⟨obs', hobs', hle⟩ := hrecord fk obs hobs
    obtain ⟨obs'', hobs'', hle'⟩ := ih fk obs' hobs'
    exact ⟨obs'', hobs'', hle.trans hle'⟩

/-- A newer event makes no observed feed stale. -/
theorem NoOlder.isStale (h : NoOlder snapshot later) (hseen : snapshot fk ≠ none)
    (hstale : IsStale cfg phaseResolver later nowNs monitorStartedNs fk) :
    IsStale cfg phaseResolver snapshot nowNs monitorStartedNs fk := by
  obtain ⟨obs, hobs⟩ := Option.ne_none_iff_exists'.mp hseen
  obtain ⟨obs', hobs', hle⟩ := h fk obs hobs
  obtain ⟨grace, hgrace, hlate⟩ := hstale
  refine ⟨grace, hgrace, ?_⟩
  simp only [sinceNs, budgetS, hobs, hobs'] at hlate ⊢
  -- the budget is the same, and it has run for longer
  have hclamped := max_le_max_right (phaseOpenNs phaseResolver nowNs fk.dataset) hle
  omega

/-- **The evaluation meets its specification.**  The findings for feeds are those of the stale
    required feeds; while the snapshot and the phase stay, a finding stays; and recording more
    events makes no feed stale that was observed. -/
theorem evaluate_meets_spec (cfg : GraceConfig) (phaseResolver : AssetClass → ℤ → SessionPhase)
    (snapshot : Snapshot) (nowNs monitorStartedNs : ℤ) (required : List FeedKey) :
    (feedFindings (evaluate cfg phaseResolver snapshot nowNs monitorStartedNs required)).Perm
      ((required.filter fun fk =>
        IsStale cfg phaseResolver snapshot nowNs monitorStartedNs fk).map
          (staleFinding snapshot nowNs)) ∧
    (∀ laterNs, nowNs ≤ laterNs →
      ∀ f ∈ evaluate cfg phaseResolver snapshot nowNs monitorStartedNs required,
        phaseResolver (assetClassForDataset f.dataset) laterNs =
          phaseResolver (assetClassForDataset f.dataset) nowNs →
        { f with detectedAt := laterNs } ∈
          evaluate cfg phaseResolver snapshot laterNs monitorStartedNs required) ∧
    (∀ calls fk, snapshot fk ≠ none →
      fk ∈ staleFeeds (evaluate cfg phaseResolver (recordAll snapshot calls) nowNs
        monitorStartedNs required) →
      fk ∈ staleFeeds (evaluate cfg phaseResolver snapshot nowNs monitorStartedNs required)) := by
  refine ⟨feedFindings_perm, fun laterNs hle f hf hphase => mem_evaluate_later hle hf hphase, ?_⟩
  intro calls fk hseen hstale
  obtain ⟨hreq, hlate⟩ := mem_staleFeeds_evaluate.mp hstale
  exact mem_staleFeeds_evaluate.mpr ⟨hreq, noOlder_recordAll.isStale hseen hlate⟩

end Findings

end Msai.Live.DataFreshness
