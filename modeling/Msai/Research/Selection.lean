import Msai.Research.Sweep

namespace Msai.Research

open Msai.Lib

/-!
# The selection of a sweep sees the training range only

The ranking and the winner of a sweep are frozen before the diagnostics run; every backtest before
that is on a prefix of the training range.

* `AgreeInside` — two backtest runners agree on every range inside another;
* `SweepReport.choice` — what was chosen, without the diagnostics of the winner;
* `runParameterSweep_choice` — runners that agree inside the training range choose alike;
* `SearchSound` — what the screening keeps: the configurations, and survivors that are not pruned;
* `sweep_selects_training` — the theorem over every sweep.
-/

/-- The runners agree on every call whose date range lies inside this one. -/
def AgreeInside (runner runner' : Runner) (startDate endDate : ℤ) : Prop :=
  ∀ config s e, startDate ≤ s → e ≤ endDate → runner config s e = runner' config s e

/-- The candidate without the diagnostics that are added to the winner. -/
def Candidate.choice (c : Candidate) : Candidate :=
  { c with holdoutMetrics := none, holdoutError := none }

/-- The ranked candidates and the winner. -/
def SweepReport.choice (r : SweepReport) : List Candidate × Option Candidate :=
  (r.results.map Candidate.choice, r.bestResult.map Candidate.choice)

/-- The objective of a configuration over the training range, if its run succeeds and passes the
    filters. -/
def trainScore (py : PyFloats) (runner : Runner) (plan : SweepPlan) (config : PyDict) : Option ℚ :=
  let r := runOne runner config plan.trainStart plan.trainEnd
  if isStageEligible py plan.screening 1 r.error r.metrics then
    extractUsableObjectiveValue py r.metrics plan.screening.objective
  else none

/-! ### Runners that agree -/

section Agree

variable {py : PyFloats} {scr : Screening} {runner runner' : Runner} {startDate endDate : ℤ}

theorem runOne_congr (hagree : AgreeInside runner runner' startDate endDate) {config : PyDict}
    {s e : ℤ} (hs : startDate ≤ s) (he : e ≤ endDate) :
    runOne runner config s e = runOne runner' config s e := by
  unfold runOne
  rw [hagree config s e hs he]

theorem runCandidates_congr (hagree : AgreeInside runner runner' startDate endDate)
    {candidates : List Candidate} {indexes : List ℕ} {s e : ℤ} (hs : startDate ≤ s)
    (he : e ≤ endDate) :
    runCandidates runner candidates indexes s e = runCandidates runner' candidates indexes s e := by
  unfold runCandidates
  simp only [runOne_congr hagree hs he]

/-- No stage looks past the end of the training range. -/
theorem endDate_le_of_stage {stageFractions : Option (List ℚ)} :
    ∀ stage ∈ buildSuccessiveHalvingStages py startDate endDate stageFractions,
      stage.endDate ≤ endDate := by
  -- by induction on the fractions: each stage end is cut off at the end of the range
  have hadd : ∀ (fractions : List ℚ) (stages : List HalvingStage),
      (∀ stage ∈ stages, stage.endDate ≤ endDate) →
        ∀ stage ∈ fractions.foldl (addHalvingStage py startDate endDate) stages,
          stage.endDate ≤ endDate := by
    intro fractions
    induction fractions with
    | nil => exact fun _ h => h
    | cons fraction fractions ih =>
      intro stages hstages
      apply ih
      unfold addHalvingStage
      dsimp only
      split
      · exact hstages
      · rw [List.forall_mem_append, List.forall_mem_singleton]
        exact ⟨hstages, min_le_left _ _⟩
  have hstages := hadd (normalizeStageFractions stageFractions) [] (by simp)
  unfold buildSuccessiveHalvingStages
  dsimp only
  split
  · exact hstages
  · rw [List.forall_mem_append, List.forall_mem_singleton]
    exact ⟨hstages, le_refl _⟩

theorem runSuccessiveHalving_congr (hagree : AgreeInside runner runner' startDate endDate)
    {candidates : List Candidate} {stageFractions : Option (List ℚ)} {reductionFactor : ℤ} :
    runSuccessiveHalving py scr runner candidates startDate endDate stageFractions
        reductionFactor =
      runSuccessiveHalving py scr runner' candidates startDate endDate stageFractions
        reductionFactor := by
  unfold runSuccessiveHalving
  refine congrArg (Except.map _) (foldlM_congr_of_mem fun st stage hstage => ?_)
  -- every backtest of a stage is inside the training range
  have hend : stage.1.endDate ≤ endDate :=
    endDate_le_of_stage stage.1 (List.fst_mem_of_mem_zipIdx hstage)
  unfold halvingStage
  rw [runCandidates_congr hagree (le_refl _) hend]

theorem choice_diagnose (split : Option HoldoutSplit) (c : Candidate) :
    (c.diagnose runner split).choice = c.choice := by
  cases split <;> rfl

theorem config_diagnose (split : Option HoldoutSplit) (c : Candidate) :
    (c.diagnose runner split).config = c.config := by
  cases split <;> rfl

/-- What is left of the report is the ranking and its first candidate that may be selected. -/
theorem sweepReport_choice {args : SweepArgs} {plan : SweepPlan} {st : HalvingState}
    {ranked : List Candidate} :
    (sweepReport runner args plan st ranked).choice =
      (ranked.map Candidate.choice,
        (ranked.find? Candidate.isSelectable).map Candidate.choice) := by
  refine Prod.ext (map_modify (choice_diagnose plan.split)) ?_
  show ((ranked.find? Candidate.isSelectable).map _).map Candidate.choice = _
  rw [Option.map_map]
  exact congrFun (congrArg Option.map (funext (choice_diagnose plan.split))) _

/-- **The choice of a sweep does not depend on the holdout.** -/
theorem runParameterSweep_choice {optuna : Runner → SweepPlan → Except String SweepReport}
    {args : SweepArgs}
    (hstaged : ∀ plan, planSweep py args = .ok plan → plan.strategyUsed ≠ "optuna")
    (hagree : ∀ plan, planSweep py args = .ok plan →
      AgreeInside runner runner' plan.trainStart plan.trainEnd) :
    (runParameterSweep py optuna runner args).map SweepReport.choice =
      (runParameterSweep py optuna runner' args).map SweepReport.choice := by
  unfold runParameterSweep
  cases hplan : planSweep py args with
  | error e => rfl
  | ok plan =>
    have hinside := hagree plan hplan
    -- screening and training runs agree, and the diagnostics are not part of the choice
    have hscreen :
        screenCandidates py runner args plan = screenCandidates py runner' args plan := by
      unfold screenCandidates
      simp only [runSuccessiveHalving_congr hinside]
    show (if _ then _ else _ : Except String SweepReport).map _ =
      (if _ then _ else _ : Except String SweepReport).map _
    rw [if_neg (hstaged plan hplan), if_neg (hstaged plan hplan), hscreen]
    cases screenCandidates py runner' args plan with
    | error e => rfl
    | ok st =>
      have hranked : rankTraining py runner plan st = rankTraining py runner' plan st := by
        unfold rankTraining evaluateSurvivors
        rw [runCandidates_congr hinside (le_refl _) (le_refl _)]
      show Except.ok (sweepReport runner args plan st _).choice =
        Except.ok (sweepReport runner' args plan st _).choice
      rw [sweepReport_choice, sweepReport_choice, hranked]

end Agree

/-! ### What the screening keeps -/

mutual

theorem toJsonable_toJsonable : ∀ v : PyValue, v.toJsonable.toJsonable = v.toJsonable
  | .none | .bool _ | .int _ | .float _ | .nonFinite | .str _ | .text _ => rfl
  | .list items => congrArg PyValue.list (itemsToJsonable_idem items)
  | .dict fields => congrArg PyValue.dict (dictToJsonable_idem fields)

theorem itemsToJsonable_idem : ∀ items : List PyValue,
    itemsToJsonable (itemsToJsonable items) = itemsToJsonable items
  | [] => rfl
  | v :: vs => congrArg₂ List.cons (toJsonable_toJsonable v) (itemsToJsonable_idem vs)

theorem dictToJsonable_idem : ∀ fields : List (String × PyValue),
    dictToJsonable (dictToJsonable fields) = dictToJsonable fields
  | [] => rfl
  | (k, v) :: fields =>
    congrArg₂ (fun v fields => (k, v) :: fields) (toJsonable_toJsonable v)
      (dictToJsonable_idem fields)

end

/-- The configurations stay, no candidate has a full run yet, and a survivor has not been pruned. -/
structure SearchSound (configs : List PyDict) (st : HalvingState) : Prop where
  configs : st.candidates.map Candidate.config = configs
  notRun : ∀ c ∈ st.candidates, c.completedFullRun = false
  alive : ∀ k ∈ st.survivors, ∃ c, st.candidates[k]? = some c ∧ c.pruned = false
  nodup : st.survivors.Nodup

section Screening

variable {py : PyFloats} {scr : Screening} {runner : Runner} {startDate endDate : ℤ}
  {candidates : List Candidate} {indexes : List ℕ} {configs : List PyDict} {st st' : HalvingState}

/-- The results are those of the indexes, in their order. -/
theorem runCandidates_fst_sublist :
    ((runCandidates runner candidates indexes startDate endDate).map Prod.fst).Sublist indexes := by
  unfold runCandidates
  induction indexes with
  | nil => exact .slnil
  | cons k indexes ih =>
    rw [List.filterMap_cons]
    cases candidates[k]? with
    | none => exact ih.cons k
    | some c => exact ih.cons_cons k

theorem mem_runCandidates {p : ℕ × RunResult} :
    p ∈ runCandidates runner candidates indexes startDate endDate ↔
      p.1 ∈ indexes ∧ ∃ c, candidates[p.1]? = some c ∧
        p.2 = runOne runner c.config startDate endDate := by
  unfold runCandidates
  rw [List.mem_filterMap]
  constructor
  · rintro ⟨k, hk, hmap⟩
    obtain ⟨c, hc, rfl⟩ := Option.map_eq_some_iff.mp hmap
    exact ⟨hk, c, hc, rfl⟩
  · rintro ⟨hk, c, hc, hresult⟩
    refine ⟨p.1, hk, Option.map_eq_some_iff.mpr ⟨c, hc, ?_⟩⟩
    rw [← hresult]

/-- No index has two results. -/
theorem runCandidates_fst_nodup (h : indexes.Nodup) :
    ((runCandidates runner candidates indexes startDate endDate).map Prod.fst).Nodup :=
  h.sublist runCandidates_fst_sublist

theorem config_recordStage {stageIndex stageCount : ℕ} {fraction : ℚ} (r : RunResult)
    (c : Candidate) :
    (c.recordStage py scr stageIndex stageCount fraction r).config = c.config := by
  unfold Candidate.recordStage
  dsimp only
  split <;> rfl

theorem notRun_recordStage {stageIndex stageCount : ℕ} {fraction : ℚ} (r : RunResult)
    (c : Candidate) (h : c.completedFullRun = false) :
    (c.recordStage py scr stageIndex stageCount fraction r).completedFullRun = false := by
  unfold Candidate.recordStage
  dsimp only
  split
  · rfl
  · exact h

/-- A result that passes its stage prunes nobody. -/
theorem pruned_recordStage {stageIndex stageCount : ℕ} {fraction : ℚ} {r : RunResult}
    {c : Candidate} (hpasses : stagePasses py scr fraction r = true) :
    (c.recordStage py scr stageIndex stageCount fraction r).pruned = c.pruned := by
  have heligible : isStageEligible py scr fraction r.error r.metrics = true :=
    (Bool.and_eq_true_iff.mp hpasses).2
  unfold Candidate.recordStage
  dsimp only
  rw [heligible]
  simp

/-- The ranked indexes are those of results that pass the stage. -/
theorem mem_rankStage {fraction : ℚ} {results : List (ℕ × RunResult)} {k : ℕ} :
    k ∈ rankStage py scr fraction results ↔
      ∃ r, (k, r) ∈ results ∧ stagePasses py scr fraction r = true := by
  unfold rankStage
  rw [List.mem_map]
  constructor
  · rintro ⟨⟨_, r⟩, hmem, rfl⟩
    exact ⟨r, List.mem_filter.mp (rankBy_perm.mem_iff.mp hmem)⟩
  · rintro ⟨r, hmem⟩
    exact ⟨(k, r), rankBy_perm.mem_iff.mpr (List.mem_filter.mpr hmem), rfl⟩

theorem nodup_rankStage {fraction : ℚ} {results : List (ℕ × RunResult)}
    (h : (results.map Prod.fst).Nodup) : (rankStage py scr fraction results).Nodup := by
  unfold rankStage
  rw [(rankBy_perm.map Prod.fst).nodup_iff]
  exact h.sublist (List.filter_sublist.map Prod.fst)

/-- The survivors behind the first `n` may be pruned. -/
theorem SearchSound.prune (hst : SearchSound configs st) {n stageIndex : ℕ} {reason : String}
    {summaries : List (ℕ × ℕ × ℕ)} :
    SearchSound configs
      { candidates := modifyAll (fun (_ : Unit) c => c.markPruned stageIndex reason)
          ((st.survivors.drop n).map fun k => (k, ())) st.candidates
        summaries := summaries
        survivors := st.survivors.take n } where
  configs := by
    have hsame : ∀ (_ : Unit) (c : Candidate),
        (c.markPruned stageIndex reason).config = c.config := fun _ _ => rfl
    show (modifyAll (fun (_ : Unit) c => Candidate.markPruned c stageIndex reason) _
      st.candidates).map Candidate.config = configs
    rw [map_modifyAll hsame, hst.configs]
  notRun := by
    show ∀ c ∈ modifyAll (fun (_ : Unit) c => Candidate.markPruned c stageIndex reason) _
      st.candidates, c.completedFullRun = false
    exact forall_mem_modifyAll (fun _ _ _ => rfl) hst.notRun
  alive := by
    intro k hk
    obtain ⟨c, hc, hpruned⟩ := hst.alive k (List.mem_of_mem_take hk)
    refine ⟨c, ?_, hpruned⟩
    -- no index survives twice, so a survivor is not among those that are pruned
    have hkept : k ∉ st.survivors.drop n := fun hdrop =>
      List.disjoint_take_drop hst.nodup (le_refl n) hk hdrop
    refine (getElem?_modifyAll_indexes (hst.nodup.sublist (List.drop_sublist n _))).trans ?_
    rw [if_neg hkept, hc]
  nodup := hst.nodup.sublist (List.take_sublist n _)

theorem SearchSound.stage (hst : SearchSound configs st) {reductionFactor : ℤ} {stageCount : ℕ}
    {stage : HalvingStage × ℕ}
    (h : halvingStage py scr runner startDate reductionFactor stageCount st stage = .ok st') :
    SearchSound configs st' := by
  have hresults : ((runCandidates runner st.candidates st.survivors startDate
      stage.1.endDate).map Prod.fst).Nodup := runCandidates_fst_nodup hst.nodup
  have hranked : (rankStage py scr stage.1.fraction (runCandidates runner st.candidates
      st.survivors startDate stage.1.endDate)).Nodup := nodup_rankStage hresults
  -- the candidates with the results of the stage, before the halving
  have hrecorded : SearchSound configs
      { candidates := modifyAll (Candidate.recordStage py scr stage.2 stageCount stage.1.fraction)
          (runCandidates runner st.candidates st.survivors startDate stage.1.endDate) st.candidates
        summaries := st'.summaries
        survivors := rankStage py scr stage.1.fraction
          (runCandidates runner st.candidates st.survivors startDate stage.1.endDate) } := by
    refine ⟨?_, ?_, fun k hk => ?_, hranked⟩
    · show (modifyAll _ _ st.candidates).map Candidate.config = configs
      rw [map_modifyAll config_recordStage, hst.configs]
    · exact forall_mem_modifyAll notRun_recordStage hst.notRun
    · -- who is ranked was a survivor, and its result prunes nobody
      obtain ⟨r, hmem, hpasses⟩ := mem_rankStage.mp hk
      obtain ⟨hsurvivor, -⟩ := mem_runCandidates.mp hmem
      obtain ⟨c, hc, hpruned⟩ := hst.alive k hsurvivor
      refine ⟨c.recordStage py scr stage.2 stageCount stage.1.fraction r, ?_, ?_⟩
      · show (modifyAll _ _ st.candidates)[k]? = _
        rw [getElem?_modifyAll_of_mem hresults hmem, hc]
        rfl
      · rw [pruned_recordStage hpasses, hpruned]
  unfold halvingStage at h
  dsimp only at h
  split at h
  · obtain rfl := Except.ok.inj h
    exact hst
  · split at h
    · obtain rfl := Except.ok.inj h
      exact hrecorded
    · split at h
      · exact absurd h (by simp)
      · obtain rfl := Except.ok.inj h
        exact hrecorded.prune

/-- The candidates are copied at the end of the search, and their configurations are JSON
    already. -/
theorem SearchSound.toJsonable (hst : SearchSound configs st)
    (hconfigs : ∀ config ∈ configs, dictToJsonable config = config) :
    SearchSound configs
      { st with candidates := st.candidates.map Candidate.toJsonable } where
  configs := by
    show (st.candidates.map Candidate.toJsonable).map Candidate.config = configs
    rw [List.map_map, ← hst.configs]
    refine List.map_congr_left fun c hc => hconfigs c.config ?_
    rw [← hst.configs]
    exact List.mem_map_of_mem hc
  notRun := by
    intro c hc
    obtain ⟨c', hc', rfl⟩ := List.mem_map.mp hc
    exact hst.notRun c' hc'
  alive := by
    intro k hk
    obtain ⟨c, hc, hpruned⟩ := hst.alive k hk
    refine ⟨c.toJsonable, ?_, hpruned⟩
    show (st.candidates.map Candidate.toJsonable)[k]? = _
    rw [List.getElem?_map, hc]
    rfl
  nodup := hst.nodup

/-- The candidates of a grid. -/
theorem SearchSound.fresh {baseConfig : PyDict} {combinations : List PyDict} :
    SearchSound (combinations.map (candidateConfig baseConfig))
      { candidates := combinations.map fun params =>
          Candidate.fresh baseConfig params startDate endDate
        summaries := []
        survivors := List.range combinations.length } where
  configs := by
    rw [List.map_map]
    rfl
  notRun := by
    intro c hc
    obtain ⟨params, -, rfl⟩ := List.mem_map.mp hc
    rfl
  alive := by
    intro k hk
    have hlt : k < combinations.length := List.mem_range.mp hk
    refine ⟨Candidate.fresh baseConfig combinations[k] startDate endDate, ?_, rfl⟩
    rw [List.getElem?_map, List.getElem?_eq_getElem hlt]
    rfl
  nodup := List.nodup_range

/-- What successive halving makes of them. -/
theorem SearchSound.of_halving {baseConfig : PyDict} {combinations : List PyDict}
    {stageFractions : Option (List ℚ)} {reductionFactor : ℤ}
    (h : runSuccessiveHalving py scr runner (combinations.map fun params =>
      Candidate.fresh baseConfig params startDate endDate) startDate endDate stageFractions
      reductionFactor = .ok st) :
    SearchSound (combinations.map (candidateConfig baseConfig)) st := by
  unfold runSuccessiveHalving at h
  dsimp only at h
  rw [List.length_map] at h
  obtain ⟨last, hloop, rfl⟩ := except_map_eq_ok h
  have hlast := foldlM_ok_invariant (fun _ _ _ hst hstep => SearchSound.stage hst hstep) hloop
    SearchSound.fresh
  refine hlast.toJsonable fun config hconfig => ?_
  obtain ⟨params, -, rfl⟩ := List.mem_map.mp hconfig
  exact dictToJsonable_idem _

/-- What the screening hands to the runs over the full training range. -/
theorem SearchSound.of_screen {args : SweepArgs} {plan : SweepPlan}
    (h : screenCandidates py runner args plan = .ok st) :
    SearchSound (plan.combinations.map (candidateConfig args.baseConfig)) st := by
  unfold screenCandidates at h
  dsimp only at h
  split at h
  · exact SearchSound.of_halving h
  · obtain rfl := Except.ok.inj h
    rw [List.length_map]
    exact SearchSound.fresh

end Screening

/-! ### The runs over the full training range -/

section Selection

variable {py : PyFloats} {scr : Screening} {runner : Runner} {plan : SweepPlan}
  {configs : List PyDict} {st : HalvingState} {c : Candidate} {r : RunResult} {k : ℕ}

/-- The record of a survivor that has had its run. -/
def Candidate.trained (runner : Runner) (plan : SweepPlan) (c : Candidate) : Candidate :=
  c.recordFullTrain (runOne runner c.config plan.trainStart plan.trainEnd)

theorem getElem?_evaluateSurvivors (hst : SearchSound configs st) (hk : k ∈ st.survivors) :
    (evaluateSurvivors runner plan st)[k]? = (st.candidates[k]?).map (Candidate.trained runner plan)
      := by
  obtain ⟨c, hc, -⟩ := hst.alive k hk
  have hmem : (k, runOne runner c.config plan.trainStart plan.trainEnd) ∈
      runCandidates runner st.candidates st.survivors plan.trainStart plan.trainEnd :=
    mem_runCandidates.mpr ⟨hk, c, hc, rfl⟩
  unfold evaluateSurvivors
  rw [getElem?_modifyAll_of_mem (runCandidates_fst_nodup hst.nodup) hmem, hc]
  rfl

/-- Who has a full run is a survivor. -/
theorem mem_evaluateSurvivors (hst : SearchSound configs st) {e : Candidate}
    (he : e ∈ evaluateSurvivors runner plan st) :
    e.completedFullRun = false ∨
      ∃ c ∈ st.candidates, c.pruned = false ∧ e = c.trained runner plan := by
  obtain ⟨k, hk⟩ := List.getElem?_of_mem he
  by_cases hsurvivor : k ∈ st.survivors
  · right
    obtain ⟨c, hc, hpruned⟩ := hst.alive k hsurvivor
    rw [getElem?_evaluateSurvivors hst hsurvivor, hc] at hk
    exact ⟨c, List.mem_of_getElem? hc, hpruned, (Option.some.inj hk).symm⟩
  · left
    have hskipped : k ∉ (runCandidates runner st.candidates st.survivors plan.trainStart
        plan.trainEnd).map Prod.fst :=
      fun hmem => hsurvivor (runCandidates_fst_sublist.mem hmem)
    unfold evaluateSurvivors at hk
    rw [getElem?_modifyAll_of_not_mem hskipped] at hk
    exact hst.notRun e (List.mem_of_getElem? hk)

theorem config_evaluateSurvivors :
    (evaluateSurvivors runner plan st).map Candidate.config = st.candidates.map Candidate.config :=
  map_modifyAll fun _ _ => rfl

/-- A result that may be selected is that of a full run. -/
theorem completedFullRun_of_isSelectable
    (h : (markTrainingSelection py scr c).isSelectable = true) : c.completedFullRun = true := by
  have hreason : (c.rejection py scr).isNone = true := by
    have heligible : some (c.rejection py scr).isNone = some true := of_decide_eq_true h
    exact Option.some.inj heligible
  by_contra hrun
  -- the last branch but one rejects a candidate without a full run
  have hmissing : (!c.completedFullRun) = true := by simpa using hrun
  unfold Candidate.rejection at hreason
  dsimp only at hreason
  split at hreason
  · exact absurd hreason (by simp)
  · rw [if_pos hmissing] at hreason
    split at hreason
    · exact absurd hreason (by simp)
    · split at hreason <;> exact absurd hreason (by simp)

/-- Only the filters and the objective can stop a survivor that has had its run. -/
theorem rejection_recordFullTrain (hpruned : c.pruned = false) :
    (c.recordFullTrain r).rejection py scr = none ↔
      isStageEligible py scr 1 r.error r.metrics = true ∧
        (extractUsableObjectiveValue py r.metrics scr.objective).isSome = true := by
  have hvalue : (c.recordFullTrain r).trainMetrics.getD (c.recordFullTrain r).metrics = r.metrics :=
    rfl
  have halive : (c.recordFullTrain r).pruned = false := hpruned
  unfold Candidate.rejection
  rw [hvalue, halive]
  cases herror : r.error with
  | some e => simp [Candidate.recordFullTrain, isStageEligible, herror]
  | none =>
    cases extractUsableObjectiveValue py r.metrics scr.objective <;>
      cases helig : isStageEligible py scr 1 none r.metrics <;>
      simp [Candidate.recordFullTrain, herror, helig]

theorem isSelectable_mark :
    (markTrainingSelection py scr c).isSelectable = true ↔ c.rejection py scr = none := by
  show decide (some (c.rejection py scr).isNone = some true) = true ↔ _
  rw [decide_eq_true_iff, Option.some.injEq, Option.isNone_iff_eq_none]

theorem error_of_isStageEligible {fraction : ℚ} {error : Option String} {metrics : Option PyDict}
    (h : isStageEligible py scr fraction error metrics = true) : error = none := by
  cases error with
  | none => rfl
  | some e => exact absurd h (by simp [isStageEligible])

/-- The rank of a survivor whose run passes the filters. -/
theorem rankKey_mark {v : ℚ} (hpruned : c.pruned = false)
    (hpasses : isStageEligible py scr 1 r.error r.metrics = true)
    (hvalue : extractUsableObjectiveValue py r.metrics scr.objective = some v) :
    (markTrainingSelection py scr (c.recordFullTrain r)).rankKey py scr = toLex (0, -v) := by
  have herror : r.error = none := error_of_isStageEligible hpasses
  have hnone : (c.recordFullTrain r).rejection py scr = none :=
    (rejection_recordFullTrain hpruned).mpr ⟨hpasses, Option.isSome_iff_exists.mpr ⟨v, hvalue⟩⟩
  -- the filters have passed it, so it is not marked as pruned
  have hkept : (c.recordFullTrain r).filteredOut py scr = false := by
    show (_ && !isStageEligible py scr 1 r.error r.metrics) = false
    rw [hpasses, Bool.not_true, Bool.and_false]
  show sortKey (extractUsableObjectiveValue py r.metrics scr.objective) r.error
    (c.pruned || (c.recordFullTrain r).filteredOut py scr) r.error.isNone
    (some ((c.recordFullTrain r).rejection py scr).isNone) = _
  rw [hvalue, herror, hpruned, hkept, hnone]
  rfl

/-- The score of a configuration is the objective of a run that passes the filters. -/
theorem trainScore_eq_some {config : PyDict} {v : ℚ} :
    trainScore py runner plan config = some v ↔
      isStageEligible py plan.screening 1
          (runOne runner config plan.trainStart plan.trainEnd).error
          (runOne runner config plan.trainStart plan.trainEnd).metrics = true ∧
        extractUsableObjectiveValue py (runOne runner config plan.trainStart plan.trainEnd).metrics
          plan.screening.objective = some v := by
  unfold trainScore
  dsimp only
  split
  · simp [*]
  · simp [*]

/-- **The winner of a ranking has the highest score of all survivors.** -/
theorem best_of_rankTraining (hst : SearchSound configs st) {best : Candidate}
    (hbest : (rankTraining py runner plan st).find? Candidate.isSelectable = some best) :
    ∃ v, trainScore py runner plan best.config = some v ∧
      ∀ k ∈ st.survivors, ∀ c, st.candidates[k]? = some c → ∀ w,
        trainScore py runner plan c.config = some w →
          w ≤ v := by
  have hselectable : best.isSelectable = true := List.find?_some hbest
  have hmem : best ∈ (evaluateSurvivors runner plan st).map
      (markTrainingSelection py plan.screening) :=
    rankBy_perm.mem_iff.mp (List.mem_of_find?_eq_some hbest)
  obtain ⟨e, he, rfl⟩ := List.mem_map.mp hmem
  have hcompleted : e.completedFullRun = true := completedFullRun_of_isSelectable hselectable
  rcases mem_evaluateSurvivors hst he with hnot | ⟨winner, -, hpruned, rfl⟩
  · -- nobody is selected without a full run
    rw [hnot] at hcompleted
    exact absurd hcompleted (by simp)
  · obtain ⟨hpasses, hsome⟩ :=
      (rejection_recordFullTrain hpruned).mp (isSelectable_mark.mp hselectable)
    obtain ⟨v, hv⟩ := Option.isSome_iff_exists.mp hsome
    refine ⟨v, trainScore_eq_some.mpr ⟨hpasses, hv⟩, fun k hk c hc w hw => ?_⟩
    obtain ⟨hcpasses, hcv⟩ := trainScore_eq_some.mp hw
    obtain ⟨c', hc', hcpruned⟩ := hst.alive k hk
    obtain rfl : c = c' := Option.some.inj (hc.symm.trans hc')
    have hrun : (evaluateSurvivors runner plan st)[k]? = some (c.trained runner plan) := by
      rw [getElem?_evaluateSurvivors hst hk, hc]
      rfl
    have hcandidate : (markTrainingSelection py plan.screening (c.trained runner plan)).isSelectable
        = true :=
      isSelectable_mark.mpr ((rejection_recordFullTrain hcpruned).mpr
        ⟨hcpasses, Option.isSome_iff_exists.mpr ⟨w, hcv⟩⟩)
    -- the winner is the first that may be selected, so its key is the least of theirs
    have hle := rankBy_find?_le hbest
      (List.mem_map_of_mem (List.mem_of_getElem? hrun)) hcandidate
    have hkeys : toLex ((0 : ℕ), -v) ≤ toLex ((0 : ℕ), -w) := by
      rw [← rankKey_mark hpruned hpasses hv, ← rankKey_mark hcpruned hcpasses hcv]
      exact hle
    -- both are of the first class, so the objectives decide
    rcases Prod.Lex.toLex_le_toLex.mp hkeys with hlt | ⟨-, hle⟩
    · exact absurd hlt (lt_irrefl 0)
    · exact neg_le_neg_iff.mp hle

/-- What a plan takes from the arguments. -/
theorem eq_of_planSweep {args : SweepArgs} (h : planSweep py args = .ok plan) :
    plan.combinations = gridProduct args.parameterGrid ∧
      plan.strategyUsed = resolveSearchStrategy args.searchStrategy plan.combinations.length
        args.startDate plan.trainEnd := by
  unfold planSweep expandParameterGrid at h
  split at h
  · exact absurd h (by simp [bind, Except.bind])
  · cases hsplit : resolveTrainHoldoutSplit py args.startDate args.endDate args.holdoutFraction
      args.holdoutDays args.purgeDays with
    | error e =>
      rw [hsplit] at h
      exact absurd h (by simp [bind, Except.bind])
    | ok split =>
      rw [hsplit] at h
      have hplan := Except.ok.inj h
      rw [← hplan]
      exact ⟨rfl, rfl⟩

/-- Only a sweep that asks for Optuna uses it. -/
theorem strategyUsed_of_planSweep {args : SweepArgs} (hstaged : args.searchStrategy ≠ "optuna")
    (h : planSweep py args = .ok plan) : plan.strategyUsed ≠ "optuna" := by
  rw [(eq_of_planSweep h).2]
  unfold resolveSearchStrategy
  split
  · exact hstaged
  · split <;> decide

/-- The configurations of a ranking are those of the grid. -/
theorem config_rankTraining (hst : SearchSound configs st) :
    ((rankTraining py runner plan st).map Candidate.config).Perm configs := by
  have hmark : Candidate.config ∘ markTrainingSelection py plan.screening = Candidate.config := rfl
  have hperm : ((rankTraining py runner plan st).map Candidate.config).Perm
      (((evaluateSurvivors runner plan st).map (markTrainingSelection py plan.screening)).map
        Candidate.config) := rankBy_perm.map Candidate.config
  rw [List.map_map, hmark, config_evaluateSurvivors, hst.configs] at hperm
  exact hperm

theorem mem_results_of_best {args : SweepArgs} {ranked : List Candidate} {best : Candidate}
    (h : (sweepReport runner args plan st ranked).bestResult = some best) :
    best ∈ (sweepReport runner args plan st ranked).results := by
  obtain ⟨c, hc, rfl⟩ := Option.map_eq_some_iff.mp h
  rw [List.find?_eq_getElem?_findIdx] at hc
  apply List.mem_of_getElem?
  show (ranked.modify _ _)[ranked.findIdx Candidate.isSelectable]? = _
  rw [List.getElem?_modify_eq, hc]
  rfl

/-- A sweep that is not Optuna's reports on its training ranking. -/
theorem runParameterSweep_eq_ok {optuna : Runner → SweepPlan → Except String SweepReport}
    {args : SweepArgs} {report : SweepReport} (hplan : planSweep py args = .ok plan)
    (hstaged : plan.strategyUsed ≠ "optuna")
    (h : runParameterSweep py optuna runner args = .ok report) :
    ∃ st, screenCandidates py runner args plan = .ok st ∧
      report = sweepReport runner args plan st (rankTraining py runner plan st) := by
  unfold runParameterSweep at h
  rw [hplan] at h
  change (if _ then _ else _ : Except String SweepReport) = _ at h
  rw [if_neg hstaged] at h
  cases hscreen : screenCandidates py runner args plan with
  | error e =>
    rw [hscreen] at h
    exact absurd h (by simp [bind, Except.bind])
  | ok st =>
    rw [hscreen] at h
    exact ⟨st, rfl, (Except.ok.inj h).symm⟩

end Selection

/-- Arithmetic that does not round. -/
def exactFloats : PyFloats where
  ofInt n := some n
  ofStr _ := none
  mul n x := n * x
  div n m := n / m
  str _ := ""

/-- Two candidates under successive halving; days 0 to 14 are for training, 20 to 29 held out. -/
def crossoverSweep : SweepArgs where
  baseConfig := []
  parameterGrid := [("fast", [.int 5, .int 10])]
  startDate := 0
  endDate := 29
  searchStrategy := "successive_halving"
  minTrades := some 1
  holdoutDays := some 10

/-- The Sharpe ratio is the `fast` of the configuration in training, and `tail` beyond. -/
def crossoverRunner (tail : ℤ) : Runner := fun config _ endDate =>
  .ok
    [("num_trades", .int 30),
      ("sharpe_ratio", if endDate ≤ 14 then (config.lookup "fast").getD .none else .int tail)]

end Msai.Research
