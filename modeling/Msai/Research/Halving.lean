import Mathlib.Data.List.Induction
import Msai.Lib.Binary64
import Msai.Research.Selection

namespace Msai.Research

open Msai.Lib

/-!
# Successive halving

The screening of a sweep runs every candidate on a prefix of the training range, keeps the best, and
runs those on a longer prefix, up to the whole range.

* `PyFloats.ieee`, `PyFraction` — the floats as they round, and a fraction as it comes in;
* `stageRanges_sorted` — the ranges of the stages;
* `trail`, `LastRun` — the runs of a candidate, one in each of its stages, and the last of them;
* `HasOutcome` — how a candidate ends, by its last run;
* `HalvingInv` — the invariant of the loop, with its step and its run;
* `halving_loses_no_candidate` — where the candidates of a grid end.
-/

/-! ### Floats -/

/-- The same, with the products and quotients of `float`. -/
def PyFloats.ieee (py : PyFloats) : PyFloats :=
  { py with
    mul := Binary64.mulInt
    div := fun n m => Binary64.round (n / m) }

/-- An entry of `stage_fractions`. -/
inductive PyFraction
  | number (x : ℚ)
  | nan
  | inf
  | negInf
deriving DecidableEq, Repr

/-- `min(1.0, max(0.05, float(v)))`; `max` returns its first argument unless the second is
    greater, which NaN is not. -/
def PyFraction.clamp : PyFraction → ℚ
  | .number x => min 1 (max (Binary64.round (5 / 100)) x)
  | .nan => Binary64.round (5 / 100)
  | .inf => 1
  | .negInf => Binary64.round (5 / 100)

/-! ### The stages -/

section Stages

variable {py : PyFloats} {startDate endDate : ℤ}

/-- `ranges[0]` of the stages. -/
def stageRanges (py : PyFloats) (startDate endDate : ℤ) (stageFractions : Option (List ℚ)) :
    List (ℤ × ℤ) :=
  (buildSuccessiveHalvingStages py startDate endDate stageFractions).map fun stage =>
    (startDate, stage.endDate)

/-- `sorted({min(1.0, max(0.05, float(v))) for v in fractions})`. -/
def cleanedFractions (fractions : List ℚ) : List ℚ :=
  ((fractions.map fun v => min 1 (max (Binary64.round (5 / 100)) v)).dedup).insertionSort (· ≤ ·)

theorem normalizeStageFractions_eq (stageFractions : Option (List ℚ)) :
    ∃ fractions, normalizeStageFractions stageFractions
      = match (cleanedFractions fractions).getLast? with
        | some last =>
          if last < 1 then cleanedFractions fractions ++ [1] else cleanedFractions fractions
        | none => [1] := by
  cases stageFractions with
  | none => exact ⟨_, rfl⟩
  | some fractions =>
    cases fractions with
    | nil => exact ⟨_, rfl⟩
    | cons f fractions => exact ⟨_, rfl⟩

/-- Fractions come in order. -/
theorem normalizeStageFractions_sorted (stageFractions : Option (List ℚ)) :
    (normalizeStageFractions stageFractions).Pairwise (· ≤ ·) := by
  obtain ⟨fractions, heq⟩ := normalizeStageFractions_eq stageFractions
  have hsorted : (cleanedFractions fractions).Pairwise (· ≤ ·) := List.pairwise_insertionSort _ _
  have hle : ∀ x ∈ cleanedFractions fractions, x ≤ 1 := by
    intro x hx
    obtain ⟨v, -, rfl⟩ := List.mem_map.mp
      (List.mem_dedup.mp ((List.perm_insertionSort _ _).mem_iff.mp hx))
    exact min_le_left _ _
  rw [heq]
  split
  · split
    · exact List.pairwise_append.mpr ⟨hsorted, List.pairwise_singleton _ _, fun x hx y hy =>
        List.mem_singleton.mp hy ▸ hle x hx⟩
    · exact hsorted
  · exact List.pairwise_singleton _ _

/-- The end date of the stage of a fraction. -/
def stageEnd (py : PyFloats) (startDate endDate : ℤ) (fraction : ℚ) : ℤ :=
  min endDate (startDate + (max 1 ⌈py.mul (totalDays startDate endDate) fraction⌉ - 1))

/-- A larger fraction does not end earlier. -/
theorem stageEnd_mono {x y : ℚ} (hle : x ≤ y) :
    stageEnd py.ieee startDate endDate x ≤ stageEnd py.ieee startDate endDate y := by
  have htotal : 0 ≤ totalDays startDate endDate := by
    unfold totalDays
    omega
  have hceil : ⌈py.ieee.mul (totalDays startDate endDate) x⌉
      ≤ ⌈py.ieee.mul (totalDays startDate endDate) y⌉ :=
    Int.ceil_mono (Binary64.mulInt_mono htotal hle)
  unfold stageEnd
  omega

theorem addHalvingStage_eq (stages : List HalvingStage) (fraction : ℚ) :
    addHalvingStage py startDate endDate stages fraction
      = if stageEnd py startDate endDate fraction ∈ stages.map HalvingStage.endDate then stages
        else stages ++ [⟨fraction, stageEnd py startDate endDate fraction⟩] := rfl

/-- The stages so far end in order, and none behind the fractions to come. -/
theorem foldl_stages_sorted {fractions : List ℚ} (hfractions : fractions.Pairwise (· ≤ ·))
    {stages : List HalvingStage} (hstages : (stages.map HalvingStage.endDate).Pairwise (· < ·))
    (hle : ∀ d ∈ stages.map HalvingStage.endDate, ∀ f ∈ fractions,
      d ≤ stageEnd py.ieee startDate endDate f) :
    ((fractions.foldl (addHalvingStage py.ieee startDate endDate) stages).map
      HalvingStage.endDate).Pairwise (· < ·) := by
  induction fractions generalizing stages with
  | nil => exact hstages
  | cons f fractions ih =>
    obtain ⟨hf, hfractions⟩ := List.pairwise_cons.mp hfractions
    rw [List.foldl_cons, addHalvingStage_eq]
    split
    · exact ih hfractions hstages fun d hd g hg => hle d hd g (List.mem_cons_of_mem f hg)
    · rename_i hnew
      refine ih hfractions ?_ ?_
      · rw [List.map_append, List.map_singleton]
        refine List.pairwise_append.mpr ⟨hstages, List.pairwise_singleton _ _, fun d hd e he => ?_⟩
        obtain rfl := List.mem_singleton.mp he
        refine lt_of_le_of_ne (hle d hd f List.mem_cons_self) fun h => hnew ?_
        exact Eq.mp (congrArg (· ∈ stages.map HalvingStage.endDate) h) hd
      · intro d hd g hg
        rw [List.map_append, List.map_singleton] at hd
        rcases List.mem_append.mp hd with hd | hd
        · exact hle d hd g (List.mem_cons_of_mem f hg)
        · obtain rfl := List.mem_singleton.mp hd
          exact stageEnd_mono (hf g hg)

/-- The end dates of the stages lie in the range. -/
theorem foldl_stages_within (hdates : startDate ≤ endDate) (fractions : List ℚ)
    {stages : List HalvingStage}
    (hstages : ∀ d ∈ stages.map HalvingStage.endDate, startDate ≤ d ∧ d ≤ endDate) :
    ∀ d ∈ (fractions.foldl (addHalvingStage py startDate endDate) stages).map
      HalvingStage.endDate, startDate ≤ d ∧ d ≤ endDate := by
  induction fractions generalizing stages with
  | nil => exact hstages
  | cons f fractions ih =>
    rw [List.foldl_cons]
    refine ih fun d hd => ?_
    rw [addHalvingStage_eq] at hd
    split at hd
    · exact hstages d hd
    · rw [List.map_append, List.map_singleton] at hd
      rcases List.mem_append.mp hd with hd | hd
      · exact hstages d hd
      · rw [List.mem_singleton.mp hd]
        show startDate ≤ stageEnd py startDate endDate f ∧
          stageEnd py startDate endDate f ≤ endDate
        unfold stageEnd
        omega

/-- In order, the greatest comes last. -/
theorem getLast?_of_greatest {l : List ℤ} {d : ℤ} (hsorted : l.Pairwise (· < ·)) (hd : d ∈ l)
    (hle : ∀ e ∈ l, e ≤ d) : l.getLast? = some d := by
  rcases List.eq_nil_or_concat l with rfl | ⟨init, last, rfl⟩
  · exact absurd hd List.not_mem_nil
  · rw [List.concat_eq_append] at hsorted hd hle ⊢
    rw [List.getLast?_concat]
    rcases List.mem_append.mp hd with hinit | hlast
    · have hlt := (List.pairwise_append.mp hsorted).2.2 d hinit last (List.mem_singleton_self last)
      have hge := hle last (List.mem_append_right init (List.mem_singleton_self last))
      omega
    · rw [List.mem_singleton.mp hlast]

/-- The end dates of the stages. -/
theorem stageEnds_spec (hdates : startDate ≤ endDate) (stageFractions : Option (List ℚ)) :
    let ends := (buildSuccessiveHalvingStages py.ieee startDate endDate stageFractions).map
      HalvingStage.endDate
    ends.Pairwise (· < ·) ∧ (∀ d ∈ ends, startDate ≤ d ∧ d ≤ endDate) ∧
      ends.getLast? = some endDate := by
  have hsorted := @foldl_stages_sorted py startDate endDate _
    (normalizeStageFractions_sorted stageFractions) [] List.Pairwise.nil
    (fun d hd => absurd hd List.not_mem_nil)
  have hwithin := @foldl_stages_within py.ieee startDate endDate hdates
    (normalizeStageFractions stageFractions) [] (fun d hd => absurd hd List.not_mem_nil)
  unfold buildSuccessiveHalvingStages
  dsimp only
  generalize (normalizeStageFractions stageFractions).foldl
    (addHalvingStage py.ieee startDate endDate) [] = stages at hsorted hwithin ⊢
  split
  · rename_i hlast
    rw [List.getLast?_map]
    exact ⟨hsorted, hwithin, hlast⟩
  · -- no stage has the end date yet
    rename_i hlast
    rw [List.map_append, List.map_singleton]
    refine ⟨List.pairwise_append.mpr ⟨hsorted, List.pairwise_singleton _ _, ?_⟩, ?_, ?_⟩
    · intro d hd e he
      obtain rfl := List.mem_singleton.mp he
      refine lt_of_le_of_ne (hwithin d hd).2 fun heq => hlast ?_
      rw [← List.getLast?_map, ← heq]
      refine getLast?_of_greatest hsorted hd fun e he => ?_
      rw [heq]
      exact (hwithin e he).2
    · intro d hd
      rcases List.mem_append.mp hd with hd | hd
      · exact hwithin d hd
      · rw [List.mem_singleton.mp hd]
        exact ⟨hdates, le_rfl⟩
    · exact List.getLast?_concat

/-- **The ranges of the stages**: all from the start date, longer and longer, up to the end
    date. -/
theorem stageRanges_sorted (hdates : startDate ≤ endDate) (stageFractions : Option (List ℚ)) :
    (∀ range ∈ stageRanges py.ieee startDate endDate stageFractions,
        range.1 = startDate ∧ startDate ≤ range.2) ∧
      ((stageRanges py.ieee startDate endDate stageFractions).map Prod.snd).Pairwise (· < ·) ∧
      (stageRanges py.ieee startDate endDate stageFractions).getLast?
        = some (startDate, endDate) := by
  obtain ⟨hsorted, hwithin, hlast⟩ := @stageEnds_spec py startDate endDate hdates stageFractions
  unfold stageRanges
  refine ⟨?_, ?_, ?_⟩
  · intro range hrange
    obtain ⟨stage, hstage, rfl⟩ := List.mem_map.mp hrange
    exact ⟨rfl, (hwithin _ (List.mem_map_of_mem hstage)).1⟩
  · rw [List.map_map]
    exact hsorted
  · rw [List.getLast?_map] at hlast ⊢
    obtain ⟨stage, hstage, hend⟩ := Option.map_eq_some_iff.mp hlast
    rw [hstage, ← hend]
    rfl

end Stages

/-! ### The runs of a candidate -/

section Runs

variable (py : PyFloats) (scr : Screening) (runner : Runner) (startDate : ℤ)
  (stages : List HalvingStage)

/-- The run of a configuration in a stage. -/
def stageRun (stage : HalvingStage) (config : PyDict) : RunResult :=
  runOne runner config startDate stage.endDate

/-- The configuration passes the stage. -/
def passesStage (stage : HalvingStage) (config : PyDict) : Bool :=
  stagePasses py scr stage.fraction (stageRun runner startDate stage config)

/-- The objective of a run, if it can be used. -/
def usable (r : RunResult) : Option ℚ := extractUsableObjectiveValue py r.metrics scr.objective

/-- What the first `m` stages record of a configuration: one run for each. -/
def trail (m : ℕ) (config : PyDict) : List StageResult :=
  ((stages.take m).zipIdx 1).map fun p =>
    let r := stageRun runner startDate p.1 config
    ⟨p.2, stages.length, p.1.fraction, r.error, r.metrics⟩

/-- The last run of a candidate is that of `stage`, behind `m` stages that it has passed. -/
structure LastRun (m : ℕ) (stage : HalvingStage) (c : Candidate) : Prop where
  taken : stages[m]? = some stage
  trail : c.stageResults = trail runner startDate stages (m + 1) c.config
  error : c.error = (stageRun runner startDate stage c.config).error
  metrics : c.metrics = (stageRun runner startDate stage c.config).metrics
  passed : ∀ s ∈ stages.take m, passesStage py scr runner startDate s c.config = true

inductive Outcome
  | pruned
  | errored
  | noObjective
  | fullRangeSurvivor
deriving DecidableEq, Repr

/-- How a candidate has ended whose last run is that of `stage`, behind `m` stages: the filters or
    the halving have pruned it, the run has failed, its objective cannot be used, or it has passed
    the last stage of all. -/
def HasOutcome (m : ℕ) (stage : HalvingStage) (c : Candidate) : Outcome → Prop
  | .pruned => c.pruned = true ∧ (stageRun runner startDate stage c.config).error = none ∧
      (usable py scr (stageRun runner startDate stage c.config)).isSome = true ∧
      (passesStage py scr runner startDate stage c.config = true → m + 1 < stages.length)
  | .errored => c.pruned = false ∧ (stageRun runner startDate stage c.config).error.isSome = true
  | .noObjective => c.pruned = false ∧ (stageRun runner startDate stage c.config).error = none ∧
      usable py scr (stageRun runner startDate stage c.config) = none
  | .fullRangeSurvivor => c.pruned = false ∧
      passesStage py scr runner startDate stage c.config = true ∧ m + 1 = stages.length

/-- What a screening leaves. -/
structure Screened (configs : List PyDict) (st : HalvingState) : Prop where
  /-- No candidate is lost, none is new. -/
  configs : st.candidates.map Candidate.config = configs
  /-- A candidate is run in the first stages, once in each and in one at least; it has passed all of
      them but the last, and has one outcome. -/
  candidate : ∀ k c, st.candidates[k]? = some c → ∃ m stage,
    LastRun py scr runner startDate stages m stage c ∧
    ∃! o, HasOutcome py scr runner startDate stages m stage c o ∧
      (k ∈ st.survivors ↔ o = .fullRangeSurvivor)
  survivors : ∀ k ∈ st.survivors, k < st.candidates.length
  /-- A stage has evaluated the candidates that have a result of it. -/
  evaluated : ∀ i, ((st.summaries.map Prod.fst)[i]?).getD 0
    = st.candidates.countP fun c => i < c.stageResults.length
  /-- No stage evaluates more candidates than the one before. -/
  counts : (st.summaries.map Prod.fst).Pairwise (· ≥ ·)

end Runs

section Candidates

variable {py : PyFloats} {scr : Screening} {runner : Runner} {startDate : ℤ}
  {stages : List HalvingStage} {n m : ℕ} {stage : HalvingStage} {config : PyDict}
  {c : Candidate} {st st' : HalvingState}

/-- The result of the next stage. -/
theorem trail_succ (hstage : stages[n]? = some stage) :
    trail runner startDate stages (n + 1) config = trail runner startDate stages n config ++
      [⟨n + 1, stages.length, stage.fraction, (stageRun runner startDate stage config).error,
        (stageRun runner startDate stage config).metrics⟩] := by
  obtain ⟨hlt, rfl⟩ := List.getElem?_eq_some_iff.mp hstage
  unfold trail
  rw [List.take_succ_eq_append_getElem hlt, List.zipIdx_append, List.map_append,
    List.length_take_of_le hlt.le, add_comm 1 n]
  rfl

theorem length_trail (h : m ≤ stages.length) :
    (trail runner startDate stages m config).length = m := by
  simp [trail, h]

theorem LastRun.length (h : LastRun py scr runner startDate stages m stage c) :
    c.stageResults.length = m + 1 := by
  have hlt := (List.getElem?_eq_some_iff.mp h.taken).1
  rw [h.trail, length_trail hlt]

/-- Two outcomes of one candidate are the same. -/
theorem HasOutcome.unique {o o' : Outcome}
    (h : HasOutcome py scr runner startDate stages m stage c o)
    (h' : HasOutcome py scr runner startDate stages m stage c o') : o = o' := by
  -- what passes has no error and a usable objective
  have hpass : passesStage py scr runner startDate stage c.config = true →
      (stageRun runner startDate stage c.config).error = none ∧
      (usable py scr (stageRun runner startDate stage c.config)).isSome = true := by
    intro hpasses
    obtain ⟨husable, heligible⟩ := Bool.and_eq_true_iff.mp hpasses
    exact ⟨error_of_isStageEligible heligible, husable⟩
  cases o <;> cases o' <;> simp only [HasOutcome] at h h' <;> first | rfl | (exfalso; grind)

/-- A candidate that is in the search behind `n` stages has passed them all. -/
def Alive (py : PyFloats) (scr : Screening) (runner : Runner) (startDate : ℤ)
    (stages : List HalvingStage) : ℕ → Candidate → Prop
  | 0, c => c.pruned = false ∧ c.stageResults = []
  | m + 1, c => c.pruned = false ∧ ∃ stage, LastRun py scr runner startDate stages m stage c ∧
      passesStage py scr runner startDate stage c.config = true

/-- A candidate that has left the search in one of `n` stages. -/
def Dead (py : PyFloats) (scr : Screening) (runner : Runner) (startDate : ℤ)
    (stages : List HalvingStage) (n : ℕ) (c : Candidate) : Prop :=
  ∃ m < n, ∃ stage, LastRun py scr runner startDate stages m stage c ∧
    ∃ o, HasOutcome py scr runner startDate stages m stage c o ∧ o ≠ .fullRangeSurvivor

theorem Dead.mono (h : Dead py scr runner startDate stages n c) :
    Dead py scr runner startDate stages (n + 1) c := by
  obtain ⟨m, hm, hrest⟩ := h
  exact ⟨m, by omega, hrest⟩

theorem Dead.length_le (h : Dead py scr runner startDate stages n c) :
    c.stageResults.length ≤ n := by
  obtain ⟨m, hm, stage, hlast, -⟩ := h
  rw [hlast.length]
  exact hm

theorem Alive.pruned (h : Alive py scr runner startDate stages n c) : c.pruned = false := by
  cases n with
  | zero => exact h.1
  | succ n => exact h.1

theorem Alive.trail (h : Alive py scr runner startDate stages n c) :
    c.stageResults = trail runner startDate stages n c.config := by
  cases n with
  | zero => exact h.2
  | succ n =>
    obtain ⟨_, stage, hlast, -⟩ := h
    exact hlast.trail

theorem Alive.length (h : Alive py scr runner startDate stages n c) :
    c.stageResults.length = n := by
  cases n with
  | zero => rw [h.2, List.length_nil]
  | succ n =>
    obtain ⟨_, stage, hlast, -⟩ := h
    exact hlast.length

theorem Alive.passed (h : Alive py scr runner startDate stages n c) :
    ∀ s ∈ stages.take n, passesStage py scr runner startDate s c.config = true := by
  cases n with
  | zero => simp
  | succ n =>
    obtain ⟨_, stage, hlast, hpasses⟩ := h
    obtain ⟨hlt, heq⟩ := List.getElem?_eq_some_iff.mp hlast.taken
    intro s hs
    rw [List.take_succ_eq_append_getElem hlt, heq] at hs
    rcases List.mem_append.mp hs with hs | hs
    · exact hlast.passed s hs
    · rwa [List.mem_singleton.mp hs]

/-! ### A stage in a candidate -/

section Record

variable {stageIndex stageCount : ℕ} {fraction : ℚ} {r : RunResult}

theorem stageResults_recordStage :
    (c.recordStage py scr stageIndex stageCount fraction r).stageResults
      = c.stageResults ++ [⟨stageIndex, stageCount, fraction, r.error, r.metrics⟩] := by
  unfold Candidate.recordStage
  dsimp only
  split
  · rfl
  · rfl

theorem metrics_recordStage :
    (c.recordStage py scr stageIndex stageCount fraction r).metrics = r.metrics := by
  unfold Candidate.recordStage
  dsimp only
  split
  · rfl
  · rfl

theorem error_recordStage :
    (c.recordStage py scr stageIndex stageCount fraction r).error = r.error := by
  unfold Candidate.recordStage
  dsimp only
  split
  · rfl
  · rfl

end Record

/-- A candidate with the result of the stage that follows those it has passed. -/
def recorded (py : PyFloats) (scr : Screening) (runner : Runner) (startDate : ℤ)
    (stages : List HalvingStage) (n : ℕ) (stage : HalvingStage) (c : Candidate) : Candidate :=
  c.recordStage py scr (n + 1) stages.length stage.fraction
    (stageRun runner startDate stage c.config)

@[simp] theorem config_recorded :
    (recorded py scr runner startDate stages n stage c).config = c.config := config_recordStage _ _

/-- The run of the stage is its last one. -/
theorem Alive.lastRun (h : Alive py scr runner startDate stages n c)
    (hstage : stages[n]? = some stage) : LastRun py scr runner startDate stages n stage
      (recorded py scr runner startDate stages n stage c) where
  taken := hstage
  trail := by
    rw [config_recorded, trail_succ hstage, ← h.trail]
    exact stageResults_recordStage
  error := by
    rw [config_recorded]
    exact error_recordStage
  metrics := by
    rw [config_recorded]
    exact metrics_recordStage
  passed := by
    rw [config_recorded]
    exact h.passed

/-- A result that passes its stage keeps its candidate. -/
theorem Alive.pass (h : Alive py scr runner startDate stages n c)
    (hstage : stages[n]? = some stage)
    (hpasses : passesStage py scr runner startDate stage c.config = true) :
    Alive py scr runner startDate stages (n + 1)
      (recorded py scr runner startDate stages n stage c) := by
  refine ⟨(pruned_recordStage hpasses).trans h.pruned, stage, h.lastRun hstage, ?_⟩
  rwa [config_recorded]

/-- And one that does not pass says how it leaves. -/
theorem Alive.fail (h : Alive py scr runner startDate stages n c)
    (hstage : stages[n]? = some stage)
    (hfails : passesStage py scr runner startDate stage c.config = false) :
    Dead py scr runner startDate stages (n + 1)
      (recorded py scr runner startDate stages n stage c) := by
  refine ⟨n, Nat.lt_succ_self n, stage, h.lastRun hstage, ?_⟩
  cases herror : (stageRun runner startDate stage c.config).error with
  | some e =>
    refine ⟨.errored, ⟨?_, ?_⟩, by simp⟩
    · unfold recorded Candidate.recordStage
      simp [herror, h.pruned]
    · rw [config_recorded, herror]
      rfl
  | none =>
    cases husable : usable py scr (stageRun runner startDate stage c.config) with
    | none =>
      have hobjective : extractUsableObjectiveValue py
          (stageRun runner startDate stage c.config).metrics scr.objective = none := husable
      refine ⟨.noObjective, ⟨?_, ?_, ?_⟩, by simp⟩
      · unfold recorded Candidate.recordStage
        simp [hobjective, h.pruned]
      · rw [config_recorded, herror]
      · rw [config_recorded, husable]
    | some v =>
      have hobjective : extractUsableObjectiveValue py
          (stageRun runner startDate stage c.config).metrics scr.objective = some v := husable
      -- only the filters are left to fail
      have hineligible : isStageEligible py scr stage.fraction
          (stageRun runner startDate stage c.config).error
          (stageRun runner startDate stage c.config).metrics = false := by
        unfold passesStage stagePasses at hfails
        simpa [hobjective] using hfails
      refine ⟨.pruned, ⟨?_, ?_, ?_, fun hpasses => ?_⟩, by simp⟩
      · unfold recorded Candidate.recordStage
        rw [hineligible, hobjective, herror]
        rfl
      · rw [config_recorded, herror]
      · rw [config_recorded, husable]
        rfl
      · rw [config_recorded, hfails] at hpasses
        cases hpasses

/-- A candidate that passed a stage before the last one but is not among the best. -/
theorem Alive.prune (h : Alive py scr runner startDate stages (n + 1) c) {reason : String}
    (hmore : n + 1 < stages.length) :
    Dead py scr runner startDate stages (n + 1) (c.markPruned (n + 1) reason) := by
  obtain ⟨_, stage, hlast, hpasses⟩ := h
  obtain ⟨husable, heligible⟩ := Bool.and_eq_true_iff.mp hpasses
  exact ⟨n, Nat.lt_succ_self n, stage,
    ⟨hlast.taken, hlast.trail, hlast.error, hlast.metrics, hlast.passed⟩, .pruned,
    ⟨rfl, error_of_isStageEligible heligible, husable, fun _ => hmore⟩, by simp⟩

/-! ### Counting the runs -/

/-- As many elements have a property as there are indexes of such elements. -/
theorem countP_eq_length {α : Type} {p : α → Bool} {indexes : List ℕ} (hnodup : indexes.Nodup) :
    ∀ {l : List α}, (∀ k, k ∈ indexes ↔ ∃ a, l[k]? = some a ∧ p a = true) →
      l.countP p = indexes.length := by
  intro l h
  have hperm : indexes.Perm ((List.range l.length).filter fun k => (l[k]?).any p) := by
    refine (List.perm_ext_iff_of_nodup hnodup (List.nodup_range.filter _)).mpr fun k => ?_
    rw [h k, List.mem_filter, List.mem_range, Option.any_eq_true]
    constructor
    · rintro ⟨a, ha, hp⟩
      exact ⟨(List.getElem?_eq_some_iff.mp ha).1, a, ha, hp⟩
    · rintro ⟨-, a, ha, hp⟩
      exact ⟨a, ha, hp⟩
  rw [hperm.length_eq, ← List.countP_eq_length_filter]
  clear hperm h
  induction l using List.reverseRecOn with
  | nil => rfl
  | append_singleton l a ih =>
    have hfront : (List.range l.length).countP (fun k => ((l ++ [a])[k]?).any p)
        = (List.range l.length).countP fun k => (l[k]?).any p := by
      refine List.countP_congr fun k hk => ?_
      rw [List.getElem?_append_left (List.mem_range.mp hk)]
    rw [List.countP_append, List.length_append, List.length_singleton, List.range_succ,
      List.countP_append, hfront, ih]
    simp [List.countP_singleton]

/-- Elements at the same places with the same property. -/
theorem countP_eq_of_getElem? {α : Type} {p : α → Bool} {l l' : List α}
    (h : ∀ k : ℕ, (l'[k]?).map p = (l[k]?).map p) : l'.countP p = l.countP p := by
  have hmap : l'.map p = l.map p := by
    refine List.ext_getElem? fun k => ?_
    rw [List.getElem?_map, List.getElem?_map, h k]
  have hcount : ∀ xs : List α, xs.countP p = (xs.map p).countP id := fun xs => by
    rw [List.countP_map]
    rfl
  rw [hcount, hcount, hmap]

/-! ### The loop -/

/-- **The invariant of the loop**, behind `n` stages. -/
structure HalvingInv (py : PyFloats) (scr : Screening) (runner : Runner) (startDate : ℤ)
    (stages : List HalvingStage) (n : ℕ) (st : HalvingState) : Prop where
  nodup : st.survivors.Nodup
  bound : ∀ k ∈ st.survivors, k < st.candidates.length
  alive : ∀ k c, st.candidates[k]? = some c → k ∈ st.survivors →
    Alive py scr runner startDate stages n c
  dead : ∀ k c, st.candidates[k]? = some c → k ∉ st.survivors →
    Dead py scr runner startDate stages n c
  /-- Configurations are JSON already. -/
  jsonable : ∀ c ∈ st.candidates, dictToJsonable c.config = c.config
  /-- As long as there are candidates, every stage has a summary. -/
  rounds : st.survivors ≠ [] → st.summaries.length = n
  evaluated : ∀ i, ((st.summaries.map Prod.fst)[i]?).getD 0
    = st.candidates.countP fun c => i < c.stageResults.length

/-- All survivors are run. -/
theorem length_runCandidates {candidates : List Candidate} {indexes : List ℕ} {endDate : ℤ}
    (h : ∀ k ∈ indexes, k < candidates.length) :
    (runCandidates runner candidates indexes startDate endDate).length = indexes.length := by
  unfold runCandidates
  induction indexes with
  | nil => rfl
  | cons k indexes ih =>
    rw [List.filterMap_cons, List.getElem?_eq_getElem (h k List.mem_cons_self)]
    show (_ :: _).length = _
    rw [List.length_cons, List.length_cons, ih fun j hj => h j (List.mem_cons_of_mem k hj)]

/-- What has been evaluated in a stage so far. -/
theorem HalvingInv.length_le (h : HalvingInv py scr runner startDate stages n st) {k : ℕ}
    (hc : st.candidates[k]? = some c) : c.stageResults.length ≤ n := by
  by_cases hk : k ∈ st.survivors
  · exact (h.alive k c hc hk).length.le
  · exact (h.dead k c hc hk).length_le

section Results

variable {candidates : List Candidate} {survivors : List ℕ} {k : ℕ}

/-- The survivors have results. -/
theorem survivor_of_mem_rankStage (h : k ∈ rankStage py scr stage.fraction
    (runCandidates runner candidates survivors startDate stage.endDate)) : k ∈ survivors := by
  obtain ⟨r, hr, -⟩ := mem_rankStage.mp h
  exact (mem_runCandidates.mp hr).1

/-- And those whose results pass go on. -/
theorem mem_rankStage_survivor (hc : candidates[k]? = some c) (hk : k ∈ survivors) :
    k ∈ rankStage py scr stage.fraction
        (runCandidates runner candidates survivors startDate stage.endDate) ↔
      passesStage py scr runner startDate stage c.config = true := by
  rw [mem_rankStage]
  constructor
  · rintro ⟨r, hr, hpasses⟩
    obtain ⟨-, c', hc', rfl⟩ := mem_runCandidates.mp hr
    obtain rfl := Option.some.inj (hc.symm.trans hc')
    exact hpasses
  · exact fun hpasses => ⟨_, mem_runCandidates.mpr ⟨hk, c, hc, rfl⟩, hpasses⟩

/-- The candidates of a stage: the survivors have its result. -/
def recordedAll (py : PyFloats) (scr : Screening) (runner : Runner) (startDate : ℤ)
    (stages : List HalvingStage) (n : ℕ) (stage : HalvingStage) (candidates : List Candidate)
    (survivors : List ℕ) : List Candidate :=
  modifyAll (Candidate.recordStage py scr (n + 1) stages.length stage.fraction)
    (runCandidates runner candidates survivors startDate stage.endDate) candidates

theorem getElem?_recordedAll (hnodup : survivors.Nodup) :
    (recordedAll py scr runner startDate stages n stage candidates survivors)[k]?
      = (candidates[k]?).map fun c =>
          if k ∈ survivors then recorded py scr runner startDate stages n stage c else c := by
  by_cases hk : k ∈ survivors
  · simp only [if_pos hk]
    cases hc : candidates[k]? with
    | none =>
      rw [List.getElem?_eq_none_iff] at hc
      rw [Option.map_none, List.getElem?_eq_none_iff]
      exact length_modifyAll.trans_le hc
    | some c =>
      have hrun : (k, runOne runner c.config startDate stage.endDate)
          ∈ runCandidates runner candidates survivors startDate stage.endDate :=
        mem_runCandidates.mpr ⟨hk, c, hc, rfl⟩
      refine (getElem?_modifyAll_of_mem (runCandidates_fst_nodup hnodup) hrun).trans ?_
      rw [hc]
      rfl
  · simp only [if_neg hk, Option.map_id']
    refine getElem?_modifyAll_of_not_mem fun hmem => ?_
    obtain ⟨⟨_, r⟩, hr, rfl⟩ := List.mem_map.mp hmem
    exact hk (mem_runCandidates.mp hr).1

end Results

/-- The runs of a stage are counted once. -/
theorem HalvingInv.count (h : HalvingInv py scr runner startDate stages n st)
    (hstage : stages[n]? = some stage) (i : ℕ) :
    ((recordedAll py scr runner startDate stages n stage st.candidates st.survivors).countP
        fun c => i < c.stageResults.length)
      = if i = n then st.survivors.length
        else st.candidates.countP fun c => i < c.stageResults.length := by
  have hlength : ∀ {k c}, st.candidates[k]? = some c → k ∈ st.survivors →
      (recorded py scr runner startDate stages n stage c).stageResults.length = n + 1 :=
    fun hc hk => ((h.alive _ _ hc hk).lastRun hstage).length
  split
  · rename_i hi
    -- behind the stage its results are those of the survivors
    subst hi
    refine countP_eq_length h.nodup fun k => ?_
    rw [getElem?_recordedAll h.nodup]
    constructor
    · intro hk
      have hc := List.getElem?_eq_getElem (h.bound k hk)
      refine ⟨_, congrArg _ hc, decide_eq_true ?_⟩
      dsimp only
      rw [if_pos hk, hlength hc hk]
      exact Nat.lt_succ_self i
    · rintro ⟨c', hc', hlt⟩
      obtain ⟨c, hc, rfl⟩ := Option.map_eq_some_iff.mp hc'
      by_contra hk
      rw [if_neg hk] at hlt
      exact absurd (of_decide_eq_true hlt) (not_lt.mpr (h.length_le hc))
  · rename_i hi
    refine countP_eq_of_getElem? fun k => ?_
    rw [getElem?_recordedAll h.nodup, Option.map_map]
    refine Option.map_congr fun c hc => ?_
    show decide (i < (if k ∈ st.survivors then _ else c : Candidate).stageResults.length) = _
    split
    · rename_i hk
      rw [hlength hc hk, (h.alive k c hc hk).length, decide_eq_decide]
      omega
    · rfl

/-- The candidates with the results of a stage, and those that pass it still in the search. -/
theorem HalvingInv.record (h : HalvingInv py scr runner startDate stages n st)
    (hstage : stages[n]? = some stage) (hsome : st.survivors ≠ []) {eligible kept : ℕ} :
    HalvingInv py scr runner startDate stages (n + 1)
      { candidates := recordedAll py scr runner startDate stages n stage st.candidates st.survivors
        summaries := st.summaries ++ [((runCandidates runner st.candidates st.survivors startDate
          stage.endDate).length, eligible, kept)]
        survivors := rankStage py scr stage.fraction
          (runCandidates runner st.candidates st.survivors startDate stage.endDate) } where
  nodup := nodup_rankStage (runCandidates_fst_nodup h.nodup)
  bound := by
    intro k hk
    exact (h.bound k (survivor_of_mem_rankStage hk)).trans_eq length_modifyAll.symm
  alive := by
    intro k c' hc' hk
    have hold := survivor_of_mem_rankStage hk
    dsimp only at hc'
    rw [getElem?_recordedAll h.nodup] at hc'
    obtain ⟨c, hc, rfl⟩ := Option.map_eq_some_iff.mp hc'
    rw [if_pos hold]
    exact (h.alive k c hc hold).pass hstage ((mem_rankStage_survivor hc hold).mp hk)
  dead := by
    intro k c' hc' hk
    dsimp only at hc'
    rw [getElem?_recordedAll h.nodup] at hc'
    obtain ⟨c, hc, rfl⟩ := Option.map_eq_some_iff.mp hc'
    split
    · rename_i hold
      exact (h.alive k c hc hold).fail hstage
        (Bool.eq_false_iff.mpr fun hpasses => hk ((mem_rankStage_survivor hc hold).mpr hpasses))
    · rename_i hold
      exact (h.dead k c hc hold).mono
  jsonable := by
    intro c' hmem
    obtain ⟨k, hc'⟩ := List.getElem?_of_mem hmem
    rw [getElem?_recordedAll h.nodup] at hc'
    obtain ⟨c, hc, rfl⟩ := Option.map_eq_some_iff.mp hc'
    have hold := h.jsonable c (List.mem_of_getElem? hc)
    split
    · rw [config_recorded]
      exact hold
    · exact hold
  rounds := by
    intro _
    rw [List.length_append, h.rounds hsome]
    rfl
  evaluated := by
    intro i
    have hrounds : (st.summaries.map Prod.fst).length = n := by
      rw [List.length_map, h.rounds hsome]
    have hold := h.evaluated i
    dsimp only
    rw [h.count hstage, ← hold, List.map_append, List.map_singleton,
      length_runCandidates h.bound]
    rcases lt_trichotomy i n with hlt | rfl | hgt
    · rw [if_neg hlt.ne, List.getElem?_append_left (hrounds ▸ hlt)]
    · rw [if_pos rfl, List.getElem?_append_right hrounds.le, hrounds, Nat.sub_self]
      rfl
    · rw [if_neg hgt.ne', List.getElem?_eq_none (by rw [List.length_append, hrounds]; exact hgt),
        List.getElem?_eq_none (hrounds.trans_le hgt.le)]

/-- The first `keep` of the survivors stay. -/
theorem HalvingInv.prune (h : HalvingInv py scr runner startDate stages (n + 1) st)
    (hmore : n + 1 < stages.length) (hsome : st.summaries.length = n + 1) {keep : ℕ}
    {reason : String} {summaries : List (ℕ × ℕ × ℕ)}
    (hsame : summaries.map Prod.fst = st.summaries.map Prod.fst) :
    HalvingInv py scr runner startDate stages (n + 1)
      { candidates := modifyAll (fun (_ : Unit) c => c.markPruned (n + 1) reason)
          ((st.survivors.drop keep).map fun k => (k, ())) st.candidates
        summaries := summaries
        survivors := st.survivors.take keep } := by
  have hpruned : ∀ k, (modifyAll (fun (_ : Unit) c => Candidate.markPruned c (n + 1) reason)
      ((st.survivors.drop keep).map fun k => (k, ())) st.candidates)[k]?
        = if k ∈ st.survivors.drop keep then
            (st.candidates[k]?).map fun c => c.markPruned (n + 1) reason
          else st.candidates[k]? :=
    fun k => getElem?_modifyAll_indexes (h.nodup.sublist (List.drop_sublist keep _))
  have hapart : ∀ k ∈ st.survivors.take keep, k ∉ st.survivors.drop keep := fun k hk hdrop =>
    List.disjoint_take_drop h.nodup (le_refl keep) hk hdrop
  exact
    { nodup := h.nodup.sublist (List.take_sublist _ _)
      bound := by
        intro k hk
        show k < (modifyAll (fun (_ : Unit) c => Candidate.markPruned c (n + 1) reason)
          ((st.survivors.drop keep).map fun k => (k, ())) st.candidates).length
        rw [length_modifyAll]
        exact h.bound k (List.mem_of_mem_take hk)
      alive := by
        intro k c hc hk
        have hsame := (hpruned k).trans (if_neg (hapart k hk))
        exact h.alive k c (hsame.symm.trans hc) (List.mem_of_mem_take hk)
      dead := by
        intro k c' hc' hk
        by_cases hdrop : k ∈ st.survivors.drop keep
        · have hchanged := (hpruned k).trans (if_pos hdrop)
          obtain ⟨c, hc, rfl⟩ := Option.map_eq_some_iff.mp (hchanged.symm.trans hc')
          exact (h.alive k c hc (List.mem_of_mem_drop hdrop)).prune hmore
        · have hsame := (hpruned k).trans (if_neg hdrop)
          refine h.dead k c' (hsame.symm.trans hc') fun hmem => ?_
          rw [← List.take_append_drop keep st.survivors] at hmem
          exact (List.mem_append.mp hmem).elim hk hdrop
      jsonable := by
        have hkeeps : ∀ (_ : Unit) (c : Candidate), dictToJsonable c.config = c.config →
            dictToJsonable (c.markPruned (n + 1) reason).config
              = (c.markPruned (n + 1) reason).config := fun _ _ hkeep => hkeep
        exact forall_mem_modifyAll hkeeps h.jsonable
      rounds := by
        intro _
        rw [← hsome, ← List.length_map (f := Prod.fst), hsame, List.length_map]
      evaluated := by
        intro i
        dsimp only
        rw [hsame, h.evaluated i]
        refine (countP_eq_of_getElem? fun k => ?_).symm
        rw [hpruned k]
        split
        · rw [Option.map_map]
          rfl
        · rfl }

/-- **One stage.** -/
theorem HalvingInv.step (h : HalvingInv py scr runner startDate stages n st)
    (hstage : stages[n]? = some stage) {reductionFactor : ℤ}
    (hstep : halvingStage py scr runner startDate reductionFactor stages.length st (stage, n + 1)
      = .ok st') : HalvingInv py scr runner startDate stages (n + 1) st' := by
  have hlt := (List.getElem?_eq_some_iff.mp hstage).1
  unfold halvingStage at hstep
  dsimp only at hstep
  split at hstep
  · rename_i hempty
    obtain rfl := Except.ok.inj hstep
    have hnil := List.isEmpty_iff.mp hempty
    have hnone : ∀ k, k ∉ st.survivors := by
      rw [hnil]
      exact fun k => List.not_mem_nil
    exact ⟨h.nodup, h.bound, fun k c _ hk => absurd hk (hnone k), fun k c hc hk =>
      (h.dead k c hc hk).mono, h.jsonable, fun hsome => absurd hnil hsome, h.evaluated⟩
  · rename_i hsome
    rw [List.isEmpty_iff] at hsome
    split at hstep
    · obtain rfl := Except.ok.inj hstep
      exact h.record hstage hsome
    · rename_i hlast
      split at hstep
      · exact absurd hstep (by simp)
      · obtain rfl := Except.ok.inj hstep
        have hrecorded := @HalvingInv.record _ _ _ _ _ _ _ _ h hstage hsome 0 0
        refine hrecorded.prune (lt_of_le_of_ne hlt hlast) ?_ (by simp)
        rw [List.length_append, h.rounds hsome]
        rfl

/-- **All stages.** -/
theorem HalvingInv.run {reductionFactor : ℤ} {rest : List HalvingStage}
    (hrest : stages.drop n = rest) (h : HalvingInv py scr runner startDate stages n st)
    (hrun : (rest.zipIdx (n + 1)).foldlM
      (halvingStage py scr runner startDate reductionFactor stages.length) st = .ok st') :
    HalvingInv py scr runner startDate stages (n + rest.length) st' := by
  induction rest generalizing n st with
  | nil =>
    obtain rfl := Except.ok.inj hrun
    exact h
  | cons stage rest ih =>
    have hstage : stages[n]? = some stage := by
      rw [← List.head?_drop, hrest]
      rfl
    have hdrop : stages.drop (n + 1) = rest := by
      rw [← List.tail_drop, hrest]
      rfl
    rw [List.zipIdx_cons, List.foldlM_cons] at hrun
    obtain ⟨next, hstep, hmore⟩ := except_bind_eq_ok hrun
    have hall := ih hdrop (h.step hstage hstep) hmore
    rwa [List.length_cons, ← add_assoc, add_right_comm]

/-- A loop without a division by zero does not fail. -/
theorem halvingStages_ok {reductionFactor : ℤ} (hfactor : reductionFactor ≠ 0) {stageCount : ℕ}
    (stages : List (HalvingStage × ℕ)) (st : HalvingState) :
    ∃ st', stages.foldlM (halvingStage py scr runner startDate reductionFactor stageCount) st
      = .ok st' := by
  induction stages generalizing st with
  | nil => exact ⟨st, rfl⟩
  | cons stage stages ih =>
    obtain ⟨next, hstep⟩ : ∃ next, halvingStage py scr runner startDate reductionFactor stageCount
        st stage = .ok next := by
      unfold halvingStage
      dsimp only
      split
      · exact ⟨_, rfl⟩
      · split
        · exact ⟨_, rfl⟩
        · exact ⟨_, rfl⟩
    obtain ⟨st', hrest⟩ := ih next
    refine ⟨st', ?_⟩
    rw [List.foldlM_cons, hstep]
    exact hrest

/-! ### What the screening leaves -/

/-- The metrics of a run are JSON. -/
theorem jsonable_runOne {endDate : ℤ} :
    (runOne runner config startDate endDate).metrics.map dictToJsonable
      = (runOne runner config startDate endDate).metrics := by
  unfold runOne
  split
  · rfl
  · exact congrArg some (dictToJsonable_idem _)

/-- The copy of a candidate that has been run is the candidate. -/
theorem LastRun.toJsonable_eq (h : LastRun py scr runner startDate stages m stage c)
    (hconfig : dictToJsonable c.config = c.config) : c.toJsonable = c := by
  have hmetrics : c.metrics.map dictToJsonable = c.metrics := by
    rw [h.metrics]
    exact jsonable_runOne
  have hresults : (c.stageResults.map fun r =>
      { r with metrics := r.metrics.map dictToJsonable }) = c.stageResults := by
    rw [h.trail]
    unfold Research.trail
    rw [List.map_map]
    refine List.map_congr_left fun p _ => ?_
    exact congrArg (StageResult.mk p.2 stages.length p.1.fraction
      (stageRun runner startDate p.1 c.config).error) jsonable_runOne
  unfold Candidate.toJsonable
  rw [hconfig, hmetrics, hresults]

/-- The candidates of a grid, before the first stage. -/
theorem HalvingInv.fresh (baseConfig : PyDict) (combinations : List PyDict) (endDate : ℤ) :
    HalvingInv py scr runner startDate stages 0
      { candidates := combinations.map fun params =>
          Candidate.fresh baseConfig params startDate endDate
        summaries := []
        survivors := List.range combinations.length } where
  nodup := List.nodup_range
  bound := by
    intro k hk
    show k < (combinations.map _).length
    rw [List.length_map]
    exact List.mem_range.mp hk
  alive := by
    intro k c hc _
    obtain ⟨params, -, rfl⟩ := List.mem_map.mp (List.mem_of_getElem? hc)
    exact ⟨rfl, rfl⟩
  dead := by
    intro k c hc hk
    obtain ⟨hlt, -⟩ := List.getElem?_eq_some_iff.mp hc
    exact absurd (List.mem_range.mpr ((List.length_map _).symm ▸ hlt)) hk
  jsonable := by
    intro c hc
    obtain ⟨params, -, rfl⟩ := List.mem_map.mp hc
    exact dictToJsonable_idem _
  rounds := fun _ => rfl
  evaluated := by
    intro i
    refine (List.countP_eq_zero.mpr fun c hc => ?_).symm
    obtain ⟨params, -, rfl⟩ := List.mem_map.mp hc
    simp [Candidate.fresh]

/-- Behind the last stage every candidate has been run, and has its outcome. -/
theorem HalvingInv.ended (h : HalvingInv py scr runner startDate stages stages.length st)
    (hstages : stages ≠ []) {k : ℕ} (hc : st.candidates[k]? = some c) :
    ∃ m stage, LastRun py scr runner startDate stages m stage c ∧
      ∃ o, HasOutcome py scr runner startDate stages m stage c o ∧
        (k ∈ st.survivors ↔ o = .fullRangeSurvivor) := by
  by_cases hk : k ∈ st.survivors
  · obtain ⟨n, hn⟩ := Nat.exists_eq_succ_of_ne_zero (mt List.length_eq_zero_iff.mp hstages)
    have halive := h.alive k c hc hk
    rw [hn] at halive
    obtain ⟨hpruned, stage, hlast, hpasses⟩ := halive
    exact ⟨n, stage, hlast, .fullRangeSurvivor, ⟨hpruned, hpasses, hn.symm⟩,
      iff_of_true hk rfl⟩
  · obtain ⟨m, -, stage, hlast, o, ho, hne⟩ := h.dead k c hc hk
    exact ⟨m, stage, hlast, o, ho, iff_of_false hk hne⟩

/-- The loop's invariant behind the last stage, read off the copies of the candidates. -/
theorem HalvingInv.screened {configs : List PyDict}
    (h : HalvingInv py scr runner startDate stages stages.length st) (hstages : stages ≠ [])
    (hconfigs : (st.candidates.map Candidate.toJsonable).map Candidate.config = configs) :
    Screened py scr runner startDate stages configs
      { st with candidates := st.candidates.map Candidate.toJsonable } := by
  have hsame : st.candidates.map Candidate.toJsonable = st.candidates := by
    refine (List.map_congr_left fun c hmem => ?_).trans (List.map_id _)
    obtain ⟨k, hc⟩ := List.getElem?_of_mem hmem
    obtain ⟨m, stage, hlast, -⟩ := h.ended hstages hc
    exact hlast.toJsonable_eq (h.jsonable c hmem)
  rw [hsame] at hconfigs ⊢
  exact
    { configs := hconfigs
      candidate := by
        intro k c hc
        obtain ⟨m, stage, hlast, o, ho, hsurvivor⟩ := h.ended hstages hc
        exact ⟨m, stage, hlast, o, ⟨ho, hsurvivor⟩, fun o' ho' => ho'.1.unique ho⟩
      survivors := h.bound
      evaluated := h.evaluated
      counts := by
        refine List.pairwise_iff_getElem.mpr fun i j hi hj hij => ?_
        have hcount : ∀ {i : ℕ} (hi : i < (st.summaries.map Prod.fst).length),
            (st.summaries.map Prod.fst)[i]
              = st.candidates.countP fun c => i < c.stageResults.length := by
          intro i hi
          rw [← h.evaluated i, List.getElem?_eq_getElem hi]
          rfl
        rw [hcount hi, hcount hj]
        refine List.countP_mono_left fun c _ hlt => ?_
        exact decide_eq_true (hij.trans (of_decide_eq_true hlt)) }

end Candidates

/-- The evaluation returns for every factor but 0. -/
theorem runSuccessiveHalving_ok {py : PyFloats} {scr : Screening} {runner : Runner}
    {candidates : List Candidate} {startDate endDate : ℤ} {stageFractions : Option (List ℚ)}
    {reductionFactor : ℤ} (hfactor : reductionFactor ≠ 0) :
    ∃ st, runSuccessiveHalving py scr runner candidates startDate endDate stageFractions
      reductionFactor = .ok st := by
  let stages := buildSuccessiveHalvingStages py startDate endDate stageFractions
  obtain ⟨st, hrun⟩ : ∃ st, (stages.zipIdx 1).foldlM
      (halvingStage py scr runner startDate reductionFactor stages.length)
      ⟨candidates, [], List.range candidates.length⟩ = .ok st :=
    halvingStages_ok hfactor (stages.zipIdx 1) ⟨candidates, [], List.range candidates.length⟩
  exact ⟨_, congrArg (Except.map _) hrun⟩

/-- **Successive halving runs nested prefixes and loses no candidate.** -/
theorem halving_loses_no_candidate (py : PyFloats) (scr : Screening) (runner : Runner)
    (baseConfig : PyDict) (combinations : List PyDict) (startDate endDate : ℤ)
    (stageFractions : Option (List PyFraction)) (reductionFactor : ℤ)
    (hdates : startDate ≤ endDate) :
    let fractions := stageFractions.map fun fs => fs.map PyFraction.clamp
    let ranges := stageRanges py.ieee startDate endDate fractions
    let stages := buildSuccessiveHalvingStages py.ieee startDate endDate fractions
    let screened := runSuccessiveHalving py.ieee scr runner (combinations.map fun params =>
      Candidate.fresh baseConfig params startDate endDate) startDate endDate fractions
      reductionFactor
    ((∀ range ∈ ranges, range.1 = startDate ∧ startDate ≤ range.2) ∧
      (ranges.map Prod.snd).Pairwise (· < ·) ∧
      ranges.getLast? = some (startDate, endDate)) ∧
    (reductionFactor ≠ 0 → ∃ st, screened = .ok st) ∧
    ∀ st, screened = .ok st → Screened py.ieee scr runner startDate stages
      (combinations.map (candidateConfig baseConfig)) st := by
  intro fractions ranges stages screened
  refine ⟨stageRanges_sorted hdates fractions, runSuccessiveHalving_ok, fun st hst => ?_⟩
  have hsound := SearchSound.of_halving hst
  obtain ⟨last, hloop, rfl⟩ := except_map_eq_ok hst
  rw [List.length_map] at hloop
  have hstages : stages ≠ [] := by
    intro hnil
    have hlast := (@stageEnds_spec py startDate endDate hdates fractions).2.2
    rw [show buildSuccessiveHalvingStages py.ieee startDate endDate fractions = [] from hnil]
      at hlast
    exact absurd hlast (by simp)
  have hinv := (@HalvingInv.fresh py.ieee scr runner startDate stages baseConfig combinations
    endDate).run List.drop_zero hloop
  rw [zero_add] at hinv
  exact hinv.screened hstages hsound.configs

/-- Two candidates over 15 days, with a fraction that is not a number. -/
theorem halving_loses_no_candidate_crossover :
    let fractions := [Binary64.round (5 / 100), 1 / 2]
    let combinations := [[("fast", PyValue.int 5)], [("fast", .int 10)]]
    ∃ st, runSuccessiveHalving exactFloats.ieee ⟨"sharpe", some 1, false⟩ (crossoverRunner 1)
        (combinations.map fun params => Candidate.fresh [] params 0 14) 0 14 (some fractions) 2
          = .ok st ∧
      Screened exactFloats.ieee ⟨"sharpe", some 1, false⟩ (crossoverRunner 1) 0
        (buildSuccessiveHalvingStages exactFloats.ieee 0 14 (some fractions))
        (combinations.map (candidateConfig [])) st := by
  have hclamp : [PyFraction.nan, .number (1 / 2)].map PyFraction.clamp
      = [Binary64.round (5 / 100), 1 / 2] := by
    decide +kernel
  obtain ⟨-, hok, hscreened⟩ := halving_loses_no_candidate exactFloats ⟨"sharpe", some 1, false⟩
    (crossoverRunner 1) [] [[("fast", .int 5)], [("fast", .int 10)]] 0 14
    (some [.nan, .number (1 / 2)]) 2 (by decide)
  rw [Option.map_some, hclamp] at hok hscreened
  obtain ⟨st, hst⟩ := hok (by decide)
  exact ⟨st, hst, hscreened st hst⟩

end Msai.Research
