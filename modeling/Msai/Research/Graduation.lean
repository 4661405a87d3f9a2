import Msai.Lib.Transition
import Mathlib.Data.List.Chain

namespace Msai.Research

open Msai.Lib Msai.Lib.TransitionSystem

/-!
# The stages of a graduation candidate (`services/graduation.py`)

`update_stage` loads the candidate, looks its stage up in `VALID_TRANSITIONS`, and flushes the new
stage together with a row of the audit trail; the request commits.  The load is a plain
`session.get`: between it and the flush another transaction may have moved the candidate.

* `Stage.next`, `validTransitions` — the table;
* `stageSystem` — the transactions on one candidate, statement by statement; the UPDATE holds the
  row until its transaction ends, and a caller may have locked it before (`start_portfolio` does);
* `StageTrail` — what the audit trail promises;
* `CommitsLoadedStage` — the condition: the candidate is still in the stage that was loaded;
* `stage_trail_iff` — the theorem over every run of the transactions.
-/

/-! ### The table -/

inductive Stage
  | discovery
  | validation
  | paperCandidate
  | paperRunning
  | paperReview
  | liveCandidate
  | liveRunning
  | paused
  | archived
deriving DecidableEq, Repr

namespace Stage

def value : Stage → String
  | discovery => "discovery"
  | validation => "validation"
  | paperCandidate => "paper_candidate"
  | paperRunning => "paper_running"
  | paperReview => "paper_review"
  | liveCandidate => "live_candidate"
  | liveRunning => "live_running"
  | paused => "paused"
  | archived => "archived"

/-- `VALID_TRANSITIONS`, each set sorted by value. -/
def next : Stage → List Stage
  | discovery => [archived, validation]
  | validation => [archived, paperCandidate]
  | paperCandidate => [archived, paperRunning]
  | paperRunning => [archived, paperReview]
  | paperReview => [archived, discovery, liveCandidate]
  | liveCandidate => [archived, liveRunning]
  | liveRunning => [archived, paused]
  | paused => [archived, liveRunning]
  | archived => []

/-- The keys of the table. -/
def all : List Stage :=
  [discovery, validation, paperCandidate, paperRunning, paperReview, liveCandidate, liveRunning,
    paused, archived]

end Stage

/-- `VALID_TRANSITIONS.get(current, set())`.  The column is a string, and a candidate may have been
    inserted with a stage that the table does not know. -/
def validTransitions (current : String) : List String :=
  match Stage.all.find? fun s => s.value = current with
  | some s => s.next.map Stage.value
  | none => []

/-- The text of `GraduationStageError`. -/
def stageError (current newStage : String) : String :=
  let allowed := validTransitions current
  "Cannot transition from '" ++ current ++ "' to '" ++ newStage ++ "'. Allowed transitions: " ++
    if allowed.isEmpty then "none (terminal state)"
    else "[" ++ ", ".intercalate (allowed.map fun s => "'" ++ s ++ "'") ++ "]"

/-! ### The transactions -/

/-- A `graduation_stage_transitions` row of the candidate. -/
structure StageTransition where
  fromStage : String
  toStage : String
  reason : Option String
  transitionedBy : Option String
deriving DecidableEq, Repr

/-- The arguments of `update_stage`. -/
structure StageRequest where
  newStage : String
  reason : Option String
  userId : Option String
deriving DecidableEq, Repr

/-- The audit row of a request that has loaded the stage `current`. -/
def StageRequest.transition (q : StageRequest) (current : String) : StageTransition where
  fromStage := current
  toStage := q.newStage
  reason := q.reason
  transitionedBy := q.userId

/-- Where a transaction stands. -/
inductive StageTxn
  | called (q : StageRequest)
  /-- `candidate.stage` is in its session. -/
  | loaded (current : String) (q : StageRequest)
  /-- The UPDATE and the INSERT are flushed. -/
  | flushed (row : StageTransition)
  | committed
  | refused (text : String)
  | rolledBack
deriving DecidableEq, Repr

/-- A candidate: its committed stage, the audit rows of its creation, those that `update_stage` has
    committed since, who holds its row, and the transactions. -/
structure CandidateSite where
  stage : String
  creation : List StageTransition
  updates : List StageTransition
  lock : Option ℕ
  txns : List StageTxn
deriving DecidableEq, Repr

/-- How a candidate comes to be. -/
inductive CandidateOrigin
  /-- `create_candidate`. -/
  | created (userId : Option String)
  /-- A row inserted past the service, without an audit row (`portfolio_service`, `lifecycle`). -/
  | inserted (stage : String)
deriving DecidableEq, Repr

namespace CandidateSite

def initial : CandidateOrigin → CandidateSite
  | .created userId =>
    { stage := "discovery"
      creation := [⟨"", "discovery", some "Candidate created", userId⟩]
      updates := [], lock := none, txns := [] }
  | .inserted stage =>
    { stage := stage, creation := [], updates := [], lock := none, txns := [] }

/-- The audit trail in commit order. -/
def history (s : CandidateSite) : List StageTransition := s.creation ++ s.updates

/-- Another transaction holds the row. -/
def isLockedFor (s : CandidateSite) (k : ℕ) : Prop := s.lock ≠ none ∧ s.lock ≠ some k

instance (s : CandidateSite) (k : ℕ) : Decidable (s.isLockedFor k) :=
  inferInstanceAs (Decidable (_ ∧ _))

/-- The lock once transaction `k` has ended. -/
def unlock (s : CandidateSite) (k : ℕ) : Option ℕ := if s.lock = some k then none else s.lock

/-- Transaction `k` goes on as `x`. -/
def move (s : CandidateSite) (k : ℕ) (x : StageTxn) (lock : Option ℕ) : CandidateSite :=
  { s with txns := s.txns.set k x, lock := lock }

/-- Transaction `k` commits its audit row and the new stage. -/
def commit (s : CandidateSite) (k : ℕ) (row : StageTransition) : CandidateSite :=
  { s.move k .committed (s.unlock k) with
    stage := row.toStage
    updates := s.updates ++ [row] }

end CandidateSite

inductive StageLabel
  | begin (q : StageRequest)
  /-- The caller of `update_stage` locks the row. -/
  | lock (k : ℕ)
  | load (k : ℕ)
  /-- The check and the flush. -/
  | write (k : ℕ)
  | commit (k : ℕ)
  | rollback (k : ℕ)
deriving DecidableEq, Repr

def stageStep (s : CandidateSite) : StageLabel → Option CandidateSite
  | .begin q => some { s with txns := s.txns ++ [.called q] }
  | .lock k =>
    match s.txns[k]? with
    | some (.called _) | some (.loaded _ _) =>
      if s.isLockedFor k then none else some { s with lock := some k }
    | _ => none
  | .load k =>
    match s.txns[k]? with
    | some (.called q) => some (s.move k (.loaded s.stage q) s.lock)
    | _ => none
  | .write k =>
    match s.txns[k]? with
    | some (.loaded current q) =>
      if q.newStage ∈ validTransitions current then
        -- the UPDATE waits for whoever holds the row
        if s.isLockedFor k then none
        else some (s.move k (.flushed (q.transition current)) (some k))
      -- `GraduationStageError`: the request ends without a commit
      else some (s.move k (.refused (stageError current q.newStage)) (s.unlock k))
    | _ => none
  | .commit k =>
    match s.txns[k]? with
    | some (.flushed row) => some (s.commit k row)
    | _ => none
  | .rollback k =>
    match s.txns[k]? with
    | some (.called _) | some (.loaded _ _) | some (.flushed _) =>
      some (s.move k .rolledBack (s.unlock k))
    | _ => none

/-- The `update_stage` transactions on one candidate. -/
def stageSystem : TransitionSystem CandidateSite StageLabel := ⟨stageStep⟩

/-! ### The promise of the audit trail -/

/-- A row continues the one before it. -/
def Continues (earlier later : StageTransition) : Prop := later.fromStage = earlier.toStage

instance (earlier later : StageTransition) : Decidable (Continues earlier later) :=
  inferInstanceAs (Decidable (_ = _))

/-- The audit trail is a path of the table that ends where the candidate is. -/
structure StageTrail (s : CandidateSite) : Prop where
  chain : s.history.IsChain Continues
  allowed : ∀ row ∈ s.updates, row.toStage ∈ validTransitions row.fromStage
  final : s.history.IsChain fun earlier _ => earlier.toStage ≠ "archived"
  last : ∀ row, s.history.getLast? = some row → row.toStage = s.stage

/-- A commit finds the candidate in the stage that its transaction has loaded. -/
def CommitsLoadedStage (s : CandidateSite) : StageLabel → Prop
  | .commit k => ∀ row, s.txns[k]? = some (.flushed row) → row.fromStage = s.stage
  | _ => True

/-! ### One statement -/

/-- What a statement does. -/
inductive StageEffect (s : CandidateSite) : StageLabel → CandidateSite → Prop
  | opened (q : StageRequest) :
    StageEffect s (.begin q) { s with txns := s.txns ++ [.called q] }
  | locked (k : ℕ) : StageEffect s (.lock k) { s with lock := some k }
  | loaded {k : ℕ} {q : StageRequest} :
    StageEffect s (.load k) (s.move k (.loaded s.stage q) s.lock)
  | flushed {k : ℕ} {current : String} {q : StageRequest}
    (hloaded : s.txns[k]? = some (.loaded current q))
    (hallowed : q.newStage ∈ validTransitions current) :
    StageEffect s (.write k) (s.move k (.flushed (q.transition current)) (some k))
  | refused {k : ℕ} {text : String} :
    StageEffect s (.write k) (s.move k (.refused text) (s.unlock k))
  | committed {k : ℕ} {row : StageTransition} (hflushed : s.txns[k]? = some (.flushed row)) :
    StageEffect s (.commit k) (s.commit k row)
  | rolledBack {k : ℕ} : StageEffect s (.rollback k) (s.move k .rolledBack (s.unlock k))

section Steps

variable {s t : CandidateSite} {a : StageLabel} {k : ℕ} {row : StageTransition}

theorem stageStep_effect (h : stageStep s a = some t) : StageEffect s a t := by
  cases a with
  | begin q =>
    obtain rfl := Option.some.inj h
    exact .opened q
  | lock k =>
    have hlock : (if s.isLockedFor k then none else some { s with lock := some k }) = some t →
        StageEffect s (.lock k) t := by
      intro h
      split at h
      · exact absurd h (by simp)
      · obtain rfl := Option.some.inj h
        exact .locked k
    simp only [stageStep] at h
    split at h
    · exact hlock h
    · exact hlock h
    · exact absurd h (by simp)
  | load k =>
    simp only [stageStep] at h
    split at h
    · obtain rfl := Option.some.inj h
      exact .loaded
    · exact absurd h (by simp)
  | write k =>
    simp only [stageStep] at h
    split at h
    · rename_i current q hloaded
      split at h
      · rename_i hallowed
        split at h
        · exact absurd h (by simp)
        · obtain rfl := Option.some.inj h
          exact .flushed hloaded hallowed
      · obtain rfl := Option.some.inj h
        exact .refused
    · exact absurd h (by simp)
  | commit k =>
    simp only [stageStep] at h
    split at h
    · rename_i row hflushed
      obtain rfl := Option.some.inj h
      exact .committed hflushed
    · exact absurd h (by simp)
  | rollback k =>
    have hroll : some (s.move k .rolledBack (s.unlock k)) = some t →
        StageEffect s (.rollback k) t := by
      intro h
      obtain rfl := Option.some.inj h
      exact .rolledBack
    simp only [stageStep] at h
    split at h
    · exact hroll h
    · exact hroll h
    · exact hroll h
    · exact absurd h (by simp)

/-- The archive has no way out. -/
theorem ne_archived_of_mem {current newStage : String} (h : newStage ∈ validTransitions current) :
    current ≠ "archived" := by
  rintro rfl
  -- the last entry of the table is empty
  have hnone : validTransitions "archived" = [] := by decide
  rw [hnone] at h
  exact List.not_mem_nil h

/-! ### What every state of a run has -/

/-- The stages that a transaction may have in its session while nothing is committed. -/
def StageTxn.Since (stage : String) : StageTxn → Prop
  | .loaded current _ => current = stage
  | .flushed row => row.fromStage = stage
  | _ => True

/-- What the transactions keep, whatever the order of their statements. -/
structure StagesSound (s : CandidateSite) : Prop where
  creation : s.creation.length ≤ 1
  allowed : ∀ row ∈ s.updates, row.toStage ∈ validTransitions row.fromStage
  pending : ∀ (k : ℕ) (row : StageTransition), s.txns[k]? = some (.flushed row) →
    row.toStage ∈ validTransitions row.fromStage
  last : ∀ row, s.history.getLast? = some row → row.toStage = s.stage
  /-- Before the first audit row the candidate is where it was inserted. -/
  since : s.history = [] → ∀ (k : ℕ) (x : StageTxn), s.txns[k]? = some x → x.Since s.stage

theorem stagesSound_initial (origin : CandidateOrigin) :
    StagesSound (CandidateSite.initial origin) := by
  refine ⟨?_, ?_, ?_, ?_, ?_⟩
  · cases origin <;> simp [CandidateSite.initial]
  · cases origin <;> simp [CandidateSite.initial]
  · cases origin <;> simp [CandidateSite.initial]
  · cases origin <;> simp [CandidateSite.initial, CandidateSite.history]
  · cases origin <;> simp [CandidateSite.initial]

/-- A transaction may go on in any way that keeps the table and the first stage. -/
theorem StagesSound.move (hs : StagesSound s) {x : StageTxn} {lock : Option ℕ}
    (hallowed : ∀ row, x = .flushed row → row.toStage ∈ validTransitions row.fromStage)
    (hsince : s.history = [] → x.Since s.stage) : StagesSound (s.move k x lock) where
  creation := hs.creation
  allowed := hs.allowed
  pending := by
    intro j row hj
    rcases getElem?_set_cases hj with ⟨-, hx⟩ | ⟨-, hj⟩
    · exact hallowed row hx.symm
    · exact hs.pending j row hj
  last := hs.last
  since := by
    intro hnil j y hj
    rcases getElem?_set_cases hj with ⟨-, rfl⟩ | ⟨-, hj⟩
    · exact hsince hnil
    · exact hs.since hnil j y hj

theorem StagesSound.commit (hs : StagesSound s) (hflushed : s.txns[k]? = some (.flushed row)) :
    StagesSound (s.commit k row) where
  creation := hs.creation
  allowed := by
    intro r hr
    rcases List.mem_append.mp hr with hr | hr
    · exact hs.allowed r hr
    · rw [List.mem_singleton.mp hr]
      exact hs.pending k row hflushed
  pending := by
    intro j r hj
    rcases getElem?_set_cases hj with ⟨-, hx⟩ | ⟨-, hj⟩
    · exact absurd hx (by simp)
    · exact hs.pending j r hj
  last := by
    intro r hr
    have hlast : (s.commit k row).history.getLast? = some row := by
      show (s.creation ++ (s.updates ++ [row])).getLast? = some row
      rw [← List.append_assoc, List.getLast?_concat]
    rw [Option.some.inj (hlast.symm.trans hr)]
    rfl
  since := by
    intro hnil
    exact absurd hnil (by simp [CandidateSite.history, CandidateSite.commit])

theorem StagesSound.step (hs : StagesSound s) (h : stageStep s a = some t) : StagesSound t := by
  cases stageStep_effect h with
  | opened q =>
    refine ⟨hs.creation, hs.allowed, fun j row hj => ?_, hs.last, fun hnil j x hj => ?_⟩
    · rcases getElem?_concat_cases hj with ⟨-, hx⟩ | hj
      · exact absurd hx (by simp)
      · exact hs.pending j row hj
    · rcases getElem?_concat_cases hj with ⟨-, rfl⟩ | hj
      · trivial
      · exact hs.since hnil j x hj
  | locked k => exact ⟨hs.creation, hs.allowed, hs.pending, hs.last, hs.since⟩
  | loaded => exact hs.move (by simp) fun _ => rfl
  | @flushed k current q hloaded hallowed =>
    refine hs.move (fun row hrow => ?_) fun hnil => ?_
    · rw [← StageTxn.flushed.inj hrow]
      exact hallowed
    · -- while the trail is empty nobody has moved the candidate
      have hcurrent : current = s.stage := hs.since hnil k _ hloaded
      exact hcurrent
  | refused => exact hs.move (by simp) fun _ => trivial
  | committed hflushed => exact hs.commit hflushed
  | rolledBack => exact hs.move (by simp) fun _ => trivial

/-- A committed row continues the trail exactly if its transaction has loaded the stage that the
    candidate has. -/
theorem chain_commit_iff (hs : StagesSound s) (hflushed : s.txns[k]? = some (.flushed row)) :
    (s.commit k row).history.IsChain Continues ↔
      s.history.IsChain Continues ∧ row.fromStage = s.stage := by
  have hhistory : (s.commit k row).history = s.history ++ [row] :=
    (List.append_assoc s.creation s.updates [row]).symm
  rw [hhistory, List.isChain_append]
  cases hlast : s.history.getLast? with
  | none =>
    -- no row yet: what was loaded is the stage of the insert
    have hnil : s.history = [] := List.getLast?_eq_none_iff.mp hlast
    have hfrom : row.fromStage = s.stage := hs.since hnil k _ hflushed
    simp [hnil, hfrom]
  | some r =>
    -- the trail ends where the candidate is
    have hr : r.toStage = s.stage := hs.last r hlast
    simp [Continues, hr]

/-- **One statement** keeps the chain exactly if it meets the condition. -/
theorem stageStep_chain_iff (hs : StagesSound s) (h : stageStep s a = some t) :
    t.history.IsChain Continues ↔ s.history.IsChain Continues ∧ CommitsLoadedStage s a := by
  cases stageStep_effect h with
  | @committed k row hflushed =>
    rw [chain_commit_iff hs hflushed]
    refine and_congr_right fun _ => ⟨fun hfrom r hr => ?_, fun hcond => hcond row hflushed⟩
    obtain rfl : row = r := by simpa using hflushed.symm.trans hr
    exact hfrom
  -- nothing but a commit adds to the trail
  | _ => exact (and_iff_left trivial).symm

/-- In a chain of allowed transitions nothing follows the archive. -/
theorem stageTrail_iff (hs : StagesSound s) : StageTrail s ↔ s.history.IsChain Continues := by
  refine ⟨StageTrail.chain, fun hchain => ⟨hchain, hs.allowed, ?_, hs.last⟩⟩
  -- a row that follows another one leaves the stage that the other one has reached
  refine hchain.imp_of_mem_tail_imp fun earlier later _ hlater hcontinues => ?_
  -- only the first row may come from the creation
  have hupdate : later ∈ s.updates := by
    have hcreation := hs.creation
    rw [CandidateSite.history] at hlater
    match hrows : s.creation with
    | [] => exact List.mem_of_mem_tail (by simpa [hrows] using hlater)
    | [row] => simpa [hrows] using hlater
    | _ :: _ :: _ => exact absurd hcreation (by simp [hrows])
  rw [← hcontinues]
  exact ne_archived_of_mem (hs.allowed later hupdate)

end Steps

/-! ### Every run of the transactions -/

/-- **The audit trail is a path of the table**, exactly if every commit finds the candidate in the
    stage that its transaction has loaded. -/
theorem stage_trail_iff {origin : CandidateOrigin} {as : List StageLabel} {s : CandidateSite}
    (h : Path stageSystem anyStep (CandidateSite.initial origin) as s) :
    StageTrail s ↔ Path stageSystem CommitsLoadedStage (CandidateSite.initial origin) as s := by
  have hinit := stagesSound_initial origin
  have hsound : StagesSound s := h.invariant (fun _ _ _ hs _ hstep => hs.step hstep) hinit
  rw [stageTrail_iff hsound]
  refine h.good_iff_of (I := StagesSound) (fun _ _ _ hs hstep => hs.step hstep)
    (fun _ _ _ hs hstep => stageStep_chain_iff hs hstep) hinit ?_
  cases origin <;> simp [CandidateSite.initial, CandidateSite.history]

/-- Two requests of an operator: on to validation, and to the archive. -/
def toValidation : StageRequest := ⟨"validation", none, none⟩

def toArchive : StageRequest := ⟨"archived", some "stop", none⟩

/-- The second request loads the candidate when the first one has committed. -/
def oneByOne : List StageLabel :=
  [.begin toValidation, .begin toArchive, .load 0, .write 0, .commit 0, .load 1, .write 1,
    .commit 1]

theorem stage_trail_one_by_one : ∃ s,
    Path stageSystem CommitsLoadedStage (.initial (.created none)) oneByOne s ∧
      s.stage = "archived" := by
  obtain ⟨s, hrun, hstage, hchain, hallowed, hfinal, hlast⟩ :
      ∃ s, stageSystem.run (.initial (.created none)) oneByOne = some s ∧
        s.stage = "archived" ∧ s.history.IsChain Continues ∧
        (∀ row ∈ s.updates, row.toStage ∈ validTransitions row.fromStage) ∧
        (s.history.IsChain fun earlier _ => earlier.toStage ≠ "archived") ∧
        s.history.getLast?.map (·.toStage) = some "archived" :=
    ⟨_, rfl, rfl, by decide, by decide, by decide, rfl⟩
  have htrail : StageTrail s := by
    refine ⟨hchain, hallowed, hfinal, fun row hrow => ?_⟩
    rw [hrow] at hlast
    rw [hstage]
    exact Option.some.inj hlast
  exact ⟨s, (stage_trail_iff (.of_run hrun)).mp htrail, hstage⟩

/-- Both requests load the candidate before either commits. -/
def bothLoad : List StageLabel :=
  [.begin toArchive, .begin toValidation, .load 0, .load 1, .write 0, .commit 0, .write 1,
    .commit 1]

/-- **The slip.**  The candidate comes out of the archive. -/
theorem stage_trail_fails :
    ¬∀ (as : List StageLabel) (s : CandidateSite),
      Path stageSystem anyStep (.initial (.created none)) as s → StageTrail s := by
  intro h
  have htrail := h bothLoad _ (.of_run rfl)
  exact absurd htrail.chain (by decide)

end Msai.Research
