import Msai.Instruments.LiveResolver
import Msai.Lib.IndexedFold
import Msai.Lib.JsonObject
import Msai.Lib.Tokens
import Msai.Portfolio.Identity
import Msai.Supervisor.Rows

namespace Msai.Live.SnapshotBinding

open Msai.Lib Msai.Portfolio Msai.Instruments
open Msai.Supervisor (Status)

/-!
# A frozen member and its graduated candidate (`services/live/snapshot_binding.py`)

A start compares each member of its revision with the candidate that was graduated for the
strategy, and folds what it has compared into a fingerprint, so that a cached answer is not replayed
once the binding has changed (`api/live.py`, `_resolve_binding_for_start_portfolio`).

* `JsonbObject` — a column of configurations;
* `verifyMemberMatchesCandidate`, `resolveMember`, `resolveBinding` — the comparison;
* `memberFingerprint`, `bindingFingerprint` — the fingerprint; `sha` is a parameter;
* `resolveBinding_ok_iff` — what is bound to what;
* `bindingFingerprint_eq_iff` — what the fingerprint of bindings determines.
-/

/-! ### Configurations -/

/-- An object as a JSONB column gives it back. -/
structure JsonbObject where
  fields : JsonObject
  keys_nodup : (Dict.keys fields).Nodup
  numbersOk : (Json.obj fields).NumbersOk

/-- `_COMPARISON_STRIPPED_FIELDS`. -/
def comparisonStrippedFields : List String :=
  ["manage_stop", "order_id_tag", "market_exit_time_in_force", "instruments"]

/-- `strip_for_comparison`. -/
def stripForComparison (config : JsonObject) : JsonObject :=
  config.filter fun p => p.1 ∉ comparisonStrippedFields

/-- `_canonicalize_config`. -/
def canonicalizeConfig (config : JsonObject) : List Char := (Json.obj config).dumps .compact

/-- Configurations that agree in every field that is compared, up to the order of the fields in
    nested objects. -/
def SameConfig (c c' : JsonbObject) : Prop :=
  ∀ k ∉ comparisonStrippedFields,
    (Dict.get c.fields k).map Json.sorted = (Dict.get c'.fields k).map Json.sorted

/-! ### The comparison -/

/-- A `graduation_candidates` row. -/
structure Candidate where
  id : Uuid
  strategyId : Uuid
  stage : String
  config : JsonbObject
  deploymentId : Option Uuid

/-- A `live_portfolio_revision_strategies` row. -/
structure RevisionMember where
  id : Uuid
  strategyId : Uuid
  config : JsonbObject
  instruments : List String

/-- An entry of `mismatches`. -/
structure Mismatch where
  field : String
  memberValue : Json
  candidateValue : Json

/-- Why a start is not bound. -/
inductive BindingError
  /-- `BINDING_EMPTY_REVISION` -/
  | emptyRevision
  /-- `LIVE_DEPLOY_REPAIR_REQUIRED` -/
  | repairRequired (deploymentId strategyId : Uuid)
  /-- `scalar_one_or_none` has met more than one row. -/
  | multipleResults
  /-- `BINDING_NOT_GRADUATED` -/
  | notGraduated (strategyId : Uuid)
  /-- `BINDING_AMBIGUOUS` -/
  | ambiguous (candidateIds : List Uuid)
  /-- `BINDING_INELIGIBLE` -/
  | ineligible (candidateId : Uuid) (stage : String)
  /-- `BINDING_INSTRUMENTS_MISSING` -/
  | instrumentsMissing (candidateId : Uuid)
  /-- `BINDING_INSTRUMENT_RESOLVE_FAILED`, or the `ValueError` of an empty list. -/
  | resolveFailed (e : LiveResolverError)
  /-- `BINDING_MISMATCH` -/
  | mismatch (mismatches : List Mismatch)

variable (str : Json → String)

/-- `candidate_instruments`; `str` is the built-in. -/
def candidateInstruments (c : Candidate) : Except BindingError (List String) :=
  match Dict.get c.config.fields "instruments" with
  | some (.arr (x :: xs)) => .ok ((x :: xs).map str)
  | _ => .error (.instrumentsMissing c.id)

/-- `instruments_match`. -/
def instrumentsMatch (memberInstruments candInstruments : List String) : Bool :=
  (∀ x ∈ memberInstruments, x ∈ candInstruments) ∧ ∀ x ∈ candInstruments, x ∈ memberInstruments

/-- `verify_member_matches_candidate`, as its callers call it: with both lists. -/
def verifyMemberMatchesCandidate (m : RevisionMember) (c : Candidate)
    (memberInstruments candInstruments : List String) : Except BindingError Unit :=
  let memberConfig := stripForComparison m.config.fields
  let candConfig := stripForComparison c.config.fields
  let mismatches :=
    (if canonicalizeConfig memberConfig ≠ canonicalizeConfig candConfig then
      [⟨"config", (Json.obj memberConfig).sorted, (Json.obj candConfig).sorted⟩]
    else []) ++
    if !instrumentsMatch memberInstruments candInstruments then
      [⟨"instruments", .arr ((sortedSet memberInstruments).map .str),
        .arr ((sortedSet candInstruments).map .str)⟩]
    else []
  if mismatches.isEmpty then .ok () else .error (.mismatch mismatches)

/-- `ELIGIBLE_FOR_LIVE_PORTFOLIO`. -/
def eligibleForLivePortfolio : List String := ["live_candidate", "live_running", "paused"]

/-- A resolved member with its canonical instruments. -/
structure Binding where
  member : RevisionMember
  candidate : Candidate
  memberCanonical : List String
  candidateCanonical : List String

variable (s : Registry) (asOf : ℕ) (table : List Candidate) (existing : Option (Uuid × Status))

/-- `[r.canonical_id for r in await lookup_for_live(…)]`. -/
def canonicalIds (symbols : List String) : Except BindingError (List String) :=
  match lookupForLive s symbols asOf .interactiveBrokers none with
  | .ok resolved => .ok (resolved.map (·.canonicalId))
  | .error e => .error (.resolveFailed e)

/-- The candidate that is linked to the deployment. -/
def linkedCandidate (m : RevisionMember) : Except BindingError (Option Candidate) :=
  match existing with
  | none => .ok none
  | some (deploymentId, status) =>
    match table.filter fun c =>
      c.strategyId = m.strategyId ∧ c.deploymentId = some deploymentId with
    | [] =>
      -- `existing_unlinked_retry`
      if status = .starting ∨ status = .failed ∨ status = .stopped then .ok none
      else .error (.repairRequired deploymentId m.strategyId)
    | [c] => .ok (some c)
    | _ => .error .multipleResults

/-- The one candidate that waits for its deployment. -/
def freeCandidate (m : RevisionMember) : Except BindingError Candidate :=
  match table.filter fun c =>
    c.strategyId = m.strategyId ∧ c.stage = "live_candidate" ∧ c.deploymentId = none with
  | [] => .error (.notGraduated m.strategyId)
  | [c] => .ok c
  | cs => .error (.ambiguous (cs.map (·.id)))

/-- The candidate of a member. -/
def candidateOf (m : RevisionMember) : Except BindingError Candidate := do
  match ← linkedCandidate table existing m with
  | some c => return c
  | none => freeCandidate table m

/-- The loop body of `_resolve_binding_for_start_portfolio`. -/
def resolveMember (m : RevisionMember) : Except BindingError Binding := do
  let c ← candidateOf table existing m
  if c.stage ∉ eligibleForLivePortfolio then .error (.ineligible c.id c.stage)
  else
    let raw ← candidateInstruments str c
    let memberCanonical ← canonicalIds s asOf m.instruments
    let candidateCanonical ← canonicalIds s asOf raw
    verifyMemberMatchesCandidate m c memberCanonical candidateCanonical
    return ⟨m, c, memberCanonical, candidateCanonical⟩

/-- The members of the frozen revision, from the check for an empty one on. -/
def resolveBinding (members : List RevisionMember) : Except BindingError (List Binding) :=
  if members.isEmpty then .error .emptyRevision
  else members.mapM (resolveMember str s asOf table existing)

/-! ### The fingerprint -/

section Fingerprint

variable (sha : List Char → List Char)

/-- `"|".join(sorted(set(instruments)))`. -/
def joinedSet (instruments : List String) : List Char :=
  List.intercalate ['|'] ((sortedSet instruments).map String.toList)

/-- What the candidate's side of a fingerprint hashes. -/
def candidateContent (b : Binding) : List Char :=
  canonicalizeConfig (stripForComparison b.candidate.config.fields) ++
    '|' :: joinedSet b.candidateCanonical

/-- `compute_member_fingerprint`. -/
def memberFingerprint (b : Binding) : List Char :=
  List.intercalate ['|']
    [b.member.id.str.toList, canonicalizeConfig (stripForComparison b.member.config.fields),
      joinedSet b.memberCanonical, b.candidate.id.str.toList, sha (candidateContent b)]

/-- The text of a fingerprint. -/
def bindingContent (bs : List Binding) : List Char :=
  List.intercalate ['|', '|'] (bs.map (memberFingerprint sha))

/-- `compute_binding_fingerprint`. -/
def bindingFingerprint (bs : List Binding) : List Char := sha (bindingContent sha bs)

end Fingerprint

/-! ### What is compared -/

section Compared

variable {c c' : JsonbObject} {k : String}

theorem get_strip {config : JsonObject} : Dict.get (stripForComparison config) k =
    if k ∈ comparisonStrippedFields then none else Dict.get config k := by
  induction config with
  | nil => simp [stripForComparison, Dict.get]
  | cons p config ih =>
    obtain ⟨j, v⟩ := p
    unfold stripForComparison at ih ⊢
    by_cases hj : j ∈ comparisonStrippedFields
    · rw [List.filter_cons_of_neg (by simpa using hj), ih]
      split
      · rfl
      · rename_i hk
        simp [Dict.get, ne_of_mem_of_not_mem hj hk]
    · rw [List.filter_cons_of_pos (by simpa using hj)]
      simp only [Dict.get]
      by_cases hkey : j = k
      · subst hkey
        rw [if_pos rfl, if_pos rfl, if_neg hj]
      · rw [if_neg hkey, if_neg hkey, ih]

theorem JsonbObject.strip_ok (c : JsonbObject) :
    (Dict.keys (stripForComparison c.fields)).Nodup ∧
      (Json.obj (stripForComparison c.fields)).NumbersOk := by
  have hsub : (stripForComparison c.fields).Sublist c.fields := List.filter_sublist
  refine ⟨c.keys_nodup.sublist (hsub.map Prod.fst), fun n hn => c.numbersOk n ?_⟩
  simp only [Json.numbers, Json.numbersOfFields_eq, List.mem_flatMap] at hn ⊢
  obtain ⟨q, hq, hmem⟩ := hn
  exact ⟨q, hsub.subset hq, hmem⟩

/-- The canonical texts agree exactly if the configurations do. -/
theorem canonicalizeConfig_eq_iff :
    canonicalizeConfig (stripForComparison c.fields) =
      canonicalizeConfig (stripForComparison c'.fields) ↔ SameConfig c c' := by
  unfold canonicalizeConfig SameConfig
  rw [@Json.dumps_obj_eq_iff_get .compact _ _ ⟨[], rfl⟩ c.strip_ok.2 c'.strip_ok.2 c.strip_ok.1
    c'.strip_ok.1]
  simp only [get_strip]
  constructor
  · intro h k hk
    simpa [hk] using h k
  · intro h k
    by_cases hk : k ∈ comparisonStrippedFields
    · simp [hk]
    · simpa [hk] using h k hk

theorem instrumentsMatch_iff {l l' : List String} :
    instrumentsMatch l l' = true ↔ ∀ x, x ∈ l ↔ x ∈ l' := by
  simp only [instrumentsMatch, decide_eq_true_eq]
  constructor
  · intro h x
    exact ⟨h.1 x, h.2 x⟩
  · intro h
    exact ⟨fun x => (h x).mp, fun x => (h x).mpr⟩

/-- A member passes exactly if it agrees with its candidate in the configuration and in the set of
    instruments. -/
theorem verify_eq_ok_iff {m : RevisionMember} {cand : Candidate} {l l' : List String} :
    verifyMemberMatchesCandidate m cand l l' = .ok () ↔
      SameConfig m.config cand.config ∧ ∀ x, x ∈ l ↔ x ∈ l' := by
  rw [← canonicalizeConfig_eq_iff, ← instrumentsMatch_iff]
  unfold verifyMemberMatchesCandidate
  by_cases hconfig : canonicalizeConfig (stripForComparison m.config.fields) =
      canonicalizeConfig (stripForComparison cand.config.fields)
  · cases instrumentsMatch l l' <;> simp [hconfig]
  · simp [hconfig]

end Compared

/-! ### What is bound -/

section Bound

variable {str : Json → String} {s : Registry} {asOf : ℕ} {table : List Candidate}
  {existing : Option (Uuid × Status)} {m : RevisionMember} {b : Binding} {c : Candidate}

/-- The only element of a list that meets `p`. -/
def IsOnly {α : Type} (l : List α) (p : α → Bool) (a : α) : Prop := l.filter p = [a]

/-- The candidate of a member: the one that is linked to the deployment; or, where none is and the
    deployment is new or has not got through its first start, the one that waits for one. -/
def CandidateFor (table : List Candidate) (existing : Option (Uuid × Status)) (m : RevisionMember)
    (c : Candidate) : Prop :=
  (∃ deploymentId status, existing = some (deploymentId, status) ∧
    IsOnly table (fun c => c.strategyId = m.strategyId ∧ c.deploymentId = some deploymentId) c) ∨
  ((∀ deploymentId status, existing = some (deploymentId, status) →
      (status = .starting ∨ status = .failed ∨ status = .stopped) ∧
      ∀ c ∈ table, c.strategyId = m.strategyId → c.deploymentId ≠ some deploymentId) ∧
    IsOnly table (fun c => c.strategyId = m.strategyId ∧ c.stage = "live_candidate" ∧
      c.deploymentId = none) c)

/-- What a binding of a member is. -/
structure Bound (str : Json → String) (s : Registry) (asOf : ℕ) (table : List Candidate)
    (existing : Option (Uuid × Status)) (m : RevisionMember) (b : Binding) : Prop where
  member : b.member = m
  candidate : CandidateFor table existing m b.candidate
  eligible : b.candidate.stage ∈ eligibleForLivePortfolio
  memberCanonical : canonicalIds s asOf m.instruments = .ok b.memberCanonical
  candidateCanonical : ((candidateInstruments str b.candidate).bind fun raw =>
    canonicalIds s asOf raw) = .ok b.candidateCanonical
  config : SameConfig m.config b.candidate.config
  instruments : ∀ x, x ∈ b.memberCanonical ↔ x ∈ b.candidateCanonical

theorem freeCandidate_eq_ok_iff : freeCandidate table m = .ok c ↔
    IsOnly table (fun c => c.strategyId = m.strategyId ∧ c.stage = "live_candidate" ∧
      c.deploymentId = none) c := by
  unfold freeCandidate IsOnly
  cases hfree : table.filter fun c =>
    c.strategyId = m.strategyId ∧ c.stage = "live_candidate" ∧ c.deploymentId = none with
  | nil => simp
  | cons d rest => cases rest <;> simp

theorem candidateOf_eq_ok_iff :
    candidateOf table existing m = .ok c ↔ CandidateFor table existing m c := by
  unfold candidateOf CandidateFor linkedCandidate
  cases existing with
  | none => simp [freeCandidate_eq_ok_iff, bind, Except.bind]
  | some deployment =>
    obtain ⟨d, status⟩ := deployment
    simp only [Option.some.injEq, Prod.mk.injEq]
    cases hlinked : table.filter fun c => c.strategyId = m.strategyId ∧ c.deploymentId = some d with
    | nil =>
      have hnone : ∀ c ∈ table, c.strategyId = m.strategyId → c.deploymentId ≠ some d := by
        simpa using hlinked
      by_cases hretry : status = .starting ∨ status = .failed ∨ status = .stopped
      · simp only [if_pos hretry]
        show freeCandidate table m = .ok c ↔ _
        rw [freeCandidate_eq_ok_iff]
        constructor
        · intro h
          refine Or.inr ⟨?_, h⟩
          rintro _ _ ⟨rfl, rfl⟩
          exact ⟨hretry, hnone⟩
        · rintro (⟨_, _, ⟨rfl, rfl⟩, honly⟩ | h)
          · rw [IsOnly, hlinked] at honly
            cases honly
          · exact h.2
      · simp only [if_neg hretry]
        constructor
        · intro h
          cases h
        · rintro (⟨_, _, ⟨rfl, rfl⟩, honly⟩ | h)
          · rw [IsOnly, hlinked] at honly
            cases honly
          · exact absurd (h.1 d status ⟨rfl, rfl⟩).1 hretry
    | cons c₁ rest =>
      have hmem : c₁ ∈ table ∧ c₁.strategyId = m.strategyId ∧ c₁.deploymentId = some d := by
        have := List.mem_filter.mp (hlinked ▸ List.mem_cons_self (a := c₁) (l := rest))
        simpa using this
      have hfree : ¬ ∀ c ∈ table, c.strategyId = m.strategyId → c.deploymentId ≠ some d :=
        fun h => h c₁ hmem.1 hmem.2.1 hmem.2.2
      cases rest with
      | nil =>
        show Except.ok c₁ = .ok c ↔ _
        constructor
        · intro h
          cases h
          exact Or.inl ⟨d, status, ⟨rfl, rfl⟩, hlinked⟩
        · rintro (⟨_, _, ⟨rfl, rfl⟩, honly⟩ | h)
          · rw [IsOnly, hlinked] at honly
            cases honly
            rfl
          · exact absurd (h.1 d status ⟨rfl, rfl⟩).2 hfree
      | cons c₂ rest =>
        constructor
        · intro h
          cases h
        · rintro (⟨_, _, ⟨rfl, rfl⟩, honly⟩ | h)
          · rw [IsOnly, hlinked] at honly
            cases honly
          · exact absurd (h.1 d status ⟨rfl, rfl⟩).2 hfree

/-- A member is resolved exactly to what it is bound to. -/
theorem resolveMember_eq_ok_iff :
    resolveMember str s asOf table existing m = .ok b ↔ Bound str s asOf table existing m b := by
  unfold resolveMember
  constructor
  · intro h
    obtain ⟨c, hc, h⟩ := except_bind_eq_ok h
    have hstage : c.stage ∈ eligibleForLivePortfolio := by
      by_contra hout
      rw [if_pos hout] at h
      cases h
    rw [if_neg (not_not_intro hstage)] at h
    obtain ⟨raw, hraw, h⟩ := except_bind_eq_ok h
    obtain ⟨memberCanonical, hmember, h⟩ := except_bind_eq_ok h
    obtain ⟨candidateCanonical, hcandidate, h⟩ := except_bind_eq_ok h
    obtain ⟨_, hverify, h⟩ := except_bind_eq_ok h
    obtain ⟨hconfig, hinstruments⟩ := verify_eq_ok_iff.mp hverify
    cases h
    refine ⟨rfl, candidateOf_eq_ok_iff.mp hc, hstage, hmember, ?_, hconfig, hinstruments⟩
    rw [hraw]
    exact hcandidate
  · rintro ⟨hm, hc, hstage, hmember, hcandidate, hconfig, hinstruments⟩
    obtain ⟨raw, hraw, hcandidate⟩ := except_bind_eq_ok hcandidate
    have hverify := verify_eq_ok_iff.mpr ⟨hconfig, hinstruments⟩
    subst hm
    simp [candidateOf_eq_ok_iff.mpr hc, hstage, hraw, hmember, hcandidate, hverify, bind,
      Except.bind, pure, Except.pure]

/-- What is resolved for a revision. -/
theorem resolveBinding_eq_ok_iff {members : List RevisionMember} {bs : List Binding} :
    resolveBinding str s asOf table existing members = .ok bs ↔
      members ≠ [] ∧ List.Forall₂ (Bound str s asOf table existing) members bs := by
  unfold resolveBinding
  cases members with
  | nil => simp
  | cons m members =>
    rw [List.isEmpty_cons, if_neg Bool.false_ne_true, mapM_eq_ok_iff]
    simp only [resolveMember_eq_ok_iff, ne_eq, reduceCtorEq, not_false_eq_true, true_and]

end Bound

/-! ### The canonical instruments -/

section Canonical

variable {s : Registry} {provider : Provider} {asOf : ℕ} {ac : Option AssetClass}
  {symbols missing : List String} {resolved : List ResolvedInstrument}

/-- An id that a lookup gives is the string of an alias. -/
theorem resolveDefinition_alias {symbol : String} {d : Definition} {x : ResolvedInstrument}
    (h : resolveDefinition s symbol d provider asOf = .ok (some x)) :
    ∃ a ∈ s.aliases, x.canonicalId = a.aliasString := by
  unfold resolveDefinition at h
  split at h
  · cases h
  · split at h
    · cases h
    · cases h
    · rename_i a hpick
      have hmem : a ∈ s.aliases := by
        unfold pickActiveAlias at hpick
        simp only at hpick
        split at hpick
        · cases hpick
        · split at hpick
          · cases hpick
          · have hhead := List.mem_of_head? (Except.ok.inj hpick)
            exact (List.mem_filter.mp (List.mem_filter.mp hhead).1).1
      split at h
      · cases h
      · cases h
        exact ⟨a, hmem, rfl⟩

/-- The loop deals with each symbol: it is missing, or it is resolved. -/
theorem resolveAll_spec (h : resolveAll s provider asOf ac symbols = .ok (missing, resolved)) :
    missing.length + resolved.length = symbols.length ∧
      ∀ x ∈ resolved, ∃ a ∈ s.aliases, x.canonicalId = a.aliasString := by
  induction symbols generalizing missing resolved with
  | nil =>
    simp only [resolveAll, Except.ok.injEq, Prod.mk.injEq] at h
    obtain ⟨rfl, rfl⟩ := h
    exact ⟨rfl, fun _ hx => absurd hx List.not_mem_nil⟩
  | cons symbol symbols ih =>
    obtain ⟨x, hx, h⟩ := except_bind_eq_ok h
    obtain ⟨rest, hrest, h⟩ := except_map_eq_ok h
    obtain ⟨hlength, halias⟩ := ih hrest
    cases x with
    | none =>
      cases h
      simp only [List.length_cons]
      exact ⟨by omega, halias⟩
    | some x =>
      cases h
      simp only [List.length_cons]
      refine ⟨by omega, fun y hy => ?_⟩
      rcases List.mem_cons.mp hy with rfl | hy
      · obtain ⟨d, _, hd⟩ := except_bind_eq_ok hx
        cases d with
        | none => cases hd
        | some d => exact resolveDefinition_alias hd
      · exact halias y hy

/-- A lookup that succeeds gives at least one id, and only strings of aliases. -/
theorem canonicalIds_spec {ids : List String} (h : canonicalIds s asOf symbols = .ok ids) :
    ids ≠ [] ∧ ∀ x ∈ ids, ∃ a ∈ s.aliases, x = a.aliasString := by
  unfold canonicalIds lookupForLive at h
  by_cases hempty : symbols.isEmpty = true
  · rw [if_pos hempty] at h
    cases h
  · rw [if_neg hempty] at h
    split at h
    · rename_i resolved hlookup
      cases h
      obtain ⟨⟨missing, all⟩, hall, hlookup⟩ := except_bind_eq_ok hlookup
      obtain ⟨hlength, halias⟩ := resolveAll_spec hall
      simp only at hlookup
      split at hlookup
      · rename_i hmissing
        cases hlookup
        constructor
        · intro hnil
          rw [List.isEmpty_iff] at hmissing
          rw [List.map_eq_nil_iff.mp hnil, hmissing] at hlength
          exact hempty (List.isEmpty_iff.mpr (List.length_eq_zero_iff.mp hlength.symm))
        · intro x hx
          obtain ⟨y, hy, rfl⟩ := List.mem_map.mp hx
          exact halias y hy
      · cases hlookup
    · cases h

end Canonical

/-! ### Ids -/

section Ids

variable {u u' : Uuid}

theorem toList_str (u : Uuid) : u.str.toList =
    let h := hexPadded 32 u.toNat
    List.intercalate ['-']
      [h.take 8, (h.drop 8).take 4, (h.drop 12).take 4, (h.drop 16).take 4, h.drop 20] :=
  String.toList_ofList

theorem length_hex (u : Uuid) : (hexPadded 32 u.toNat).length = 32 :=
  length_hexPadded (by norm_num) (u.isLt.trans_le (by norm_num))

theorem mem_hex {c : Char} (h : c ∈ hexPadded 32 u.toNat) : ∃ d < 16, c = d.digitChar :=
  mem_hexPadded (by norm_num) (u.isLt.trans_le (by norm_num)) h

theorem length_str (u : Uuid) : u.str.toList.length = 36 := by
  simp [toList_str, length_hex, List.intercalate_cons_cons]

theorem mem_str {c : Char} (h : c ∈ u.str.toList) : c = '-' ∨ ∃ d < 16, c = d.digitChar := by
  simp only [toList_str, List.intercalate_cons_cons, List.intercalate_singleton, List.mem_append,
    List.mem_singleton] at h
  rcases h with (h | rfl) | (h | rfl) | (h | rfl) | (h | rfl) | h
  · exact Or.inr (mem_hex (List.mem_of_mem_take h))
  · exact Or.inl rfl
  · exact Or.inr (mem_hex (List.mem_of_mem_drop (List.mem_of_mem_take h)))
  · exact Or.inl rfl
  · exact Or.inr (mem_hex (List.mem_of_mem_drop (List.mem_of_mem_take h)))
  · exact Or.inl rfl
  · exact Or.inr (mem_hex (List.mem_of_mem_drop (List.mem_of_mem_take h)))
  · exact Or.inl rfl
  · exact Or.inr (mem_hex (List.mem_of_mem_drop h))

theorem isToken_str (u : Uuid) : IsToken '|' u.str.toList := by
  constructor
  · intro hnil
    have := length_str u
    rw [hnil] at this
    cases this
  · intro hmem
    rcases mem_str hmem with h | ⟨d, hd, h⟩
    · cases h
    · interval_cases d <;> exact absurd h (by decide)

/-- The digits without the dashes. -/
theorem filter_str (u : Uuid) : u.str.toList.filter (· ≠ '-') = hexPadded 32 u.toNat := by
  have hdigits : ∀ l : List Char, (∀ c ∈ l, c ∈ hexPadded 32 u.toNat) →
      l.filter (· ≠ '-') = l := by
    intro l hl
    refine List.filter_eq_self.mpr fun c hc => ?_
    obtain ⟨d, hd, rfl⟩ := mem_hex (hl c hc)
    interval_cases d <;> decide
  have hpart : ∀ i n, (((hexPadded 32 u.toNat).drop i).take n).filter (· ≠ '-') =
      ((hexPadded 32 u.toNat).drop i).take n :=
    fun i n => hdigits _ fun c hc => List.mem_of_mem_drop (List.mem_of_mem_take hc)
  have hfirst := hpart 0 8
  rw [List.drop_zero] at hfirst
  have hlast := hdigits ((hexPadded 32 u.toNat).drop 20) fun c hc => List.mem_of_mem_drop hc
  have hdash : List.filter (fun c : Char => decide (c ≠ '-')) ['-'] = [] := by decide
  simp only [toList_str, List.intercalate_cons_cons, List.intercalate_singleton,
    List.filter_append, hfirst, hpart, hlast, hdash, List.append_nil]
  have hcut : ∀ i j n, j = i + n → ((hexPadded 32 u.toNat).drop i).take n ++
      (hexPadded 32 u.toNat).drop j = (hexPadded 32 u.toNat).drop i := by
    rintro i j n rfl
    rw [← List.drop_drop, List.take_append_drop]
  rw [hcut 16 20 4 rfl, hcut 12 16 4 rfl, hcut 8 12 4 rfl, List.take_append_drop]

theorem str_inj (h : u.str.toList = u'.str.toList) : u = u' := by
  have hdigits := congrArg (fun l => hexNumber (codes (l.filter (· ≠ '-')))) h
  simp only [filter_str] at hdigits
  rw [hexNumber_hexPadded (by norm_num) (u.isLt.trans_le (by norm_num)),
    hexNumber_hexPadded (by norm_num) (u'.isLt.trans_le (by norm_num))] at hdigits
  exact BitVec.eq_of_toNat_eq (Option.some.inj hdigits)

end Ids

/-! ### What the fingerprint determines -/

/-- Two bindings agree: in the member and the candidate, in the configuration, and in the set of
    instruments. -/
structure SameBinding (b b' : Binding) : Prop where
  memberId : b.member.id = b'.member.id
  candidateId : b.candidate.id = b'.candidate.id
  config : SameConfig b.member.config b'.member.config
  instruments : ∀ x, x ∈ b.memberCanonical ↔ x ∈ b'.memberCanonical

/-- What a binding has to be for its fingerprint to be read back: its two sides agree, which is what
    was verified, and its instruments are tokens. -/
structure Binding.Verified (b : Binding) : Prop where
  config : SameConfig b.member.config b.candidate.config
  instruments : ∀ x, x ∈ b.memberCanonical ↔ x ∈ b.candidateCanonical
  nonempty : b.memberCanonical ≠ []
  tokens : ∀ x ∈ b.memberCanonical, IsToken '|' x.toList

section Determines

variable {sha : List Char → List Char} {b b' : Binding} {r r' : List Char} {bs bs' : List Binding}
  {l l' : List String} {c c' : JsonbObject}

theorem tokens_sortedSet (h : ∀ x ∈ l, IsToken '|' x.toList) :
    ∀ t ∈ (sortedSet l).map String.toList, IsToken '|' t := by
  intro t ht
  obtain ⟨x, hx, rfl⟩ := List.mem_map.mp ht
  exact h x (mem_sortedSet.mp hx)

theorem sortedSet_map_inj (h : (sortedSet l).map String.toList = (sortedSet l').map String.toList) :
    ∀ x, x ∈ l ↔ x ∈ l' :=
  sortedSet_eq_iff.mp (List.map_injective_iff.mpr (fun _ _ => String.toList_inj.mp) h)

/-- The canonical text ends by itself. -/
theorem canonicalizeConfig_cancel
    (h : canonicalizeConfig (stripForComparison c.fields) ++ r =
      canonicalizeConfig (stripForComparison c'.fields) ++ r') : SameConfig c c' ∧ r = r' := by
  obtain ⟨htext, hrest⟩ := Json.dumps_obj_cancel ⟨[], rfl⟩ c.strip_ok.2 c'.strip_ok.2 h
  exact ⟨canonicalizeConfig_eq_iff.mp htext, hrest⟩

/-- A member's text: its id, its configuration, and tokens. -/
theorem memberFingerprint_eq (h : b.memberCanonical ≠ []) : memberFingerprint sha b =
    b.member.id.str.toList ++ '|' ::
      (canonicalizeConfig (stripForComparison b.member.config.fields) ++ '|' ::
        List.intercalate ['|'] ((sortedSet b.memberCanonical).map String.toList ++
          [b.candidate.id.str.toList, sha (candidateContent b)])) := by
  rw [intercalate_append (by simpa using sortedSet_ne_nil h) (by simp)]
  simp [memberFingerprint, joinedSet, List.intercalate_cons_cons]

/-- Two members' texts, whatever follows. -/
theorem memberFingerprint_cancel (hb : b.Verified) (hb' : b'.Verified)
    (hdigest : ∀ x, IsToken '|' (sha x)) (hr : TokensEnd '|' r) (hr' : TokensEnd '|' r')
    (h : memberFingerprint sha b ++ r = memberFingerprint sha b' ++ r') :
    SameBinding b b' ∧ r = r' := by
  rw [memberFingerprint_eq hb.nonempty, memberFingerprint_eq hb'.nonempty] at h
  simp only [List.append_assoc, List.cons_append] at h
  obtain ⟨hid, h⟩ := List.append_inj h (by rw [length_str, length_str])
  obtain ⟨hconfig, h⟩ := canonicalizeConfig_cancel (List.cons.inj h).2
  have htokens : ∀ {b : Binding}, b.Verified →
      ∀ t ∈ (sortedSet b.memberCanonical).map String.toList ++
        [b.candidate.id.str.toList, sha (candidateContent b)], IsToken '|' t := by
    intro b hb t ht
    rcases List.mem_append.mp ht with hmem | hmem
    · exact tokens_sortedSet hb.tokens t hmem
    · rcases List.mem_pair.mp hmem with rfl | rfl
      · exact isToken_str _
      · exact hdigest _
  obtain ⟨hlist, hend⟩ := tokens_cancel (htokens hb) (htokens hb') (by simp) (by simp) hr hr'
    (List.cons.inj h).2
  obtain ⟨hinstruments, htail⟩ := List.append_inj' hlist (by simp)
  simp only [List.cons.injEq] at htail
  exact ⟨⟨str_inj hid, str_inj htail.1, hconfig, sortedSet_map_inj hinstruments⟩, hend⟩

theorem SameBinding.memberFingerprint_eq (h : SameBinding b b') (hb : b.Verified)
    (hb' : b'.Verified) : memberFingerprint sha b = memberFingerprint sha b' := by
  have hconfig : canonicalizeConfig (stripForComparison b.candidate.config.fields) =
      canonicalizeConfig (stripForComparison b'.candidate.config.fields) := by
    rw [← canonicalizeConfig_eq_iff.mpr hb.config, ← canonicalizeConfig_eq_iff.mpr hb'.config,
      canonicalizeConfig_eq_iff.mpr h.config]
  have hset : sortedSet b.candidateCanonical = sortedSet b'.candidateCanonical := by
    refine sortedSet_eq_iff.mpr fun x => ?_
    rw [← hb.instruments, ← hb'.instruments, h.instruments]
  unfold memberFingerprint candidateContent joinedSet
  rw [h.memberId, h.candidateId, canonicalizeConfig_eq_iff.mpr h.config, hconfig, hset,
    sortedSet_eq_iff.mpr h.instruments]

theorem bindingContent_inj (hdigest : ∀ x, IsToken '|' (sha x)) (hbs : ∀ b ∈ bs, b.Verified)
    (hbs' : ∀ b ∈ bs', b.Verified) (h : bindingContent sha bs = bindingContent sha bs') :
    List.Forall₂ SameBinding bs bs' := by
  have hne : ∀ b : Binding, memberFingerprint sha b ≠ [] := by
    intro b hnil
    have := congrArg List.length hnil
    simp [memberFingerprint, List.intercalate_cons_cons] at this
  induction bs generalizing bs' with
  | nil =>
    cases bs' with
    | nil => exact .nil
    | cons b' bs' =>
      have hcons := intercalate_cons_append ['|', '|'] (memberFingerprint sha b')
        (bs'.map (memberFingerprint sha)) []
      rw [List.append_nil] at hcons
      simp only [bindingContent, List.map_nil, List.map_cons, List.intercalate_nil, hcons] at h
      exact absurd (List.append_eq_nil_iff.mp h.symm).1 (hne b')
  | cons b bs ih =>
    cases bs' with
    | nil =>
      have hcons := intercalate_cons_append ['|', '|'] (memberFingerprint sha b)
        (bs.map (memberFingerprint sha)) []
      rw [List.append_nil] at hcons
      simp only [bindingContent, List.map_nil, List.map_cons, List.intercalate_nil, hcons] at h
      exact absurd (List.append_eq_nil_iff.mp h).1 (hne b)
    | cons b' bs' =>
      have hcons : ∀ (b : Binding) (bs : List Binding), bindingContent sha (b :: bs) =
          memberFingerprint sha b ++
            if bs = [] then [] else '|' :: '|' :: bindingContent sha bs := by
        intro b bs
        have h := intercalate_cons_append ['|', '|'] (memberFingerprint sha b)
          (bs.map (memberFingerprint sha)) []
        simp only [List.append_nil, List.map_eq_nil_iff] at h
        exact h
      have hends : ∀ bs : List Binding, TokensEnd '|'
          (if bs = [] then [] else '|' :: '|' :: bindingContent sha bs) := by
        intro bs
        split
        · exact Or.inl rfl
        · exact Or.inr ⟨_, rfl⟩
      rw [hcons, hcons] at h
      obtain ⟨hsame, hrest⟩ := memberFingerprint_cancel (hbs b List.mem_cons_self)
        (hbs' b' List.mem_cons_self) hdigest (hends bs) (hends bs') h
      refine .cons hsame (ih (fun b hb => hbs b (List.mem_cons_of_mem _ hb))
        (fun b hb => hbs' b (List.mem_cons_of_mem _ hb)) ?_)
      by_cases hnil : bs = []
      · by_cases hnil' : bs' = []
        · rw [hnil, hnil']
        · simp [hnil, hnil'] at hrest
      · by_cases hnil' : bs' = []
        · simp [hnil, hnil'] at hrest
        · simpa [hnil, hnil'] using hrest

theorem bindingContent_congr (h : List.Forall₂ SameBinding bs bs') (hbs : ∀ b ∈ bs, b.Verified)
    (hbs' : ∀ b ∈ bs', b.Verified) : bindingContent sha bs = bindingContent sha bs' := by
  refine congrArg (List.intercalate ['|', '|']) ?_
  induction h with
  | nil => rfl
  | cons hb _ ih =>
    rw [List.map_cons, List.map_cons,
      hb.memberFingerprint_eq (hbs _ List.mem_cons_self) (hbs' _ List.mem_cons_self),
      ih (fun b hb => hbs b (List.mem_cons_of_mem _ hb))
        fun b hb => hbs' b (List.mem_cons_of_mem _ hb)]

theorem exists_bound {str : Json → String} {s : Registry} {asOf : ℕ} {table : List Candidate}
    {existing : Option (Uuid × Status)} {members : List RevisionMember}
    (h : List.Forall₂ (Bound str s asOf table existing) members bs) (hb : b ∈ bs) :
    ∃ m, Bound str s asOf table existing m b := by
  induction h with
  | nil => cases hb
  | cons hhead _ ih =>
    rcases List.mem_cons.mp hb with rfl | hb
    · exact ⟨_, hhead⟩
    · exact ih hb

theorem Bound.verified {str : Json → String} {s : Registry} {asOf : ℕ} {table : List Candidate}
    {existing : Option (Uuid × Status)} {m : RevisionMember}
    (h : Bound str s asOf table existing m b)
    (haliases : ∀ a ∈ s.aliases, IsToken '|' a.aliasString.toList) : b.Verified := by
  obtain ⟨hne, hids⟩ := canonicalIds_spec h.memberCanonical
  refine ⟨h.member ▸ h.config, h.instruments, hne, fun x hx => ?_⟩
  obtain ⟨a, ha, rfl⟩ := hids x hx
  exact haliases a ha

end Determines

/-- **What a fingerprint stands for.**  The fingerprints of two resolved bindings, on any days and
    with any registries, are equal exactly if the bindings have the same members in the same order,
    bound to the same candidates, with configurations that agree and the same sets of instruments:
    provided that no alias is empty or has a bar, and that the two texts do not collide. -/
theorem bindingFingerprint_eq_iff {sha : List Char → List Char} {str : Json → String}
    {s s' : Registry} {asOf asOf' : ℕ} {table table' : List Candidate}
    {existing existing' : Option (Uuid × Status)} {members members' : List RevisionMember}
    {bs bs' : List Binding} (hdigest : ∀ x, IsToken '|' (sha x))
    (hcollision : sha (bindingContent sha bs) = sha (bindingContent sha bs') →
      bindingContent sha bs = bindingContent sha bs')
    (haliases : ∀ a ∈ s.aliases ++ s'.aliases, IsToken '|' a.aliasString.toList)
    (h : resolveBinding str s asOf table existing members = .ok bs)
    (h' : resolveBinding str s' asOf' table' existing' members' = .ok bs') :
    bindingFingerprint sha bs = bindingFingerprint sha bs' ↔ List.Forall₂ SameBinding bs bs' := by
  have hverified : ∀ b ∈ bs, b.Verified := by
    intro b hb
    obtain ⟨m, hbound⟩ := exists_bound (resolveBinding_eq_ok_iff.mp h).2 hb
    exact hbound.verified fun a ha => haliases a (List.mem_append_left _ ha)
  have hverified' : ∀ b ∈ bs', b.Verified := by
    intro b hb
    obtain ⟨m, hbound⟩ := exists_bound (resolveBinding_eq_ok_iff.mp h').2 hb
    exact hbound.verified fun a ha => haliases a (List.mem_append_right _ ha)
  constructor
  · intro hsame
    exact bindingContent_inj hdigest hverified hverified' (hcollision hsame)
  · intro hsame
    exact congrArg sha (bindingContent_congr hsame hverified hverified')

/-- A digest of the right form. -/
def polynomialDigest (text : List Char) : List Char :=
  hexPadded 64 (text.foldl (fun n c => n * 131 + c.toNat) 7 % 16 ^ 64)

theorem isToken_polynomialDigest (text : List Char) : IsToken '|' (polynomialDigest text) := by
  have hlt : text.foldl (fun n c => n * 131 + c.toNat) 7 % 16 ^ 64 < 16 ^ 64 :=
    Nat.mod_lt _ (by norm_num)
  constructor
  · intro hnil
    have := length_hexPadded (by norm_num : 0 < 64) hlt
    rw [show hexPadded 64 _ = [] from hnil] at this
    cases this
  · intro hmem
    obtain ⟨d, hd, h⟩ := mem_hexPadded (by norm_num) hlt hmem
    interval_cases d <;> exact absurd h (by decide)

/-- A share that changes its listing on day 100. -/
def movedShare : Registry where
  definitions := [⟨0, "XYZ", "NASDAQ", "SMART", .equity, .interactiveBrokers⟩]
  aliases :=
    [⟨0, "XYZ.NASDAQ", .exchangeName, none, .interactiveBrokers, 0, some 100⟩,
      ⟨0, "XYZ.ARCA", .exchangeName, none, .interactiveBrokers, 100, none⟩]
  nextUid := 1
  today := 100

def movedFields : JsonObject := [("instruments", .arr [.str "XYZ"]), ("fast", .num "5")]

theorem movedFields_nodup : (Dict.keys movedFields).Nodup := by decide

theorem movedFields_numbersOk : (Json.obj movedFields).NumbersOk := by
  unfold Json.NumbersOk
  decide

def movedConfig : JsonbObject := ⟨movedFields, movedFields_nodup, movedFields_numbersOk⟩

def movedMember : RevisionMember := ⟨1, 2, movedConfig, ["XYZ"]⟩

def movedCandidate : Candidate := ⟨3, 2, "live_candidate", movedConfig, none⟩

def itemText : Json → String
  | .str s => s
  | _ => ""

def movedBinding (aliasString : String) : Binding :=
  ⟨movedMember, movedCandidate, [aliasString], [aliasString]⟩

theorem resolveBinding_moved :
    resolveBinding itemText movedShare 50 [movedCandidate] none [movedMember] =
        .ok [movedBinding "XYZ.NASDAQ"] ∧
      resolveBinding itemText movedShare 150 [movedCandidate] none [movedMember] =
        .ok [movedBinding "XYZ.ARCA"] := by
  constructor
  · refine resolveBinding_eq_ok_iff.mpr ⟨by simp, .cons ?_ .nil⟩
    exact ⟨rfl, Or.inr ⟨nofun, rfl⟩, by decide, rfl, rfl, fun _ _ => rfl, fun _ => Iff.rfl⟩
  · refine resolveBinding_eq_ok_iff.mpr ⟨by simp, .cons ?_ .nil⟩
    exact ⟨rfl, Or.inr ⟨nofun, rfl⟩, by decide, rfl, rfl, fun _ _ => rfl, fun _ => Iff.rfl⟩

/-- The listing that the instrument has moved to is another binding. -/
theorem bindingFingerprint_moved :
    bindingFingerprint polynomialDigest [movedBinding "XYZ.NASDAQ"] ≠
      bindingFingerprint polynomialDigest [movedBinding "XYZ.ARCA"] := by
  have haliases : ∀ a ∈ movedShare.aliases ++ movedShare.aliases,
      IsToken '|' a.aliasString.toList := by
    unfold IsToken
    decide
  rw [Ne, bindingFingerprint_eq_iff isToken_polynomialDigest
    (fun h => absurd h (by decide +kernel)) haliases resolveBinding_moved.1 resolveBinding_moved.2]
  intro h
  obtain ⟨hsame, _⟩ := List.forall₂_cons.mp h
  simpa [movedBinding] using hsame.instruments "XYZ.ARCA"

end Msai.Live.SnapshotBinding
