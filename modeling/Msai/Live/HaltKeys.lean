import Msai.Live.DataFreshness

namespace Msai.Live.HaltKeys

open DataFreshness

/-!
# Halt and freshness keys (`core/halt_keys.py`)

The Redis keys of the fleet halt and of the data-freshness telemetry, and the two Lua
scripts over them.  A script is one function on the store: Redis runs it atomically.

Keys are structured: the source renders them as `msai:risk:halt…`,
`msai:data:freshness:{deployment}:…` and `msai:live:reconciled:{deployment}`.  Values that
the source stores as JSON are kept decoded.  Deadlines are not modelled here.
-/

/-- What the monitor publishes about a feed. -/
inductive Verdict
  | warm
  | pending
  | stale
deriving DecidableEq, Repr

inductive Key
  /-- `fleet_halt_key()` and its companions. -/
  | fleetHalt
  | fleetHaltSetBy
  | fleetHaltSetAt
  /-- `halt_cause_key("fleet")`. -/
  | fleetHaltCause
  | fleetHaltCauseHistory
  /-- Legacy companions of the latch. -/
  | fleetHaltReason
  | fleetHaltSource
  | dataFreshnessManifest (deploymentId : String)
  | dataFreshness (deploymentId dataset nativeBarType : String)
  /-- The per-feed key with `VERDICT_KEY_SUFFIX`. -/
  | dataFreshnessVerdict (deploymentId dataset nativeBarType : String)
  | reconciled (deploymentId : String)
deriving DecidableEq, Repr

/-- One entry of the required-feed manifest. -/
structure ManifestEntry where
  dataset : String
  feed : String
  symbol : String
deriving DecidableEq, Repr

/-- The per-feed freshness row. -/
structure FeedRow where
  lastEventTs : Option ℤ
  lastArrivalTs : Option ℤ
  verdict : Verdict
  phase : Phase
  graceS : Option ℤ
  accountId : String
  nodeId : String
  symbol : String
deriving DecidableEq, Repr

/-- The cause of a data-stale halt. -/
structure Cause where
  reason : String := "data_stale"
  accountId : String
  nodeId : String
  deploymentId : String
  dataset : String
  feed : Option String
  symbol : Option String
  detectedAt : ℤ
  lastEventTs : Option ℤ
deriving DecidableEq, Repr

inductive Value
  | text (s : String)
  | manifest (entries : List ManifestEntry)
  | row (r : FeedRow)
  | verdict (v : Verdict)
  | cause (c : Cause)
  | history (cs : List Cause)
deriving DecidableEq, Repr

/-- The database, restricted to these keys. -/
abbrev Redis := Key → Option Value

namespace Redis

/-- `SET`. -/
def set (r : Redis) (k : Key) (v : Value) : Redis := Function.update r k (some v)

/-- `SET … NX`. -/
def setNx (r : Redis) (k : Key) (v : Value) : Redis :=
  if (r k).isSome then r else r.set k v

/-- `DEL` of several keys. -/
def del (r : Redis) (ks : List Key) : Redis := fun k => if k ∈ ks then none else r k

/-- The list stored at a key; a missing key is the empty list. -/
def listAt (r : Redis) (k : Key) : List Cause :=
  match r k with
  | some (.history cs) => cs
  | _ => []

/-- `LPUSH` and `LTRIM 0 49`. -/
def pushCapped (r : Redis) (k : Key) (c : Cause) : Redis :=
  r.set k (.history ((c :: r.listAt k).take 50))

end Redis

/-- `HALT_WRITE_LUA`. -/
def haltWriteLua (setBy setAt : String) (cause : Cause) (r : Redis) : Redis :=
  ((((r.set .fleetHalt (.text "true")).set .fleetHaltSetBy (.text setBy)).set .fleetHaltSetAt
    (.text setAt)).setNx .fleetHaltCause (.cause cause)).pushCapped .fleetHaltCauseHistory cause

/-- The answers of `RESUME_CLEAR_LUA`. -/
inductive ClearResult
  | ok
  | manifestMissing (k : Key)
  | manifestChanged (k : Key)
  | verdictMissing (k : Key)
  | verdictNotWarm (k : Key)
  | reconciledMissing (k : Key)
deriving DecidableEq, Repr

/-- The manifest must still be the one the probe read. -/
def checkManifest (r : Redis) (expected : Key × Value) : Option ClearResult :=
  match r expected.1 with
  | none => some (.manifestMissing expected.1)
  | some current => if current ≠ expected.2 then some (.manifestChanged expected.1) else none

/-- The verdict must be `warm`. -/
def checkVerdict (r : Redis) (k : Key) : Option ClearResult :=
  match r k with
  | none => some (.verdictMissing k)
  | some v => if v ≠ .verdict .warm then some (.verdictNotWarm k) else none

/-- The reconciliation marker must exist. -/
def checkReconciled (r : Redis) (k : Key) : Option ClearResult :=
  match r k with
  | none => some (.reconciledMissing k)
  | some _ => none

/-- `RESUME_CLEAR_LUA`: the first failing check answers, else the `delete` keys go. -/
def resumeClearLua (manifests : List (Key × Value)) (verdicts reconciled delete : List Key)
    (r : Redis) : ClearResult × Redis :=
  match (manifests.findSome? (checkManifest r)).or
      ((verdicts.findSome? (checkVerdict r)).or (reconciled.findSome? (checkReconciled r))) with
  | some failure => (failure, r)
  | none => (.ok, r.del delete)

/-- The keys `/resume` deletes. -/
def haltKeyset : List Key :=
  [.fleetHalt, .fleetHaltSetBy, .fleetHaltSetAt, .fleetHaltCause, .fleetHaltCauseHistory,
    .fleetHaltReason, .fleetHaltSource]

section Scripts

variable {r : Redis} {k : Key} {v : Value} {setBy setAt : String} {cause : Cause}

@[simp] theorem set_same : r.set k v k = some v := Function.update_self ..

theorem set_other {k' : Key} (h : k' ≠ k) : r.set k v k' = r k' := Function.update_of_ne h ..

private theorem pushCapped_other {k' : Key} (h : k' ≠ k) : r.pushCapped k cause k' = r k' :=
  set_other h

private theorem setNx_other {k' : Key} (h : k' ≠ k) : r.setNx k v k' = r k' := by
  unfold Redis.setNx
  by_cases hk : (r k).isSome = true
  · rw [if_pos hk]
  · rw [if_neg hk]
    exact set_other h

/-- The halt script sets the latch. -/
theorem haltWriteLua_latch : haltWriteLua setBy setAt cause r .fleetHalt = some (.text "true") := by
  unfold haltWriteLua
  rw [pushCapped_other (by decide), setNx_other (by decide), set_other (by decide),
    set_other (by decide), set_same]

/-- The halt script touches only keys of the halt keyset. -/
theorem haltWriteLua_other (h : k ∉ haltKeyset) : haltWriteLua setBy setAt cause r k = r k := by
  simp only [haltKeyset, List.mem_cons, List.not_mem_nil, or_false, not_or] at h
  unfold haltWriteLua
  rw [pushCapped_other h.2.2.2.2.1, setNx_other h.2.2.2.1, set_other h.2.2.1, set_other h.2.1,
    set_other h.1]

/-- What a clear has verified. -/
structure ClearChecks (manifests : List (Key × Value)) (verdicts reconciled : List Key)
    (r : Redis) : Prop where
  manifests : ∀ e ∈ manifests, r e.1 = some e.2
  verdicts : ∀ k ∈ verdicts, r k = some (.verdict .warm)
  reconciled : ∀ k ∈ reconciled, r k ≠ none

private theorem checkManifest_eq_none {e : Key × Value} (h : checkManifest r e = none) :
    r e.1 = some e.2 := by
  unfold checkManifest at h
  split at h
  · cases h
  · rename_i current hcur
    split at h
    · cases h
    · rename_i heq
      rw [hcur, not_not.mp heq]

private theorem checkVerdict_eq_none (h : checkVerdict r k = none) :
    r k = some (.verdict .warm) := by
  unfold checkVerdict at h
  split at h
  · cases h
  · rename_i v hv
    split at h
    · cases h
    · rename_i heq
      rw [hv, not_not.mp heq]

private theorem checkReconciled_eq_none (h : checkReconciled r k = none) : r k ≠ none := by
  intro hnone
  unfold checkReconciled at h
  rw [hnone] at h
  cases h

/-- **Spec of the clear.**  Either every check holds and exactly the `delete` keys are gone,
    or the answer is not `OK` and nothing changed. -/
theorem resumeClearLua_spec (manifests : List (Key × Value)) (verdicts reconciled delete : List Key)
    (r : Redis) :
    (ClearChecks manifests verdicts reconciled r ∧
      resumeClearLua manifests verdicts reconciled delete r = (.ok, r.del delete)) ∨
    ((resumeClearLua manifests verdicts reconciled delete r).2 = r) := by
  unfold resumeClearLua
  split
  · exact .inr rfl
  · rename_i hnone
    obtain ⟨hm, hnone⟩ := Option.or_eq_none_iff.mp hnone
    obtain ⟨hv, hr⟩ := Option.or_eq_none_iff.mp hnone
    rw [List.findSome?_eq_none_iff] at hm hv hr
    exact .inl ⟨⟨fun e he => checkManifest_eq_none (hm e he),
      fun k hk => checkVerdict_eq_none (hv k hk),
      fun k hk => checkReconciled_eq_none (hr k hk)⟩, rfl⟩

end Scripts

end Msai.Live.HaltKeys
