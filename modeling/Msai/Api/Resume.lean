import Msai.Lib.IndexedFold
import Msai.Lib.PyJson
import Msai.Lib.PyText
import Msai.Live.ResumeScript

namespace Msai.Api.Resume

open Msai.Lib Msai.Live.ResumeScript

/-!
# Fleet resume (`live_resume` in `api/live.py`)

The handler probes the freshness manifest, the reconciliation marker and the verdict of every
listed feed of each active deployment, and then runs `RESUME_CLEAR_LUA` on what it has read.

* `probeFeed`, `probeDeployment` — the probe, which stops at the first deployment that is not ready;
* `liveResume` — the request: the probe, the script and its answer, the `stop_unknown` clean-up;
* `probeDeployment_ready` — what the probe of one deployment leaves in the lists for the script.

`world n` is the database as the `n`-th command of the request finds it; between two commands
anything may happen.  `loads` is `json.loads`; a text with a lone surrogate, which cannot be sent
to Redis, counts as one of its other errors.
-/

/-- How `json.loads` fails. -/
inductive LoadsError
  /-- `ValueError` or `TypeError`. -/
  | valueError
  /-- Any other exception, such as `RecursionError`. -/
  | other
deriving DecidableEq, Repr

/-- How the request raises. -/
inductive Raised
  | http (status : ℕ) (code message : String)
  /-- An exception that no handler here catches. -/
  | other
deriving DecidableEq, Repr

/-- `_resume_blocked_data_stale`. -/
def resumeBlockedDataStale {α : Type} (message : String) : Except Raised α :=
  .error (.http 409 "RESUME_BLOCKED_DATA_STALE" message)

/-- `_resume_blocked_reconciliation`. -/
def resumeBlockedReconciliation {α : Type} (deploymentId : String) : Except Raised α :=
  .error (.http 409 "RESUME_BLOCKED_RECONCILIATION"
    ("deployment " ++ deploymentId ++ " has no reconciliation marker — "
      ++ "node not proven reconciled; refusing to resume"))

/-! ### The manifest -/

/-- What the handler reads of a manifest entry. -/
structure ManifestEntry where
  dataset : String
  feed : String
deriving DecidableEq, Repr

/-- `isinstance(entry.get(name), str) and entry.get(name)`. -/
def getText (fields : List (String × Json)) (name : String) : Option String :=
  match fields.lookup name with
  | some (.str s) => if s = "" then none else some s
  | _ => none

/-- The shape check of one entry. -/
def readEntry : Json → Option ManifestEntry
  | .obj fields =>
    match getText fields "dataset", getText fields "feed" with
    | some dataset, some feed => some { dataset := dataset, feed := feed }
    | _, _ => none
  | _ => none

/-- The shape check of the manifest. -/
def readManifest : Json → Option (List ManifestEntry)
  | .arr items => items.mapM readEntry
  | _ => none

variable (loads : String → Except LoadsError Json) (world : ℕ → Store)

/-- The feeds listed in a manifest, if it is well formed. -/
def listedFeeds (raw : String) : Option (List ManifestEntry) :=
  match loads raw with
  | .ok manifest => readManifest manifest
  | .error _ => none

/-- The key of a verdict. -/
def verdictKey (depId : String) (entry : ManifestEntry) : Option String :=
  (dataFreshnessKey depId entry.dataset entry.feed).map (· ++ verdictKeySuffix)

/-- The parse and the shape check of the manifest of a deployment. -/
def loadManifest (depId raw : String) : Except Raised (List ManifestEntry) :=
  match loads raw with
  | .error .other => .error .other
  | .error .valueError =>
    resumeBlockedDataStale ("deployment " ++ depId ++ " freshness manifest is malformed")
  | .ok manifest =>
    match readManifest manifest with
    | none => resumeBlockedDataStale ("deployment " ++ depId ++ " freshness manifest is malformed")
    | some entries => .ok entries

/-! ### The probe -/

/-- A key function that raises `ValueError` on an empty argument. -/
def orValueError (key : Option String) : Except Raised String :=
  match key with
  | some k => .ok k
  | none => .error .other

/-- `redis.get` with decoded responses, as the command after `reads`. -/
def get (reads : List String) (key : String) : Except Raised (Option String) :=
  match world reads.length key with
  | none => .ok none
  | some (.text s) => .ok (some s)
  | some _ => .error .other

/-- The variables of the loop over the feeds of a deployment. -/
structure FeedProbe where
  /-- The keys of the commands so far. -/
  reads : List String
  staleFeeds : List String := []
  pendingFeeds : List String := []
  verdictKeys : List String
  feedsVerified : List String
deriving DecidableEq, Repr

/-- One round of the loop over the feeds. -/
def probeFeed (depId : String) (f : FeedProbe) (entry : ManifestEntry) :
    Except Raised FeedProbe := do
  let feedLabel := depId ++ ":" ++ entry.dataset ++ ":" ++ entry.feed
  let key ← orValueError (verdictKey depId entry)
  let verdict ← get world f.reads key
  let f := { f with reads := f.reads ++ [key] }
  if verdict = some "pending" then
    return { f with pendingFeeds := f.pendingFeeds ++ [feedLabel] }
  if verdict ≠ some "warm" then
    return { f with staleFeeds := f.staleFeeds ++ [feedLabel] }
  return { f with
    verdictKeys := f.verdictKeys ++ [key]
    feedsVerified := f.feedsVerified ++ [feedLabel] }

/-- The variables of the loop over the deployments. -/
structure Probe where
  /-- The keys of the commands so far. -/
  reads : List String := []
  /-- `manifest_keys` and `expected_manifests`, which grow together. -/
  manifests : List (String × String) := []
  verdictKeys : List String := []
  reconciledKeys : List String := []
  feedsVerified : List String := []
  reconciledVerified : List String := []
deriving DecidableEq, Repr

/-- One round of the loop over the deployments. -/
def probeDeployment (p : Probe) (depId : String) : Except Raised Probe := do
  let manifestKey ← orValueError (dataFreshnessManifestKey depId)
  match ← get world p.reads manifestKey with
  | none =>
    resumeBlockedDataStale ("deployment " ++ depId ++ " has no data-freshness manifest "
      ++ "(monitor not running) — cannot prove feeds are warm")
  | some rawManifest =>
    let manifest ← loadManifest loads depId rawManifest
    let reconciledMarker ← orValueError (reconciledKey depId)
    let reads := p.reads ++ [manifestKey]
    if (world reads.length reconciledMarker).isNone then
      resumeBlockedReconciliation depId
    else
      let f ← manifest.foldlM (probeFeed world depId)
        { reads := reads ++ [reconciledMarker]
          verdictKeys := p.verdictKeys
          feedsVerified := p.feedsVerified }
      if f.pendingFeeds ≠ [] then
        resumeBlockedDataStale ("refusing to resume — no data observed yet (within startup "
          ++ "grace) for feed(s): " ++ String.intercalate ", " f.pendingFeeds)
      else if f.staleFeeds ≠ [] then
        resumeBlockedDataStale ("refusing to resume — stale/absent feed(s): "
          ++ String.intercalate ", " f.staleFeeds)
      else
        return {
          reads := f.reads
          manifests := p.manifests ++ [(manifestKey, rawManifest)]
          verdictKeys := f.verdictKeys
          reconciledKeys := p.reconciledKeys ++ [reconciledMarker]
          feedsVerified := f.feedsVerified
          reconciledVerified := p.reconciledVerified ++ [depId] }

/-! ### The request -/

/-- `delete_keys`. -/
def deleteKeys : List String :=
  [fleetHaltKey, fleetHaltKey ++ ":set_by", fleetHaltKey ++ ":set_at", fleetHaltCauseKey,
    fleetHaltCauseKey ++ ":history", fleetHaltKey ++ ":reason", fleetHaltKey ++ ":source"]

/-- `LiveResumeResponse`. -/
structure Response where
  resumed : Bool
  resumedBy : Option String
  activeDeploymentsChecked : ℕ
  feedsVerified : List String
  reconciledVerified : List String
deriving DecidableEq, Repr

/-- The call of `RESUME_CLEAR_LUA`. -/
structure ScriptCall where
  /-- The keys of the commands in front of it. -/
  reads : List String
  keys : List String
  argv : List String
  /-- The database as the script found it, and as it left it. -/
  before : Store
  after : Store
  reply : Reply

/-- What the request does. -/
structure Run where
  outcome : Except Raised Response
  call : Option ScriptCall := none
  /-- The keys the clean-up behind the script deletes. -/
  cleaned : List String := []

/-- `s.partition(":")`, without the separator. -/
def partition (s : String) : String × String :=
  let cs := s.toList
  (String.ofList (cs.takeWhile (· ≠ ':')), String.ofList ((cs.dropWhile (· ≠ ':')).drop 1))

/-- The 409 for an answer other than `OK`. -/
def refused {α : Type} (result : String) : Except Raised α :=
  let (reason, offending) := partition result
  if reason = "RECONCILED_MISSING" then
    resumeBlockedReconciliation (if offending = "" then "(unknown)" else offending)
  else if reason = "MANIFEST_CHANGED" then
    resumeBlockedDataStale ("refusing to resume — manifest changed during resume "
      ++ "(feed universe differs from the probed value) on key " ++ offending
      ++ "; the monitor re-published a different required-feed set — retry resume")
  else
    resumeBlockedDataStale ("refusing to resume — precondition re-check failed (" ++ reason
      ++ ") on key " ++ offending)

/-- The call of the script on what has been probed. -/
def clear (p : Probe) : ScriptCall :=
  let keys := layoutKeys p.manifests p.verdictKeys p.reconciledKeys deleteKeys
  let argv := layoutArgv p.manifests p.verdictKeys p.reconciledKeys
  let before := world p.reads.length
  let result := resumeClearLua keys argv before
  { reads := p.reads, keys := keys, argv := argv, before := before, after := result.2,
    reply := result.1 }

/-- `live_resume`.  `scanned` are the keys that `scan_iter` yields, and that are deleted, before it
    ends or fails. -/
def liveResume (userId : Option String) (scanned activeDeployments : List String) : Run :=
  match activeDeployments.foldlM (probeDeployment loads world) {} with
  | .error e => { outcome := .error e }
  | .ok p =>
    let call := clear world p
    match call.reply with
    | .error => { outcome := .error .other, call := some call }
    | .text result =>
      if result ≠ "OK" then { outcome := refused result, call := some call }
      else
        { outcome := .ok {
            resumed := true
            resumedBy := userId
            activeDeploymentsChecked := activeDeployments.length
            feedsVerified := p.feedsVerified
            reconciledVerified := p.reconciledVerified }
          call := some call
          cleaned := scanned.filter (PyText.startsWith · "stop_unknown:") }

/-! ### What the probe leaves for the script -/

variable {loads : String → Except LoadsError Json} {world : ℕ → Store} {depId : String}

theorem get_eq_some {reads : List String} {key s : String}
    (h : get world reads key = .ok (some s)) : world reads.length key = some (.text s) := by
  unfold get at h
  split at h
  · cases h
  · rename_i t htext
    obtain rfl := Option.some.inj (Except.ok.inj h)
    exact htext
  · cases h

theorem orValueError_ok {key : Option String} {k : String} (h : orValueError key = .ok k) :
    key = some k := by
  unfold orValueError at h
  split at h
  · rw [Except.ok.inj h]
  · cases h

theorem loadManifest_ok {raw : String} {entries : List ManifestEntry}
    (h : loadManifest loads depId raw = .ok entries) : listedFeeds loads raw = some entries := by
  unfold loadManifest at h
  unfold listedFeeds
  split at h
  · cases h
  · cases h
  · rename_i manifest hloads
    rw [hloads]
    split at h
    · cases h
    · rename_i entries' hread
      rw [← Except.ok.inj h]
      exact hread

private theorem getElem?_of_prefix {l l' : List String} {n : ℕ} {a : String} (h : l <+: l')
    (ha : l[n]? = some a) : l'[n]? = some a := by
  obtain ⟨t, rfl⟩ := h
  rw [List.getElem?_append_left (List.getElem?_eq_some_iff.mp ha).1, ha]

/-- Only appended to. -/
structure FeedProbe.Extends (f f' : FeedProbe) : Prop where
  reads : f.reads <+: f'.reads
  staleFeeds : f.staleFeeds <+: f'.staleFeeds
  pendingFeeds : f.pendingFeeds <+: f'.pendingFeeds
  verdictKeys : f.verdictKeys <+: f'.verdictKeys

/-- The feed has been reported, or its verdict is among those to be checked again. -/
def FeedProbe.Accounts (depId : String) (entry : ManifestEntry) (f : FeedProbe) : Prop :=
  f.pendingFeeds = [] → f.staleFeeds = [] →
    ∃ key ∈ f.verdictKeys, verdictKey depId entry = some key

theorem probeFeed_step {f f' : FeedProbe} {entry : ManifestEntry}
    (h : probeFeed world depId f entry = .ok f') : f.Extends f' ∧ f'.Accounts depId entry := by
  unfold probeFeed at h
  obtain ⟨key, hkey, h⟩ := except_bind_eq_ok h
  obtain ⟨verdict, -, h⟩ := except_bind_eq_ok h
  replace hkey := orValueError_ok hkey
  by_cases hpending : verdict = some "pending"
  · rw [if_pos hpending] at h
    obtain rfl := Except.ok.inj h
    refine ⟨⟨List.prefix_append .., List.prefix_rfl, List.prefix_append .., List.prefix_rfl⟩, ?_⟩
    intro hnil
    exact absurd hnil (List.append_ne_nil_of_right_ne_nil _ (List.cons_ne_nil _ _))
  · rw [if_neg hpending] at h
    by_cases hwarm : verdict ≠ some "warm"
    · rw [if_pos hwarm] at h
      obtain rfl := Except.ok.inj h
      refine ⟨⟨List.prefix_append .., List.prefix_append .., List.prefix_rfl, List.prefix_rfl⟩, ?_⟩
      intro _ hnil
      exact absurd hnil (List.append_ne_nil_of_right_ne_nil _ (List.cons_ne_nil _ _))
    · rw [if_neg hwarm] at h
      obtain rfl := Except.ok.inj h
      refine ⟨⟨List.prefix_append .., List.prefix_rfl, List.prefix_rfl, List.prefix_append ..⟩, ?_⟩
      intro _ _
      exact ⟨key, List.mem_append_right _ List.mem_cons_self, hkey⟩

/-- The loop over the feeds accounts for every one of them. -/
theorem probeFeeds_run {entries : List ManifestEntry} {f f' : FeedProbe}
    (h : entries.foldlM (probeFeed world depId) f = .ok f') :
    f.Extends f' ∧ ∀ entry ∈ entries, f'.Accounts depId entry := by
  refine foldlM_ok_marks (R := FeedProbe.Extends) (Q := fun entry f => f.Accounts depId entry)
    ?_ ?_ ?_ (fun s a t hstep => probeFeed_step hstep) h
  · intro s
    exact ⟨List.prefix_rfl, List.prefix_rfl, List.prefix_rfl, List.prefix_rfl⟩
  · intro s t u hst htu
    exact ⟨hst.reads.trans htu.reads, hst.staleFeeds.trans htu.staleFeeds,
      hst.pendingFeeds.trans htu.pendingFeeds, hst.verdictKeys.trans htu.verdictKeys⟩
  · intro entry s t hst hs hpending hstale
    have hp : s.pendingFeeds = [] := List.prefix_nil.mp (hpending ▸ hst.pendingFeeds)
    have hs' : s.staleFeeds = [] := List.prefix_nil.mp (hstale ▸ hst.staleFeeds)
    obtain ⟨key, hkey, heq⟩ := hs hp hs'
    exact ⟨key, hst.verdictKeys.subset hkey, heq⟩

/-- Only appended to. -/
structure Probe.Extends (p p' : Probe) : Prop where
  reads : p.reads <+: p'.reads
  manifests : p.manifests <+: p'.manifests
  verdictKeys : p.verdictKeys <+: p'.verdictKeys
  reconciledKeys : p.reconciledKeys <+: p'.reconciledKeys

/-- What the script is given for a deployment: the manifest as one of the commands has read it, the
    verdict of every feed listed there, and the marker. -/
def Probe.Ready (loads : String → Except LoadsError Json) (world : ℕ → Store) (depId : String)
    (p : Probe) : Prop :=
  ∃ manifestKey raw entries marker n,
    dataFreshnessManifestKey depId = some manifestKey ∧
    p.reads[n]? = some manifestKey ∧ world n manifestKey = some (.text raw) ∧
    (manifestKey, raw) ∈ p.manifests ∧
    listedFeeds loads raw = some entries ∧
    (∀ entry ∈ entries, ∃ key ∈ p.verdictKeys, verdictKey depId entry = some key) ∧
    reconciledKey depId = some marker ∧ marker ∈ p.reconciledKeys

/-- What the probe of one deployment leaves in the lists for the script. -/
theorem probeDeployment_ready {p p' : Probe} (h : probeDeployment loads world p depId = .ok p') :
    p.Extends p' ∧ p'.Ready loads world depId := by
  unfold probeDeployment at h
  obtain ⟨manifestKey, hkey, h⟩ := except_bind_eq_ok h
  obtain ⟨raw?, hget, h⟩ := except_bind_eq_ok h
  cases raw? with
  | none => cases h
  | some raw =>
    obtain ⟨entries, hload, h⟩ := except_bind_eq_ok h
    obtain ⟨marker, hmarker, h⟩ := except_bind_eq_ok h
    dsimp only at h
    split at h
    · cases h
    · obtain ⟨f, hfeeds, h⟩ := except_bind_eq_ok h
      split at h
      · cases h
      · rename_i hpending
        split at h
        · cases h
        · rename_i hstale
          obtain rfl := Except.ok.inj h
          obtain ⟨hext, haccounts⟩ := probeFeeds_run hfeeds
          have hreads : p.reads ++ [manifestKey] <+: f.reads :=
            (List.prefix_append ..).trans hext.reads
          refine ⟨⟨(List.prefix_append ..).trans hreads, List.prefix_append .., hext.verdictKeys,
            List.prefix_append ..⟩, manifestKey, raw, entries, marker, p.reads.length,
            orValueError_ok hkey, ?_, get_eq_some hget, List.mem_append_right _ List.mem_cons_self,
            loadManifest_ok hload, ?_, orValueError_ok hmarker,
            List.mem_append_right _ List.mem_cons_self⟩
          · exact getElem?_of_prefix hreads List.getElem?_concat_length
          · intro entry hentry
            exact haccounts entry hentry (not_not.mp hpending) (not_not.mp hstale)

theorem probe_run {deps : List String} {p p' : Probe}
    (h : deps.foldlM (probeDeployment loads world) p = .ok p') :
    p.Extends p' ∧ ∀ depId ∈ deps, p'.Ready loads world depId := by
  refine foldlM_ok_marks (R := Probe.Extends) (Q := fun depId p => p.Ready loads world depId)
    ?_ ?_ ?_ (fun s a t hstep => probeDeployment_ready hstep) h
  · intro s
    exact ⟨List.prefix_rfl, List.prefix_rfl, List.prefix_rfl, List.prefix_rfl⟩
  · intro s t u hst htu
    exact ⟨hst.reads.trans htu.reads, hst.manifests.trans htu.manifests,
      hst.verdictKeys.trans htu.verdictKeys, hst.reconciledKeys.trans htu.reconciledKeys⟩
  · rintro depId s t hst
      ⟨manifestKey, raw, entries, marker, n, hkey, hread, hraw, hmem, hlisted, hfeeds, hmarker,
        hreconciled⟩
    refine ⟨manifestKey, raw, entries, marker, n, hkey, ?_, hraw, hst.manifests.subset hmem,
      hlisted, ?_, hmarker, hst.reconciledKeys.subset hreconciled⟩
    · exact getElem?_of_prefix hst.reads hread
    · intro entry hentry
      obtain ⟨key, hmem, heq⟩ := hfeeds entry hentry
      exact ⟨key, hst.verdictKeys.subset hmem, heq⟩

/-! ### All or nothing -/

/-- When the script ran, the deployment had the manifest that was probed, a verdict `warm` for
    every feed listed there, and a reconciliation marker. -/
def ScriptCall.Rechecked (loads : String → Except LoadsError Json) (world : ℕ → Store)
    (call : ScriptCall) (depId : String) : Prop :=
  ∃ manifestKey raw entries marker n,
    dataFreshnessManifestKey depId = some manifestKey ∧
    call.reads[n]? = some manifestKey ∧ world n manifestKey = some (.text raw) ∧
    call.before manifestKey = some (.text raw) ∧
    listedFeeds loads raw = some entries ∧
    (∀ entry ∈ entries, ∃ key, verdictKey depId entry = some key ∧
      call.before key = some (.text "warm")) ∧
    reconciledKey depId = some marker ∧ (call.before marker).isSome = true

/-- What the script has verified is what the probe has read. -/
theorem Probe.Ready.rechecked {p : Probe} (hready : p.Ready loads world depId)
    (hverified : Verified p.manifests p.verdictKeys p.reconciledKeys (world p.reads.length)) :
    (clear world p).Rechecked loads world depId := by
  obtain ⟨manifestKey, raw, entries, marker, n, hkey, hread, hraw, hmem, hlisted, hfeeds, hmarker,
    hreconciled⟩ := hready
  refine ⟨manifestKey, raw, entries, marker, n, hkey, hread, hraw, hverified.manifests _ hmem,
    hlisted, ?_, hmarker, hverified.reconciled _ hreconciled⟩
  intro entry hentry
  obtain ⟨key, hmem, heq⟩ := hfeeds entry hentry
  exact ⟨key, heq, hverified.verdicts _ hmem⟩

/-- The script has verified everything and left no halt key, or it has left the database as it
    was. -/
theorem clear_cases (world : ℕ → Store) (p : Probe) :
    (Verified p.manifests p.verdictKeys p.reconciledKeys (world p.reads.length) ∧
      (clear world p).reply = .text "OK" ∧
      (clear world p).after = (clear world p).before.delAll deleteKeys) ∨
    ((clear world p).reply ≠ .text "OK" ∧ (clear world p).after = (clear world p).before) := by
  have hlua : resumeClearLua (clear world p).keys (clear world p).argv (clear world p).before
      = clearBySegments p.manifests p.verdictKeys p.reconciledKeys deleteKeys
          (world p.reads.length) := resumeClearLua_eq
  have hreply : (clear world p).reply = (clearBySegments p.manifests p.verdictKeys
      p.reconciledKeys deleteKeys (world p.reads.length)).1 := congrArg Prod.fst hlua
  have hafter : (clear world p).after = (clearBySegments p.manifests p.verdictKeys
      p.reconciledKeys deleteKeys (world p.reads.length)).2 := congrArg Prod.snd hlua
  rcases clearBySegments_spec p.manifests p.verdictKeys p.reconciledKeys deleteKeys
    (world p.reads.length) with ⟨hverified, heq⟩ | ⟨reply, hne, heq⟩
  · rw [heq] at hreply hafter
    exact Or.inl ⟨hverified, hreply, hafter⟩
  · rw [heq] at hreply hafter
    exact Or.inr ⟨hreply ▸ hne, hafter⟩

theorem refused_raises {α : Type} (result : String) : ∃ e, refused (α := α) result = .error e := by
  unfold refused
  dsimp only
  split
  · exact ⟨_, rfl⟩
  · split
    · exact ⟨_, rfl⟩
    · exact ⟨_, rfl⟩

/-- A halt key the request has deleted. -/
def Run.Deleted (run : Run) (key : String) : Prop :=
  key ∈ run.cleaned ∨ ∃ call, run.call = some call ∧ call.after key ≠ call.before key

/-- Nothing is deleted when nothing is cleaned up and the script leaves the database as it was. -/
theorem Run.not_deleted {run : Run} (hclean : run.cleaned = [])
    (hcall : ∀ call, run.call = some call → call.after = call.before) (key : String) :
    ¬ run.Deleted key := by
  rintro (hmem | ⟨call, hrun, hne⟩)
  · rw [hclean] at hmem
    exact absurd hmem List.not_mem_nil
  · exact hne (congrFun (hcall call hrun) key)

/-- **Inversion.**  The script has verified what all the probes read and has deleted the halt keys,
    or the request raises and leaves them. -/
theorem liveResume_cases (loads : String → Except LoadsError Json) (world : ℕ → Store)
    (userId : Option String) (scanned activeDeployments : List String) :
    (∃ p, activeDeployments.foldlM (probeDeployment loads world) {} = .ok p ∧
      (liveResume loads world userId scanned activeDeployments).call = some (clear world p) ∧
      Verified p.manifests p.verdictKeys p.reconciledKeys (world p.reads.length) ∧
      (clear world p).after = (clear world p).before.delAll deleteKeys) ∨
    ((∃ e, (liveResume loads world userId scanned activeDeployments).outcome = .error e) ∧
      ∀ key, ¬ (liveResume loads world userId scanned activeDeployments).Deleted key) := by
  unfold liveResume
  cases activeDeployments.foldlM (probeDeployment loads world) {} with
  | error e => exact Or.inr ⟨⟨e, rfl⟩, Run.not_deleted rfl fun _ h => by cases h⟩
  | ok p =>
    dsimp only
    rcases clear_cases world p with ⟨hverified, hreply, hafter⟩ | ⟨hreply, hafter⟩
    · -- the script has answered `OK`
      rw [hreply]
      exact Or.inl ⟨p, rfl, rfl, hverified, hafter⟩
    · -- another answer, or an error
      have hcall : ∀ call, some (clear world p) = some call → call.after = call.before := by
        intro call h
        rw [← Option.some.inj h]
        exact hafter
      split
      · exact Or.inr ⟨⟨_, rfl⟩, Run.not_deleted rfl hcall⟩
      · rename_i result htext
        have hne : result ≠ "OK" := fun h => hreply (h ▸ htext)
        rw [if_pos hne]
        exact Or.inr ⟨refused_raises result, Run.not_deleted rfl hcall⟩

/-- The request deletes all seven halt keys behind a complete recheck, or it raises and has deleted
    none; and for lists of every length the script reads each position of `KEYS` and `ARGV` as
    what the handler has put there. -/
theorem resume_all_or_nothing (loads : String → Except LoadsError Json) (world : ℕ → Store)
    (userId : Option String) (scanned activeDeployments : List String) :
    let run := liveResume loads world userId scanned activeDeployments
    ((∃ call, run.call = some call ∧ call.before = world call.reads.length ∧
        (∀ key ∈ deleteKeys, call.after key = none) ∧
        ∀ depId ∈ activeDeployments, call.Rechecked loads world depId) ∨
      ((∃ e, run.outcome = .error e) ∧ ∀ key ∈ deleteKeys, ¬ run.Deleted key)) ∧
    ∀ manifests verdicts reconciled delete r,
      resumeClearLua (layoutKeys manifests verdicts reconciled delete)
          (layoutArgv manifests verdicts reconciled) r
        = clearBySegments manifests verdicts reconciled delete r := by
  intro run
  refine ⟨?_, fun _ _ _ _ _ => resumeClearLua_eq⟩
  rcases liveResume_cases loads world userId scanned activeDeployments with
    ⟨p, hprobe, hcall, hverified, hafter⟩ | ⟨herror, hkept⟩
  · refine Or.inl ⟨clear world p, hcall, rfl, ?_, ?_⟩
    · intro key hkey
      rw [hafter, Store.delAll_apply, if_pos hkey]
    · intro depId hdep
      exact ((probe_run hprobe).2 depId hdep).rechecked hverified
  · exact Or.inr ⟨herror, fun key _ => hkept key⟩

end Msai.Api.Resume
