import Msai.Api.Resume
import Msai.Lib.Dict
import Msai.Lib.LastWrite
import Msai.Lib.PyInt
import Msai.Supervisor.Rows

namespace Msai.Api.DataHealth

open Msai.Lib Msai.Live.ResumeScript Msai.Api.Resume Msai.Supervisor

/-!
# The data-feed health of the fleet (`services/observability/data_health.py`)

One reader feeds the operator's window (`GET /live/data-health`) and the gauges of a scrape: for
each active deployment the manifest of its feeds, and for each listed feed its row and its verdict.
A read that fails leaves the response as good as it can be and marks the collection, so that no
gauge is replaced.

* `readManifest`, `readDeploymentFeeds`, `collectDataHealth` — the reader;
* `hydrateMetricsFromSnapshot` — the gauges, and `scrapeStep` a scrape;
* `resume_iff_window` — what the window shows is what the resume gate asks for;
* `datasetAlive_iff` — the gauges show the last clean collection, and no dead feed as alive.

A collection reads no key twice, so that what its commands answer is a function of the key.  The
age of a feed is a gauge of floats and left out.
-/

/-! ### Redis -/

/-- What the commands of one collection answer, with decoded responses; `none` is a command that
    raises. -/
structure Redis where
  exists' : String → Option Bool
  get : String → Option (Option String)
  mget : List String → Option (String → Option String)
  /-- `scan_iter(match=…)`, to its end. -/
  scanIter : String → Option (List String)

/-- `_redis_get`. -/
def redisGet (redis : Redis) (key : String) : Option String := (redis.get key).join

/-- `_redis_mget_checked`. -/
def redisMgetChecked (redis : Redis) (keys : List String) : List (Option String) × Bool :=
  if keys = [] then ([], true)
  else
    match redis.mget keys with
    | none => (keys.map fun _ => none, false)
    | some value => (keys.map value, true)

/-- The text of a key. -/
def textAt (r : Store) (key : String) : Option String :=
  match r key with
  | some (.text s) => some s
  | _ => none

/-- The commands on a database that nothing else changes meanwhile.  A string that is not UTF-8
    cannot be decoded; GET raises on a key of another type, MGET answers nil. -/
def Redis.ofStore (r : Store) (scanIter : String → Option (List String)) : Redis where
  exists' key := some (r key).isSome
  get key :=
    match r key with
    | none => some none
    | some (.text s) => some (some s)
    | some _ => none
  mget keys :=
    if keys.any fun key => match r key with | some (.binary _) => true | _ => false then none
    else some (textAt r)
  scanIter := scanIter

/-! ### The rows -/

/-- The columns of a `live_deployments` row that the reader needs; `id` is the text of a UUID. -/
structure Deployment where
  id : String
  id_ne : id ≠ ""
  status : Status
  accountId : Option String
deriving DecidableEq

/-- The rows that `ACTIVE_DEPLOYMENT_STATUSES` selects. -/
def activeDeployments (deployments : List Deployment) : List Deployment :=
  deployments.filter fun d => d.status.isActive

/-- A well-formed entry of a manifest. -/
structure FeedEntry where
  dataset : String
  feed : String
  symbol : Option String
  dataset_ne : dataset ≠ ""
  feed_ne : feed ≠ ""
deriving DecidableEq

theorem isSome_dataFreshnessKey (d : Deployment) (e : FeedEntry) :
    (dataFreshnessKey d.id e.dataset e.feed).isSome = true := by
  simp [dataFreshnessKey, d.id_ne, e.dataset_ne, e.feed_ne]

/-- `data_freshness_key` of an entry. -/
def feedKey (d : Deployment) (e : FeedEntry) : String :=
  (dataFreshnessKey d.id e.dataset e.feed).get (isSome_dataFreshnessKey d e)

/-- What the monitor writes into the row of a feed. -/
structure Payload where
  accountId : Option String := none
  nodeId : Option String := none
  symbol : Option String := none
  lastEventTs : Option ℤ := none
  phase : Option String := none
  graceS : Option ℤ := none
  publishedAt : Option String := none
deriving DecidableEq, Repr

structure FeedHealth where
  accountId : Option String
  nodeId : Option String
  deploymentId : String
  dataset : String
  feed : String
  symbol : Option String
  lastEventTs : Option ℤ
  phase : Option String
  graceS : Option ℤ
  verdict : String
  publishedAt : Option String
deriving DecidableEq, Repr

inductive MissingReason
  | manifestAbsent
  | manifestMalformed
  /-- `_MANIFEST_READ_FAILED`. -/
  | manifestReadFailed
deriving DecidableEq, Repr

structure MonitorMissing where
  deploymentId : String
  accountId : Option String
  reason : MissingReason
deriving DecidableEq, Repr

structure DataHealthSnapshot where
  feeds : List FeedHealth := []
  monitorMissing : List MonitorMissing := []
  fleetHalted : Bool := false
  haltCause : Option (List (String × Json)) := none
  pacingByAccount : Dict String ℤ := []
  staleHaltsByAccount : Dict String ℤ := []
  collectionOk : Bool := true

/-! ### The reader -/

section Reader

variable (loads : String → Except Resume.LoadsError Json) (decodeRow : String → Payload)
  (wideDigit : ℕ → Option ℕ) (redis : Redis)

/-- `_read_manifest`. -/
def readManifest (d : Deployment) : Except Raised (Except MissingReason (List Json)) :=
  match (dataFreshnessManifestKey d.id).bind redis.get with
  | none => .ok (.error .manifestReadFailed)
  | some none => .ok (.error .manifestAbsent)
  | some (some raw) =>
    match loads raw with
    | .error .other => .error .other
    | .error .valueError => .ok (.error .manifestMalformed)
    | .ok (.arr items) => .ok (.ok items)
    | .ok _ => .ok (.error .manifestMalformed)

/-- `_read_fleet_halt`. -/
def readFleetHalt : Except Raised (Bool × Option (List (String × Json)) × Bool) :=
  match redis.exists' fleetHaltKey with
  | none => .ok (false, none, false)
  | some halted =>
    match redisGet redis fleetHaltCauseKey with
    | none => .ok (halted, none, true)
    | some raw =>
      match loads raw with
      | .error .other => .error .other
      | .ok (.obj fields) => .ok (halted, some fields, true)
      | _ => .ok (halted, none, true)

/-- `_scan_account_counters`; `match` is the prefix and a star. -/
def scanAccountCounters (front : String) : Dict String ℤ × Bool :=
  match redis.scanIter (front ++ "*") with
  | none => ([], false)
  | some keys =>
    let accountOf key := String.ofList (key.toList.drop front.length)
    let scanned := keys.filter fun key => accountOf key ≠ ""
    let (values, ok) := redisMgetChecked redis scanned
    let count (p : String × Option String) : Option (String × ℤ) :=
      (p.2.bind fun raw => PyInt.intText wideDigit 10 (codes raw.toList)).map fun n =>
        (accountOf p.1, n)
    (Dict.build count (scanned.zip values), ok)

/-- `_read_pacing_counters`. -/
def readPacingCounters : Dict String ℤ × Bool :=
  scanAccountCounters wideDigit redis "msai:metrics:ib_exec_pacing:"

/-- `_read_data_stale_halts_counters`. -/
def readDataStaleHaltsCounters : Dict String ℤ × Bool :=
  scanAccountCounters wideDigit redis "msai:metrics:data_stale_halts:"

/-- The shape check of one entry. -/
def readFeedEntry : Json → Option FeedEntry
  | .obj fields =>
    match fields.lookup "dataset", fields.lookup "feed" with
    | some (.str dataset), some (.str feed) =>
      if h : dataset ≠ "" ∧ feed ≠ "" then
        some
          { dataset := dataset
            feed := feed
            symbol := match fields.lookup "symbol" with | some (.str s) => some s | _ => none
            dataset_ne := h.1
            feed_ne := h.2 }
      else none
    | _, _ => none
  | _ => none

/-- `a or b`. -/
def orElse (a b : Option String) : Option String :=
  match a with
  | some s => if s = "" then b else some s
  | none => b

/-- The health of one feed, from its row and the verdict beside it. -/
def feedHealth (d : Deployment) (e : FeedEntry) (rawRow rawVerdict : Option String) : FeedHealth :=
  match rawRow with
  | none =>
    { accountId := d.accountId, nodeId := none, deploymentId := d.id, dataset := e.dataset
      feed := e.feed, symbol := e.symbol, lastEventTs := none, phase := none, graceS := none
      verdict := "missing", publishedAt := none }
  | some raw =>
    let payload := decodeRow raw
    { accountId := orElse payload.accountId d.accountId
      nodeId := payload.nodeId
      deploymentId := d.id
      dataset := e.dataset
      feed := e.feed
      symbol := orElse payload.symbol e.symbol
      lastEventTs := payload.lastEventTs
      phase := payload.phase
      graceS := payload.graceS
      -- the verdict beside the row, not the one in it
      verdict := (orElse rawVerdict none).getD "missing"
      publishedAt := payload.publishedAt }

/-- `_read_deployment_feeds`: the rows, why there are none, and whether the MGETs succeeded. -/
def readDeploymentFeeds (d : Deployment) :
    Except Raised (List FeedHealth × Option MissingReason × Bool) :=
  (readManifest loads redis d).map fun
    | .error reason => ([], some reason, true)
    | .ok items =>
      match items.mapM readFeedEntry with
      | none => ([], some .manifestMalformed, true)
      | some entries =>
        let keys := entries.map (feedKey d)
        let (rows, rowsOk) := redisMgetChecked redis keys
        let (verdicts, verdictsOk) := redisMgetChecked redis (keys.map (· ++ verdictKeySuffix))
        (List.zipWith (fun e p => feedHealth decodeRow d e p.1 p.2) entries (rows.zip verdicts),
          none, rowsOk && verdictsOk)

/-- A feed without a row is on the node of the other feeds of its deployment. -/
def inheritNode (rows : List FeedHealth) : List FeedHealth :=
  match rows.findSome? FeedHealth.nodeId with
  | none => rows
  | some node =>
    rows.map fun f => if f.nodeId = none then { f with nodeId := some node } else f

/-- One round of the loop over the deployments. -/
def collectDeployment (snapshot : DataHealthSnapshot) (d : Deployment) :
    Except Raised DataHealthSnapshot :=
  (readDeploymentFeeds loads decodeRow redis d).map fun (rows, reason, ok) =>
    let snapshot :=
      { snapshot with
        feeds := snapshot.feeds ++ inheritNode rows
        collectionOk := snapshot.collectionOk && ok }
    match reason with
    | none => snapshot
    | some .manifestReadFailed => { snapshot with collectionOk := false }
    | some reason =>
      if d.status ≠ .running then snapshot
      else
        { snapshot with
          monitorMissing := snapshot.monitorMissing ++ [⟨d.id, d.accountId, reason⟩] }

/-- `collect_data_health`; the rows are `none` where the query raises. -/
def collectDataHealth (deployments : Option (List Deployment)) :
    Except Raised DataHealthSnapshot := do
  let (fleetHalted, haltCause, haltOk) ← readFleetHalt loads redis
  let (pacing, pacingOk) := readPacingCounters wideDigit redis
  let (staleHalts, staleOk) := readDataStaleHaltsCounters wideDigit redis
  let snapshot : DataHealthSnapshot :=
    { fleetHalted := fleetHalted
      haltCause := haltCause
      pacingByAccount := pacing
      staleHaltsByAccount := staleHalts
      collectionOk := haltOk && pacingOk && staleOk }
  match deployments with
  | none => return { snapshot with collectionOk := false }
  | some rows => (activeDeployments rows).foldlM (collectDeployment loads decodeRow redis) snapshot

end Reader

/-! ### The gauges -/

/-- The labels of a feed. -/
structure FeedLabels where
  account : String
  node : String
  dataset : String
  symbol : String
  feed : String
deriving DecidableEq, Repr

/-- The labels of `msai_databento_dataset_alive`. -/
structure DatasetLabels where
  account : String
  node : String
  dataset : String
deriving DecidableEq, Repr

/-- `value or "unknown"`. -/
def orUnknown (value : Option String) : String := (orElse value none).getD "unknown"

def FeedHealth.labels (f : FeedHealth) : FeedLabels where
  account := orUnknown f.accountId
  node := orUnknown f.nodeId
  dataset := f.dataset
  symbol := orUnknown f.symbol
  feed := f.feed

def FeedHealth.datasetLabels (f : FeedHealth) : DatasetLabels where
  account := orUnknown f.accountId
  node := orUnknown f.nodeId
  dataset := f.dataset

/-- The children of the gauges. -/
structure Gauges where
  feedStale : Dict FeedLabels ℕ
  datasetAlive : Dict DatasetLabels ℕ
  pacingErrors : Dict String ℤ
  staleHalts : Dict String ℤ
  monitorMissing : Dict String ℕ

/-- `Gauge.replace_children`. -/
def replaceChildren {κ ν : Type} [DecidableEq κ] (samples : List (κ × ν)) : Dict κ ν :=
  Dict.build some samples

/-- `dataset_all_warm`. -/
def datasetAllWarm (feeds : List FeedHealth) : Dict DatasetLabels Bool :=
  feeds.foldl
    (fun allWarm f =>
      Dict.set allWarm f.datasetLabels
        ((Dict.get allWarm f.datasetLabels).getD true && f.verdict == "warm"))
    []

/-- The children of a snapshot. -/
def gaugesOf (snapshot : DataHealthSnapshot) : Gauges where
  feedStale := replaceChildren
    (snapshot.feeds.map fun f => (f.labels, if f.verdict ≠ "warm" then 1 else 0))
  datasetAlive := replaceChildren
    ((datasetAllWarm snapshot.feeds).map fun p => (p.1, if p.2 then 1 else 0))
  pacingErrors := replaceChildren snapshot.pacingByAccount
  staleHalts := replaceChildren snapshot.staleHaltsByAccount
  monitorMissing := replaceChildren (snapshot.monitorMissing.map fun m => (m.deploymentId, 1))

/-- `hydrate_metrics_from_snapshot`. -/
def hydrateMetricsFromSnapshot (gauges : Gauges) (snapshot : DataHealthSnapshot) : Gauges :=
  if snapshot.collectionOk then gaugesOf snapshot else gauges

/-- A call of `hydrate_data_health_metrics`: what its commands answer, and whether the hydration
    raises in front of the first gauge. -/
structure Scrape where
  redis : Redis
  deployments : Option (List Deployment)
  hydrationRaises : Bool

section Scrapes

variable (loads : String → Except Resume.LoadsError Json) (decodeRow : String → Payload)
  (wideDigit : ℕ → Option ℕ)

def scrapeStep (gauges : Gauges) (scrape : Scrape) : Gauges :=
  match collectDataHealth loads decodeRow wideDigit scrape.redis scrape.deployments with
  | .error _ => gauges
  | .ok snapshot =>
    if scrape.hydrationRaises then gauges else hydrateMetricsFromSnapshot gauges snapshot

/-- The snapshot of a scrape that reaches the gauges. -/
def Scrape.landed (scrape : Scrape) : Option DataHealthSnapshot :=
  match collectDataHealth loads decodeRow wideDigit scrape.redis scrape.deployments with
  | .error _ => none
  | .ok snapshot =>
    if scrape.hydrationRaises || !snapshot.collectionOk then none else some snapshot

end Scrapes

/-! ### The two readers of a manifest -/

section Listed

variable {loads : String → Except Resume.LoadsError Json} {decodeRow : String → Payload}
  {scan : String → Option (List String)} {r : Store} {d : Deployment} {e : FeedEntry}
  {entries : List FeedEntry}

theorem textAt_eq_some {key s : String} : textAt r key = some s ↔ r key = some (.text s) := by
  unfold textAt
  cases h : r key with
  | none => simp
  | some v => cases v <;> simp

/-- The feeds that the manifest of a deployment lists, if it is there and well formed. -/
def listedEntries (loads : String → Except Resume.LoadsError Json) (r : Store) (d : Deployment) :
    Option (List FeedEntry) :=
  match (dataFreshnessManifestKey d.id).bind (textAt r) with
  | none => none
  | some raw =>
    match loads raw with
    | .ok (.arr items) => items.mapM readFeedEntry
    | _ => none

def FeedEntry.entry (e : FeedEntry) : ManifestEntry := { dataset := e.dataset, feed := e.feed }

theorem getText_eq_some {fields : List (String × Json)} {name s : String} :
    getText fields name = some s ↔ fields.lookup name = some (.str s) ∧ s ≠ "" := by
  unfold getText
  cases h : fields.lookup name with
  | none => simp
  | some j =>
    cases j with
    | str s' =>
      by_cases hs : s' = ""
      · simp [hs]
      · simp only [if_neg hs, Option.some.injEq, Json.str.injEq]
        exact ⟨fun heq => ⟨heq, heq ▸ hs⟩, fun heq => heq.1⟩
    | _ => simp

theorem readFeedEntry_eq_some {j : Json} (h : readFeedEntry j = some e) :
    readEntry j = some e.entry := by
  cases j with
  | obj fields =>
    simp only [readFeedEntry] at h
    split at h
    · rename_i dataset feed hdataset hfeed
      split at h
      · rename_i hne
        obtain rfl := Option.some.inj h
        simp only [readEntry, getText_eq_some.mpr ⟨hdataset, hne.1⟩,
          getText_eq_some.mpr ⟨hfeed, hne.2⟩]
        rfl
      · cases h
    · cases h
  | _ => cases h

theorem readFeedEntry_eq_none {j : Json} (h : readFeedEntry j = none) : readEntry j = none := by
  cases j with
  | obj fields =>
    simp only [readEntry]
    split
    · rename_i dataset feed hdataset hfeed
      obtain ⟨hdataset, hdataset_ne⟩ := getText_eq_some.mp hdataset
      obtain ⟨hfeed, hfeed_ne⟩ := getText_eq_some.mp hfeed
      simp [readFeedEntry, hdataset, hfeed, hdataset_ne, hfeed_ne] at h
    · rfl
  | _ => rfl

/-- The handler of the resume reads an entry alike. -/
theorem readEntry_eq (j : Json) : readEntry j = (readFeedEntry j).map FeedEntry.entry := by
  cases h : readFeedEntry j with
  | none => exact readFeedEntry_eq_none h
  | some e => exact readFeedEntry_eq_some h

theorem readEntries_eq (items : List Json) :
    items.mapM readEntry = (items.mapM readFeedEntry).map (List.map FeedEntry.entry) := by
  induction items with
  | nil => rfl
  | cons j items ih =>
    rw [List.mapM_cons, List.mapM_cons, ih, readEntry_eq]
    cases readFeedEntry j with
    | none => rfl
    | some e =>
      cases items.mapM readFeedEntry with
      | none => rfl
      | some entries => rfl

/-- The handler finds the same feeds in a manifest. -/
theorem listedFeeds_eq {key raw : String} (hkey : dataFreshnessManifestKey d.id = some key)
    (hraw : r key = some (.text raw)) :
    listedFeeds loads raw = (listedEntries loads r d).map (List.map FeedEntry.entry) := by
  have htext : (dataFreshnessManifestKey d.id).bind (textAt r) = some raw := by
    rw [hkey]
    exact textAt_eq_some.mpr hraw
  unfold listedFeeds listedEntries
  rw [htext]
  dsimp only
  cases loads raw with
  | error e => rfl
  | ok manifest =>
    cases manifest with
    | arr items => exact readEntries_eq items
    | _ => rfl

theorem exists_manifestKey (d : Deployment) :
    ∃ key, dataFreshnessManifestKey d.id = some key := ⟨_, if_neg d.id_ne⟩

end Listed

/-! ### The window on a quiet database -/

section Window

variable {loads : String → Except Resume.LoadsError Json} {decodeRow : String → Payload}
  {wideDigit : ℕ → Option ℕ} {scan : String → Option (List String)} {r : Store} {d : Deployment}
  {e : FeedEntry} {rows : List FeedHealth} {reason : Option MissingReason}
  {snapshot snapshot' : DataHealthSnapshot}

/-- A feed as the window shows it. -/
def windowRow (decodeRow : String → Payload) (r : Store) (d : Deployment) (e : FeedEntry) :
    FeedHealth :=
  feedHealth decodeRow d e (textAt r (feedKey d e)) (textAt r (feedKey d e ++ verdictKeySuffix))

theorem redisMgetChecked_ofStore {keys : List String}
    (h : (redisMgetChecked (Redis.ofStore r scan) keys).2 = true) :
    redisMgetChecked (Redis.ofStore r scan) keys = (keys.map (textAt r), true) := by
  unfold redisMgetChecked at h ⊢
  by_cases hkeys : keys = []
  · simp [hkeys]
  · rw [if_neg hkeys] at h ⊢
    cases hmget : (Redis.ofStore r scan).mget keys with
    | none => simp [hmget] at h
    | some value =>
      have hvalue : value = textAt r := by
        simp only [Redis.ofStore] at hmget
        split at hmget
        · cases hmget
        · exact (Option.some.inj hmget).symm
      rw [hvalue]

/-- The rows of a deployment are those of its manifest, or the manifest is amiss. -/
theorem readDeploymentFeeds_ofStore
    (h : readDeploymentFeeds loads decodeRow (Redis.ofStore r scan) d = .ok (rows, reason, true)) :
    (reason = none ∧ ∃ entries, listedEntries loads r d = some entries ∧
      rows = entries.map (windowRow decodeRow r d)) ∨
    (rows = [] ∧ listedEntries loads r d = none ∧ ∃ why, reason = some why) := by
  obtain ⟨key, hkey⟩ := exists_manifestKey d
  obtain ⟨manifest, hmanifest, h⟩ := except_map_eq_ok h
  unfold readManifest at hmanifest
  unfold listedEntries
  rw [hkey] at hmanifest ⊢
  simp only [Option.bind_some] at hmanifest ⊢
  cases hr : r key with
  | none =>
    have hget : (Redis.ofStore r scan).get key = some none := by simp [Redis.ofStore, hr]
    rw [hget] at hmanifest
    cases hmanifest
    cases h
    exact Or.inr ⟨rfl, by simp [textAt, hr], _, rfl⟩
  | some v =>
    cases v with
    | text raw =>
      have hget : (Redis.ofStore r scan).get key = some (some raw) := by simp [Redis.ofStore, hr]
      rw [hget] at hmanifest
      have htext : textAt r key = some raw := textAt_eq_some.mpr hr
      rw [htext]
      dsimp only at hmanifest ⊢
      split at hmanifest
      · cases hmanifest
      · rename_i hloads
        cases hmanifest
        cases h
        exact Or.inr ⟨rfl, by rw [hloads], _, rfl⟩
      · rename_i items hloads
        cases hmanifest
        rw [hloads]
        dsimp only at h ⊢
        cases hentries : items.mapM readFeedEntry with
        | none =>
          rw [hentries] at h
          cases h
          exact Or.inr ⟨rfl, rfl, _, rfl⟩
        | some entries =>
          rw [hentries] at h
          obtain ⟨hrows, hreason, hok⟩ := Prod.mk.inj h |>.imp id Prod.mk.inj
          obtain ⟨hrowsOk, hverdictsOk⟩ := Bool.and_eq_true_iff.mp hok
          refine Or.inl ⟨hreason.symm, entries, rfl, ?_⟩
          rw [← hrows, redisMgetChecked_ofStore hrowsOk, redisMgetChecked_ofStore hverdictsOk]
          simp only [List.map_map, List.zip_map', List.zipWith_map_right, List.zipWith_self]
          rfl
      · rename_i hother hloads
        cases hmanifest
        cases h
        refine Or.inr ⟨rfl, ?_, _, rfl⟩
        rw [hloads]
        split
        · rename_i items heq
          exact absurd (Except.ok.inj heq) (hother items)
        · rfl
    | binary _ | otherType =>
      have hget : (Redis.ofStore r scan).get key = none := by simp [Redis.ofStore, hr]
      rw [hget] at hmanifest
      cases hmanifest
      cases h
      exact Or.inr ⟨rfl, by simp [textAt, hr], _, rfl⟩

theorem inheritNode_eq_map (rows : List FeedHealth) : ∃ node : FeedHealth → Option String,
    inheritNode rows = rows.map fun f => { f with nodeId := node f } := by
  unfold inheritNode
  cases rows.findSome? FeedHealth.nodeId with
  | none => exact ⟨FeedHealth.nodeId, (List.map_id' rows).symm⟩
  | some node =>
    refine ⟨fun f => if f.nodeId = none then some node else f.nodeId, ?_⟩
    refine List.map_congr_left fun f _ => ?_
    by_cases hf : f.nodeId = none <;> simp [hf]

theorem map_inheritNode {β : Type} {g : FeedHealth → β}
    (hg : ∀ f node, g { f with nodeId := node } = g f) :
    (inheritNode rows).map g = rows.map g := by
  obtain ⟨node, hnode⟩ := inheritNode_eq_map rows
  rw [hnode, List.map_map]
  exact List.map_congr_left fun f _ => hg f _

theorem forall_inheritNode {P : FeedHealth → Prop}
    (hP : ∀ f node, P { f with nodeId := node } ↔ P f) :
    (∀ f ∈ inheritNode rows, P f) ↔ ∀ f ∈ rows, P f := by
  obtain ⟨node, hnode⟩ := inheritNode_eq_map rows
  rw [hnode, List.forall_mem_map]
  exact forall_congr' fun f => forall_congr' fun _ => hP f _

/-- What the window shows of a deployment. -/
def windowRows (loads : String → Except Resume.LoadsError Json) (decodeRow : String → Payload)
    (r : Store) (d : Deployment) : List FeedHealth :=
  inheritNode (((listedEntries loads r d).getD []).map (windowRow decodeRow r d))

/-- One deployment, in a clean collection. -/
theorem collectDeployment_ofStore
    (h : collectDeployment loads decodeRow (Redis.ofStore r scan) snapshot d = .ok snapshot')
    (hok : snapshot'.collectionOk = true) :
    snapshot.collectionOk = true ∧
    snapshot'.feeds = snapshot.feeds ++ windowRows loads decodeRow r d ∧
    (snapshot'.monitorMissing = [] ↔ snapshot.monitorMissing = [] ∧
      (d.status = .running → (listedEntries loads r d).isSome = true)) := by
  obtain ⟨⟨rows, reason, ok⟩, hread, rfl⟩ := except_map_eq_ok h
  dsimp only at hok ⊢
  -- a failed MGET marks the collection
  have hreadOk : ok = true := by
    cases ok with
    | true => rfl
    | false =>
      simp only [Bool.and_false] at hok
      split at hok
      · cases hok
      · cases hok
      · split at hok <;> cases hok
  subst hreadOk
  rcases readDeploymentFeeds_ofStore hread with ⟨rfl, entries, hentries, rfl⟩ |
    ⟨rfl, hentries, why, rfl⟩
  · refine ⟨by simpa using hok, ?_, ?_⟩
    · simp [windowRows, hentries]
    · simp [hentries]
  · have hrows : windowRows loads decodeRow r d = [] := by simp [windowRows, hentries, inheritNode]
    cases why with
    | manifestReadFailed => cases hok
    | manifestAbsent | manifestMalformed =>
      by_cases hrunning : d.status = .running
      · simp only [hrunning, ne_eq, not_true_eq_false, if_false] at hok ⊢
        simp_all [inheritNode]
      · simp only [ne_eq, hrunning, not_false_eq_true, if_true] at hok ⊢
        simp_all [inheritNode]

/-- **The window of a quiet database**, in a clean collection. -/
theorem collect_ofStore {ds : List Deployment}
    (h : ds.foldlM (collectDeployment loads decodeRow (Redis.ofStore r scan)) snapshot
      = .ok snapshot') (hok : snapshot'.collectionOk = true) :
    snapshot.collectionOk = true ∧
    snapshot'.feeds = snapshot.feeds ++ ds.flatMap (windowRows loads decodeRow r) ∧
    (snapshot'.monitorMissing = [] ↔ snapshot.monitorMissing = [] ∧
      ∀ d ∈ ds, d.status = .running → (listedEntries loads r d).isSome = true) := by
  induction ds generalizing snapshot with
  | nil =>
    obtain rfl := Except.ok.inj h
    simp [hok]
  | cons d ds ih =>
    rw [List.foldlM_cons] at h
    obtain ⟨next, hstep, h⟩ := except_bind_eq_ok h
    obtain ⟨hnext, hfeeds, hmissing⟩ := ih h
    obtain ⟨hclean, hrows, hreported⟩ := collectDeployment_ofStore hstep hnext
    refine ⟨hclean, ?_, ?_⟩
    · rw [hfeeds, hrows, List.flatMap_cons, List.append_assoc]
    · rw [hmissing, hreported, List.forall_mem_cons, and_assoc]

end Window

/-! ### The gate on a quiet database -/

section Gate

variable {loads : String → Except Resume.LoadsError Json} {r : Store} {d : Deployment}
  {entries : List FeedEntry} {f f' : FeedProbe} {p p' : Probe}

/-- What the gate asks of a deployment with these feeds. -/
structure Passes (loads : String → Except Resume.LoadsError Json) (r : Store) (d : Deployment)
    (entries : List FeedEntry) : Prop where
  listed : listedEntries loads r d = some entries
  reconciled : ∃ marker, reconciledKey d.id = some marker ∧ (r marker).isSome = true
  warm : ∀ e ∈ entries, r (feedKey d e ++ verdictKeySuffix) = some (.text "warm")

/-- How the handler names a feed. -/
def feedLabel (d : Deployment) (e : FeedEntry) : String := d.id ++ ":" ++ e.dataset ++ ":" ++ e.feed

theorem verdictKey_entry (d : Deployment) (e : FeedEntry) :
    verdictKey d.id e.entry = some (feedKey d e ++ verdictKeySuffix) := by
  show (dataFreshnessKey d.id e.dataset e.feed).map (· ++ verdictKeySuffix) = _
  rw [← Option.some_get (isSome_dataFreshnessKey d e)]
  rfl

theorem get_of_text {reads : List String} {key s : String} (h : r key = some (.text s)) :
    Resume.get (fun _ => r) reads key = .ok (some s) := by
  simp only [Resume.get, h]

/-- The state of the loop behind a warm feed. -/
def verifyFeed (f : FeedProbe) (d : Deployment) (e : FeedEntry) : FeedProbe :=
  { f with
    reads := f.reads ++ [feedKey d e ++ verdictKeySuffix]
    verdictKeys := f.verdictKeys ++ [feedKey d e ++ verdictKeySuffix]
    feedsVerified := f.feedsVerified ++ [feedLabel d e] }

theorem probeFeed_of_warm {e : FeedEntry}
    (h : r (feedKey d e ++ verdictKeySuffix) = some (.text "warm")) :
    probeFeed (fun _ => r) d.id f e.entry = .ok (verifyFeed f d e) := by
  unfold probeFeed
  rw [verdictKey_entry]
  show (Resume.get (fun _ => r) f.reads (feedKey d e ++ verdictKeySuffix) >>= _) = _
  rw [get_of_text h]
  rfl

/-- A round that reports nothing has read `warm`. -/
theorem warm_of_probeFeed {e : FeedEntry} (h : probeFeed (fun _ => r) d.id f e.entry = .ok f')
    (hpending : f'.pendingFeeds = []) (hstale : f'.staleFeeds = []) :
    r (feedKey d e ++ verdictKeySuffix) = some (.text "warm") := by
  unfold probeFeed at h
  rw [verdictKey_entry] at h
  obtain ⟨key, hkey, h⟩ := except_bind_eq_ok h
  obtain rfl := Except.ok.inj hkey
  obtain ⟨verdict, hget, h⟩ := except_bind_eq_ok h
  by_cases hp : verdict = some "pending"
  · rw [if_pos hp] at h
    obtain rfl := Except.ok.inj h
    exact absurd hpending (List.append_ne_nil_of_right_ne_nil _ (List.cons_ne_nil _ _))
  · rw [if_neg hp] at h
    by_cases hw : verdict ≠ some "warm"
    · rw [if_pos hw] at h
      obtain rfl := Except.ok.inj h
      exact absurd hstale (List.append_ne_nil_of_right_ne_nil _ (List.cons_ne_nil _ _))
    · rw [not_not.mp hw] at hget
      exact get_eq_some hget

/-- The loop over the feeds: it reports none of them exactly if all are warm. -/
theorem probeFeeds_of_warm
    (h : ∀ e ∈ entries, r (feedKey d e ++ verdictKeySuffix) = some (.text "warm")) :
    (entries.map FeedEntry.entry).foldlM (probeFeed (fun _ => r) d.id) f
      = .ok (entries.foldl (fun f e => verifyFeed f d e) f) := by
  induction entries generalizing f with
  | nil => rfl
  | cons e entries ih =>
    obtain ⟨hwarm, hrest⟩ := List.forall_mem_cons.mp h
    rw [List.map_cons, List.foldlM_cons, probeFeed_of_warm hwarm]
    exact ih hrest

theorem warm_of_probeFeeds
    (h : (entries.map FeedEntry.entry).foldlM (probeFeed (fun _ => r) d.id) f = .ok f')
    (hpending : f'.pendingFeeds = []) (hstale : f'.staleFeeds = []) :
    ∀ e ∈ entries, r (feedKey d e ++ verdictKeySuffix) = some (.text "warm") := by
  induction entries generalizing f with
  | nil => exact fun e he => absurd he List.not_mem_nil
  | cons e entries ih =>
    rw [List.map_cons, List.foldlM_cons] at h
    obtain ⟨next, hstep, h⟩ := except_bind_eq_ok h
    obtain ⟨hext, -⟩ := probeFeeds_run h
    refine List.forall_mem_cons.mpr ⟨warm_of_probeFeed hstep ?_ ?_, ih h⟩
    · exact List.prefix_nil.mp (hpending ▸ hext.pendingFeeds)
    · exact List.prefix_nil.mp (hstale ▸ hext.staleFeeds)

theorem foldl_verifyFeed :
    entries.foldl (fun f e => verifyFeed f d e) f =
      { f with
        reads := f.reads ++ entries.map fun e => feedKey d e ++ verdictKeySuffix
        verdictKeys := f.verdictKeys ++ entries.map fun e => feedKey d e ++ verdictKeySuffix
        feedsVerified := f.feedsVerified ++ entries.map (feedLabel d) } := by
  induction entries generalizing f with
  | nil => simp
  | cons e entries ih =>
    rw [List.foldl_cons, ih]
    simp [verifyFeed]

theorem exists_raw (h : listedEntries loads r d = some entries) :
    ∃ key raw, dataFreshnessManifestKey d.id = some key ∧ r key = some (.text raw) := by
  obtain ⟨key, hkey⟩ := exists_manifestKey d
  unfold listedEntries at h
  rw [hkey, Option.bind_some] at h
  split at h
  · cases h
  · rename_i raw hraw
    exact ⟨key, raw, hkey, textAt_eq_some.mp hraw⟩

theorem loadManifest_of_listed {raw : String} {feeds : List ManifestEntry}
    (h : listedFeeds loads raw = some feeds) : loadManifest loads d.id raw = .ok feeds := by
  unfold listedFeeds at h
  unfold loadManifest
  split at h
  · rename_i manifest hloads
    simp only [hloads, h]
  · cases h

/-- The lists for the script behind a deployment. -/
def passDeployment (p : Probe) (d : Deployment) (entries : List FeedEntry)
    (key raw marker : String) : Probe where
  reads := p.reads ++ [key] ++ [marker] ++ entries.map fun e => feedKey d e ++ verdictKeySuffix
  manifests := p.manifests ++ [(key, raw)]
  verdictKeys := p.verdictKeys ++ entries.map fun e => feedKey d e ++ verdictKeySuffix
  reconciledKeys := p.reconciledKeys ++ [marker]
  feedsVerified := p.feedsVerified ++ entries.map (feedLabel d)
  reconciledVerified := p.reconciledVerified ++ [d.id]

/-- A deployment is let through if it passes. -/
theorem probeDeployment_of_passes (h : Passes loads r d entries) :
    ∃ key raw marker, r key = some (.text raw) ∧ (r marker).isSome = true ∧
      probeDeployment loads (fun _ => r) p d.id
        = .ok (passDeployment p d entries key raw marker) := by
  obtain ⟨key, raw, hkey, hraw⟩ := exists_raw h.listed
  obtain ⟨marker, hmarker, hthere⟩ := h.reconciled
  have hlisted : listedFeeds loads raw = _ := listedFeeds_eq hkey hraw
  rw [h.listed] at hlisted
  refine ⟨key, raw, marker, hraw, hthere, ?_⟩
  have hnone : ¬ (r marker).isNone = true := by simpa [Option.isSome_iff_ne_none] using hthere
  unfold probeDeployment
  rw [hkey]
  show (Resume.get (fun _ => r) p.reads key >>= _) = _
  rw [get_of_text hraw]
  show (loadManifest loads d.id raw >>= _) = _
  rw [loadManifest_of_listed hlisted, hmarker]
  show (if (r marker).isNone = true then _ else _) = _
  rw [if_neg hnone, probeFeeds_of_warm h.warm, foldl_verifyFeed]
  rfl

/-- What is let through passes. -/
theorem passes_of_probeDeployment (h : probeDeployment loads (fun _ => r) p d.id = .ok p') :
    ∃ entries, Passes loads r d entries := by
  unfold probeDeployment at h
  obtain ⟨key, hkey, h⟩ := except_bind_eq_ok h
  obtain ⟨raw?, hget, h⟩ := except_bind_eq_ok h
  cases raw? with
  | none => cases h
  | some raw =>
    obtain ⟨feeds, hload, h⟩ := except_bind_eq_ok h
    obtain ⟨marker, hmarker, h⟩ := except_bind_eq_ok h
    dsimp only at h
    split at h
    · cases h
    · rename_i hthere
      obtain ⟨f, hfeeds, h⟩ := except_bind_eq_ok h
      split at h
      · cases h
      · rename_i hpending
        split at h
        · cases h
        · rename_i hstale
          have hlisted : listedFeeds loads _ = _ :=
            listedFeeds_eq (orValueError_ok hkey) (get_eq_some hget)
          rw [loadManifest_ok hload] at hlisted
          obtain ⟨entries, hentries, rfl⟩ := Option.map_eq_some_iff.mp hlisted.symm
          exact ⟨entries, hentries,
            ⟨marker, orValueError_ok hmarker, by simpa [Option.isSome_iff_ne_none] using hthere⟩,
            warm_of_probeFeeds hfeeds (not_not.mp hpending) (not_not.mp hstale)⟩

/-- The feeds of the manifests, by the names the handler gives them. -/
def feedLabels (loads : String → Except Resume.LoadsError Json) (r : Store) (d : Deployment) :
    List String :=
  ((listedEntries loads r d).getD []).map (feedLabel d)

theorem Verified.passDeployment {entries : List FeedEntry} {key raw marker : String}
    (h : Verified p.manifests p.verdictKeys p.reconciledKeys r)
    (hpasses : Passes loads r d entries) (hraw : r key = some (.text raw))
    (hmarker : (r marker).isSome = true) :
    Verified (passDeployment p d entries key raw marker).manifests
      (passDeployment p d entries key raw marker).verdictKeys
      (passDeployment p d entries key raw marker).reconciledKeys r where
  manifests := List.forall_mem_append.mpr ⟨h.manifests, by simpa using hraw⟩
  verdicts := List.forall_mem_append.mpr ⟨h.verdicts, by simpa using hpasses.warm⟩
  reconciled := List.forall_mem_append.mpr ⟨h.reconciled, by simpa using hmarker⟩

/-- The loop over the deployments. -/
theorem probe_of_passes {ds : List Deployment} (h : ∀ d ∈ ds, ∃ entries, Passes loads r d entries)
    (hverified : Verified p.manifests p.verdictKeys p.reconciledKeys r) :
    ∃ p', (ds.map Deployment.id).foldlM (probeDeployment loads fun _ => r) p = .ok p' ∧
      p'.feedsVerified = p.feedsVerified ++ ds.flatMap (feedLabels loads r) ∧
      Verified p'.manifests p'.verdictKeys p'.reconciledKeys r := by
  induction ds generalizing p with
  | nil => exact ⟨p, rfl, by simp, hverified⟩
  | cons d ds ih =>
    obtain ⟨⟨entries, hpasses⟩, hrest⟩ := List.forall_mem_cons.mp h
    obtain ⟨key, raw, marker, hraw, hmarker, hstep⟩ := probeDeployment_of_passes (p := p) hpasses
    obtain ⟨p', hp', hfeeds, hall⟩ :=
      ih hrest (Verified.passDeployment hverified hpasses hraw hmarker)
    refine ⟨p', ?_, ?_, hall⟩
    · rw [List.map_cons, List.foldlM_cons, hstep]
      exact hp'
    · rw [hfeeds]
      simp [DataHealth.passDeployment, feedLabels, hpasses.listed]

theorem passes_of_probe {ds : List Deployment}
    (h : (ds.map Deployment.id).foldlM (probeDeployment loads fun _ => r) p = .ok p') :
    ∀ d ∈ ds, ∃ entries, Passes loads r d entries := by
  induction ds generalizing p with
  | nil => exact fun d hd => absurd hd List.not_mem_nil
  | cons d ds ih =>
    rw [List.map_cons, List.foldlM_cons] at h
    obtain ⟨next, hstep, h⟩ := except_bind_eq_ok h
    exact List.forall_mem_cons.mpr ⟨passes_of_probeDeployment hstep, ih h⟩

theorem forM_ok {α : Type} {check : α → Except Reply Unit} {l : List α}
    (h : ∀ a ∈ l, check a = .ok ()) : l.forM check = .ok () := by
  induction l with
  | nil => rfl
  | cons a l ih =>
    obtain ⟨ha, hl⟩ := List.forall_mem_cons.mp h
    show (check a >>= fun _ => l.forM check) = .ok ()
    rw [ha]
    exact ih hl

theorem redisGet_text {key s : String} (h : r key = some (.text s)) :
    Live.ResumeScript.redisGet r (some key) = .ok (some (.text s)) := by
  simp [Live.ResumeScript.redisGet, h]

theorem checkSegments_of_verified {manifests : List (String × String)}
    {verdicts reconciled : List String} (h : Verified manifests verdicts reconciled r) :
    checkSegments manifests verdicts reconciled r = .ok () := by
  have hmanifests : manifests.forM (fun m => checkManifest r (some m.1) (some m.2)) = .ok () :=
    forM_ok fun m hm => by
      simp [checkManifest, redisGet_text (h.manifests m hm), bind, Except.bind, pure, Except.pure]
  have hverdicts : verdicts.forM (fun k => checkVerdict r (some k)) = .ok () :=
    forM_ok fun k hk => by
      simp [checkVerdict, redisGet_text (h.verdicts k hk), bind, Except.bind, pure, Except.pure]
  have hreconciled : reconciled.forM (fun k => checkReconciled r (some k)) = .ok () :=
    forM_ok fun k hk => by
      have hnone : (r k).isNone = false := by
        simpa [Option.isSome_iff_ne_none] using h.reconciled k hk
      simp [checkReconciled, hnone, pure, Except.pure]
  unfold checkSegments
  rw [hmanifests, hverdicts, hreconciled]
  rfl

/-- The script answers `OK` where all it checks still holds. -/
theorem reply_of_verified (h : Verified p.manifests p.verdictKeys p.reconciledKeys r) :
    (clear (fun _ => r) p).reply = .text "OK" := by
  have hlua : resumeClearLua (clear (fun _ => r) p).keys (clear (fun _ => r) p).argv r
      = clearBySegments p.manifests p.verdictKeys p.reconciledKeys deleteKeys r :=
    resumeClearLua_eq
  have hreply : (clear (fun _ => r) p).reply = (clearBySegments p.manifests p.verdictKeys
      p.reconciledKeys deleteKeys r).1 := congrArg Prod.fst hlua
  rw [hreply, clearBySegments, checkSegments_of_verified h]

theorem verified_initial : Verified ({} : Probe).manifests ({} : Probe).verdictKeys
    ({} : Probe).reconciledKeys r :=
  ⟨fun _ h => absurd h List.not_mem_nil, fun _ h => absurd h List.not_mem_nil,
    fun _ h => absurd h List.not_mem_nil⟩

/-- **The gate on a quiet database.**  The resume is answered exactly if every deployment passes,
    and it names their feeds. -/
theorem liveResume_iff {userId : Option String} {scanned : List String} {ds : List Deployment} :
    (∃ response, (liveResume loads (fun _ => r) userId scanned (ds.map Deployment.id)).outcome
      = .ok response) ↔ ∀ d ∈ ds, ∃ entries, Passes loads r d entries := by
  constructor
  · rintro ⟨response, h⟩
    unfold liveResume at h
    split at h
    · cases h
    · rename_i p hprobe
      exact passes_of_probe hprobe
  · intro h
    obtain ⟨p, hprobe, -, hverified⟩ := probe_of_passes h (p := {}) verified_initial
    unfold liveResume
    rw [hprobe]
    dsimp only
    rw [reply_of_verified hverified]
    exact ⟨_, rfl⟩

theorem feedsVerified_liveResume {userId : Option String} {scanned : List String}
    {ds : List Deployment} {response : Response}
    (h : (liveResume loads (fun _ => r) userId scanned (ds.map Deployment.id)).outcome
      = .ok response) : response.feedsVerified = ds.flatMap (feedLabels loads r) := by
  obtain ⟨p, hprobe, hfeeds, hverified⟩ :=
    probe_of_passes (liveResume_iff.mp ⟨response, h⟩) (p := {}) verified_initial
  unfold liveResume at h
  rw [hprobe] at h
  dsimp only at h
  rw [reply_of_verified hverified] at h
  rw [← Except.ok.inj h]
  exact hfeeds

end Gate

/-! ### The window and the gate -/

section Agree

variable {loads : String → Except Resume.LoadsError Json} {decodeRow : String → Payload}
  {wideDigit : ℕ → Option ℕ} {scan : String → Option (List String)} {r : Store} {d : Deployment}
  {e : FeedEntry}

/-- The verdict of the feed is there, and its row is not: the monitor has written one of the two. -/
def RowLost (r : Store) (f : FeedHealth) : Prop :=
  f.verdict = "missing" ∧ ∃ key, dataFreshnessKey f.deploymentId f.dataset f.feed = some key ∧
    textAt r key = none ∧ r (key ++ verdictKeySuffix) = some (.text "warm")

theorem dataFreshnessKey_entry (d : Deployment) (e : FeedEntry) :
    dataFreshnessKey d.id e.dataset e.feed = some (feedKey d e) :=
  (Option.some_get (isSome_dataFreshnessKey d e)).symm

theorem orElse_getD_eq_warm {verdict : Option String} :
    (orElse verdict none).getD "missing" = "warm" ↔ verdict = some "warm" := by
  cases verdict with
  | none => simp [orElse]
  | some s =>
    by_cases hs : s = ""
    · simp [orElse, hs]
    · simp [orElse, hs]

/-- The window shows a feed as warm, or has lost its row, exactly if the gate takes it as warm. -/
theorem windowRow_warm_iff :
    (windowRow decodeRow r d e).verdict = "warm" ∨ RowLost r (windowRow decodeRow r d e) ↔
      r (feedKey d e ++ verdictKeySuffix) = some (.text "warm") := by
  have hkey := dataFreshnessKey_entry d e
  unfold RowLost windowRow feedHealth
  cases hrow : textAt r (feedKey d e) with
  | none => simp [hkey, hrow]
  | some raw => simp [hkey, hrow, orElse_getD_eq_warm, textAt_eq_some]

theorem windowRows_warm_iff {entries : List FeedEntry}
    (hlisted : listedEntries loads r d = some entries) :
    (∀ f ∈ windowRows loads decodeRow r d, f.verdict = "warm" ∨ RowLost r f) ↔
      ∀ e ∈ entries, r (feedKey d e ++ verdictKeySuffix) = some (.text "warm") := by
  unfold windowRows
  rw [forall_inheritNode fun f node => Iff.rfl, hlisted, Option.getD_some, List.forall_mem_map]
  exact forall_congr' fun e => forall_congr' fun _ => windowRow_warm_iff

/-- The name that the handler of the resume gives the feed. -/
def FeedHealth.label (f : FeedHealth) : String :=
  f.deploymentId ++ ":" ++ f.dataset ++ ":" ++ f.feed

theorem map_label_windowRows :
    (windowRows loads decodeRow r d).map FeedHealth.label = feedLabels loads r d := by
  unfold windowRows feedLabels
  rw [map_inheritNode fun f node => rfl, List.map_map]
  refine List.map_congr_left fun e _ => ?_
  simp only [Function.comp_apply, windowRow, feedHealth]
  split <;> rfl

theorem collectDataHealth_ofStore {deployments : List Deployment} {snapshot : DataHealthSnapshot}
    (h : collectDataHealth loads decodeRow wideDigit (Redis.ofStore r scan) (some deployments)
      = .ok snapshot) (hok : snapshot.collectionOk = true) :
    snapshot.feeds = (activeDeployments deployments).flatMap (windowRows loads decodeRow r) ∧
    (snapshot.monitorMissing = [] ↔ ∀ d ∈ activeDeployments deployments, d.status = .running →
      (listedEntries loads r d).isSome = true) := by
  unfold collectDataHealth at h
  obtain ⟨halt, -, h⟩ := except_bind_eq_ok h
  obtain ⟨-, hfeeds, hmissing⟩ := collect_ofStore h hok
  exact ⟨by simpa using hfeeds, by simpa using hmissing⟩

end Agree

/-- **The window and the gate agree.**  On a database that nothing else changes meanwhile, where the
    collection is clean: the fleet can be resumed exactly if every active deployment is reconciled,
    those that do not run yet have a manifest too, no monitor is missing, and every feed of the
    window is warm, or has lost its row beside a verdict that is.  The resume then names the feeds
    of the window, in their order. -/
theorem resume_iff_window {loads : String → Except Resume.LoadsError Json}
    {decodeRow : String → Payload} {wideDigit : ℕ → Option ℕ}
    {scan : String → Option (List String)} {r : Store} {deployments : List Deployment}
    {snapshot : DataHealthSnapshot}
    (hcollect : collectDataHealth loads decodeRow wideDigit (Redis.ofStore r scan)
      (some deployments) = .ok snapshot) (hok : snapshot.collectionOk = true)
    (userId : Option String) (scanned : List String) :
    let resume := liveResume loads (fun _ => r) userId scanned
      ((activeDeployments deployments).map Deployment.id)
    ((∃ response, resume.outcome = .ok response) ↔
      (∀ d ∈ activeDeployments deployments,
        ∃ marker, reconciledKey d.id = some marker ∧ (r marker).isSome = true) ∧
      (∀ d ∈ activeDeployments deployments, d.status ≠ .running →
        (listedEntries loads r d).isSome = true) ∧
      snapshot.monitorMissing = [] ∧
      ∀ f ∈ snapshot.feeds, f.verdict = "warm" ∨ RowLost r f) ∧
    ∀ response, resume.outcome = .ok response →
      response.feedsVerified = snapshot.feeds.map FeedHealth.label := by
  intro resume
  obtain ⟨hfeeds, hmissing⟩ := collectDataHealth_ofStore hcollect hok
  constructor
  · rw [liveResume_iff, hmissing, hfeeds]
    simp only [List.mem_flatMap, forall_exists_index, and_imp]
    constructor
    · intro h
      refine ⟨fun d hd => ?_, fun d hd _ => ?_, fun d hd _ => ?_, fun f d hd hf => ?_⟩
      · obtain ⟨entries, hpasses⟩ := h d hd
        exact hpasses.reconciled
      · obtain ⟨entries, hpasses⟩ := h d hd
        rw [hpasses.listed]
        rfl
      · obtain ⟨entries, hpasses⟩ := h d hd
        rw [hpasses.listed]
        rfl
      · obtain ⟨entries, hpasses⟩ := h d hd
        exact (windowRows_warm_iff hpasses.listed).mpr hpasses.warm f hf
    · rintro ⟨hreconciled, hwaiting, hrunning, hwarm⟩ d hd
      have hlisted : (listedEntries loads r d).isSome = true := by
        by_cases hstatus : d.status = .running
        · exact hrunning d hd hstatus
        · exact hwaiting d hd hstatus
      obtain ⟨entries, hentries⟩ := Option.isSome_iff_exists.mp hlisted
      exact ⟨entries, hentries, hreconciled d hd,
        (windowRows_warm_iff hentries).mp fun f hf => hwarm f d hd hf⟩
  · intro response hresponse
    rw [feedsVerified_liveResume hresponse, hfeeds, List.map_flatMap]
    simp only [map_label_windowRows]

theorem exampleId_ne : "d1" ≠ "" := by decide

/-- A running deployment with two feeds. -/
def exampleDeployment : Deployment where
  id := "d1"
  id_ne := exampleId_ne
  status := .running
  accountId := some "DU1"

def exampleManifest : String :=
  "[\x7b\"dataset\": \"XNAS.ITCH\", \"feed\": \"AAPL\"\x7d, "
    ++ "\x7b\"dataset\": \"XNAS.ITCH\", \"feed\": \"SPY\"\x7d]"

/-- `json.loads` of the manifest. -/
def exampleLoads (raw : String) : Except Resume.LoadsError Json :=
  if raw = exampleManifest then
    .ok (.arr [.obj [("dataset", .str "XNAS.ITCH"), ("feed", .str "AAPL")],
      .obj [("dataset", .str "XNAS.ITCH"), ("feed", .str "SPY")]])
  else .error .valueError

/-- The keys of the deployment, and the verdict of `SPY`, the row of which is not there. -/
def exampleStore (spy : Option Stored) (key : String) : Option Stored :=
  if key = "msai:data:freshness:d1:manifest" then some (.text exampleManifest)
  else if key = "msai:live:reconciled:d1" then some (.text "1")
  else if key = "msai:data:freshness:d1:XNAS.ITCH:AAPL" then some (.text "row")
  else if key = "msai:data:freshness:d1:XNAS.ITCH:AAPL:verdict" then some (.text "warm")
  else if key = "msai:data:freshness:d1:XNAS.ITCH:SPY:verdict" then spy
  else none

def exampleRow (_ : String) : Payload := { accountId := some "DU1", nodeId := some "node-1" }

def exampleRedis (spy : Option Stored) : Redis := .ofStore (exampleStore spy) fun _ => some []

/-- The window shows `SPY` as missing, and the fleet is resumed. -/
theorem resume_iff_window_rowLost : ∃ (snapshot : DataHealthSnapshot) (response : Response),
    collectDataHealth exampleLoads exampleRow (fun _ => none) (exampleRedis (some (.text "warm")))
      (some [exampleDeployment]) = .ok snapshot ∧
    snapshot.feeds.map (·.verdict) = ["warm", "missing"] ∧
    response.feedsVerified = snapshot.feeds.map FeedHealth.label ∧
    ∀ f ∈ snapshot.feeds,
      f.verdict = "warm" ∨ RowLost (exampleStore (some (.text "warm"))) f := by
  have hcollect : ((collectDataHealth exampleLoads exampleRow (fun _ => none)
      (exampleRedis (some (.text "warm"))) (some [exampleDeployment])).toOption.map fun s =>
        (s.collectionOk, s.feeds.map (·.verdict))) = some (true, ["warm", "missing"]) := by
    decide +kernel
  obtain ⟨snapshot, hcollect, hshown⟩ := Option.map_eq_some_iff.mp hcollect
  obtain ⟨hok, hverdicts⟩ := Prod.mk.inj hshown
  have hresume : ((liveResume exampleLoads (fun _ => exampleStore (some (.text "warm"))) none []
      ((activeDeployments [exampleDeployment]).map Deployment.id)).outcome.toOption.map
        (·.resumed)) = some true := by
    decide +kernel
  obtain ⟨response, hresume, -⟩ := Option.map_eq_some_iff.mp hresume
  obtain ⟨hiff, hfeeds⟩ := resume_iff_window (ok_of_toOption hcollect) hok none []
  exact ⟨snapshot, response, ok_of_toOption hcollect, hverdicts, hfeeds _ (ok_of_toOption hresume),
    (hiff.mp ⟨response, ok_of_toOption hresume⟩).2.2.2⟩

/-! ### What the gauges show -/

section Shown

variable {loads : String → Except Resume.LoadsError Json} {decodeRow : String → Payload}
  {wideDigit : ℕ → Option ℕ} {redis : Redis} {feeds rows : List FeedHealth} {b : DatasetLabels}
  {snapshot snapshot' : DataHealthSnapshot} {f : FeedHealth}

theorem datasetAllWarm_concat : datasetAllWarm (feeds ++ [f]) =
    Dict.set (datasetAllWarm feeds) f.datasetLabels
      ((Dict.get (datasetAllWarm feeds) f.datasetLabels).getD true && f.verdict == "warm") := by
  simp [datasetAllWarm]

/-- A dataset is warm as long as each of its feeds is. -/
theorem get_datasetAllWarm : Dict.get (datasetAllWarm feeds) b =
    if ∃ f ∈ feeds, f.datasetLabels = b then
      some (decide (∀ f ∈ feeds, f.datasetLabels = b → f.verdict = "warm"))
    else none := by
  induction feeds using List.reverseRecOn with
  | nil => simp [datasetAllWarm, Dict.get]
  | append_singleton feeds f ih =>
    rw [datasetAllWarm_concat, Dict.get_set]
    by_cases hf : f.datasetLabels = b
    · have hthere : ∃ f' ∈ feeds ++ [f], f'.datasetLabels = b := ⟨f, by simp, hf⟩
      rw [if_pos hf, hf, ih, if_pos hthere, Option.some.injEq, Bool.eq_iff_iff]
      by_cases hrest : ∃ f' ∈ feeds, f'.datasetLabels = b
      · rw [if_pos hrest]
        simp only [Option.getD_some, Bool.and_eq_true, decide_eq_true_eq, beq_iff_eq,
          List.forall_mem_append, List.forall_mem_singleton, hf, forall_const]
      · -- it is the first feed of its dataset
        have hnone : ∀ f' ∈ feeds, f'.datasetLabels = b → f'.verdict = "warm" :=
          fun f' hf' heq => absurd ⟨f', hf', heq⟩ hrest
        rw [if_neg hrest]
        simp only [Option.getD_none, Bool.true_and, decide_eq_true_eq, beq_iff_eq,
          List.forall_mem_append, List.forall_mem_singleton, hf, forall_const, and_iff_right hnone]
    · rw [if_neg hf, ih]
      simp [hf, or_and_right, exists_or, or_imp, forall_and]

theorem nodup_keys_datasetAllWarm : (Dict.keys (datasetAllWarm feeds)).Nodup := by
  induction feeds using List.reverseRecOn with
  | nil => exact List.nodup_nil
  | append_singleton feeds f ih =>
    rw [datasetAllWarm_concat]
    exact Dict.nodup_keys_set ih

/-- A dictionary that is written out item by item is that dictionary. -/
theorem get_replaceChildren {κ ν : Type} [DecidableEq κ] {samples : Dict κ ν} {k : κ}
    (h : (Dict.keys samples).Nodup) :
    Dict.get (replaceChildren samples) k = Dict.get samples k := by
  refine Option.ext fun v => ?_
  rw [← Dict.mem_iff_get h]
  unfold replaceChildren
  rw [Dict.get_build_iff]
  · simp
  · rintro ⟨i, x⟩ ha ⟨i', x'⟩ hb j w w' hw hw'
    cases hw
    cases hw'
    exact Option.some.inj (((Dict.mem_iff_get h).mp ha).symm.trans ((Dict.mem_iff_get h).mp hb))

theorem get_datasetAlive : Dict.get (gaugesOf snapshot).datasetAlive b =
    if ∃ f ∈ snapshot.feeds, f.datasetLabels = b then
      some (if ∀ f ∈ snapshot.feeds, f.datasetLabels = b → f.verdict = "warm" then 1 else 0)
    else none := by
  have hkeys : (Dict.keys ((datasetAllWarm snapshot.feeds).map fun p =>
      (p.1, if p.2 then 1 else 0))).Nodup := by
    unfold Dict.keys
    rw [List.map_map]
    exact nodup_keys_datasetAllWarm
  show Dict.get (replaceChildren _) b = _
  rw [get_replaceChildren hkeys, Dict.get_map (f := fun warm : Bool => if warm then 1 else 0),
    get_datasetAllWarm]
  split <;> simp

theorem collectDeployment_feeds {d : Deployment}
    (h : collectDeployment loads decodeRow redis snapshot d = .ok snapshot') :
    ∃ rows reason ok, readDeploymentFeeds loads decodeRow redis d = .ok (rows, reason, ok) ∧
      snapshot'.feeds = snapshot.feeds ++ inheritNode rows := by
  obtain ⟨⟨rows, reason, ok⟩, hread, rfl⟩ := except_map_eq_ok h
  refine ⟨rows, reason, ok, hread, ?_⟩
  dsimp only
  split
  · rfl
  · rfl
  · split <;> rfl

/-- The snapshot has the rows of every deployment. -/
theorem mem_feeds {ds : List Deployment} {d : Deployment} {reason : Option MissingReason}
    {ok : Bool} (h : ds.foldlM (collectDeployment loads decodeRow redis) snapshot = .ok snapshot')
    (hd : d ∈ ds)
    (hread : readDeploymentFeeds loads decodeRow redis d = .ok (rows, reason, ok)) :
    inheritNode rows ⊆ snapshot'.feeds := by
  have hmarks := foldlM_ok_marks
    (R := fun s t : DataHealthSnapshot => s.feeds ⊆ t.feeds)
    (Q := fun d s => ∀ rows reason ok, readDeploymentFeeds loads decodeRow redis d
      = .ok (rows, reason, ok) → inheritNode rows ⊆ s.feeds)
    (fun _ => List.Subset.refl _) (fun _ _ _ => List.Subset.trans)
    (fun _ _ _ hst hs rows reason ok hread => List.Subset.trans (hs rows reason ok hread) hst)
    (fun s d t hstep => ?_) h
  · exact hmarks.2 d hd rows reason ok hread
  · obtain ⟨rows, reason, ok, hread, hfeeds⟩ := collectDeployment_feeds hstep
    rw [hfeeds]
    refine ⟨List.subset_append_left _ _, fun rows' reason' ok' hread' => ?_⟩
    rw [hread] at hread'
    cases hread'
    exact List.subset_append_right _ _

/-- A feed is on a node of its deployment as soon as one of the rows names a node. -/
theorem nodeId_inheritNode (hf : f ∈ inheritNode rows) (hnode : ∃ f' ∈ rows, f'.nodeId ≠ none) :
    ∃ f' ∈ rows, f'.nodeId = f.nodeId ∧ f.nodeId ≠ none := by
  unfold inheritNode at hf
  cases hfirst : rows.findSome? FeedHealth.nodeId with
  | none =>
    obtain ⟨f', hf', hne⟩ := hnode
    exact absurd (List.findSome?_eq_none_iff.mp hfirst f' hf') hne
  | some node =>
    obtain ⟨named, hnamed, hnode⟩ := List.exists_of_findSome?_eq_some hfirst
    rw [hfirst] at hf
    obtain ⟨f₀, hf₀, rfl⟩ := List.mem_map.mp hf
    by_cases hnone : f₀.nodeId = none
    · rw [if_pos hnone]
      exact ⟨named, hnamed, hnode, by simp⟩
    · rw [if_neg hnone]
      exact ⟨f₀, hf₀, rfl, hnone⟩

theorem scrapeStep_eq (gauges : Gauges) (s : Scrape) :
    scrapeStep loads decodeRow wideDigit gauges s
      = ((s.landed loads decodeRow wideDigit).map gaugesOf).getD gauges := by
  unfold scrapeStep Scrape.landed
  cases collectDataHealth loads decodeRow wideDigit s.redis s.deployments with
  | error e => rfl
  | ok snapshot =>
    dsimp only
    cases hraises : s.hydrationRaises with
    | true => rfl
    | false =>
      cases hok : snapshot.collectionOk <;> simp [hydrateMetricsFromSnapshot, hok]

theorem foldl_scrapeStep (scrapes : List Scrape) (gauges : Gauges) :
    scrapes.foldl (scrapeStep loads decodeRow wideDigit) gauges
      = ((lastWrite (Scrape.landed loads decodeRow wideDigit) scrapes).map gaugesOf).getD
          gauges := by
  induction scrapes generalizing gauges with
  | nil => rfl
  | cons s scrapes ih =>
    rw [List.foldl_cons, ih, scrapeStep_eq, lastWrite_cons]
    cases lastWrite (Scrape.landed loads decodeRow wideDigit) scrapes <;> rfl

theorem feeds_of_landed {s : Scrape} {deployments : List Deployment}
    (h : s.landed loads decodeRow wideDigit = some snapshot)
    (hrows : s.deployments = some deployments) :
    ∃ start, (activeDeployments deployments).foldlM
      (collectDeployment loads decodeRow s.redis) start = .ok snapshot := by
  unfold Scrape.landed at h
  split at h
  · cases h
  · rename_i collected hcollect
    split at h
    · cases h
    · obtain rfl := Option.some.inj h
      unfold collectDataHealth at hcollect
      rw [hrows] at hcollect
      obtain ⟨halt, -, hcollect⟩ := except_bind_eq_ok hcollect
      exact ⟨_, hcollect⟩

end Shown

/-- **The gauges show the last clean collection, and no dead feed as alive.**  However reads fail,
    a scrape that fails changes nothing.  Behind the last one that landed, a dataset of an account
    and a node is alive exactly if its snapshot has a feed of it and all of them are warm, and dead
    exactly if one of them is not.  Every row that the reader has got for an active deployment is in
    that snapshot, and on a node that a row of its deployment names, if there is one. -/
theorem datasetAlive_iff (loads : String → Except Resume.LoadsError Json)
    (decodeRow : String → Payload) (wideDigit : ℕ → Option ℕ) (scrapes : List Scrape)
    (gauges : Gauges) :
    let after := scrapes.foldl (scrapeStep loads decodeRow wideDigit) gauges
    ((∀ s ∈ scrapes, s.landed loads decodeRow wideDigit = none) → after = gauges) ∧
    ∀ before s later snapshot, scrapes = before ++ s :: later →
      s.landed loads decodeRow wideDigit = some snapshot →
      (∀ s' ∈ later, s'.landed loads decodeRow wideDigit = none) →
      (∀ b, Dict.get after.datasetAlive b = some 1 ↔
        (∃ f ∈ snapshot.feeds, f.datasetLabels = b) ∧
          ∀ f ∈ snapshot.feeds, f.datasetLabels = b → f.verdict = "warm") ∧
      (∀ b, Dict.get after.datasetAlive b = some 0 ↔
        ∃ f ∈ snapshot.feeds, f.datasetLabels = b ∧ f.verdict ≠ "warm") ∧
      ∀ deployments, s.deployments = some deployments →
        ∀ d ∈ activeDeployments deployments, ∀ rows reason ok,
          readDeploymentFeeds loads decodeRow s.redis d = .ok (rows, reason, ok) →
          ∀ f ∈ inheritNode rows, f ∈ snapshot.feeds ∧
            ((∃ f' ∈ rows, f'.nodeId ≠ none) →
              ∃ f' ∈ rows, f'.nodeId = f.nodeId ∧ f.nodeId ≠ none) := by
  intro after
  refine ⟨fun hnone => ?_, fun before s later snapshot hsplit hlanded hlater => ?_⟩
  · show scrapes.foldl _ gauges = gauges
    rw [foldl_scrapeStep, lastWrite_eq_none.mpr hnone]
    rfl
  · have hlast : lastWrite (Scrape.landed loads decodeRow wideDigit) scrapes = some snapshot :=
      lastWrite_eq_some.mpr ⟨before, s, later, hsplit, hlanded, hlater⟩
    have hafter : after = gaugesOf snapshot := by
      show scrapes.foldl _ gauges = _
      rw [foldl_scrapeStep, hlast]
      rfl
    rw [hafter]
    refine ⟨fun b => ?_, fun b => ?_, fun deployments hrows d hd rows reason ok hread f hf => ?_⟩
    · rw [get_datasetAlive]
      by_cases hthere : ∃ f ∈ snapshot.feeds, f.datasetLabels = b <;> simp [hthere]
    · rw [get_datasetAlive]
      by_cases hthere : ∃ f ∈ snapshot.feeds, f.datasetLabels = b
      · simp [hthere]
      · simp only [hthere, if_false]
        refine iff_of_false (by simp) ?_
        rintro ⟨f, hf, hb, -⟩
        exact hthere ⟨f, hf, hb⟩
    · obtain ⟨start, hcollect⟩ := feeds_of_landed hlanded hrows
      exact ⟨mem_feeds hcollect hd hread hf, nodeId_inheritNode hf⟩

/-- `SPY` has stopped, and the next scrape does not reach Redis. -/
def exampleScrapes : List Scrape :=
  [⟨exampleRedis none, some [exampleDeployment], false⟩,
    ⟨⟨fun _ => none, fun _ => none, fun _ => none, fun _ => none⟩, some [], false⟩]

/-- The dataset of the node stays dead, though the row of `SPY` names no node. -/
theorem datasetAlive_iff_blip : ∀ gauges : Gauges,
    Dict.get (exampleScrapes.foldl (scrapeStep exampleLoads exampleRow fun _ => none)
      gauges).datasetAlive ⟨"DU1", "node-1", "XNAS.ITCH"⟩ = some 0 := by
  intro gauges
  have hlanded : ((Scrape.landed exampleLoads exampleRow (fun _ => none)
      ⟨exampleRedis none, some [exampleDeployment], false⟩).map fun s =>
        s.feeds.map fun f => (f.datasetLabels, f.verdict)) =
      some [(⟨"DU1", "node-1", "XNAS.ITCH"⟩, "warm"),
        (⟨"DU1", "node-1", "XNAS.ITCH"⟩, "missing")] := by
    decide +kernel
  have hblip : (Scrape.landed exampleLoads exampleRow (fun _ => none)
      ⟨⟨fun _ => none, fun _ => none, fun _ => none, fun _ => none⟩, some [], false⟩).isNone =
      true := by
    decide +kernel
  obtain ⟨snapshot, hlanded, hfeeds⟩ := Option.map_eq_some_iff.mp hlanded
  obtain ⟨-, hdead, -⟩ := (datasetAlive_iff exampleLoads exampleRow (fun _ => none) exampleScrapes
    gauges).2 [] _ _ snapshot rfl hlanded fun s' hs' => by
      obtain rfl := List.mem_singleton.mp hs'
      exact Option.isNone_iff_eq_none.mp hblip
  refine (hdead _).mpr ?_
  have hmem : (⟨"DU1", "node-1", "XNAS.ITCH"⟩, "missing") ∈
      snapshot.feeds.map fun f => (f.datasetLabels, f.verdict) := by
    rw [hfeeds]
    exact List.mem_cons_of_mem _ List.mem_cons_self
  obtain ⟨f, hf, heq⟩ := List.mem_map.mp hmem
  obtain ⟨hlabels, hverdict⟩ := Prod.mk.inj heq
  exact ⟨f, hf, hlabels, by simp [hverdict]⟩

end Msai.Api.DataHealth
