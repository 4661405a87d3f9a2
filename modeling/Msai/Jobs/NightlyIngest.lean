import Msai.Lib.Dict
import Msai.Lib.Grouping
import Msai.Lib.IndexedFold
import Msai.Lib.PyDate
import Msai.Onboarding.StorageKey

namespace Msai.Jobs.NightlyIngest

open Msai.Lib Msai.Lib.PyDate Msai.Onboarding

/-!
# The nightly ingest (`workers/nightly_ingest.py`)

The cron of the worker calls `run_nightly_ingest_if_due` every minute.  It compares the local time
with the schedule, and the local date with the one in a state file; the file is replaced before the
ingest starts.  Between the read and the write there is no `await`, so that the ticks of a process
follow one another.

* `runNightlyIngestIfDue` — a tick, with the ways its write can end;
* `runNightlyIngest` — the ingest of the universe, with the rows that are marked as fresh;
* `starts_iff` — over any ticks, a local day is ingested at the first due tick of it, and only then;
* `ingest_marks_nothing` — no run ever sets `last_ingested_at`.

Local times are what the zone makes of the clock.  A zone in which the date can go back is not
excluded; the theorem about the days asks for dates that do not.
-/

/-! ### The schedule -/

/-- The settings a tick reads. -/
structure Settings where
  dailyIngestEnabled : Bool
  /-- `ZoneInfo(settings.daily_ingest_timezone)` exists. -/
  zoneFound : Bool
  dailyIngestHour : ℕ
  dailyIngestMinute : ℕ
  sessionOffsetDays : ℤ
deriving DecidableEq, Repr

/-- The time in the configured zone. -/
structure LocalTime where
  date : ℤ
  hour : ℕ
  minute : ℕ
  second : ℕ
  microsecond : ℕ
  inRange : InRange date

/-- The microseconds of a time of the day. -/
def microseconds (hour minute second microsecond : ℕ) : ℕ :=
  ((hour * 60 + minute) * 60 + second) * 1000000 + microsecond

/-- `current.date().isoformat()`. -/
def LocalTime.day (t : LocalTime) : String := String.ofList (isoformat t.date)

/-- `_is_due`. -/
def isDue (settings : Settings) (current : LocalTime) (last : Option String) : Bool :=
  if microseconds current.hour current.minute current.second current.microsecond <
      microseconds settings.dailyIngestHour settings.dailyIngestMinute 0 0 then false
  else last ≠ some current.day

/-- The state file. -/
inductive StateFile
  | missing
  /-- Not JSON. -/
  | corrupt
  /-- JSON, but no object. -/
  | notAnObject
  /-- An object, with the text of its `last_enqueued_date`. -/
  | record (lastEnqueuedDate : Option String)
deriving DecidableEq, Repr

/-- `_load_last_enqueued_date`; an empty value is none. -/
def StateFile.lastEnqueuedDate : StateFile → Option String
  | .record (some s) => if s = "" then none else some s
  | _ => none

/-- How `_write_last_enqueued_date` ends.  The file is replaced in one step, so that a worker that
    is killed has replaced it or has not. -/
inductive Write
  | done
  | raises
  | killedBefore
  | killedAfter
deriving DecidableEq, Repr

/-- The file has the date afterwards. -/
def Write.replaces : Write → Bool
  | .done | .killedAfter => true
  | .raises | .killedBefore => false

/-! ### The ingest -/

/-- A row of the asset universe. -/
structure Asset where
  id : ℕ
  symbol : String
  assetClass : String
  enabled : Bool
  lastIngestedAt : Option ℤ
deriving DecidableEq, Repr

/-- A value of the payload of an ingest. -/
inductive PayloadValue
  | none
  | str (s : String)
  | list (items : List String)
  | dict (ingested : List (String × ℕ))
deriving DecidableEq, Repr

/-- The plan of `_resolve_plan` for `provider="auto"`. -/
structure HistoricalIngestPlan where
  provider : String
  dataset : Option String
  schema : String
deriving DecidableEq, Repr

/-- `settings.databento_…`. -/
structure IngestConfig where
  equitiesDataset : String := "EQUS.MINI"
  futuresDataset : String := "GLBX.MDP3"
  defaultSchema : String := "ohlcv-1m"

/-- `_normalize_asset_class` and `_resolve_plan`. -/
def resolvePlan (cfg : IngestConfig) (assetClass : String) : HistoricalIngestPlan :=
  if assetClass = "stocks" ∨ assetClass = "equities" then
    ⟨"databento", some cfg.equitiesDataset, cfg.defaultSchema⟩
  else if assetClass = "futures" then ⟨"databento", some cfg.futuresDataset, cfg.defaultSchema⟩
  else ⟨"polygon", none, cfg.defaultSchema⟩

/-- What surrounds the ingest. -/
structure Env where
  cfg : IngestConfig
  root : Path
  /-- The provider, for a plan and a session. -/
  fetchBars : HistoricalIngestPlan → ℤ → String → Except String (List Bar)
  /-- `ensure_catalog_data` and `_write_status` raise. -/
  finishes : String → Except String Unit

/-- The payload of `ingest_historical`. -/
def payload (cfg : IngestConfig) (assetClass : String) (symbols : List String) (session : ℤ)
    (ingested : List (String × ℕ)) : Dict String PayloadValue :=
  let plan := resolvePlan cfg assetClass
  let day := String.ofList (isoformat session)
  [("asset_class", .str assetClass), ("provider", .str plan.provider),
    ("dataset", plan.dataset.elim .none .str), ("schema", .str plan.schema),
    ("requested_symbols", .list symbols), ("symbols", .list (ingested.map Prod.fst)),
    ("start", .str day), ("end", .str day), ("ingested", .dict ingested),
    ("empty_symbols", .list ((ingested.filter fun d => d.2 = 0).map Prod.fst))]

inductive NightlyError
  | ingest (e : IngestError)
  /-- A comparison with `0`. -/
  | typeError (message : String)
deriving DecidableEq, Repr

/-- `ingest_daily`. -/
def ingestDaily (env : Env) (assetClass : String) (symbols : List String) (session : ℤ) :
    Except NightlyError (Dict String PayloadValue) :=
  let outcome := ingestHistorical (env.fetchBars (resolvePlan env.cfg assetClass) session) env.root
    assetClass symbols
  match outcome.error with
  | some e => .error (.ingest e)
  | none =>
    match env.finishes assetClass with
    | .error e => .error (.ingest (.provider e))
    | .ok () => .ok (payload env.cfg assetClass symbols session outcome.ingested)

/-- `combined_result.update(result)`. -/
def update (combined result : Dict String PayloadValue) : Dict String PayloadValue :=
  result.foldl (fun d p => Dict.set d p.1 p.2) combined

/-- The symbols of each asset class. -/
def groups (targets : List Asset) : List (String × List String) :=
  (firstSeen Asset.assetClass targets).map fun c =>
    (c, (targets.filter fun a => a.assetClass = c).map Asset.symbol)

/-- The loop over the groups. -/
def ingestGroups (env : Env) (session : ℤ) (gs : List (String × List String)) :
    Except NightlyError (Dict String PayloadValue) :=
  gs.foldlM (fun combined g => (ingestDaily env g.1 g.2 session).map (update combined)) []

/-- The name of the type of a value. -/
def PayloadValue.typeName : PayloadValue → String
  | .none => "NoneType"
  | .str _ => "str"
  | .list _ => "list"
  | .dict _ => "dict"

/-- `combined_result.get(symbol, 0) > 0`. -/
def positive (combined : Dict String PayloadValue) (symbol : String) : Except NightlyError Bool :=
  match combined.get symbol with
  | none => .ok (decide ((0 : ℤ) > 0))
  | some v => .error
      (.typeError ("'>' not supported between instances of '" ++ v.typeName ++ "' and 'int'"))

/-- `successful_targets`. -/
def successfulTargets (combined : Dict String PayloadValue) :
    List Asset → Except NightlyError (List Asset)
  | [] => .ok []
  | a :: targets => do
    let fresh ← positive combined a.symbol
    let rest ← successfulTargets combined targets
    .ok (if fresh then a :: rest else rest)

/-- `_FALLBACK_STOCK_SYMBOLS`. -/
def fallbackStockSymbols : List String :=
  ["AAPL", "MSFT", "GOOGL", "AMZN", "NVDA", "META", "TSLA", "SPY", "QQQ", "IWM"]

/-- What a run of the ingest leaves: its result, and the rows it marks as fresh. -/
structure NightlyRun where
  result : Except NightlyError (Dict String PayloadValue)
  marked : List Asset

/-- `run_nightly_ingest`; `targets` is what `_load_targets_from_db` returns. -/
def runNightlyIngest (env : Env) (targets : Option (List Asset)) (session : ℤ) : NightlyRun :=
  match targets with
  | none => ⟨ingestDaily env "stocks" fallbackStockSymbols session, []⟩
  | some targets =>
    match ingestGroups env session (groups targets) with
    | .error e => ⟨.error e, []⟩
    | .ok combined =>
      match successfulTargets combined targets with
      | .error e => ⟨.error e, []⟩
      | .ok successful => ⟨.ok combined, successful⟩

/-! ### The ticks -/

structure Tick where
  settings : Settings
  now : LocalTime
  write : Write
  /-- The universe can be loaded. -/
  databaseUp : Bool
  env : Env
  /-- The time of `_mark_ingested`, unless it fails. -/
  markedAt : Option ℤ

/-- What the worker keeps. -/
structure Worker where
  file : StateFile
  assets : List Asset

/-- `_load_targets_from_db`. -/
def Worker.targets (w : Worker) (databaseUp : Bool) : Option (List Asset) :=
  if databaseUp && w.assets.any Asset.enabled then some (w.assets.filter Asset.enabled)
  else none

/-- `_mark_ingested`. -/
def markIngested (markedAt : Option ℤ) (marked assets : List Asset) : List Asset :=
  match markedAt with
  | none => assets
  | some t => assets.map fun a =>
      if a.id ∈ marked.map Asset.id then { a with lastIngestedAt := some t } else a

/-- The date is recorded, and the ingest is started. -/
def Tick.fires (t : Tick) (file : StateFile) : Bool :=
  t.settings.dailyIngestEnabled && t.settings.zoneFound &&
    isDue t.settings t.now file.lastEnqueuedDate

/-- `run_nightly_ingest_if_due`: the worker afterwards, and the session whose ingest is started. -/
def runNightlyIngestIfDue (t : Tick) (w : Worker) : Worker × Option ℤ :=
  if t.fires w.file then
    let file := if t.write.replaces then
      .record (some t.now.day) else w.file
    match t.write with
    | .done =>
      let session := t.now.date + t.settings.sessionOffsetDays
      let run := runNightlyIngest t.env (w.targets t.databaseUp) session
      ({ file := file, assets := markIngested t.markedAt run.marked w.assets }, some session)
    | _ => ({ w with file := file }, none)
  else (w, none)

/-- The sessions that are started, tick by tick. -/
def runTicks : List Tick → Worker → List (Option ℤ)
  | [], _ => []
  | t :: ticks, w => (runNightlyIngestIfDue t w).2 :: runTicks ticks (runNightlyIngestIfDue t w).1

/-- The worker behind the ticks. -/
def afterTicks (ticks : List Tick) (w : Worker) : Worker :=
  ticks.foldl (fun w t => (runNightlyIngestIfDue t w).1) w

/-! ### Once a day -/

/-- The tick is at or behind the scheduled time of its day. -/
def Tick.scheduled (t : Tick) : Bool :=
  t.settings.dailyIngestEnabled && t.settings.zoneFound &&
    decide (microseconds t.settings.dailyIngestHour t.settings.dailyIngestMinute 0 0 ≤
      microseconds t.now.hour t.now.minute t.now.second t.now.microsecond)

section Once

variable {t t' : Tick} {w : Worker} {file : StateFile} {ticks : List Tick}

theorem day_ne_empty (t : LocalTime) : t.day ≠ "" := by
  intro h
  have hlength := congrArg String.length h
  simp [LocalTime.day, isoformat] at hlength

/-- A day has its own text. -/
theorem day_eq_iff {t t' : LocalTime} : t.day = t'.day ↔ t.date = t'.date := by
  constructor
  · intro h
    exact isoformat_inj t.inRange t'.inRange (String.ofList_inj.mp h)
  · intro h
    unfold LocalTime.day
    rw [h]

theorem fires_iff : t.fires file = true ↔
    t.scheduled = true ∧ file.lastEnqueuedDate ≠ some t.now.day := by
  unfold Tick.fires Tick.scheduled isDue
  split
  · rename_i hearly
    simp only [Bool.and_false, Bool.false_eq_true, false_iff, not_and]
    intro h
    rw [Bool.and_eq_true, decide_eq_true_iff] at h
    omega
  · rename_i hlate
    rw [decide_eq_true (not_lt.mp hlate), Bool.and_true]
    simp

/-- The file behind a tick. -/
theorem file_tick : (runNightlyIngestIfDue t w).1.file =
    if t.fires w.file = true ∧ t.write.replaces = true then .record (some t.now.day)
    else w.file := by
  unfold runNightlyIngestIfDue
  by_cases hfires : t.fires w.file = true
  · cases hwrite : t.write <;> simp [hfires, Write.replaces]
  · simp [hfires]

theorem lastEnqueuedDate_record (t : LocalTime) :
    (StateFile.record (some t.day)).lastEnqueuedDate = some t.day :=
  if_neg (day_ne_empty t)

/-- The recorded date behind a tick: a scheduled one that can write leaves its own. -/
theorem lastEnqueuedDate_tick :
    (runNightlyIngestIfDue t w).1.file.lastEnqueuedDate =
      if t.scheduled = true ∧ t.write.replaces = true then some t.now.day
      else w.file.lastEnqueuedDate := by
  rw [file_tick]
  by_cases hfires : t.fires w.file = true
  · obtain ⟨hscheduled, -⟩ := fires_iff.mp hfires
    cases hwrite : t.write.replaces with
    | false => simp
    | true => simp [hfires, hscheduled, lastEnqueuedDate_record]
  · simp only [hfires, Bool.false_eq_true, false_and, if_false]
    split
    · rename_i h
      -- a scheduled tick that does not fire finds its date in the file
      by_contra hne
      exact hfires (fires_iff.mpr ⟨h.1, hne⟩)
    · rfl

/-- When a tick starts an ingest, and for which session. -/
theorem session_tick {session : ℤ} : (runNightlyIngestIfDue t w).2 = some session ↔
    t.scheduled = true ∧ t.write = .done ∧ w.file.lastEnqueuedDate ≠ some t.now.day ∧
      session = t.now.date + t.settings.sessionOffsetDays := by
  unfold runNightlyIngestIfDue
  by_cases hfires : t.fires w.file = true
  · obtain ⟨hscheduled, hlast⟩ := fires_iff.mp hfires
    rw [if_pos hfires]
    cases hwrite : t.write with
    | done =>
      show some _ = some session ↔ _
      rw [Option.some.injEq]
      exact ⟨fun h => ⟨hscheduled, rfl, hlast, h.symm⟩, fun h => h.2.2.2.symm⟩
    | raises | killedBefore | killedAfter => simp
  · rw [if_neg hfires]
    constructor
    · intro h
      exact absurd h (by simp)
    · rintro ⟨hscheduled, -, hlast, -⟩
      exact absurd (fires_iff.mpr ⟨hscheduled, hlast⟩) hfires

/-- The file does not know of a later day than those to come. -/
def NotAhead (file : StateFile) (ticks : List Tick) : Prop :=
  ∀ d : LocalTime, file.lastEnqueuedDate = some d.day → ∀ t ∈ ticks, d.date ≤ t.now.date

/-- The tick records its day, unless the day is recorded already. -/
def Tick.records (t : Tick) (date : ℤ) : Prop :=
  t.scheduled = true ∧ t.write.replaces = true ∧ t.now.date = date

theorem notAhead_tick (h : NotAhead w.file (t :: ticks))
    (hmono : ∀ t' ∈ ticks, t.now.date ≤ t'.now.date) :
    NotAhead (runNightlyIngestIfDue t w).1.file ticks := by
  intro d hd t' ht'
  rw [lastEnqueuedDate_tick] at hd
  split at hd
  · have hdate : t.now.date = d.date := day_eq_iff.mp (Option.some.inj hd)
    rw [← hdate]
    exact hmono t' ht'
  · exact h d hd t' (List.mem_cons_of_mem t ht')

/-- A later day is still to come behind a tick if it was before, and the tick has not recorded
    it. -/
theorem open_tick {d : LocalTime} (h : NotAhead w.file (t :: ticks))
    (hd : t.now.date ≤ d.date) :
    (runNightlyIngestIfDue t w).1.file.lastEnqueuedDate ≠ some d.day ↔
      w.file.lastEnqueuedDate ≠ some d.day ∧ ¬ t.records d.date := by
  rw [lastEnqueuedDate_tick]
  by_cases hrecords : t.scheduled = true ∧ t.write.replaces = true
  · rw [if_pos hrecords, ne_eq, Option.some.injEq, day_eq_iff]
    constructor
    · intro hne
      refine ⟨fun hlast => ?_, fun hr => hne hr.2.2⟩
      -- a day that the file has is not later than the tick
      have hle := h d hlast t List.mem_cons_self
      omega
    · rintro ⟨-, hr⟩ hdate
      exact hr ⟨hrecords.1, hrecords.2, hdate⟩
  · rw [if_neg hrecords]
    constructor
    · exact fun hlast => ⟨hlast, fun hr => hrecords ⟨hr.1, hr.2.1⟩⟩
    · exact And.left

/-- A session is started at an index exactly if no tick before it has recorded its day. -/
theorem runTicks_eq_some (hmono : ticks.Pairwise fun t t' => t.now.date ≤ t'.now.date)
    (hfile : NotAhead w.file ticks) {i : ℕ} {session : ℤ} :
    (runTicks ticks w)[i]? = some (some session) ↔
      ∃ t, ticks[i]? = some t ∧ t.scheduled = true ∧ t.write = .done ∧
        session = t.now.date + t.settings.sessionOffsetDays ∧
        w.file.lastEnqueuedDate ≠ some t.now.day ∧
        ∀ j < i, ∀ t' : Tick, ticks[j]? = some t' → ¬ t'.records t.now.date := by
  induction ticks generalizing w i with
  | nil => simp [runTicks]
  | cons u ticks ih =>
    obtain ⟨hfirst, hmono⟩ := List.pairwise_cons.mp hmono
    cases i with
    | zero =>
      show some (runNightlyIngestIfDue u w).2 = some (some session) ↔ _
      rw [Option.some.injEq, session_tick]
      simp only [List.getElem?_cons_zero, Option.some.injEq, exists_eq_left', not_lt_zero,
        false_implies, implies_true, and_true]
      tauto
    | succ i =>
      show (runTicks ticks _)[i]? = _ ↔ _
      rw [ih hmono (notAhead_tick hfile hfirst)]
      simp only [List.getElem?_cons_succ]
      refine exists_congr fun t => and_congr_right fun ht => and_congr_right fun _ =>
        and_congr_right fun _ => and_congr_right fun _ => ?_
      have hle := hfirst t (List.mem_of_getElem? ht)
      rw [open_tick hfile hle, and_assoc]
      refine and_congr_right fun _ => ?_
      -- the ticks before it are the first one and those behind that
      constructor
      · rintro ⟨hu, hrest⟩ j hj t' ht'
        cases j with
        | zero => rwa [← Option.some.inj ht']
        | succ j => exact hrest j (by omega) t' ht'
      · intro hall
        exact ⟨hall 0 (by omega) u rfl, fun j hj t' ht' => hall (j + 1) (by omega) t' ht'⟩

end Once

/-- **A local day is ingested once, at the first tick that can record it.**  If the local dates of
    the ticks do not go back, a tick starts the ingest exactly if it is at or behind the scheduled
    time, replaces the state file, and neither the file nor an earlier tick has recorded its day;
    so no two ticks start one day, over restarts, failed writes and kills. -/
theorem starts_iff (ticks : List Tick) (w : Worker)
    (hmono : ticks.Pairwise fun t t' => t.now.date ≤ t'.now.date)
    (hfile : NotAhead w.file ticks) :
    (∀ (i : ℕ) (session : ℤ), (runTicks ticks w)[i]? = some (some session) ↔
      ∃ t : Tick, ticks[i]? = some t ∧ t.scheduled = true ∧ t.write = .done ∧
        session = t.now.date + t.settings.sessionOffsetDays ∧
        w.file.lastEnqueuedDate ≠ some t.now.day ∧
        ∀ j < i, ∀ t' : Tick, ticks[j]? = some t' → ¬ t'.records t.now.date) ∧
    ∀ (i j : ℕ) (t t' : Tick) (session session' : ℤ), ticks[i]? = some t → ticks[j]? = some t' →
      (runTicks ticks w)[i]? = some (some session) →
      (runTicks ticks w)[j]? = some (some session') → t.now.date = t'.now.date → i = j := by
  refine ⟨fun i session => runTicks_eq_some hmono hfile,
    fun i j t t' session session' ht ht' hi hj hdate => ?_⟩
  -- of two starts the first has recorded the day of the second
  have hfirst : ∀ {i j : ℕ} {t t' : Tick} {session session' : ℤ},
      ticks[i]? = some t → ticks[j]? = some t' →
      (runTicks ticks w)[i]? = some (some session) →
      (runTicks ticks w)[j]? = some (some session') → t.now.date = t'.now.date → ¬ i < j := by
    intro i j t t' session session' ht ht' hi hj hdate hlt
    obtain ⟨u, hu, hscheduled, hwrite, -⟩ := (runTicks_eq_some hmono hfile).mp hi
    obtain ⟨u', hu', -, -, -, -, hnone⟩ := (runTicks_eq_some hmono hfile).mp hj
    obtain rfl := Option.some.inj (ht.symm.trans hu)
    obtain rfl := Option.some.inj (ht'.symm.trans hu')
    exact hnone i hlt t ht ⟨hscheduled, by rw [hwrite]; rfl, hdate⟩
  have hij := hfirst ht ht' hi hj hdate
  have hji := hfirst ht' ht hj hi hdate.symm
  omega

/-- Half past six on 2 June, and at seven; six on 3 June. -/
def juneTick (day hour minute : ℕ) (write : Write) (h : InRange (Calendar.dayNumber 2025 6 day)) :
    Tick where
  settings := ⟨true, true, 18, 0, -1⟩
  now := ⟨Calendar.dayNumber 2025 6 day, hour, minute, 0, 0, h⟩
  write := write
  databaseUp := false
  env := ⟨{}, [], fun _ _ _ => .error "", fun _ => .ok ()⟩
  markedAt := none

def juneTicks : List Tick :=
  [juneTick 2 17 59 .done (by decide), juneTick 2 18 30 .raises (by decide),
    juneTick 2 19 0 .done (by decide), juneTick 2 19 1 .done (by decide),
    juneTick 3 18 0 .killedAfter (by decide), juneTick 3 18 1 .done (by decide)]

/-- The first write fails, so the next minute starts 2 June; 3 June is recorded by a worker that is
    killed, and is not started at all. -/
theorem starts_iff_june :
    (runTicks juneTicks ⟨.missing, []⟩)[2]? = some (some (Calendar.dayNumber 2025 6 1)) ∧
      ∀ session, (runTicks juneTicks ⟨.missing, []⟩)[5]? ≠ some (some session) := by
  have hmono : juneTicks.Pairwise fun t t' => t.now.date ≤ t'.now.date := by
    simp [juneTicks, juneTick]
    decide
  have hfile : NotAhead StateFile.missing juneTicks := fun d hd =>
    absurd hd (by simp [StateFile.lastEnqueuedDate])
  obtain ⟨hstarts, -⟩ := starts_iff juneTicks ⟨.missing, []⟩ hmono hfile
  refine ⟨(hstarts 2 _).mpr ⟨juneTick 2 19 0 .done (by decide), rfl, by decide, rfl, by decide,
    by decide, fun j hj t' ht' hr => ?_⟩, fun session hsome => ?_⟩
  · -- the first tick is early, and the second cannot write
    match j, hj with
    | 0, _ =>
      obtain rfl := Option.some.inj ht'
      exact absurd hr.1 (by decide)
    | 1, _ =>
      obtain rfl := Option.some.inj ht'
      exact absurd hr.2.1 (by decide)
  · obtain ⟨t, ht, -, -, -, -, hnone⟩ := (hstarts 5 session).mp hsome
    obtain rfl := Option.some.inj ht
    exact hnone 4 (by decide) _ rfl ⟨by decide, by decide, rfl⟩

/-! ### No row is marked as fresh -/

section Fresh

variable {combined : Dict String PayloadValue} {targets : List Asset} {env : Env} {session : ℤ}

/-- The keys of every payload. -/
def payloadKeys : List String :=
  ["asset_class", "provider", "dataset", "schema", "requested_symbols", "symbols", "start", "end",
    "ingested", "empty_symbols"]

theorem keys_payload {cfg : IngestConfig} {assetClass : String} {symbols : List String}
    {ingested : List (String × ℕ)} :
    (payload cfg assetClass symbols session ingested).keys = payloadKeys := rfl

/-- No symbol has a count in the combined result. -/
theorem successfulTargets_eq_ok {successful : List Asset}
    (h : successfulTargets combined targets = .ok successful) : successful = [] := by
  induction targets generalizing successful with
  | nil => exact (Except.ok.inj h).symm
  | cons a targets ih =>
    obtain ⟨fresh, hfresh, h⟩ := except_bind_eq_ok h
    obtain ⟨rest, hrest, h⟩ := except_bind_eq_ok h
    obtain rfl := ih hrest
    obtain rfl := Except.ok.inj h
    unfold positive at hfresh
    split at hfresh
    · obtain rfl := Except.ok.inj hfresh
      simp
    · exact absurd hfresh (by simp)

theorem isSome_get_update {result : Dict String PayloadValue} {k : String} :
    ((update combined result).get k).isSome = true ↔
      (combined.get k).isSome = true ∨ k ∈ result.keys := by
  unfold update
  induction result generalizing combined with
  | nil => simp [Dict.keys]
  | cons p result ih =>
    rw [List.foldl_cons, ih, Dict.get_set]
    by_cases hk : p.1 = k
    · simp [Dict.keys, hk]
    · simp [Dict.keys, hk, Ne.symm hk]

theorem keys_ingestDaily {assetClass : String} {symbols : List String}
    {result : Dict String PayloadValue}
    (h : ingestDaily env assetClass symbols session = .ok result) :
    result.keys = payloadKeys := by
  unfold ingestDaily at h
  dsimp only at h
  split at h
  · exact absurd h (by simp)
  · split at h
    · exact absurd h (by simp)
    · obtain rfl := Except.ok.inj h
      exact keys_payload

/-- Behind the first group the combined result has the keys of a payload, and no others. -/
theorem isSome_get_ingestGroups {gs : List (String × List String)} (hgs : gs ≠ [])
    (h : ingestGroups env session gs = .ok combined) {k : String} :
    (combined.get k).isSome = true ↔ k ∈ payloadKeys := by
  have hfold : ∀ (gs : List (String × List String)) (d d' : Dict String PayloadValue),
      gs.foldlM (fun combined g => (ingestDaily env g.1 g.2 session).map (update combined)) d
        = .ok d' →
      ((d'.get k).isSome = true ↔ (d.get k).isSome = true ∨ gs ≠ [] ∧ k ∈ payloadKeys) := by
    intro gs
    induction gs with
    | nil =>
      intro d d' h
      obtain rfl := Except.ok.inj h
      simp
    | cons g gs ih =>
      intro d d' h
      obtain ⟨e, he, h⟩ := except_bind_eq_ok h
      obtain ⟨result, hresult, rfl⟩ := except_map_eq_ok he
      rw [ih _ d' h, isSome_get_update, keys_ingestDaily hresult]
      simp only [ne_eq, reduceCtorEq, not_false_eq_true, true_and]
      tauto
  rw [hfold gs [] combined h]
  simp [Dict.get, hgs]

/-- The comparison fails at a symbol that is a key of the payload. -/
theorem successfulTargets_isOk : (∃ successful, successfulTargets combined targets = .ok successful)
    ↔ ∀ a ∈ targets, (combined.get a.symbol).isSome = false := by
  induction targets with
  | nil => simp [successfulTargets]
  | cons a targets ih =>
    rw [List.forall_mem_cons, ← ih]
    show (∃ successful, (do
      let fresh ← positive combined a.symbol
      let rest ← successfulTargets combined targets
      .ok (if fresh then a :: rest else rest)) = Except.ok successful) ↔ _
    unfold positive
    cases combined.get a.symbol with
    | some v => simp [bind, Except.bind]
    | none => cases successfulTargets combined targets <;> simp [bind, Except.bind]

theorem typeError_of_error {e : NightlyError} (h : successfulTargets combined targets = .error e) :
    ∃ message, e = .typeError message := by
  induction targets with
  | nil => exact absurd h (by simp [successfulTargets])
  | cons a targets ih =>
    change (do
      let fresh ← positive combined a.symbol
      let rest ← successfulTargets combined targets
      .ok (if fresh then a :: rest else rest)) = Except.error e at h
    unfold positive at h
    cases hget : combined.get a.symbol with
    | some v =>
      rw [hget] at h
      exact ⟨_, (Except.error.inj h).symm⟩
    | none =>
      rw [hget] at h
      cases hrest : successfulTargets combined targets with
      | ok rest =>
        rw [hrest] at h
        exact absurd h (by simp [bind, Except.bind])
      | error e' =>
        rw [hrest] at h
        obtain rfl : e' = e := Except.error.inj h
        exact ih hrest

theorem marked_eq_nil {targets : Option (List Asset)} :
    (runNightlyIngest env targets session).marked = [] := by
  unfold runNightlyIngest
  split
  · rfl
  · split
    · rfl
    · split
      · rfl
      · rename_i h
        exact successfulTargets_eq_ok h

theorem assets_tick (t : Tick) (w : Worker) : (runNightlyIngestIfDue t w).1.assets = w.assets := by
  have hnone : ∀ assets : List Asset, markIngested t.markedAt [] assets = assets := by
    intro assets
    unfold markIngested
    split <;> simp
  unfold runNightlyIngestIfDue
  by_cases hfires : t.fires w.file = true
  · rw [if_pos hfires]
    cases hwrite : t.write with
    | done => simp only [marked_eq_nil, hnone]
    | raises | killedBefore | killedAfter => rfl
  · rw [if_neg hfires]

end Fresh

/-- **No run of the worker marks a row of the universe as fresh**, whatever the providers return:
    the counts are looked up in the payloads, whose keys are not symbols.  A run whose ingests all
    succeed ends in an exception exactly if a symbol is one of these keys. -/
theorem ingest_marks_nothing (ticks : List Tick) (w : Worker) (env : Env) (targets : List Asset)
    (session : ℤ) :
    (afterTicks ticks w).assets = w.assets ∧
      ∀ combined, ingestGroups env session (groups targets) = .ok combined →
        ((∃ message, (runNightlyIngest env (some targets) session).result
            = .error (.typeError message)) ↔ ∃ a ∈ targets, a.symbol ∈ payloadKeys) := by
  refine ⟨?_, fun combined hcombined => ?_⟩
  · unfold afterTicks
    induction ticks generalizing w with
    | nil => rfl
    | cons t ticks ih => rw [List.foldl_cons, ih, assets_tick]
  · have hresult : (∃ message, (runNightlyIngest env (some targets) session).result
        = .error (.typeError message)) ↔
        ¬ ∃ successful, successfulTargets combined targets = .ok successful := by
      unfold runNightlyIngest
      simp only [hcombined]
      cases h : successfulTargets combined targets with
      | ok successful => simp
      | error e =>
        obtain ⟨message, rfl⟩ := typeError_of_error h
        simp
    rw [hresult, successfulTargets_isOk]
    simp only [not_forall, exists_prop, Bool.not_eq_false]
    refine exists_congr fun a => and_congr_right fun ha => ?_
    apply isSome_get_ingestGroups _ hcombined
    -- a target is in a group
    intro hgroups
    have hclass : a.assetClass ∈ firstSeen Asset.assetClass targets :=
      mem_firstSeen.mpr ⟨a, ha, rfl⟩
    rw [List.map_eq_nil_iff.mp hgroups] at hclass
    cases hclass

end Msai.Jobs.NightlyIngest
