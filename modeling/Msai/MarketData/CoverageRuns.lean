import Msai.Lib.Transition
import Msai.MarketData.Coverage

namespace Msai.MarketData

open Msai.Lib Msai.Lib.Calendar

/-!
# Coverage and the disk

Writes of month files, the refreshes of the index behind them, and scans, in any order.

* `IndexState`, `IndexEvent`, `indexSystem` — the files, the rows and the scans of a symbol;
* `CoversAlike` — month by month, two lists of rows cover the same trading days of a window;
* `coverage_follows_disk` — the scans of a run say what the footers say, if the rows that they
  find do;
* `inStep_of_settled` — so they do where refreshes succeed and scans wait for them;
* `coverage_misses_month` — one failed refresh, and a month is reported as missing.

`write_bars` writes one month at a time, and refreshes its row before it writes the next one.
A scan can come between the two, or come to a row whose refresh has failed.
-/

/-- The files and the rows of a symbol, the months whose refresh is yet to come, and what the scans
    returned, each beside what the footers say. -/
structure IndexState where
  disk : Disk
  cache : Cache
  pending : List ℤ
  scans : List (CoverageReport × CoverageReport)
deriving DecidableEq, Repr

namespace IndexState

/-- Nothing is written. -/
def fresh : IndexState where
  disk := []
  cache := []
  pending := []
  scans := []

end IndexState

inductive IndexEvent
  /-- `atomic_write_parquet` puts a file in its place. -/
  | write (month : ℤ) (file : ParquetFile)
  /-- `_refresh_callback` returns, or its exception is logged and swallowed. -/
  | refresh (month : ℤ) (ok : Bool)
  /-- `compute_coverage`. -/
  | coverage (startDate endDate today : ℤ)
deriving DecidableEq, Repr

section System

variable (trading : ℤ → Bool)

/-- `compute_coverage` on the rows of the current footers. -/
def footerCoverage (disk : Disk) (startDate endDate today : ℤ) : CoverageReport :=
  computeCoverage trading startDate endDate today (currentRows disk) (currentRows disk)

/-- The rows behind a scan: it walks if days are expected and no row covers one. -/
def cacheAfter (disk : Disk) (cache : Cache) (startDate endDate : ℤ) : Cache :=
  if (tradingDays trading startDate endDate).isEmpty then cache
  else if (coveredDays trading startDate endDate (getForSymbol cache)).isEmpty then
    (walkAndSeedCache disk cache).2
  else cache

/-- One step.  A file that is written has rows, and a refresh comes after a write. -/
def indexStep (st : IndexState) : IndexEvent → Option IndexState
  | .write month file =>
    if file.timestamps = [] then none
    else some { st with disk := st.disk.set month file, pending := st.pending ++ [month] }
  | .refresh month ok =>
    if month ∈ st.pending then
      (Dict.get st.disk month).map fun file =>
        { st with
          cache := if ok then (refresh st.cache month file).2 else st.cache
          pending := st.pending.erase month }
    else none
  | .coverage startDate endDate today => some
      { st with
        cache := cacheAfter trading st.disk st.cache startDate endDate
        scans := st.scans ++
          [(computeCoverage trading startDate endDate today (getForSymbol st.cache)
              (walkAndSeedCache st.disk st.cache).1,
            footerCoverage trading st.disk startDate endDate today)] }

def indexSystem : TransitionSystem IndexState IndexEvent where
  step := indexStep trading

/-- Month by month, the rows cover the same trading days of a window. -/
def CoversAlike (startDate endDate : ℤ) (rows rows' : List PartitionRow) : Prop :=
  ∀ month ∈ (rows ++ rows').map PartitionRow.month, ∀ d ∈ tradingDays trading startDate endDate,
    (∃ row ∈ rows, row.month = month ∧ Covers row d) ↔
      ∃ row ∈ rows', row.month = month ∧ Covers row d

instance (startDate endDate : ℤ) (rows rows' : List PartitionRow) :
    Decidable (CoversAlike trading startDate endDate rows rows') :=
  inferInstanceAs (Decidable (∀ _ ∈ _, ∀ _ ∈ _, _))

/-- What keeps the scans right.  A file that is written does not look like the file of the old row;
    a scan finds no row that covers a day of its window, or rows that cover what the footers do. -/
def InStep (st : IndexState) : IndexEvent → Prop
  | .write month file =>
    ∀ row ∈ Dict.get st.cache month, Validates row file → rowOf month file = some row
  | .refresh _ _ => True
  | .coverage startDate endDate _ =>
    coveredDays trading startDate endDate (getForSymbol st.cache) = [] ∨
      CoversAlike trading startDate endDate (getForSymbol st.cache) (currentRows st.disk)

instance (st : IndexState) (event : IndexEvent) : Decidable (InStep trading st event) :=
  match event with
  | .write _ _ => inferInstanceAs (Decidable (∀ _ ∈ _, _))
  | .refresh _ _ => inferInstanceAs (Decidable True)
  | .coverage _ _ _ => inferInstanceAs (Decidable (_ ∨ _))

end System

/-! ### One scan -/

section Scan

variable {trading : ℤ → Bool} {startDate endDate today : ℤ} {rows rows' : List PartitionRow}
  {covered covered' : List ℤ} {disk : Disk} {cache : Cache}

/-- A report depends on the set of the covered days only. -/
theorem reportCovered_congr (h : ∀ d, d ∈ covered ↔ d ∈ covered') :
    reportCovered trading startDate endDate today covered
      = reportCovered trading startDate endDate today covered' := by
  have hempty : covered.isEmpty = covered'.isEmpty := by
    rw [Bool.eq_iff_iff, List.isEmpty_iff, List.isEmpty_iff, List.eq_nil_iff_forall_not_mem,
      List.eq_nil_iff_forall_not_mem]
    exact forall_congr' fun d => not_congr (h d)
  have hmissing : missingDays trading startDate endDate today covered
      = missingDays trading startDate endDate today covered' := by
    unfold missingDays
    refine congrArg _ (List.filter_congr fun d _ => ?_)
    rw [decide_eq_decide]
    exact not_congr (h d)
  have hmin : covered.min? = covered'.min? := by
    ext d
    rw [List.min?_eq_some_iff, List.min?_eq_some_iff, h]
    exact and_congr_right fun _ => forall_congr' fun e => by rw [h]
  have hmax : covered.max? = covered'.max? := by
    ext d
    rw [List.max?_eq_some_iff, List.max?_eq_some_iff, h]
    exact and_congr_right fun _ => forall_congr' fun e => by rw [h]
  unfold reportCovered deriveCoveredRange
  rw [hempty, hmissing, hmin, hmax]

theorem CoversAlike.coveredDays (h : CoversAlike trading startDate endDate rows rows') (d : ℤ) :
    d ∈ coveredDays trading startDate endDate rows ↔
      d ∈ MarketData.coveredDays trading startDate endDate rows' := by
  rw [mem_coveredDays, mem_coveredDays]
  refine and_congr_right fun hday => ⟨?_, ?_⟩
  · rintro ⟨row, hrow, hcovers⟩
    have hmonth : row.month ∈ (rows ++ rows').map PartitionRow.month :=
      List.mem_map_of_mem (List.mem_append_left rows' hrow)
    obtain ⟨row', hrow', -, hcovers'⟩ := (h row.month hmonth d hday).mp ⟨row, hrow, rfl, hcovers⟩
    exact ⟨row', hrow', hcovers'⟩
  · rintro ⟨row, hrow, hcovers⟩
    have hmonth : row.month ∈ (rows ++ rows').map PartitionRow.month :=
      List.mem_map_of_mem (List.mem_append_right rows hrow)
    obtain ⟨row', hrow', -, hcovers'⟩ := (h row.month hmonth d hday).mpr ⟨row, hrow, rfl, hcovers⟩
    exact ⟨row', hrow', hcovers'⟩

theorem CoversAlike.of_mem (h : ∀ row, row ∈ rows ↔ row ∈ rows') :
    CoversAlike trading startDate endDate rows rows' :=
  fun _ _ _ _ => exists_congr fun row => and_congr_left fun _ => h row

/-- **A scan says what the footers say** if it finds rows that cover nothing, or what the footers
    do. -/
theorem computeCoverage_eq (hhonest : Honest disk cache)
    (h : coveredDays trading startDate endDate (getForSymbol cache) = [] ∨
      CoversAlike trading startDate endDate (getForSymbol cache) (currentRows disk)) :
    computeCoverage trading startDate endDate today (getForSymbol cache)
        (walkAndSeedCache disk cache).1
      = footerCoverage trading disk startDate endDate today := by
  have hused : rowsUsed trading startDate endDate (currentRows disk) (currentRows disk)
      = currentRows disk := ite_self _
  unfold footerCoverage computeCoverage
  rw [walk_eq_currentRows hhonest, hused]
  split
  · rfl
  · refine reportCovered_congr fun d => ?_
    unfold rowsUsed
    split
    · rfl
    · rename_i hsome
      rcases h with hnone | halike
      · exact absurd (List.isEmpty_iff.mpr hnone) hsome
      · exact halike.coveredDays d

end Scan

/-! ### Runs -/

section Runs

variable {trading : ℤ → Bool} {st st' : IndexState} {event : IndexEvent}

theorem step_write {month : ℤ} {file : ParquetFile}
    (h : (indexSystem trading).step st (.write month file) = some st') :
    file.timestamps ≠ [] ∧
      st' = { st with disk := st.disk.set month file, pending := st.pending ++ [month] } := by
  change (if file.timestamps = [] then none else _) = some st' at h
  split at h
  · exact absurd h (by simp)
  · rename_i hne
    exact ⟨hne, (Option.some.inj h).symm⟩

theorem step_refresh {month : ℤ} {ok : Bool}
    (h : (indexSystem trading).step st (.refresh month ok) = some st') :
    ∃ file, Dict.get st.disk month = some file ∧
      st' = { st with
        cache := if ok then (refresh st.cache month file).2 else st.cache
        pending := st.pending.erase month } := by
  change (if month ∈ st.pending then _ else none) = some st' at h
  split at h
  · obtain ⟨file, hfile, rfl⟩ := Option.map_eq_some_iff.mp h
    exact ⟨file, hfile, rfl⟩
  · exact absurd h (by simp)

/-- No row passes for one that it is not, and every scan said what the footers said. -/
def ScansRight (st : IndexState) : Prop :=
  Honest st.disk st.cache ∧ ∀ scan ∈ st.scans, scan.1 = scan.2

theorem ScansRight.step (h : ScansRight st) (hin : InStep trading st event)
    (hstep : (indexSystem trading).step st event = some st') : ScansRight st' := by
  obtain ⟨hhonest, hscans⟩ := h
  cases event with
  | write month file =>
    obtain ⟨-, rfl⟩ := step_write hstep
    exact ⟨hhonest.write hin, hscans⟩
  | refresh month ok =>
    obtain ⟨file, hfile, rfl⟩ := step_refresh hstep
    refine ⟨?_, hscans⟩
    cases ok with
    | true => exact hhonest.refresh hfile
    | false => exact hhonest
  | coverage startDate endDate today =>
    obtain rfl := Option.some.inj hstep
    refine ⟨?_, fun scan hscan => ?_⟩
    · show Honest st.disk (cacheAfter trading st.disk st.cache startDate endDate)
      unfold cacheAfter
      split
      · exact hhonest
      · split
        · exact hhonest.walked
        · exact hhonest
    · rcases List.mem_append.mp hscan with hold | hnew
      · exact hscans scan hold
      · obtain rfl := List.mem_singleton.mp hnew
        exact computeCoverage_eq hhonest hin

/-- **Coverage follows the disk** in a run whose scans find rows that are in step. -/
theorem coverage_follows_disk (sessions : String → ℤ → Bool) (assetClass : String)
    (events : List IndexEvent) (st : IndexState)
    (hrun : (indexSystem (isTradingDay sessions assetClass)).Path
      (InStep (isTradingDay sessions assetClass)) IndexState.fresh events st) :
    ∀ scan ∈ st.scans, scan.1 = scan.2 := by
  have hfresh : ScansRight IndexState.fresh :=
    ⟨Honest.nil, fun _ hscan => absurd hscan List.not_mem_nil⟩
  exact (hrun.invariant (fun _ _ _ h hin hstep => h.step hin hstep) hfresh).2

/-! ### Runs without a failed refresh -/

/-- Refreshes succeed, and scans wait for them. -/
def Settled (st : IndexState) : IndexEvent → Prop
  | .write month file =>
    ∀ row ∈ Dict.get st.cache month, Validates row file → rowOf month file = some row
  | .refresh _ ok => ok = true
  | .coverage _ _ _ => st.pending = []

/-- Only a month whose refresh is yet to come has an old row. -/
structure Synced (st : IndexState) : Prop where
  nodup : (Dict.keys st.cache).Nodup
  nonempty : ∀ month file, Dict.get st.disk month = some file → file.timestamps ≠ []
  current : ∀ month, month ∉ st.pending → Dict.get st.cache month = currentRow st.disk month

theorem Synced.fresh : Synced IndexState.fresh where
  nodup := List.nodup_nil
  nonempty := fun _ _ h => absurd h (by simp [IndexState.fresh, Dict.get])
  current := fun _ _ => rfl

/-- The rows are the current ones when nothing is pending. -/
theorem Synced.mem_getForSymbol (h : Synced st) (hpending : st.pending = []) (row : PartitionRow) :
    row ∈ getForSymbol st.cache ↔ row ∈ currentRows st.disk := by
  unfold getForSymbol
  rw [rankBy_perm.mem_iff, Dict.mem_values h.nodup, mem_currentRows]
  refine exists_congr fun month => ?_
  rw [h.current month (by rw [hpending]; exact List.not_mem_nil)]

theorem Synced.inStep (h : Synced st) (hsettled : Settled st event) : InStep trading st event := by
  cases event with
  | write month file => exact hsettled
  | refresh month ok => exact trivial
  | coverage startDate endDate today =>
    exact Or.inr (CoversAlike.of_mem (h.mem_getForSymbol hsettled))

theorem Synced.step (h : Synced st) (hsettled : Settled st event)
    (hstep : (indexSystem trading).step st event = some st') : Synced st' := by
  cases event with
  | write month file =>
    obtain ⟨hne, rfl⟩ := step_write hstep
    refine ⟨h.nodup, fun month' file' hget => ?_, fun month' hnot => ?_⟩
    · rw [Dict.get_set] at hget
      split at hget
      · obtain rfl := Option.some.inj hget
        exact hne
      · exact h.nonempty month' file' hget
    · have hold : month' ∉ st.pending := fun hmem => hnot (List.mem_append_left _ hmem)
      have hother : month ≠ month' := by
        rintro rfl
        exact hnot (List.mem_append_right _ (List.mem_singleton_self month))
      unfold currentRow
      rw [Dict.get_set, if_neg hother]
      exact h.current month' hold
  | refresh month ok =>
    obtain ⟨file, hfile, rfl⟩ := step_refresh hstep
    obtain rfl : ok = true := hsettled
    obtain ⟨row, hrow, -⟩ := @rowOf_spec month file (h.nonempty month file hfile)
    have hcache : (refresh st.cache month file).2 = st.cache.set month row := by
      unfold refresh
      rw [hrow]
    refine ⟨?_, h.nonempty, fun month' hnot => ?_⟩
    · show (Dict.keys (refresh st.cache month file).2).Nodup
      rw [hcache]
      exact Dict.nodup_keys_set h.nodup
    · show Dict.get (refresh st.cache month file).2 month' = _
      rw [hcache, Dict.get_set]
      split
      · rename_i heq
        subst heq
        show some row = (Dict.get st.disk month).bind (rowOf month)
        rw [hfile]
        exact hrow.symm
      · rename_i hother
        refine h.current month' fun hmem => hnot ?_
        exact (List.mem_erase_of_ne (Ne.symm hother)).mpr hmem
  | coverage startDate endDate today =>
    obtain rfl := Option.some.inj hstep
    have hpending : st.pending = [] := hsettled
    have hcache : cacheAfter trading st.disk st.cache startDate endDate = st.cache := by
      unfold cacheAfter
      split
      · rfl
      · split
        · refine walk_of_current fun month => h.current month ?_
          rw [hpending]
          exact List.not_mem_nil
        · rfl
    refine ⟨?_, h.nonempty, ?_⟩
    · show (Dict.keys (cacheAfter trading st.disk st.cache startDate endDate)).Nodup
      rw [hcache]
      exact h.nodup
    · show ∀ month, month ∉ st.pending →
        Dict.get (cacheAfter trading st.disk st.cache startDate endDate) month = _
      rw [hcache]
      exact h.current

/-- **Where refreshes succeed and scans wait for them**, the scans find rows that are in step. -/
theorem inStep_of_settled {events : List IndexEvent}
    (hrun : (indexSystem trading).Path Settled IndexState.fresh events st) :
    (indexSystem trading).Path (InStep trading) IndexState.fresh events st :=
  hrun.strengthen (fun _ _ _ h hsettled hstep => h.step hsettled hstep)
    (fun _ _ _ h hsettled _ => h.inStep hsettled) Synced.fresh

/-! ### A failed refresh -/

/-- A month file with bars at the midnights of some days. -/
def fileOfDays (days : List ℤ) (mtime : ℤ) : ParquetFile where
  timestamps := days.map (· * dayNs)
  mtime := mtime
  size := days.length

/-- The refresh of January succeeds and that of February fails. -/
def halfRefreshed : List IndexEvent :=
  [.write (12 * 2024) (fileOfDays (span (dayNumber 2024 1 2) (dayNumber 2024 1 31)) 1),
    .refresh (12 * 2024) true,
    .write (12 * 2024 + 1) (fileOfDays (span (dayNumber 2024 2 1) (dayNumber 2024 2 29)) 2),
    .refresh (12 * 2024 + 1) false]

/-- A window over both months: February is reported as missing, though its file is there. -/
theorem coverage_misses_month :
    let trading := isTradingDay (fun _ _ => false) "crypto"
    let first := dayNumber 2024 1 30
    let last := dayNumber 2024 2 2
    ∃ st, (indexSystem trading).Path TransitionSystem.anyStep IndexState.fresh
        (halfRefreshed ++ [.coverage first last (dayNumber 2024 4 1)]) st ∧
      st.scans =
        [({ status := .gapped, coveredRange := some (first, first + 1)
            missingRanges := [(first + 2, last)] },
          { status := .full, coveredRange := some (first, last), missingRanges := [] })] := by
  intro trading first last
  let st := ((indexSystem trading).run IndexState.fresh
    (halfRefreshed ++ [.coverage first last (dayNumber 2024 4 1)])).getD IndexState.fresh
  refine ⟨st, TransitionSystem.Path.of_run ?_, ?_⟩
  · decide +kernel
  · decide +kernel

/-- A window in February only: the scan finds no row that covers a day of it, and walks. -/
theorem coverage_follows_disk_walk :
    let trading := isTradingDay (fun _ _ => false) "crypto"
    ∃ st, (indexSystem trading).Path (InStep trading) IndexState.fresh
        (halfRefreshed ++ [.coverage (dayNumber 2024 2 1) (dayNumber 2024 2 2)
          (dayNumber 2024 4 1)]) st ∧
      st.scans ≠ [] ∧ ∀ scan ∈ st.scans, scan.1 = scan.2 := by
  intro trading
  let events := halfRefreshed ++ [.coverage (dayNumber 2024 2 1) (dayNumber 2024 2 2)
    (dayNumber 2024 4 1)]
  let st := ((indexSystem trading).runWhere (InStep trading) IndexState.fresh events).getD
    IndexState.fresh
  have hrun : (indexSystem trading).Path (InStep trading) IndexState.fresh events st :=
    TransitionSystem.Path.of_runWhere (by decide +kernel)
  exact ⟨st, hrun, by decide +kernel,
    coverage_follows_disk (fun _ _ => false) "crypto" events st hrun⟩

end Runs

end Msai.MarketData
