import Msai.Lib.Dict
import Msai.Lib.Ranking
import Mathlib.Algebra.Order.Ring.Int

namespace Msai.MarketData

open Msai.Lib

/-!
# The partition index (`services/symbol_onboarding/partition_index.py`)

A table with one row for each month file of a symbol, so that a coverage scan need not open the
files.

* `ParquetFile`, `readParquetFooter` — a month file, and what its footer says;
* `get`, `getForSymbol`, `refresh` — the service, over the rows of one symbol;
* `walkAndSeedCache` — the walk over the files of the symbol (`coverage.py`);
* `currentRows` — the rows that the footers on the disk make;
* `Honest` — a row that passes the test of its file is the row of its footer;
* `walk_eq_currentRows` — then the walk returns the current rows.

A month is known by its number from January of the year 0, and the files of a symbol by their
months.  The files are those of `ParquetStore`: they have a `timestamp` column with statistics.
-/

/-- A month file: its timestamps, and what `stat` says of it. -/
structure ParquetFile where
  timestamps : List ℤ
  mtime : ℤ
  size : ℕ
deriving DecidableEq, Repr

/-- `PartitionFooter`. -/
structure PartitionFooter where
  minTs : ℤ
  maxTs : ℤ
  rowCount : ℕ
  fileMtime : ℤ
  fileSize : ℕ
deriving DecidableEq, Repr

/-- `read_parquet_footer` of a file that is there. -/
def readParquetFooter (file : ParquetFile) : Option PartitionFooter :=
  match file.timestamps.min?, file.timestamps.max? with
  | some minTs, some maxTs => some
      { minTs := minTs, maxTs := maxTs, rowCount := file.timestamps.length
        fileMtime := file.mtime, fileSize := file.size }
  | _, _ => none

/-- `PartitionRow`, without the names that all rows of a symbol share. -/
structure PartitionRow where
  month : ℤ
  footer : PartitionFooter
deriving DecidableEq, Repr

/-- The files of a symbol, by month. -/
abbrev Disk := Dict ℤ ParquetFile

/-- The rows of a symbol, by month. -/
abbrev Cache := Dict ℤ PartitionRow

/-- The row that a file makes. -/
def rowOf (month : ℤ) (file : ParquetFile) : Option PartitionRow :=
  (readParquetFooter file).map fun footer => { month := month, footer := footer }

/-! ### The service -/

/-- `_refresh`, and `refresh_for_partition`: the row, and the rows behind the upsert. -/
def refresh (cache : Cache) (month : ℤ) (file : ParquetFile) : Option PartitionRow × Cache :=
  match rowOf month file with
  | none => (none, cache)
  | some row => (some row, cache.set month row)

/-- The test of `get` on the file: same mtime, same size. -/
def Validates (row : PartitionRow) (file : ParquetFile) : Prop :=
  row.footer.fileMtime = file.mtime ∧ row.footer.fileSize = file.size

instance (row : PartitionRow) (file : ParquetFile) : Decidable (Validates row file) :=
  inferInstanceAs (Decidable (_ ∧ _))

/-- `PartitionIndexService.get`. -/
def get (cache : Cache) (month : ℤ) (file : Option ParquetFile) : Option PartitionRow × Cache :=
  match file with
  | none => (none, cache)
  | some file =>
    match Dict.get cache month with
    | none => refresh cache month file
    | some cached =>
      if Validates cached file then (some cached, cache) else refresh cache month file

/-- `get_for_symbol`. -/
def getForSymbol (cache : Cache) : List PartitionRow := rankBy PartitionRow.month cache.values

/-- One file of the walk. -/
def walkFile (disk : Disk) (seeded : List PartitionRow × Cache) (month : ℤ) :
    List PartitionRow × Cache :=
  let found := get seeded.2 month (Dict.get disk month)
  (seeded.1 ++ found.1.toList, found.2)

/-- `_walk_and_seed_cache`, in the order of the months. -/
def walkAndSeedCache (disk : Disk) (cache : Cache) : List PartitionRow × Cache :=
  (rankBy id disk.keys).foldl (walkFile disk) ([], cache)

/-! ### Current rows -/

/-- The row of the current footer of a month. -/
def currentRow (disk : Disk) (month : ℤ) : Option PartitionRow :=
  (Dict.get disk month).bind (rowOf month)

/-- The rows of the current footers. -/
def currentRows (disk : Disk) : List PartitionRow :=
  (rankBy id disk.keys).filterMap (currentRow disk)

/-- A row that passes the test of its file is the row of its footer. -/
def Honest (disk : Disk) (cache : Cache) : Prop :=
  ∀ month row file, Dict.get cache month = some row → Dict.get disk month = some file →
    Validates row file → rowOf month file = some row

variable {disk : Disk} {cache : Cache} {month : ℤ} {file : ParquetFile} {row : PartitionRow}

/-- A file that has rows has a footer, and its row passes the test. -/
theorem rowOf_spec (h : file.timestamps ≠ []) : ∃ row, rowOf month file = some row ∧
    row.month = month ∧ Validates row file := by
  unfold rowOf readParquetFooter
  cases htimes : file.timestamps with
  | nil => exact absurd htimes h
  | cons t times =>
    rw [List.min?_cons, List.max?_cons]
    exact ⟨_, rfl, rfl, rfl, rfl⟩

theorem mem_currentRows : row ∈ currentRows disk ↔ ∃ month, currentRow disk month = some row := by
  unfold currentRows
  rw [List.mem_filterMap]
  constructor
  · rintro ⟨month, -, hrow⟩
    exact ⟨month, hrow⟩
  · rintro ⟨month, hrow⟩
    refine ⟨month, rankBy_perm.mem_iff.mpr ?_, hrow⟩
    by_contra hnot
    unfold currentRow at hrow
    rw [Dict.get_eq_none.mpr hnot] at hrow
    exact absurd hrow (by simp)

theorem Honest.nil : Honest disk [] := fun _ _ _ h => absurd h (by simp [Dict.get])

/-- A refresh stores the row of the current footer. -/
theorem Honest.refresh (h : Honest disk cache) (hfile : Dict.get disk month = some file) :
    Honest disk (refresh cache month file).2 := by
  unfold MarketData.refresh
  cases hrow : rowOf month file with
  | none => exact h
  | some row =>
    intro month' row' file' hget hfile' hsame
    rw [Dict.get_set] at hget
    split at hget
    · rename_i hmonth
      subst hmonth
      obtain rfl := Option.some.inj hget
      obtain rfl := Option.some.inj (hfile.symm.trans hfile')
      exact hrow
    · exact h month' row' file' hget hfile' hsame

theorem refresh_fst : (refresh cache month file).1 = rowOf month file := by
  unfold refresh
  cases rowOf month file with
  | none => rfl
  | some row => rfl

/-- **A validated row is the current one.** -/
theorem Honest.get_fst (h : Honest disk cache) :
    (get cache month (Dict.get disk month)).1 = currentRow disk month := by
  unfold currentRow
  cases hfile : Dict.get disk month with
  | none => rfl
  | some file =>
    show (get cache month (some file)).1 = rowOf month file
    unfold get
    dsimp only
    cases hcached : Dict.get cache month with
    | none => exact refresh_fst
    | some cached =>
      dsimp only
      split
      · rename_i hsame
        exact (h month cached file hcached hfile hsame).symm
      · exact refresh_fst

theorem Honest.get_snd (h : Honest disk cache) :
    Honest disk (get cache month (Dict.get disk month)).2 := by
  cases hfile : Dict.get disk month with
  | none => exact h
  | some file =>
    unfold get
    dsimp only
    cases hcached : Dict.get cache month with
    | none => exact h.refresh hfile
    | some cached =>
      dsimp only
      split
      · exact h
      · exact h.refresh hfile

/-- The walk, from the rows that it has found so far. -/
theorem Honest.walk (h : Honest disk cache) (months : List ℤ) (seeded : List PartitionRow) :
    (months.foldl (walkFile disk) (seeded, cache)).1
        = seeded ++ months.filterMap (currentRow disk) ∧
      Honest disk (months.foldl (walkFile disk) (seeded, cache)).2 := by
  induction months generalizing seeded cache with
  | nil => exact ⟨(List.append_nil seeded).symm, h⟩
  | cons month months ih =>
    have hget : Honest disk (get cache month (Dict.get disk month)).2 := h.get_snd
    obtain ⟨hrows, hhonest⟩ := ih hget
      (seeded ++ (get cache month (Dict.get disk month)).1.toList)
    refine ⟨?_, hhonest⟩
    rw [List.foldl_cons]
    refine hrows.trans ?_
    rw [h.get_fst, List.append_assoc]
    refine congrArg (seeded ++ ·) ?_
    rw [List.filterMap_cons]
    cases currentRow disk month with
    | none => rfl
    | some row => rfl

/-- **The walk returns the rows of the current footers.** -/
theorem walk_eq_currentRows (h : Honest disk cache) :
    (walkAndSeedCache disk cache).1 = currentRows disk := by
  unfold walkAndSeedCache currentRows
  rw [(h.walk (rankBy id disk.keys) []).1]
  rfl

theorem Honest.walked (h : Honest disk cache) : Honest disk (walkAndSeedCache disk cache).2 :=
  (h.walk (rankBy id disk.keys) []).2

/-- A file is replaced: its old row must not pass the test of the new file. -/
theorem Honest.write (h : Honest disk cache)
    (hnew : ∀ row ∈ Dict.get cache month, Validates row file → rowOf month file = some row) :
    Honest (disk.set month file) cache := by
  intro month' row file' hget hfile hsame
  rw [Dict.get_set] at hfile
  split at hfile
  · rename_i hmonth
    subst hmonth
    obtain rfl := Option.some.inj hfile
    exact hnew row hget hsame
  · exact h month' row file' hget hfile hsame

/-- A row that is current is not read again. -/
theorem get_snd_of_current (h : Dict.get cache month = currentRow disk month) :
    (get cache month (Dict.get disk month)).2 = cache := by
  unfold currentRow at h
  cases hfile : Dict.get disk month with
  | none => rfl
  | some file =>
    rw [hfile] at h
    change Dict.get cache month = rowOf month file at h
    unfold get
    dsimp only
    rw [h]
    cases hrow : rowOf month file with
    | none =>
      show (refresh cache month file).2 = cache
      unfold refresh
      rw [hrow]
    | some row =>
      have hsame : Validates row file := by
        have hne : file.timestamps ≠ [] := by
          intro hnil
          unfold rowOf readParquetFooter at hrow
          rw [hnil] at hrow
          exact absurd hrow (by simp)
        obtain ⟨row', hrow', -, hsame⟩ := rowOf_spec hne
        obtain rfl := Option.some.inj (hrow.symm.trans hrow')
        exact hsame
      show (if Validates row file then (some row, cache) else refresh cache month file).2 = cache
      rw [if_pos hsame]

/-- A walk over rows that are current leaves them. -/
theorem walk_of_current (h : ∀ month, Dict.get cache month = currentRow disk month) :
    (walkAndSeedCache disk cache).2 = cache := by
  unfold walkAndSeedCache
  generalize rankBy id disk.keys = months
  generalize ([] : List PartitionRow) = seeded
  induction months generalizing seeded with
  | nil => rfl
  | cons month months ih =>
    have hget : (walkFile disk (seeded, cache) month).2 = cache := get_snd_of_current (h month)
    rw [List.foldl_cons, ← Prod.mk.eta (p := walkFile disk (seeded, cache) month), hget]
    exact ih _

end Msai.MarketData
