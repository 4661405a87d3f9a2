import Msai.Lib.Calendar
import Msai.Lib.Dict
import Msai.Lib.KeepLast
import Msai.Lib.PyText
import Msai.Lib.Ranking

namespace Msai.MarketData

open Msai.Lib Msai.Lib.Calendar

/-!
# The Parquet store (`services/parquet_store.py`, `core/data_integrity.py`)

The bars of a symbol in one file for each month.

* `dedupBars`, `writeBars`, `readBars` — the functions of the source, over the files of one symbol;
* `Store` — files that hold a timestamp once, in the file of its month;
* `Store.barAt_write` — a write replaces the bars that its batch has;
* `parquet_merge_law` — a read returns the last write of each timestamp;
* `range_read_iff` — when a read of a range of dates has all bars of its last day.

A timestamp is the number of nanoseconds since 1970-01-01, and `ν` is what else a bar has.  The
digest of a file is an argument.
-/

universe u

/-- A row of a bar frame. -/
structure Bar (ν : Type u) where
  timestamp : ℤ
  values : ν
deriving DecidableEq, Repr

/-- The files of a symbol, by month. -/
abbrev Directory (ν : Type u) := Dict ℤ (List (Bar ν))

/-- A letter, a digit, or one of `.`, `_`, `-`. -/
def isSymbolChar (c : Char) : Bool := c.isAlphanum || c == '.' || c == '_' || c == '-'

/-- `_SYMBOL_PATTERN`. -/
def symbolPattern (symbol : String) : Bool :=
  PyText.matchesLine (fun cs => decide (1 ≤ cs.length ∧ cs.length ≤ 20) && cs.all isSymbolChar)
    symbol.toList

variable {ν : Type u}

/-- `dedup_bars` with the key `("timestamp",)`. -/
def dedupBars (df : List (Bar ν)) : List (Bar ν) := keepLast Bar.timestamp df

/-- `(df["timestamp"].dt.year, df["timestamp"].dt.month)`. -/
def monthOfBar (b : Bar ν) : ℤ := monthOf (dayOf b.timestamp)

/-- A group and the file that may exist. -/
def mergeGroup (existing : Option (List (Bar ν))) (group : List (Bar ν)) : List (Bar ν) :=
  match existing with
  | some existing => dedupBars (existing ++ group)
  | none => group

/-- The group of a month. -/
def groupOf (df : List (Bar ν)) (month : ℤ) : List (Bar ν) :=
  df.filter fun b => monthOfBar b = month

/-- The keys of `groupby`, in order. -/
def groupMonths (df : List (Bar ν)) : List ℤ := rankBy id (firstSeen monthOfBar df)

section Source

variable (sha256Hex : List (Bar ν) → String)

/-- One group of `write_bars`: the checksum, and the files behind the write. -/
def writeGroup (df : List (Bar ν)) (written : String × Directory ν) (month : ℤ) :
    String × Directory ν :=
  let group := mergeGroup (Dict.get written.2 month) (groupOf df month)
  (sha256Hex group, written.2.set month group)

/-- `write_bars`, for a symbol and its files. -/
def writeBars (symbol : String) (files : Directory ν) (df : List (Bar ν)) :
    String × Directory ν :=
  if ¬ symbolPattern symbol then ("", files)
  else if df.isEmpty then ("", files)
  else
    let df := dedupBars df
    (groupMonths df).foldl (writeGroup sha256Hex df) ("", files)

/-- The files behind some writes. -/
def writeAll (symbol : String) (writes : List (List (Bar ν))) : Directory ν :=
  writes.foldl (fun files df => (writeBars sha256Hex symbol files df).2) []

end Source

/-- `read_bars`, where `start` and `end` have become timestamps. -/
def readBars (symbol : String) (files : Directory ν) (startTs endTs : Option ℤ) : List (Bar ν) :=
  if ¬ symbolPattern symbol then []
  else
    let df := (rankBy Prod.fst files).flatMap Prod.snd
    let df := match startTs with
      | some t => df.filter fun b => t ≤ b.timestamp
      | none => df
    let df := match endTs with
      | some t => df.filter fun b => b.timestamp ≤ t
      | none => df
    rankBy Bar.timestamp df

/-- `pd.Timestamp(d, tz="UTC")` of a date. -/
def midnight (d : ℤ) : ℤ := d * dayNs

/-! ### Groups -/

section Groups

variable {df existing : List (Bar ν)} {files : Directory ν} {month t : ℤ} {b : Bar ν}

theorem mem_groupMonths : month ∈ groupMonths df ↔ ∃ b ∈ df, monthOfBar b = month := by
  unfold groupMonths
  rw [rankBy_perm.mem_iff, mem_firstSeen]

theorem nodup_groupMonths : (groupMonths df).Nodup :=
  rankBy_perm.nodup_iff.mpr nodup_firstSeen

theorem nodup_dedupBars : ((dedupBars df).map Bar.timestamp).Nodup := nodup_keepLast

theorem nodup_groupOf : ((groupOf (dedupBars df) month).map Bar.timestamp).Nodup :=
  nodup_dedupBars.sublist (List.filter_sublist.map Bar.timestamp)

theorem mem_mergeGroup {existing : Option (List (Bar ν))}
    (h : b ∈ mergeGroup existing (groupOf df month)) :
    (∃ bars, existing = some bars ∧ b ∈ bars) ∨ monthOfBar b = month := by
  have hgroup : ∀ b ∈ groupOf df month, monthOfBar b = month := fun b hb => by
    simpa using (List.mem_filter.mp hb).2
  cases existing with
  | none => exact Or.inr (hgroup b h)
  | some bars =>
    rcases List.mem_append.mp (keepLast_sublist.subset h) with hold | hnew
    · exact Or.inl ⟨bars, rfl, hold⟩
    · exact Or.inr (hgroup b hnew)

theorem nodup_mergeGroup {existing : Option (List (Bar ν))} :
    ((mergeGroup existing (groupOf (dedupBars df) month)).map Bar.timestamp).Nodup := by
  cases existing with
  | none => exact nodup_groupOf
  | some bars => exact nodup_keepLast

/-- The bars of a group replace those of the file. -/
theorem newest_mergeGroup {existing : Option (List (Bar ν))} {group : List (Bar ν)} :
    newest Bar.timestamp (mergeGroup existing group) t
      = (newest Bar.timestamp group t).or
        (existing.bind fun bars => newest Bar.timestamp bars t) := by
  cases existing with
  | none => exact Option.or_none.symm
  | some bars => exact newest_keepLast.trans newest_append

/-- A group that is merged once more changes nothing. -/
theorem mergeGroup_twice {existing : Option (List (Bar ν))} :
    mergeGroup (some (mergeGroup existing (groupOf (dedupBars df) month)))
        (groupOf (dedupBars df) month)
      = mergeGroup existing (groupOf (dedupBars df) month) := by
  cases existing with
  | none =>
    show dedupBars (groupOf (dedupBars df) month ++ groupOf (dedupBars df) month) = _
    have htwice : dedupBars (dedupBars ([] ++ groupOf (dedupBars df) month)
        ++ groupOf (dedupBars df) month) = dedupBars ([] ++ groupOf (dedupBars df) month) :=
      keepLast_append_twice nodup_groupOf
    have hself : dedupBars ([] ++ groupOf (dedupBars df) month) = groupOf (dedupBars df) month :=
      keepLast_of_nodup nodup_groupOf
    rwa [hself] at htwice
  | some bars => exact keepLast_append_twice nodup_groupOf

/-- The group of a month has the last bars of its timestamps. -/
theorem newest_groupOf :
    newest Bar.timestamp (groupOf (dedupBars df) (monthOf (dayOf t))) t
      = newest Bar.timestamp df t := by
  have hfilter : newest Bar.timestamp (groupOf (dedupBars df) (monthOf (dayOf t))) t = _ :=
    newest_filter (q := fun k => decide (monthOf (dayOf k) = monthOf (dayOf t))) fun _ => rfl
  exact hfilter.trans ((if_pos (decide_eq_true rfl)).trans newest_keepLast)

end Groups

/-! ### Writes -/

section Writes

variable {sha256Hex : List (Bar ν) → String} {symbol : String} {df : List (Bar ν)}
  {files : Directory ν} {month : ℤ} {months : List ℤ} {checksum : String}

/-- The loop over the groups. -/
theorem get_writeGroups (hnodup : months.Nodup) :
    Dict.get (months.foldl (writeGroup sha256Hex df) (checksum, files)).2 month
      = if month ∈ months then some (mergeGroup (Dict.get files month) (groupOf df month))
        else Dict.get files month := by
  induction months generalizing checksum files with
  | nil => rfl
  | cons m months ih =>
    obtain ⟨hm, hnodup⟩ := List.nodup_cons.mp hnodup
    rw [List.foldl_cons]
    show Dict.get (months.foldl (writeGroup sha256Hex df) (_, files.set m _)).2 month = _
    rw [ih hnodup, Dict.get_set]
    by_cases heq : m = month
    · subst heq
      rw [if_neg hm, if_pos rfl, if_pos List.mem_cons_self]
    · rw [if_neg heq]
      have hiff : month ∈ m :: months ↔ month ∈ months :=
        List.mem_cons.trans (or_iff_right (Ne.symm heq))
      simp only [hiff]

theorem keys_writeGroups (h : (Dict.keys files).Nodup) :
    (Dict.keys (months.foldl (writeGroup sha256Hex df) (checksum, files)).2).Nodup := by
  induction months generalizing checksum files with
  | nil => exact h
  | cons m months ih => exact ih (Dict.nodup_keys_set h)

theorem writeBars_rejected (h : ¬ symbolPattern symbol) :
    writeBars sha256Hex symbol files df = ("", files) := if_pos h

/-- A write that is not rejected. -/
theorem writeBars_eq (h : symbolPattern symbol = true) :
    writeBars sha256Hex symbol files df
      = (groupMonths (dedupBars df)).foldl (writeGroup sha256Hex (dedupBars df)) ("", files) := by
  unfold writeBars
  rw [if_neg (by simpa using h)]
  cases df with
  | nil => rfl
  | cons b df => rfl

/-- **The files behind a write.** -/
theorem get_writeBars (h : symbolPattern symbol = true) :
    Dict.get (writeBars sha256Hex symbol files df).2 month
      = if month ∈ groupMonths (dedupBars df) then
          some (mergeGroup (Dict.get files month) (groupOf (dedupBars df) month))
        else Dict.get files month := by
  rw [writeBars_eq h]
  exact get_writeGroups nodup_groupMonths

/-- A file is as it was, or merged with its group. -/
theorem get_writeBars_cases {bars : List (Bar ν)}
    (h : Dict.get (writeBars sha256Hex symbol files df).2 month = some bars) :
    Dict.get files month = some bars ∨
      bars = mergeGroup (Dict.get files month) (groupOf (dedupBars df) month) := by
  by_cases hsymbol : symbolPattern symbol = true
  · rw [get_writeBars hsymbol] at h
    split at h
    · exact Or.inr (Option.some.inj h).symm
    · exact Or.inl h
  · rw [writeBars_rejected hsymbol] at h
    exact Or.inl h

end Writes

/-! ### Stores -/

/-- Files that hold a timestamp once, in the file of its month. -/
structure Store (ν : Type u) where
  files : Directory ν
  months : (Dict.keys files).Nodup
  once : ∀ month bars, Dict.get files month = some bars → (bars.map Bar.timestamp).Nodup
  placed : ∀ month bars, Dict.get files month = some bars → ∀ b ∈ bars, monthOfBar b = month

namespace Store

/-- No file. -/
def empty : Store ν where
  files := []
  months := List.nodup_nil
  once := fun _ _ h => absurd h (by simp [Dict.get])
  placed := fun _ _ h => absurd h (by simp [Dict.get])

/-- The bar of a timestamp. -/
def barAt (store : Store ν) (t : ℤ) : Option (Bar ν) :=
  (Dict.get store.files (monthOf (dayOf t))).bind fun bars => newest Bar.timestamp bars t

variable {store : Store ν} {b : Bar ν}

/-- The bars of the files are the bars of their timestamps. -/
theorem mem_files_iff :
    b ∈ store.files.flatMap Prod.snd ↔ store.barAt b.timestamp = some b := by
  have hvalues : b ∈ store.files.flatMap Prod.snd ↔ ∃ bars ∈ Dict.values store.files, b ∈ bars := by
    rw [List.mem_flatMap]
    exact ⟨fun ⟨p, hp, hb⟩ => ⟨p.2, List.mem_map_of_mem hp, hb⟩, fun ⟨bars, hbars, hb⟩ => by
      obtain ⟨p, hp, rfl⟩ := List.mem_map.mp hbars
      exact ⟨p, hp, hb⟩⟩
  rw [hvalues]
  unfold barAt
  rw [Option.bind_eq_some_iff]
  constructor
  · rintro ⟨bars, hbars, hb⟩
    obtain ⟨month, hget⟩ := (Dict.mem_values store.months).mp hbars
    obtain rfl := store.placed month bars hget b hb
    exact ⟨bars, hget, (mem_iff_newest (store.once _ bars hget)).mp hb⟩
  · rintro ⟨bars, hget, hnewest⟩
    exact ⟨bars, (Dict.mem_values store.months).mpr ⟨_, hget⟩, (newest_spec hnewest).1⟩

/-- The files hold a timestamp once. -/
theorem nodup_timestamps : ((store.files.flatMap Prod.snd).map Bar.timestamp).Nodup := by
  rw [List.map_flatMap, List.nodup_flatMap]
  refine ⟨fun p hp => store.once p.1 p.2 ((Dict.mem_iff_get store.months).mp hp), ?_⟩
  have hmonths : store.files.Pairwise fun p q => p.1 ≠ q.1 := List.pairwise_map.mp store.months
  refine hmonths.imp_of_mem fun {p q} hp hq hne t ht ht' => hne ?_
  -- the month of a timestamp is that of its file
  obtain ⟨b, hb, rfl⟩ := List.mem_map.mp ht
  obtain ⟨b', hb', heq⟩ := List.mem_map.mp ht'
  have hfile := store.placed p.1 p.2 ((Dict.mem_iff_get store.months).mp hp) b hb
  have hfile' := store.placed q.1 q.2 ((Dict.mem_iff_get store.months).mp hq) b' hb'
  rw [← hfile, ← hfile', monthOfBar, monthOfBar, heq]

/-! ### A write -/

section Write

variable (sha256Hex : List (Bar ν) → String) (symbol : String)

/-- `write_bars` keeps a store. -/
def write (store : Store ν) (df : List (Bar ν)) : Store ν where
  files := (writeBars sha256Hex symbol store.files df).2
  months := by
    by_cases h : symbolPattern symbol = true
    · rw [writeBars_eq h]
      exact keys_writeGroups store.months
    · rw [writeBars_rejected h]
      exact store.months
  once := by
    intro month bars hget
    rcases get_writeBars_cases hget with hold | rfl
    · exact store.once month bars hold
    · exact nodup_mergeGroup
  placed := by
    intro month bars hget b hb
    rcases get_writeBars_cases hget with hold | rfl
    · exact store.placed month bars hold b hb
    · rcases mem_mergeGroup hb with ⟨bars, hbars, hb⟩ | hmonth
      · exact store.placed month bars hbars b hb
      · exact hmonth

variable {sha256Hex symbol}

/-- **A write replaces the bars that its batch has**, by the last ones in it. -/
theorem barAt_write (h : symbolPattern symbol = true) (df : List (Bar ν)) (t : ℤ) :
    (store.write sha256Hex symbol df).barAt t
      = (newest Bar.timestamp df t).or (store.barAt t) := by
  show (Dict.get (writeBars sha256Hex symbol store.files df).2 (monthOf (dayOf t))).bind _ = _
  rw [get_writeBars h]
  split
  · rw [Option.bind_some, newest_mergeGroup, newest_groupOf]
    rfl
  · -- no bar of the batch is of this month
    rename_i hnot
    have hnone : newest Bar.timestamp df t = none := by
      rw [← newest_keepLast, newest_eq_none, List.mem_map]
      rintro ⟨b, hb, rfl⟩
      exact hnot (mem_groupMonths.mpr ⟨b, hb, rfl⟩)
    rw [hnone]
    rfl

end Write

/-! ### Runs of writes -/

variable {sha256Hex : List (Bar ν) → String} {symbol : String}

/-- The store behind some writes. -/
def ofWrites (sha256Hex : List (Bar ν) → String) (symbol : String)
    (writes : List (List (Bar ν))) : Store ν :=
  writes.foldl (write sha256Hex symbol) empty

theorem files_ofWrites (writes : List (List (Bar ν))) :
    (ofWrites sha256Hex symbol writes).files = writeAll sha256Hex symbol writes := by
  induction writes using List.reverseRecOn with
  | nil => rfl
  | append_singleton writes df ih =>
    unfold ofWrites writeAll at *
    rw [List.foldl_append, List.foldl_append, ← ih]
    rfl

/-- **The bar of a timestamp is the last that was written.** -/
theorem barAt_ofWrites (h : symbolPattern symbol = true) (writes : List (List (Bar ν))) (t : ℤ) :
    (ofWrites sha256Hex symbol writes).barAt t = newest Bar.timestamp writes.flatten t := by
  induction writes using List.reverseRecOn with
  | nil => rfl
  | append_singleton writes df ih =>
    have hstep : ofWrites sha256Hex symbol (writes ++ [df])
        = (ofWrites sha256Hex symbol writes).write sha256Hex symbol df := by
      unfold ofWrites
      rw [List.foldl_append]
      rfl
    rw [hstep, barAt_write h, ih, List.flatten_append, newest_append, List.flatten_singleton]

end Store

/-! ### Reads -/

section Reads

variable {symbol : String} {files : Directory ν} {startTs endTs : Option ℤ} {store : Store ν}
  {b : Bar ν}

/-- The bars in order. -/
def Increasing (bars : List (Bar ν)) : Prop := bars.Pairwise fun b b' => b.timestamp < b'.timestamp

theorem Increasing.nodup {bars : List (Bar ν)} (h : Increasing bars) : bars.Nodup := by
  refine List.Pairwise.imp (fun hlt => ?_) h
  rintro rfl
  exact lt_irrefl _ hlt

/-- Bars in order are known by their members. -/
theorem Increasing.eq {bars bars' : List (Bar ν)} (h : Increasing bars) (h' : Increasing bars')
    (hmem : ∀ b, b ∈ bars ↔ b ∈ bars') : bars = bars' := by
  have hirrefl : Std.Irrefl fun b b' : Bar ν => b.timestamp < b'.timestamp :=
    ⟨fun b => lt_irrefl b.timestamp⟩
  have hantisymm : Std.Antisymm fun b b' : Bar ν => b.timestamp < b'.timestamp :=
    ⟨fun b b' hlt hgt => absurd hgt (lt_asymm hlt)⟩
  exact List.Pairwise.eq_of_mem_iff h h' hmem

theorem readBars_eq (h : symbolPattern symbol = true) : readBars symbol files startTs endTs
    = rankBy Bar.timestamp (((rankBy Prod.fst files).flatMap Prod.snd).filter fun b =>
        (∀ t ∈ startTs, t ≤ b.timestamp) ∧ ∀ t ∈ endTs, b.timestamp ≤ t) := by
  unfold readBars
  rw [if_neg (by simpa using h)]
  dsimp only
  cases startTs with
  | none =>
    cases endTs with
    | none => simp
    | some stop => simp
  | some first =>
    cases endTs with
    | none => simp
    | some stop => simp [List.filter_filter, Bool.and_comm]

theorem mem_readBars (h : symbolPattern symbol = true) :
    b ∈ readBars symbol files startTs endTs ↔ b ∈ files.flatMap Prod.snd ∧
      (∀ t ∈ startTs, t ≤ b.timestamp) ∧ ∀ t ∈ endTs, b.timestamp ≤ t := by
  rw [readBars_eq h, rankBy_perm.mem_iff, List.mem_filter, decide_eq_true_eq,
    (rankBy_perm.flatMap_right Prod.snd).mem_iff]

theorem readBars_rejected (h : ¬ symbolPattern symbol) :
    readBars symbol files startTs endTs = [] := if_pos h

/-- **A read is in order**, with one bar for each timestamp. -/
theorem Store.increasing_readBars (store : Store ν) :
    Increasing (readBars symbol store.files startTs endTs) := by
  by_cases h : symbolPattern symbol = true
  · have hnodup : ((readBars symbol store.files startTs endTs).map Bar.timestamp).Nodup := by
      rw [readBars_eq h, (rankBy_perm.map Bar.timestamp).nodup_iff]
      refine List.Nodup.sublist (List.filter_sublist.map Bar.timestamp) ?_
      rw [((rankBy_perm.flatMap_right Prod.snd).map Bar.timestamp).nodup_iff]
      exact store.nodup_timestamps
    have hle : (readBars symbol store.files startTs endTs).Pairwise fun b b' =>
        b.timestamp ≤ b'.timestamp := by
      rw [readBars_eq h]
      exact rankBy_pairwise
    refine (hle.and (List.pairwise_map.mp hnodup)).imp fun hboth => ?_
    exact lt_of_le_of_ne hboth.1 hboth.2
  · rw [readBars_rejected h]
    exact List.Pairwise.nil

end Reads

/-! ### The merge law -/

section MergeLaw

variable {sha256Hex : List (Bar ν) → String} {symbol : String} {writes : List (List (Bar ν))}

/-- What is read are the last writes. -/
theorem mem_readAll {b : Bar ν} (h : symbolPattern symbol = true) :
    b ∈ readBars symbol (writeAll sha256Hex symbol writes) none none ↔
      newest Bar.timestamp writes.flatten b.timestamp = some b := by
  rw [mem_readBars h, ← Store.files_ofWrites, Store.mem_files_iff, Store.barAt_ofWrites h]
  exact and_iff_left ⟨fun _ ht => absurd ht (by simp), fun _ ht => absurd ht (by simp)⟩

theorem increasing_readAll {startTs endTs : Option ℤ} :
    Increasing (readBars symbol (writeAll sha256Hex symbol writes) startTs endTs) := by
  rw [← Store.files_ofWrites]
  exact Store.increasing_readBars _

/-- The timestamps that are read are those that were written. -/
theorem mem_timestamps_readAll {t : ℤ} (h : symbolPattern symbol = true) :
    t ∈ (readBars symbol (writeAll sha256Hex symbol writes) none none).map Bar.timestamp ↔
      ∃ df ∈ writes, ∃ b ∈ df, b.timestamp = t := by
  constructor
  · intro ht
    obtain ⟨b, hb, rfl⟩ := List.mem_map.mp ht
    obtain ⟨df, hdf, hb⟩ := List.mem_flatten.mp (newest_spec ((mem_readAll h).mp hb)).1
    exact ⟨df, hdf, b, hb, rfl⟩
  · rintro ⟨df, hdf, b, hb, rfl⟩
    have hwritten : b.timestamp ∈ writes.flatten.map Bar.timestamp :=
      List.mem_map_of_mem (List.mem_flatten.mpr ⟨df, hdf, hb⟩)
    cases hnewest : newest Bar.timestamp writes.flatten b.timestamp with
    | none => exact absurd hwritten (newest_eq_none.mp hnewest)
    | some last =>
      have hlast := (newest_spec hnewest).2
      rw [← hlast] at hnewest ⊢
      exact List.mem_map_of_mem ((mem_readAll h).mpr hnewest)

/-- **Two last writes without a common timestamp** commute. -/
theorem readAll_comm {df df' : List (Bar ν)} (h : symbolPattern symbol = true)
    (hdisjoint : ∀ b ∈ df, ∀ b' ∈ df', b.timestamp ≠ b'.timestamp) :
    readBars symbol (writeAll sha256Hex symbol (writes ++ [df, df'])) none none
      = readBars symbol (writeAll sha256Hex symbol (writes ++ [df', df])) none none := by
  refine increasing_readAll.eq increasing_readAll fun b => ?_
  rw [mem_readAll h, mem_readAll h, List.flatten_append, List.flatten_append, newest_append,
    newest_append, List.flatten_cons, List.flatten_singleton, List.flatten_cons,
    List.flatten_singleton, newest_append_comm hdisjoint]

/-- The checksum is that of the last group. -/
theorem fst_writeGroups {df : List (Bar ν)} {files : Directory ν} {checksum : String}
    {months : List ℤ} (hnodup : months.Nodup) :
    (months.foldl (writeGroup sha256Hex df) (checksum, files)).1
      = match months.getLast? with
        | some month => sha256Hex (mergeGroup (Dict.get files month) (groupOf df month))
        | none => checksum := by
  rcases List.eq_nil_or_concat months with rfl | ⟨months, month, rfl⟩
  · rfl
  · rw [List.concat_eq_append] at hnodup ⊢
    rw [List.getLast?_concat, List.foldl_append]
    have hfresh : month ∉ months := fun hmem =>
      (List.nodup_append.mp hnodup).2.2 month hmem month (List.mem_singleton_self month) rfl
    have hget : Dict.get (months.foldl (writeGroup sha256Hex df) (checksum, files)).2 month = _ :=
      get_writeGroups (List.nodup_append.mp hnodup).1
    rw [if_neg hfresh] at hget
    exact congrArg (fun file => sha256Hex (mergeGroup file (groupOf df month))) hget

/-- Groups that are in their files already. -/
theorem snd_writeGroups_eq_self {df : List (Bar ν)} {files : Directory ν} {checksum : String}
    {months : List ℤ} (h : ∀ month ∈ months,
      Dict.get files month = some (mergeGroup (Dict.get files month) (groupOf df month))) :
    (months.foldl (writeGroup sha256Hex df) (checksum, files)).2 = files := by
  induction months generalizing checksum with
  | nil => rfl
  | cons month months ih =>
    obtain ⟨hmonth, hrest⟩ := List.forall_mem_cons.mp h
    rw [List.foldl_cons]
    have hset : (writeGroup sha256Hex df (checksum, files) month).2 = files :=
      Dict.set_eq_self hmonth
    rw [← Prod.mk.eta (p := writeGroup sha256Hex df (checksum, files) month), hset]
    exact ih hrest

/-- **A write that is repeated** returns the same, and leaves the files. -/
theorem writeBars_twice {df : List (Bar ν)} {files : Directory ν} :
    writeBars sha256Hex symbol (writeBars sha256Hex symbol files df).2 df
      = writeBars sha256Hex symbol files df := by
  by_cases h : symbolPattern symbol = true
  · have hget : ∀ month ∈ groupMonths (dedupBars df),
        Dict.get (writeBars sha256Hex symbol files df).2 month
          = some (mergeGroup (Dict.get files month) (groupOf (dedupBars df) month)) := by
      intro month hmonth
      rw [get_writeBars h, if_pos hmonth]
    have hmerged : ∀ month ∈ groupMonths (dedupBars df),
        mergeGroup (Dict.get (writeBars sha256Hex symbol files df).2 month)
            (groupOf (dedupBars df) month)
          = mergeGroup (Dict.get files month) (groupOf (dedupBars df) month) := by
      intro month hmonth
      rw [hget month hmonth]
      exact mergeGroup_twice
    refine Prod.ext ?_ ?_
    · rw [writeBars_eq h, fst_writeGroups nodup_groupMonths]
      rw [writeBars_eq h] at hmerged
      rw [writeBars_eq h, fst_writeGroups nodup_groupMonths]
      cases hlast : (groupMonths (dedupBars df)).getLast? with
      | none => rfl
      | some month => exact congrArg sha256Hex (hmerged month (List.mem_of_getLast? hlast))
    · conv_lhs => rw [writeBars_eq h]
      refine snd_writeGroups_eq_self fun month hmonth => ?_
      rw [hmerged month hmonth]
      exact hget month hmonth
  · have hrejected : writeBars sha256Hex symbol files df = ("", files) := writeBars_rejected h
    rw [hrejected]
    exact writeBars_rejected h

/-- **A read returns the last write of each timestamp**, in order; a write that is repeated changes
    nothing, and writes without a common timestamp commute. -/
theorem parquet_merge_law (sha256Hex : List (Bar ν) → String) (symbol : String)
    (hsymbol : symbolPattern symbol = true) (writes : List (List (Bar ν))) :
    let stored := readBars symbol (writeAll sha256Hex symbol writes) none none
    (stored.Pairwise fun b b' => b.timestamp < b'.timestamp) ∧
    (∀ t, t ∈ stored.map Bar.timestamp ↔ ∃ df ∈ writes, ∃ b ∈ df, b.timestamp = t) ∧
    (∀ b, b ∈ stored ↔ ∃ before after, writes.flatten = before ++ b :: after ∧
      ∀ b' ∈ after, b'.timestamp ≠ b.timestamp) ∧
    (∀ df, let once := writeBars sha256Hex symbol (writeAll sha256Hex symbol writes) df
      writeBars sha256Hex symbol once.2 df = once) ∧
    ∀ df df', (∀ b ∈ df, ∀ b' ∈ df', b.timestamp ≠ b'.timestamp) →
      readBars symbol (writeAll sha256Hex symbol (writes ++ [df, df'])) none none
        = readBars symbol (writeAll sha256Hex symbol (writes ++ [df', df])) none none := by
  intro stored
  refine ⟨increasing_readAll, fun t => mem_timestamps_readAll hsymbol, fun b => ?_,
    fun df => writeBars_twice, fun df df' => readAll_comm hsymbol⟩
  have hmem : b ∈ stored ↔ newest Bar.timestamp writes.flatten b.timestamp = some b :=
    mem_readAll hsymbol
  rw [hmem, newest_eq_some]
  exact and_iff_right rfl

/-- Three bars, unsorted and over two months, and a write that replaces one of them. -/
theorem parquet_merge_law_overlap :
    let bar := fun (d : ℤ) (v : ℕ) => ({ timestamp := d * dayNs + 1, values := v } : Bar ℕ)
    let writes := [[bar 40 1, bar 20 2, bar 20 3], [bar 40 4, bar 21 5]]
    readBars "AAPL" (writeAll (fun _ => "") "AAPL" writes) none none
        = [bar 20 3, bar 21 5, bar 40 4] ∧
      ∀ b, b ∈ readBars "AAPL" (writeAll (fun _ => "") "AAPL" writes) none none ↔
        ∃ before after, writes.flatten = before ++ b :: after ∧
          ∀ b' ∈ after, b'.timestamp ≠ b.timestamp := by
  intro bar writes
  refine ⟨by decide +kernel, ?_⟩
  exact (parquet_merge_law (fun _ => "") "AAPL" (by decide +kernel) writes).2.2.1

end MergeLaw

/-! ### Ranges of dates -/

section Ranges

variable {symbol : String} {files : Directory ν} {first last d t : ℤ} {b : Bar ν}

/-- `read_bars` of a range of dates. -/
def readDates (symbol : String) (files : Directory ν) (first last : ℤ) : List (Bar ν) :=
  readBars symbol files (some (midnight first)) (some (midnight last))

/-- The bars of a day are at its midnight. -/
def AtMidnight (stored : List (Bar ν)) (d : ℤ) : Prop :=
  ∀ b ∈ stored, dayOf b.timestamp = d → b.timestamp = midnight d

instance (stored : List (Bar ν)) (d : ℤ) : Decidable (AtMidnight stored d) :=
  inferInstanceAs (Decidable (∀ _ ∈ _, _))

theorem midnight_le_iff : midnight d ≤ t ↔ d ≤ dayOf t :=
  (Int.le_ediv_iff_mul_le (by decide)).symm

theorem midnight_lt_midnight {d' : ℤ} (h : d < d') : midnight d < midnight d' :=
  mul_lt_mul_of_pos_right h (by decide)

/-- The last day is read at its midnight only. -/
theorem le_midnight_iff : t ≤ midnight d ↔ dayOf t ≤ d ∧ (dayOf t = d → t = midnight d) := by
  have hday : midnight (dayOf t) ≤ t := midnight_le_iff.mpr le_rfl
  have hnext : ¬ midnight (dayOf t + 1) ≤ t := fun h => by
    have hle := midnight_le_iff.mp h
    omega
  constructor
  · intro hle
    have hdle : dayOf t ≤ d := by
      by_contra hgt
      have hlt : midnight d < midnight (dayOf t) := midnight_lt_midnight (by omega)
      omega
    refine ⟨hdle, fun heq => ?_⟩
    rw [heq] at hday
    omega
  · rintro ⟨hdle, heq⟩
    rcases eq_or_lt_of_le hdle with hsame | hbefore
    · exact (heq hsame).le
    · have hle : midnight (dayOf t + 1) ≤ midnight d := by
        rcases eq_or_lt_of_le (Int.add_one_le_of_lt hbefore) with h | h
        · exact (congrArg midnight h).le
        · exact (midnight_lt_midnight h).le
      omega

/-- The bars that a range of dates returns. -/
theorem mem_readDates (h : symbolPattern symbol = true) :
    b ∈ readDates symbol files first last ↔ b ∈ files.flatMap Prod.snd ∧
      first ≤ dayOf b.timestamp ∧ dayOf b.timestamp ≤ last ∧
      (dayOf b.timestamp = last → b.timestamp = midnight last) := by
  unfold readDates
  rw [mem_readBars h, ← le_midnight_iff, ← midnight_le_iff]
  simp

theorem increasing_readDates {sha256Hex : List (Bar ν) → String} {writes : List (List (Bar ν))} :
    Increasing (readDates symbol (writeAll sha256Hex symbol writes) first last) :=
  increasing_readAll

/-- A range whose last day is read whole has the bars of its days. -/
theorem readDates_perm {sha256Hex : List (Bar ν) → String} {writes : List (List (Bar ν))}
    (h : symbolPattern symbol = true)
    (hmidnight : AtMidnight ((writeAll sha256Hex symbol writes).flatMap Prod.snd) last) :
    (readDates symbol (writeAll sha256Hex symbol writes) first last).Perm
      (((writeAll sha256Hex symbol writes).flatMap Prod.snd).filter fun b =>
        first ≤ dayOf b.timestamp ∧ dayOf b.timestamp ≤ last) := by
  have hnodup :
      (((writeAll sha256Hex symbol writes).flatMap Prod.snd).map Bar.timestamp).Nodup := by
    rw [← Store.files_ofWrites]
    exact Store.nodup_timestamps
  refine (List.perm_ext_iff_of_nodup increasing_readDates.nodup
    (hnodup.of_map _ |>.filter _)).mpr fun b => ?_
  rw [mem_readDates h, List.mem_filter, decide_eq_true_eq]
  constructor
  · rintro ⟨hb, hlow, hhigh, -⟩
    exact ⟨hb, hlow, hhigh⟩
  · rintro ⟨hb, hlow, hhigh⟩
    exact ⟨hb, hlow, hhigh, hmidnight b hb⟩

/-- And it joins with the range that comes next. -/
theorem readDates_append {sha256Hex : List (Bar ν) → String} {writes : List (List (Bar ν))}
    {final : ℤ} (h : symbolPattern symbol = true) (hdates : first ≤ last)
    (hfinal : last + 1 ≤ final)
    (hmidnight : AtMidnight ((writeAll sha256Hex symbol writes).flatMap Prod.snd) last) :
    readDates symbol (writeAll sha256Hex symbol writes) first last
        ++ readDates symbol (writeAll sha256Hex symbol writes) (last + 1) final
      = readDates symbol (writeAll sha256Hex symbol writes) first final := by
  have hjoined : Increasing (readDates symbol (writeAll sha256Hex symbol writes) first last
      ++ readDates symbol (writeAll sha256Hex symbol writes) (last + 1) final) := by
    refine List.pairwise_append.mpr
      ⟨increasing_readDates, increasing_readDates, fun b hb b' hb' => ?_⟩
    have hle := ((mem_readDates h).mp hb).2.2.1
    have hge := ((mem_readDates h).mp hb').2.1
    by_contra hnot
    have hmono := dayOf_mono (not_lt.mp hnot)
    omega
  refine hjoined.eq increasing_readDates fun b => ?_
  rw [List.mem_append, mem_readDates h, mem_readDates h, mem_readDates h]
  constructor
  · rintro (⟨hb, hlow, hhigh, -⟩ | ⟨hb, hlow, hhigh, hend⟩)
    · exact ⟨hb, hlow, by omega, fun h => by omega⟩
    · exact ⟨hb, by omega, hhigh, hend⟩
  · rintro ⟨hb, hlow, hhigh, hend⟩
    rcases Int.lt_or_le last (dayOf b.timestamp) with hbehind | hbefore
    · exact Or.inr ⟨hb, by omega, hhigh, hend⟩
    · exact Or.inl ⟨hb, hlow, hbefore, hmidnight b hb⟩

/-- **A range of dates is read whole** exactly if the bars of its last day are at midnight, and so
    is it with its end joined to the next range. -/
theorem range_read_iff (sha256Hex : List (Bar ν) → String) (symbol : String)
    (hsymbol : symbolPattern symbol = true) (writes : List (List (Bar ν))) (first last : ℤ)
    (hdates : first ≤ last) :
    let files := writeAll sha256Hex symbol writes
    let stored := files.flatMap Prod.snd
    ((readDates symbol files first last).Perm (stored.filter fun b =>
        first ≤ dayOf b.timestamp ∧ dayOf b.timestamp ≤ last) ↔ AtMidnight stored last) ∧
    ∀ final, last + 1 ≤ final →
      (readDates symbol files first last ++ readDates symbol files (last + 1) final
          = readDates symbol files first final ↔ AtMidnight stored last) := by
  intro files stored
  have hread : ∀ {d d' b}, b ∈ readDates symbol files d d' ↔ b ∈ stored ∧
      d ≤ dayOf b.timestamp ∧ dayOf b.timestamp ≤ d' ∧
      (dayOf b.timestamp = d' → b.timestamp = midnight d') := mem_readDates hsymbol
  refine ⟨⟨fun hperm b hb hday => ?_, fun hmidnight => readDates_perm hsymbol hmidnight⟩,
    fun final hfinal => ⟨fun heq b hb hday => ?_, fun hmidnight =>
      readDates_append hsymbol hdates hfinal hmidnight⟩⟩
  · have hmem : b ∈ readDates symbol files first last := by
      rw [hperm.mem_iff, List.mem_filter, decide_eq_true_eq]
      exact ⟨hb, by omega, hday.le⟩
    exact (hread.mp hmem).2.2.2 hday
  · -- the longer range has all bars of the day, and the second of the two ranges has none
    have hmem : b ∈ readDates symbol files first final :=
      hread.mpr ⟨hb, by omega, by omega, fun h => by omega⟩
    rw [← heq] at hmem
    rcases List.mem_append.mp hmem with hbefore | hbehind
    · exact (hread.mp hbefore).2.2.2 hday
    · have hlow := (hread.mp hbehind).2.1
      omega

/-- A bar of 3 January 2024, 09:30, is not in the range that ends on this day, and is lost between
    this range and the next. -/
theorem range_read_drops_last_day :
    let day := fun d => dayNumber 2024 1 d
    let open930 := day 3 * dayNs + (9 * 60 + 30) * 60 * 10 ^ 9
    let bar : Bar ℕ := { timestamp := open930, values := 0 }
    let files := writeAll (fun _ => "") "AAPL" [[bar]]
    files.flatMap Prod.snd = [bar] ∧ dayOf bar.timestamp = day 3 ∧
      readDates "AAPL" files (day 3) (day 3) = [] ∧
      readDates "AAPL" files (day 2) (day 3) ++ readDates "AAPL" files (day 4) (day 5) = [] ∧
      readDates "AAPL" files (day 2) (day 5) = [bar] := by
  decide +kernel

/-- Daily bars are at midnight. -/
theorem range_read_iff_daily :
    let day := fun d => dayNumber 2024 1 d
    let bar := fun d => ({ timestamp := midnight (day d), values := 0 } : Bar ℕ)
    let files := writeAll (fun _ => "") "AAPL" [[bar 3, bar 4]]
    let stored := files.flatMap Prod.snd
    AtMidnight stored (day 3) ∧
      (readDates "AAPL" files (day 2) (day 3)).Perm (stored.filter fun b =>
        day 2 ≤ dayOf b.timestamp ∧ dayOf b.timestamp ≤ day 3) := by
  intro day bar files stored
  have hmidnight : AtMidnight stored (day 3) := by decide +kernel
  exact ⟨hmidnight, (range_read_iff (fun _ => "") "AAPL" (by decide +kernel) [[bar 3, bar 4]]
    (day 2) (day 3) (by decide +kernel)).1.mpr hmidnight⟩

end Ranges

end Msai.MarketData
