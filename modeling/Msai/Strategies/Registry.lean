import Msai.Lib.PyText
import Msai.Lib.Transition
import Mathlib.Data.List.MinMax
import Mathlib.Data.List.Nodup
import Mathlib.Data.Prod.Lex
import Mathlib.Order.BooleanAlgebra.Basic

namespace Msai.Strategies

open Msai.Lib

/-!
# The strategy registry (`services/strategy_registry.py`, `api/strategies.py`)

The list and the detail of the strategies scan the strategies directory first and bring the table in
line with it.  A row that is archived is to stay archived, though its file is still there; a row
that is not in the directory any more is archived; of several rows with one name one is kept.

* `discoverStrategies` — the scan, and the names it makes of the paths;
* `syncOne`, `prune`, `syncStrategies` — the two loops of `sync_strategies_to_db`;
* `Registry` — the requests, one after another;
* `archived_frozen` — over any requests an archived row stays as it is, and its name is not taken;
* `sync_settles` — what the table is after a scan, and that a second scan changes nothing.

The SHA256 and the path rules of `resolve_strategy_file` are parameters.
-/

/-! ### The directory -/

/-- The columns that are computed from the code. -/
structure Columns (J : Type) where
  configClass : Option String
  configSchema : Option J
  defaultConfig : Option J
  configSchemaStatus : String
deriving DecidableEq, Repr

/-- What an import of a file finds. -/
structure Found (J : Type) where
  strategyClass : String
  columns : Columns J
  description : Option String

/-- A `.py` file under the strategies directory, by the parts of its path without the suffix. -/
structure SourceFile (J : Type) where
  parts : List String
  parts_ne_nil : parts ≠ []
  no_slash : ∀ part ∈ parts, '/' ∉ part.toList
  /-- `compute_file_hash`. -/
  hash : String
  /-- The hash of a `config.py` beside it, unless it is this file. -/
  siblingHash : Option String
  governanceViolations : List String
  /-- Nothing, if the import fails or there is no strategy class. -/
  found : Option (Found J)

/-- The strategies directory; the files are in the order of their paths, and have one each. -/
structure Directory (J : Type) where
  isDir : Bool
  files : List (SourceFile J)
  nodup : (files.map SourceFile.parts).Nodup
  /-- The file of a name whose path leads out of the directory is there.  (A path that ends at `/`
      has no name, and `with_suffix` raises: such a scan has no result.) -/
  outside : String → Bool
  /-- `resolve_strategy_file(file_path).is_file()`. -/
  resolves : String → Bool
  sha256 : String → String

structure DiscoveredStrategy (J : Type) where
  parts : List String
  codeHash : String
  found : Found J

/-- `_SKIP_FILENAMES`, and the names with an underscore in front. -/
def isSkipped (stem : String) : Bool :=
  stem = "__init__" || stem = "config" || stem.toList.head? = some '_'

/-- `_combined_strategy_hash`. -/
def combinedStrategyHash {J : Type} (sha256 : String → String) (f : SourceFile J) : String :=
  match f.siblingHash with
  | none => f.hash
  | some sibling => sha256 (f.hash ++ "\x00" ++ sibling)

/-- What `discover_strategies` makes of a file. -/
def discoverFile {J : Type} (sha256 : String → String) (f : SourceFile J) :
    Option (DiscoveredStrategy J) :=
  if isSkipped (f.parts.getLast f.parts_ne_nil) then none
  -- `strategy_path_not_bijective`
  else if f.parts.any fun part => '.' ∈ part.toList then none
  else if f.governanceViolations ≠ [] then none
  else f.found.map fun found => ⟨f.parts, combinedStrategyHash sha256 f, found⟩

/-- `discover_strategies`. -/
def discoverStrategies {J : Type} (d : Directory J) : List (DiscoveredStrategy J) :=
  if d.isDir then d.files.filterMap (discoverFile d.sha256) else []

/-- The components of a path, with a character between them. -/
def joinParts (c : Char) (parts : List String) : List Char :=
  List.intercalate [c] (parts.map String.toList)

/-- The dotted name. -/
def DiscoveredStrategy.name {J : Type} (info : DiscoveredStrategy J) : String :=
  String.ofList (joinParts '.' info.parts)

/-- The path under the strategies directory. -/
def DiscoveredStrategy.filePath {J : Type} (info : DiscoveredStrategy J) : String :=
  String.ofList (joinParts '/' info.parts) ++ ".py"

/-- The components of a path; `joinpath` leaves out the empty ones. -/
def pathParts (path : List Char) : List (List Char) :=
  (path.splitOn '/').filter fun part => !part.isEmpty

/-- `strategies_dir.joinpath(*name.split(".")).with_suffix(".py").is_file()`.  What is between two
    dots is joined as a path: one that begins with a slash replaces all before it, and without any
    component the path is the directory itself. -/
def Directory.hasName {J : Type} (d : Directory J) (name : String) : Bool :=
  let segments := name.toList.splitOn '.'
  let parts := segments.flatMap pathParts
  if parts.isEmpty || segments.any fun segment => segment.head? == some '/' then d.outside name
  else d.files.any fun f => f.parts.map String.toList = parts

/-! ### The table -/

/-- A row of `strategies`. -/
structure Strategy (J : Type) where
  id : ℕ
  name : String
  description : Option String
  filePath : String
  strategyClass : String
  columns : Columns J
  codeHash : Option String
  deletedAt : Option ℤ
deriving DecidableEq, Repr

variable {J : Type}

def Strategy.isActive (r : Strategy J) : Bool := r.deletedAt.isNone

/-- The row is an active one, or an archived one, of this name; rows of smoke runs are not of the
    registry. -/
def Strategy.isNamed (name : String) (r : Strategy J) : Bool :=
  !PyText.startsWith r.name "__smoke__/" && r.name = name

def Strategy.archive (now : ℤ) (r : Strategy J) : Strategy J := { r with deletedAt := some now }

/-- What a scan changes in the row it keeps.  The description stays, and the columns change with the
    hash only. -/
def Strategy.refresh (info : DiscoveredStrategy J) (r : Strategy J) : Strategy J :=
  let r := { r with filePath := info.filePath, strategyClass := info.found.strategyClass }
  if r.codeHash ≠ some info.codeHash then
    { r with columns := info.found.columns, codeHash := some info.codeHash }
  else r

/-- A new row. -/
def Strategy.create (id : ℕ) (info : DiscoveredStrategy J) : Strategy J where
  id := id
  name := info.name
  description := info.found.description
  filePath := info.filePath
  strategyClass := info.found.strategyClass
  columns := info.found.columns
  codeHash := some info.codeHash
  deletedAt := none

/-- The key of `min`: a row with the path of the file goes first, then the ids decide, whose texts
    are in the order of the ids. -/
def keeperKey (filePath : String) (r : Strategy J) : Bool ×ₗ ℕ :=
  toLex (decide (r.filePath ≠ filePath), r.id)

/-- The active rows of a name. -/
def activeRows (rows : List (Strategy J)) (name : String) : List (Strategy J) :=
  rows.filter fun r => r.isNamed name && r.isActive

/-- The body of the first loop.  The names of a scan differ, so that the rows of a name are still
    those of the start when it is its turn. -/
def syncOne (now : ℤ) (newId : String → ℕ) (rows : List (Strategy J))
    (info : DiscoveredStrategy J) : List (Strategy J) :=
  match (activeRows rows info.name).argmin (keeperKey info.filePath) with
  | some keep => rows.map fun r =>
      if r.id = keep.id then r.refresh info
      else if r.isNamed info.name && r.isActive then r.archive now
      else r
  | none =>
    -- archived rows stay archived, and keep the name
    if rows.any (Strategy.isNamed info.name) then rows
    else rows ++ [Strategy.create (newId info.name) info]

/-- The row is not in the directory any more. -/
def isStale (d : Directory J) (r : Strategy J) : Bool :=
  !PyText.startsWith r.name "__smoke__/" &&
    !((discoverStrategies d).any fun info => info.name = r.name) &&
    !d.hasName r.name && !d.resolves r.filePath && r.isActive

/-- The second loop. -/
def prune (d : Directory J) (now : ℤ) (rows : List (Strategy J)) : List (Strategy J) :=
  if d.isDir then rows.map fun r => if isStale d r then r.archive now else r
  else rows

/-- `sync_strategies_to_db`; `newId` is where the ids of new rows come from. -/
def syncStrategies (d : Directory J) (now : ℤ) (newId : String → ℕ) (rows : List (Strategy J)) :
    List (Strategy J) :=
  prune d now ((discoverStrategies d).foldl (syncOne now newId) rows)

/-- A request about strategies. -/
inductive Request (J : Type)
  /-- `GET /strategies/` and `GET /strategies/{id}` scan the directory. -/
  | sync (d : Directory J) (now : ℤ) (newId : String → ℕ)
  /-- `PATCH`, with the fields that are set. -/
  | patch (id : ℕ) (description : Option (Option String)) (defaultConfig : Option (Option J))
  | delete (id : ℕ) (now : ℤ)

/-- The ids of the rows that a scan may add are new. -/
def FreshIds (d : Directory J) (newId : String → ℕ) (rows : List (Strategy J)) : Prop :=
  (rows.map Strategy.id ++ (discoverStrategies d).map fun info => newId info.name).Nodup

instance (d : Directory J) (newId : String → ℕ) (rows : List (Strategy J)) :
    Decidable (FreshIds d newId rows) :=
  inferInstanceAs (Decidable (List.Nodup _))

/-- `update_strategy`; the managed keys are refused, and an archived row is not found. -/
def updateStrategy (managed : J → Bool) (id : ℕ) (description : Option (Option String))
    (defaultConfig : Option (Option J)) (rows : List (Strategy J)) : List (Strategy J) :=
  if defaultConfig.any fun config => config.any managed then rows
  else rows.map fun r =>
    if r.id = id ∧ r.isActive = true then
      { r with
        description := description.getD r.description
        columns := { r.columns with defaultConfig := defaultConfig.getD r.columns.defaultConfig } }
    else r

/-- `delete_strategy`. -/
def deleteStrategy (id : ℕ) (now : ℤ) (rows : List (Strategy J)) : List (Strategy J) :=
  rows.map fun r => if r.id = id ∧ r.isActive = true then r.archive now else r

/-- The requests, one after another; `managed` says that a configuration has a managed key. -/
def Registry (managed : J → Bool) : TransitionSystem (List (Strategy J)) (Request J) where
  step rows
    | .sync d now newId =>
      if FreshIds d newId rows then some (syncStrategies d now newId rows) else none
    | .patch id description defaultConfig =>
      some (updateStrategy managed id description defaultConfig rows)
    | .delete id now => some (deleteStrategy id now rows)

/-! ### The names of a scan -/

section Names

variable {d : Directory J} {info info' : DiscoveredStrategy J}

/-- What is discovered has the path of a file, without dots and slashes in it. -/
theorem parts_of_discovered (h : info ∈ discoverStrategies d) :
    info.parts ∈ d.files.map SourceFile.parts ∧ info.parts ≠ [] ∧
      (∀ part ∈ info.parts, '.' ∉ part.toList) ∧ ∀ part ∈ info.parts, '/' ∉ part.toList := by
  unfold discoverStrategies at h
  split at h
  · obtain ⟨f, hf, hinfo⟩ := List.mem_filterMap.mp h
    unfold discoverFile at hinfo
    split at hinfo
    · exact absurd hinfo (by simp)
    · split at hinfo
      · exact absurd hinfo (by simp)
      · rename_i hdots
        split at hinfo
        · exact absurd hinfo (by simp)
        · obtain ⟨found, -, rfl⟩ := Option.map_eq_some_iff.mp hinfo
          exact ⟨List.mem_map_of_mem hf, f.parts_ne_nil, by simpa using hdots, f.no_slash⟩
  · cases h

theorem nodup_parts : ((discoverStrategies d).map DiscoveredStrategy.parts).Nodup := by
  unfold discoverStrategies
  split
  · have hsub : ((d.files.filterMap (discoverFile d.sha256)).map DiscoveredStrategy.parts).Sublist
        (d.files.map SourceFile.parts) := by
      induction d.files with
      | nil => exact .slnil
      | cons f files ih =>
        rw [List.filterMap_cons, List.map_cons]
        cases hf : discoverFile d.sha256 f with
        | none => exact ih.cons f.parts
        | some info =>
          have hparts : info.parts = f.parts := by
            unfold discoverFile at hf
            split at hf
            · exact absurd hf (by simp)
            · split at hf
              · exact absurd hf (by simp)
              · split at hf
                · exact absurd hf (by simp)
                · obtain ⟨found, -, rfl⟩ := Option.map_eq_some_iff.mp hf
                  rfl
          rw [List.map_cons, hparts]
          exact ih.cons_cons f.parts
    exact d.nodup.sublist hsub
  · exact List.nodup_nil

/-- **A dotted name is that of one path.** -/
theorem parts_inj (h : info ∈ discoverStrategies d) (h' : info' ∈ discoverStrategies d)
    (hname : info.name = info'.name) : info.parts = info'.parts := by
  have hsplit : ∀ {info : DiscoveredStrategy J}, info ∈ discoverStrategies d →
      (joinParts '.' info.parts).splitOn '.' = info.parts.map String.toList := by
    intro info h
    obtain ⟨-, hne, hdots, -⟩ := parts_of_discovered h
    refine List.splitOn_intercalate '.' ?_ (by simpa using hne)
    intro cs hcs
    obtain ⟨part, hpart, rfl⟩ := List.mem_map.mp hcs
    exact hdots part hpart
  have hchars : joinParts '.' info.parts = joinParts '.' info'.parts := String.ofList_inj.mp hname
  have hparts := hsplit h
  rw [hchars, hsplit h'] at hparts
  exact (List.map_injective_iff.mpr (fun _ _ => String.toList_inj.mp) hparts).symm

theorem nodup_names : ((discoverStrategies d).map DiscoveredStrategy.name).Nodup := by
  have hparts : ((discoverStrategies d).map DiscoveredStrategy.parts).Nodup := nodup_parts
  rw [List.Nodup, List.pairwise_map] at hparts ⊢
  refine hparts.imp_of_mem fun h h' hne hname => hne (parts_inj h h' hname)

/-- A dotted name is not one of a smoke run. -/
theorem not_smoke (h : info ∈ discoverStrategies d) :
    PyText.startsWith info.name "__smoke__/" = false := by
  obtain ⟨-, -, -, hslashes⟩ := parts_of_discovered h
  -- the characters of a name are dots and those of the components
  have hmem : ∀ (parts : List String) (c : Char), c ∈ joinParts '.' parts →
      c = '.' ∨ ∃ part ∈ parts, c ∈ part.toList := by
    intro parts c
    unfold joinParts
    induction parts with
    | nil => simp
    | cons part parts ih =>
      cases parts with
      | nil =>
        intro h
        exact Or.inr ⟨part, List.mem_singleton_self part, by simpa using h⟩
      | cons next parts =>
        rw [List.map_cons, List.map_cons, List.intercalate_cons_cons]
        simp only [List.mem_append, List.mem_singleton]
        rintro ((hpart | rfl) | hrest)
        · exact Or.inr ⟨part, List.mem_cons_self, hpart⟩
        · exact Or.inl rfl
        · rcases ih hrest with hdot | ⟨later, hlater, hc⟩
          · exact Or.inl hdot
          · exact Or.inr ⟨later, List.mem_cons_of_mem part hlater, hc⟩
  rw [Bool.eq_false_iff]
  intro hprefix
  have hslash : '/' ∈ info.name.toList :=
    (List.isPrefixOf_iff_prefix.mp hprefix).subset (by decide)
  rw [DiscoveredStrategy.name, String.toList_ofList] at hslash
  rcases hmem _ _ hslash with hdot | ⟨part, hpart, hin⟩
  · exact absurd hdot (by decide)
  · exact hslashes part hpart hin

end Names

/-! ### What every request keeps -/

section Keeps

variable {rows rows' rows'' : List (Strategy J)} {d : Directory J} {info : DiscoveredStrategy J}
  {now : ℤ} {newId : String → ℕ} {name : String}

theorem mem_activeRows {r : Strategy J} :
    r ∈ activeRows rows name ↔ r ∈ rows ∧ r.isNamed name = true ∧ r.isActive = true := by
  unfold activeRows
  rw [List.mem_filter, Bool.and_eq_true]

/-- The archived rows are still there as they were, every row is there under its id and its name,
    and a name that has archived rows only has no active row. -/
structure Keeps (rows rows' : List (Strategy J)) : Prop where
  archived : ∀ r ∈ rows, r.isActive = false → r ∈ rows'
  row : ∀ r ∈ rows, ∃ r' ∈ rows', r'.id = r.id ∧ r'.name = r.name
  closed : ∀ name, (∃ r ∈ rows, r.isNamed name = true) → activeRows rows name = [] →
    activeRows rows' name = []

theorem Keeps.refl (rows : List (Strategy J)) : Keeps rows rows where
  archived _ hr _ := hr
  row r hr := ⟨r, hr, rfl, rfl⟩
  closed _ _ h := h

theorem Keeps.trans (h : Keeps rows rows') (h' : Keeps rows' rows'') : Keeps rows rows'' where
  archived r hr hold := h'.archived r (h.archived r hr hold) hold
  row r hr := by
    obtain ⟨r', hr', hid, hname⟩ := h.row r hr
    obtain ⟨r'', hr'', hid', hname'⟩ := h'.row r' hr'
    exact ⟨r'', hr'', hid'.trans hid, hname'.trans hname⟩
  closed name hname hnone := by
    obtain ⟨r, hr, hnamed⟩ := hname
    obtain ⟨r', hr', -, hsame⟩ := h.row r hr
    refine h'.closed name ⟨r', hr', ?_⟩ (h.closed name ⟨r, hr, hnamed⟩ hnone)
    unfold Strategy.isNamed at hnamed ⊢
    rwa [hsame]

/-- A change of active rows. -/
theorem Keeps.of_map {f : Strategy J → Strategy J} (hid : ∀ r, (f r).id = r.id)
    (hname : ∀ r, (f r).name = r.name)
    (harchived : ∀ r ∈ rows, r.isActive = false → f r = r) : Keeps rows (rows.map f) where
  archived r hr hold := List.mem_map.mpr ⟨r, hr, harchived r hr hold⟩
  row r hr := ⟨f r, List.mem_map_of_mem hr, hid r, hname r⟩
  closed name _ hnone := by
    rw [List.eq_nil_iff_forall_not_mem] at hnone ⊢
    intro r' hr'
    obtain ⟨hmem, hnamed, hactive⟩ := mem_activeRows.mp hr'
    obtain ⟨r, hr, rfl⟩ := List.mem_map.mp hmem
    have hnamed' : r.isNamed name = true := by
      unfold Strategy.isNamed at hnamed ⊢
      rwa [hname] at hnamed
    -- a row that is active afterwards was active before
    cases hr' : r.isActive with
    | true => exact hnone r (mem_activeRows.mpr ⟨hr, hnamed', hr'⟩)
    | false =>
      rw [harchived r hr hr', hr'] at hactive
      exact absurd hactive (by simp)

theorem id_refresh (r : Strategy J) : (r.refresh info).id = r.id := by
  unfold Strategy.refresh
  dsimp only
  split <;> rfl

theorem name_refresh (r : Strategy J) : (r.refresh info).name = r.name := by
  unfold Strategy.refresh
  dsimp only
  split <;> rfl

theorem eq_of_id (hnodup : (rows.map Strategy.id).Nodup) {r r' : Strategy J} (hr : r ∈ rows)
    (hr' : r' ∈ rows) (h : r.id = r'.id) : r = r' :=
  List.inj_on_of_nodup_map hnodup hr hr' h

/-- The row that is kept is active. -/
theorem mem_of_argmin {keep : Strategy J}
    (h : (activeRows rows name).argmin (keeperKey info.filePath) = some keep) :
    keep ∈ rows ∧ keep.isNamed name = true ∧ keep.isActive = true :=
  mem_activeRows.mp (List.argmin_mem (Option.mem_def.mpr h))

theorem keeps_syncOne (hnodup : (rows.map Strategy.id).Nodup) :
    Keeps rows (syncOne now newId rows info) := by
  unfold syncOne
  split
  · rename_i keep hkeep
    obtain ⟨hmem, -, hactive⟩ := mem_of_argmin hkeep
    refine Keeps.of_map (fun r => ?_) (fun r => ?_) fun r hr hold => ?_
    · split
      · exact id_refresh r
      · split <;> rfl
    · split
      · exact name_refresh r
      · split <;> rfl
    · split
      · rename_i hid
        -- the row that is kept is not archived
        rw [eq_of_id hnodup hr hmem hid, hactive] at hold
        exact absurd hold (by simp)
      · rw [hold, Bool.and_false]
        rfl
  · split
    · exact Keeps.refl rows
    · rename_i hnone
      refine ⟨fun r hr _ => List.mem_append_left _ hr,
        fun r hr => ⟨r, List.mem_append_left _ hr, rfl, rfl⟩, ?_⟩
      rintro name ⟨r, hr, hnamed⟩ hempty
      unfold activeRows at hempty ⊢
      rw [List.filter_append, hempty, List.nil_append]
      -- the new row has a name that no row has
      have hother : (Strategy.create (newId info.name) info).isNamed name = false := by
        rw [Bool.eq_false_iff]
        intro hnew
        unfold Strategy.isNamed at hnew hnamed
        have hname : info.name = name := of_decide_eq_true (Bool.and_eq_true_iff.mp hnew).2
        apply hnone
        rw [List.any_eq_true]
        exact ⟨r, hr, by rwa [Strategy.isNamed, hname]⟩
      simp [hother]

theorem keeps_prune : Keeps rows (prune d now rows) := by
  unfold prune
  split
  · refine Keeps.of_map (fun r => ?_) (fun r => ?_) fun r _ hold => ?_
    · split <;> rfl
    · split <;> rfl
    · have hfresh : isStale d r = false := by
        unfold isStale
        rw [hold, Bool.and_false]
      rw [hfresh]
      rfl
  · exact Keeps.refl rows

/-- The ids stay different as long as the new ones are. -/
theorem freshIds_syncOne {infos : List (DiscoveredStrategy J)}
    (h : (rows.map Strategy.id ++ (info :: infos).map fun info => newId info.name).Nodup) :
    ((syncOne now newId rows info).map Strategy.id ++
      infos.map fun info => newId info.name).Nodup := by
  have hsub : (rows.map Strategy.id ++ infos.map fun info => newId info.name).Sublist
      (rows.map Strategy.id ++ (info :: infos).map fun info => newId info.name) :=
    (List.Sublist.refl _).append (List.sublist_cons_self _ _)
  unfold syncOne
  split
  · rename_i keep hkeep
    have hids : (rows.map fun r =>
        if r.id = keep.id then r.refresh info
        else if r.isNamed info.name && r.isActive then r.archive now
        else r).map Strategy.id = rows.map Strategy.id := by
      rw [List.map_map]
      refine List.map_congr_left fun r _ => ?_
      show (if _ then _ else _ : Strategy J).id = r.id
      split
      · exact id_refresh r
      · split <;> rfl
    rw [hids]
    exact h.sublist hsub
  · split
    · exact h.sublist hsub
    · rw [List.map_append, List.append_assoc]
      exact h

theorem nodup_left {ids newIds : List ℕ} (h : (ids ++ newIds).Nodup) : ids.Nodup :=
  h.sublist (List.sublist_append_left ids newIds)

theorem keeps_foldl (now : ℤ) {infos : List (DiscoveredStrategy J)}
    (h : (rows.map Strategy.id ++ infos.map fun info => newId info.name).Nodup) :
    Keeps rows (infos.foldl (syncOne now newId) rows) ∧
      ((infos.foldl (syncOne now newId) rows).map Strategy.id).Nodup := by
  induction infos generalizing rows with
  | nil => exact ⟨Keeps.refl rows, nodup_left h⟩
  | cons info infos ih =>
    obtain ⟨hkeeps, hnodup⟩ := ih (freshIds_syncOne h)
    exact ⟨(keeps_syncOne (nodup_left h)).trans hkeeps, hnodup⟩

theorem id_prune : (prune d now rows).map Strategy.id = rows.map Strategy.id := by
  unfold prune
  split
  · rw [List.map_map]
    refine List.map_congr_left fun r _ => ?_
    show (if _ then _ else _ : Strategy J).id = r.id
    split <;> rfl
  · rfl

theorem keeps_sync (now : ℤ) (h : FreshIds d newId rows) :
    Keeps rows (syncStrategies d now newId rows) ∧
      ((syncStrategies d now newId rows).map Strategy.id).Nodup := by
  obtain ⟨hkeeps, hnodup⟩ := keeps_foldl now h
  refine ⟨hkeeps.trans keeps_prune, ?_⟩
  unfold syncStrategies
  rwa [id_prune]

theorem keeps_updateStrategy (managed : J → Bool) (id : ℕ) (description : Option (Option String))
    (defaultConfig : Option (Option J)) (rows : List (Strategy J)) :
    Keeps rows (updateStrategy managed id description defaultConfig rows) ∧
      (updateStrategy managed id description defaultConfig rows).map Strategy.id
        = rows.map Strategy.id := by
  unfold updateStrategy
  split
  · exact ⟨Keeps.refl rows, rfl⟩
  · refine ⟨Keeps.of_map (fun r => ?_) (fun r => ?_) fun r _ hold => ?_, ?_⟩
    · split <;> rfl
    · split <;> rfl
    · simp [hold]
    · rw [List.map_map]
      refine List.map_congr_left fun r _ => ?_
      show (if _ then _ else _ : Strategy J).id = r.id
      split <;> rfl

theorem keeps_deleteStrategy (id : ℕ) (now : ℤ) (rows : List (Strategy J)) :
    Keeps rows (deleteStrategy id now rows) ∧
      (deleteStrategy id now rows).map Strategy.id = rows.map Strategy.id := by
  unfold deleteStrategy
  refine ⟨Keeps.of_map (fun r => ?_) (fun r => ?_) fun r _ hold => ?_, ?_⟩
  · split <;> rfl
  · split <;> rfl
  · simp [hold]
  · rw [List.map_map]
    refine List.map_congr_left fun r _ => ?_
    show (if _ then _ else _ : Strategy J).id = r.id
    split <;> rfl

/-- What one request keeps. -/
theorem keeps_step {managed : J → Bool} {request : Request J}
    (hnodup : (rows.map Strategy.id).Nodup)
    (h : (Registry managed).step rows request = some rows') :
    Keeps rows rows' ∧ (rows'.map Strategy.id).Nodup := by
  cases request with
  | sync d now newId =>
    change (if FreshIds d newId rows then some _ else none) = some rows' at h
    split at h
    · rename_i hfresh
      obtain rfl := Option.some.inj h
      exact keeps_sync now hfresh
    · exact absurd h (by simp)
  | patch id description defaultConfig =>
    obtain rfl := Option.some.inj h
    obtain ⟨hkeeps, hids⟩ := keeps_updateStrategy managed id description defaultConfig rows
    exact ⟨hkeeps, by rwa [hids]⟩
  | delete id now =>
    obtain rfl := Option.some.inj h
    obtain ⟨hkeeps, hids⟩ := keeps_deleteStrategy id now rows
    exact ⟨hkeeps, by rwa [hids]⟩

end Keeps

/-- **An archived row stays as it is, and its name is not taken again.**  Over any requests no row
    is lost, an archived row does not change at all, and a name whose rows are all archived has no
    active row, though its file is still in the directory. -/
theorem archived_frozen (managed : J → Bool) {rows rows' : List (Strategy J)}
    {requests : List (Request J)} (hnodup : (rows.map Strategy.id).Nodup)
    (hrun : (Registry managed).Path TransitionSystem.anyStep rows requests rows') :
    (∀ r ∈ rows, r.isActive = false → r ∈ rows') ∧
      (∀ r ∈ rows, ∃ r' ∈ rows', r'.id = r.id ∧ r'.name = r.name) ∧
      ∀ name, (∃ r ∈ rows, r.isNamed name = true) → activeRows rows name = [] →
        activeRows rows' name = [] := by
  have hkeeps : Keeps rows rows' := hrun.relates
    (I := fun rows => (rows.map Strategy.id).Nodup)
    (fun _ _ _ hids _ hstep => (keeps_step hids hstep).2) Keeps.refl Keeps.trans
    (fun _ _ _ hids _ hstep => (keeps_step hids hstep).1) hnodup
  exact ⟨hkeeps.archived, hkeeps.row, hkeeps.closed⟩

def emaCross : SourceFile ℕ where
  parts := ["example", "ema_cross"]
  parts_ne_nil := List.cons_ne_nil _ _
  no_slash := by decide
  hash := "aa"
  siblingHash := none
  governanceViolations := []
  found := some ⟨"EMACrossStrategy", ⟨none, none, none, "no_config_class"⟩, none⟩

def exampleDirectory : Directory ℕ where
  isDir := true
  files := [emaCross]
  nodup := List.nodup_singleton _
  outside _ := false
  resolves _ := false
  sha256 := id

example : exampleDirectory.hasName "example/ema_cross" = true := by decide +kernel

/-- A row of `emaCross` with an older hash. -/
def emaRow (id : ℕ) (deletedAt : Option ℤ) : Strategy ℕ where
  id := id
  name := "example.ema_cross"
  description := none
  filePath := "example/ema_cross.py"
  strategyClass := "EMACrossStrategy"
  columns := ⟨none, none, none, "no_config_class"⟩
  codeHash := some "99"
  deletedAt := deletedAt

/-- The strategy is archived, and two scans leave it so, though its file is there. -/
theorem archived_frozen_emaCross :
    (emaRow 1 none).isNamed "example.ema_cross" = true ∧
      ∃ rows, (Registry fun _ => false).run [emaRow 1 (some 5)]
          [.sync exampleDirectory 6 (fun _ => 2), .sync exampleDirectory 7 fun _ => 3] = some rows ∧
        emaRow 1 (some 5) ∈ rows ∧ activeRows rows "example.ema_cross" = [] := by
  have hrun : (Registry fun _ => false).run [emaRow 1 (some 5)]
      [.sync exampleDirectory 6 (fun _ => 2), .sync exampleDirectory 7 fun _ => 3]
        = some [emaRow 1 (some 5)] := by
    decide +kernel
  have hnodup : ([emaRow 1 (some 5)].map Strategy.id).Nodup := List.nodup_singleton 1
  obtain ⟨hfrozen, -, hclosed⟩ := archived_frozen (fun _ => false) hnodup
    (TransitionSystem.Path.of_run hrun)
  exact ⟨by decide, _, hrun, hfrozen _ List.mem_cons_self rfl,
    hclosed "example.ema_cross" ⟨_, List.mem_cons_self, by decide⟩ (by decide)⟩

/-! ### What a scan makes of the table -/

section Settled

variable {rows : List (Strategy J)} {d : Directory J} {info info' : DiscoveredStrategy J}
  {now : ℤ} {newId : String → ℕ} {name : String}

/-- The name is in the table, and has one active row at most, which is up to date. -/
structure Settled (rows : List (Strategy J)) (info : DiscoveredStrategy J) : Prop where
  named : ∃ r ∈ rows, r.isNamed info.name = true
  fresh : ∀ r ∈ activeRows rows info.name, r.refresh info = r
  unique : ∀ r ∈ activeRows rows info.name, ∀ r' ∈ activeRows rows info.name, r = r'

theorem codeHash_refresh (info : DiscoveredStrategy J) (r : Strategy J) :
    (r.refresh info).codeHash = some info.codeHash := by
  unfold Strategy.refresh
  dsimp only
  split
  · rfl
  · rename_i h
    exact not_not.mp h

theorem filePath_refresh (info : DiscoveredStrategy J) (r : Strategy J) :
    (r.refresh info).filePath = info.filePath := by
  unfold Strategy.refresh
  dsimp only
  split <;> rfl

theorem strategyClass_refresh (info : DiscoveredStrategy J) (r : Strategy J) :
    (r.refresh info).strategyClass = info.found.strategyClass := by
  unfold Strategy.refresh
  dsimp only
  split <;> rfl

theorem refresh_refresh (r : Strategy J) : (r.refresh info).refresh info = r.refresh info := by
  have hhash := codeHash_refresh info r
  have hpath := filePath_refresh info r
  have hclass := strategyClass_refresh info r
  generalize r.refresh info = r' at *
  have hsame : r'.refresh info = { r' with
      filePath := info.filePath, strategyClass := info.found.strategyClass } := by
    unfold Strategy.refresh
    exact if_neg (not_not.mpr hhash)
  rw [hsame, ← hpath, ← hclass]

theorem isNamed_refresh (r : Strategy J) : (r.refresh info).isNamed name = r.isNamed name := by
  unfold Strategy.isNamed
  rw [name_refresh]

/-- A change that leaves the rows of a name alone. -/
theorem activeRows_map {f : Strategy J → Strategy J}
    (hnamed : ∀ r ∈ rows, r.isNamed name = true → f r = r)
    (hother : ∀ r ∈ rows, r.isNamed name = false → (f r).isNamed name = false) :
    activeRows (rows.map f) name = activeRows rows name := by
  unfold activeRows
  induction rows with
  | nil => rfl
  | cons r rows ih =>
    rw [List.forall_mem_cons] at hnamed hother
    rw [List.map_cons, List.filter_cons, List.filter_cons, ih hnamed.2 hother.2]
    cases hr : r.isNamed name with
    | true => rw [hnamed.1 hr, hr]
    | false => rw [hother.1 hr]; rfl

theorem Settled.of_map {f : Strategy J → Strategy J} (h : Settled rows info)
    (hnamed : ∀ r ∈ rows, r.isNamed info.name = true → f r = r)
    (hother : ∀ r ∈ rows, r.isNamed info.name = false → (f r).isNamed info.name = false) :
    Settled (rows.map f) info := by
  have hactive := activeRows_map hnamed hother
  obtain ⟨r, hr, hname⟩ := h.named
  refine ⟨⟨r, List.mem_map.mpr ⟨r, hr, hnamed r hr hname⟩, hname⟩, ?_, ?_⟩
  · rw [hactive]
    exact h.fresh
  · rw [hactive]
    exact h.unique

theorem isNamed_of_ne {r : Strategy J} (hr : r.isNamed name = true) {name' : String}
    (h : name ≠ name') : r.isNamed name' = false := by
  unfold Strategy.isNamed at hr ⊢
  have hname : r.name = name := of_decide_eq_true (Bool.and_eq_true_iff.mp hr).2
  simp [hname, h]

/-- A name that is settled is passed over. -/
theorem syncOne_of_settled (hnodup : (rows.map Strategy.id).Nodup) (h : Settled rows info) :
    syncOne now newId rows info = rows := by
  unfold syncOne
  split
  · rename_i keep hkeep
    obtain ⟨hmem, hnamed, hactive⟩ := mem_of_argmin hkeep
    have hkeepMem : keep ∈ activeRows rows info.name := mem_activeRows.mpr ⟨hmem, hnamed, hactive⟩
    refine (List.map_congr_left fun r hr => ?_).trans (List.map_id rows)
    split
    · rename_i hid
      rw [eq_of_id hnodup hr hmem hid]
      exact h.fresh keep hkeepMem
    · rename_i hid
      split
      · rename_i hother
        -- there is no other active row
        have hrMem : r ∈ activeRows rows info.name := by
          rw [Bool.and_eq_true] at hother
          exact mem_activeRows.mpr ⟨hr, hother.1, hother.2⟩
        rw [h.unique r hrMem keep hkeepMem] at hid
        exact absurd rfl hid
      · rfl
  · split
    · rfl
    · rename_i hnone
      rw [List.any_eq_true] at hnone
      exact absurd h.named hnone

/-- **A name is settled when its turn is over.** -/
theorem settled_syncOne (hnodup : (rows.map Strategy.id).Nodup)
    (hsmoke : PyText.startsWith info.name "__smoke__/" = false) :
    Settled (syncOne now newId rows info) info := by
  unfold syncOne
  split
  · rename_i keep hkeep
    obtain ⟨hmem, hnamed, hactive⟩ := mem_of_argmin hkeep
    -- what is active afterwards is the row that is kept
    have honly : ∀ r' ∈ activeRows (rows.map fun r =>
        if r.id = keep.id then r.refresh info
        else if r.isNamed info.name && r.isActive then r.archive now
        else r) info.name, r' = keep.refresh info := by
      intro r' hr'
      obtain ⟨hmap, hnamed', hactive'⟩ := mem_activeRows.mp hr'
      obtain ⟨r, hr, rfl⟩ := List.mem_map.mp hmap
      by_cases hid : r.id = keep.id
      · simp only [if_pos hid]
        rw [eq_of_id hnodup hr hmem hid]
      · simp only [if_neg hid] at hnamed' hactive'
        split at hactive'
        · exact absurd hactive' (by simp [Strategy.archive, Strategy.isActive])
        · rename_i hnot
          rw [if_neg hnot] at hnamed'
          rw [hnamed', hactive'] at hnot
          exact absurd rfl hnot
    refine ⟨⟨keep.refresh info, List.mem_map.mpr ⟨keep, hmem, if_pos rfl⟩, ?_⟩, ?_, ?_⟩
    · rwa [isNamed_refresh]
    · intro r hr
      rw [honly r hr, refresh_refresh]
    · intro r hr r' hr'
      rw [honly r hr, honly r' hr']
  · rename_i hnone
    have hempty : activeRows rows info.name = [] := List.argmin_eq_none.mp hnone
    split
    · rename_i hany
      refine ⟨by simpa using hany, ?_, ?_⟩
      · rw [hempty]
        simp
      · rw [hempty]
        simp
    · have hnew : (Strategy.create (newId info.name) info).isNamed info.name = true := by
        unfold Strategy.isNamed
        show (!PyText.startsWith info.name "__smoke__/" && decide (info.name = info.name)) = true
        rw [hsmoke]
        simp
      have honly : ∀ r ∈ activeRows (rows ++ [Strategy.create (newId info.name) info]) info.name,
          r = Strategy.create (newId info.name) info := by
        intro r hr
        unfold activeRows at hr hempty
        rw [List.filter_append, hempty, List.nil_append] at hr
        exact List.mem_singleton.mp (List.mem_of_mem_filter hr)
      refine ⟨⟨_, List.mem_append_right _ List.mem_cons_self, hnew⟩, ?_, ?_⟩
      · intro r hr
        rw [honly r hr]
        unfold Strategy.refresh Strategy.create
        simp
      · intro r hr r' hr'
        rw [honly r hr, honly r' hr']

/-- The turn of one name leaves the others settled. -/
theorem Settled.syncOne (h : Settled rows info) (hnodup : (rows.map Strategy.id).Nodup)
    (hne : info'.name ≠ info.name) : Settled (syncOne now newId rows info') info := by
  unfold Msai.Strategies.syncOne
  split
  · rename_i keep hkeep
    obtain ⟨hmem, hkeepNamed, -⟩ := mem_of_argmin hkeep
    refine h.of_map (fun r hr hnamed => ?_) fun r hr hother => ?_
    · have hother : r.isNamed info'.name = false := isNamed_of_ne hnamed hne.symm
      split
      · rename_i hid
        rw [eq_of_id hnodup hr hmem hid, hkeepNamed] at hother
        exact absurd hother (by simp)
      · rw [hother]
        rfl
    · split
      · rwa [isNamed_refresh]
      · split
        · exact hother
        · exact hother
  · split
    · exact h
    · obtain ⟨r, hr, hnamed⟩ := h.named
      have hnew : (Strategy.create (newId info'.name) info').isNamed info.name = false := by
        unfold Strategy.isNamed
        have hname : (Strategy.create (newId info'.name) info').name = info'.name := rfl
        rw [hname, decide_eq_false hne, Bool.and_false]
      have hactive : activeRows (rows ++ [Strategy.create (newId info'.name) info']) info.name
          = activeRows rows info.name := by
        unfold activeRows
        rw [List.filter_append]
        simp [hnew]
      refine ⟨⟨r, List.mem_append_left _ hr, hnamed⟩, ?_, ?_⟩
      · rw [hactive]
        exact h.fresh
      · rw [hactive]
        exact h.unique

theorem Settled.prune (h : Settled rows info) (hinfo : info ∈ discoverStrategies d) :
    Settled (prune d now rows) info := by
  unfold Msai.Strategies.prune
  split
  · refine h.of_map (fun r _ hnamed => ?_) fun r _ hother => ?_
    · -- a row of a name that is discovered is not stale
      have hname : r.name = info.name := of_decide_eq_true (Bool.and_eq_true_iff.mp hnamed).2
      have hany : (discoverStrategies d).any (fun info => info.name = r.name) = true :=
        List.any_eq_true.mpr ⟨info, hinfo, decide_eq_true hname.symm⟩
      simp [isStale, hany]
    · split
      · exact hother
      · exact hother
  · exact h

/-- Behind the first loop every name is settled. -/
theorem settled_foldl {infos : List (DiscoveredStrategy J)}
    (hfresh : (rows.map Strategy.id ++ infos.map fun info => newId info.name).Nodup)
    (hnames : (infos.map DiscoveredStrategy.name).Nodup)
    (hsmoke : ∀ info ∈ infos, PyText.startsWith info.name "__smoke__/" = false)
    (info : DiscoveredStrategy J) (h : info ∈ infos ∨
      Settled rows info ∧ info.name ∉ infos.map DiscoveredStrategy.name) :
    Settled (infos.foldl (Msai.Strategies.syncOne now newId) rows) info := by
  induction infos generalizing rows with
  | nil =>
    rcases h with hmem | hsettled
    · cases hmem
    · exact hsettled.1
  | cons head infos ih =>
    rw [List.map_cons, List.nodup_cons] at hnames
    rw [List.forall_mem_cons] at hsmoke
    refine ih (freshIds_syncOne hfresh) hnames.2 hsmoke.2 ?_
    rcases h with hmem | ⟨hsettled, hnot⟩
    · rcases List.mem_cons.mp hmem with rfl | hmem
      · exact Or.inr ⟨settled_syncOne (nodup_left hfresh) hsmoke.1, hnames.1⟩
      · exact Or.inl hmem
    · rw [List.map_cons, List.mem_cons, not_or] at hnot
      exact Or.inr ⟨hsettled.syncOne (nodup_left hfresh) (Ne.symm hnot.1), hnot.2⟩

theorem foldl_of_settled {infos : List (DiscoveredStrategy J)}
    (hnodup : (rows.map Strategy.id).Nodup) (h : ∀ info ∈ infos, Settled rows info) :
    infos.foldl (Msai.Strategies.syncOne now newId) rows = rows := by
  induction infos with
  | nil => rfl
  | cons info infos ih =>
    rw [List.forall_mem_cons] at h
    rw [List.foldl_cons, syncOne_of_settled hnodup h.1]
    exact ih h.2

/-- No row is stale behind the second loop. -/
theorem not_stale_prune (now : ℤ) (rows : List (Strategy J)) (hdir : d.isDir = true) :
    ∀ r ∈ prune d now rows, isStale d r = false := by
  unfold Msai.Strategies.prune
  rw [if_pos hdir]
  intro r' hr'
  obtain ⟨r, hr, rfl⟩ := List.mem_map.mp hr'
  split
  · simp [isStale, Strategy.archive, Strategy.isActive]
  · rename_i h
    exact Bool.eq_false_iff.mpr h

theorem prune_prune {now' : ℤ} : prune d now' (prune d now rows) = prune d now rows := by
  by_cases hdir : d.isDir = true
  · have hstale := not_stale_prune now rows hdir
    generalize Msai.Strategies.prune d now rows = pruned at *
    unfold Msai.Strategies.prune
    rw [if_pos hdir]
    refine (List.map_congr_left fun r hr => ?_).trans (List.map_id pruned)
    rw [hstale r hr]
    rfl
  · unfold Msai.Strategies.prune
    rw [if_neg hdir, if_neg hdir]

end Settled

/-- **A scan settles the table.**  Every name of the directory has a row; it has one active row at
    most, with the path, the class and the hash of the file; where the root is a directory, no row
    but one of a smoke run is left active whose name and file are gone; and a second scan of the
    directory changes nothing, whatever the table was. -/
theorem sync_settles (d : Directory J) (now : ℤ) (newId : String → ℕ) (rows : List (Strategy J))
    (hfresh : FreshIds d newId rows) :
    (∀ info ∈ discoverStrategies d,
      (∃ r ∈ syncStrategies d now newId rows, r.isNamed info.name = true) ∧
      ∀ r ∈ activeRows (syncStrategies d now newId rows) info.name,
        r.filePath = info.filePath ∧ r.strategyClass = info.found.strategyClass ∧
        r.codeHash = some info.codeHash ∧
        ∀ r' ∈ activeRows (syncStrategies d now newId rows) info.name, r = r') ∧
    (d.isDir = true → ∀ r ∈ syncStrategies d now newId rows, r.isActive = true →
      PyText.startsWith r.name "__smoke__/" = false →
      (∃ info ∈ discoverStrategies d, info.name = r.name) ∨ d.hasName r.name = true ∨
        d.resolves r.filePath = true) ∧
    ∀ now' newId', syncStrategies d now' newId' (syncStrategies d now newId rows)
      = syncStrategies d now newId rows := by
  have hsettled : ∀ info ∈ discoverStrategies d, Settled (syncStrategies d now newId rows) info :=
    fun info hinfo => (settled_foldl hfresh nodup_names (fun _ => not_smoke) info
      (Or.inl hinfo)).prune hinfo
  refine ⟨fun info hinfo => ⟨(hsettled info hinfo).named, fun r hr => ?_⟩,
    fun hdir r hr hactive hsmoke => ?_, fun now' newId' => ?_⟩
  · have hr' := (hsettled info hinfo).fresh r hr
    have hpath := filePath_refresh info r
    have hclass := strategyClass_refresh info r
    have hhash := codeHash_refresh info r
    rw [hr'] at hpath hclass hhash
    exact ⟨hpath, hclass, hhash, (hsettled info hinfo).unique r hr⟩
  · have hstale := not_stale_prune now _ hdir r hr
    by_contra hgone
    push Not at hgone
    obtain ⟨hnames, hname, hpath⟩ := hgone
    have hnone : ((discoverStrategies d).any fun info => info.name = r.name) = false := by
      simpa using hnames
    simp [isStale, hactive, hsmoke, hnone, hname, hpath] at hstale
  · have hnodup := (keeps_sync now hfresh).2
    unfold syncStrategies at hsettled hnodup ⊢
    rw [foldl_of_settled hnodup hsettled, prune_prune]

/-- Two active rows of one file, with an old hash: one is left, and has the new hash. -/
theorem sync_settles_emaCross :
    ∃ r ∈ syncStrategies exampleDirectory 6 (fun _ => 3) [emaRow 2 none, emaRow 1 none],
      r.id = 1 ∧ r.codeHash = some "aa" ∧
        ∀ r' ∈ activeRows (syncStrategies exampleDirectory 6 (fun _ => 3)
          [emaRow 2 none, emaRow 1 none]) "example.ema_cross", r = r' := by
  obtain ⟨hnames, -⟩ := sync_settles exampleDirectory 6 (fun _ => 3)
    [emaRow 2 none, emaRow 1 none] (by decide +kernel)
  have hrow : { emaRow 1 none with codeHash := some "aa" } ∈
      activeRows (syncStrategies exampleDirectory 6 (fun _ => 3)
        [emaRow 2 none, emaRow 1 none]) "example.ema_cross" := by
    decide +kernel
  obtain ⟨-, -, hhash, hunique⟩ := (hnames ⟨["example", "ema_cross"], "aa",
    ⟨"EMACrossStrategy", ⟨none, none, none, "no_config_class"⟩, none⟩⟩ (by simp [discoverStrategies,
      exampleDirectory, discoverFile, emaCross, isSkipped, combinedStrategyHash])).2 _ hrow
  exact ⟨_, (mem_activeRows.mp hrow).1, rfl, hhash, hunique⟩

end Msai.Strategies
