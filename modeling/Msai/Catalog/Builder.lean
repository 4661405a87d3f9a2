import Msai.Lib.Transition
import Mathlib.Data.List.Sort
import Mathlib.Data.Int.Order.Basic

namespace Msai.Catalog

open Msai.Lib Msai.Lib.TransitionSystem

/-!
# The catalog builder (`services/nautilus/catalog_builder.py`)

`build_catalog_for_symbol` turns the raw Parquet files of a symbol into bars of the Nautilus
catalog.  A marker file with the fingerprint of the raw tree tells the next call that there is
nothing to do.

* `buildSteps` — the file-system steps of a call, in their order;
* `builderSystem` — calls that return, calls that crash between two steps, and new raw trees;
* `ReturnsExact` — every call that has returned has left exactly the bars of its raw tree;
* `AcceptsSettled` — the condition: bars that a call takes for complete have not been touched since
  the marker was written;
* `returns_exact` — the theorem over every run.

The fingerprint and the wrangler are parameters.
-/

/-! ### The raw tree and the catalog -/

/-- A row of a raw Parquet file. -/
structure RawRow (V : Type) where
  timestamp : ℤ
  ohlcv : V
deriving DecidableEq, Repr

/-- A raw Parquet file with the batches that `iter_batches` yields. -/
structure RawFile (V : Type) where
  path : String
  mtimeNs : ℕ
  batches : List (List (RawRow V))
deriving DecidableEq, Repr

/-- The files under the directory of the symbol, sorted by path. -/
abbrev RawTree (V : Type) := List (RawFile V)

/-- The marker file: it may have been created and not written yet. -/
inductive Marker (F : Type)
  | missing
  | torn
  | holds (sourceHash : F)
deriving DecidableEq, Repr

/-- What the catalog root has for one instrument and bar spec.  `settled`: no bar file has been
    written or unlinked since the marker was written. -/
structure CatalogFs (F B : Type) where
  marker : Marker F
  barDir : Option (List (List B))
  instrument : Bool
  settled : Bool
deriving DecidableEq, Repr

/-- One step on the file system. -/
inductive FsStep (F B : Type)
  | unlinkMarker
  | unlinkBars (file : List B)
  | rmdirBars
  | writeInstrument
  | writeBars (bars : List B)
  /-- `write_text` opens the marker, then writes it. -/
  | openMarker
  | writeMarker (sourceHash : F)
deriving DecidableEq, Repr

section Builder

variable {F B V : Type}

/-- `catalog.bars` for the instrument. -/
def CatalogFs.bars (fs : CatalogFs F B) : List B := (fs.barDir.getD []).flatten

/-- The bars that are written for one batch. -/
def wrangle (toBar : RawRow V → B) (batch : List (RawRow V)) : List B :=
  (batch.insertionSort fun a b => a.timestamp ≤ b.timestamp).map toBar

/-- The bars of the raw tree. -/
def RawTree.bars (toBar : RawRow V → B) (tree : RawTree V) : List B :=
  (tree.flatMap RawFile.batches).flatten.map toBar

/-- `_purge_catalog_for_instrument`; `order` is that of `iterdir`. -/
def purgeSteps (fs : CatalogFs F B) (order : List (List B)) : List (FsStep F B) :=
  match fs.barDir with
  | some _ => order.map .unlinkBars ++ [.rmdirBars]
  | none => []

/-- The second half of `build_catalog_for_symbol`: the instrument, the bars of every batch that is
    not empty, and the marker. -/
def writeSteps (toBar : RawRow V → B) (tree : RawTree V) (sourceHash : F) : List (FsStep F B) :=
  .writeInstrument ::
    (((tree.flatMap RawFile.batches).filter (!·.isEmpty)).map fun batch =>
      .writeBars (wrangle toBar batch)) ++
    [.openMarker, .writeMarker sourceHash]

def CatalogFs.apply [DecidableEq B] (fs : CatalogFs F B) : FsStep F B → CatalogFs F B
  | .unlinkMarker => { fs with marker := .missing }
  | .unlinkBars file => { fs with barDir := fs.barDir.map (·.erase file), settled := false }
  | .rmdirBars =>
    -- `rmdir` refuses a directory that is not empty
    { fs with barDir := if fs.barDir = some [] then none else fs.barDir, settled := false }
  | .writeInstrument => { fs with instrument := true }
  | .writeBars bars => { fs with barDir := some (fs.barDir.getD [] ++ [bars]), settled := false }
  | .openMarker => { fs with marker := .torn }
  | .writeMarker sourceHash => { fs with marker := .holds sourceHash, settled := true }

def CatalogFs.applyAll [DecidableEq B] (fs : CatalogFs F B) (steps : List (FsStep F B)) :
    CatalogFs F B :=
  steps.foldl CatalogFs.apply fs

/-- What `build_catalog_for_symbol` is called with, apart from `force`. -/
structure BuilderConfig (F B V : Type) where
  rawSymbol : String
  symbolDir : String
  sourceHash : RawTree V → F
  toBar : RawRow V → B

/-- `build_catalog_for_symbol`: the steps of a call. -/
def buildSteps [DecidableEq F] (cfg : BuilderConfig F B V) (fs : CatalogFs F B) (tree : RawTree V)
    (force : Bool) (order : List (List B)) : Except String (List (FsStep F B)) :=
  if tree.isEmpty then
    .error ("No raw Parquet files found for '" ++ cfg.rawSymbol ++ "' under " ++ cfg.symbolDir ++
      ". Run the data ingestion pipeline for this symbol before backtesting.")
  else
    let write := writeSteps cfg.toBar tree (cfg.sourceHash tree)
    if force then .ok (.unlinkMarker :: purgeSteps fs order ++ write)
    else
      match fs.marker with
      -- the marker is compared, not removed: a crash in the purge below leaves it
      | .holds storedHash =>
        if storedHash = cfg.sourceHash tree then
          if fs.bars.isEmpty then .ok write else .ok []
        else .ok (purgeSteps fs order ++ write)
      | .torn => .ok (purgeSteps fs order ++ write)
      | .missing =>
        if fs.bars.isEmpty then .ok write else .ok (purgeSteps fs order ++ write)

/-! ### Calls and crashes -/

/-- The catalog, the raw tree, and what the calls that have returned have left: the tree of the call
    and the bars of the catalog. -/
structure BuilderSite (F B V : Type) where
  fs : CatalogFs F B
  tree : RawTree V
  returned : List (RawTree V × List B)

/-- A catalog from before the markers, or none. -/
def BuilderSite.initial (barDir : Option (List (List B))) : BuilderSite F B V where
  fs := { marker := .missing, barDir := barDir, instrument := false, settled := true }
  tree := []
  returned := []

inductive BuilderLabel (B V : Type)
  | ingest (tree : RawTree V)
  | build (force : Bool) (order : List (List B))
  /-- A call that dies after its first `n` steps. -/
  | crash (force : Bool) (order : List (List B)) (n : ℕ)

def builderStep [DecidableEq F] [DecidableEq B] (cfg : BuilderConfig F B V)
    (s : BuilderSite F B V) : BuilderLabel B V → Option (BuilderSite F B V)
  | .ingest tree => some { s with tree := tree }
  | .build force order =>
    if order.Perm (s.fs.barDir.getD []) then
      match buildSteps cfg s.fs s.tree force order with
      | .ok steps =>
        let fs := s.fs.applyAll steps
        some { s with fs := fs, returned := s.returned ++ [(s.tree, fs.bars)] }
      -- `FileNotFoundError`
      | .error _ => some s
    else none
  | .crash force order n =>
    if order.Perm (s.fs.barDir.getD []) then
      match buildSteps cfg s.fs s.tree force order with
      | .ok steps => some { s with fs := s.fs.applyAll (steps.take n) }
      | .error _ => some s
    else none

/-- The calls for one symbol. -/
def builderSystem [DecidableEq F] [DecidableEq B] (cfg : BuilderConfig F B V) :
    TransitionSystem (BuilderSite F B V) (BuilderLabel B V) := ⟨builderStep cfg⟩

/-- Every call that has returned has left the bars of its raw tree, each once. -/
def ReturnsExact (cfg : BuilderConfig F B V) (s : BuilderSite F B V) : Prop :=
  ∀ p ∈ s.returned, p.2.Perm (p.1.bars cfg.toBar)

/-- Where a call takes the bars of the catalog for those of its raw tree, they have not been touched
    since the marker was written. -/
def AcceptsSettled (cfg : BuilderConfig F B V) (s : BuilderSite F B V) : BuilderLabel B V → Prop
  | .build false _ =>
    s.fs.marker = .holds (cfg.sourceHash s.tree) → s.fs.bars ≠ [] → s.fs.settled = true
  | _ => True

instance [DecidableEq F] (cfg : BuilderConfig F B V) (s : BuilderSite F B V)
    (a : BuilderLabel B V) : Decidable (AcceptsSettled cfg s a) := by
  unfold AcceptsSettled
  split <;> infer_instance

/-! ### The steps of a call -/

/-- The sorted batches have the bars of the tree. -/
theorem flatten_wrangle_perm {toBar : RawRow V → B} {batches : List (List (RawRow V))} :
    ((batches.filter (!·.isEmpty)).map (wrangle toBar)).flatten.Perm
      (batches.flatten.map toBar) := by
  induction batches with
  | nil => exact .nil
  | cons batch batches ih =>
    rw [List.flatten_cons, List.map_append]
    cases batch with
    | nil => exact ih
    | cons row rows =>
      exact ((List.perm_insertionSort _ (row :: rows)).map toBar).append ih

/-- A purge does not write the marker. -/
theorem purgeSteps_ne_marker {fs : CatalogFs F B} {order : List (List B)} :
    ∀ step ∈ purgeSteps fs order, ∀ sourceHash, step ≠ .writeMarker sourceHash := by
  intro step hstep sourceHash heq
  rw [heq] at hstep
  unfold purgeSteps at hstep
  split at hstep
  · simp at hstep
  · exact absurd hstep List.not_mem_nil

variable [DecidableEq B] {cfg : BuilderConfig F B V} {fs : CatalogFs F B} {tree : RawTree V}
  {force : Bool} {order : List (List B)} {steps : List (FsStep F B)}

theorem applyAll_append {steps' : List (FsStep F B)} :
    fs.applyAll (steps ++ steps') = (fs.applyAll steps).applyAll steps' :=
  List.foldl_append

/-- The settled bars are those of the tree whose fingerprint the marker holds. -/
def Truthful (cfg : BuilderConfig F B V) (fs : CatalogFs F B) : Prop :=
  ∀ h, fs.marker = .holds h → fs.settled = true →
    ∃ tree, cfg.sourceHash tree = h ∧ fs.bars.Perm (RawTree.bars cfg.toBar tree)

/-- No step of a call but its last one makes a promise. -/
theorem Truthful.apply (h : Truthful cfg fs) {step : FsStep F B}
    (hstep : ∀ sourceHash, step ≠ .writeMarker sourceHash) : Truthful cfg (fs.apply step) := by
  cases step with
  | unlinkMarker => exact fun _ hmarker => absurd hmarker (by simp [CatalogFs.apply])
  | openMarker => exact fun _ hmarker => absurd hmarker (by simp [CatalogFs.apply])
  | writeInstrument => exact h
  | writeMarker sourceHash => exact absurd rfl (hstep sourceHash)
  | _ => exact fun _ _ hsettled => absurd hsettled (by simp [CatalogFs.apply])

theorem Truthful.applyAll (h : Truthful cfg fs)
    (hsteps : ∀ step ∈ steps, ∀ sourceHash, step ≠ .writeMarker sourceHash) :
    Truthful cfg (fs.applyAll steps) := by
  induction steps generalizing fs with
  | nil => exact h
  | cons step steps ih =>
    rw [List.forall_mem_cons] at hsteps
    exact ih (h.apply hsteps.1) hsteps.2

/-- The files that are unlinked in any order are all gone. -/
theorem barDir_unlinkAll {files : List (List B)} (hdir : fs.barDir = some files)
    (hperm : order.Perm files) : (fs.applyAll (order.map .unlinkBars)).barDir = some [] := by
  induction order generalizing fs files with
  | nil =>
    rw [List.nil_perm.mp hperm] at hdir
    exact hdir
  | cons file order ih =>
    -- the files that are left are those of the rest of the order
    have herased : order.Perm (files.erase file) := (List.cons_perm_iff_perm_erase.mp hperm).2
    have hdir' : (fs.apply (.unlinkBars file)).barDir = some (files.erase file) := by
      show fs.barDir.map (·.erase file) = _
      rw [hdir]
      rfl
    exact ih hdir' herased

/-- A purge leaves no bars. -/
theorem bars_purge (hperm : order.Perm (fs.barDir.getD [])) :
    (fs.applyAll (purgeSteps fs order)).bars = [] := by
  unfold purgeSteps
  split
  · rename_i files hdir
    rw [hdir, Option.getD_some] at hperm
    rw [applyAll_append]
    -- the directory is empty, so `rmdir` removes it
    have hgone : ((fs.applyAll (order.map .unlinkBars)).apply .rmdirBars).barDir = none :=
      if_pos (barDir_unlinkAll hdir hperm)
    show (((fs.applyAll (order.map .unlinkBars)).apply .rmdirBars).barDir.getD []).flatten = []
    rw [hgone]
    rfl
  · rename_i hdir
    show (fs.barDir.getD []).flatten = []
    rw [hdir]
    rfl

/-- The bars of a batch are appended. -/
theorem bars_writeBars {bars : List B} : (fs.apply (.writeBars bars)).bars = fs.bars ++ bars := by
  show (fs.barDir.getD [] ++ [bars]).flatten = _
  rw [List.flatten_append, List.flatten_singleton]
  rfl

theorem bars_writeAll {batches : List (List B)} :
    (fs.applyAll (batches.map .writeBars)).bars = fs.bars ++ batches.flatten := by
  induction batches generalizing fs with
  | nil => exact (List.append_nil _).symm
  | cons bars batches ih =>
    show ((fs.apply (.writeBars bars)).applyAll (batches.map .writeBars)).bars = _
    rw [ih, bars_writeBars, List.append_assoc, List.flatten_cons]

/-- The steps rebuild the catalog: the last one writes the marker, and after it the bars are those
    of the tree. -/
structure Rebuilds (cfg : BuilderConfig F B V) (fs : CatalogFs F B) (tree : RawTree V)
    (steps : List (FsStep F B)) : Prop where
  last : ∃ body, steps = body ++ [.writeMarker (cfg.sourceHash tree)] ∧
    ∀ step ∈ body, ∀ sourceHash, step ≠ .writeMarker sourceHash
  bars : (fs.applyAll steps).bars.Perm (RawTree.bars cfg.toBar tree)
  marker : (fs.applyAll steps).marker = .holds (cfg.sourceHash tree)

/-- A rebuild starts from a catalog without bars. -/
theorem Rebuilds.of_empty {before : List (FsStep F B)} (hempty : (fs.applyAll before).bars = [])
    (hbefore : ∀ step ∈ before, ∀ sourceHash, step ≠ .writeMarker sourceHash) :
    Rebuilds cfg fs tree (before ++ writeSteps cfg.toBar tree (cfg.sourceHash tree)) := by
  have hwrite : writeSteps cfg.toBar tree (cfg.sourceHash tree) =
      .writeInstrument ::
        ((((tree.flatMap RawFile.batches).filter (!·.isEmpty)).map (wrangle cfg.toBar)).map
          .writeBars ++ [.openMarker]) ++ [.writeMarker (cfg.sourceHash tree)] := by
    unfold writeSteps
    rw [List.map_map]
    simp only [List.cons_append, List.append_assoc]
    rfl
  rw [hwrite, ← List.append_assoc]
  refine ⟨⟨_, rfl, ?_⟩, ?_, ?_⟩
  · rw [List.forall_mem_append]
    refine ⟨hbefore, fun step hstep sourceHash heq => ?_⟩
    rw [heq] at hstep
    simp at hstep
  · rw [applyAll_append, applyAll_append]
    show (((fs.applyAll before).apply .writeInstrument).applyAll (_ ++ [.openMarker])).bars.Perm _
    rw [applyAll_append]
    show (((fs.applyAll before).apply .writeInstrument).applyAll
      (List.map .writeBars _)).bars.Perm _
    rw [bars_writeAll]
    show ((fs.applyAll before).bars ++ _).Perm _
    -- the bars that are written are all there are
    rw [hempty, List.nil_append]
    exact flatten_wrangle_perm
  · rw [applyAll_append]
    rfl

/-- What a call does: it takes the bars for complete, or it rebuilds the catalog. -/
theorem buildSteps_cases [DecidableEq F] (hperm : order.Perm (fs.barDir.getD []))
    (h : buildSteps cfg fs tree force order = .ok steps) :
    (steps = [] ∧ force = false ∧ fs.marker = .holds (cfg.sourceHash tree) ∧ fs.bars ≠ []) ∨
      Rebuilds cfg fs tree steps := by
  have hpurge : Rebuilds cfg fs tree
      (purgeSteps fs order ++ writeSteps cfg.toBar tree (cfg.sourceHash tree)) :=
    .of_empty (bars_purge hperm) purgeSteps_ne_marker
  have hforce : Rebuilds cfg fs tree
      (.unlinkMarker :: purgeSteps fs order ++
        writeSteps cfg.toBar tree (cfg.sourceHash tree)) := by
    have hgone : ((fs.apply .unlinkMarker).applyAll
        (purgeSteps (fs.apply .unlinkMarker) order)).bars = [] := bars_purge hperm
    refine .of_empty ?_ (List.forall_mem_cons.mpr ⟨fun _ => by simp, purgeSteps_ne_marker⟩)
    exact hgone
  have hwrite : fs.bars.isEmpty = true →
      Rebuilds cfg fs tree (writeSteps cfg.toBar tree (cfg.sourceHash tree)) := by
    intro hempty
    have hnone : (fs.applyAll []).bars = [] := List.isEmpty_iff.mp hempty
    show Rebuilds cfg fs tree ([] ++ writeSteps cfg.toBar tree (cfg.sourceHash tree))
    exact .of_empty hnone (by simp)
  simp only [buildSteps] at h
  split at h
  · exact absurd h (by simp)
  · split at h
    · obtain rfl := Except.ok.inj h
      exact Or.inr hforce
    · rename_i hforced
      split at h
      · rename_i storedHash hmarker
        split at h
        · rename_i hsame
          split at h
          · rename_i hempty
            obtain rfl := Except.ok.inj h
            exact Or.inr (hwrite hempty)
          · rename_i hbars
            obtain rfl := Except.ok.inj h
            rw [hsame] at hmarker
            -- marker and bars are there: nothing to do
            refine Or.inl ⟨rfl, by simpa using hforced, hmarker, fun hempty => hbars ?_⟩
            exact List.isEmpty_iff.mpr hempty
        · obtain rfl := Except.ok.inj h
          exact Or.inr hpurge
      · obtain rfl := Except.ok.inj h
        exact Or.inr hpurge
      · split at h
        · rename_i hempty
          obtain rfl := Except.ok.inj h
          exact Or.inr (hwrite hempty)
        · obtain rfl := Except.ok.inj h
          exact Or.inr hpurge

/-! ### Every run of calls and crashes -/

/-- A call that dies anywhere makes no promise that it has not kept. -/
theorem Truthful.crash [DecidableEq F] (h : Truthful cfg fs)
    (hperm : order.Perm (fs.barDir.getD [])) (n : ℕ)
    (hsteps : buildSteps cfg fs tree force order = .ok steps) :
    Truthful cfg (fs.applyAll (steps.take n)) := by
  rcases buildSteps_cases hperm hsteps with ⟨rfl, -, -, -⟩ | hrebuild
  · rw [List.take_nil]
    exact h
  · obtain ⟨body, heq, hbody⟩ := hrebuild.last
    -- the marker is written last, so a crash has either not reached it or come after it
    rcases Nat.lt_or_ge n steps.length with hlt | hge
    · have hle : n ≤ body.length := by
        rw [heq, List.length_append, List.length_singleton] at hlt
        omega
      rw [heq, List.take_append_of_le_length hle]
      exact h.applyAll fun step hstep => hbody step (List.mem_of_mem_take hstep)
    · rw [List.take_of_length_le hge]
      intro sourceHash hmarker _
      rw [hrebuild.marker] at hmarker
      exact ⟨tree, Marker.holds.inj hmarker, hrebuild.bars⟩

structure BuilderSound (cfg : BuilderConfig F B V) (s : BuilderSite F B V) : Prop where
  exact : ReturnsExact cfg s
  truthful : Truthful cfg s.fs

theorem BuilderSound.step [DecidableEq F] (hinj : Function.Injective cfg.sourceHash)
    {s t : BuilderSite F B V} {a : BuilderLabel B V} (hs : BuilderSound cfg s)
    (hC : AcceptsSettled cfg s a) (h : builderStep cfg s a = some t) : BuilderSound cfg t := by
  cases a with
  | ingest tree =>
    obtain rfl := Option.some.inj h
    exact ⟨hs.exact, hs.truthful⟩
  | build force order =>
    simp only [builderStep] at h
    split at h
    · rename_i hperm
      split at h
      · rename_i steps hsteps
        obtain rfl := Option.some.inj h
        have htruthful : Truthful cfg (s.fs.applyAll steps) := by
          -- a call that returns is a crash after its last step
          rw [← List.take_length (l := steps)]
          exact hs.truthful.crash hperm steps.length hsteps
        refine ⟨List.forall_mem_append.mpr ⟨hs.exact, List.forall_mem_singleton.mpr ?_⟩, htruthful⟩
        rcases buildSteps_cases hperm hsteps with ⟨rfl, rfl, hmarker, hbars⟩ | hrebuild
        · obtain ⟨tree, hhash, hperm'⟩ := hs.truthful _ hmarker (hC hmarker hbars)
          -- one fingerprint, one tree
          rw [hinj hhash] at hperm'
          exact hperm'
        · exact hrebuild.bars
      · obtain rfl := Option.some.inj h
        exact hs
    · exact absurd h (by simp)
  | crash force order n =>
    simp only [builderStep] at h
    split at h
    · rename_i hperm
      split at h
      · rename_i steps hsteps
        obtain rfl := Option.some.inj h
        exact ⟨hs.exact, hs.truthful.crash hperm n hsteps⟩
      · obtain rfl := Option.some.inj h
        exact hs
    · exact absurd h (by simp)

/-- **A call that returns leaves exactly the bars of its raw tree**, in every run in which the bars
    that a call takes for complete have not been touched since the marker was written. -/
theorem returns_exact [DecidableEq F] (hinj : Function.Injective cfg.sourceHash)
    {barDir : Option (List (List B))} {as : List (BuilderLabel B V)} {s : BuilderSite F B V}
    (h : Path (builderSystem cfg) (AcceptsSettled cfg) (.initial barDir) as s) :
    ReturnsExact cfg s := by
  have hinit : BuilderSound cfg (.initial barDir) := by
    refine ⟨fun p hp => absurd hp List.not_mem_nil, fun _ hmarker => ?_⟩
    exact absurd hmarker (by simp [BuilderSite.initial])
  have hsound : BuilderSound cfg s :=
    h.invariant (fun _ _ _ hs hC hstep => hs.step hinj hC hstep) hinit
  exact hsound.exact

end Builder

/-! ### A raw tree that goes back -/

/-- Two minutes of AAPL in one file, as first downloaded and as downloaded again. -/
def firstTree : RawTree ℕ := [⟨"stocks/AAPL/2024/01.parquet", 1, [[⟨0, 100⟩], [⟨60, 101⟩]]⟩]

def secondTree : RawTree ℕ := [⟨"stocks/AAPL/2024/01.parquet", 2, [[⟨0, 200⟩], [⟨60, 201⟩]]⟩]

def aaplConfig : BuilderConfig (RawTree ℕ) (RawRow ℕ) ℕ where
  rawSymbol := "AAPL"
  symbolDir := "parquet/stocks/AAPL"
  sourceHash := id
  toBar := id

/-- A call for the second tree dies after its first batch. -/
def crashedRebuild : List (BuilderLabel (RawRow ℕ) ℕ) :=
  [.ingest firstTree, .build false [], .ingest secondTree,
    .crash false [[⟨0, 100⟩], [⟨60, 101⟩]] 5]

/-- The next call is for the same tree. -/
def rebuiltAgain : List (BuilderLabel (RawRow ℕ) ℕ) :=
  crashedRebuild ++ [.build false [[⟨0, 200⟩]]]

/-- The next call is for the first tree again. -/
def treeGoesBack : List (BuilderLabel (RawRow ℕ) ℕ) :=
  crashedRebuild ++ [.ingest firstTree, .build false [[⟨0, 200⟩]]]

theorem returns_exact_rebuilt : ∃ s,
    Path (builderSystem aaplConfig) (AcceptsSettled aaplConfig) (.initial none) rebuiltAgain s ∧
      ReturnsExact aaplConfig s ∧ s.returned.length = 2 := by
  have hend : ∃ s ∈ (builderSystem aaplConfig).runWhere (AcceptsSettled aaplConfig)
      (.initial none) rebuiltAgain, s.returned.length = 2 := by
    decide +kernel
  obtain ⟨s, hrun, hlength⟩ := hend
  have hpath := Path.of_runWhere hrun
  exact ⟨s, hpath, returns_exact Function.injective_id hpath, hlength⟩

/-- **The slip.**  The marker of the first tree has outlived its bars, and the call returns with one
    bar of the second tree. -/
theorem returns_exact_fails :
    ¬∀ (as : List (BuilderLabel (RawRow ℕ) ℕ)) (s : BuilderSite (RawTree ℕ) (RawRow ℕ) ℕ),
      Path (builderSystem aaplConfig) anyStep (.initial none) as s → ReturnsExact aaplConfig s := by
  have hend : ∃ s ∈ (builderSystem aaplConfig).run (.initial none) treeGoesBack,
      (firstTree, [(⟨0, 200⟩ : RawRow ℕ)]) ∈ s.returned := by
    decide +kernel
  obtain ⟨s, hrun, hreturned⟩ := hend
  intro h
  have hperm := h treeGoesBack s (.of_run hrun) _ hreturned
  exact absurd hperm.length_eq (by decide)

end Msai.Catalog
