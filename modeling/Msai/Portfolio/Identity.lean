import Msai.Lib.PyJson
import Msai.Portfolio.Active

namespace Msai.Portfolio

open Msai.Lib Msai.Lib.TransitionSystem

/-!
# Two hashes of one composition (`services/live/portfolio_service.py`)

`materialize_from_backtest` freezes the first revision of a new portfolio under
`PortfolioService._composition_hash`; `RevisionService.snapshot` freezes its drafts under
`compute_composition_hash`.  Here the texts that the two functions hash are those of `json.dumps`.

* `canonicalText`, `rowsText` — the texts that are hashed; `sha` is a parameter;
* `materializeFromBacktest` — a promoted portfolio;
* `storeStep` — calls on any number of portfolios, one behind the other;
* `NoTwins` — no two frozen revisions of a portfolio have the same canonical composition;
* `SparesMaterialized` — the condition: no draft that is snapshotted has the canonical composition
  of the materialized revision;
* `one_composition_one_identity_iff` — when the hashes agree, and the theorem over all runs.
-/

/-! ### The two texts -/

/-- A `UUID`. -/
abbrev Uuid := BitVec 128

/-- `UUID.hex`. -/
def Uuid.hex (u : Uuid) : String := String.ofList (hexPadded 32 u.toNat)

/-- `str(UUID)`. -/
def Uuid.str (u : Uuid) : String :=
  let h := hexPadded 32 u.toNat
  String.ofList (List.intercalate ['-']
    [h.take 8, (h.drop 8).take 4, (h.drop 12).take 4, (h.drop 16).take 4, h.drop 20])

/-- A JSON object. -/
abbrev JsonObject := List (String × Json)

/-- `str(Decimal)`. -/
def Decimal.str (d : Decimal) : String :=
  let digits := (toString d.coefficient).toList
  let leftdigits : ℤ := d.exponent + digits.length
  let dotplace : ℤ := if d.exponent ≤ 0 ∧ -6 < leftdigits then leftdigits else 1
  let body :=
    if dotplace ≤ 0 then '0' :: '.' :: List.replicate (-dotplace).toNat '0' ++ digits
    else if (digits.length : ℤ) ≤ dotplace then
      digits ++ List.replicate (dotplace.toNat - digits.length) '0'
    else digits.take dotplace.toNat ++ '.' :: digits.drop dotplace.toNat
  let shift := leftdigits - dotplace
  let exp :=
    if shift = 0 then []
    else 'E' :: (if 0 < shift then '+' else '-') :: (toString shift.natAbs).toList
  String.ofList ((if d.negative then ['-'] else []) ++ body ++ exp)

/-- What `compute_composition_hash` dumps of a member. -/
def canonicalJson (m : CanonicalMember JsonObject) : Json :=
  .obj
    [("strategy_id", .str m.strategyId), ("order_index", .num (toString m.orderIndex)),
      ("config", .obj m.config), ("instruments", .arr (m.instruments.map .str)),
      ("weight", .str m.weight)]

/-- The text `compute_composition_hash` hashes. -/
def canonicalText (canonical : List (CanonicalMember JsonObject)) : String :=
  String.ofList ((Json.arr (canonical.map canonicalJson)).dumps .compact)

/-- The hash over a digest of texts. -/
def HashLib.ofSha (sha : String → String) : HashLib Uuid JsonObject :=
  { hex := Uuid.hex, digest := fun canonical => sha (canonicalText canonical) }

/-- What `_composition_hash` dumps of a row. -/
def rowJson (row : Member Uuid JsonObject) : Json :=
  .obj
    [("strategy_id", .str row.strategyId.str), ("config", .obj row.config),
      ("instruments", .arr ((row.instruments.insertionSort (· ≤ ·)).map .str)),
      ("weight", .str row.weight.str), ("order_index", .num (toString row.orderIndex))]

/-- The text `_composition_hash` hashes. -/
def rowsText (rows : List (Member Uuid JsonObject)) : String :=
  String.ofList ((Json.arr (rows.map rowJson)).dumps .spaced)

/-- `PortfolioService._composition_hash`. -/
def compositionHash (sha : String → String) (rows : List (Member Uuid JsonObject)) : String :=
  sha (rowsText rows)

/-- The canonical composition: the text of the canonical members. -/
def canonicalComposition (members : List (Member Uuid JsonObject)) : String :=
  canonicalText ((sortMembers members).map (canonicalizeMember (.ofSha id)))

/-! ### `materialize_from_backtest` -/

/-- `{**d, **e}`. -/
def dictUpdate (d e : JsonObject) : JsonObject :=
  (d.map fun p => (p.1, (e.lookup p.1).getD p.2)) ++ e.filter fun p => (d.lookup p.1).isNone

/-- An allocation with its candidate, its strategy and the weight chosen for it. -/
structure Allocation where
  strategyId : Uuid
  defaultConfig : JsonObject
  candidateConfig : JsonObject
  instruments : List String
  weight : Decimal

/-- `merged_config`: of the best configuration the keys that the strategy knows. -/
def Allocation.mergedConfig (alloc : Allocation) (bestConfig : JsonObject) : JsonObject :=
  dictUpdate (dictUpdate alloc.defaultConfig alloc.candidateConfig)
    (bestConfig.filter fun p => (alloc.defaultConfig.lookup p.1).isSome)

/-- `member_rows`. -/
def memberRows (bestConfig : JsonObject) (allocations : List Allocation) :
    List (Member Uuid JsonObject) :=
  allocations.zipIdx.map fun p =>
    { strategyId := p.1.strategyId, config := p.1.mergedConfig bestConfig
      instruments := p.1.instruments, weight := p.1.weight, orderIndex := p.2 }

/-- The column `Numeric(8, 6)`: six places, and on a tie away from zero. -/
def numericColumn (d : Decimal) : Decimal :=
  { d with
    coefficient :=
      if -6 ≤ d.exponent then d.coefficient * 10 ^ (d.exponent + 6).toNat
      else
        let k := (-6 - d.exponent).toNat
        (2 * d.coefficient + 10 ^ k) / (2 * 10 ^ k)
    exponent := -6 }

/-- `ck_lprs_weight_range`, of a weight as the column keeps it. -/
def weightInRange (d : Decimal) : Bool :=
  !d.negative && decide (0 < d.coefficient) && decide (d.coefficient ≤ 10 ^ 6)

/-- A row as its columns keep it. -/
def storedMember (row : Member Uuid JsonObject) : Member Uuid JsonObject :=
  { row with weight := numericColumn row.weight }

/-- A `live_portfolios` row with its revisions, and the one that was frozen at creation. -/
structure LivePortfolio where
  history : History Uuid JsonObject
  materialized : Option ℕ

/-- `create_portfolio`. -/
def createPortfolio : LivePortfolio := { history := .initial, materialized := none }

/-- The portfolio of a promotion. -/
def materializedPortfolio (sha : String → String) (rows : List (Member Uuid JsonObject)) :
    LivePortfolio :=
  { history :=
      { db :=
          { revisions := AList.singleton 0
              { revisionNumber := 1, compositionHash := compositionHash sha rows, isFrozen := true }
            members := rows.map fun row => (0, storedMember row) }
        nextId := 1
        snapshotted := none }
    materialized := some 0 }

/-- `materialize_from_backtest`, unless it raises: without allocations, for a candidate without
    instruments, or in a flush (`uq_lprs_revision_strategy`, `ck_lprs_weight_range`). -/
def materializeFromBacktest (sha : String → String) (bestConfig : JsonObject)
    (allocations : List Allocation) : Option LivePortfolio :=
  let rows := memberRows bestConfig allocations
  if allocations.isEmpty || rows.any (·.instruments.isEmpty) then none
  else if !decide (rows.map (·.strategyId)).Nodup then none
  else if !rows.all fun row => weightInRange (numericColumn row.weight) then none
  else some (materializedPortfolio sha rows)

/-! ### The store -/

/-- An operation on the portfolios. -/
inductive StoreLabel
  | createPortfolio
  /-- `accepted`: the name is free, and the candidates can be linked. -/
  | materialize (bestConfig : JsonObject) (allocations : List Allocation) (accepted : Bool)
  | call (k : ℕ) (c : Call Uuid JsonObject)

/-- The call as the columns take it; a weight out of range is refused. -/
def storedCall (c : Call Uuid JsonObject) : Option (Call Uuid JsonObject) :=
  match c.op with
  | .addStrategy strategyId config instruments weight =>
    if weightInRange (numericColumn weight) then
      some { c with op := .addStrategy strategyId config instruments (numericColumn weight) }
    else none
  | .snapshot => some c

/-- A call on one portfolio. -/
def callOn (sha : String → String) (p : LivePortfolio) (c : Call Uuid JsonObject) :
    LivePortfolio :=
  match (storedCall c).bind (historyStep (.ofSha sha) p.history) with
  | some h => { p with history := h }
  | none => p

/-- One operation. -/
def storeStep (sha : String → String) (s : List LivePortfolio) :
    StoreLabel → Option (List LivePortfolio)
  | .createPortfolio => some (s ++ [createPortfolio])
  | .materialize bestConfig allocations accepted =>
    match materializeFromBacktest sha bestConfig allocations with
    | some p => some (if accepted then s ++ [p] else s)
    | none => some s
  | .call k c => (s[k]?).map fun p => s.set k (callOn sha p c)

/-- The portfolios as a transition system. -/
def storeSystem (sha : String → String) : TransitionSystem (List LivePortfolio) StoreLabel where
  step := storeStep sha

/-! ### The property and the condition -/

/-- No two frozen revisions have the same canonical composition. -/
def NoTwins (db : PortfolioDb Uuid JsonObject) : Prop :=
  ∀ rev rev' r r', db.revisions.lookup rev = some r → db.revisions.lookup rev' = some r' →
    r.isFrozen = true → r'.isFrozen = true →
    canonicalComposition (db.membersOf rev) = canonicalComposition (db.membersOf rev') → rev = rev'

/-- No portfolio has twins behind a step. -/
def KeepsApart (sha : String → String) (s : List LivePortfolio) (a : StoreLabel) : Prop :=
  ∀ t, storeStep sha s a = some t → ∀ p ∈ t, NoTwins p.history.db

/-- The draft has the canonical composition of the materialized revision. -/
def draftIsMaterialized (p : LivePortfolio) : Bool :=
  p.history.db.currentDraft.any fun rev => !(p.history.db.membersOf rev).isEmpty &&
    p.materialized.any fun m => canonicalComposition (p.history.db.membersOf rev)
      == canonicalComposition (p.history.db.membersOf m)

/-- What the condition asks of one operation. -/
def sparesMaterialized (s : List LivePortfolio) : StoreLabel → Bool
  | .call k ⟨.snapshot, _⟩ => (s[k]?).all fun p => !draftIsMaterialized p
  | _ => true

/-- The condition: no draft that is snapshotted has the canonical composition of the materialized
    revision. -/
def SparesMaterialized (s : List LivePortfolio) (a : StoreLabel) : Prop :=
  sparesMaterialized s a = true

instance (s : List LivePortfolio) (a : StoreLabel) : Decidable (SparesMaterialized s a) :=
  inferInstanceAs (Decidable (sparesMaterialized s a = true))

/-! ### The texts differ -/

section Texts

variable {sha : String → String} {rows members : List (Member Uuid JsonObject)}

/-- `compute_composition_hash` hashes the canonical composition. -/
theorem computeCompositionHash_ofSha :
    computeCompositionHash (.ofSha sha) members = sha (canonicalComposition members) := rfl

/-- What follows the key of a configuration begins with a brace. -/
theorem dumps_obj_head (sep : Separators) (config : JsonObject) :
    ∃ tail, (Json.obj config).dumps sep = '\x7b' :: tail := by
  rw [Json.dumps, dumpsObject]
  exact ⟨_, List.cons_append ..⟩

/-- The keys of a row, sorted. -/
theorem sorted_row (strategyId config instruments weight orderIndex : List Char) :
    ([("strategy_id", strategyId), ("config", config), ("instruments", instruments),
      ("weight", weight), ("order_index", orderIndex)].insertionSort fun p q => p.1 ≤ q.1)
      = [("config", config), ("instruments", instruments), ("order_index", orderIndex),
        ("strategy_id", strategyId), ("weight", weight)] := by
  simp [List.insertionSort, List.orderedInsert]

/-- The keys of a canonical member, sorted. -/
theorem sorted_canonical (strategyId orderIndex config instruments weight : List Char) :
    ([("strategy_id", strategyId), ("order_index", orderIndex), ("config", config),
      ("instruments", instruments), ("weight", weight)].insertionSort fun p q => p.1 ≤ q.1)
      = [("config", config), ("instruments", instruments), ("order_index", orderIndex),
        ("strategy_id", strategyId), ("weight", weight)] := by
  simp [List.insertionSort, List.orderedInsert]

/-- The text of the rows begins with the configuration of the first one. -/
theorem rowsText_prefix (row : Member Uuid JsonObject) (rest : List (Member Uuid JsonObject)) :
    ∃ tail, (rowsText (row :: rest)).toList
      = '[' :: '\x7b' :: quoted "config" ++ Separators.spaced.key
        ++ (Json.obj row.config).dumps .spaced ++ tail := by
  rw [rowsText, String.toList_ofList]
  simp only [List.map_cons, Json.dumps, Json.dumpsItems, rowJson, Json.dumpsFields]
  exact dumpsArray_prefix (sorted_row _ _ _ _ _)

/-- The canonical text begins with the configuration of the first member. -/
theorem canonicalText_prefix (m : CanonicalMember JsonObject)
    (rest : List (CanonicalMember JsonObject)) :
    ∃ tail, (canonicalText (m :: rest)).toList
      = '[' :: '\x7b' :: quoted "config" ++ Separators.compact.key
        ++ (Json.obj m.config).dumps .compact ++ tail := by
  rw [canonicalText, String.toList_ofList]
  simp only [List.map_cons, Json.dumps, Json.dumpsItems, canonicalJson, Json.dumpsFields]
  exact dumpsArray_prefix (sorted_canonical _ _ _ _ _)

/-- **The texts differ** behind the first key. -/
theorem rowsText_ne_canonicalComposition (hrows : rows ≠ []) (hmembers : members ≠ []) :
    rowsText rows ≠ canonicalComposition members := by
  obtain ⟨row, rows', rfl⟩ := List.exists_cons_of_ne_nil hrows
  have hsorted : (sortMembers members).map (canonicalizeMember (.ofSha id)) ≠ [] := by
    have hlength : (sortMembers members).length = members.length := List.length_insertionSort _ _
    intro hnil
    rw [List.map_eq_nil_iff] at hnil
    rw [hnil, List.length_nil] at hlength
    exact hmembers (List.length_eq_zero_iff.mp hlength.symm)
  obtain ⟨m, rest, hcons⟩ := List.exists_cons_of_ne_nil hsorted
  obtain ⟨tail, htail⟩ := rowsText_prefix row rows'
  obtain ⟨tail', htail'⟩ := canonicalText_prefix m rest
  obtain ⟨tail'', hbrace⟩ := dumps_obj_head .compact m.config
  intro heq
  have hlists := congrArg String.toList heq
  rw [htail, canonicalComposition, hcons, htail'] at hlists
  refine spaced_ne_compact ?_ ?_ hlists
  · rw [hbrace]
    simp
  · rw [hbrace]
    exact List.cons_ne_nil _ _

/-- The two hashes agree on the empty list only. -/
theorem compositionHash_eq_iff (hsha : Function.Injective sha) :
    compositionHash sha members = computeCompositionHash (.ofSha sha) members ↔ members = [] := by
  rw [compositionHash, computeCompositionHash_ofSha, hsha.eq_iff]
  constructor
  · intro heq
    by_contra hne
    exact rowsText_ne_canonicalComposition hne hne heq
  · rintro rfl
    rfl

end Texts

/-! ### What a call leaves of the frozen revisions -/

section Frozen

variable {db db' : PortfolioDb Uuid JsonObject} {rev : ℕ} {r : Revision}

/-- The frozen revisions and their members stay. -/
structure SameFrozen (db db' : PortfolioDb Uuid JsonObject) : Prop where
  rows : ∀ rev r, r.isFrozen = true →
    (db'.revisions.lookup rev = some r ↔ db.revisions.lookup rev = some r)
  members : ∀ rev r, db.revisions.lookup rev = some r → r.isFrozen = true →
    db'.membersOf rev = db.membersOf rev

theorem SameFrozen.refl (db : PortfolioDb Uuid JsonObject) : SameFrozen db db :=
  ⟨fun _ _ _ => Iff.rfl, fun _ _ _ _ => rfl⟩

theorem SameFrozen.noTwins (h : SameFrozen db db') (hno : NoTwins db) : NoTwins db' := by
  intro rev rev' r r' hr hr' hf hf' heq
  have hold := (h.rows rev r hf).mp hr
  have hold' := (h.rows rev' r' hf').mp hr'
  rw [h.members rev r hold hf, h.members rev' r' hold' hf'] at heq
  exact hno rev rev' r r' hold hold' hf hf' heq

/-- A frozen revision is not the draft. -/
theorem ne_of_frozen {rev' : ℕ} {r' : Revision} (hl : db.revisions.lookup rev = some r)
    (hr : r.isFrozen = false) (hl' : db.revisions.lookup rev' = some r')
    (hr' : r'.isFrozen = true) : rev' ≠ rev := by
  rintro rfl
  obtain rfl := Option.some.inj (hl.symm.trans hl')
  rw [hr] at hr'
  cases hr'

/-- A member of the draft. -/
theorem SameFrozen.insert (hl : db.revisions.lookup rev = some r) (hr : r.isFrozen = false)
    (m : Member Uuid JsonObject) : SameFrozen db (applyWrite db rev (.insert m)) where
  rows := fun _ _ _ => Iff.rfl
  members := fun _ _ hl' hr' => membersOf_applyWrite (ne_of_frozen hl hr hl' hr')

/-- A new draft with its first member. -/
theorem SameFrozen.create (hnone : db.revisions.lookup rev = none) (draft : Revision)
    (hdraft : draft.isFrozen = false) (m : Member Uuid JsonObject) :
    SameFrozen db (applyWrite (insertDraft db (some (rev, draft))) rev (.insert m)) where
  rows := by
    intro rev' r' hr'
    show (db.revisions.insert rev draft).lookup rev' = some r' ↔ _
    by_cases hrev : rev' = rev
    · subst hrev
      rw [AList.lookup_insert, hnone]
      -- the new row is no frozen one
      refine ⟨fun heq => ?_, fun heq => by cases heq⟩
      obtain rfl := Option.some.inj heq
      rw [hdraft] at hr'
      cases hr'
    · rw [AList.lookup_insert_ne hrev]
  members := by
    intro rev' r' hl' _
    -- the frozen revision was there before, and the new id was not
    have hrev : rev' ≠ rev := by
      rintro rfl
      rw [hnone] at hl'
      cases hl'
    rw [membersOf_applyWrite hrev, membersOf_insertDraft]

/-- The draft goes. -/
theorem SameFrozen.delete (hl : db.revisions.lookup rev = some r) (hr : r.isFrozen = false) :
    SameFrozen db (applyWrite db rev .delete) where
  rows := by
    intro rev' r' hr'
    by_cases hrev : rev' = rev
    · subst hrev
      show (db.revisions.erase rev').lookup rev' = some r' ↔ _
      rw [AList.lookup_erase]
      refine ⟨fun heq => ?_, fun heq => ?_⟩
      · cases heq
      · exact absurd rfl (ne_of_frozen hl hr heq hr')
    · rw [lookup_applyWrite hrev]
  members := fun _ _ hl' hr' => membersOf_applyWrite (ne_of_frozen hl hr hl' hr')

/-- The row of a draft that is frozen. -/
theorem lookup_freeze_self (hl : db.revisions.lookup rev = some r) (hash : String) :
    (applyWrite db rev (.freeze hash)).revisions.lookup rev
      = some { r with compositionHash := hash, isFrozen := true } := by
  simp only [applyWrite, hl]
  exact AList.lookup_insert _

theorem membersOf_freeze (rev' : ℕ) (hash : String) :
    (applyWrite db rev (.freeze hash)).membersOf rev' = db.membersOf rev' := by
  simp only [applyWrite]
  split <;> rfl

end Frozen

/-! ### One call -/

/-- What every operation keeps of a portfolio. -/
structure Kept (sha : String → String) (p : LivePortfolio) : Prop where
  numbered : WellNumbered p.history
  hashed : ∀ rev r, p.history.db.revisions.lookup rev = some r → r.isFrozen = true →
    p.materialized ≠ some rev →
    r.compositionHash = sha (canonicalComposition (p.history.db.membersOf rev))
  materialized : ∀ m, p.materialized = some m → ∃ r rows,
    p.history.db.revisions.lookup m = some r ∧ r.isFrozen = true ∧ rows ≠ [] ∧
      r.compositionHash = compositionHash sha rows

section Step

variable {sha : String → String} {p : LivePortfolio} {h : History Uuid JsonObject} {rev : ℕ}
  {r : Revision}

/-- A call that leaves the frozen revisions. -/
theorem Kept.of_sameFrozen (hk : Kept sha p) (hn : WellNumbered h)
    (hsame : SameFrozen p.history.db h.db) : Kept sha { p with history := h } where
  numbered := hn
  hashed := by
    intro rev r hl hr hne
    have hold := (hsame.rows rev r hr).mp hl
    show r.compositionHash = sha (canonicalComposition (h.db.membersOf rev))
    rw [hsame.members rev r hold hr]
    exact hk.hashed rev r hold hr hne
  materialized := by
    intro m hm
    obtain ⟨r, rows, hl, hr, hrows⟩ := hk.materialized m hm
    exact ⟨r, rows, (hsame.rows m r hr).mpr hl, hr, hrows⟩

/-- `add_strategy` leaves the frozen revisions. -/
theorem sameFrozen_addStrategy (hn : WellNumbered p.history) {strategyId : Uuid}
    {config : JsonObject} {instruments : List String} {weight : Decimal} {graduated : Bool} :
    SameFrozen p.history.db (commitAlone p.history.db (callAlone (.ofSha sha) p.history.db
      p.history.nextId (.addStrategy strategyId config instruments weight) graduated)) := by
  rcases addStrategy_cases (.ofSha sha) p.history.nextId graduated hn.fresh rfl with
    hsame | ⟨rev, m, hdraft, hinsert⟩ | ⟨m, _, _, hinsert⟩
  · rw [hsame]
    exact .refl _
  · obtain ⟨r, hl, hr⟩ := currentDraft_eq_some hdraft
    rw [hinsert]
    exact .insert hl hr m
  · have hnone : p.history.db.revisions.lookup p.history.nextId = none := by
      refine AList.lookup_eq_none.mpr fun hmem => ?_
      obtain ⟨q, hq, hkey⟩ := List.mem_map.mp hmem
      -- ids are given in order, so the next one is new
      have hlt := hn.fresh q hq
      omega
    rw [hinsert]
    exact .create hnone _ rfl m

/-- Of a draft with members the composition is that of the materialized revision. -/
theorem draftIsMaterialized_iff (hdraft : p.history.db.currentDraft = some rev)
    (hmembers : (p.history.db.membersOf rev).isEmpty = false) :
    draftIsMaterialized p = true ↔ ∃ m, p.materialized = some m ∧
      canonicalComposition (p.history.db.membersOf rev)
        = canonicalComposition (p.history.db.membersOf m) := by
  simp only [draftIsMaterialized, hdraft, Option.any_some, hmembers, Bool.not_false,
    Bool.true_and, Option.any_eq_true_iff_get, beq_iff_eq]
  constructor
  · rintro ⟨hsome, heq⟩
    exact ⟨_, Option.some_get hsome |>.symm, heq⟩
  · rintro ⟨m, hm, heq⟩
    exact ⟨by simp [hm], by simpa [hm] using heq⟩

/-- A hash of the rows is never that of a draft. -/
theorem Kept.hash_ne (hk : Kept sha p) (hsha : Function.Injective sha) {m : ℕ}
    (hm : p.materialized = some m) (hl : p.history.db.revisions.lookup m = some r)
    (hmembers : (p.history.db.membersOf rev).isEmpty = false) :
    r.compositionHash ≠ sha (canonicalComposition (p.history.db.membersOf rev)) := by
  -- the materialized revision has the hash of its rows, which is no canonical text
  obtain ⟨r', rows, hl', _, hrows, hhash⟩ := hk.materialized m hm
  obtain rfl := Option.some.inj (hl.symm.trans hl')
  rw [hhash, compositionHash]
  intro heq
  refine rowsText_ne_canonicalComposition hrows ?_ (hsha heq)
  rintro hnil
  rw [hnil] at hmembers
  cases hmembers

/-- The draft is dropped for a revision of `snapshot`, so it is not the materialized one. -/
theorem Kept.not_materialized_of_existing (hk : Kept sha p) (hsha : Function.Injective sha)
    (hno : NoTwins p.history.db) (hdraft : p.history.db.currentDraft = some rev)
    (hmembers : (p.history.db.membersOf rev).isEmpty = false) {e : ℕ}
    (hexisting : existingRevision (.ofSha sha) p.history.db rev = some e) :
    draftIsMaterialized p = false := by
  obtain ⟨q, hq, rfl⟩ := Option.map_eq_some_iff.mp hexisting
  have hfound := List.find?_some hq
  simp only [Bool.and_eq_true, beq_iff_eq, computeCompositionHash_ofSha] at hfound
  have hl : p.history.db.revisions.lookup q.1 = some q.2 :=
    AList.mem_lookup_iff.mpr (List.mem_of_find?_eq_some hq)
  rw [Bool.eq_false_iff, Ne, draftIsMaterialized_iff hdraft hmembers]
  rintro ⟨m, hm, heq⟩
  -- the revision found has the hash of `snapshot`, so it was not materialized
  have hne : p.materialized ≠ some q.1 :=
    fun hmat => hk.hash_ne hsha hmat hl hmembers hfound.2
  have hhash := hk.hashed q.1 q.2 hl hfound.1 hne
  have hsame : canonicalComposition (p.history.db.membersOf q.1)
      = canonicalComposition (p.history.db.membersOf m) := by
    rw [← heq]
    exact hsha (hhash.symm.trans hfound.2)
  obtain ⟨r, rows, hl', hr, _⟩ := hk.materialized m hm
  have hid := hno q.1 m q.2 r hl hl' hfound.1 hr hsame
  exact hne (hid ▸ hm)

/-- No frozen revision has the hash of the draft. -/
theorem hash_ne_of_existing_none {r : Revision} {rev' : ℕ}
    (hexisting : existingRevision (.ofSha sha) p.history.db rev = none)
    (hl : p.history.db.revisions.lookup rev' = some r) (hr : r.isFrozen = true) :
    r.compositionHash ≠ sha (canonicalComposition (p.history.db.membersOf rev)) := by
  have hnone := List.find?_eq_none.mp (Option.map_eq_none_iff.mp hexisting) _
    (mem_entries_of_lookup hl)
  simpa [hr, computeCompositionHash_ofSha] using hnone

/-- **The freeze** makes twins exactly if the draft has the composition of the materialized
    revision. -/
theorem Kept.noTwins_freeze (hk : Kept sha p) (hno : NoTwins p.history.db)
    (hdraft : p.history.db.currentDraft = some rev)
    (hmembers : (p.history.db.membersOf rev).isEmpty = false)
    (hexisting : existingRevision (.ofSha sha) p.history.db rev = none) (hash : String) :
    NoTwins (applyWrite p.history.db rev (.freeze hash)) ↔ draftIsMaterialized p = false := by
  obtain ⟨r, hl, hr⟩ := currentDraft_eq_some hdraft
  rw [Bool.eq_false_iff, Ne, draftIsMaterialized_iff hdraft hmembers]
  constructor
  · rintro htwins ⟨m, hm, heq⟩
    obtain ⟨r', rows, hl', hr', _⟩ := hk.materialized m hm
    have hne := ne_of_frozen hl hr hl' hr'
    have hsame := htwins rev m _ r' (lookup_freeze_self hl hash)
      (by rw [lookup_applyWrite hne]; exact hl') rfl hr'
      (by rw [membersOf_freeze, membersOf_freeze]; exact heq)
    exact hne hsame.symm
  · intro hnot
    -- a frozen revision with the composition of the draft would have its hash
    have hother : ∀ rev' r', rev' ≠ rev →
        (applyWrite p.history.db rev (.freeze hash)).revisions.lookup rev' = some r' →
        r'.isFrozen = true → canonicalComposition (p.history.db.membersOf rev)
          ≠ canonicalComposition (p.history.db.membersOf rev') := by
      intro rev' r' hne hl' hr' heq
      rw [lookup_applyWrite hne] at hl'
      -- only a materialized revision hides its composition behind another hash
      have hmat : p.materialized ≠ some rev' := fun hm => hnot ⟨rev', hm, heq⟩
      have hhash := hk.hashed rev' r' hl' hr' hmat
      rw [← heq] at hhash
      exact hash_ne_of_existing_none hexisting hl' hr' hhash
    intro rev₁ rev₂ r₁ r₂ hl₁ hl₂ hr₁ hr₂ heq
    rw [membersOf_freeze, membersOf_freeze] at heq
    -- twins of the new revision, or twins that were there before
    by_cases h₁ : rev₁ = rev
    · by_contra hne
      subst h₁
      exact hother rev₂ r₂ (Ne.symm hne) hl₂ hr₂ heq
    · by_cases h₂ : rev₂ = rev
      · subst h₂
        exact absurd heq.symm (hother rev₁ r₁ h₁ hl₁ hr₁)
      · rw [lookup_applyWrite h₁] at hl₁
        rw [lookup_applyWrite h₂] at hl₂
        exact hno rev₁ rev₂ r₁ r₂ hl₁ hl₂ hr₁ hr₂ heq

/-- The frozen draft is kept under its hash. -/
theorem Kept.freeze (hk : Kept sha p) (hdraft : p.history.db.currentDraft = some rev)
    (hn : WellNumbered h)
    (hdb : h.db = applyWrite p.history.db rev
      (.freeze (sha (canonicalComposition (p.history.db.membersOf rev))))) :
    Kept sha { p with history := h } := by
  obtain ⟨r, hl, hr⟩ := currentDraft_eq_some hdraft
  refine ⟨hn, fun rev' r' hl' hr' hne => ?_, fun m hm => ?_⟩
  · show r'.compositionHash = sha (canonicalComposition (h.db.membersOf rev'))
    have hl'' : h.db.revisions.lookup rev' = some r' := hl'
    rw [hdb] at hl''
    rw [hdb, membersOf_freeze]
    by_cases hrev : rev' = rev
    · subst hrev
      rw [lookup_freeze_self hl] at hl''
      obtain rfl := Option.some.inj hl''
      rfl
    · rw [lookup_applyWrite hrev] at hl''
      exact hk.hashed rev' r' hl'' hr' hne
  · obtain ⟨r', rows, hl', hr', hrows⟩ := hk.materialized m hm
    refine ⟨r', rows, ?_, hr', hrows⟩
    show h.db.revisions.lookup m = some r'
    rw [hdb, lookup_applyWrite (ne_of_frozen hl hr hl' hr')]
    exact hl'

/-- A snapshot. -/
theorem Kept.snapshot (hk : Kept sha p) (hsha : Function.Injective sha)
    (hno : NoTwins p.history.db) {graduated : Bool}
    (hs : historyStep (.ofSha sha) p.history ⟨.snapshot, graduated⟩ = some h) :
    Kept sha { p with history := h } ∧ (NoTwins h.db ↔ draftIsMaterialized p = false) := by
  have hn : WellNumbered h := hk.numbered.step _ hs
  have hdb : commitAlone p.history.db (callAlone (.ofSha sha) p.history.db p.history.nextId
      .snapshot graduated) = h.db := congrArg History.db (Option.some.inj hs)
  have hsame : SameFrozen p.history.db h.db → draftIsMaterialized p = false →
      Kept sha { p with history := h } ∧ (NoTwins h.db ↔ draftIsMaterialized p = false) :=
    fun hfrozen hspared => ⟨hk.of_sameFrozen hn hfrozen, ⟨fun _ => hspared,
      fun _ => hfrozen.noTwins hno⟩⟩
  cases hdraft : p.history.db.currentDraft with
  | none =>
    rw [snapshot_none _ _ _ hdraft, commitAlone_of_failed failed_fail] at hdb
    exact hsame (hdb ▸ .refl _) (by simp [draftIsMaterialized, hdraft])
  | some rev =>
    obtain ⟨r, hl, hr⟩ := currentDraft_eq_some hdraft
    cases hmembers : (p.history.db.membersOf rev).isEmpty with
    | true =>
      rw [commitAlone_of_failed (snapshot_empty _ _ _ hdraft hmembers)] at hdb
      exact hsame (hdb ▸ .refl _) (by simp [draftIsMaterialized, hdraft, hmembers])
    | false =>
      obtain ⟨hcreated, hpc⟩ := snapshot_write (.ofSha sha) p.history.nextId graduated hdraft
        hmembers
      simp only [commitAlone, hpc, hcreated, insertDraft] at hdb
      cases hexisting : existingRevision (.ofSha sha) p.history.db rev with
      | some e =>
        have hfrozen : SameFrozen p.history.db h.db := by
          rw [← hdb, hexisting]
          exact .delete hl hr
        exact hsame hfrozen (hk.not_materialized_of_existing hsha hno hdraft hmembers hexisting)
      | none =>
        rw [hexisting] at hdb
        have hfreeze : applyWrite p.history.db rev
            (.freeze (sha (canonicalComposition (p.history.db.membersOf rev)))) = h.db := hdb
        refine ⟨hk.freeze hdraft hn hfreeze.symm, ?_⟩
        rw [← hfreeze]
        exact hk.noTwins_freeze hno hdraft hmembers hexisting _

/-- **One call.** -/
theorem Kept.callOn (hk : Kept sha p) (hsha : Function.Injective sha)
    (hno : NoTwins p.history.db) (c : Call Uuid JsonObject) :
    Kept sha (callOn sha p c) ∧ (NoTwins (callOn sha p c).history.db ↔
      (c.op = .snapshot → draftIsMaterialized p = false)) := by
  obtain ⟨op, graduated⟩ := c
  cases op with
  | addStrategy strategyId config instruments weight =>
    unfold Portfolio.callOn
    split
    · rename_i h hs
      have hfrozen : SameFrozen p.history.db h.db ∧ WellNumbered h := by
        obtain ⟨c, hc, hs⟩ := Option.bind_eq_some_iff.mp hs
        simp only [storedCall] at hc
        split at hc
        · obtain rfl := Option.some.inj hc
          have hdb := congrArg History.db (Option.some.inj hs)
          exact ⟨hdb ▸ sameFrozen_addStrategy hk.numbered, hk.numbered.step _ hs⟩
        · cases hc
      refine ⟨hk.of_sameFrozen hfrozen.2 hfrozen.1, fun _ hop => ?_, fun _ => ?_⟩
      · cases hop
      · exact hfrozen.1.noTwins hno
    · refine ⟨hk, fun _ hop => ?_, fun _ => hno⟩
      cases hop
  | snapshot =>
    obtain ⟨h, hs⟩ : ∃ h, historyStep (.ofSha sha) p.history ⟨.snapshot, graduated⟩ = some h :=
      ⟨_, rfl⟩
    have hcall : Portfolio.callOn sha p ⟨.snapshot, graduated⟩ = { p with history := h } := by
      simp only [Portfolio.callOn, storedCall, Option.bind_some, hs]
    rw [hcall]
    simpa using hk.snapshot hsha hno hs

end Step

/-! ### New portfolios -/

section New

variable {sha : String → String}

theorem kept_create : Kept sha createPortfolio where
  numbered := wellNumbered_initial
  hashed := fun rev r hl => by simp [createPortfolio, History.initial] at hl
  materialized := fun m hm => by cases hm

theorem noTwins_create : NoTwins createPortfolio.history.db :=
  fun rev rev' r r' hl => by simp [createPortfolio, History.initial] at hl

/-- The only revision of a promoted portfolio. -/
theorem lookup_materialized {rows : List (Member Uuid JsonObject)} {rev : ℕ} {r : Revision}
    (hl : (materializedPortfolio sha rows).history.db.revisions.lookup rev = some r) :
    rev = 0 ∧ r =
      { revisionNumber := 1, compositionHash := compositionHash sha rows, isFrozen := true } := by
  have hmem := AList.mem_lookup_iff.mp hl
  simp only [materializedPortfolio, AList.singleton_entries, List.mem_singleton] at hmem
  cases hmem
  exact ⟨rfl, rfl⟩

theorem kept_materialized {rows : List (Member Uuid JsonObject)} (hrows : rows ≠ []) :
    Kept sha (materializedPortfolio sha rows) where
  numbered :=
    { fresh := fun p hp => by simp [materializedPortfolio] at hp ⊢; simp [hp]
      above := fun p hp q _ hdraft => by
        simp only [materializedPortfolio, AList.singleton_entries, List.mem_singleton] at hp
        rw [hp] at hdraft
        cases hdraft
      one := fun p hp q _ hdraft => by
        simp only [materializedPortfolio, AList.singleton_entries, List.mem_singleton] at hp
        rw [hp] at hdraft
        cases hdraft }
  hashed := fun rev r hl _ hne => by
    obtain ⟨rfl, _⟩ := lookup_materialized hl
    exact absurd rfl hne
  materialized := fun m hm => by
    obtain rfl := Option.some.inj hm
    exact ⟨_, rows, rfl, rfl, hrows, rfl⟩

theorem noTwins_materialized {rows : List (Member Uuid JsonObject)} :
    NoTwins (materializedPortfolio sha rows).history.db := by
  intro rev rev' r r' hl hl' _ _ _
  rw [(lookup_materialized hl).1, (lookup_materialized hl').1]

/-- A promotion that does not raise has rows. -/
theorem materializeFromBacktest_eq_some {bestConfig : JsonObject} {allocations : List Allocation}
    {p : LivePortfolio} (h : materializeFromBacktest sha bestConfig allocations = some p) :
    ∃ rows, rows ≠ [] ∧ p = materializedPortfolio sha rows := by
  simp only [materializeFromBacktest] at h
  split at h
  · cases h
  · rename_i hsome
    split at h
    · cases h
    · split at h
      · cases h
      · obtain rfl := Option.some.inj h
        refine ⟨_, fun hnil => hsome ?_, rfl⟩
        have hlength := congrArg List.length hnil
        simp only [memberRows, List.length_map, List.length_zipIdx, List.length_nil,
          List.length_eq_zero_iff] at hlength
        simp [hlength]

end New

/-! ### Every run -/

section Runs

variable {sha : String → String} {s t : List LivePortfolio} {a : StoreLabel}
  {as : List StoreLabel}

/-- **A call in the store.** -/
theorem storeStep_call (hsha : Function.Injective sha) (hk : ∀ p ∈ s, Kept sha p)
    (hno : ∀ p ∈ s, NoTwins p.history.db) {k : ℕ} {c : Call Uuid JsonObject} {p : LivePortfolio}
    (hp : s[k]? = some p) :
    (∀ q ∈ s.set k (callOn sha p c), Kept sha q) ∧
      ((∀ q ∈ s.set k (callOn sha p c), NoTwins q.history.db) ↔
        SparesMaterialized s (.call k c)) := by
  have hmem : p ∈ s := List.mem_of_getElem? hp
  obtain ⟨hkept, htwins⟩ := (hk p hmem).callOn hsha (hno p hmem) c
  have hspares : SparesMaterialized s (.call k c) ↔
      (c.op = .snapshot → draftIsMaterialized p = false) := by
    obtain ⟨op, graduated⟩ := c
    cases op with
    | addStrategy =>
      refine ⟨fun _ hop => ?_, fun _ => rfl⟩
      cases hop
    | snapshot => simp [SparesMaterialized, sparesMaterialized, hp]
  rw [hspares, ← htwins]
  refine ⟨fun q hq => ?_, fun hall => ?_, fun hcall q hq => ?_⟩
  · rcases List.mem_or_eq_of_mem_set hq with hold | rfl
    · exact hk q hold
    · exact hkept
  · have hlt := (List.getElem?_eq_some_iff.mp hp).1
    exact hall _ (List.mem_set hlt _)
  · rcases List.mem_or_eq_of_mem_set hq with hold | rfl
    · exact hno q hold
    · exact hcall

/-- **Step.** -/
theorem storeStep_keepsApart_iff (hsha : Function.Injective sha) (hk : ∀ p ∈ s, Kept sha p)
    (hno : ∀ p ∈ s, NoTwins p.history.db) (hs : storeStep sha s a = some t) :
    (∀ p ∈ t, Kept sha p) ∧ (KeepsApart sha s a ↔ SparesMaterialized s a) := by
  have hkeeps : KeepsApart sha s a ↔ ∀ p ∈ t, NoTwins p.history.db := by
    refine ⟨fun h => h t hs, fun h t' hs' => ?_⟩
    obtain rfl := Option.some.inj (hs.symm.trans hs')
    exact h
  rw [hkeeps]
  -- a new portfolio has one frozen revision at most
  have hnew : ∀ p, Kept sha p → NoTwins p.history.db →
      (∀ q ∈ s ++ [p], Kept sha q) ∧ ∀ q ∈ s ++ [p], NoTwins q.history.db := by
    intro p hp hp'
    refine ⟨fun q hq => ?_, fun q hq => ?_⟩
    · rcases List.mem_append.mp hq with hold | hq
      · exact hk q hold
      · exact List.mem_singleton.mp hq ▸ hp
    · rcases List.mem_append.mp hq with hold | hq
      · exact hno q hold
      · exact List.mem_singleton.mp hq ▸ hp'
  cases a with
  | createPortfolio =>
    obtain rfl := Option.some.inj hs
    obtain ⟨hkept, htwins⟩ := hnew _ kept_create noTwins_create
    exact ⟨hkept, fun _ => rfl, fun _ => htwins⟩
  | materialize bestConfig allocations accepted =>
    simp only [storeStep] at hs
    split at hs
    · rename_i p hp
      obtain rfl := Option.some.inj hs
      obtain ⟨rows, hrows, rfl⟩ := materializeFromBacktest_eq_some hp
      split
      · obtain ⟨hkept, htwins⟩ := hnew _ (kept_materialized hrows) noTwins_materialized
        exact ⟨hkept, fun _ => rfl, fun _ => htwins⟩
      · exact ⟨hk, fun _ => rfl, fun _ => hno⟩
    · obtain rfl := Option.some.inj hs
      exact ⟨hk, fun _ => rfl, fun _ => hno⟩
  | call k c =>
    obtain ⟨p, hp, rfl⟩ := Option.map_eq_some_iff.mp hs
    exact storeStep_call hsha hk hno hp

/-- The operations that keep the frozen revisions apart are those that meet the condition. -/
theorem keepsApart_path_iff (hsha : Function.Injective sha) (hk : ∀ p ∈ s, Kept sha p)
    (hno : ∀ p ∈ s, NoTwins p.history.db) :
    Path (storeSystem sha) (KeepsApart sha) s as t ↔
      Path (storeSystem sha) SparesMaterialized s as t := by
  let I : List LivePortfolio → Prop :=
    fun u => (∀ p ∈ u, Kept sha p) ∧ ∀ p ∈ u, NoTwins p.history.db
  have hiff : ∀ u a v, I u → storeStep sha u a = some v →
      (KeepsApart sha u a ↔ SparesMaterialized u a) :=
    fun u a v hI hs => (storeStep_keepsApart_iff hsha hI.1 hI.2 hs).2
  have hkept : ∀ u a v, I u → KeepsApart sha u a → storeStep sha u a = some v → I v :=
    fun u a v hI hC hs => ⟨(storeStep_keepsApart_iff hsha hI.1 hI.2 hs).1, hC v hs⟩
  constructor <;> intro h
  · exact h.strengthen (I := I) hkept (fun u a v hI hC hs => (hiff u a v hI hs).mp hC) ⟨hk, hno⟩
  · exact h.strengthen (I := I)
      (fun u a v hI hC hs => hkept u a v hI ((hiff u a v hI hs).mpr hC) hs)
      (fun u a v hI hC hs => (hiff u a v hI hs).mpr hC) ⟨hk, hno⟩

/-- **One composition, one identity.**  The two hashes agree on the empty list only; and after
    every operation of a sequence no two frozen revisions of a portfolio have the same canonical
    composition exactly if no draft that is snapshotted has that of the materialized revision. -/
theorem one_composition_one_identity_iff (hsha : Function.Injective sha) :
    (∀ members, compositionHash sha members = computeCompositionHash (.ofSha sha) members ↔
      members = []) ∧
    ∀ as t, Path (storeSystem sha) (KeepsApart sha) [] as t ↔
      Path (storeSystem sha) SparesMaterialized [] as t := by
  refine ⟨fun members => compositionHash_eq_iff hsha, fun as t => ?_⟩
  exact keepsApart_path_iff hsha (fun p hp => by cases hp) fun p hp => by cases hp

end Runs

/-! ### A composition that is promoted and assembled -/

/-- All of the weight on one instrument. -/
def wholeAllocation (strategyId : Uuid) : Allocation :=
  { strategyId := strategyId, defaultConfig := [("fast", .num "10")], candidateConfig := []
    instruments := ["AAPL.NASDAQ"]
    weight := { negative := false, coefficient := 1, exponent := 0 } }

/-- `add_strategy` with the same data. -/
def addWhole (strategyId : Uuid) : Call Uuid JsonObject :=
  { op := .addStrategy strategyId [("fast", .num "10")] ["AAPL.NASDAQ"]
      { negative := false, coefficient := 1, exponent := 0 }
    graduated := true }

/-- A promotion of strategy 1, and behind it a snapshot of one strategy. -/
def promotedThen (strategyId : Uuid) : List StoreLabel :=
  [.materialize [] [wholeAllocation 1] true, .call 0 (addWhole strategyId),
    .call 0 ⟨.snapshot, true⟩]

/-- The theorem at a second composition, with the texts as their own digests. -/
theorem one_composition_one_identity_two :
    (compositionHash id [] = computeCompositionHash (.ofSha id) []) ∧
      ∃ t, Path (storeSystem id) (KeepsApart id) [] (promotedThen 2) t := by
  obtain ⟨hhash, hpath⟩ := one_composition_one_identity_iff Function.injective_id
  refine ⟨(hhash []).mpr rfl, ?_⟩
  have hrun : ((storeSystem id).runWhere SparesMaterialized [] (promotedThen 2)).isSome = true := by
    decide +kernel
  obtain ⟨t, ht⟩ := Option.isSome_iff_exists.mp hrun
  exact ⟨t, (hpath _ t).mpr (.of_runWhere ht)⟩

/-- Frozen revisions 0 and 1 of the first portfolio are twins. -/
def firstTwins (s : List LivePortfolio) : Bool :=
  s.any fun p => (p.history.db.revisions.lookup 0).any (·.isFrozen)
    && (p.history.db.revisions.lookup 1).any (·.isFrozen)
    && canonicalComposition (p.history.db.membersOf 0)
      == canonicalComposition (p.history.db.membersOf 1)

/-- The same strategy with the same data: its hashes differ, and the snapshot freezes a twin. -/
theorem one_composition_one_identity_fails :
    compositionHash id (memberRows [] [wholeAllocation 1])
        ≠ computeCompositionHash (.ofSha id) (memberRows [] [wholeAllocation 1]) ∧
      ∃ t, Path (storeSystem id) anyStep [] (promotedThen 1) t ∧ ∃ p ∈ t, ¬NoTwins p.history.db := by
  refine ⟨by decide +kernel, ?_⟩
  have hrun : ((storeSystem id).run [] (promotedThen 1)).any firstTwins = true := by decide +kernel
  obtain ⟨t, ht, htwins⟩ := (Option.any_eq_true _ _).mp hrun
  obtain ⟨p, hp, htwin⟩ := List.any_eq_true.mp htwins
  simp only [Bool.and_eq_true, beq_iff_eq] at htwin
  obtain ⟨⟨hfirst, hsecond⟩, heq⟩ := htwin
  obtain ⟨r, hl, hr⟩ := (Option.any_eq_true _ _).mp hfirst
  obtain ⟨r', hl', hr'⟩ := (Option.any_eq_true _ _).mp hsecond
  refine ⟨t, .of_run ht, p, hp, fun hno => ?_⟩
  have hid := hno 0 1 r r' hl hl' hr hr' heq
  cases hid

end Msai.Portfolio
