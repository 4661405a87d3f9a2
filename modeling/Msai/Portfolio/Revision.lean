import Mathlib.Data.List.AList
import Msai.Lib.Transition
import Msai.Portfolio.Composition

namespace Msai.Portfolio

open Msai.Lib Msai.Lib.TransitionSystem

/-!
# Drafts and frozen revisions
(`services/live/portfolio_service.py`, `services/live/revision_service.py`)

`add_strategy` inserts a member into the draft of a portfolio and `snapshot` freezes the draft
under its composition hash.  Both take the row lock of the draft, each in a transaction and a
session of its own; the statements of different transactions interleave.

* `PortfolioDb` — the committed rows of one portfolio;
* `Txn` — a transaction with the identity map of its session.  A `SELECT … FOR UPDATE` waits for
  the lock, but an instance that the session has loaded before keeps its attributes;
* `portfolioStep` — one statement, or one commit;
* `FrozenMatch`, `AddsToDraftsOnly` — a frozen revision has the hash of its members, and gets no
  new one;
* `LocksLiveDraft` — the condition: when `add_strategy` gets the lock, the draft it has loaded is
  not frozen in the table;
* `frozen_revision_immutable_of_live_lock` — the theorem over all runs.
-/

/-! ### The rows -/

/-- A `live_portfolio_revisions` row. -/
structure Revision where
  revisionNumber : ℕ
  compositionHash : String
  isFrozen : Bool
deriving DecidableEq, Repr

/-- The committed rows of one portfolio. -/
structure PortfolioDb (σ Γ : Type) where
  revisions : AList fun _ : ℕ => Revision
  /-- The member rows, each behind its `revision_id`. -/
  members : List (ℕ × Member σ Γ)

namespace PortfolioDb

variable {σ Γ : Type}

/-- The members of a revision, in the order of their index. -/
def membersOf (db : PortfolioDb σ Γ) (rev : ℕ) : List (Member σ Γ) :=
  sortMembers ((db.members.filter fun p => p.1 == rev).map (·.2))

/-- `get_current_draft`: the id. -/
def currentDraft (db : PortfolioDb σ Γ) : Option ℕ :=
  (db.revisions.entries.find? fun p => !p.2.isFrozen).map (·.1)

/-- `coalesce(max(revision_number), 0)`. -/
def maxNumber (db : PortfolioDb σ Γ) : ℕ :=
  (db.revisions.entries.map fun p => p.2.revisionNumber).foldr max 0

end PortfolioDb

/-- `"0" * 64`, the hash of a draft. -/
def placeholderHash : String := String.ofList (List.replicate 64 '0')

/-- `_next_order_index`. -/
def nextOrderIndex {σ Γ : Type} (members : List (Member σ Γ)) : ℕ :=
  (members.map (·.orderIndex + 1)).foldr max 0

/-! ### Transactions -/

/-- Why a call raises. -/
inductive PortfolioError
  | strategyNotGraduated
  | revisionImmutable
  /-- `ValueError`: the strategy is already a member of the draft. -/
  | alreadyMember
  | integrityError
  | noDraftToSnapshot
  | emptyComposition
deriving DecidableEq, Repr

/-- What a flush has sent for the locked revision. -/
inductive Write (σ Γ : Type)
  | insert (m : Member σ Γ)
  | freeze (compositionHash : String)
  | delete
deriving DecidableEq, Repr

/-- Where a transaction stands. -/
inductive Pc (σ Γ : Type)
  | start
  /-- There is no draft; the new one is not flushed yet. -/
  | creating (revisionNumber : ℕ)
  /-- Before the `FOR UPDATE`, or waiting in it. -/
  | found (rev : ℕ)
  | locked (rev : ℕ)
  | flushed (rev : ℕ) (write : Write σ Γ)
  | committed
  | rolledBack (error : Option PortfolioError)
deriving DecidableEq, Repr

/-- The call a transaction makes. -/
inductive Op (σ Γ : Type)
  | addStrategy (strategyId : σ) (config : Γ) (instruments : List String) (weight : Decimal)
  | snapshot
deriving DecidableEq, Repr

/-- A transaction and its session. -/
structure Txn (σ Γ : Type) where
  op : Op σ Γ
  /-- `is_frozen` of the instances the session has loaded. -/
  identityMap : List (ℕ × Bool)
  /-- A draft it has flushed, with its id. -/
  created : Option (ℕ × Revision)
  pc : Pc σ Γ
deriving DecidableEq, Repr

namespace Txn

variable {σ Γ : Type}

/-- A call in a fresh session. -/
def begin (op : Op σ Γ) : Txn σ Γ := { op := op, identityMap := [], created := none, pc := .start }

/-- The transaction has the row lock of the revision. -/
def holds (x : Txn σ Γ) (rev : ℕ) : Bool :=
  match x.pc with
  | .locked r => r == rev
  | .flushed r _ => r == rev
  | _ => false

/-- A query returns the row: an instance that is there keeps its attributes. -/
def load (x : Txn σ Γ) (rev : ℕ) (isFrozen : Bool) : Txn σ Γ :=
  if (x.identityMap.lookup rev).isSome then x
  else { x with identityMap := (rev, isFrozen) :: x.identityMap }

/-- The call raises, and the transaction is rolled back. -/
def fail (x : Txn σ Γ) (error : PortfolioError) : Txn σ Γ :=
  { x with created := none, pc := .rolledBack (some error) }

end Txn

section Statements

variable {σ Γ : Type} [DecidableEq σ] (lib : HashLib σ Γ) (db : PortfolioDb σ Γ)

/-- The first queries of a call: `_is_graduated` and `get_current_draft` with the number of a new
    draft, or the draft whose lock `_lock_draft_revision` asks for. -/
def findDraft (x : Txn σ Γ) (graduated : Bool) : Txn σ Γ :=
  match x.op with
  | .addStrategy .. =>
    if !graduated then x.fail .strategyNotGraduated
    else
      match db.currentDraft with
      | some rev => { x.load rev false with pc := .found rev }
      | none => { x with pc := .creating (db.maxNumber + 1) }
  | .snapshot =>
    match db.currentDraft with
    | some rev => { x with pc := .found rev }
    | none => x.fail .noDraftToSnapshot

/-- The flush of a new draft, under the id `rev`.  Its unique indexes refuse it beside another
    draft, number or placeholder hash. -/
def flushDraft (x : Txn σ Γ) (rev revisionNumber : ℕ) : Txn σ Γ :=
  if db.revisions.entries.any fun p => !p.2.isFrozen || p.2.revisionNumber == revisionNumber
      || p.2.compositionHash == placeholderHash then x.fail .integrityError
  else
    { x.load rev false with
      created := some (rev,
        { revisionNumber := revisionNumber, compositionHash := placeholderHash, isFrozen := false })
      pc := .found rev }

/-- The `SELECT … FOR UPDATE` returns, with the lock of the row if there is one.
    `add_strategy` looks at `is_frozen` of its instance; the query of `snapshot` has the filter
    in its `WHERE` clause. -/
def lockDraft (x : Txn σ Γ) (rev : ℕ) : Txn σ Γ :=
  match x.op with
  | .addStrategy .. =>
    match (db.revisions.lookup rev).or ((x.created.filter (·.1 == rev)).map (·.2)) with
    | none => x.fail .revisionImmutable
    | some r =>
      if (x.identityMap.lookup rev).getD r.isFrozen then x.fail .revisionImmutable
      else { x.load rev r.isFrozen with pc := .locked rev }
  | .snapshot =>
    match db.revisions.lookup rev with
    | none => x.fail .noDraftToSnapshot
    | some r =>
      if r.isFrozen then x.fail .noDraftToSnapshot
      else { x.load rev false with pc := .locked rev }

/-- The rest of the call, under the lock, up to its flush. -/
def flushWrite (x : Txn σ Γ) (rev : ℕ) : Txn σ Γ :=
  let members := db.membersOf rev
  match x.op with
  | .addStrategy strategyId config instruments weight =>
    if members.any (·.strategyId == strategyId) then x.fail .alreadyMember
    else
      { x with
        pc := .flushed rev (.insert
          { strategyId := strategyId, config := config, instruments := instruments,
            weight := weight, orderIndex := nextOrderIndex members }) }
  | .snapshot =>
    if members.isEmpty then x.fail .emptyComposition
    else
      let hash := computeCompositionHash lib members
      let existing := db.revisions.entries.any fun p => p.2.isFrozen && p.2.compositionHash == hash
      { x with pc := .flushed rev (if existing then .delete else .freeze hash) }

/-- A committed draft. -/
def insertDraft : Option (ℕ × Revision) → PortfolioDb σ Γ
  | some (rev, r) => { db with revisions := db.revisions.insert rev r }
  | none => db

/-- A committed write; the members of a deleted draft go with it. -/
def applyWrite (rev : ℕ) : Write σ Γ → PortfolioDb σ Γ
  | .insert m => { db with members := db.members ++ [(rev, m)] }
  | .freeze hash =>
    match db.revisions.lookup rev with
    | some r =>
      { db with
        revisions := db.revisions.insert rev { r with compositionHash := hash, isFrozen := true } }
    | none => db
  | .delete =>
    { revisions := db.revisions.erase rev, members := db.members.filter fun p => p.1 != rev }

end Statements

/-! ### The system -/

/-- The portfolio and its transactions. -/
structure PortfolioSite (σ Γ : Type) where
  db : PortfolioDb σ Γ
  txns : List (Txn σ Γ)
  nextId : ℕ

/-- What happens next. -/
inductive PortfolioLabel (σ Γ : Type)
  | begin (op : Op σ Γ)
  /-- The session of transaction `k` loads a revision, before its call or during it. -/
  | preload (k rev : ℕ)
  | findDraft (k : ℕ) (graduated : Bool)
  | flushDraft (k : ℕ)
  | lockDraft (k : ℕ)
  | flushWrite (k : ℕ)
  | commit (k : ℕ)
  | rollback (k : ℕ)
deriving DecidableEq, Repr

namespace PortfolioSite

variable {σ Γ : Type}

/-- A portfolio without revisions. -/
def initial : PortfolioSite σ Γ :=
  { db := { revisions := ∅, members := [] }, txns := [], nextId := 0 }

/-- No other transaction has the row lock. -/
def lockFree (s : PortfolioSite σ Γ) (k rev : ℕ) : Bool :=
  s.txns.zipIdx.all fun p => p.2 == k || !p.1.holds rev

/-- No other transaction has flushed a draft; the unique index makes the flush wait. -/
def indexFree (s : PortfolioSite σ Γ) (k : ℕ) : Bool :=
  s.txns.zipIdx.all fun p => p.2 == k || p.1.created.isNone

/-- Transaction `k` moves on. -/
def put (s : PortfolioSite σ Γ) (k : ℕ) (x : Txn σ Γ) : PortfolioSite σ Γ :=
  { s with txns := s.txns.set k x }

end PortfolioSite

section System

variable {σ Γ : Type} [DecidableEq σ] (lib : HashLib σ Γ)

/-- One statement, or one commit. -/
def portfolioStep (s : PortfolioSite σ Γ) : PortfolioLabel σ Γ → Option (PortfolioSite σ Γ)
  | .begin op => some { s with txns := s.txns ++ [.begin op] }
  | .preload k rev =>
    (s.txns[k]?).bind fun x => (s.db.revisions.lookup rev).map fun r =>
      s.put k (x.load rev r.isFrozen)
  | .findDraft k graduated =>
    (s.txns[k]?).bind fun x =>
      if x.pc matches .start then some (s.put k (Portfolio.findDraft s.db x graduated)) else none
  | .flushDraft k =>
    (s.txns[k]?).bind fun x =>
      match x.pc with
      | .creating n =>
        if s.indexFree k then
          some { s.put k (Portfolio.flushDraft s.db x s.nextId n) with nextId := s.nextId + 1 }
        else none
      | _ => none
  | .lockDraft k =>
    (s.txns[k]?).bind fun x =>
      match x.pc with
      | .found rev =>
        if s.lockFree k rev then some (s.put k (Portfolio.lockDraft s.db x rev)) else none
      | _ => none
  | .flushWrite k =>
    (s.txns[k]?).bind fun x =>
      match x.pc with
      | .locked rev => some (s.put k (Portfolio.flushWrite lib s.db x rev))
      | _ => none
  | .commit k =>
    (s.txns[k]?).bind fun x =>
      match x.pc with
      | .flushed rev write =>
        some { s.put k { x with created := none, pc := .committed } with
          db := applyWrite (insertDraft s.db x.created) rev write }
      | _ => none
  | .rollback k =>
    (s.txns[k]?).bind fun x =>
      match x.pc with
      | .committed => none
      | _ => some (s.put k { x with created := none, pc := .rolledBack none })

/-- The transactions of one portfolio as a transition system. -/
def portfolioSystem : TransitionSystem (PortfolioSite σ Γ) (PortfolioLabel σ Γ) where
  step := portfolioStep lib

end System

/-! ### The property and the condition -/

section Property

variable {σ Γ : Type} [DecidableEq σ] (lib : HashLib σ Γ)

/-- A frozen revision has the hash of exactly its members. -/
def FrozenMatch (db : PortfolioDb σ Γ) : Prop :=
  ∀ rev r, db.revisions.lookup rev = some r → r.isFrozen = true →
    r.compositionHash = computeCompositionHash lib (db.membersOf rev)

/-- A step adds member rows only to revisions that are not frozen. -/
def AddsToDraftsOnly (s : PortfolioSite σ Γ) (a : PortfolioLabel σ Γ) : Prop :=
  ∀ t, portfolioStep lib s a = some t → ∀ p ∈ t.db.members,
    p ∈ s.db.members ∨ ∀ r, s.db.revisions.lookup p.1 = some r → r.isFrozen = false

/-- The transaction is an `add_strategy` about to lock a revision that is frozen in the table. -/
def locksFrozen (db : PortfolioDb σ Γ) (x : Txn σ Γ) : Bool :=
  match x.op, x.pc with
  | .addStrategy .., .found rev => (db.revisions.lookup rev).any (·.isFrozen)
  | _, _ => false

/-- What the condition asks of one step. -/
def locksLiveDraft (s : PortfolioSite σ Γ) : PortfolioLabel σ Γ → Bool
  | .lockDraft k => (s.txns[k]?).all fun x => !locksFrozen s.db x
  | _ => true

/-- The condition: when `add_strategy` gets the row lock, the draft it has loaded is not frozen
    in the table. -/
def LocksLiveDraft (s : PortfolioSite σ Γ) (a : PortfolioLabel σ Γ) : Prop :=
  locksLiveDraft s a = true

instance (s : PortfolioSite σ Γ) (a : PortfolioLabel σ Γ) : Decidable (LocksLiveDraft s a) :=
  inferInstanceAs (Decidable (locksLiveDraft s a = true))

/-- What every step keeps. -/
structure Guarded (s : PortfolioSite σ Γ) : Prop where
  frozen : FrozenMatch lib s.db
  /-- A locked revision is not frozen. -/
  live : ∀ (k : ℕ) x rev, s.txns[k]? = some x → x.holds rev = true →
    ∀ r, s.db.revisions.lookup rev = some r → r.isFrozen = false
  exclusive : ∀ (j k : ℕ) x y rev, s.txns[j]? = some x → s.txns[k]? = some y →
    x.holds rev = true → y.holds rev = true → j = k
  /-- The hash that is about to be committed is that of the members. -/
  hashed : ∀ (k : ℕ) x rev hash, s.txns[k]? = some x → x.pc = .flushed rev (.freeze hash) →
    hash = computeCompositionHash lib (s.db.membersOf rev)
  drafts : ∀ (k : ℕ) x p, s.txns[k]? = some x → x.created = some p → p.2.isFrozen = false

end Property

/-! ### The rows after a commit -/

section Rows

variable {σ Γ : Type} {db : PortfolioDb σ Γ} {rev rev' : ℕ} {r : Revision} {m : Member σ Γ}
  {write : Write σ Γ} {lib : HashLib σ Γ}

/-- A write changes the members of its own revision only. -/
theorem membersOf_applyWrite (h : rev' ≠ rev) :
    (applyWrite db rev write).membersOf rev' = db.membersOf rev' := by
  cases write with
  | insert m =>
    have hne : (rev == rev') = false := by simpa using Ne.symm h
    simp [applyWrite, PortfolioDb.membersOf, List.filter_append, hne]
  | freeze hash =>
    simp only [applyWrite]
    split <;> rfl
  | delete =>
    have hfilter : (db.members.filter fun p => p.1 != rev).filter (fun p => p.1 == rev')
        = db.members.filter fun p => p.1 == rev' := by
      rw [List.filter_filter]
      refine List.filter_congr fun p _ => ?_
      by_cases hp : p.1 = rev'
      · simp [hp, h]
      · simp [hp]
    simp only [applyWrite, PortfolioDb.membersOf, hfilter]

/-- A write changes the row of its own revision only. -/
theorem lookup_applyWrite (h : rev' ≠ rev) :
    (applyWrite db rev write).revisions.lookup rev' = db.revisions.lookup rev' := by
  cases write with
  | insert m => rfl
  | freeze hash =>
    simp only [applyWrite]
    split
    · exact AList.lookup_insert_ne h
    · rfl
  | delete => exact AList.lookup_erase_ne h

/-- A committed draft changes no member, and no row that is frozen afterwards. -/
theorem lookup_insertDraft {created : Option (ℕ × Revision)}
    (hdraft : ∀ p, created = some p → p.2.isFrozen = false)
    (h : (insertDraft db created).revisions.lookup rev = some r) :
    r.isFrozen = false ∨ db.revisions.lookup rev = some r := by
  cases created with
  | none => exact Or.inr h
  | some p =>
    by_cases hrev : rev = p.1
    · subst hrev
      rw [insertDraft, AList.lookup_insert] at h
      obtain rfl := Option.some.inj h
      exact Or.inl (hdraft p rfl)
    · rw [insertDraft, AList.lookup_insert_ne hrev] at h
      exact Or.inr h

theorem membersOf_insertDraft {created : Option (ℕ × Revision)} :
    (insertDraft db created).membersOf rev = db.membersOf rev := by
  cases created <;> rfl

/-- A freeze stores the hash it was given. -/
theorem lookup_freeze {hash : String}
    (h : (applyWrite db rev (.freeze hash : Write σ Γ)).revisions.lookup rev = some r) :
    r.compositionHash = hash := by
  simp only [applyWrite] at h
  split at h
  · rw [AList.lookup_insert] at h
    obtain rfl := Option.some.inj h
    rfl
  · rename_i hnone
    rw [hnone] at h
    cases h

end Rows

/-! ### One step -/

section Step

variable {σ Γ : Type} {lib : HashLib σ Γ} {s t : PortfolioSite σ Γ} {k : ℕ} {x y : Txn σ Γ}

/-- A free lock is held by no other transaction. -/
theorem not_holds_of_lockFree {j rev : ℕ} {z : Txn σ Γ} (h : s.lockFree k rev = true)
    (hj : s.txns[j]? = some z) (hne : j ≠ k) : z.holds rev = false := by
  have hall := List.all_eq_true.mp h (z, j) (List.mem_zipIdx_iff_getElem?.mpr hj)
  simpa [hne] using hall

/-- **A statement.**  Transaction `k` moves on; a lock it gets is free, and of a row that is not
    frozen. -/
theorem Guarded.put (h : Guarded lib s) (hk : s.txns[k]? = some x)
    (hlock : ∀ rev, y.holds rev = true → x.holds rev = true ∨ (s.lockFree k rev = true ∧
      ∀ r, s.db.revisions.lookup rev = some r → r.isFrozen = false))
    (hhash : ∀ rev hash, y.pc = .flushed rev (.freeze hash) →
      hash = computeCompositionHash lib (s.db.membersOf rev))
    (hdraft : ∀ p, y.created = some p → p.2.isFrozen = false) : Guarded lib (s.put k y) where
  frozen := h.frozen
  live := by
    intro j z rev hj hz
    rcases getElem?_set_cases hj with ⟨rfl, rfl⟩ | ⟨_, hj⟩
    · rcases hlock rev hz with hx | ⟨_, hlive⟩
      · exact h.live j x rev hk hx
      · exact hlive
    · exact h.live j z rev hj hz
  exclusive := by
    -- one of the two may be `k`, with a lock it had or has just got
    have hother : ∀ j z rev, s.txns[j]? = some z → z.holds rev = true → y.holds rev = true →
        j = k := by
      intro j z rev hj hz hy
      rcases hlock rev hy with hx | ⟨hfree, _⟩
      · exact h.exclusive j k z x rev hj hk hz hx
      · by_contra hne
        rw [not_holds_of_lockFree hfree hj hne] at hz
        cases hz
    intro i j z w rev hi hj hz hw
    rcases getElem?_set_cases hi with ⟨rfl, rfl⟩ | ⟨_, hi'⟩
    · rcases getElem?_set_cases hj with ⟨rfl, rfl⟩ | ⟨_, hj'⟩
      · rfl
      · exact (hother j w rev hj' hw hz).symm
    · rcases getElem?_set_cases hj with ⟨rfl, rfl⟩ | ⟨_, hj'⟩
      · exact hother i z rev hi' hz hw
      · exact h.exclusive i j z w rev hi' hj' hz hw
  hashed := by
    intro j z rev hash hj hpc
    rcases getElem?_set_cases hj with ⟨rfl, rfl⟩ | ⟨_, hj⟩
    · exact hhash rev hash hpc
    · exact h.hashed j z rev hash hj hpc
  drafts := by
    intro j z p hj hp
    rcases getElem?_set_cases hj with ⟨rfl, rfl⟩ | ⟨_, hj⟩
    · exact hdraft p hp
    · exact h.drafts j z p hj hp

/-- A transaction that ends, or has not got its lock yet. -/
theorem Guarded.putUnlocked (h : Guarded lib s) (hk : s.txns[k]? = some x)
    (hlock : ∀ rev, y.holds rev = false)
    (hdraft : ∀ p, y.created = some p → p.2.isFrozen = false) : Guarded lib (s.put k y) := by
  refine h.put hk (fun rev hy => ?_) (fun rev hash hpc => ?_) hdraft
  · rw [hlock rev] at hy
    cases hy
  · have hno := hlock rev
    simp [Txn.holds, hpc] at hno

theorem Guarded.fail (h : Guarded lib s) (hk : s.txns[k]? = some x) (error : PortfolioError) :
    Guarded lib (s.put k (x.fail error)) :=
  h.putUnlocked hk (fun _ => rfl) fun _ hp => by cases hp

@[simp] theorem load_pc {rev : ℕ} {b : Bool} : (x.load rev b).pc = x.pc := by
  unfold Txn.load
  split <;> rfl

@[simp] theorem load_created {rev : ℕ} {b : Bool} : (x.load rev b).created = x.created := by
  unfold Txn.load
  split <;> rfl

@[simp] theorem load_holds {rev rev' : ℕ} {b : Bool} :
    (x.load rev b).holds rev' = x.holds rev' := by
  simp [Txn.holds]

/-- The committed rows after transaction `k` has written to the revision it has locked. -/
theorem Guarded.frozenMatch_commit {rev : ℕ} {write : Write σ Γ} (h : Guarded lib s)
    (hk : s.txns[k]? = some x) (hpc : x.pc = .flushed rev write) :
    FrozenMatch lib (applyWrite (insertDraft s.db x.created) rev write) := by
  have hlive : ∀ r, (insertDraft s.db x.created).revisions.lookup rev = some r →
      r.isFrozen = false := by
    intro r hr
    -- the revision is a new draft, or the transaction has locked it
    rcases lookup_insertDraft (fun p => h.drafts k x p hk) hr with hdraft | hold
    · exact hdraft
    · exact h.live k x rev hk (by simp [Txn.holds, hpc]) r hold
  intro rev' r hr hfrozen
  by_cases hrev : rev' = rev
  · subst hrev
    cases write with
    | insert m =>
      rw [hlive r hr] at hfrozen
      cases hfrozen
    | freeze hash =>
      -- the hash was computed over the members that are still there
      have hmembers : (applyWrite (insertDraft s.db x.created) rev' (.freeze hash)).membersOf rev'
          = (insertDraft s.db x.created).membersOf rev' := by
        simp only [applyWrite]
        split <;> rfl
      rw [lookup_freeze hr, hmembers, membersOf_insertDraft]
      exact h.hashed k x rev' hash hk hpc
    | delete =>
      rw [applyWrite, AList.lookup_erase] at hr
      cases hr
  · -- another revision keeps its row and its members
    rw [lookup_applyWrite hrev] at hr
    rw [membersOf_applyWrite hrev, membersOf_insertDraft]
    rcases lookup_insertDraft (fun p => h.drafts k x p hk) hr with hdraft | hold
    · rw [hdraft] at hfrozen
      cases hfrozen
    · exact h.frozen rev' r hold hfrozen

/-- **A commit.** -/
theorem Guarded.commit {rev : ℕ} {write : Write σ Γ} (h : Guarded lib s)
    (hk : s.txns[k]? = some x) (hpc : x.pc = .flushed rev write) :
    Guarded lib { s.put k { x with created := none, pc := .committed } with
      db := applyWrite (insertDraft s.db x.created) rev write } := by
  have hput : Guarded lib (s.put k { x with created := none, pc := .committed }) :=
    h.putUnlocked hk (fun _ => rfl) fun _ hp => by cases hp
  -- the lock keeps every other transaction off the revision
  have hother : ∀ (j : ℕ) z rev',
      (s.put k { x with created := none, pc := .committed }).txns[j]? = some z →
      z.holds rev' = true → rev' ≠ rev := by
    intro j z rev' hj hz
    rcases getElem?_set_cases hj with ⟨_, rfl⟩ | ⟨hne, hj⟩
    · cases hz
    · rintro rfl
      exact hne (h.exclusive j k z x rev' hj hk hz (by simp [Txn.holds, hpc]))
  exact
    { frozen := h.frozenMatch_commit hk hpc
      live := by
        intro j z rev' hj hz r hr
        have hr' : (insertDraft s.db x.created).revisions.lookup rev' = some r := by
          rw [← lookup_applyWrite (hother j z rev' hj hz)]
          exact hr
        rcases lookup_insertDraft (fun p => h.drafts k x p hk) hr' with hdraft | hold
        · exact hdraft
        · exact hput.live j z rev' hj hz r hold
      exclusive := hput.exclusive
      hashed := by
        intro j z rev' hash hj hz
        have hne := hother j z rev' hj (by simp [Txn.holds, hz])
        -- another transaction has locked another revision, so its members stay
        have hsame : (applyWrite (insertDraft s.db x.created) rev write).membersOf rev'
            = s.db.membersOf rev' := by
          rw [membersOf_applyWrite hne, membersOf_insertDraft]
        show hash = computeCompositionHash lib
          ((applyWrite (insertDraft s.db x.created) rev write).membersOf rev')
        rw [hsame]
        exact hput.hashed j z rev' hash hj hz
      drafts := hput.drafts }

/-- A transaction comes. -/
theorem Guarded.begin (h : Guarded lib s) (op : Op σ Γ) :
    Guarded lib { s with txns := s.txns ++ [.begin op] } where
  frozen := h.frozen
  live := by
    intro j z rev hj hz
    rcases getElem?_concat_cases hj with ⟨_, rfl⟩ | hj
    · cases hz
    · exact h.live j z rev hj hz
  exclusive := by
    intro i j z w rev hi hj hz hw
    rcases getElem?_concat_cases hi with ⟨_, rfl⟩ | hi
    · cases hz
    · rcases getElem?_concat_cases hj with ⟨_, rfl⟩ | hj
      · cases hw
      · exact h.exclusive i j z w rev hi hj hz hw
  hashed := by
    intro j z rev hash hj hz
    rcases getElem?_concat_cases hj with ⟨_, rfl⟩ | hj
    · cases hz
    · exact h.hashed j z rev hash hj hz
  drafts := by
    intro j z p hj hp
    rcases getElem?_concat_cases hj with ⟨_, rfl⟩ | hj
    · cases hp
    · exact h.drafts j z p hj hp

/-- The first queries of a call. -/
theorem Guarded.findDraft (h : Guarded lib s) (hk : s.txns[k]? = some x) (graduated : Bool) :
    Guarded lib (s.put k (findDraft s.db x graduated)) := by
  unfold Portfolio.findDraft
  split
  · split
    · exact h.fail hk _
    · split
      · refine h.putUnlocked hk (fun _ => rfl) fun p hp => h.drafts k x p hk ?_
        simpa using hp
      · exact h.putUnlocked hk (fun _ => rfl) fun p hp => h.drafts k x p hk hp
  · split
    · exact h.putUnlocked hk (fun _ => rfl) fun p hp => h.drafts k x p hk hp
    · exact h.fail hk _

/-- The flush of a new draft. -/
theorem Guarded.flushDraft (h : Guarded lib s) (hk : s.txns[k]? = some x) (rev n : ℕ) :
    Guarded lib (s.put k (flushDraft s.db x rev n)) := by
  unfold Portfolio.flushDraft
  split
  · exact h.fail hk _
  · refine h.putUnlocked hk (fun _ => rfl) fun p hp => ?_
    -- a draft is flushed without a hash
    obtain rfl := Option.some.inj hp
    rfl

/-- A lock that is taken of a row that is not frozen. -/
theorem Guarded.putLocked {rev : ℕ} {b : Bool} (h : Guarded lib s) (hk : s.txns[k]? = some x)
    (hfree : s.lockFree k rev = true)
    (hlive : ∀ r, s.db.revisions.lookup rev = some r → r.isFrozen = false) :
    Guarded lib (s.put k { x.load rev b with pc := .locked rev }) := by
  refine h.put hk (fun rev' hy => ?_) (fun _ _ hpc => by cases hpc) fun p hp => ?_
  · obtain rfl : rev = rev' := by simpa [Txn.holds] using hy
    exact Or.inr ⟨hfree, hlive⟩
  · exact h.drafts k x p hk (by simpa using hp)

/-- **The lock.**  `snapshot` finds the draft not frozen; `add_strategy` does by the condition. -/
theorem Guarded.lockDraft {rev : ℕ} (h : Guarded lib s) (hk : s.txns[k]? = some x)
    (hpc : x.pc = .found rev) (hfree : s.lockFree k rev = true)
    (hC : locksFrozen s.db x = false) : Guarded lib (s.put k (lockDraft s.db x rev)) := by
  unfold Portfolio.lockDraft
  split
  · rename_i hop
    split
    · exact h.fail hk _
    · split
      · exact h.fail hk _
      · refine h.putLocked hk hfree fun r hr => ?_
        simpa [locksFrozen, hop, hpc, hr] using hC
  · split
    · exact h.fail hk _
    · rename_i r hr
      split
      · exact h.fail hk _
      · rename_i hlive
        refine h.putLocked hk hfree fun r' hr' => ?_
        obtain rfl := Option.some.inj (hr.symm.trans hr')
        simpa using hlive

/-- The rest of a call, under the lock. -/
theorem Guarded.flushWrite [DecidableEq σ] {rev : ℕ} (h : Guarded lib s)
    (hk : s.txns[k]? = some x) (hpc : x.pc = .locked rev) :
    Guarded lib (s.put k (flushWrite lib s.db x rev)) := by
  have hkeep : ∀ write, (∀ hash, write = .freeze hash →
      hash = computeCompositionHash lib (s.db.membersOf rev)) →
      Guarded lib (s.put k { x with pc := .flushed rev write }) := by
    intro write hwrite
    refine h.put hk (fun rev' hy => Or.inl ?_) (fun rev' hash hflushed => ?_)
      fun p hp => h.drafts k x p hk hp
    · simpa [Txn.holds, hpc] using hy
    · obtain ⟨rfl, rfl⟩ := Pc.flushed.inj hflushed
      exact hwrite hash rfl
  unfold Portfolio.flushWrite
  simp only
  split
  · split
    · exact h.fail hk _
    · exact hkeep _ fun _ he => by cases he
  · split
    · exact h.fail hk _
    · refine hkeep _ fun hash he => ?_
      split at he
      · cases he
      · exact (Write.freeze.inj he).symm

/-- **Step.** -/
theorem Guarded.step [DecidableEq σ] {a : PortfolioLabel σ Γ} (h : Guarded lib s)
    (hC : LocksLiveDraft s a) (hs : portfolioStep lib s a = some t) : Guarded lib t := by
  cases a with
  | begin op =>
    obtain rfl := Option.some.inj hs
    exact h.begin op
  | preload k rev =>
    obtain ⟨x, hk, hs⟩ := Option.bind_eq_some_iff.mp hs
    obtain ⟨r, _, rfl⟩ := Option.map_eq_some_iff.mp hs
    refine h.put hk (fun rev' hy => Or.inl ?_) (fun rev' hash hpc => ?_) fun p hp => ?_
    · simpa using hy
    · exact h.hashed k x rev' hash hk (by simpa using hpc)
    · exact h.drafts k x p hk (by simpa using hp)
  | findDraft k graduated =>
    obtain ⟨x, hk, hs⟩ := Option.bind_eq_some_iff.mp hs
    split at hs
    · obtain rfl := Option.some.inj hs
      exact h.findDraft hk graduated
    · cases hs
  | flushDraft k =>
    obtain ⟨x, hk, hs⟩ := Option.bind_eq_some_iff.mp hs
    split at hs
    · split at hs
      · obtain rfl := Option.some.inj hs
        exact { h.flushDraft hk s.nextId _ with }
      · cases hs
    · cases hs
  | lockDraft k =>
    obtain ⟨x, hk, hs⟩ := Option.bind_eq_some_iff.mp hs
    split at hs
    · rename_i rev hpc
      split at hs
      · rename_i hfree
        obtain rfl := Option.some.inj hs
        exact h.lockDraft hk hpc hfree (by simpa [LocksLiveDraft, locksLiveDraft, hk] using hC)
      · cases hs
    · cases hs
  | flushWrite k =>
    obtain ⟨x, hk, hs⟩ := Option.bind_eq_some_iff.mp hs
    split at hs
    · rename_i rev hpc
      obtain rfl := Option.some.inj hs
      exact h.flushWrite hk hpc
    · cases hs
  | commit k =>
    obtain ⟨x, hk, hs⟩ := Option.bind_eq_some_iff.mp hs
    split at hs
    · rename_i rev write hpc
      obtain rfl := Option.some.inj hs
      exact h.commit hk hpc
    · cases hs
  | rollback k =>
    obtain ⟨x, hk, hs⟩ := Option.bind_eq_some_iff.mp hs
    split at hs
    · cases hs
    · obtain rfl := Option.some.inj hs
      exact h.putUnlocked hk (fun _ => rfl) fun _ hp => by cases hp

/-- The rows a commit adds belong to the revision it has locked. -/
theorem mem_applyWrite {db : PortfolioDb σ Γ} {created : Option (ℕ × Revision)} {rev : ℕ}
    {write : Write σ Γ} {p : ℕ × Member σ Γ}
    (h : p ∈ (applyWrite (insertDraft db created) rev write).members) :
    p ∈ db.members ∨ p.1 = rev := by
  have hdraft : (insertDraft db created).members = db.members := by cases created <;> rfl
  cases write with
  | insert m =>
    rcases List.mem_append.mp h with hold | hnew
    · exact Or.inl (hdraft ▸ hold)
    · obtain rfl := List.mem_singleton.mp hnew
      exact Or.inr rfl
  | freeze hash =>
    simp only [applyWrite] at h
    split at h <;> exact Or.inl (hdraft ▸ h)
  | delete => exact Or.inl (hdraft ▸ (List.mem_filter.mp h).1)

/-- No step adds a member to a frozen revision. -/
theorem Guarded.addsToDraftsOnly [DecidableEq σ] (h : Guarded lib s) (a : PortfolioLabel σ Γ) :
    AddsToDraftsOnly lib s a := by
  intro t hs p hp
  cases a with
  | commit k =>
    obtain ⟨x, hk, hs⟩ := Option.bind_eq_some_iff.mp hs
    split at hs
    · rename_i rev write hpc
      obtain rfl := Option.some.inj hs
      refine (mem_applyWrite hp).imp_right ?_
      rintro rfl
      exact h.live k x p.1 hk (by simp [Txn.holds, hpc])
    · cases hs
  | begin op =>
    obtain rfl := Option.some.inj hs
    exact Or.inl hp
  | preload k rev =>
    obtain ⟨x, _, hs⟩ := Option.bind_eq_some_iff.mp hs
    obtain ⟨r, _, rfl⟩ := Option.map_eq_some_iff.mp hs
    exact Or.inl hp
  | findDraft k _ | flushDraft k | lockDraft k | flushWrite k | rollback k =>
    obtain ⟨x, _, hs⟩ := Option.bind_eq_some_iff.mp hs
    repeat' split at hs
    all_goals cases hs
    all_goals exact Or.inl hp

end Step

/-! ### Every run -/

theorem guarded_initial {σ Γ : Type} (lib : HashLib σ Γ) :
    Guarded lib (PortfolioSite.initial : PortfolioSite σ Γ) where
  frozen := fun rev r hr => by simp [PortfolioSite.initial] at hr
  live := fun k x rev hk => by simp [PortfolioSite.initial] at hk
  exclusive := fun j k x y rev hj => by simp [PortfolioSite.initial] at hj
  hashed := fun k x rev hash hk => by simp [PortfolioSite.initial] at hk
  drafts := fun k x p hk => by simp [PortfolioSite.initial] at hk

/-- **A frozen revision is immutable.**  In every interleaving of `add_strategy` and `snapshot`
    transactions in which the draft that `add_strategy` has loaded is not frozen in the table when
    it gets the row lock, every committed state has each frozen revision under the hash of exactly
    its members, and no step adds a member to a frozen revision. -/
theorem frozen_revision_immutable_of_live_lock {σ Γ : Type} [DecidableEq σ] {lib : HashLib σ Γ}
    {as : List (PortfolioLabel σ Γ)} {t : PortfolioSite σ Γ}
    (h : Path (portfolioSystem lib) LocksLiveDraft .initial as t) :
    FrozenMatch lib t.db ∧ Path (portfolioSystem lib) (AddsToDraftsOnly lib) .initial as t := by
  have hstep : ∀ s a t, Guarded lib s → LocksLiveDraft s a →
      (portfolioSystem lib).step s a = some t → Guarded lib t :=
    fun _ _ _ hI hC hs => hI.step hC hs
  refine ⟨(h.invariant hstep (guarded_initial lib)).frozen, ?_⟩
  exact h.strengthen hstep (fun _ a _ hI _ _ => hI.addsToDraftsOnly a) (guarded_initial lib)

/-! ### Two strategies and a snapshot -/

/-- Strategies are named by texts, and the digest lists them. -/
def listing : HashLib String Unit :=
  { hex := fun s => s, digest := fun l => l.foldl (fun acc m => acc ++ m.strategyId) "" }

/-- `add_strategy` with half of the weight. -/
def addHalf (strategyId : String) : Op String Unit :=
  .addStrategy strategyId () ["AAPL.NASDAQ"] { negative := false, coefficient := 5, exponent := -1 }

/-- Transaction `k` creates a draft with its first member. -/
def createsDraft (k : ℕ) (strategyId : String) : List (PortfolioLabel String Unit) :=
  [.begin (addHalf strategyId), .findDraft k true, .flushDraft k, .lockDraft k, .flushWrite k,
    .commit k]

/-- Transaction `k` freezes the draft. -/
def freezes (k : ℕ) : List (PortfolioLabel String Unit) :=
  [.begin .snapshot, .findDraft k true, .lockDraft k, .flushWrite k, .commit k]

/-- The second `add_strategy` comes behind the snapshot, and creates a draft of its own. -/
def addedBehind : List (PortfolioLabel String Unit) :=
  createsDraft 0 "a" ++ freezes 1 ++ createsDraft 2 "b"

/-- The second `add_strategy` has loaded the draft before the snapshot, and gets the lock after
    it. -/
def addedStale : List (PortfolioLabel String Unit) :=
  List.flatten
    [createsDraft 0 "a", [.begin (addHalf "b"), .findDraft 1 true], freezes 2,
      [.lockDraft 1, .flushWrite 1]]

/-- The theorem at a snapshot between two calls. -/
theorem frozen_revision_immutable_added_behind :
    ∃ t, t.db.revisions.lookup 0
        = some { revisionNumber := 1, compositionHash := "a", isFrozen := true } ∧
      FrozenMatch listing t.db ∧
      Path (portfolioSystem listing) (AddsToDraftsOnly listing) .initial addedBehind t := by
  obtain ⟨t, ht, hrow⟩ : ∃ t, (portfolioSystem listing).runWhere LocksLiveDraft .initial addedBehind
      = some t ∧ t.db.revisions.lookup 0
        = some { revisionNumber := 1, compositionHash := "a", isFrozen := true } := ⟨_, rfl, rfl⟩
  exact ⟨t, hrow, frozen_revision_immutable_of_live_lock (.of_runWhere ht)⟩

/-- The instance of the draft still says that it is not frozen, and the member goes into the
    frozen revision. -/
theorem frozen_revision_immutable_fails :
    ∃ s t, Path (portfolioSystem listing) anyStep .initial addedStale s ∧
      portfolioStep listing s (.commit 1) = some t ∧
      ¬AddsToDraftsOnly listing s (.commit 1) ∧ ¬FrozenMatch listing t.db := by
  obtain ⟨s, hs, t, ht, hbefore, hafter, hnew, hold, hhash⟩ :
      ∃ s, (portfolioSystem listing).run .initial addedStale = some s ∧
        ∃ t, portfolioStep listing s (.commit 1) = some t ∧
          s.db.revisions.lookup 0
            = some { revisionNumber := 1, compositionHash := "a", isFrozen := true } ∧
          t.db.revisions.lookup 0
            = some { revisionNumber := 1, compositionHash := "a", isFrozen := true } ∧
          (t.db.members.any fun p => p.1 == 0 && p.2.strategyId == "b") = true ∧
          (s.db.members.all fun p => p.2.strategyId != "b") = true ∧
          computeCompositionHash listing (t.db.membersOf 0) = "ab" :=
    ⟨_, rfl, _, rfl, rfl, rfl, rfl, rfl, rfl⟩
  refine ⟨s, t, .of_run hs, ht, fun hadds => ?_, fun hmatch => ?_⟩
  · obtain ⟨p, hp, hb⟩ := List.any_eq_true.mp hnew
    simp only [Bool.and_eq_true, beq_iff_eq] at hb
    rcases hadds t ht p hp with hmem | hlive
    · have hne := List.all_eq_true.mp hold p hmem
      simp [hb.2] at hne
    · have hfalse := hlive _ (hb.1 ▸ hbefore)
      cases hfalse
  · have heq := hmatch 0 _ hafter rfl
    rw [hhash] at heq
    exact absurd heq (by decide)

end Msai.Portfolio
