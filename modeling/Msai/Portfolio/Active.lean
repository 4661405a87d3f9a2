import Mathlib.Data.List.MinMax
import Msai.Portfolio.Revision

namespace Msai.Portfolio

open Msai.Lib Msai.Lib.TransitionSystem

/-!
# The active revision (`services/live/revision_service.py`)

`snapshot` freezes the draft, or drops it for a frozen revision of the same composition;
`get_active_revision` takes the frozen revision with the greatest number.  Here the calls on a
portfolio follow one another, each in a transaction of its own.

* `callAlone` — a whole call, statement by statement; `callAlone_path` shows it as a run of
  `portfolioSystem`;
* `activeRevision`, `snapshotReturns` — what the two methods return;
* `History`, `historyStep` — a sequence of calls, with what the last `snapshot` returned;
* `CollapsesOntoActive` — the condition: a draft is dropped for the active revision only;
* `active_is_last_snapshot_iff` — the theorem over all sequences of calls.
-/

section Calls

variable {σ Γ : Type} [DecidableEq σ] (lib : HashLib σ Γ)

/-! ### A call from its first to its last statement -/

/-- The flush of a new draft, if the call needs one. -/
def flushIfCreating (db : PortfolioDb σ Γ) (nextId : ℕ) (x : Txn σ Γ) : Txn σ Γ :=
  match x.pc with
  | .creating n => flushDraft db x nextId n
  | _ => x

/-- The row lock of the draft. -/
def lockIfFound (db : PortfolioDb σ Γ) (x : Txn σ Γ) : Txn σ Γ :=
  match x.pc with
  | .found rev => lockDraft db x rev
  | _ => x

/-- The rest of the call, up to its last flush. -/
def writeIfLocked (db : PortfolioDb σ Γ) (x : Txn σ Γ) : Txn σ Γ :=
  match x.pc with
  | .locked rev => flushWrite lib db x rev
  | _ => x

/-- The transaction of a call that runs alone, before its commit. -/
def callAlone (db : PortfolioDb σ Γ) (nextId : ℕ) (op : Op σ Γ) (graduated : Bool) : Txn σ Γ :=
  writeIfLocked lib db
    (lockIfFound db (flushIfCreating db nextId (findDraft db (.begin op) graduated)))

/-- The rows after the commit, or after the rollback of a call that raised. -/
def commitAlone (db : PortfolioDb σ Γ) (x : Txn σ Γ) : PortfolioDb σ Γ :=
  match x.pc with
  | .flushed rev write => applyWrite (insertDraft db x.created) rev write
  | _ => db

/-! ### What the methods return -/

/-- The frozen revision with the composition of the draft `rev`. -/
def existingRevision (db : PortfolioDb σ Γ) (rev : ℕ) : Option ℕ :=
  (db.revisions.entries.find? fun p =>
    p.2.isFrozen && p.2.compositionHash == computeCompositionHash lib (db.membersOf rev)).map (·.1)

/-- The revision `snapshot` returns once it holds the draft `rev`. -/
def snapshotReturns (db : PortfolioDb σ Γ) (rev : ℕ) : ℕ := (existingRevision lib db rev).getD rev

/-- `get_active_revision`: `ORDER BY revision_number DESC LIMIT 1` of the frozen ones. -/
def PortfolioDb.activeRevision (db : PortfolioDb σ Γ) : Option ℕ :=
  ((db.revisions.entries.filter fun p => p.2.isFrozen).argmax fun p => p.2.revisionNumber).map (·.1)

/-! ### Sequences of calls -/

/-- A portfolio, and what its last committed `snapshot` returned. -/
structure History (σ Γ : Type) where
  db : PortfolioDb σ Γ
  nextId : ℕ
  snapshotted : Option ℕ

/-- A portfolio without revisions. -/
def History.initial : History σ Γ :=
  { db := { revisions := ∅, members := [] }, nextId := 0, snapshotted := none }

/-- A call with the answer of `_is_graduated`. -/
structure Call (σ Γ : Type) where
  op : Op σ Γ
  graduated : Bool
deriving DecidableEq, Repr

/-- The flush of a new draft takes an id. -/
def nextIdAfter (s : History σ Γ) (c : Call σ Γ) : ℕ :=
  match (findDraft s.db (.begin c.op) c.graduated).pc with
  | .creating _ => s.nextId + 1
  | _ => s.nextId

/-- What the history remembers of a call. -/
def snapshottedAfter (s : History σ Γ) (c : Call σ Γ) : Option ℕ :=
  match c.op, (callAlone lib s.db s.nextId c.op c.graduated).pc with
  | .snapshot, .flushed rev _ => some (snapshotReturns lib s.db rev)
  | _, _ => s.snapshotted

/-- One call. -/
def historyStep (s : History σ Γ) (c : Call σ Γ) : Option (History σ Γ) :=
  some
    { db := commitAlone s.db (callAlone lib s.db s.nextId c.op c.graduated)
      nextId := nextIdAfter s c
      snapshotted := snapshottedAfter lib s c }

/-- The calls on a portfolio as a transition system. -/
def historySystem : TransitionSystem (History σ Γ) (Call σ Γ) where
  step := historyStep lib

/-! ### The property and the condition -/

/-- The active revision is the one the last `snapshot` returned. -/
def ActiveIsSnapshot (s : History σ Γ) : Prop :=
  ∀ r, s.snapshotted = some r → s.db.activeRevision = some r

/-- The active revision after a call. -/
def LeavesActive (s : History σ Γ) (c : Call σ Γ) : Prop :=
  ∀ t, historyStep lib s c = some t → ActiveIsSnapshot t

/-- What the condition asks of a `snapshot`: a frozen revision with the composition of the draft
    is the active one. -/
def collapsesOntoActive (db : PortfolioDb σ Γ) : Bool :=
  db.currentDraft.all fun rev => (db.membersOf rev).isEmpty ||
    (existingRevision lib db rev).all fun e => decide (db.activeRevision = some e)

/-- The condition: a draft is dropped for the active revision only. -/
def CollapsesOntoActive (s : History σ Γ) (c : Call σ Γ) : Prop :=
  c.op = .snapshot → collapsesOntoActive lib s.db = true

/-- What every call keeps: ids and numbers are handed out in order, and there is one draft at
    most. -/
structure WellNumbered (s : History σ Γ) : Prop where
  fresh : ∀ p ∈ s.db.revisions.entries, p.1 < s.nextId
  above : ∀ p ∈ s.db.revisions.entries, ∀ q ∈ s.db.revisions.entries,
    p.2.isFrozen = false → q.2.isFrozen = true → q.2.revisionNumber < p.2.revisionNumber
  one : ∀ p ∈ s.db.revisions.entries, ∀ q ∈ s.db.revisions.entries,
    p.2.isFrozen = false → q.2.isFrozen = false → p = q

end Calls

/-! ### A call alone is a run of the portfolio's transactions -/

section Alone

variable {σ Γ : Type} {lib : HashLib σ Γ} {s : PortfolioSite σ Γ} {x y : Txn σ Γ}

/-- No transaction has a lock or a draft of its own. -/
def Idle (s : PortfolioSite σ Γ) : Prop :=
  ∀ x ∈ s.txns, x.created = none ∧ ∀ rev, x.holds rev = false

/-- The site with one more transaction. -/
def withTxn (s : PortfolioSite σ Γ) (x : Txn σ Γ) : PortfolioSite σ Γ :=
  { s with txns := s.txns ++ [x] }

@[simp] theorem withTxn_getElem? : (withTxn s x).txns[s.txns.length]? = some x := by
  simp [withTxn]

@[simp] theorem withTxn_put : (withTxn s x).put s.txns.length y = withTxn s y := by
  simp [withTxn, PortfolioSite.put]

/-- Every other transaction of the extended site is one of the site. -/
theorem mem_of_withTxn_zipIdx {p : Txn σ Γ × ℕ} (hp : p ∈ (withTxn s x).txns.zipIdx)
    (hne : p.2 ≠ s.txns.length) : p.1 ∈ s.txns := by
  have hget := List.mem_zipIdx_iff_getElem?.mp hp
  rcases getElem?_concat_cases hget with ⟨hlen, _⟩ | hold
  · exact absurd hlen hne
  · exact List.mem_of_getElem? hold

theorem Idle.lockFree (h : Idle s) (rev : ℕ) :
    (withTxn s x).lockFree s.txns.length rev = true := by
  refine List.all_eq_true.mpr fun p hp => ?_
  by_cases hk : p.2 = s.txns.length
  · simp [hk]
  · have hfree := (h _ (mem_of_withTxn_zipIdx hp hk)).2 rev
    simp [hfree]

theorem Idle.indexFree (h : Idle s) : (withTxn s x).indexFree s.txns.length = true := by
  refine List.all_eq_true.mpr fun p hp => ?_
  by_cases hk : p.2 = s.txns.length
  · simp [hk]
  · have hnone := (h _ (mem_of_withTxn_zipIdx hp hk)).1
    simp [hnone]

/-! ### Where a call ends -/

/-- The call has raised. -/
def Failed (x : Txn σ Γ) : Prop := (∃ e, x.pc = .rolledBack e) ∧ x.created = none

theorem failed_fail {e : PortfolioError} : Failed (x.fail e) := ⟨⟨_, rfl⟩, rfl⟩

theorem flushIfCreating_ends {db : PortfolioDb σ Γ} {nextId : ℕ} {op : Op σ Γ} {graduated : Bool} :
    (∃ rev, (flushIfCreating db nextId (findDraft db (.begin op) graduated)).pc = .found rev) ∨
      Failed (flushIfCreating db nextId (findDraft db (.begin op) graduated)) := by
  have hflush : ∀ (x : Txn σ Γ) n, (∃ rev, (flushDraft db x nextId n).pc = .found rev) ∨
      Failed (flushDraft db x nextId n) := by
    intro x n
    unfold flushDraft
    split
    · exact Or.inr failed_fail
    · exact Or.inl ⟨_, rfl⟩
  unfold findDraft
  split
  · split
    · exact Or.inr failed_fail
    · split
      · exact Or.inl ⟨_, rfl⟩
      · exact hflush _ _
  · split
    · exact Or.inl ⟨_, rfl⟩
    · exact Or.inr failed_fail

theorem lockIfFound_ends {db : PortfolioDb σ Γ}
    (h : (∃ rev, x.pc = .found rev) ∨ Failed x) :
    (∃ rev, (lockIfFound db x).pc = .locked rev) ∨ Failed (lockIfFound db x) := by
  rcases h with ⟨rev, hpc⟩ | hfailed
  · simp only [lockIfFound, hpc]
    unfold lockDraft
    split
    · split
      · exact Or.inr failed_fail
      · split
        · exact Or.inr failed_fail
        · exact Or.inl ⟨_, rfl⟩
    · split
      · exact Or.inr failed_fail
      · split
        · exact Or.inr failed_fail
        · exact Or.inl ⟨_, rfl⟩
  · obtain ⟨e, hpc⟩ := hfailed.1
    simp only [lockIfFound, hpc]
    exact Or.inr hfailed

/-! ### The statements as a path -/

variable [DecidableEq σ] (lib)

/-- One statement is a path. -/
theorem path_of_step {t : PortfolioSite σ Γ} {a : PortfolioLabel σ Γ}
    (h : portfolioStep lib s a = some t) : Path (portfolioSystem lib) anyStep s [a] t :=
  .cons trivial h (.nil t)

/-- The site after the flush: an id is gone if a draft was created. -/
def afterFlush (s : PortfolioSite σ Γ) (x : Txn σ Γ) : PortfolioSite σ Γ :=
  match x.pc with
  | .creating _ => { s with nextId := s.nextId + 1 }
  | _ => s

theorem flushIfCreating_path (h : Idle s) : ∃ as, Path (portfolioSystem lib) anyStep
    (withTxn s x) as (withTxn (afterFlush s x) (flushIfCreating s.db s.nextId x)) := by
  cases hpc : x.pc with
  | creating n =>
    have hstep : portfolioStep lib (withTxn s x) (.flushDraft s.txns.length)
        = some (withTxn (afterFlush s x) (flushIfCreating s.db s.nextId x)) := by
      simp only [portfolioStep, withTxn_getElem?, Option.bind_some, hpc, h.indexFree, if_true,
        withTxn_put]
      simp [withTxn, afterFlush, flushIfCreating, hpc]
    exact ⟨_, path_of_step lib hstep⟩
  | _ =>
    refine ⟨[], ?_⟩
    simp only [afterFlush, flushIfCreating, hpc]
    exact .nil _

theorem lockIfFound_path (h : Idle s) : ∃ as, Path (portfolioSystem lib) anyStep
    (withTxn s x) as (withTxn s (lockIfFound s.db x)) := by
  cases hpc : x.pc with
  | found rev =>
    have hstep : portfolioStep lib (withTxn s x) (.lockDraft s.txns.length)
        = some (withTxn s (lockIfFound s.db x)) := by
      simp only [portfolioStep, withTxn_getElem?, Option.bind_some, hpc, h.lockFree, if_true,
        withTxn_put]
      simp [withTxn, lockIfFound, hpc]
    exact ⟨_, path_of_step lib hstep⟩
  | _ =>
    refine ⟨[], ?_⟩
    simp only [lockIfFound, hpc]
    exact .nil _

theorem writeIfLocked_path : ∃ as, Path (portfolioSystem lib) anyStep
    (withTxn s x) as (withTxn s (writeIfLocked lib s.db x)) := by
  cases hpc : x.pc with
  | locked rev =>
    have hstep : portfolioStep lib (withTxn s x) (.flushWrite s.txns.length)
        = some (withTxn s (writeIfLocked lib s.db x)) := by
      simp only [portfolioStep, withTxn_getElem?, Option.bind_some, hpc, withTxn_put]
      simp [withTxn, writeIfLocked, hpc]
    exact ⟨_, path_of_step lib hstep⟩
  | _ =>
    refine ⟨[], ?_⟩
    simp only [writeIfLocked, hpc]
    exact .nil _

theorem writeIfLocked_ends {db : PortfolioDb σ Γ}
    (h : (∃ rev, x.pc = .locked rev) ∨ Failed x) :
    (∃ rev write, (writeIfLocked lib db x).pc = .flushed rev write) ∨
      Failed (writeIfLocked lib db x) := by
  rcases h with ⟨rev, hpc⟩ | hfailed
  · simp only [writeIfLocked, hpc]
    unfold flushWrite
    simp only
    split
    · split
      · exact Or.inr failed_fail
      · exact Or.inl ⟨_, _, rfl⟩
    · split
      · exact Or.inr failed_fail
      · exact Or.inl ⟨_, _, rfl⟩
  · obtain ⟨e, hpc⟩ := hfailed.1
    simp only [writeIfLocked, hpc]
    exact Or.inr hfailed

theorem callAlone_ends {db : PortfolioDb σ Γ} {nextId : ℕ} {op : Op σ Γ} {graduated : Bool} :
    (∃ rev write, (callAlone lib db nextId op graduated).pc = .flushed rev write) ∨
      Failed (callAlone lib db nextId op graduated) :=
  writeIfLocked_ends lib (lockIfFound_ends flushIfCreating_ends)

/-- The commit, or nothing more after an error. -/
theorem commitAlone_path (h : Idle s)
    (hends : (∃ rev write, x.pc = .flushed rev write) ∨ Failed x) :
    ∃ as t, Path (portfolioSystem lib) anyStep (withTxn s x) as t ∧
      t.db = commitAlone s.db x ∧ t.nextId = s.nextId ∧ Idle t := by
  have hidle : ∀ y : Txn σ Γ, y.created = none → (∀ rev, y.holds rev = false) →
      Idle (withTxn s y) := by
    intro y hnone hfree z hz
    rcases List.mem_append.mp hz with hold | hnew
    · exact h z hold
    · obtain rfl := List.mem_singleton.mp hnew
      exact ⟨hnone, hfree⟩
  rcases hends with ⟨rev, write, hpc⟩ | ⟨⟨e, hpc⟩, hnone⟩
  · have hstep : portfolioStep lib (withTxn s x) (.commit s.txns.length)
        = some { withTxn s { x with created := none, pc := .committed } with
            db := applyWrite (insertDraft s.db x.created) rev write } := by
      simp only [portfolioStep, withTxn_getElem?, Option.bind_some, hpc, withTxn_put]
      rfl
    refine ⟨_, _, path_of_step lib hstep, ?_, rfl, hidle _ rfl fun _ => rfl⟩
    simp only [commitAlone, hpc]
  · refine ⟨[], _, .nil _, ?_, rfl, hidle x hnone fun rev => ?_⟩
    · simp only [commitAlone, hpc, withTxn]
    · simp only [Txn.holds, hpc]

/-- **A call alone is a run of the portfolio's transactions**, in a site where no other one has
    anything in hand. -/
theorem callAlone_path (h : Idle s) (op : Op σ Γ) (graduated : Bool) :
    ∃ as t, Path (portfolioSystem lib) anyStep s as t ∧
      t.db = commitAlone s.db (callAlone lib s.db s.nextId op graduated) ∧
      t.nextId = (afterFlush s (findDraft s.db (.begin op) graduated)).nextId ∧ Idle t := by
  have hbegin : portfolioStep lib s (.begin op) = some (withTxn s (.begin op)) := rfl
  have hfind : portfolioStep lib (withTxn s (.begin op)) (.findDraft s.txns.length graduated)
      = some (withTxn s (findDraft s.db (.begin op) graduated)) := by
    simp only [portfolioStep, withTxn_getElem?, Option.bind_some, withTxn_put]
    rfl
  let found := findDraft s.db (.begin op) graduated
  obtain ⟨as, hflush⟩ := flushIfCreating_path lib (x := found) h
  have hdb : (afterFlush s found).db = s.db := by
    unfold afterFlush
    split <;> rfl
  have hidle : Idle (afterFlush s found) := by
    unfold afterFlush
    split <;> exact h
  obtain ⟨bs, hlock⟩ := lockIfFound_path lib (x := flushIfCreating s.db s.nextId found) hidle
  obtain ⟨cs, hwrite⟩ := writeIfLocked_path lib (s := afterFlush s found)
    (x := lockIfFound s.db (flushIfCreating s.db s.nextId found))
  rw [hdb] at hlock hwrite
  obtain ⟨ds, t, hcommit, hrows, hnext, hdone⟩ := commitAlone_path lib hidle
    (callAlone_ends lib : _ ∨ Failed (callAlone lib s.db s.nextId op graduated))
  rw [hdb] at hrows
  have hcall := hlock.append (hwrite.append hcommit)
  exact ⟨_, t, (path_of_step lib hbegin).append ((path_of_step lib hfind).append
    (hflush.append hcall)), hrows, hnext, hdone⟩

/-- Every history is a run of the portfolio's transactions. -/
theorem history_refines {C : History σ Γ → Call σ Γ → Prop} {u v : History σ Γ}
    {cs : List (Call σ Γ)} (h : Path (historySystem lib) C u cs v) (hidle : Idle s)
    (hdb : s.db = u.db) (hnext : s.nextId = u.nextId) :
    ∃ as t, Path (portfolioSystem lib) anyStep s as t ∧ t.db = v.db ∧ t.nextId = v.nextId ∧
      Idle t := by
  induction h generalizing s with
  | nil u => exact ⟨[], s, .nil s, hdb, hnext, hidle⟩
  | @cons u _ _ c _ _ hstep _ ih =>
    obtain rfl := Option.some.inj hstep
    obtain ⟨as, t, hpath, hrows, hids, hdone⟩ := callAlone_path lib hidle c.op c.graduated
    have hids' : t.nextId = nextIdAfter u c := by
      rw [hids, hdb]
      simp only [afterFlush, nextIdAfter]
      split <;> simp [hnext]
    rw [hdb, hnext] at hrows
    obtain ⟨bs, w, hrest, hw⟩ := ih hdone hrows hids'
    exact ⟨as ++ bs, w, hpath.append hrest, hw⟩

end Alone

/-! ### The rows behind `get_active_revision` -/

section Rows

variable {σ Γ : Type} {db : PortfolioDb σ Γ} {rev : ℕ} {r : Revision}

/-- The rows `get_active_revision` orders. -/
def PortfolioDb.frozenRows (db : PortfolioDb σ Γ) : List ((_ : ℕ) × Revision) :=
  db.revisions.entries.filter fun p => p.2.isFrozen

theorem activeRevision_congr {db' : PortfolioDb σ Γ} (h : db'.frozenRows = db.frozenRows) :
    db'.activeRevision = db.activeRevision := by
  show (db'.frozenRows.argmax _).map _ = (db.frozenRows.argmax _).map _
  rw [h]

theorem mem_entries_of_lookup (h : db.revisions.lookup rev = some r) :
    (⟨rev, r⟩ : (_ : ℕ) × Revision) ∈ db.revisions.entries :=
  AList.mem_lookup_iff.mp h

theorem currentDraft_eq_some (h : db.currentDraft = some rev) :
    ∃ r, db.revisions.lookup rev = some r ∧ r.isFrozen = false := by
  obtain ⟨p, hp, rfl⟩ := Option.map_eq_some_iff.mp h
  have hfalse := List.find?_some hp
  exact ⟨p.2, AList.mem_lookup_iff.mpr (List.mem_of_find?_eq_some hp), by simpa using hfalse⟩

theorem currentDraft_eq_none (h : db.currentDraft = none) :
    ∀ p ∈ db.revisions.entries, p.2.isFrozen = true := by
  intro p hp
  have hnone := List.find?_eq_none.mp (Option.map_eq_none_iff.mp h) p hp
  simpa using hnone

/-- The number of a new draft is above every other. -/
theorem lt_maxNumber_succ {p : (_ : ℕ) × Revision} (hp : p ∈ db.revisions.entries) :
    p.2.revisionNumber < db.maxNumber + 1 := by
  -- by induction on the numbers: none is above their maximum
  have hle : ∀ l : List ℕ, ∀ n ∈ l, n ≤ l.foldr max 0 := by
    intro l n hn
    induction l with
    | nil => cases hn
    | cons a l ih =>
      rw [List.foldr_cons]
      rcases List.mem_cons.mp hn with rfl | hmem
      · exact Nat.le_max_left _ _
      · exact Nat.le_trans (ih hmem) (Nat.le_max_right _ _)
  exact Nat.lt_succ_of_le (hle _ _ (List.mem_map_of_mem hp))

/-- A row that is not frozen may go. -/
theorem filter_kerase {l : List ((_ : ℕ) × Revision)}
    (h : ∀ p ∈ l, p.1 = rev → p.2.isFrozen = false) :
    (l.kerase rev).filter (fun p => p.2.isFrozen) = l.filter fun p => p.2.isFrozen := by
  induction l with
  | nil => rfl
  | cons p l ih =>
    by_cases hp : rev = p.1
    · -- the row that goes is not among the frozen ones
      have hfalse := h p List.mem_cons_self hp.symm
      rw [List.kerase_cons_eq hp, List.filter_cons_of_neg (by simp [hfalse])]
    · rw [List.kerase_cons_ne hp, List.filter_cons, List.filter_cons,
        ih fun q hq => h q (List.mem_cons_of_mem _ hq)]

/-- The rows of a revision under a key are one. -/
theorem isFrozen_of_lookup (hl : db.revisions.lookup rev = some r) (hr : r.isFrozen = false) :
    ∀ p ∈ db.revisions.entries, p.1 = rev → p.2.isFrozen = false := by
  rintro ⟨k, r'⟩ hp rfl
  have heq : some r' = some r := (AList.mem_lookup_iff.mpr hp).symm.trans hl
  rw [Option.some.inj heq]
  exact hr

theorem frozenRows_erase (hl : db.revisions.lookup rev = some r) (hr : r.isFrozen = false)
    (members : List (ℕ × Member σ Γ)) :
    PortfolioDb.frozenRows { revisions := db.revisions.erase rev, members := members }
      = db.frozenRows :=
  filter_kerase (isFrozen_of_lookup hl hr)

/-- The active revision behind a freeze of the draft with the greatest number. -/
theorem activeRevision_freeze {hash : String} (hl : db.revisions.lookup rev = some r)
    (hr : r.isFrozen = false)
    (hmax : ∀ p ∈ db.revisions.entries, p.2.isFrozen = true →
      p.2.revisionNumber < r.revisionNumber) :
    (applyWrite db rev (.freeze hash)).activeRevision = some rev := by
  let fresh : (_ : ℕ) × Revision := ⟨rev, { r with compositionHash := hash, isFrozen := true }⟩
  -- the draft joins the frozen rows, and leaves no old row behind
  have hrows : (applyWrite db rev (.freeze hash)).frozenRows = fresh :: db.frozenRows := by
    have hkerase := filter_kerase (isFrozen_of_lookup hl hr)
    simp only [applyWrite, hl, PortfolioDb.frozenRows, AList.entries_insert]
    rw [List.filter_cons_of_pos rfl, hkerase]
  show ((applyWrite db rev (.freeze hash)).frozenRows.argmax _).map _ = _
  rw [hrows, List.argmax_cons]
  cases hactive : db.frozenRows.argmax fun p => p.2.revisionNumber with
  | none => rfl
  | some p =>
    have hmem := List.mem_filter.mp (List.argmax_mem hactive)
    have hlt := hmax p hmem.1 hmem.2
    -- `argmax` keeps the first of its list unless a later one is larger
    have hnot : ¬fresh.2.revisionNumber < p.2.revisionNumber := Nat.not_lt.mpr hlt.le
    simp only [if_neg hnot]
    rfl

end Rows

/-! ### The numbers of the revisions -/

section Numbers

variable {σ Γ : Type} {rev : ℕ} {r : Revision}

theorem wellNumbered_initial : WellNumbered (History.initial : History σ Γ) where
  fresh := fun p hp => by simp [History.initial] at hp
  above := fun p hp => by simp [History.initial] at hp
  one := fun p hp => by simp [History.initial] at hp

/-- Rows without those of a revision. -/
theorem WellNumbered.of_subset {s : History σ Γ} {db' : PortfolioDb σ Γ} {snapshotted : Option ℕ}
    {n : ℕ} (h : WellNumbered s) (hsub : db'.revisions.entries ⊆ s.db.revisions.entries)
    (hn : s.nextId ≤ n) :
    WellNumbered { db := db', nextId := n, snapshotted := snapshotted } where
  fresh := fun p hp => Nat.lt_of_lt_of_le (h.fresh p (hsub hp)) hn
  above := fun p hp q hq => h.above p (hsub hp) q (hsub hq)
  one := fun p hp q hq => h.one p (hsub hp) q (hsub hq)

theorem nextId_le_nextIdAfter (s : History σ Γ) (c : Call σ Γ) : s.nextId ≤ nextIdAfter s c := by
  unfold nextIdAfter
  split <;> omega

/-- The first draft of a portfolio without one. -/
theorem WellNumbered.insert {s : History σ Γ} {db' : PortfolioDb σ Γ} {snapshotted : Option ℕ}
    {hash : String} (h : WellNumbered s) (hnone : s.db.currentDraft = none)
    (hrows : db'.revisions = s.db.revisions.insert s.nextId
      { revisionNumber := s.db.maxNumber + 1, compositionHash := hash, isFrozen := false }) :
    WellNumbered { db := db', nextId := s.nextId + 1, snapshotted := snapshotted } := by
  let draft : Revision :=
    { revisionNumber := s.db.maxNumber + 1, compositionHash := hash, isFrozen := false }
  have hmem : ∀ p ∈ db'.revisions.entries,
      p = ⟨s.nextId, draft⟩ ∨ p ∈ s.db.revisions.entries := by
    intro p hp
    rw [hrows, AList.entries_insert, List.mem_cons] at hp
    exact hp.imp_right fun hold => (List.kerase_sublist _ _).subset hold
  have hfrozen := currentDraft_eq_none hnone
  refine ⟨fun p hp => ?_, fun p hp q hq hdraft hq' => ?_, fun p hp q hq hdraft hdraft' => ?_⟩
  · rcases hmem p hp with rfl | hold
    · exact Nat.lt_succ_self _
    · exact Nat.lt_succ_of_lt (h.fresh p hold)
  · rcases hmem p hp with rfl | hold
    · rcases hmem q hq with rfl | hold
      · cases hq'
      · exact lt_maxNumber_succ hold
    · -- the portfolio had no draft, so the only one is the new one
      simp [hfrozen p hold] at hdraft
  · rcases hmem p hp with rfl | hold
    · rcases hmem q hq with rfl | hold
      · rfl
      · simp [hfrozen q hold] at hdraft'
    · simp [hfrozen p hold] at hdraft

/-- The draft is frozen, and there is none any more. -/
theorem WellNumbered.freeze {s : History σ Γ} {snapshotted : Option ℕ} {hash : String} {n : ℕ}
    (h : WellNumbered s) (hl : s.db.revisions.lookup rev = some r) (hr : r.isFrozen = false)
    (hn : s.nextId ≤ n) :
    WellNumbered
      { db := applyWrite s.db rev (.freeze hash), nextId := n, snapshotted := snapshotted } := by
  have hmem : ∀ p ∈ (applyWrite s.db rev (.freeze hash : Write σ Γ)).revisions.entries,
      p = ⟨rev, { r with compositionHash := hash, isFrozen := true }⟩ ∨
        p ∈ s.db.revisions.entries ∧ p.1 ≠ rev := by
    intro p hp
    simp only [applyWrite, hl, AList.entries_insert, List.mem_cons] at hp
    refine hp.imp_right fun hold => ⟨(List.kerase_sublist _ _).subset hold, ?_⟩
    rintro rfl
    -- the old row of the draft is gone
    exact List.notMem_keys_kerase _ s.db.revisions.nodupKeys (List.mem_keys_of_mem hold)
  -- a second draft would be the one that is frozen
  have hfrozen : ∀ p ∈ (applyWrite s.db rev (.freeze hash : Write σ Γ)).revisions.entries,
      p.2.isFrozen = true := by
    intro p hp
    rcases hmem p hp with rfl | ⟨hold, hne⟩
    · rfl
    · by_contra hdraft
      have heq := h.one p hold _ (mem_entries_of_lookup hl) (by simpa using hdraft) hr
      exact hne (congrArg Sigma.fst heq)
  refine ⟨fun p hp => ?_, fun p hp q _ hdraft => ?_, fun p hp q _ hdraft => ?_⟩
  · rcases hmem p hp with rfl | ⟨hold, _⟩
    · have hlt := h.fresh _ (mem_entries_of_lookup hl)
      exact Nat.lt_of_lt_of_le hlt hn
    · exact Nat.lt_of_lt_of_le (h.fresh p hold) hn
  · simp [hfrozen p hp] at hdraft
  · simp [hfrozen p hp] at hdraft

/-- What the last lemma needs of a draft. -/
theorem WellNumbered.lt_draft {s : History σ Γ} (h : WellNumbered s)
    (hl : s.db.revisions.lookup rev = some r) (hr : r.isFrozen = false) :
    ∀ p ∈ s.db.revisions.entries, p.2.isFrozen = true →
      p.2.revisionNumber < r.revisionNumber :=
  fun p hp hfrozen => h.above _ (mem_entries_of_lookup hl) p hp hr hfrozen

end Numbers

/-! ### What one call does -/

section Calls

variable {σ Γ : Type} {lib : HashLib σ Γ} {db : PortfolioDb σ Γ} {nextId rev : ℕ}
  {r : Revision} {graduated : Bool}

/-- The query of `snapshot` for a frozen revision with the same hash. -/
theorem any_eq_existingRevision :
    (db.revisions.entries.any fun p => p.2.isFrozen &&
      p.2.compositionHash == computeCompositionHash lib (db.membersOf rev))
      = (existingRevision lib db rev).isSome := by
  rw [existingRevision, Option.isSome_map, List.isSome_find?]

theorem commitAlone_of_failed {x : Txn σ Γ} (h : Failed x) : commitAlone db x = db := by
  obtain ⟨e, hpc⟩ := h.1
  simp only [commitAlone, hpc]

variable [DecidableEq σ] (lib nextId graduated)

/-- A call without a draft to freeze changes nothing. -/
theorem snapshot_none (h : db.currentDraft = none) :
    callAlone lib db nextId .snapshot graduated
      = (Txn.begin .snapshot).fail .noDraftToSnapshot := by
  simp [callAlone, findDraft, Txn.begin, h, Txn.fail, flushIfCreating, lockIfFound, writeIfLocked]

/-- A snapshot locks the draft. -/
theorem snapshot_some (h : db.currentDraft = some rev) :
    callAlone lib db nextId .snapshot graduated
      = flushWrite lib db { (Txn.begin .snapshot).load rev false with pc := .locked rev } rev := by
  obtain ⟨r, hl, hr⟩ := currentDraft_eq_some h
  simp [callAlone, findDraft, Txn.begin, h, flushIfCreating, lockIfFound, lockDraft, hl, hr,
    writeIfLocked, Txn.load]

/-- A draft without members is not frozen. -/
theorem snapshot_empty (h : db.currentDraft = some rev)
    (hempty : (db.membersOf rev).isEmpty = true) :
    Failed (callAlone lib db nextId .snapshot graduated) := by
  rw [snapshot_some lib nextId graduated h]
  simp only [flushWrite, Txn.load, Txn.begin, hempty]
  exact failed_fail

/-- A draft with members is frozen, or dropped for the revision with its hash. -/
theorem snapshot_write (h : db.currentDraft = some rev)
    (hmembers : (db.membersOf rev).isEmpty = false) :
    (callAlone lib db nextId .snapshot graduated).created = none ∧
      (callAlone lib db nextId .snapshot graduated).pc
        = .flushed rev (if (existingRevision lib db rev).isSome then .delete
            else .freeze (computeCompositionHash lib (db.membersOf rev))) := by
  rw [snapshot_some lib nextId graduated h]
  simp only [flushWrite, Txn.load, Txn.begin, hmembers, any_eq_existingRevision]
  exact ⟨rfl, rfl⟩

/-- `add_strategy` inserts one member, or raises. -/
theorem commit_add {x : Txn σ Γ} {strategyId : σ} {config : Γ} {instruments : List String}
    {weight : Decimal} (hop : x.op = .addStrategy strategyId config instruments weight) :
    commitAlone db (flushWrite lib db x rev) = db ∨
      ∃ m, commitAlone db (flushWrite lib db x rev)
        = applyWrite (insertDraft db x.created) rev (.insert m) := by
  unfold flushWrite
  simp only [hop]
  split
  · exact Or.inl rfl
  · exact Or.inr ⟨_, rfl⟩

/-- The row of a new draft. -/
def newDraft (db : PortfolioDb σ Γ) : Revision :=
  { revisionNumber := db.maxNumber + 1, compositionHash := placeholderHash, isFrozen := false }

/-- `add_strategy` with a draft that is there. -/
theorem addStrategy_some {strategyId : σ} {config : Γ} {instruments : List String}
    {weight : Decimal} (hdraft : db.currentDraft = some rev) :
    commitAlone db (callAlone lib db nextId (.addStrategy strategyId config instruments weight)
      true) = db ∨
    ∃ m, commitAlone db (callAlone lib db nextId
      (.addStrategy strategyId config instruments weight) true)
        = applyWrite db rev (.insert m) := by
  obtain ⟨r, hl, hr⟩ := currentDraft_eq_some hdraft
  let locked : Txn σ Γ :=
    { op := .addStrategy strategyId config instruments weight
      identityMap := [(rev, false)], created := none, pc := .locked rev }
  have hcall : callAlone lib db nextId (.addStrategy strategyId config instruments weight) true
      = flushWrite lib db locked rev := by
    simp [callAlone, findDraft, Txn.begin, hdraft, flushIfCreating, lockIfFound, lockDraft, hl,
      writeIfLocked, Txn.load, locked]
  have hop : locked.op = .addStrategy strategyId config instruments weight := rfl
  rw [hcall]
  exact commit_add lib hop

/-- `add_strategy` without a draft. -/
theorem addStrategy_none (hfresh : ∀ p ∈ db.revisions.entries, p.1 < nextId)
    {strategyId : σ} {config : Γ} {instruments : List String} {weight : Decimal}
    (hdraft : db.currentDraft = none) :
    commitAlone db (callAlone lib db nextId (.addStrategy strategyId config instruments weight)
      true) = db ∨
    ∃ m, commitAlone db (callAlone lib db nextId
      (.addStrategy strategyId config instruments weight) true)
        = applyWrite (insertDraft db (some (nextId, newDraft db))) nextId (.insert m) := by
  let found : Txn σ Γ :=
    { Txn.begin (.addStrategy strategyId config instruments weight) with
      pc := .creating (db.maxNumber + 1) }
  have hfind : findDraft db (.begin (.addStrategy strategyId config instruments weight)) true
      = found := by simp [findDraft, Txn.begin, hdraft, found]
  -- the id of a new draft is fresh, so the lock reads no row and takes the one of the session
  have hnone : db.revisions.lookup nextId = none := by
    refine AList.lookup_eq_none.mpr fun hmem => ?_
    obtain ⟨p, hp, hkey⟩ := List.mem_map.mp hmem
    have hlt := hfresh p hp
    omega
  have hcall : callAlone lib db nextId (.addStrategy strategyId config instruments weight) true
      = writeIfLocked lib db (lockIfFound db (flushDraft db found nextId (db.maxNumber + 1))) := by
    simp only [callAlone, hfind]
    rfl
  unfold flushDraft at hcall
  split at hcall
  · exact Or.inl (by rw [hcall]; rfl)
  · let locked : Txn σ Γ :=
      { op := .addStrategy strategyId config instruments weight
        identityMap := [(nextId, false)], created := some (nextId, newDraft db)
        pc := .locked nextId }
    have hlocked : lockIfFound db
        { found.load nextId false with
          created := some (nextId, newDraft db), pc := .found nextId } = locked := by
      simp [lockIfFound, lockDraft, found, locked, Txn.begin, hnone, Txn.load, Option.filter]
    have hop : locked.op = .addStrategy strategyId config instruments weight := rfl
    have hwrite : callAlone lib db nextId (.addStrategy strategyId config instruments weight) true
        = flushWrite lib db locked nextId := hcall.trans (congrArg (writeIfLocked lib db) hlocked)
    rw [hwrite]
    exact commit_add lib hop

/-- **`add_strategy`** raises, or inserts a member into the draft or into a new one. -/
theorem addStrategy_cases (hfresh : ∀ p ∈ db.revisions.entries, p.1 < nextId)
    {strategyId : σ} {config : Γ} {instruments : List String} {weight : Decimal}
    {db' : PortfolioDb σ Γ} (hdb' : db' = commitAlone db
      (callAlone lib db nextId (.addStrategy strategyId config instruments weight) graduated)) :
    db' = db ∨
    (∃ rev m, db.currentDraft = some rev ∧ db' = applyWrite db rev (.insert m)) ∨
    ∃ m, db.currentDraft = none ∧ graduated = true ∧
      db' = applyWrite (insertDraft db (some (nextId, newDraft db))) nextId (.insert m) := by
  subst hdb'
  cases graduated with
  | false => exact Or.inl rfl
  | true =>
    cases hdraft : db.currentDraft with
    | some rev =>
      rcases addStrategy_some lib nextId hdraft with hsame | ⟨m, hinsert⟩
      · exact Or.inl hsame
      · exact Or.inr (Or.inl ⟨rev, m, rfl, hinsert⟩)
    | none =>
      rcases addStrategy_none lib nextId hfresh hdraft with hsame | ⟨m, hinsert⟩
      · exact Or.inl hsame
      · exact Or.inr (Or.inr ⟨m, rfl, rfl, hinsert⟩)

/-- The revisions behind `add_strategy`: the same, or a new draft where there was none. -/
theorem revisions_addStrategy (hfresh : ∀ p ∈ db.revisions.entries, p.1 < nextId)
    {strategyId : σ} {config : Γ} {instruments : List String} {weight : Decimal} :
    (commitAlone db (callAlone lib db nextId (.addStrategy strategyId config instruments weight)
      graduated)).revisions = db.revisions ∨
    db.currentDraft = none ∧ graduated = true ∧
      (commitAlone db (callAlone lib db nextId (.addStrategy strategyId config instruments weight)
        graduated)).revisions = db.revisions.insert nextId (newDraft db) := by
  rcases addStrategy_cases lib nextId graduated hfresh rfl with
    hsame | ⟨rev, m, _, hinsert⟩ | ⟨m, hnone, hgraduated, hinsert⟩
  · exact Or.inl (by rw [hsame])
  · exact Or.inl (by rw [hinsert]; rfl)
  · exact Or.inr ⟨hnone, hgraduated, by rw [hinsert]; rfl⟩

/-! ### One call -/

/-- **The numbers stay in order.** -/
theorem WellNumbered.step {s t : History σ Γ} {c : Call σ Γ} (h : WellNumbered s)
    (hs : historyStep lib s c = some t) : WellNumbered t := by
  obtain rfl := Option.some.inj hs
  have hn := nextId_le_nextIdAfter s c
  obtain ⟨op, graduated⟩ := c
  cases op with
  | addStrategy strategyId config instruments weight =>
    rcases revisions_addStrategy lib s.nextId graduated h.fresh with
      hsame | ⟨hnone, rfl, hinsert⟩
    · exact h.of_subset (by rw [hsame]; exact List.Subset.refl _) hn
    · have hid : nextIdAfter s ⟨.addStrategy strategyId config instruments weight, true⟩
          = s.nextId + 1 := by simp [nextIdAfter, findDraft, Txn.begin, hnone]
      rw [hid]
      exact h.insert hnone hinsert
  | snapshot =>
    cases hdraft : s.db.currentDraft with
    | none =>
      rw [snapshot_none lib _ _ hdraft]
      exact h.of_subset (List.Subset.refl _) hn
    | some rev =>
      obtain ⟨r, hl, hr⟩ := currentDraft_eq_some hdraft
      cases hmembers : (s.db.membersOf rev).isEmpty with
      | true =>
        rw [commitAlone_of_failed (snapshot_empty lib _ _ hdraft hmembers)]
        exact h.of_subset (List.Subset.refl _) hn
      | false =>
        obtain ⟨hnone, hpc⟩ := snapshot_write lib s.nextId graduated hdraft hmembers
        simp only [commitAlone, hpc, hnone, insertDraft]
        split
        · exact h.of_subset (List.kerase_sublist _ _).subset hn
        · exact h.freeze hl hr hn

/-- `add_strategy` leaves the active revision. -/
theorem activeRevision_addStrategy {s : History σ Γ} (h : WellNumbered s) {strategyId : σ}
    {config : Γ} {instruments : List String} {weight : Decimal} :
    (commitAlone s.db (callAlone lib s.db s.nextId
      (.addStrategy strategyId config instruments weight) graduated)).activeRevision
      = s.db.activeRevision := by
  refine activeRevision_congr ?_
  unfold PortfolioDb.frozenRows
  rcases revisions_addStrategy lib s.nextId graduated h.fresh with hsame | ⟨_, _, hinsert⟩
  · rw [hsame]
  · have hfresh : ∀ p ∈ s.db.revisions.entries, p.1 = s.nextId → p.2.isFrozen = false := by
      intro p hp hkey
      have hlt := h.fresh p hp
      omega
    rw [hinsert, AList.entries_insert, List.filter_cons_of_neg (by simp [newDraft])]
    exact filter_kerase hfresh

/-- **One call.**  It leaves the active revision at what the last snapshot returned exactly if a
    draft it drops is dropped for the active revision. -/
theorem WellNumbered.leavesActive_iff {s : History σ Γ} (h : WellNumbered s)
    (hactive : ActiveIsSnapshot s) (c : Call σ Γ) :
    LeavesActive lib s c ↔ CollapsesOntoActive lib s c := by
  have hstep : LeavesActive lib s c ↔ ∀ r, snapshottedAfter lib s c = some r →
      (commitAlone s.db (callAlone lib s.db s.nextId c.op c.graduated)).activeRevision
        = some r := by
    refine ⟨fun hleaves => hleaves _ rfl, fun hall t hs => ?_⟩
    obtain rfl := Option.some.inj hs
    exact hall
  rw [hstep]
  obtain ⟨op, graduated⟩ := c
  cases op with
  | addStrategy strategyId config instruments weight =>
    rw [activeRevision_addStrategy lib graduated h]
    refine ⟨fun _ hop => ?_, fun _ => hactive⟩
    cases hop
  | snapshot =>
    simp only [CollapsesOntoActive, collapsesOntoActive, forall_const]
    cases hdraft : s.db.currentDraft with
    | none =>
      have hcall := snapshot_none lib s.nextId graduated hdraft
      simp only [snapshottedAfter, hcall, commitAlone_of_failed failed_fail]
      exact ⟨fun _ => rfl, fun _ => hactive⟩
    | some rev =>
      cases hmembers : (s.db.membersOf rev).isEmpty with
      | true =>
        have hfailed := snapshot_empty lib s.nextId graduated hdraft hmembers
        obtain ⟨e, hpc⟩ := hfailed.1
        simp only [snapshottedAfter, hpc, commitAlone_of_failed hfailed]
        exact ⟨fun _ => by simp [hmembers], fun _ => hactive⟩
      | false =>
        obtain ⟨r, hl, hr⟩ := currentDraft_eq_some hdraft
        obtain ⟨hnone, hpc⟩ := snapshot_write lib s.nextId graduated hdraft hmembers
        simp only [snapshottedAfter, snapshotReturns, commitAlone, hpc, hnone, insertDraft,
          Option.all_some, hmembers, Bool.false_or]
        cases hexisting : existingRevision lib s.db rev with
        | none =>
          have hfreeze : (applyWrite s.db rev
              (.freeze (computeCompositionHash lib (s.db.membersOf rev)))).activeRevision
              = some rev := activeRevision_freeze hl hr (h.lt_draft hl hr)
          simp [hfreeze]
        | some e =>
          -- the draft goes, and the active revision stays what it was
          have hdrop := activeRevision_congr (frozenRows_erase hl hr
            (s.db.members.filter fun p => p.1 != rev))
          have hdelete : (applyWrite s.db rev .delete).activeRevision = s.db.activeRevision := hdrop
          simp [hdelete]

end Calls

/-! ### Every sequence of calls -/

section Runs

variable {σ Γ : Type} [DecidableEq σ] {lib : HashLib σ Γ} {s t : History σ Γ} {c : Call σ Γ}
  {cs : List (Call σ Γ)}

/-- The calls after which the active revision is right are those that meet the condition. -/
theorem leavesActive_path_iff (hn : WellNumbered s) (h0 : ActiveIsSnapshot s) :
    Path (historySystem lib) (LeavesActive lib) s cs t ↔
      Path (historySystem lib) (CollapsesOntoActive lib) s cs t := by
  constructor <;> intro h
  · refine h.strengthen (I := fun u => WellNumbered u ∧ ActiveIsSnapshot u) ?_ ?_ ⟨hn, h0⟩
    · exact fun u c v hI hC hs => ⟨hI.1.step lib hs, hC v hs⟩
    · exact fun u c v hI hC _ => (hI.1.leavesActive_iff lib hI.2 c).mp hC
  · refine h.strengthen (I := fun u => WellNumbered u ∧ ActiveIsSnapshot u) ?_ ?_ ⟨hn, h0⟩
    · exact fun u c v hI hC hs =>
        ⟨hI.1.step lib hs, (hI.1.leavesActive_iff lib hI.2 c).mpr hC v hs⟩
    · exact fun u c v hI hC _ => (hI.1.leavesActive_iff lib hI.2 c).mpr hC

/-- **The active revision is the one last snapshotted**, after every call of a sequence on a new
    portfolio, exactly if every draft that is dropped is dropped for the active revision. -/
theorem active_is_last_snapshot_iff :
    Path (historySystem lib) (LeavesActive lib) .initial cs t ↔
      Path (historySystem lib) (CollapsesOntoActive lib) .initial cs t :=
  leavesActive_path_iff wellNumbered_initial fun r h => by cases h

end Runs

/-! ### A composition that comes back -/

/-- One strategy, alone in its draft, and a snapshot. -/
def snapshotOf (strategyId : String) : List (Call String Unit) :=
  [⟨addHalf strategyId, true⟩, ⟨.snapshot, true⟩]

/-- The composition of the first revision comes back behind the second. -/
def comesBack : List (Call String Unit) := snapshotOf "a" ++ snapshotOf "b" ++ snapshotOf "a"

/-- The last snapshot returns the first revision, and the second stays active. -/
theorem active_is_last_snapshot_fails :
    ∃ t, Path (historySystem listing) anyStep .initial comesBack t ∧
      t.snapshotted = some 0 ∧ t.db.activeRevision = some 1 ∧ ¬ActiveIsSnapshot t := by
  obtain ⟨t, ht, hlast, hactive⟩ : ∃ t, (historySystem listing).run .initial comesBack = some t ∧
      t.snapshotted = some 0 ∧ t.db.activeRevision = some 1 := ⟨_, rfl, rfl, rfl⟩
  refine ⟨t, .of_run ht, hlast, hactive, fun h => ?_⟩
  have heq := h 0 hlast
  rw [hactive] at heq
  cases heq

/-- The same composition twice in a row meets the condition. -/
example : ((historySystem listing).run .initial (snapshotOf "a" ++ [⟨addHalf "a", true⟩])).all
    (fun s => collapsesOntoActive listing s.db) = true := by decide

end Msai.Portfolio
