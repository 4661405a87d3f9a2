import Mathlib.Data.List.Basic
import Mathlib.Logic.Relation
import Mathlib.Order.Basic
import Msai.Lib.Transition

namespace Msai.Lib

open TransitionSystem

/-!
# Transactions that wait for locks

Any number of transactions, each with the list of locks it takes one after the other and keeps
until it ends.  A lock is exclusive, and a transaction that has it may take it again.  Which
transactions a program has is a parameter: a type of names with the list of locks of each.

* `Transaction`, `LockLabel`, `lockSystem` — the parties and their steps;
* `WaitsFor` — the wait-for graph of a state;
* `LockOrder` — guards and ranks: a lock may have another one that is taken before it, and locks
  without guard are taken in ascending rank;
* `LockOrder.Disciplined` — a list of locks that respects them, or takes a single lock;
* `noCircularWait_of_disciplined` — the rule: disciplined transactions never wait in a circle.
-/

/-- A transaction: the locks it has, those it has yet to take, and whether it waits for the first
    of them. -/
structure Transaction (κ : Type) where
  held : List κ
  pending : List κ
  waiting : Bool
deriving DecidableEq, Repr

/-- What a transaction does next.  It may end at any time: it commits, returns early, or is rolled
    back. -/
inductive LockLabel (ι : Type)
  | start (name : ι)
  | request (i : ℕ)
  | grant (i : ℕ)
  | finish (i : ℕ)
deriving DecidableEq, Repr

section Steps

variable {κ : Type} {ι : Type} [DecidableEq κ]

/-- No transaction but `i` has the lock. -/
def freeFor (s : List (Transaction κ)) (i : ℕ) (k : κ) : Bool :=
  (List.range s.length).all fun j => j == i || (s[j]?.all fun t => !t.held.contains k)

/-- One step. -/
def lockStep (locks : ι → List κ) (s : List (Transaction κ)) :
    LockLabel ι → Option (List (Transaction κ))
  | .start name => some (s ++ [{ held := [], pending := locks name, waiting := false }])
  | .request i =>
    s[i]?.bind fun t =>
      match t.pending with
      | [] => none
      | _ :: _ => if t.waiting then none else some (s.set i { t with waiting := true })
  | .grant i =>
    s[i]?.bind fun t =>
      match t.pending with
      | [] => none
      | k :: rest =>
        if t.waiting && freeFor s i k then
          some (s.set i { held := t.held ++ [k], pending := rest, waiting := false })
        else none
  | .finish i =>
    s[i]?.map fun _ => s.set i { held := [], pending := [], waiting := false }

/-- Transactions that run side by side. -/
def lockSystem (locks : ι → List κ) : TransitionSystem (List (Transaction κ)) (LockLabel ι) where
  step := lockStep locks

end Steps

/-- Transaction `i` waits for a lock that `j` has. -/
def WaitsFor {κ : Type} (s : List (Transaction κ)) (i j : ℕ) : Prop :=
  i ≠ j ∧ ∃ t u k rest, s[i]? = some t ∧ s[j]? = some u ∧ t.waiting = true ∧
    t.pending = k :: rest ∧ k ∈ u.held

/-- No transaction waits for itself, through others or at once. -/
def NoCircularWait {κ : Type} (s : List (Transaction κ)) : Prop :=
  ∀ i, ¬Relation.TransGen (WaitsFor s) i i

/-! ### The order of the locks -/

/-- A lock may be guarded by another one; a lock without guard has a rank. -/
structure LockOrder (κ : Type) (ρ : Type) where
  guardedBy : κ → Option κ
  rank : κ → ρ

namespace LockOrder

variable {κ : Type} {ρ : Type} [Preorder ρ] (O : LockOrder κ ρ)

/-- A lock may be taken by a transaction that has the locks `held`. -/
def Admits (held : List κ) (k : κ) : Prop :=
  k ∈ held ∨ (∃ g ∈ held, O.guardedBy k = some g) ∨
    (O.guardedBy k = none ∧ ∀ k' ∈ held, O.guardedBy k' = none → O.rank k' < O.rank k)

/-- Every lock of the list may be taken behind those before it. -/
def AdmitsAll : List κ → List κ → Prop
  | _, [] => True
  | held, k :: rest => O.Admits held k ∧ AdmitsAll (held ++ [k]) rest

/-- The locks of a transaction respect the order, or it takes only one. -/
def Disciplined (locks : List κ) : Prop := locks.length ≤ 1 ∨ O.AdmitsAll [] locks

/-- Every guard of a lock of the list is in the list. -/
def Closed (held : List κ) : Prop := ∀ k ∈ held, ∀ g, O.guardedBy k = some g → g ∈ held

/-- What holds of a transaction from its start to its end. -/
def Respected (t : Transaction κ) : Prop :=
  (t.held ++ t.pending).length ≤ 1 ∨ (O.Closed t.held ∧ O.AdmitsAll t.held t.pending)

variable {O} {held rest : List κ} {k : κ}

theorem Closed.concat (h : O.Closed held) (hadmits : O.Admits held k) :
    O.Closed (held ++ [k]) := by
  intro k' hk' g hg
  rw [List.mem_append, List.mem_singleton] at hk'
  rw [List.mem_append]
  left
  rcases hk' with hk' | rfl
  · exact h k' hk' g hg
  · obtain hmem | ⟨g', hg', hguard⟩ | ⟨hnone, _⟩ := hadmits
    · exact h _ hmem g hg
    · obtain rfl : g' = g := Option.some.inj (hguard.symm.trans hg)
      exact hg'
    · rw [hnone] at hg
      cases hg

/-- A list without guards in ascending rank. -/
theorem admitsAll_of_ascending (hnone : ∀ k ∈ rest, O.guardedBy k = none)
    (hheld : ∀ k' ∈ held, ∀ k ∈ rest, O.guardedBy k' = none → O.rank k' < O.rank k)
    (hsorted : rest.Pairwise fun k k' => O.rank k < O.rank k') : O.AdmitsAll held rest := by
  -- the locks held grow by the first one, so the statement is for any list of them
  induction rest generalizing held with
  | nil => trivial
  | cons k rest ih =>
    obtain ⟨hfirst, hrest⟩ := List.pairwise_cons.mp hsorted
    refine ⟨Or.inr (Or.inr ⟨hnone k List.mem_cons_self, fun k' hk' =>
      hheld k' hk' k List.mem_cons_self⟩), ?_⟩
    apply ih (fun k' hk' => hnone k' (List.mem_cons_of_mem k hk')) _ hrest
    intro k' hk' k'' hk'' hguard
    rcases List.mem_append.mp hk' with hk' | hk'
    · exact hheld k' hk' k'' (List.mem_cons_of_mem k hk'') hguard
    · obtain rfl := List.mem_singleton.mp hk'
      exact hfirst k'' hk''

/-- A list of locks that are there already, or have their guards there. -/
theorem admitsAll_of_guarded
    (h : ∀ k ∈ rest, k ∈ held ∨ ∃ g ∈ held, O.guardedBy k = some g) : O.AdmitsAll held rest := by
  induction rest generalizing held with
  | nil => trivial
  | cons k rest ih =>
    constructor
    · rcases h k List.mem_cons_self with hk | hk
      · exact Or.inl hk
      · exact Or.inr (Or.inl hk)
    · apply ih
      intro k' hk'
      rcases h k' (List.mem_cons_of_mem k hk') with hmem | ⟨g, hg, hguard⟩
      · exact Or.inl (List.mem_append_left _ hmem)
      · exact Or.inr ⟨g, List.mem_append_left _ hg, hguard⟩

theorem admitsAll_append {more : List κ} :
    O.AdmitsAll held (rest ++ more) ↔ O.AdmitsAll held rest ∧ O.AdmitsAll (held ++ rest) more := by
  induction rest generalizing held with
  | nil => simp [AdmitsAll]
  | cons k rest ih =>
    rw [List.cons_append, AdmitsAll, AdmitsAll, ih, and_assoc, List.append_assoc]
    rfl

theorem Disciplined.respected {locks : List κ} (h : O.Disciplined locks) :
    O.Respected { held := [], pending := locks, waiting := false } := by
  rcases h with h | h
  · exact Or.inl h
  · exact Or.inr ⟨fun k hk => absurd hk List.not_mem_nil, h⟩

theorem respected_ended : O.Respected { held := [], pending := [], waiting := false } :=
  Or.inl (Nat.zero_le 1)

theorem Respected.requested {t : Transaction κ} (h : O.Respected t) :
    O.Respected { t with waiting := true } := h

theorem Respected.granted {t : Transaction κ} (h : O.Respected t)
    (hpending : t.pending = k :: rest) :
    O.Respected { held := t.held ++ [k], pending := rest, waiting := false } := by
  unfold Respected at h
  rw [hpending] at h
  rcases h with hone | ⟨hclosed, hadmits, hrest⟩
  · left
    rwa [List.append_assoc]
  · exact Or.inr ⟨hclosed.concat hadmits, hrest⟩

end LockOrder

/-! ### What every step keeps -/

section InOrder

variable {κ ρ : Type} [Preorder ρ] {O : LockOrder κ ρ} {s : List (Transaction κ)}

/-- The locks are exclusive, and every transaction respects their order. -/
structure InOrder (O : LockOrder κ ρ) (s : List (Transaction κ)) : Prop where
  exclusive : ∀ {i j : ℕ} {t u : Transaction κ}, s[i]? = some t → s[j]? = some u →
    ∀ k, k ∈ t.held → k ∈ u.held → i = j
  respected : ∀ {i : ℕ} {t : Transaction κ}, s[i]? = some t → O.Respected t

theorem inOrder_nil : InOrder O ([] : List (Transaction κ)) where
  exclusive h := by simp at h
  respected h := by simp at h

/-- A transaction takes another place; the locks it has are its own. -/
theorem InOrder.set (h : InOrder O s) (i : ℕ) {t' : Transaction κ} (hrespected : O.Respected t')
    (hown : ∀ j u, s[j]? = some u → j ≠ i → ∀ k ∈ t'.held, k ∉ u.held) :
    InOrder O (s.set i t') where
  exclusive := by
    intro m n t u ht hu k hkt hku
    rcases getElem?_set_cases ht with ⟨rfl, rfl⟩ | ⟨hm, htold⟩ <;>
      rcases getElem?_set_cases hu with ⟨rfl, rfl⟩ | ⟨hn, huold⟩
    · rfl
    · exact absurd hku (hown n u huold hn k hkt)
    · exact absurd hkt (hown m t htold hm k hku)
    · exact h.exclusive htold huold k hkt hku
  respected := by
    intro m t ht
    rcases getElem?_set_cases ht with ⟨rfl, rfl⟩ | ⟨_, ht⟩
    · exact hrespected
    · exact h.respected ht

/-- A transaction that has a lock and waits for another one took its locks in order. -/
theorem InOrder.closed_of_waiting (h : InOrder O s) {i : ℕ} {t : Transaction κ} {k k' : κ}
    {rest : List κ} (ht : s[i]? = some t) (hk' : k' ∈ t.held) (hpending : t.pending = k :: rest) :
    O.Closed t.held ∧ O.Admits t.held k := by
  have hrespected := h.respected ht
  unfold LockOrder.Respected at hrespected
  rw [hpending] at hrespected
  rcases hrespected with hone | ⟨hclosed, hadmits, _⟩
  · -- one lock in all: a transaction cannot hold it and wait for it
    have hpos := List.length_pos_of_mem hk'
    rw [List.length_append, List.length_cons] at hone
    omega
  · exact ⟨hclosed, hadmits⟩

/-- An edge between two transactions that are waited for and wait. -/
def InnerEdge {α : Type} (r : α → α → Prop) (i j : α) : Prop :=
  r i j ∧ (∃ h, r h i) ∧ ∃ l, r j l

theorem transGen_innerEdge {α : Type} {r : α → α → Prop} {i j : α} (h : Relation.TransGen r i j)
    (hi : ∃ h, r h i) (hj : ∃ l, r j l) : Relation.TransGen (InnerEdge r) i j := by
  induction h with
  | single hij => exact .single ⟨hij, hi, hj⟩
  | tail hib hbc ih =>
    obtain ⟨m, _, hmb⟩ := Relation.TransGen.tail'_iff.mp hib
    exact .tail (ih ⟨_, hbc⟩) ⟨hbc, ⟨m, hmb⟩, hj⟩

/-- The lock a transaction waits for is not guarded, if it is waited for itself and so is the one
    it waits for: the guard would have two owners. -/
theorem InOrder.unguarded (h : InOrder O s) {i j : ℕ} {k : κ} {rest : List κ} {t : Transaction κ}
    (hij : InnerEdge (WaitsFor s) i j) (ht : s[i]? = some t) (hpending : t.pending = k :: rest) :
    O.guardedBy k = none := by
  obtain ⟨⟨hne, t', u, k', rest', ht', hu, _, hpending', hwait⟩,
    ⟨_, _, _, t'', k₀, _, _, ht'', _, _, hk₀⟩, _, _, u', _, _, _, hu', _, _, hnext, _⟩ := hij
  obtain rfl : t = t' := Option.some.inj (ht.symm.trans ht')
  obtain rfl : t = t'' := Option.some.inj (ht.symm.trans ht'')
  obtain rfl : u = u' := Option.some.inj (hu.symm.trans hu')
  obtain ⟨rfl, rfl⟩ := List.cons.inj (hpending.symm.trans hpending')
  obtain ⟨_, hadmits⟩ := h.closed_of_waiting ht hk₀ hpending
  obtain ⟨hclosed, _⟩ := h.closed_of_waiting hu hwait hnext
  obtain hmem | ⟨g, hg, hguard⟩ | ⟨hnone, _⟩ := hadmits
  · exact absurd (h.exclusive ht hu k hmem hwait) hne
  · -- the owner of the lock has its guard as well
    exact absurd (h.exclusive ht hu g hg (hclosed k hwait g hguard)) hne
  · exact hnone

/-- Along two edges of a circle the rank of the lock that is waited for grows. -/
theorem InOrder.rank_lt (h : InOrder O s) {i j l : ℕ} {t u : Transaction κ} {k k' : κ}
    {rest rest' : List κ} (hij : InnerEdge (WaitsFor s) i j) (hjl : InnerEdge (WaitsFor s) j l)
    (ht : s[i]? = some t) (hk : t.pending = k :: rest) (hu : s[j]? = some u)
    (hk' : u.pending = k' :: rest') : O.rank k < O.rank k' := by
  have hnone := h.unguarded hij ht hk
  have hnone' := h.unguarded hjl hu hk'
  obtain ⟨⟨_, t₁, u₁, k₁, _, ht₁, hu₁, _, hk₁, hwait⟩, _⟩ := hij
  obtain ⟨⟨hne, u₂, v, k₂, _, hu₂, hv, _, hk₂, hwait'⟩, _⟩ := hjl
  obtain rfl : t = t₁ := Option.some.inj (ht.symm.trans ht₁)
  obtain rfl : u = u₁ := Option.some.inj (hu.symm.trans hu₁)
  obtain rfl : u = u₂ := Option.some.inj (hu.symm.trans hu₂)
  obtain ⟨rfl, rfl⟩ := List.cons.inj (hk.symm.trans hk₁)
  obtain ⟨rfl, rfl⟩ := List.cons.inj (hk'.symm.trans hk₂)
  obtain ⟨_, hadmits⟩ := h.closed_of_waiting hu hwait hk'
  obtain hmem | ⟨g, _, hguard⟩ | ⟨_, hrank⟩ := hadmits
  · exact absurd (h.exclusive hu hv k' hmem hwait') hne
  · rw [hnone'] at hguard
    cases hguard
  · exact hrank k hwait hnone

/-- The same along a chain of edges. -/
theorem InOrder.rank_lt_of_chain (h : InOrder O s) {i j : ℕ}
    (hij : Relation.TransGen (InnerEdge (WaitsFor s)) i j) :
    ∀ {l : ℕ} {t u : Transaction κ} {k k' : κ} {rest rest' : List κ},
      InnerEdge (WaitsFor s) j l → s[i]? = some t → t.pending = k :: rest → s[j]? = some u →
      u.pending = k' :: rest' → O.rank k < O.rank k' := by
  induction hij with
  | single hij =>
    intro l t u k k' rest rest' hjl ht hk hu hk'
    exact h.rank_lt hij hjl ht hk hu hk'
  | tail _ hbj ih =>
    intro l t u k k' rest rest' hjl ht hk hu hk'
    obtain ⟨_, v, _, k₁, rest₁, hv, _, _, hk₁, _⟩ := hbj.1
    calc O.rank k < O.rank k₁ := ih hbj ht hk hv hk₁
      _ < O.rank k' := h.rank_lt hbj hjl hv hk₁ hu hk'

/-- **No circular wait.**  Around a circle the rank of the locks would grow for ever. -/
theorem InOrder.noCircularWait (h : InOrder O s) : NoCircularWait s := by
  intro i hcircle
  obtain ⟨_, hfirst, _⟩ := Relation.TransGen.head'_iff.mp hcircle
  obtain ⟨_, _, hlast⟩ := Relation.TransGen.tail'_iff.mp hcircle
  have hinner := transGen_innerEdge hcircle ⟨_, hlast⟩ ⟨_, hfirst⟩
  obtain ⟨_, hedge, _⟩ := Relation.TransGen.head'_iff.mp hinner
  obtain ⟨_, t, _, k, rest, ht, _, _, hk, _⟩ := hfirst
  exact lt_irrefl _ (h.rank_lt_of_chain hinner hedge ht hk ht hk)

end InOrder

/-! ### Runs -/

section Runs

variable {κ ι ρ : Type} [DecidableEq κ] [Preorder ρ] {O : LockOrder κ ρ} {locks : ι → List κ}
  {s s' : List (Transaction κ)} {a : LockLabel ι} {as : List (LockLabel ι)}

/-- What one step does. -/
theorem lockStep_cases (h : lockStep locks s a = some s') :
    (∃ name, s' = s ++ [{ held := [], pending := locks name, waiting := false }]) ∨
    (∃ i t, s[i]? = some t ∧ s' = s.set i { t with waiting := true }) ∨
    (∃ i t k rest, s[i]? = some t ∧ t.pending = k :: rest ∧ freeFor s i k = true ∧
      s' = s.set i { held := t.held ++ [k], pending := rest, waiting := false }) ∨
    ∃ i, s' = s.set i { held := [], pending := [], waiting := false } := by
  cases a with
  | start name => exact Or.inl ⟨name, (Option.some.inj h).symm⟩
  | request i =>
    obtain ⟨t, ht, h⟩ := Option.bind_eq_some_iff.mp h
    right; left
    cases hpending : t.pending with
    | nil => simp [hpending] at h
    | cons k rest =>
      simp only [hpending] at h
      split at h
      · cases h
      · refine ⟨i, t, ht, ?_⟩
        rw [hpending]
        exact (Option.some.inj h).symm
  | grant i =>
    obtain ⟨t, ht, h⟩ := Option.bind_eq_some_iff.mp h
    right; right; left
    cases hpending : t.pending with
    | nil => simp [hpending] at h
    | cons k rest =>
      simp only [hpending] at h
      split at h
      · rename_i hfree
        exact ⟨i, t, k, rest, ht, hpending, (Bool.and_eq_true_iff.mp hfree).2,
          (Option.some.inj h).symm⟩
      · cases h
  | finish i =>
    obtain ⟨t, _, h⟩ := Option.map_eq_some_iff.mp h
    exact Or.inr (Or.inr (Or.inr ⟨i, h.symm⟩))

theorem not_mem_held_of_freeFor {i j : ℕ} {k : κ} {u : Transaction κ} (h : freeFor s i k = true)
    (hu : s[j]? = some u) (hne : j ≠ i) : k ∉ u.held := by
  have hj : j < s.length := (List.getElem?_eq_some_iff.mp hu).1
  have hall := List.all_eq_true.mp h j (List.mem_range.mpr hj)
  simpa [hne, hu] using hall

/-- **Step.** -/
theorem InOrder.step (hlocks : ∀ name, O.Disciplined (locks name)) (h : InOrder O s)
    (hs : lockStep locks s a = some s') : InOrder O s' := by
  obtain ⟨name, rfl⟩ | ⟨i, t, ht, rfl⟩ | ⟨i, t, k, rest, ht, hpending, hfree, rfl⟩ | ⟨i, rfl⟩ :=
    lockStep_cases hs
  · constructor
    · intro m n t u ht hu k hkt hku
      rcases getElem?_concat_cases ht with ⟨_, rfl⟩ | ht
      · exact absurd hkt List.not_mem_nil
      · rcases getElem?_concat_cases hu with ⟨_, rfl⟩ | hu
        · exact absurd hku List.not_mem_nil
        · exact h.exclusive ht hu k hkt hku
    · intro m t ht
      rcases getElem?_concat_cases ht with ⟨_, rfl⟩ | ht
      · exact (hlocks name).respected
      · exact h.respected ht
  · apply h.set i (h.respected ht).requested
    intro j u hu hj k hk hku
    exact hj (h.exclusive hu ht k hku hk)
  · apply h.set i ((h.respected ht).granted hpending)
    intro j u hu hj k' hk' hku
    rcases List.mem_append.mp hk' with hk' | hk'
    · exact hj (h.exclusive hu ht k' hku hk')
    · obtain rfl := List.mem_singleton.mp hk'
      exact not_mem_held_of_freeFor hfree hu hj hku
  · exact h.set i LockOrder.respected_ended fun j u _ _ k hk => absurd hk List.not_mem_nil

/-- **Run.** -/
theorem InOrder.run (hlocks : ∀ name, O.Disciplined (locks name))
    (h : Path (lockSystem locks) anyStep s as s') (h0 : InOrder O s) : InOrder O s' :=
  h.invariant (fun _ _ _ hI _ hs => hI.step hlocks hs) h0

/-- **Rule.**  Transactions whose locks respect one order never wait in a circle. -/
theorem noCircularWait_of_disciplined (hlocks : ∀ name, O.Disciplined (locks name))
    (h : Path (lockSystem locks) anyStep [] as s) : NoCircularWait s :=
  (InOrder.run hlocks h inOrder_nil).noCircularWait

end Runs

end Msai.Lib
