import Mathlib.Data.List.Sort
import Mathlib.Order.Basic

namespace Msai.Lib

/-!
# Ranking by a key

`sorted(l, key=key)`: a stable sort, the least key first.

* `rankBy_perm` — a ranking has the elements of the list;
* `rankBy_map` — a map that keeps the keys goes through a ranking;
* `rankBy_forall₂` — so does a correspondence that keeps them;
* `rankBy_filter` — elements with one key keep their order;
* `rankBy_perm_iff` — when the ranking does not depend on the order of the list;
* `rankBy_find?_le` — the first element of a ranking that passes a test has the least key of all
  that pass;
* `FirstMax` — the first of the elements with the greatest key, and how it changes with the list.
-/

universe u v

variable {α : Type u} {κ : Type v} [LinearOrder κ]

/-- `sorted(l, key=key)`. -/
def rankBy (key : α → κ) (l : List α) : List α := l.insertionSort fun a b => key a ≤ key b

variable {key : α → κ} {l : List α}

theorem rankBy_perm : (rankBy key l).Perm l := List.perm_insertionSort _ l

theorem rankBy_pairwise : (rankBy key l).Pairwise fun a b => key a ≤ key b := by
  have htotal : Std.Total fun a b : α => key a ≤ key b := ⟨fun a b => le_total (key a) (key b)⟩
  have htrans : IsTrans α fun a b => key a ≤ key b := ⟨fun _ _ _ => le_trans⟩
  exact List.pairwise_insertionSort _ l

theorem rankBy_map {β : Type v} {key' : β → κ} {f : α → β} (hkey : ∀ a, key' (f a) = key a) :
    rankBy key' (l.map f) = (rankBy key l).map f := by
  unfold rankBy
  refine (List.map_insertionSort (fun a b => key a ≤ key b) (fun a b => key' a ≤ key' b) f l
    fun a _ b _ => ?_).symm
  rw [hkey, hkey]

/-- Lists that correspond, with the same keys, are ranked alike. -/
theorem rankBy_forall₂ {β : Type v} {key' : β → κ} {r : α → β → Prop} {l' : List β}
    (hkey : ∀ a b, r a b → key' b = key a) (h : List.Forall₂ r l l') :
    List.Forall₂ r (rankBy key l) (rankBy key' l') := by
  have hinsert : ∀ {m : List α} {m' : List β} {a : α} {b : β}, r a b → List.Forall₂ r m m' →
      List.Forall₂ r (m.orderedInsert (fun a b => key a ≤ key b) a)
        (m'.orderedInsert (fun a b => key' a ≤ key' b) b) := by
    intro m m' a b hab hm
    induction hm with
    | nil => exact .cons hab .nil
    | @cons c d m m' hcd hm ih =>
      rw [List.orderedInsert_cons, List.orderedInsert_cons, hkey a b hab, hkey c d hcd]
      split
      · exact .cons hab (.cons hcd hm)
      · exact .cons hcd ih
  induction h with
  | nil => exact .nil
  | cons hab _ ih => exact hinsert hab ih

/-- **Elements with one key keep their order.** -/
theorem rankBy_filter (k : κ) :
    (rankBy key l).filter (fun a => key a = k) = l.filter fun a => key a = k := by
  have htotal : Std.Total fun a b : α => key a ≤ key b := ⟨fun a b => le_total (key a) (key b)⟩
  have htrans : IsTrans α fun a b => key a ≤ key b := ⟨fun _ _ _ => le_trans⟩
  have htied : (l.filter fun a => key a = k).Pairwise fun a b => key a ≤ key b := by
    refine List.pairwise_of_forall_mem_list fun a ha b hb => ?_
    have ha' := of_decide_eq_true (List.mem_filter.mp ha).2
    have hb' := of_decide_eq_true (List.mem_filter.mp hb).2
    exact (ha'.trans hb'.symm).le
  have hsublist : (l.filter fun a => key a = k).Sublist (rankBy key l) :=
    List.sublist_insertionSort htied List.filter_sublist
  have hfiltered := hsublist.filter fun a => key a = k
  rw [List.filter_filter] at hfiltered
  simp only [Bool.and_self] at hfiltered
  exact (hfiltered.eq_of_length (rankBy_perm.filter _).length_eq.symm).symm

/-- Where elements with one key are equal, the order of the list does not matter. -/
theorem rankBy_eq_of_perm {l' : List α} (hperm : l'.Perm l)
    (htied : ∀ a ∈ l, ∀ b ∈ l, key a = key b → a = b) : rankBy key l' = rankBy key l := by
  have hranked : (rankBy key l').Perm (rankBy key l) :=
    (rankBy_perm.trans hperm).trans rankBy_perm.symm
  refine hranked.eq_of_pairwise (fun a b ha hb hab hba => ?_) rankBy_pairwise rankBy_pairwise
  have ha' : a ∈ l := hperm.mem_iff.mp (rankBy_perm.mem_iff.mp ha)
  have hb' : b ∈ l := rankBy_perm.mem_iff.mp hb
  exact htied a ha' b hb' (le_antisymm hab hba)

/-- **A ranking does not depend on the order of the list** exactly where elements with one key are
    equal. -/
theorem rankBy_perm_iff :
    (∀ l' : List α, l'.Perm l → rankBy key l' = rankBy key l) ↔
      ∀ a ∈ l, ∀ b ∈ l, key a = key b → a = b := by
  refine ⟨fun hall a ha b hb hkey => ?_, fun htied l' hperm => rankBy_eq_of_perm hperm htied⟩
  by_contra hne
  obtain ⟨s, t, hst⟩ := List.append_of_mem ha
  have hb' : b ∈ s ++ t := by
    rw [hst] at hb
    rcases List.mem_append.mp hb with hb | hb
    · exact List.mem_append_left _ hb
    · exact List.mem_append_right _ ((List.mem_cons.mp hb).resolve_left (Ne.symm hne))
  obtain ⟨s', t', hst'⟩ := List.append_of_mem hb'
  -- the two in front, in either order
  have hfront : (a :: b :: (s' ++ t')).Perm l := by
    rw [hst]
    refine .trans ?_ List.perm_middle.symm
    rw [hst']
    exact List.perm_middle.symm.cons a
  have hranked := (hall _ hfront).trans (hall _ ((List.Perm.swap a b _).trans hfront)).symm
  have hfiltered := congrArg (List.filter fun c => key c = key a) hranked
  rw [rankBy_filter, rankBy_filter] at hfiltered
  simp only [List.filter_cons, hkey, decide_true, if_true, List.cons.injEq] at hfiltered
  exact hne hfiltered.1

/-- **The first that passes is the least that passes.** -/
theorem rankBy_find?_le {p : α → Bool} {a b : α} (hfirst : (rankBy key l).find? p = some a)
    (hb : b ∈ l) (hp : p b = true) : key a ≤ key b := by
  obtain ⟨-, before, after, hsplit, hbefore⟩ := List.find?_eq_some_iff_append.mp hfirst
  have hmem : b ∈ rankBy key l := rankBy_perm.mem_iff.mpr hb
  have hsorted : (rankBy key l).Pairwise fun a b => key a ≤ key b := rankBy_pairwise
  rw [hsplit] at hmem hsorted
  rcases List.mem_append.mp hmem with hearlier | hlater
  · -- what stands before the first that passes does not pass
    exact absurd hp (by simpa using hbefore b hearlier)
  · rcases List.mem_cons.mp hlater with rfl | hafter
    · exact le_rfl
    · exact List.rel_of_pairwise_cons (List.pairwise_append.mp hsorted).2.1 hafter

/-! ### The first of the greatest -/

/-- `a` is the first of the elements of `l` with the greatest key. -/
def FirstMax (key : α → κ) (l : List α) (a : α) : Prop :=
  ∃ before after, l = before ++ a :: after ∧ (∀ b ∈ before, key b < key a) ∧
    ∀ b ∈ after, key b ≤ key a

variable {a b : α}

theorem firstMax_singleton : FirstMax key [a] a :=
  ⟨[], [], rfl, nofun, nofun⟩

theorem FirstMax.le (h : FirstMax key l a) (hb : b ∈ l) : key b ≤ key a := by
  obtain ⟨before, after, rfl, hbefore, hafter⟩ := h
  rcases List.mem_append.mp hb with hmem | hmem
  · exact (hbefore b hmem).le
  · rcases List.mem_cons.mp hmem with rfl | hmem
    · exact le_rfl
    · exact hafter b hmem

/-- A later element that is not greater does not take its place. -/
theorem FirstMax.concat_le (h : FirstMax key l a) (hle : key b ≤ key a) :
    FirstMax key (l ++ [b]) a := by
  obtain ⟨before, after, rfl, hbefore, hafter⟩ := h
  refine ⟨before, after ++ [b], by simp, hbefore, fun c hc => ?_⟩
  rcases List.mem_append.mp hc with hmem | hmem
  · exact hafter c hmem
  · obtain rfl := List.mem_singleton.mp hmem
    exact hle

/-- A greater one does. -/
theorem FirstMax.concat_lt (h : FirstMax key l a) (hlt : key a < key b) :
    FirstMax key (l ++ [b]) b :=
  ⟨l, [], rfl, fun _ hc => lt_of_le_of_lt (h.le hc) hlt, nofun⟩

end Msai.Lib
