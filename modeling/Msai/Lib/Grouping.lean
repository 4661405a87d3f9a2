import Mathlib.Data.List.Basic
import Mathlib.Data.List.Induction
import Mathlib.Data.List.Nodup
import Mathlib.Algebra.Order.Group.Defs
import Mathlib.Algebra.BigOperators.Group.List.Basic

namespace Msai.Lib

/-!
# Grouping by a key

`d.setdefault(key(x), []).append(x)`: the elements of a list, grouped by a key, with the groups in
the order in which their keys first appear.

* `mem_firstSeen`, `nodup_firstSeen` — every key that appears has one group;
* `grouped_perm`, `prod_grouped` — the groups together are the list;
* `firstSeen_eq_self`, `sum_firstSeen_lt` — the keys of a list of keys: all of them, unless one is
  repeated.
-/

universe u v

variable {α : Type u} {β : Type v} [DecidableEq β]

/-- The keys of a list in order of first appearance. -/
def firstSeen (key : α → β) (l : List α) : List β :=
  l.foldl (fun ds x => if key x ∈ ds then ds else ds ++ [key x]) []

variable {key : α → β} {l : List α} {ds : List β} {d : β}

private theorem mem_foldl_firstSeen (l : List α) (ds : List β) :
    d ∈ l.foldl (fun ds x => if key x ∈ ds then ds else ds ++ [key x]) ds ↔
      d ∈ ds ∨ ∃ x ∈ l, key x = d := by
  induction l generalizing ds with
  | nil => simp
  | cons x l ih =>
    rw [List.foldl_cons, ih, List.exists_mem_cons_iff, ← or_assoc]
    refine or_congr_left ?_
    by_cases hmem : key x ∈ ds
    · rw [if_pos hmem]
      constructor
      · exact Or.inl
      · rintro (h | rfl)
        · exact h
        · exact hmem
    · rw [if_neg hmem, List.mem_append, List.mem_singleton]
      exact or_congr_right eq_comm

/-- The keys of the groups are those of the elements. -/
theorem mem_firstSeen : d ∈ firstSeen key l ↔ ∃ x ∈ l, key x = d := by
  rw [firstSeen, mem_foldl_firstSeen]
  simp

/-- No key has two groups. -/
theorem nodup_firstSeen : (firstSeen key l).Nodup := by
  have hfold : ∀ (l : List α) (ds : List β), ds.Nodup →
      (l.foldl (fun ds x => if key x ∈ ds then ds else ds ++ [key x]) ds).Nodup := by
    intro l
    induction l with
    | nil => exact fun _ h => h
    | cons x l ih =>
      intro ds h
      rw [List.foldl_cons]
      refine ih _ ?_
      by_cases hmem : key x ∈ ds
      · rwa [if_pos hmem]
      · rw [if_neg hmem]
        exact List.nodup_append.mpr ⟨h, List.nodup_singleton _, fun a ha b hb hab =>
          hmem (List.mem_singleton.mp hb ▸ hab ▸ ha)⟩
  exact hfold l [] List.nodup_nil

/-- **The groups together are the list.** -/
theorem grouped_perm (hnodup : ds.Nodup) (hmem : ∀ x ∈ l, key x ∈ ds) :
    (ds.flatMap fun d => l.filter fun x => key x = d).Perm l := by
  induction ds generalizing l with
  | nil =>
    obtain rfl : l = [] := List.eq_nil_iff_forall_not_mem.mpr fun x hx =>
      absurd (hmem x hx) List.not_mem_nil
    exact List.Perm.refl _
  | cons d ds ih =>
    obtain ⟨hd, hnodup⟩ := List.nodup_cons.mp hnodup
    -- the later groups do not look at the elements of the first
    have hrest : ∀ e ∈ ds, (l.filter fun x => key x = e) =
        (l.filter fun x => !decide (key x = d)).filter fun x => key x = e := by
      intro e he
      rw [List.filter_filter]
      refine List.filter_congr fun x _ => ?_
      by_cases hx : key x = e
      · have hne : e ≠ d := fun h => hd (h ▸ he)
        simp [hx, hne]
      · simp [hx]
    have hlater : ∀ x ∈ l.filter fun x => !decide (key x = d), key x ∈ ds := by
      intro x hx
      obtain ⟨hx, hne⟩ := List.mem_filter.mp hx
      exact (List.mem_cons.mp (hmem x hx)).resolve_left (by simpa using hne)
    rw [List.flatMap_cons, List.flatMap_congr hrest]
    exact ((ih hnodup hlater).append_left _).trans
      (List.filter_append_perm (fun x => decide (key x = d)) l)

/-- A product over the groups of some of the keys. -/
theorem prod_grouped {M : Type*} [CommMonoid M] {f : α → M} (hnodup : ds.Nodup) :
    (ds.map fun d => ((l.filter fun x => key x = d).map f).prod).prod
      = ((l.filter fun x => key x ∈ ds).map f).prod := by
  have hgroup : ∀ d ∈ ds, (l.filter fun x => key x = d)
      = (l.filter fun x => key x ∈ ds).filter fun x => key x = d := by
    intro d hd
    rw [List.filter_filter]
    refine List.filter_congr fun x _ => ?_
    by_cases hx : key x = d
    · simp [hx, hd]
    · simp [hx]
  have hperm := grouped_perm (l := l.filter fun x => key x ∈ ds) hnodup fun x hx =>
    of_decide_eq_true (List.mem_filter.mp hx).2
  rw [← (hperm.map f).prod_eq, List.map_flatMap, List.flatMap_def, List.prod_flatten, List.map_map]
  refine congrArg List.prod (List.map_congr_left fun d hd => ?_)
  rw [hgroup d hd]
  rfl

/-! ### Lists of keys -/

theorem mem_firstSeen_id {ks : List β} : d ∈ firstSeen id ks ↔ d ∈ ks := by
  rw [mem_firstSeen]
  simp

theorem length_firstSeen_le {ks : List β} : (firstSeen id ks).length ≤ ks.length :=
  (List.subperm_of_subset nodup_firstSeen fun _ h => mem_firstSeen_id.mp h).length_le

/-- The keys of a list that is extended at its end. -/
theorem firstSeen_concat {x : α} :
    firstSeen key (l ++ [x]) = if key x ∈ firstSeen key l then firstSeen key l
      else firstSeen key l ++ [key x] := by
  rw [firstSeen, List.foldl_append]
  rfl

/-- Without a repetition every key is there once. -/
theorem firstSeen_eq_self {ks : List β} (h : ks.Nodup) : firstSeen id ks = ks := by
  induction ks using List.reverseRecOn with
  | nil => rfl
  | append_singleton ks k ih =>
    obtain ⟨hks, -, hdisjoint⟩ := List.nodup_append.mp h
    have hnot : ¬ id k ∈ ks := fun hmem => hdisjoint k hmem k (List.mem_singleton_self k) rfl
    rw [firstSeen_concat, ih hks, if_neg hnot]
    rfl

section Sums

variable {M : Type v} [AddCommGroup M] [LinearOrder M] [IsOrderedAddMonoid M] {f : β → M}
  {ks : List β}

/-- Repeated keys only add to a sum of positive terms. -/
theorem sum_firstSeen_le (hf : ∀ k ∈ ks, 0 < f k) :
    ((firstSeen id ks).map f).sum ≤ (ks.map f).sum := by
  induction ks using List.reverseRecOn with
  | nil => exact le_rfl
  | append_singleton ks k ih =>
    have hle := ih fun k' hk' => hf k' (List.mem_append_left _ hk')
    have hk : 0 < f k := hf k (List.mem_append_right _ (List.mem_singleton_self k))
    rw [firstSeen_concat, List.map_append, List.sum_append, List.map_singleton,
      List.sum_singleton]
    split
    · exact hle.trans (le_add_of_nonneg_right hk.le)
    · rw [List.map_append, List.sum_append, List.map_singleton, List.sum_singleton]
      exact add_le_add_left hle _

/-- And a repetition does add. -/
theorem sum_firstSeen_lt (hf : ∀ k ∈ ks, 0 < f k) (h : ¬ ks.Nodup) :
    ((firstSeen id ks).map f).sum < (ks.map f).sum := by
  induction ks using List.reverseRecOn with
  | nil => exact absurd List.nodup_nil h
  | append_singleton ks k ih =>
    have hpos : ∀ k' ∈ ks, 0 < f k' := fun k' hk' => hf k' (List.mem_append_left _ hk')
    have hk : 0 < f k := hf k (List.mem_append_right _ (List.mem_singleton_self k))
    rw [firstSeen_concat, List.map_append, List.sum_append, List.map_singleton,
      List.sum_singleton]
    by_cases hmem : k ∈ ks
    · -- the last key is a repetition
      have hin : id k ∈ firstSeen id ks := mem_firstSeen_id.mpr hmem
      rw [if_pos hin]
      exact (sum_firstSeen_le hpos).trans_lt (lt_add_of_pos_right _ hk)
    · have hks : ¬ ks.Nodup := fun hnodup => h
        (List.nodup_append.mpr ⟨hnodup, List.nodup_singleton k, fun a ha b hb hab =>
          hmem (List.mem_singleton.mp hb ▸ hab ▸ ha)⟩)
      have hnot : ¬ id k ∈ firstSeen id ks := fun hin => hmem (mem_firstSeen_id.mp hin)
      rw [if_neg hnot, List.map_append, List.sum_append, List.map_singleton, List.sum_singleton]
      exact add_lt_add_left (ih hpos hks) _

end Sums

end Msai.Lib
