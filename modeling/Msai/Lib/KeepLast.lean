import Msai.Lib.LastWrite
import Mathlib.Data.List.Nodup

namespace Msai.Lib

/-!
# Rows with keys, the last of which counts

* `newest` — the last row with a key;
* `keepLast` — the rows that are the last with their keys, as `drop_duplicates` with
  `keep="last"` leaves them;
* `mem_iff_newest` — without duplicates a list is known by the last row of each key;
* `newest_append`, `newest_filter`, `newest_keepLast` — how `newest` goes through the operations;
* `keepLast_append`, `keepLast_append_twice` — rows that are added replace those with their keys,
  and replace nothing when they are added again.
-/

universe u v

variable {α : Type u} {κ : Type v} [DecidableEq κ]

/-- The last row with a key. -/
def newest (key : α → κ) (l : List α) (k : κ) : Option α :=
  lastWrite (fun a => if key a = k then some a else none) l

/-- The rows that no row with their key follows. -/
def keepLast (key : α → κ) : List α → List α
  | [] => []
  | a :: l => if key a ∈ l.map key then keepLast key l else a :: keepLast key l

variable {key : α → κ} {l m : List α} {a : α} {k : κ}

/-! ### The last row of a key -/

theorem newest_cons : newest key (a :: l) k
    = (newest key l k).or (if key a = k then some a else none) := rfl

theorem newest_append : newest key (l ++ m) k = (newest key m k).or (newest key l k) :=
  lastWrite_append

theorem newest_eq_none : newest key l k = none ↔ k ∉ l.map key := by
  unfold newest
  rw [lastWrite_eq_none, List.mem_map, not_exists]
  refine forall_congr' fun a => ?_
  by_cases hk : key a = k
  · simp [hk]
  · simp [hk]

/-- Lists without a common key commute. -/
theorem newest_append_comm (h : ∀ a ∈ l, ∀ b ∈ m, key a ≠ key b) :
    newest key (l ++ m) k = newest key (m ++ l) k := by
  rw [newest_append, newest_append]
  by_cases hl : k ∈ l.map key
  · have hm : k ∉ m.map key := by
      intro hm
      obtain ⟨a, ha, hak⟩ := List.mem_map.mp hl
      obtain ⟨b, hb, hbk⟩ := List.mem_map.mp hm
      exact h a ha b hb (hak.trans hbk.symm)
    rw [newest_eq_none.mpr hm, Option.none_or, Option.or_none]
  · rw [newest_eq_none.mpr hl, Option.none_or, Option.or_none]

/-- It has the key, and no row with the key follows. -/
theorem newest_eq_some : newest key l k = some a ↔
    key a = k ∧ ∃ before after, l = before ++ a :: after ∧ ∀ b ∈ after, key b ≠ k := by
  unfold newest
  rw [lastWrite_eq_some]
  have hval : ∀ b x, (if key b = k then some b else none) = some x ↔ b = x ∧ key b = k := by
    intro b x
    split
    · rename_i hk
      exact Option.some_inj.trans (and_iff_left hk).symm
    · rename_i hk
      exact iff_of_false (by simp) fun h => hk h.2
  have hnone : ∀ b, (if key b = k then some b else none) = none ↔ key b ≠ k := by
    intro b
    split
    · rename_i hk
      exact iff_of_false (by simp) fun h => h hk
    · rename_i hk
      exact iff_of_true rfl hk
  constructor
  · rintro ⟨before, b, after, hl, hb, hafter⟩
    obtain ⟨rfl, hk⟩ := (hval b a).mp hb
    exact ⟨hk, before, after, hl, fun b hb => (hnone b).mp (hafter b hb)⟩
  · rintro ⟨hk, before, after, hl, hafter⟩
    exact ⟨before, a, after, hl, (hval a a).mpr ⟨rfl, hk⟩, fun b hb => (hnone b).mpr (hafter b hb)⟩

theorem newest_spec (h : newest key l k = some a) : a ∈ l ∧ key a = k := by
  obtain ⟨hk, before, after, rfl, -⟩ := newest_eq_some.mp h
  exact ⟨List.mem_append_right _ List.mem_cons_self, hk⟩

/-- **Without duplicates** the rows of a list are the last ones of their keys. -/
theorem mem_iff_newest (hnodup : (l.map key).Nodup) : a ∈ l ↔ newest key l (key a) = some a := by
  refine ⟨fun ha => ?_, fun h => (newest_spec h).1⟩
  cases hnewest : newest key l (key a) with
  | none => exact absurd (List.mem_map_of_mem ha) (newest_eq_none.mp hnewest)
  | some b =>
    obtain ⟨hb, hkey⟩ := newest_spec hnewest
    rw [List.inj_on_of_nodup_map hnodup hb ha hkey]

/-- A filter that looks at the keys only. -/
theorem newest_filter {p : α → Bool} {q : κ → Bool} (hp : ∀ a, p a = q (key a)) :
    newest key (l.filter p) k = if q k then newest key l k else none := by
  induction l with
  | nil => exact (ite_self _).symm
  | cons a l ih =>
    rw [List.filter_cons, newest_cons]
    by_cases hk : key a = k
    · subst hk
      rw [hp]
      split
      · rename_i hq
        rw [newest_cons, ih, if_pos hq]
      · rename_i hq
        rw [ih, if_neg hq]
    · rw [if_neg hk, Option.or_none, ← ih]
      split
      · rw [newest_cons, if_neg hk, Option.or_none]
      · rfl

/-! ### Duplicates -/

theorem keepLast_cons : keepLast key (a :: l) =
    if key a ∈ l.map key then keepLast key l else a :: keepLast key l := rfl

theorem keepLast_sublist : (keepLast key l).Sublist l := by
  induction l with
  | nil => exact List.Sublist.refl _
  | cons a l ih =>
    rw [keepLast_cons]
    split
    · exact ih.cons a
    · exact ih.cons_cons a

theorem nodup_keepLast : ((keepLast key l).map key).Nodup := by
  induction l with
  | nil => exact List.nodup_nil
  | cons a l ih =>
    rw [keepLast_cons]
    split
    · exact ih
    · rename_i hfresh
      refine List.nodup_cons.mpr ⟨fun hmem => hfresh ?_, ih⟩
      exact (keepLast_sublist.map key).subset hmem

theorem newest_keepLast : newest key (keepLast key l) k = newest key l k := by
  induction l with
  | nil => rfl
  | cons a l ih =>
    rw [keepLast_cons]
    split
    · -- a row that another one with its key follows is not the last
      rename_i hmem
      rw [ih, newest_cons]
      by_cases hk : key a = k
      · cases hnewest : newest key l k with
        | none => exact absurd (hk ▸ hmem) (newest_eq_none.mp hnewest)
        | some b => rfl
      · rw [if_neg hk, Option.or_none]
    · rw [newest_cons, newest_cons, ih]

theorem keepLast_of_nodup (h : (l.map key).Nodup) : keepLast key l = l := by
  induction l with
  | nil => rfl
  | cons a l ih =>
    obtain ⟨ha, hl⟩ := List.nodup_cons.mp h
    rw [keepLast_cons]
    rw [if_neg ha, ih hl]

/-- Rows that are added replace those with their keys. -/
theorem keepLast_append : keepLast key (l ++ m)
    = (keepLast key l).filter (fun a => key a ∉ m.map key) ++ keepLast key m := by
  induction l with
  | nil => rfl
  | cons a l ih =>
    rw [List.cons_append, keepLast, keepLast, ih, List.map_append]
    by_cases hm : key a ∈ m.map key
    · rw [if_pos (List.mem_append_right _ hm)]
      split
      · rfl
      · rw [List.filter_cons_of_neg (by simpa using hm)]
    · by_cases hl : key a ∈ l.map key
      · rw [if_pos (List.mem_append_left _ hl), if_pos hl]
      · have hneither : key a ∉ l.map key ++ m.map key := fun h =>
          (List.mem_append.mp h).elim hl hm
        rw [if_neg hneither, if_neg hl, List.filter_cons_of_pos (by simpa using hm)]
        rfl

/-- Rows that are added once more change nothing. -/
theorem keepLast_append_twice (hm : (m.map key).Nodup) :
    keepLast key (keepLast key (l ++ m) ++ m) = keepLast key (l ++ m) := by
  have hkept : keepLast key (keepLast key (l ++ m)) = keepLast key (l ++ m) :=
    keepLast_of_nodup nodup_keepLast
  rw [keepLast_append, hkept, keepLast_append, keepLast_of_nodup hm, List.filter_append,
    List.filter_filter]
  have hself : m.filter (fun a => key a ∉ m.map key) = [] := by
    refine List.filter_eq_nil_iff.mpr fun a ha => ?_
    simpa using List.mem_map_of_mem ha
  rw [hself, List.append_nil]
  refine congrArg (· ++ m) (List.filter_congr fun a _ => ?_)
  exact Bool.and_self _

end Msai.Lib
