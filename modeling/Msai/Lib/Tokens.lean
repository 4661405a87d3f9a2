import Mathlib.Data.List.Dedup
import Msai.Lib.JsonKey

namespace Msai.Lib

/-!
# Tokens behind one another

Tokens that are joined by a separator which none of them has, in a text that ends with them or goes
on with an empty token.

* `intercalate_append` — what is joined in two parts;
* `tokens_cancel` — the tokens are read back, and where they end;
* `sortedSet` — `sorted(set(l))`, and what two lists have in common that give the same.
-/

variable {sep : Char} {ts ts' : List (List Char)} {r r' : List Char}

/-- A text goes on with an empty token, if it goes on. -/
def TokensEnd (sep : Char) (r : List Char) : Prop := r = [] ∨ ∃ rest, r = sep :: sep :: rest

/-- A token of its own. -/
def IsToken (sep : Char) (t : List Char) : Prop := t ≠ [] ∧ sep ∉ t

theorem intercalate_append {s : List Char} (hts : ts ≠ []) (hts' : ts' ≠ []) :
    List.intercalate s (ts ++ ts') = List.intercalate s ts ++ (s ++ List.intercalate s ts') := by
  induction ts with
  | nil => exact absurd rfl hts
  | cons t ts ih =>
    have hcons := intercalate_cons_append s t (ts ++ ts') []
    simp only [List.append_nil] at hcons
    rw [List.cons_append, hcons, if_neg (by simp [hts']), intercalate_cons_append]
    split
    · rename_i hnil
      simp [hnil]
    · rename_i hne
      rw [ih hne]

/-- A token is what comes before the first separator. -/
theorem token_cancel {t t' : List Char} (ht : sep ∉ t) (ht' : sep ∉ t')
    (hr : r = [] ∨ ∃ rest, r = sep :: rest) (hr' : r' = [] ∨ ∃ rest, r' = sep :: rest)
    (h : t ++ r = t' ++ r') : t = t' ∧ r = r' := by
  have htake : ∀ {t r : List Char}, sep ∉ t → (r = [] ∨ ∃ rest, r = sep :: rest) →
      (t ++ r).takeWhile (· ≠ sep) = t := by
    intro t r ht hr
    rw [List.takeWhile_append_of_pos fun c hc => by simpa using ne_of_mem_of_not_mem hc ht]
    rcases hr with rfl | ⟨rest, rfl⟩ <;> simp
  have hsame : t = t' := by rw [← htake ht hr, h, htake ht' hr']
  subst hsame
  exact ⟨rfl, List.append_cancel_left h⟩

/-- **Joined tokens are read back.** -/
theorem tokens_cancel (hts : ∀ t ∈ ts, IsToken sep t) (hts' : ∀ t ∈ ts', IsToken sep t)
    (hne : ts ≠ []) (hne' : ts' ≠ []) (hr : TokensEnd sep r) (hr' : TokensEnd sep r')
    (h : List.intercalate [sep] ts ++ r = List.intercalate [sep] ts' ++ r') :
    ts = ts' ∧ r = r' := by
  induction ts generalizing ts' with
  | nil => exact absurd rfl hne
  | cons t ts ih =>
    obtain ⟨t', ts', rfl⟩ := List.exists_cons_of_ne_nil hne'
    rw [intercalate_cons_append, intercalate_cons_append] at h
    have hrest : ∀ {us : List (List Char)} {q : List Char}, TokensEnd sep q →
        ((if us = [] then q else [sep] ++ (List.intercalate [sep] us ++ q)) = [] ∨
          ∃ rest, (if us = [] then q else [sep] ++ (List.intercalate [sep] us ++ q)) =
            sep :: rest) := by
      intro us q hq
      split
      · rcases hq with hq | ⟨rest, hq⟩
        · exact Or.inl hq
        · exact Or.inr ⟨sep :: rest, hq⟩
      · exact Or.inr ⟨_, rfl⟩
    obtain ⟨rfl, htail⟩ := token_cancel (hts t List.mem_cons_self).2 (hts' t' List.mem_cons_self).2
      (hrest hr) (hrest hr') h
    -- a text that ends here is not one that goes on with a token
    have hstop : ∀ {us : List (List Char)} {q q' : List Char}, us ≠ [] →
        (∀ u ∈ us, IsToken sep u) → TokensEnd sep q →
        q ≠ [sep] ++ (List.intercalate [sep] us ++ q') := by
      intro us q q' hus htokens hq heq
      obtain ⟨u, us, rfl⟩ := List.exists_cons_of_ne_nil hus
      obtain ⟨hu, hsep⟩ := htokens u List.mem_cons_self
      obtain ⟨c, cs, rfl⟩ := List.exists_cons_of_ne_nil hu
      rw [intercalate_cons_append] at heq
      rcases hq with rfl | ⟨rest, rfl⟩
      · cases heq
      · simp only [List.cons_append, List.nil_append, List.cons.injEq, true_and] at heq
        exact hsep (heq.1 ▸ List.mem_cons_self)
    by_cases hnil : ts = []
    · by_cases hnil' : ts' = []
      · rw [if_pos hnil, if_pos hnil'] at htail
        rw [hnil, hnil']
        exact ⟨rfl, htail⟩
      · rw [if_pos hnil, if_neg hnil'] at htail
        exact absurd htail (hstop hnil' (fun u hu => hts' u (List.mem_cons_of_mem _ hu)) hr)
    · by_cases hnil' : ts' = []
      · rw [if_neg hnil, if_pos hnil'] at htail
        exact absurd htail.symm (hstop hnil (fun u hu => hts u (List.mem_cons_of_mem _ hu)) hr')
      · rw [if_neg hnil, if_neg hnil'] at htail
        obtain ⟨rfl, hend⟩ := ih (fun u hu => hts u (List.mem_cons_of_mem _ hu))
          (fun u hu => hts' u (List.mem_cons_of_mem _ hu)) hnil hnil'
          (List.append_cancel_left htail)
        exact ⟨rfl, hend⟩

/-! ### Sorted sets -/

section SortedSet

universe u

variable {α : Type u} [LinearOrder α] {l l' : List α}

/-- `sorted(set(l))`. -/
def sortedSet (l : List α) : List α := rankBy id l.dedup

theorem mem_sortedSet {a : α} : a ∈ sortedSet l ↔ a ∈ l := by
  rw [sortedSet, rankBy_perm.mem_iff, List.mem_dedup]

/-- Lists give one sorted set exactly if they have the same members. -/
theorem sortedSet_eq_iff : sortedSet l = sortedSet l' ↔ ∀ a, a ∈ l ↔ a ∈ l' := by
  constructor
  · intro h a
    rw [← mem_sortedSet, h, mem_sortedSet]
  · intro h
    have hperm : l.dedup.Perm l'.dedup :=
      (List.perm_ext_iff_of_nodup l.nodup_dedup l'.nodup_dedup).mpr fun a => by
        rw [List.mem_dedup, List.mem_dedup, h]
    exact rankBy_eq_of_perm hperm fun a _ b _ hab => hab

theorem sortedSet_ne_nil (h : l ≠ []) : sortedSet l ≠ [] := by
  obtain ⟨a, as, rfl⟩ := List.exists_cons_of_ne_nil h
  exact List.ne_nil_of_mem (mem_sortedSet.mpr (List.mem_cons_self (a := a)))

end SortedSet

end Msai.Lib
