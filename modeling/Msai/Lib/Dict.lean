import Msai.Lib.Grouping
import Msai.Lib.LastWrite

namespace Msai.Lib

/-!
# Dictionaries

A Python dictionary as the list of its items: a key keeps the place of its first assignment and
has the value of the last.

* `Dict.get`, `Dict.set`, `Dict.get_set`, `Dict.keys_set`, `Dict.set_of_notMem` — `d.get(k)`,
  `d[k] = v`;
* `Dict.get_ofKeys` — the items of `{k: f(k) for k in ks}`;
* `Dict.build` — a loop of assignments; `get_build`, `keys_build` say what it leaves,
  `get_build_iff` what it leaves when the assignments to a key agree, and `get_build_of_nodup` when
  no key is assigned twice.
-/

universe u v w

variable {α : Type w} {κ : Type u} {ν : Type v}

/-- The items, in order. -/
abbrev Dict (κ : Type u) (ν : Type v) := List (κ × ν)

namespace Dict

/-- `d.keys()`. -/
def keys (d : Dict κ ν) : List κ := d.map Prod.fst

/-- `d.values()`. -/
def values (d : Dict κ ν) : List ν := d.map Prod.snd

variable [DecidableEq κ]

/-- `d.get(k)`. -/
def get : Dict κ ν → κ → Option ν
  | [], _ => none
  | (k', v) :: d, k => if k' = k then some v else get d k

/-- `d[k] = v`. -/
def set : Dict κ ν → κ → ν → Dict κ ν
  | [], k, v => [(k, v)]
  | (k', v') :: d, k, v => if k' = k then (k, v) :: d else (k', v') :: set d k v

/-- `for a in l: d[k] = v`, where `entry a` is the assignment of `a`, if it makes one. -/
def build (entry : α → Option (κ × ν)) (l : List α) : Dict κ ν :=
  l.foldl (fun d a => match entry a with
    | some (k, v) => set d k v
    | none => d) []

variable {d : Dict κ ν} {k k' : κ} {v : ν}

theorem get_set : get (set d k v) k' = if k = k' then some v else get d k' := by
  induction d with
  | nil => rfl
  | cons p d ih =>
    obtain ⟨j, w⟩ := p
    show get (if j = k then (k, v) :: d else (j, w) :: set d k v) k'
      = if k = k' then some v else if j = k' then some w else get d k'
    by_cases hj : j = k
    · subst hj
      rw [if_pos rfl]
      show (if j = k' then some v else get d k') = _
      by_cases hk : j = k'
      · rw [if_pos hk, if_pos hk]
      · rw [if_neg hk, if_neg hk, if_neg hk]
    · rw [if_neg hj]
      show (if j = k' then some w else get (set d k v) k') = _
      rw [ih]
      by_cases hjk : j = k'
      · have hne : k ≠ k' := fun heq => hj (hjk.trans heq.symm)
        rw [if_pos hjk, if_neg hne, if_pos hjk]
      · rw [if_neg hjk, if_neg hjk]

theorem keys_set : keys (set d k v) = if k ∈ keys d then keys d else keys d ++ [k] := by
  induction d with
  | nil => rfl
  | cons p d ih =>
    obtain ⟨j, w⟩ := p
    unfold set
    by_cases hj : j = k
    · subst hj
      rw [if_pos rfl]
      exact (if_pos List.mem_cons_self).symm
    · rw [if_neg hj]
      show j :: keys (set d k v) = if k ∈ j :: keys d then j :: keys d else j :: keys d ++ [k]
      rw [ih]
      by_cases hk : k ∈ keys d
      · rw [if_pos hk, if_pos (List.mem_cons_of_mem _ hk)]
      · rw [if_neg hk, if_neg (fun hmem => hk ((List.mem_cons.mp hmem).resolve_left (Ne.symm hj)))]
        rfl

/-- A new key goes to the end. -/
theorem set_of_notMem (hk : k ∉ keys d) : set d k v = d ++ [(k, v)] := by
  induction d with
  | nil => rfl
  | cons p d ih =>
    obtain ⟨j, w⟩ := p
    have hne : j ≠ k := fun heq => hk (heq ▸ List.mem_cons_self)
    have hk' : k ∉ keys d := fun hmem => hk (List.mem_cons_of_mem _ hmem)
    rw [set, if_neg hne, ih hk', List.cons_append]

theorem get_eq_none : get d k = none ↔ k ∉ keys d := by
  induction d with
  | nil => exact iff_of_true rfl List.not_mem_nil
  | cons p d ih =>
    obtain ⟨j, w⟩ := p
    show (if j = k then some w else get d k) = none ↔ k ∉ j :: keys d
    rw [List.mem_cons, not_or]
    by_cases hj : j = k
    · rw [if_pos hj]
      exact iff_of_false (by simp) fun h => h.1 hj.symm
    · rw [if_neg hj, ih]
      exact (and_iff_right (Ne.symm hj)).symm

theorem nodup_keys_set (h : (keys d).Nodup) : (keys (set d k v)).Nodup := by
  rw [keys_set]
  split
  · exact h
  · rename_i hk
    refine List.nodup_append.mpr ⟨h, List.nodup_singleton k, fun j hj j' hj' heq => hk ?_⟩
    rw [← List.mem_singleton.mp hj', ← heq]
    exact hj

/-- The items are those that `get` finds. -/
theorem mem_iff_get (h : (keys d).Nodup) : (k, v) ∈ d ↔ get d k = some v := by
  induction d with
  | nil => exact iff_of_false List.not_mem_nil fun hk => by cases hk
  | cons p d ih =>
    obtain ⟨j, w⟩ := p
    obtain ⟨hj, hd⟩ := List.nodup_cons.mp h
    show (k, v) ∈ (j, w) :: d ↔ (if j = k then some w else get d k) = some v
    rw [List.mem_cons, ih hd, Prod.mk.injEq]
    by_cases hjk : j = k
    · subst hjk
      rw [if_pos rfl, get_eq_none.mpr hj, Option.some.injEq]
      exact ⟨fun hor => (hor.resolve_right (by simp)).2.symm, fun heq => Or.inl ⟨rfl, heq.symm⟩⟩
    · rw [if_neg hjk]
      exact or_iff_right fun heq => hjk heq.1.symm

/-- The values are those of the keys. -/
theorem mem_values (h : (keys d).Nodup) : v ∈ values d ↔ ∃ k, get d k = some v := by
  unfold values
  rw [List.mem_map]
  constructor
  · rintro ⟨⟨k, v⟩, hmem, rfl⟩
    exact ⟨k, (mem_iff_get h).mp hmem⟩
  · rintro ⟨k, hget⟩
    exact ⟨(k, v), (mem_iff_get h).mpr hget, rfl⟩

/-- An assignment of the value that is there. -/
theorem set_eq_self (h : get d k = some v) : set d k v = d := by
  induction d with
  | nil => cases h
  | cons p d ih =>
    obtain ⟨j, w⟩ := p
    change (if j = k then some w else get d k) = some v at h
    unfold set
    by_cases hjk : j = k
    · rw [if_pos hjk] at h ⊢
      rw [← hjk, Option.some.inj h]
    · rw [if_neg hjk] at h ⊢
      rw [ih h]

/-- `{k: f(k) for k in ks}`. -/
theorem get_ofKeys {ks : List κ} {f : κ → ν} (h : k ∈ ks) :
    get (ks.map fun k => (k, f k)) k = some (f k) := by
  induction ks with
  | nil => cases h
  | cons j ks ih =>
    show (if j = k then some (f j) else get (ks.map fun k => (k, f k)) k) = some (f k)
    by_cases hj : j = k
    · rw [if_pos hj, hj]
    · rw [if_neg hj]
      exact ih ((List.mem_cons.mp h).resolve_left (Ne.symm hj))

/-- Change every value. -/
theorem get_map {ν' : Type v} {f : ν → ν'} :
    get (d.map fun p => (p.1, f p.2)) k = (get d k).map f := by
  induction d with
  | nil => rfl
  | cons p d ih =>
    obtain ⟨j, w⟩ := p
    show (if j = k then some (f w) else get (d.map fun p => (p.1, f p.2)) k)
      = (if j = k then some w else get d k).map f
    by_cases hj : j = k
    · rw [if_pos hj, if_pos hj]
      rfl
    · rw [if_neg hj, if_neg hj, ih]

/-! ### Loops of assignments -/

variable {entry : α → Option (κ × ν)} {l : List α}

/-- The value of a key is that of its last assignment. -/
theorem get_build : get (build entry l) k
    = lastWrite (fun a => (entry a).bind fun p => if p.1 = k then some p.2 else none) l := by
  have hstep : ∀ (d : Dict κ ν) (a : α),
      get (match entry a with
        | some (k, v) => set d k v
        | none => d) k
      = ((entry a).bind fun p => if p.1 = k then some p.2 else none).or (get d k) := by
    intro d a
    cases entry a with
    | none => rfl
    | some p =>
      show get (set d p.1 p.2) k = (if p.1 = k then some p.2 else none).or (get d k)
      rw [get_set]
      by_cases hk : p.1 = k
      · rw [if_pos hk, if_pos hk]
        rfl
      · rw [if_neg hk, if_neg hk]
        rfl
  exact (lookup_foldl (fun d => get d k) hstep l []).trans Option.or_none

/-- The keys are in the order of their first assignments. -/
theorem keys_build :
    keys (build entry l) = firstSeen id (l.filterMap fun a => (entry a).map Prod.fst) := by
  induction l using List.reverseRecOn with
  | nil => rfl
  | append_singleton l a ih =>
    have hstep : build entry (l ++ [a]) = match entry a with
        | some (k, v) => set (build entry l) k v
        | none => build entry l := by
      unfold build
      rw [List.foldl_append]
      rfl
    rw [hstep, List.filterMap_append]
    cases hentry : entry a with
    | none =>
      rw [List.filterMap_cons_none (by rw [hentry]; rfl), List.filterMap_nil, List.append_nil]
      exact ih
    | some p =>
      rw [List.filterMap_cons_some (by rw [hentry]; rfl), List.filterMap_nil, firstSeen_concat]
      show keys (set (build entry l) p.1 p.2) = _
      rw [keys_set, ih]
      rfl

theorem mem_set {p : κ × ν} (h : p ∈ set d k v) : p = (k, v) ∨ p ∈ d := by
  induction d with
  | nil => exact Or.inl (List.mem_singleton.mp h)
  | cons q d ih =>
    obtain ⟨j, w⟩ := q
    unfold set at h
    split at h
    · exact (List.mem_cons.mp h).imp_right (List.mem_cons_of_mem _)
    · rcases List.mem_cons.mp h with rfl | hmem
      · exact Or.inr List.mem_cons_self
      · exact (ih hmem).imp_right (List.mem_cons_of_mem _)

/-- Every item was assigned. -/
theorem mem_build {p : κ × ν} (h : p ∈ build entry l) : ∃ a ∈ l, entry a = some p := by
  induction l using List.reverseRecOn with
  | nil => cases h
  | append_singleton l a ih =>
    unfold build at h
    rw [List.foldl_append] at h
    change p ∈ (match entry a with
      | some (k, v) => set (build entry l) k v
      | none => build entry l) at h
    cases hentry : entry a with
    | none =>
      rw [hentry] at h
      obtain ⟨b, hb, hp⟩ := ih h
      exact ⟨b, List.mem_append_left _ hb, hp⟩
    | some q =>
      rw [hentry] at h
      rcases mem_set h with rfl | hmem
      · exact ⟨a, List.mem_append_right _ (List.mem_singleton_self a), hentry⟩
      · obtain ⟨b, hb, hp⟩ := ih hmem
        exact ⟨b, List.mem_append_left _ hb, hp⟩

theorem exists_of_get_build (h : get (build entry l) k = some v) :
    ∃ a ∈ l, entry a = some (k, v) := by
  rw [get_build] at h
  obtain ⟨before, a, after, rfl, hval, -⟩ := lastWrite_eq_some.mp h
  obtain ⟨⟨j, w⟩, hentry, hif⟩ := Option.bind_eq_some_iff.mp hval
  refine ⟨a, List.mem_append_right _ List.mem_cons_self, ?_⟩
  split at hif
  · next hj =>
    rw [hentry, ← hj, ← Option.some.inj hif]
  · cases hif

/-- When the assignments to a key agree, each of them stands. -/
theorem get_build_iff (hagree : ∀ a ∈ l, ∀ b ∈ l, ∀ j w w', entry a = some (j, w) →
    entry b = some (j, w') → w = w') :
    get (build entry l) k = some v ↔ ∃ a ∈ l, entry a = some (k, v) := by
  refine ⟨exists_of_get_build, ?_⟩
  rintro ⟨a, ha, hentry⟩
  cases hget : get (build entry l) k with
  | none =>
    rw [get_build, lastWrite_eq_none] at hget
    have hnone := hget a ha
    rw [hentry, Option.bind_some, if_pos rfl] at hnone
    cases hnone
  | some w =>
    obtain ⟨b, hb, hentry'⟩ := exists_of_get_build hget
    rw [hagree a ha b hb k v w hentry hentry']

/-- When no two elements have one key, each one's assignment stands. -/
theorem get_build_of_nodup {key : α → κ} (hkey : ∀ a p, entry a = some p → p.1 = key a)
    (hnodup : (l.map key).Nodup) {a : α} (ha : a ∈ l) :
    get (build entry l) (key a) = (entry a).map Prod.snd := by
  rw [get_build]
  cases hentry : entry a with
  | none =>
    rw [lastWrite_eq_none.mpr]
    · rfl
    · intro b hb
      cases hb' : entry b with
      | none => rfl
      | some p =>
        -- an assignment to this key would be one of another element with the key
        have hne : p.1 ≠ key a := by
          intro heq
          have hba : b = a := List.inj_on_of_nodup_map hnodup hb ha ((hkey b p hb').symm.trans heq)
          rw [hba, hentry] at hb'
          cases hb'
        exact if_neg hne
  | some p =>
    obtain ⟨before, after, rfl⟩ := List.append_of_mem ha
    refine lastWrite_eq_some.mpr ⟨before, a, after, rfl, ?_, ?_⟩
    · rw [hentry]
      exact if_pos (hkey a p hentry)
    · intro b hb
      rw [List.map_append, List.map_cons] at hnodup
      have hnot := (List.nodup_cons.mp (List.nodup_append.mp hnodup).2.1).1
      cases hb' : entry b with
      | none => rfl
      | some q =>
        have hne : q.1 ≠ key a := fun heq =>
          hnot (List.mem_map.mpr ⟨b, hb, (hkey b q hb').symm.trans heq⟩)
        exact if_neg hne

end Dict

end Msai.Lib
