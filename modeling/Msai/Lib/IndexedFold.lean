import Mathlib.Data.List.Basic
import Mathlib.Data.List.Nodup

namespace Msai.Lib

/-!
# Records that are changed by index

A list of records and a list of results for some of them: `modifyAll f rs l` changes the record of
each result in turn.  And loops that may fail, as folds in `Except`.

* `map_modifyAll`, `forall_mem_modifyAll` — what no change touches stays;
* `getElem?_modifyAll_of_mem`, `getElem?_modifyAll_of_not_mem` — one record, if no index has two
  results;
* `foldlM_ok_invariant`, `foldlM_ok_marks`, `foldlM_congr_of_mem`, `mapM_eq_ok_iff`,
  `exists_mapM_ok`, `mem_iff_of_forall₂_ok` — loops that may fail.
-/

universe u v w

variable {α : Type u} {β : Type v} {γ : Type w}

/-- Change the record of each result. -/
def modifyAll (f : β → α → α) (rs : List (ℕ × β)) (l : List α) : List α :=
  rs.foldl (fun l p => l.modify p.1 (f p.2)) l

variable {f : β → α → α} {rs : List (ℕ × β)} {l : List α} {k : ℕ} {r : β}

theorem map_modify {g : α → γ} {h : α → α} (hsame : ∀ a, g (h a) = g a) :
    (l.modify k h).map g = l.map g := by
  apply List.ext_getElem?
  intro j
  rw [List.getElem?_map, List.getElem?_map, List.getElem?_modify]
  cases l[j]? with
  | none => rfl
  | some a =>
    show some (g (if k = j then h a else a)) = some (g a)
    split
    · rw [hsame]
    · rfl

theorem map_modifyAll {g : α → γ} (hsame : ∀ r a, g (f r a) = g a) :
    (modifyAll f rs l).map g = l.map g := by
  unfold modifyAll
  induction rs generalizing l with
  | nil => rfl
  | cons p rs ih => rw [List.foldl_cons, ih, map_modify (hsame p.2)]

theorem length_modifyAll : (modifyAll f rs l).length = l.length := by
  unfold modifyAll
  induction rs generalizing l with
  | nil => rfl
  | cons p rs ih => rw [List.foldl_cons, ih, List.length_modify]

theorem forall_mem_modify {P : α → Prop} {h : α → α} (hkeeps : ∀ a, P a → P (h a))
    (hl : ∀ a ∈ l, P a) : ∀ a ∈ l.modify k h, P a := by
  intro a ha
  obtain ⟨j, hj⟩ := List.getElem?_of_mem ha
  rw [List.getElem?_modify] at hj
  obtain ⟨b, hb, hba⟩ := Option.map_eq_some_iff.mp hj
  have hPb : P b := hl b (List.mem_of_getElem? hb)
  rw [← hba]
  show P (if k = j then h b else b)
  split
  · exact hkeeps b hPb
  · exact hPb

theorem forall_mem_modifyAll {P : α → Prop} (hkeeps : ∀ r a, P a → P (f r a))
    (hl : ∀ a ∈ l, P a) : ∀ a ∈ modifyAll f rs l, P a := by
  unfold modifyAll
  induction rs generalizing l with
  | nil => exact hl
  | cons p rs ih => exact ih (forall_mem_modify (hkeeps p.2) hl)

theorem getElem?_modifyAll_of_not_mem (h : k ∉ rs.map Prod.fst) :
    (modifyAll f rs l)[k]? = l[k]? := by
  unfold modifyAll
  induction rs generalizing l with
  | nil => rfl
  | cons p rs ih =>
    rw [List.map_cons, List.mem_cons, not_or] at h
    rw [List.foldl_cons, ih h.2, List.getElem?_modify_ne (f p.2) l (Ne.symm h.1)]

theorem getElem?_modifyAll_of_mem (hnodup : (rs.map Prod.fst).Nodup) (h : (k, r) ∈ rs) :
    (modifyAll f rs l)[k]? = (l[k]?).map (f r) := by
  induction rs generalizing l with
  | nil => exact absurd h List.not_mem_nil
  | cons p rs ih =>
    rw [List.map_cons, List.nodup_cons] at hnodup
    show (modifyAll f rs (l.modify p.1 (f p.2)))[k]? = _
    rcases List.mem_cons.mp h with rfl | hmem
    · -- its only change is the first one
      rw [getElem?_modifyAll_of_not_mem hnodup.1, List.getElem?_modify_eq]
      rfl
    · -- the first change is of another record
      have hne : p.1 ≠ k := fun heq => hnodup.1 (List.mem_map.mpr ⟨(k, r), hmem, heq.symm⟩)
      rw [ih hnodup.2 hmem, List.getElem?_modify_ne (f p.2) l hne]

/-- One change of the records of a list of indexes. -/
theorem getElem?_modifyAll_indexes {g : α → α} {ks : List ℕ} (hnodup : ks.Nodup) :
    (modifyAll (fun (_ : Unit) a => g a) (ks.map fun k => (k, ())) l)[k]?
      = if k ∈ ks then (l[k]?).map g else l[k]? := by
  have hfst : (ks.map fun k => (k, ())).map Prod.fst = ks := by
    rw [List.map_map]
    exact List.map_id ks
  split
  · rename_i hk
    refine getElem?_modifyAll_of_mem (r := ()) ?_ (List.mem_map.mpr ⟨k, hk, rfl⟩)
    rwa [hfst]
  · rename_i hk
    refine getElem?_modifyAll_of_not_mem ?_
    rwa [hfst]

/-! ### Loops that may fail -/

variable {σ : Type u} {ε : Type v} {step step' : σ → α → Except ε σ} {as : List α} {s t : σ}

theorem except_map_eq_ok {δ : Type w} {x : Except ε σ} {g : σ → δ} {b : δ} (h : x.map g = .ok b) :
    ∃ a, x = .ok a ∧ g a = b := by
  cases x with
  | error e => exact absurd h (by simp [Except.map])
  | ok a => exact ⟨a, rfl, Except.ok.inj h⟩

theorem ok_of_toOption {x : Except ε σ} {a : σ} (h : x.toOption = some a) : x = .ok a := by
  cases x with
  | error e => exact absurd h (by simp [Except.toOption])
  | ok b => exact congrArg Except.ok (Option.some.inj h)

theorem except_bind_eq_ok {δ : Type u} {x : Except ε σ} {g : σ → Except ε δ} {b : δ}
    (h : x >>= g = .ok b) : ∃ a, x = .ok a ∧ g a = .ok b := by
  cases x with
  | error e => exact absurd h (by simp [bind, Except.bind])
  | ok a => exact ⟨a, rfl, h⟩

theorem foldlM_ok_invariant {I : σ → Prop}
    (hstep : ∀ s a t, I s → step s a = .ok t → I t) (h : as.foldlM step s = .ok t) (hs : I s) :
    I t := by
  induction as generalizing s with
  | nil =>
    obtain rfl := Except.ok.inj h
    exact hs
  | cons a as ih =>
    rw [List.foldlM_cons] at h
    obtain ⟨m, hfirst, hrest⟩ := except_bind_eq_ok h
    exact ih hrest (hstep s a m hs hfirst)

/-- What each round establishes about its element and no later round undoes. -/
theorem foldlM_ok_marks {R : σ → σ → Prop} {Q : α → σ → Prop} (hrefl : ∀ s, R s s)
    (htrans : ∀ s t u, R s t → R t u → R s u) (hmono : ∀ a s t, R s t → Q a s → Q a t)
    (hstep : ∀ s a t, step s a = .ok t → R s t ∧ Q a t) (h : as.foldlM step s = .ok t) :
    R s t ∧ ∀ a ∈ as, Q a t := by
  induction as generalizing s with
  | nil =>
    obtain rfl := Except.ok.inj h
    exact ⟨hrefl s, nofun⟩
  | cons a as ih =>
    rw [List.foldlM_cons] at h
    obtain ⟨m, hfirst, hrest⟩ := except_bind_eq_ok h
    obtain ⟨hsm, hQ⟩ := hstep s a m hfirst
    obtain ⟨hmt, hmarks⟩ := ih hrest
    refine ⟨htrans s m t hsm hmt, ?_⟩
    rw [List.forall_mem_cons]
    exact ⟨hmono a m t hmt hQ, hmarks⟩

/-- A map that may fail succeeds on a list if it does on each of its elements. -/
theorem mapM_eq_ok_iff {δ : Type u} {f : α → Except ε δ} {bs : List δ} :
    as.mapM f = .ok bs ↔ List.Forall₂ (fun a b => f a = .ok b) as bs := by
  induction as generalizing bs with
  | nil =>
    rw [List.mapM_nil, List.forall₂_nil_left_iff]
    exact ⟨fun h => (Except.ok.inj h).symm, fun h => h ▸ rfl⟩
  | cons a as ih =>
    rw [List.mapM_cons]
    constructor
    · intro h
      obtain ⟨b, hb, h⟩ := except_bind_eq_ok h
      obtain ⟨bs, hbs, h⟩ := except_bind_eq_ok h
      obtain rfl := Except.ok.inj h
      exact .cons hb (ih.mp hbs)
    · rintro (_ | ⟨hb, hbs⟩)
      rw [hb]
      show (as.mapM f >>= _) = _
      rw [ih.mpr hbs]
      rfl

theorem exists_mapM_ok {δ : Type u} {f : α → Except ε δ} (h : ∀ a ∈ as, ∃ b, f a = .ok b) :
    ∃ bs, as.mapM f = .ok bs := by
  induction as with
  | nil => exact ⟨[], rfl⟩
  | cons a as ih =>
    rw [List.forall_mem_cons] at h
    obtain ⟨b, hb⟩ := h.1
    obtain ⟨bs, hbs⟩ := ih h.2
    exact ⟨b :: bs, mapM_eq_ok_iff.mpr (.cons hb (mapM_eq_ok_iff.mp hbs))⟩

theorem mem_iff_of_forall₂_ok {δ : Type u} {f : α → Except ε δ} {bs : List δ} {b : δ}
    (h : List.Forall₂ (fun a b => f a = .ok b) as bs) : b ∈ bs ↔ ∃ a ∈ as, f a = .ok b := by
  induction h with
  | nil => simp
  | @cons a c as bs hac _ ih =>
    rw [List.mem_cons, ih, List.exists_mem_cons_iff, hac, Except.ok.injEq, eq_comm]

/-- The result at an index is that of the argument there. -/
theorem getElem?_mapM_ok {δ : Type u} {f : α → Except ε δ} {bs : List δ} {b : δ} {i : ℕ}
    (h : as.mapM f = .ok bs) : bs[i]? = some b ↔ ∃ a, as[i]? = some a ∧ f a = .ok b := by
  have hpairs := mapM_eq_ok_iff.mp h
  clear h
  induction hpairs generalizing i with
  | nil => simp
  | @cons a c as bs hac _ ih =>
    cases i with
    | zero => simp [hac]
    | succ i => simpa using ih

theorem length_mapM_ok {δ : Type u} {f : α → Except ε δ} {bs : List δ}
    (h : as.mapM f = .ok bs) : bs.length = as.length :=
  (mapM_eq_ok_iff.mp h).length_eq.symm

theorem foldlM_congr_of_mem (h : ∀ s, ∀ a ∈ as, step s a = step' s a) :
    as.foldlM step s = as.foldlM step' s := by
  induction as generalizing s with
  | nil => rfl
  | cons a as ih =>
    rw [List.foldlM_cons, List.foldlM_cons, h s a List.mem_cons_self]
    cases step' s a with
    | error e => rfl
    | ok m => exact ih fun s b hb => h s b (List.mem_cons_of_mem _ hb)

end Msai.Lib
