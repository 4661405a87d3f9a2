import Mathlib.Data.List.Basic

namespace Msai.Lib

/-!
# Transition systems with labelled, deterministic steps

A system is a partial function `step : σ → α → Option σ`.  Everything that is not
determined by the state (which party moves, what the environment answers) is carried by
the label, so a whole run is a list of labels and can be evaluated.

* `Path T C s as t` — the labels `as` lead from `s` to `t`, and every step taken meets
  the side condition `C`, read in the state *before* the step.
* `Path.good_iff` — which paths keep a property, from which steps do.
* `Path.invariant` — what one step preserves, a path preserves.
* `Path.of_run` — a path from an evaluated run, for witnesses and counterexamples.
* `getElem?_set_cases`, `getElem?_concat_cases` — where a party stands after one of the list
  has moved or another has come.
-/

universe u v

/-- A labelled transition system.  `none` means that the label is not enabled. -/
structure TransitionSystem (σ : Type u) (α : Type v) where
  /-- The successor of a state under a label. -/
  step : σ → α → Option σ

namespace TransitionSystem

variable {σ : Type u} {α : Type v}

/-- Execute a list of labels. -/
def run (T : TransitionSystem σ α) : σ → List α → Option σ
  | s, [] => some s
  | s, a :: as => (T.step s a).bind fun t => T.run t as

/-- `as` leads from the first state to the second, and every step meets `C`. -/
inductive Path (T : TransitionSystem σ α) (C : σ → α → Prop) : σ → List α → σ → Prop
  | nil (s : σ) : Path T C s [] s
  | cons {s t u : σ} {a : α} {as : List α} (hC : C s a) (hstep : T.step s a = some t)
      (htail : Path T C t as u) : Path T C s (a :: as) u

/-- The side condition of an unrestricted run. -/
def anyStep (_ : σ) (_ : α) : Prop := True

variable {T : TransitionSystem σ α} {C D : σ → α → Prop} {s t u : σ} {a : α} {as bs : List α}

@[simp] theorem run_nil : T.run s [] = some s := rfl

@[simp] theorem run_cons : T.run s (a :: as) = (T.step s a).bind fun t => T.run t as := rfl

/-- An evaluated run is a path without side condition. -/
theorem Path.of_run (h : T.run s as = some t) : Path T anyStep s as t := by
  induction as generalizing s with
  | nil =>
    obtain rfl : s = t := by simpa using h
    exact .nil s
  | cons a as ih =>
    obtain ⟨m, hstep, htail⟩ := Option.bind_eq_some_iff.mp h
    exact .cons trivial hstep (ih htail)

/-- Execute a list of labels as long as every step meets a decidable side condition. -/
def runWhere (T : TransitionSystem σ α) (C : σ → α → Prop) [∀ s a, Decidable (C s a)] :
    σ → List α → Option σ
  | s, [] => some s
  | s, a :: as => if C s a then (T.step s a).bind fun t => T.runWhere C t as else none

/-- An evaluated run whose side conditions were checked is a path. -/
theorem Path.of_runWhere [∀ s a, Decidable (C s a)] (h : T.runWhere C s as = some t) :
    Path T C s as t := by
  induction as generalizing s with
  | nil =>
    obtain rfl : s = t := by simpa [runWhere] using h
    exact .nil s
  | cons a as ih =>
    simp only [runWhere] at h
    split at h
    · rename_i hC
      obtain ⟨m, hstep, htail⟩ := Option.bind_eq_some_iff.mp h
      exact .cons hC hstep (ih htail)
    · cases h

/-- Paths compose. -/
theorem Path.append (h : Path T C s as t) (h' : Path T C t bs u) :
    Path T C s (as ++ bs) u := by
  induction h with
  | nil s => exact h'
  | cons hC hstep _ ih => exact .cons hC hstep (ih h')

/-- One more step at the end of a path. -/
theorem Path.snoc (h : Path T C s as t) (hC : C t a) (hstep : T.step t a = some u) :
    Path T C s (as ++ [a]) u :=
  h.append (.cons hC hstep (.nil u))

/-- A side condition that is weaker on the labels of a path admits the same path. -/
theorem Path.mono (h : Path T C s as t) (hCD : ∀ a ∈ as, ∀ s, C s a → D s a) :
    Path T D s as t := by
  induction h with
  | nil s => exact .nil s
  | cons hC hstep _ ih =>
    exact .cons (hCD _ List.mem_cons_self _ hC) hstep
      (ih fun a ha => hCD a (List.mem_cons_of_mem _ ha))

/-- Two side conditions that agree on every enabled step admit the same paths. -/
theorem Path.congr (hCD : ∀ s a t, T.step s a = some t → (C s a ↔ D s a)) :
    Path T C s as t ↔ Path T D s as t := by
  constructor <;> intro h
  · induction h with
    | nil s => exact .nil s
    | cons hC hstep _ ih => exact .cons ((hCD _ _ _ hstep).mp hC) hstep ih
  · induction h with
    | nil s => exact .nil s
    | cons hD hstep _ ih => exact .cons ((hCD _ _ _ hstep).mpr hD) hstep ih

/-- **Exactness rule under an invariant.**  If a step from a good state leads to a good one exactly
    when it meets `C`, and no step leads from a bad state to a good one, then a path from a good
    state ends in a good one exactly when all its steps meet `C`. -/
theorem Path.good_iff_of {I good : σ → Prop}
    (hpres : ∀ s a t, I s → T.step s a = some t → I t)
    (hstep : ∀ s a t, I s → T.step s a = some t → (good t ↔ good s ∧ C s a))
    (h : Path T anyStep s as t) (hI : I s) (hs : good s) : good t ↔ Path T C s as t := by
  have hback : ∀ {u v : σ} {bs : List α}, Path T anyStep u bs v → I u → good v → good u := by
    intro u v bs hpath
    induction hpath with
    | nil u => exact fun _ => id
    | cons _ hs _ ih =>
      exact fun hu hv => ((hstep _ _ _ hu hs).mp (ih (hpres _ _ _ hu hs) hv)).1
  induction h with
  | nil s => exact ⟨fun _ => .nil s, fun _ => hs⟩
  | cons _ hfirst htail ih =>
    have hI' := hpres _ _ _ hI hfirst
    constructor
    · intro ht
      have hC := (hstep _ _ _ hI hfirst).mp (hback htail hI' ht)
      exact .cons hC.2 hfirst ((ih hI' ((hstep _ _ _ hI hfirst).mpr hC)).mp ht)
    · intro hpath
      cases hpath with
      | cons hC hfirst' htail' =>
        obtain rfl := Option.some.inj (hfirst.symm.trans hfirst')
        exact (ih hI' ((hstep _ _ _ hI hfirst).mpr ⟨hs, hC⟩)).mpr htail'

/-- **Exactness rule.**  The same where every state of the system will do. -/
theorem Path.good_iff {good : σ → Prop}
    (hstep : ∀ s a t, T.step s a = some t → (good t ↔ good s ∧ C s a))
    (h : Path T anyStep s as t) (hs : good s) : good t ↔ Path T C s as t :=
  h.good_iff_of (I := fun _ => True) (fun _ _ _ _ _ => trivial)
    (fun s a t _ => hstep s a t) trivial hs

/-- **Invariant rule.**  A predicate that every step meeting `C` preserves holds at the
    end of every path that starts in it. -/
theorem Path.invariant {I : σ → Prop}
    (hpres : ∀ s a t, I s → C s a → T.step s a = some t → I t)
    (h : Path T C s as t) (h0 : I s) : I t := by
  induction h with
  | nil s => exact h0
  | cons hC hstep _ ih => exact ih (hpres _ _ _ h0 hC hstep)

/-- **Strengthening rule.**  What an invariant of the steps adds to the side condition of a
    path may be added to it. -/
theorem Path.strengthen {I : σ → Prop}
    (hpres : ∀ s a t, I s → C s a → T.step s a = some t → I t)
    (hD : ∀ s a t, I s → C s a → T.step s a = some t → D s a)
    (h : Path T C s as t) (h0 : I s) : Path T D s as t := by
  induction h with
  | nil s => exact .nil s
  | cons hC hs _ ih => exact .cons (hD _ _ _ h0 hC hs) hs (ih (hpres _ _ _ h0 hC hs))

/-- **Relational rule.**  A reflexive and transitive relation between a state and its
    successor relates the two ends of a path, under an invariant of the steps. -/
theorem Path.relates {I : σ → Prop} {R : σ → σ → Prop}
    (hpres : ∀ s a t, I s → C s a → T.step s a = some t → I t)
    (hrefl : ∀ s, R s s) (htrans : ∀ {s t u}, R s t → R t u → R s u)
    (hstep : ∀ s a t, I s → C s a → T.step s a = some t → R s t)
    (h : Path T C s as t) (h0 : I s) : R s t := by
  induction h with
  | nil s => exact hrefl s
  | cons hC hs _ ih => exact htrans (hstep _ _ _ h0 hC hs) (ih (hpres _ _ _ h0 hC hs))

end TransitionSystem

/-! ### Parties in a list -/

/-- A position of an updated list is the updated one or an old one. -/
theorem getElem?_set_cases {α : Type} {l : List α} {k j : ℕ} {a b : α}
    (h : (l.set k a)[j]? = some b) : (j = k ∧ b = a) ∨ (j ≠ k ∧ l[j]? = some b) := by
  by_cases hj : j = k
  · subst hj
    rw [List.getElem?_set_self'] at h
    obtain ⟨_, _, rfl⟩ := Option.map_eq_some_iff.mp h
    exact Or.inl ⟨rfl, rfl⟩
  · rw [List.getElem?_set_ne (Ne.symm hj)] at h
    exact Or.inr ⟨hj, h⟩

/-- A position of an extended list is the new one or an old one. -/
theorem getElem?_concat_cases {α : Type} {l : List α} {j : ℕ} {a b : α}
    (h : (l ++ [a])[j]? = some b) : (j = l.length ∧ b = a) ∨ l[j]? = some b := by
  rcases Nat.lt_or_ge j l.length with hlt | hge
  · exact Or.inr (by rwa [List.getElem?_append_left hlt] at h)
  · rw [List.getElem?_append_right hge] at h
    have hzero : j - l.length = 0 := by simpa using (List.getElem?_eq_some_iff.mp h).1
    rw [hzero] at h
    exact Or.inl ⟨by omega, (Option.some.inj h).symm⟩

end Msai.Lib
