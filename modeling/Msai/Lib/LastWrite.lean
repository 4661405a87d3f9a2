import Mathlib.Data.List.Basic

namespace Msai.Lib

/-!
# Logs of writes, the last of which wins

A register that takes over every write it sees holds the last one.  `val e` is what the event
`e` writes to the register, `none` if it is not one of its writes.

* `lastWrite` — the last write of a log;
* `lookup_foldl` — a state built event by event shows the last write;
* `lastWrite_eq_of_covers` — a log of numbered writes that may leave out, repeat and reorder has
  the outcome of the log in order, as long as the numbers of the register's writes never fall and
  none is left out behind the last.
-/

universe u v w

variable {ε : Type u} {ν : Type v}

/-- The last write of a log. -/
def lastWrite (val : ε → Option ν) : List ε → Option ν
  | [] => none
  | e :: l => (lastWrite val l).or (val e)

variable {val : ε → Option ν} {l : List ε} {e : ε} {x : ν}

theorem lastWrite_nil : lastWrite val [] = none := rfl

theorem lastWrite_cons : lastWrite val (e :: l) = (lastWrite val l).or (val e) := rfl

/-- Nothing was written. -/
theorem lastWrite_eq_none : lastWrite val l = none ↔ ∀ e ∈ l, val e = none := by
  induction l with
  | nil => simp [lastWrite_nil]
  | cons e l ih =>
    rw [lastWrite_cons, Option.or_eq_none_iff, ih, List.forall_mem_cons]
    exact and_comm

/-- Nothing was written behind the last write. -/
theorem lastWrite_eq_some :
    lastWrite val l = some x ↔
      ∃ l₁ e l₂, l = l₁ ++ e :: l₂ ∧ val e = some x ∧ ∀ e' ∈ l₂, val e' = none := by
  induction l with
  | nil => simp [lastWrite_nil]
  | cons e₀ l ih =>
    rw [lastWrite_cons, Option.or_eq_some_iff, ih, lastWrite_eq_none]
    constructor
    · rintro (⟨l₁, e, l₂, rfl, he, hl₂⟩ | ⟨hnone, he⟩)
      · exact ⟨e₀ :: l₁, e, l₂, rfl, he, hl₂⟩
      · exact ⟨[], e₀, l, rfl, he, hnone⟩
    · rintro ⟨l₁, e, l₂, hl, he, hl₂⟩
      cases l₁ with
      | nil =>
        obtain ⟨rfl, rfl⟩ := List.cons.inj hl
        exact Or.inr ⟨hl₂, he⟩
      | cons e₁ l₁ =>
        obtain ⟨rfl, rfl⟩ := List.cons.inj hl
        exact Or.inl ⟨l₁, e, l₂, rfl, he, hl₂⟩

theorem lastWrite_append {l' : List ε} :
    lastWrite val (l ++ l') = (lastWrite val l').or (lastWrite val l) := by
  induction l with
  | nil => exact Option.or_none.symm
  | cons e l ih => rw [List.cons_append, lastWrite, ih, lastWrite_cons, Option.or_assoc]

theorem lastWrite_map {δ : Type w} {f : δ → ε} {m : List δ} :
    lastWrite val (m.map f) = lastWrite (fun d => val (f d)) m := by
  induction m with
  | nil => rfl
  | cons d m ih => rw [List.map_cons, lastWrite_cons, lastWrite_cons, ih]

/-- **A state built event by event** shows the last write, if one event shows what it writes. -/
theorem lookup_foldl {σ : Type w} {apply : σ → ε → σ} (get : σ → Option ν)
    (h : ∀ s e, get (apply s e) = (val e).or (get s)) (l : List ε) (s : σ) :
    get (l.foldl apply s) = (lastWrite val l).or (get s) := by
  induction l generalizing s with
  | nil => rfl
  | cons e l ih =>
    rw [List.foldl_cons, ih, h, lastWrite_cons, Option.or_assoc]

/-- In a log whose writes are ordered by `R`, every write is below the last. -/
theorem le_lastWrite {R : ν → ν → Prop} (hrefl : ∀ x, R x x)
    (h : l.Pairwise fun e e' => ∀ x x', val e = some x → val e' = some x' → R x x')
    (he : e ∈ l) (hx : val e = some x) : ∃ x', lastWrite val l = some x' ∧ R x x' := by
  cases hlast : lastWrite val l with
  | none =>
    rw [lastWrite_eq_none.mp hlast e he] at hx
    cases hx
  | some x' =>
    refine ⟨x', rfl, ?_⟩
    obtain ⟨l₁, e', l₂, rfl, he', hl₂⟩ := lastWrite_eq_some.mp hlast
    rcases List.mem_append.mp he with he | he
    · exact (List.pairwise_append.mp h).2.2 e he e' List.mem_cons_self x x' hx he'
    · rcases List.mem_cons.mp he with rfl | he
      · obtain rfl := Option.some.inj (hx.symm.trans he')
        exact hrefl x
      · rw [hl₂ e he] at hx
        cases hx

/-- **Delivery in order, as far as the register is concerned.**  `log` has only writes of
    `stream`, their numbers never fall, and a write that `log` leaves out is older than one it
    has. -/
theorem lastWrite_eq_of_covers {stream log : List (ℕ × ε)}
    (hsorted : stream.Pairwise fun p q => p.1 < q.1) (hsub : ∀ p ∈ log, p ∈ stream)
    (hmono : log.Pairwise fun p q => (val p.2).isSome → (val q.2).isSome → p.1 ≤ q.1)
    (hcov : ∀ p ∈ stream, (val p.2).isSome → ∃ q ∈ log, (val q.2).isSome ∧ p.1 ≤ q.1) :
    lastWrite (fun p => val p.2) log = lastWrite (fun p => val p.2) stream := by
  cases hlog : lastWrite (fun p : ℕ × ε => val p.2) log with
  | none =>
    symm
    rw [lastWrite_eq_none] at hlog ⊢
    intro p hp
    by_contra hne
    obtain ⟨q, hq, hsome, _⟩ := hcov p hp (Option.isSome_iff_ne_none.mpr hne)
    rw [hlog q hq] at hsome
    cases hsome
  | some x =>
    symm
    obtain ⟨l₁, p, l₂, rfl, hp, hl₂⟩ := lastWrite_eq_some.mp hlog
    obtain ⟨s₁, s₂, rfl⟩ := List.append_of_mem (hsub p (by simp))
    refine lastWrite_eq_some.mpr ⟨s₁, p, s₂, rfl, hp, fun q hq => ?_⟩
    -- a write of the stream behind `p` would be covered by one of the log that is not behind `p`
    by_contra hne
    have hlt : p.1 < q.1 := List.rel_of_pairwise_cons (List.pairwise_append.mp hsorted).2.1 hq
    obtain ⟨r, hr, hsome, hle⟩ := hcov q (by simp [hq]) (Option.isSome_iff_ne_none.mpr hne)
    have hrp : r.1 ≤ p.1 := by
      rcases List.mem_append.mp hr with hr | hr
      · exact (List.pairwise_append.mp hmono).2.2 r hr p List.mem_cons_self hsome (by simp [hp])
      · rcases List.mem_cons.mp hr with rfl | hr
        · exact Nat.le_refl _
        · rw [hl₂ r hr] at hsome
          cases hsome
    omega

end Msai.Lib
