import Msai.Lib.Transition
import Mathlib.Data.List.Perm.Basic

namespace Msai.Lib.LockedRegister

open Msai.Lib

/-!
# Updates of a register under a lock

Parties update one register, each by a read, a computation and a write while it holds a lock.  A
party may give up or be killed at any point; the lock is free then.

* `Phase`, `State`, `system` — the parties, and what they do;
* `Exclusive` — the invariant: who is at work holds the lock, and has read the current value;
* `value_eq_foldl` — the register is what the writes make of its start, one after another;
* `acknowledged_subperm` — what a party has reported is among the writes, as often as it did.
-/

variable {F O : Type}

/-- Where a party is in its update. -/
inductive Phase (F O : Type)
  | idle
  | locked (op : O)
  | loaded (op : O) (seen : F)
  | stored (op : O)
deriving DecidableEq, Repr

/-- The register, the lock and the parties; the writes and the reports are recorded. -/
structure State (F O : Type) where
  value : F
  lock : Option ℕ
  parties : List (Phase F O)
  writes : List O := []
  acknowledged : List O := []
deriving DecidableEq, Repr

inductive Event (O : Type)
  | lock (p : ℕ) (op : O)
  | load (p : ℕ)
  | store (p : ℕ)
  /-- The lock is given back, and the update is reported. -/
  | unlock (p : ℕ)
  /-- An exception, or the end of the process. -/
  | abandon (p : ℕ)
deriving DecidableEq, Repr

/-- The steps; `update` is the computation. -/
def system (update : F → O → F) : TransitionSystem (State F O) (Event O) where
  step s
    | .lock p op =>
      match s.parties[p]?, s.lock with
      | some .idle, none =>
        some { s with lock := some p, parties := s.parties.set p (.locked op) }
      | _, _ => none
    | .load p =>
      match s.parties[p]? with
      | some (.locked op) => some { s with parties := s.parties.set p (.loaded op s.value) }
      | _ => none
    | .store p =>
      match s.parties[p]? with
      | some (.loaded op seen) =>
        some
          { s with
            value := update seen op
            parties := s.parties.set p (.stored op)
            writes := s.writes ++ [op] }
      | _ => none
    | .unlock p =>
      match s.parties[p]? with
      | some (.stored op) =>
        some
          { s with
            lock := none
            parties := s.parties.set p .idle
            acknowledged := s.acknowledged ++ [op] }
      | _ => none
    | .abandon p =>
      match s.parties[p]? with
      | some .idle | none => none
      | some _ => some { s with lock := none, parties := s.parties.set p .idle }

/-- Nobody is at work. -/
def start (value : F) (n : ℕ) : State F O where
  value := value
  lock := none
  parties := List.replicate n .idle

/-- The party is in its update. -/
def Phase.atWork : Phase F O → Prop
  | .idle => False
  | _ => True

/-- What a party in this phase knows of the register. -/
def Phase.Sees (value : F) : Phase F O → Prop
  | .loaded _ seen => seen = value
  | _ => True

/-- Who is at work holds the lock, and what it has read is current. -/
structure Exclusive (s : State F O) : Prop where
  holder : ∀ (p : ℕ) phase, s.parties[p]? = some phase → phase.atWork → s.lock = some p
  current : ∀ (p : ℕ) phase, s.parties[p]? = some phase → phase.Sees s.value

section Invariant

variable {update : F → O → F} {s t : State F O} {e : Event O} {p : ℕ}

/-- **What a step does**: the party moves, the lock is its own or free, and the register changes by
    the update of what it has read. -/
theorem step_cases (h : (system update).step s e = some t) :
    (∃ p op, e = .lock p op ∧ s.lock = none ∧
        t = { s with lock := some p, parties := s.parties.set p (.locked op) }) ∨
    (∃ p op, s.parties[p]? = some (.locked op) ∧
        t = { s with parties := s.parties.set p (.loaded op s.value) }) ∨
    (∃ p op seen, s.parties[p]? = some (.loaded op seen) ∧
        t = { s with
          value := update seen op
          parties := s.parties.set p (.stored op)
          writes := s.writes ++ [op] }) ∨
    (∃ p op, s.parties[p]? = some (.stored op) ∧
        t = { s with
          lock := none
          parties := s.parties.set p .idle
          acknowledged := s.acknowledged ++ [op] }) ∨
    ∃ p phase, s.parties[p]? = some phase ∧ phase.atWork ∧
        t = { s with lock := none, parties := s.parties.set p .idle } := by
  cases e with
  | lock p op =>
    simp only [system] at h
    split at h
    · rename_i hlock
      exact Or.inl ⟨p, op, rfl, hlock, (Option.some.inj h).symm⟩
    · exact absurd h (by simp)
  | load p =>
    simp only [system] at h
    split at h
    · rename_i op hp
      exact Or.inr (Or.inl ⟨p, op, hp, (Option.some.inj h).symm⟩)
    · exact absurd h (by simp)
  | store p =>
    simp only [system] at h
    split at h
    · rename_i op seen hp
      exact Or.inr (Or.inr (Or.inl ⟨p, op, seen, hp, (Option.some.inj h).symm⟩))
    · exact absurd h (by simp)
  | unlock p =>
    simp only [system] at h
    split at h
    · rename_i op hp
      exact Or.inr (Or.inr (Or.inr (Or.inl ⟨p, op, hp, (Option.some.inj h).symm⟩)))
    · exact absurd h (by simp)
  | abandon p =>
    simp only [system] at h
    split at h
    · exact absurd h (by simp)
    · exact absurd h (by simp)
    · rename_i phase hidle hp
      refine Or.inr (Or.inr (Or.inr (Or.inr ⟨p, phase, hp, ?_, (Option.some.inj h).symm⟩)))
      cases phase with
      | idle => exact absurd rfl hidle
      | locked | loaded | stored => trivial

/-- While one party is at work, or the lock is free, the others are idle. -/
theorem Exclusive.others (h : Exclusive s)
    (hp : s.lock = none ∨ ∃ phase, s.parties[p]? = some phase ∧ phase.atWork) {q : ℕ} (hq : q ≠ p)
    {phase : Phase F O} (hphase : s.parties[q]? = some phase) : ¬ phase.atWork := by
  intro hwork
  have hlock := h.holder q phase hphase hwork
  rcases hp with hfree | ⟨phase', hp, hwork'⟩
  · rw [hfree] at hlock
    exact absurd hlock (by simp)
  · rw [h.holder p phase' hp hwork', Option.some.injEq] at hlock
    exact hq hlock.symm

theorem sees_of_idle {value : F} {phase : Phase F O} (h : ¬ phase.atWork) : phase.Sees value := by
  cases phase with
  | idle => trivial
  | locked | loaded | stored => exact absurd trivial h

/-- The party moves while the others are idle. -/
theorem Exclusive.move (h : Exclusive s)
    (hp : s.lock = none ∨ ∃ phase, s.parties[p]? = some phase ∧ phase.atWork)
    {phase : Phase F O} (hparties : t.parties = s.parties.set p phase)
    (hlock : phase.atWork → t.lock = some p) (hsees : phase.Sees t.value) : Exclusive t := by
  refine ⟨fun q phase' hq hwork => ?_, fun q phase' hq => ?_⟩
  · rw [hparties] at hq
    rcases getElem?_set_cases hq with ⟨rfl, rfl⟩ | ⟨hne, hold⟩
    · exact hlock hwork
    · exact absurd hwork (h.others hp hne hold)
  · rw [hparties] at hq
    rcases getElem?_set_cases hq with ⟨rfl, rfl⟩ | ⟨hne, hold⟩
    · exact hsees
    · exact sees_of_idle (h.others hp hne hold)

theorem Exclusive.step (h : Exclusive s) (hstep : (system update).step s e = some t) :
    Exclusive t := by
  rcases step_cases hstep with ⟨p, op, -, hlock, rfl⟩ | ⟨p, op, hp, rfl⟩ |
    ⟨p, op, seen, hp, rfl⟩ | ⟨p, op, hp, rfl⟩ | ⟨p, phase, hp, hwork, rfl⟩
  · exact h.move (Or.inl hlock) rfl (fun _ => rfl) trivial
  · exact h.move (Or.inr ⟨_, hp, trivial⟩) rfl (fun _ => h.holder p _ hp trivial) rfl
  · exact h.move (Or.inr ⟨_, hp, trivial⟩) rfl (fun _ => h.holder p _ hp trivial) trivial
  · exact h.move (Or.inr ⟨_, hp, trivial⟩) rfl (fun hidle => hidle.elim) trivial
  · exact h.move (Or.inr ⟨_, hp, hwork⟩) rfl (fun hidle => hidle.elim) trivial

theorem exclusive_start (value : F) (n : ℕ) : Exclusive (start value n : State F O) := by
  have hidle : ∀ (p : ℕ) phase, (start value n : State F O).parties[p]? = some phase →
      phase = .idle :=
    fun p phase hp => List.eq_of_mem_replicate (List.mem_of_getElem? hp)
  refine ⟨fun p phase hp hwork => ?_, fun p phase hp => ?_⟩
  · rw [hidle p phase hp] at hwork
    exact hwork.elim
  · rw [hidle p phase hp]
    trivial

/-- What has been reported, and what is about to be, is among the writes. -/
structure Recorded (s : State F O) : Prop where
  acknowledged : s.acknowledged.Subperm s.writes
  stored : ∀ (p : ℕ) op, s.parties[p]? = some (.stored op) →
    (s.acknowledged ++ [op]).Subperm s.writes

theorem Recorded.step (h : Recorded s) (hexclusive : Exclusive s)
    (hstep : (system update).step s e = some t) : Recorded t := by
  rcases step_cases hstep with ⟨p, op, -, hlock, rfl⟩ | ⟨p, op, hp, rfl⟩ |
    ⟨p, op, seen, hp, rfl⟩ | ⟨p, op, hp, rfl⟩ | ⟨p, phase, hp, hwork, rfl⟩
  · refine ⟨h.acknowledged, fun q op' hq => ?_⟩
    rcases getElem?_set_cases hq with ⟨rfl, hphase⟩ | ⟨hne, hold⟩
    · cases hphase
    · exact h.stored q op' hold
  · refine ⟨h.acknowledged, fun q op' hq => ?_⟩
    rcases getElem?_set_cases hq with ⟨rfl, hphase⟩ | ⟨hne, hold⟩
    · cases hphase
    · exact h.stored q op' hold
  · refine ⟨h.acknowledged.trans (List.sublist_append_left _ _).subperm, fun q op' hq => ?_⟩
    rcases getElem?_set_cases hq with ⟨rfl, hphase⟩ | ⟨hne, hold⟩
    · obtain rfl : op' = op := by injection hphase
      exact (List.subperm_append_right [op']).mpr h.acknowledged
    · exact absurd trivial (hexclusive.others (Or.inr ⟨_, hp, trivial⟩) hne hold)
  · refine ⟨h.stored p op hp, fun q op' hq => ?_⟩
    rcases getElem?_set_cases hq with ⟨rfl, hphase⟩ | ⟨hne, hold⟩
    · cases hphase
    · exact absurd trivial (hexclusive.others (Or.inr ⟨_, hp, trivial⟩) hne hold)
  · refine ⟨h.acknowledged, fun q op' hq => ?_⟩
    rcases getElem?_set_cases hq with ⟨rfl, hphase⟩ | ⟨hne, hold⟩
    · cases hphase
    · exact h.stored q op' hold

end Invariant

section Runs

variable {update : F → O → F} {value : F} {n : ℕ} {s : State F O} {events : List (Event O)}

/-- **The register is what the writes make of its start**, in their order. -/
theorem value_eq_foldl
    (h : (system update).Path TransitionSystem.anyStep (start value n) events s) :
    s.value = s.writes.foldl update value := by
  refine (h.invariant (I := fun s => Exclusive s ∧ s.value = s.writes.foldl update value) ?_
    ⟨exclusive_start value n, rfl⟩).2
  rintro s e t ⟨hexclusive, hvalue⟩ - hstep
  refine ⟨hexclusive.step hstep, ?_⟩
  rcases step_cases hstep with ⟨p, op, -, -, rfl⟩ | ⟨p, op, -, rfl⟩ | ⟨p, op, seen, hp, rfl⟩ |
    ⟨p, op, -, rfl⟩ | ⟨p, phase, -, -, rfl⟩
  · exact hvalue
  · exact hvalue
  · -- what the party has read is still the value
    have hseen : seen = s.value := hexclusive.current p _ hp
    show update seen op = (s.writes ++ [op]).foldl update value
    rw [List.foldl_append, ← hvalue, hseen]
    rfl
  · exact hvalue
  · exact hvalue

/-- **No update is lost**: what has been reported is among the writes. -/
theorem acknowledged_subperm
    (h : (system update).Path TransitionSystem.anyStep (start value n) events s) :
    s.acknowledged.Subperm s.writes := by
  have hstart : Recorded (start value n : State F O) := by
    refine ⟨List.Subperm.refl _, fun p op hp => ?_⟩
    cases List.eq_of_mem_replicate (List.mem_of_getElem? hp)
  exact ((h.invariant (I := fun s => Exclusive s ∧ Recorded s)
    (fun _ _ _ hs _ hstep => ⟨hs.1.step hstep, hs.2.step hs.1 hstep⟩)
    ⟨exclusive_start value n, hstart⟩).2).acknowledged

end Runs

end Msai.Lib.LockedRegister
