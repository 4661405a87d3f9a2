import Mathlib.Data.List.Count
import Mathlib.Data.List.Infix

namespace Msai.Lib

/-!
# An event that happens at most once between two resets

A log is extended at its end.  Whoever lets an event happen only when it is armed, disarms it with
the event and arms it with a reset, has it at most once between two resets.

* `OnceBetween` — no stretch of the log without a reset has the event twice;
* `Rearmed` — the event has not happened since the last reset.
-/

section OnceBetween

variable {α : Type} {event reset e : α} {log : List α}

/-- At most one `event` between two `reset`s. -/
def OnceBetween [DecidableEq α] (event reset : α) (log : List α) : Prop :=
  ∀ stretch, stretch <:+: log → reset ∉ stretch → stretch.count event ≤ 1

/-- No `event` behind the last `reset`. -/
def Rearmed (event reset : α) (log : List α) : Prop :=
  ∀ stretch, stretch <:+ log → reset ∉ stretch → event ∉ stretch

theorem rearmed_of_not_mem (h : event ∉ log) : Rearmed event reset log :=
  fun _ hstretch _ hevent => h (hstretch.subset hevent)

theorem Rearmed.concat (h : Rearmed event reset log) (hne : e ≠ event) :
    Rearmed event reset (log ++ [e]) := by
  intro stretch hstretch hreset hevent
  rcases List.suffix_concat_iff.mp hstretch with rfl | ⟨front, rfl, hfront⟩
  · cases hevent
  · rcases List.mem_append.mp hevent with hmem | hmem
    · exact h front hfront (fun hmem => hreset (List.mem_append_left _ hmem)) hmem
    · exact hne (List.mem_singleton.mp hmem).symm

/-- A reset arms the event. -/
theorem rearmed_concat_reset : Rearmed event reset (log ++ [reset]) := by
  intro stretch hstretch hreset hevent
  rcases List.suffix_concat_iff.mp hstretch with rfl | ⟨front, rfl, _⟩
  · cases hevent
  · exact hreset (List.mem_append_right _ List.mem_cons_self)

variable [DecidableEq α]

theorem onceBetween_nil : OnceBetween event reset [] := by
  intro stretch h _
  rw [List.infix_nil.mp h]
  exact Nat.zero_le 1

/-- Another entry. -/
theorem OnceBetween.concat (h : OnceBetween event reset log) (hne : e ≠ event) :
    OnceBetween event reset (log ++ [e]) := by
  intro stretch hstretch hreset
  rcases List.infix_concat_iff.mp hstretch with hsuffix | hinfix
  · rcases List.suffix_concat_iff.mp hsuffix with rfl | ⟨front, rfl, hfront⟩
    · exact Nat.zero_le 1
    · have hold := h front hfront.isInfix fun hmem => hreset (List.mem_append_left _ hmem)
      rwa [List.count_append, List.count_singleton, if_neg (by simpa using hne), Nat.add_zero]
  · exact h stretch hinfix hreset

/-- The event, when it is armed. -/
theorem OnceBetween.concat_event (h : OnceBetween event reset log)
    (harmed : Rearmed event reset log) : OnceBetween event reset (log ++ [event]) := by
  intro stretch hstretch hreset
  rcases List.infix_concat_iff.mp hstretch with hsuffix | hinfix
  · rcases List.suffix_concat_iff.mp hsuffix with rfl | ⟨front, rfl, hfront⟩
    · exact Nat.zero_le 1
    · have hnone := harmed front hfront fun hmem => hreset (List.mem_append_left _ hmem)
      rw [List.count_append, List.count_eq_zero_of_not_mem hnone, List.count_singleton_self]
  · exact h stretch hinfix hreset

end OnceBetween

end Msai.Lib
