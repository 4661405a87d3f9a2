import Mathlib.Logic.Function.Basic
import Mathlib.Order.Basic

namespace Msai.Lib

/-!
# A key-value store with expiring keys

The fragment of Redis strings a service needs for reservations, latches and published
values: `GET`, `SET [EX]`, `SET NX EX` and `DEL`.  Time is a natural number of
milliseconds; a key written with `EX` is visible strictly before its deadline, and a key
past its deadline reads as missing and may be claimed by `SET NX`.

The store itself never changes as time passes: expiry is a matter of reading.
-/

universe u v

variable {K : Type u} {V : Type v}

/-- A stored value and its deadline (`none`: the key does not expire). -/
structure Slot (V : Type v) where
  value : V
  expiresAt : Option ℕ
deriving DecidableEq, Repr

/-- The slot can still be read at `now`. -/
def Slot.live (now : ℕ) (s : Slot V) : Bool :=
  match s.expiresAt with
  | none => true
  | some d => decide (now < d)

/-- A store maps every key to at most one slot. -/
abbrev KeyValue (K : Type u) (V : Type v) := K → Option (Slot V)

namespace KeyValue

/-- The store without keys. -/
def empty : KeyValue K V := fun _ => none

/-- The slot a command sees at `now`. -/
def slotAt (kv : KeyValue K V) (now : ℕ) (k : K) : Option (Slot V) :=
  (kv k).filter (·.live now)

/-- `GET k`. -/
def get (kv : KeyValue K V) (now : ℕ) (k : K) : Option V :=
  (kv.slotAt now k).map (·.value)

section Commands

variable [DecidableEq K]

/-- `SET k v [EX ex]`, `ex` in seconds. -/
def set (kv : KeyValue K V) (now : ℕ) (k : K) (v : V) (ex : Option ℕ) : KeyValue K V :=
  Function.update kv k (some ⟨v, ex.map fun s => now + 1000 * s⟩)

/-- `SET k v NX EX ex`: whether the key was claimed, and the store after the command. -/
def setNx (kv : KeyValue K V) (now : ℕ) (k : K) (v : V) (ex : ℕ) : Bool × KeyValue K V :=
  match kv.slotAt now k with
  | some _ => (false, kv)
  | none => (true, kv.set now k v (some ex))

/-- `DEL k`. -/
def del (kv : KeyValue K V) (k : K) : KeyValue K V :=
  Function.update kv k none

end Commands

variable {kv : KeyValue K V} {now : ℕ} {k k' : K} {v : V} {s : Slot V}

theorem slotAt_eq_some : kv.slotAt now k = some s ↔ kv k = some s ∧ s.live now = true := by
  simp only [slotAt, Option.filter_eq_some_iff]

/-- A key that can be read at a time could be read before. -/
theorem live_of_le {s : Slot V} {now' : ℕ} (hle : now ≤ now') (h : s.live now' = true) :
    s.live now = true := by
  unfold Slot.live at h ⊢
  split
  · rfl
  · rename_i d hd
    rw [hd] at h
    exact decide_eq_true (Nat.lt_of_le_of_lt hle (of_decide_eq_true h))

theorem get_eq_some : kv.get now k = some v ↔ ∃ s, kv.slotAt now k = some s ∧ s.value = v :=
  Option.map_eq_some_iff

variable [DecidableEq K]

@[simp] theorem set_same {ex : Option ℕ} :
    kv.set now k v ex k = some ⟨v, ex.map fun s => now + 1000 * s⟩ :=
  Function.update_self ..

theorem set_other {ex : Option ℕ} (h : k' ≠ k) : kv.set now k v ex k' = kv k' :=
  Function.update_of_ne h ..

@[simp] theorem del_same : kv.del k k = none :=
  Function.update_self ..

theorem del_other (h : k' ≠ k) : kv.del k k' = kv k' :=
  Function.update_of_ne h ..

/-- `SET NX` claims the key exactly when nothing is visible under it. -/
theorem setNx_cases {ex : ℕ} :
    (∃ s, kv.slotAt now k = some s ∧ kv.setNx now k v ex = (false, kv)) ∨
    (kv.slotAt now k = none ∧ kv.setNx now k v ex = (true, kv.set now k v (some ex))) := by
  unfold setNx
  cases h : kv.slotAt now k with
  | some s => exact .inl ⟨s, rfl, rfl⟩
  | none => exact .inr ⟨rfl, rfl⟩

end KeyValue

end Msai.Lib
