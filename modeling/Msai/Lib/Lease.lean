import Msai.Lib.KeyValue

namespace Msai.Lib

/-!
# Leases on the keys of a store

A caller claims a key with `SET NX EX` and a token of its own, and gives it back with a script that
deletes the key if it still has that token.  A lease is what the caller remembers: the key, and the
slot that it has set.

* `KeyValue.compareAndDelete` — the script;
* `Lease.Backed` — a lease that has not run out is what the store has under its key;
* `Lease.Backed.setNx`, `Lease.Backed.compareAndDelete`, `Lease.Backed.later` — the commands of
  other callers and the clock keep it so;
* `Lease.Backed.unique` — two leases on one key that have not run out are one.
-/

universe u v

variable {K : Type u} {V : Type v}

/-- A key and the slot that a caller has set there. -/
structure Lease (K : Type u) (V : Type v) where
  key : K
  slot : Slot V
deriving DecidableEq, Repr

/-- The lease has not run out at `now`. -/
def Lease.Running (l : Lease K V) (now : ℕ) : Prop := l.slot.live now = true

instance (l : Lease K V) (now : ℕ) : Decidable (l.Running now) :=
  inferInstanceAs (Decidable (l.slot.live now = true))

/-- A lease that has not run out is what the store has under its key. -/
def Lease.Backed (kv : KeyValue K V) (now : ℕ) (l : Lease K V) : Prop :=
  l.Running now → kv l.key = some l.slot

/-- The lease that a claim sets. -/
def Lease.claimed (now : ℕ) (k : K) (v : V) (ex : ℕ) : Lease K V :=
  ⟨k, ⟨v, some (now + 1000 * ex)⟩⟩

namespace KeyValue

/-- `if get(k) == v then return del(k) else return 0 end`. -/
def compareAndDelete [DecidableEq K] [DecidableEq V] (kv : KeyValue K V) (now : ℕ) (k : K)
    (v : V) : Bool × KeyValue K V :=
  if kv.get now k = some v then (true, kv.del k) else (false, kv)

end KeyValue

namespace Lease

variable {kv : KeyValue K V} {now : ℕ} {k : K} {v : V} {l l' : Lease K V}

/-- Time runs leases out. -/
theorem Running.before {now' : ℕ} (hle : now ≤ now') (h : l.Running now') : l.Running now :=
  KeyValue.live_of_le hle h

theorem Backed.later {now' : ℕ} (h : l.Backed kv now) (hle : now ≤ now') : l.Backed kv now' :=
  fun hrunning => h (hrunning.before hle)

/-- Two leases on one key that have not run out are one. -/
theorem Backed.unique (h : l.Backed kv now) (h' : l'.Backed kv now) (hkey : l.key = l'.key)
    (hrunning : l.Running now) (hrunning' : l'.Running now) : l = l' := by
  have hslot := h hrunning
  rw [hkey, h' hrunning'] at hslot
  cases l
  cases l'
  simp_all

variable [DecidableEq K]

/-- A claim that succeeds is backed. -/
theorem backed_of_setNx {ex : ℕ} (h : (kv.setNx now k v ex).1 = true) :
    (claimed now k v ex).Backed (kv.setNx now k v ex).2 now := by
  obtain ⟨s, _, hset⟩ | ⟨_, hset⟩ := @KeyValue.setNx_cases K V kv now k v _ ex
  · rw [hset] at h
    cases h
  · intro _
    rw [hset]
    exact KeyValue.set_same

/-- A claim leaves the leases that have not run out alone: it fails on their keys. -/
theorem Backed.setNx {ex : ℕ} (h : l.Backed kv now) : l.Backed (kv.setNx now k v ex).2 now := by
  intro hrunning
  obtain ⟨s, _, hset⟩ | ⟨hfree, hset⟩ := @KeyValue.setNx_cases K V kv now k v _ ex
  · rw [hset]
    exact h hrunning
  · rw [hset]
    have hne : l.key ≠ k := by
      rintro rfl
      have hseen := KeyValue.slotAt_eq_some.mpr ⟨h hrunning, hrunning⟩
      rw [hfree] at hseen
      cases hseen
    show kv.set now k v (some ex) l.key = some l.slot
    rw [KeyValue.set_other hne]
    exact h hrunning

/-- The script leaves the leases with other tokens alone. -/
theorem Backed.compareAndDelete [DecidableEq V] (h : l.Backed kv now)
    (hother : l.key = k → l.slot.value ≠ v) :
    l.Backed (kv.compareAndDelete now k v).2 now := by
  intro hrunning
  unfold KeyValue.compareAndDelete
  split
  · rename_i hget
    obtain ⟨s, hs, hvalue⟩ := KeyValue.get_eq_some.mp hget
    have hne : l.key ≠ k := by
      intro hkey
      have hslot := (KeyValue.slotAt_eq_some.mp hs).1
      rw [← hkey, h hrunning] at hslot
      exact hother hkey (by rw [Option.some.inj hslot, hvalue])
    show kv.del k l.key = some l.slot
    rw [KeyValue.del_other hne]
    exact h hrunning
  · exact h hrunning

end Lease

end Msai.Lib
