import Mathlib.Algebra.Order.Group.Defs
import Mathlib.Algebra.Order.Sub.Defs
import Mathlib.Data.List.Basic
import Mathlib.Order.Basic

namespace Msai.Lib

/-!
# A latch with a reminder

A condition is looked at on every tick.  It is reported on the tick on which it appears, and again
once the last report is a cooldown old; when it clears, the latch forgets its last report.

* `Reminder.next` — one tick: whether it reports, and the last report from then on;
* `Reminder.sends` — whether a tick of a list of ticks reports;
* `Reminder.state_spec` — the last report is the newest one of the occurrence that is going on;
* `Reminder.sends_iff` — which ticks report, with no word about the latch.
-/

variable {T : Type*} [AddCommGroup T] [LinearOrder T]

namespace Reminder

/-- One tick of the latch. -/
def next (cooldown now : T) (active : Bool) (last : Option T) : Bool × Option T :=
  if active then
    match last with
    | some t => if now - t < cooldown then (false, some t) else (true, some now)
    | none => (true, some now)
  else (false, none)

/-- The last report after some ticks, given by their times and whether the condition holds. -/
def state (cooldown : T) (ticks : List (T × Bool)) : Option T :=
  ticks.foldl (fun last tick => (next cooldown tick.1 tick.2 last).2) none

/-- The `n`-th tick reports. -/
def sends (cooldown : T) (ticks : List (T × Bool)) (n : ℕ) : Bool :=
  match ticks[n]? with
  | some tick => (next cooldown tick.1 tick.2 (state cooldown (ticks.take n))).1
  | none => false

/-- The condition holds on every tick from `m` up to `n`. -/
def ActiveFrom (ticks : List (T × Bool)) (m n : ℕ) : Prop :=
  ∀ i, m ≤ i → i < n → ∃ t, ticks[i]? = some (t, true)

variable {cooldown now t : T} {ticks : List (T × Bool)} {n : ℕ} {active : Bool} {last : Option T}

theorem state_take_succ {tick : T × Bool} (h : ticks[n]? = some tick) :
    state cooldown (ticks.take (n + 1)) =
      (next cooldown tick.1 tick.2 (state cooldown (ticks.take n))).2 := by
  have htake : ticks.take (n + 1) = ticks.take n ++ [tick] := by
    rw [List.take_add_one, h, Option.toList_some]
  rw [htake, state, List.foldl_append]
  rfl

theorem sends_of_getElem? {tick : T × Bool} (h : ticks[n]? = some tick) :
    sends cooldown ticks n =
      (next cooldown tick.1 tick.2 (state cooldown (ticks.take n))).1 := by
  rw [sends, h]

/-- A tick reports if the condition holds and the last report is old or missing. -/
theorem next_fst : (next cooldown now active last).1 = true ↔
    active = true ∧ ∀ t ∈ last, ¬now - t < cooldown := by
  unfold next
  cases active with
  | false => simp
  | true =>
    cases last with
    | none => simp
    | some t =>
      by_cases hrecent : now - t < cooldown
      · simp [hrecent]
      · simp [hrecent, not_lt.mp hrecent]

/-- What the latch keeps. -/
theorem next_snd : (next cooldown now active last).2 =
    if active = false then none
    else if (next cooldown now active last).1 = true then some now else last := by
  unfold next
  cases active with
  | false => rfl
  | true =>
    cases last with
    | none => rfl
    | some t =>
      by_cases hrecent : now - t < cooldown
      · simp [hrecent]
      · simp [hrecent]

/-- The latch has the newest report of the occurrence that is going on, or there is none. -/
theorem state_spec (hn : n ≤ ticks.length) :
    match state cooldown (ticks.take n) with
    | none => ∀ m < n, ActiveFrom ticks m n → sends cooldown ticks m = false
    | some t => ∃ m < n, ActiveFrom ticks m n ∧ sends cooldown ticks m = true ∧
        (∃ a, ticks[m]? = some (t, a)) ∧
        ∀ m' < n, ActiveFrom ticks m' n → sends cooldown ticks m' = true → m' ≤ m := by
  induction n with
  | zero => exact fun m hm => absurd hm (Nat.not_lt_zero m)
  | succ n ih =>
    obtain ⟨⟨now, active⟩, htick⟩ : ∃ tick, ticks[n]? = some tick :=
      ⟨ticks[n], List.getElem?_eq_getElem (by omega)⟩
    have ih := ih (by omega)
    rw [state_take_succ htick, next_snd]
    have hsends := @sends_of_getElem? _ _ _ cooldown _ _ _ htick
    -- an occurrence up to here goes through the last tick
    have hactive : ∀ m < n + 1, ActiveFrom ticks m (n + 1) → active = true := by
      intro m hm hfrom
      obtain ⟨t, ht⟩ := hfrom n (by omega) (by omega)
      rw [htick] at ht
      exact (Prod.mk.inj (Option.some.inj ht)).2
    have hbefore : ∀ m, ActiveFrom ticks m (n + 1) → ActiveFrom ticks m n :=
      fun m hfrom i hlow hhigh => hfrom i hlow (by omega)
    have hextend : active = true → ∀ m, ActiveFrom ticks m n → ActiveFrom ticks m (n + 1) := by
      intro hact m hfrom i hlow hhigh
      rcases Nat.lt_succ_iff_lt_or_eq.mp hhigh with hlt | rfl
      · exact hfrom i hlow hlt
      · exact ⟨now, by rw [htick, hact]⟩
    by_cases hidle : active = false
    · rw [if_pos hidle]
      intro m hm hfrom
      exact absurd ((hactive m hm hfrom).symm.trans hidle) (by decide)
    · rw [if_neg hidle]
      have hact : active = true := by simpa using hidle
      by_cases hsent : (next cooldown now active (state cooldown (ticks.take n))).1 = true
      · -- the last tick reports
        rw [if_pos hsent]
        refine ⟨n, Nat.lt_succ_self n, ?_, hsends.trans hsent, ⟨active, htick⟩, ?_⟩
        · exact hextend hact n fun i hlow hhigh => absurd hlow (by omega)
        · exact fun m' hm' _ _ => Nat.lt_succ_iff.mp hm'
      · rw [if_neg hsent]
        have hquiet : sends cooldown ticks n = false := by
          rw [hsends]
          exact Bool.eq_false_iff.mpr hsent
        cases hstate : state cooldown (ticks.take n) with
        | none =>
          rw [hstate] at ih
          intro m hm hfrom
          rcases Nat.lt_succ_iff_lt_or_eq.mp hm with hlt | rfl
          · exact ih m hlt (hbefore m hfrom)
          · exact hquiet
        | some t =>
          rw [hstate] at ih
          obtain ⟨m, hm, hfrom, hm_sends, htime, hnewest⟩ := ih
          refine ⟨m, by omega, hextend hact m hfrom, hm_sends, htime, ?_⟩
          intro m' hm' hfrom' hsends'
          rcases Nat.lt_succ_iff_lt_or_eq.mp hm' with hlt | rfl
          · exact hnewest m' hlt (hbefore m' hfrom') hsends'
          · rw [hquiet] at hsends'
            cases hsends'

/-- **Which ticks report.**  The times do not go back.  A tick reports exactly if the condition
    holds on it, and the reports of the same occurrence before it are a cooldown old. -/
theorem sends_iff [IsOrderedAddMonoid T] (hsorted : ticks.Pairwise fun p q => p.1 ≤ q.1)
    (htick : ticks[n]? = some (now, active)) :
    sends cooldown ticks n = true ↔ active = true ∧
      ∀ m < n, ∀ t a, ticks[m]? = some (t, a) → ActiveFrom ticks m n →
        sends cooldown ticks m = true → cooldown ≤ now - t := by
  have hn : n < ticks.length := (List.getElem?_eq_some_iff.mp htick).1
  have hspec := @state_spec _ _ _ cooldown _ _ hn.le
  rw [sends_of_getElem? htick, next_fst]
  apply and_congr_right
  intro hact
  constructor
  · intro hold m hm t a ht hfrom hsends
    cases hstate : state cooldown (ticks.take n) with
    | none =>
      rw [hstate] at hspec
      rw [hspec m hm hfrom] at hsends
      cases hsends
    | some t₀ =>
      rw [hstate] at hspec hold
      obtain ⟨m₀, hm₀, _, _, ⟨a₀, ht₀⟩, hnewest⟩ := hspec
      have hle : t ≤ t₀ := by
        rcases Nat.eq_or_lt_of_le (hnewest m hm hfrom hsends) with rfl | hlt
        · rw [ht₀] at ht
          exact le_of_eq (congrArg Prod.fst (Option.some.inj ht)).symm
        · obtain ⟨hml, hmget⟩ := List.getElem?_eq_some_iff.mp ht
          obtain ⟨hml₀, hmget₀⟩ := List.getElem?_eq_some_iff.mp ht₀
          have := List.pairwise_iff_getElem.mp hsorted m m₀ hml hml₀ hlt
          rwa [hmget, hmget₀] at this
      calc cooldown ≤ now - t₀ := not_lt.mp (hold t₀ rfl)
        _ ≤ now - t := sub_le_sub_left hle now
  · intro hold t ht
    rw [Option.mem_def] at ht
    rw [ht] at hspec
    obtain ⟨m, hm, hfrom, hsends, ⟨a, htime⟩, _⟩ := hspec
    exact not_lt.mpr (hold m hm t a htime hfrom hsends)

end Reminder

end Msai.Lib
