import Mathlib.Data.Int.Order.Basic
import Mathlib.Data.List.Chain
import Msai.Lib.Transition

namespace Msai.Live.DisconnectHandler

open Msai.Lib Msai.Lib.TransitionSystem

/-!
# The disconnect handler (`services/nautilus/disconnect_handler.py`)

A live node polls its connection to the broker.  When it has been down for the grace, the handler
writes the fleet halt, in five attempts at most, and calls `on_halt`; then it is done.

* `handlerSystem` — `IBDisconnectHandler.run` and `_fire_halt`, beside any provider of the
  connection state, any times of the polls, and any answers of Redis;
* `DownFor` — the outages that the polls have seen;
* `Watched` — the invariant: the timer stands at the first poll of the outage that is going on;
* `fired_iff_downFor` — the handler fires exactly on such an outage, and what it has done then;
* `watching_outage_lt` — the real outages that it may miss.

Times are integers of any unit.
-/

/-! ### The loop -/

/-- Where the handler is.  `stopped`: the loop ends before it has fired. -/
inductive Phase
  | watching
  /-- In `_fire_halt`, after so many attempts that have failed. -/
  | halting (failed : ℕ)
  | callingOnHalt
  | returned
  | stopped
deriving DecidableEq, Repr

/-- `HALT_SET_MAX_ATTEMPTS`. -/
def haltSetMaxAttempts : ℕ := 5

/-- The handler, what the polls have seen (their times, and whether the broker was connected), how
    often Redis has executed the script, how many attempts have failed, and the calls of
    `on_halt`. -/
structure Handler where
  disconnectedSince : Option ℤ
  phase : Phase
  polls : List (ℤ × Bool)
  written : ℕ
  failures : ℕ
  onHaltCalls : ℕ
deriving DecidableEq, Repr

def Handler.initial : Handler where
  disconnectedSince := none
  phase := .watching
  polls := []
  written := 0
  failures := 0
  onHaltCalls := 0

inductive Label
  /-- A round of the loop; the provider answers or raises (`none`). -/
  | poll (now : ℤ) (isConnected : Option Bool)
  /-- An attempt of `_fire_halt`: Redis executes the script or not, and the call returns or
      raises. -/
  | attempt (executed raised : Bool)
  /-- `on_halt`, whose exceptions are swallowed. -/
  | onHalt
  /-- `stop_event` is set. -/
  | stop
deriving DecidableEq, Repr

/-- `_safe_check_connection`. -/
def safeCheckConnection (isConnected : Option Bool) : Bool := isConnected.getD false

/-- The body of the loop in `run`. -/
def Handler.observe (h : Handler) (graceSeconds now : ℤ) (connected : Bool) : Handler :=
  let h := { h with polls := h.polls ++ [(now, connected)] }
  if connected then { h with disconnectedSince := none }
  else
    match h.disconnectedSince with
    | none => { h with disconnectedSince := some now }
    | some since => if graceSeconds ≤ now - since then { h with phase := .halting 0 } else h

def handlerStep (graceSeconds : ℤ) (h : Handler) : Label → Option Handler
  | .poll now isConnected =>
    -- the clock of the loop does not go back
    if h.phase = .watching ∧ ∀ p ∈ h.polls.getLast?, p.1 ≤ now then
      some (h.observe graceSeconds now (safeCheckConnection isConnected))
    else none
  | .attempt executed raised =>
    match h.phase with
    | .halting failed =>
      if raised then
        some
          { h with
            written := h.written + executed.toNat
            failures := h.failures + 1
            phase := if failed + 1 < haltSetMaxAttempts then .halting (failed + 1)
              else .callingOnHalt }
      else
        -- a reply comes from Redis that has executed the script
        if executed then some { h with written := h.written + 1, phase := .callingOnHalt }
        else none
    | _ => none
  | .onHalt =>
    if h.phase = .callingOnHalt then
      some { h with onHaltCalls := h.onHaltCalls + 1, phase := .returned }
    else none
  | .stop => if h.phase = .watching then some { h with phase := .stopped } else none

def handlerSystem (graceSeconds : ℤ) : TransitionSystem Handler Label := ⟨handlerStep graceSeconds⟩

/-- The handler has fired. -/
def Handler.fired (h : Handler) : Bool :=
  match h.phase with
  | .watching | .stopped => false
  | .halting _ | .callingOnHalt | .returned => true

/-- From poll `i` to a later poll `j` the broker was not connected, for the grace or longer. -/
def DownFor (graceSeconds : ℤ) (polls : List (ℤ × Bool)) (i j : ℕ) : Prop :=
  i < j ∧ (∀ k, i ≤ k → k ≤ j → ∃ t, polls[k]? = some (t, false)) ∧
    ∃ p q, polls[i]? = some p ∧ polls[j]? = some q ∧ graceSeconds ≤ q.1 - p.1

/-! ### The timer -/

/-- The timer stands at the first poll of the outage that is going on, if there is one. -/
def TimerAt (polls : List (ℤ × Bool)) : Option ℤ → Prop
  | none => ∀ p ∈ polls.getLast?, p.2 = true
  | some since =>
    ∃ i, polls[i]? = some (since, false) ∧
      (∀ k, i ≤ k → k < polls.length → ∃ t, polls[k]? = some (t, false)) ∧
      (i = 0 ∨ ∃ t, polls[i - 1]? = some (t, true))

/-- What holds in every state. -/
structure Watched (graceSeconds : ℤ) (h : Handler) : Prop where
  sorted : h.polls.Pairwise fun p q => p.1 ≤ q.1
  timer : h.fired = false → TimerAt h.polls h.disconnectedSince
  quiet : h.fired = false → ∀ i j, ¬DownFor graceSeconds h.polls i j
  fires : h.fired = true → ∃ i, DownFor graceSeconds h.polls i (h.polls.length - 1)
  idle : h.fired = false → h.written = 0 ∧ h.failures = 0 ∧ h.onHaltCalls = 0
  halting : ∀ failed, h.phase = .halting failed → h.failures = failed ∧
    failed < haltSetMaxAttempts ∧ h.onHaltCalls = 0
  calling : h.phase = .callingOnHalt →
    (0 < h.written ∨ h.failures = haltSetMaxAttempts) ∧ h.onHaltCalls = 0
  returned : h.phase = .returned →
    (0 < h.written ∨ h.failures = haltSetMaxAttempts) ∧ h.onHaltCalls = 1

section Steps

variable {graceSeconds now since : ℤ} {h h' : Handler} {a : Label} {polls : List (ℤ × Bool)}
  {connected : Bool} {i j : ℕ}

theorem Watched.initial : Watched graceSeconds .initial where
  sorted := List.Pairwise.nil
  timer _ := by simp [TimerAt, Handler.initial]
  quiet _ i j hdown := by
    obtain ⟨_, _, p, _, hp, _⟩ := hdown
    simp [Handler.initial] at hp
  fires hfired := nomatch hfired
  idle _ := ⟨rfl, rfl, rfl⟩
  halting _ hphase := nomatch hphase
  calling hphase := nomatch hphase
  returned hphase := nomatch hphase

/-- Times that do not go back. -/
theorem sorted_concat (hsorted : polls.Pairwise fun p q => p.1 ≤ q.1)
    (hnow : ∀ p ∈ polls.getLast?, p.1 ≤ now) :
    (polls ++ [(now, connected)]).Pairwise fun p q => p.1 ≤ q.1 := by
  refine List.pairwise_append.mpr ⟨hsorted, List.pairwise_singleton _ _, ?_⟩
  intro p hp q hq
  rw [List.mem_singleton.mp hq]
  rcases List.eq_nil_or_concat' polls with rfl | ⟨front, last, rfl⟩
  · exact absurd hp List.not_mem_nil
  · have hlast : last.1 ≤ now := hnow last (by simp)
    rcases List.mem_append.mp hp with hp | hp
    · exact le_trans ((List.pairwise_append.mp hsorted).2.2 p hp last (by simp)) hlast
    · rw [List.mem_singleton.mp hp]
      exact hlast

/-- An outage of an extended list is an old one, or ends with the new poll. -/
theorem DownFor.of_concat (hdown : DownFor graceSeconds (polls ++ [(now, connected)]) i j) :
    DownFor graceSeconds polls i j ∨ (j = polls.length ∧ connected = false) := by
  obtain ⟨hlt, hrange, p, q, hp, hq, hgrace⟩ := hdown
  have hj : j < polls.length + 1 := by
    have := (List.getElem?_eq_some_iff.mp hq).1
    simpa using this
  rcases Nat.lt_or_ge j polls.length with hold | hnew
  · left
    refine ⟨hlt, fun k hik hkj => ?_, p, q, ?_, ?_, hgrace⟩
    · obtain ⟨t, ht⟩ := hrange k hik hkj
      exact ⟨t, by rwa [List.getElem?_append_left (by omega)] at ht⟩
    · rwa [List.getElem?_append_left (by omega)] at hp
    · rwa [List.getElem?_append_left hold] at hq
  · right
    obtain rfl : j = polls.length := by omega
    obtain ⟨t, ht⟩ := hrange polls.length (by omega) (Nat.le_refl _)
    rw [List.getElem?_concat_length, Option.some.injEq, Prod.mk.injEq] at ht
    exact ⟨rfl, ht.2⟩

/-- The timer at the first poll of the outage measures the longest one that ends now. -/
theorem TimerAt.le_of_down (hsorted : polls.Pairwise fun p q => p.1 ≤ q.1)
    (htimer : TimerAt polls (some since)) (hi : i < polls.length)
    (hrange : ∀ k, i ≤ k → k < polls.length → ∃ t, polls[k]? = some (t, false))
    {p : ℤ × Bool} (hp : polls[i]? = some p) : since ≤ p.1 := by
  obtain ⟨i₀, hsince, _, hfirst⟩ := htimer
  have hle : i₀ ≤ i := by
    by_contra hlt
    rcases hfirst with rfl | ⟨t, ht⟩
    · omega
    · -- the poll before the timer was connected
      obtain ⟨t', ht'⟩ := hrange (i₀ - 1) (by omega) (by
        have := (List.getElem?_eq_some_iff.mp hsince).1
        omega)
      rw [ht] at ht'
      cases ht'
  rcases Nat.eq_or_lt_of_le hle with rfl | hlt
  · rw [hsince] at hp
    exact le_of_eq (congrArg Prod.fst (Option.some.inj hp))
  · obtain ⟨hi₀, hget₀⟩ := List.getElem?_eq_some_iff.mp hsince
    obtain ⟨hi', hget⟩ := List.getElem?_eq_some_iff.mp hp
    have := List.pairwise_iff_getElem.mp hsorted i₀ i hi₀ hi' hlt
    rw [hget₀, hget] at this
    exact this

/-- A connected poll ends the outage. -/
theorem timerAt_connected : TimerAt (polls ++ [(now, true)]) none := by
  intro p hp
  rw [List.getLast?_concat, Option.mem_some_iff] at hp
  rw [← hp]

/-- An outage begins. -/
theorem TimerAt.started (htimer : TimerAt polls none) :
    TimerAt (polls ++ [(now, false)]) (some now) := by
  refine ⟨polls.length, List.getElem?_concat_length, ?_, ?_⟩
  · intro k hlow hhigh
    rw [List.length_append, List.length_singleton] at hhigh
    obtain rfl : k = polls.length := by omega
    exact ⟨now, List.getElem?_concat_length⟩
  · rcases List.eq_nil_or_concat' polls with rfl | ⟨front, last, rfl⟩
    · exact Or.inl rfl
    · right
      have hlast : last.2 = true := htimer last (by simp)
      refine ⟨last.1, ?_⟩
      rw [List.getElem?_append_left (by simp)]
      simp [← hlast]

/-- An outage goes on. -/
theorem TimerAt.continued (htimer : TimerAt polls (some since)) :
    TimerAt (polls ++ [(now, false)]) (some since) := by
  obtain ⟨i, hi, hrange, hfirst⟩ := htimer
  have hlt : i < polls.length := (List.getElem?_eq_some_iff.mp hi).1
  refine ⟨i, by rwa [List.getElem?_append_left hlt], ?_, ?_⟩
  · intro k hlow hhigh
    rw [List.length_append, List.length_singleton] at hhigh
    rcases Nat.lt_or_ge k polls.length with hk | hk
    · rw [List.getElem?_append_left hk]
      exact hrange k hlow hk
    · obtain rfl : k = polls.length := by omega
      exact ⟨now, List.getElem?_concat_length⟩
  · rw [List.getElem?_append_left (by omega)]
    exact hfirst

/-- What an outage that ends with a new poll says of the polls before. -/
theorem DownFor.before (hdown : DownFor graceSeconds (polls ++ [(now, false)]) i polls.length) :
    i < polls.length ∧ (∀ k, i ≤ k → k < polls.length → ∃ t, polls[k]? = some (t, false)) ∧
      ∃ p, polls[i]? = some p ∧ graceSeconds ≤ now - p.1 := by
  obtain ⟨hlt, hrange, p, q, hp, hq, hgrace⟩ := hdown
  rw [List.getElem?_append_left hlt] at hp
  rw [List.getElem?_concat_length, Option.some.injEq] at hq
  refine ⟨hlt, fun k hlow hhigh => ?_, p, hp, by rwa [← hq] at hgrace⟩
  obtain ⟨t, ht⟩ := hrange k hlow (by omega)
  exact ⟨t, by rwa [List.getElem?_append_left hhigh] at ht⟩

/-- The handler goes on watching. -/
theorem Watched.watching (hw : Watched graceSeconds h) (hphase : h.phase = .watching)
    (hnow : ∀ p ∈ h.polls.getLast?, p.1 ≤ now) {timer : Option ℤ}
    (htimer : TimerAt (h.polls ++ [(now, connected)]) timer)
    (hquiet : connected = false → ∀ i, ¬DownFor graceSeconds (h.polls ++ [(now, connected)]) i
      h.polls.length) :
    Watched graceSeconds
      { h with polls := h.polls ++ [(now, connected)], disconnectedSince := timer } where
  sorted := sorted_concat hw.sorted hnow
  timer _ := htimer
  quiet _ i j hdown := by
    have hfired : h.fired = false := by rw [Handler.fired, hphase]
    rcases hdown.of_concat with hold | ⟨rfl, hconnected⟩
    · exact hw.quiet hfired i j hold
    · exact hquiet hconnected i hdown
  fires hfired := by
    have hfired : h.fired = true := hfired
    rw [Handler.fired, hphase] at hfired
    cases hfired
  idle := hw.idle
  halting := hw.halting
  calling := hw.calling
  returned := hw.returned

/-- The handler fires. -/
theorem Watched.fire (hw : Watched graceSeconds h) (hphase : h.phase = .watching)
    (hnow : ∀ p ∈ h.polls.getLast?, p.1 ≤ now) (htimer : TimerAt h.polls (some since))
    (hgrace : graceSeconds ≤ now - since) :
    Watched graceSeconds
      { h with polls := h.polls ++ [(now, false)], phase := .halting 0 } where
  sorted := sorted_concat hw.sorted hnow
  timer hfired := nomatch hfired
  quiet hfired := nomatch hfired
  fires _ := by
    obtain ⟨i, hi, hrange, _⟩ := htimer
    have hlt : i < h.polls.length := (List.getElem?_eq_some_iff.mp hi).1
    refine ⟨i, ?_⟩
    show DownFor graceSeconds _ i ((h.polls ++ [(now, false)]).length - 1)
    rw [List.length_append, List.length_singleton, Nat.add_sub_cancel]
    refine ⟨hlt, fun k hlow hhigh => ?_, (since, false), (now, false), ?_,
      List.getElem?_concat_length, hgrace⟩
    · rcases Nat.eq_or_lt_of_le hhigh with rfl | hk
      · exact ⟨now, List.getElem?_concat_length⟩
      · rw [List.getElem?_append_left hk]
        exact hrange k hlow hk
    · rwa [List.getElem?_append_left hlt]
  idle hfired := nomatch hfired
  halting failed hhalting := by
    obtain rfl : 0 = failed := by injection hhalting
    obtain ⟨_, hfailures, hcalls⟩ := hw.idle (by rw [Handler.fired, hphase])
    exact ⟨hfailures, by decide, hcalls⟩
  calling hcalling := nomatch hcalling
  returned hreturned := nomatch hreturned

/-- A round of the loop. -/
theorem Watched.observe (hw : Watched graceSeconds h) (hphase : h.phase = .watching)
    (hnow : ∀ p ∈ h.polls.getLast?, p.1 ≤ now) :
    Watched graceSeconds (h.observe graceSeconds now connected) := by
  have htimer := hw.timer (by rw [Handler.fired, hphase])
  cases connected with
  | true => exact hw.watching hphase hnow timerAt_connected fun hfalse => nomatch hfalse
  | false =>
    rw [Handler.observe, if_neg Bool.false_ne_true]
    cases hsince : h.disconnectedSince with
    | none =>
      rw [hsince] at htimer
      refine hw.watching hphase hnow htimer.started fun _ i hdown => ?_
      -- the last poll was connected, or there was none
      obtain ⟨hlt, hrange, _⟩ := hdown.before
      obtain ⟨t, ht⟩ := hrange (h.polls.length - 1) (by omega) (by omega)
      have hlast := htimer (t, false) (by rw [List.getLast?_eq_getElem?]; exact ht)
      cases hlast
    | some since =>
      rw [hsince] at htimer
      simp only []
      split
      · rename_i hgrace
        rw [← hsince]
        exact hw.fire hphase hnow htimer hgrace
      · rename_i hgrace
        rw [← hsince]
        refine hw.watching hphase hnow (hsince ▸ htimer.continued) fun _ i hdown => ?_
        obtain ⟨hlt, hrange, p, hp, hlong⟩ := hdown.before
        have hle := htimer.le_of_down hw.sorted hlt hrange hp
        omega

/-- The handler leaves the loop before it has fired. -/
theorem Watched.stop (hw : Watched graceSeconds h) (hphase : h.phase = .watching) :
    Watched graceSeconds { h with phase := .stopped } := by
  have hfired : h.fired = false := by rw [Handler.fired, hphase]
  exact ⟨hw.sorted, fun _ => hw.timer hfired, fun _ => hw.quiet hfired, nofun,
    fun _ => hw.idle hfired, nofun, nofun, nofun⟩

/-- `_fire_halt` goes on, with the polls as they are. -/
theorem Watched.firing (hw : Watched graceSeconds h) (hfired : h.fired = true)
    (hpolls : h'.polls = h.polls) (hfired' : h'.fired = true)
    (hhalting : ∀ failed, h'.phase = .halting failed → h'.failures = failed ∧
      failed < haltSetMaxAttempts ∧ h'.onHaltCalls = 0)
    (hcalling : h'.phase = .callingOnHalt →
      (0 < h'.written ∨ h'.failures = haltSetMaxAttempts) ∧ h'.onHaltCalls = 0)
    (hreturned : h'.phase = .returned →
      (0 < h'.written ∨ h'.failures = haltSetMaxAttempts) ∧ h'.onHaltCalls = 1) :
    Watched graceSeconds h' where
  sorted := hpolls ▸ hw.sorted
  timer hnew := absurd (hfired'.symm.trans hnew) (by decide)
  quiet hnew := absurd (hfired'.symm.trans hnew) (by decide)
  fires _ := hpolls ▸ hw.fires hfired
  idle hnew := absurd (hfired'.symm.trans hnew) (by decide)
  halting := hhalting
  calling := hcalling
  returned := hreturned

/-- An attempt to write the halt. -/
theorem Watched.attempt (hw : Watched graceSeconds h) {executed raised : Bool}
    (hstep : handlerStep graceSeconds h (.attempt executed raised) = some h') :
    Watched graceSeconds h' := by
  simp only [handlerStep] at hstep
  split at hstep
  · rename_i failed hphase
    have hfired : h.fired = true := by rw [Handler.fired, hphase]
    obtain ⟨hfailures, hlt, hcalls⟩ := hw.halting failed hphase
    split at hstep
    · obtain rfl := Option.some.inj hstep
      by_cases hmore : failed + 1 < haltSetMaxAttempts
      · simp only [if_pos hmore]
        refine hw.firing hfired rfl rfl ?_ (fun hnew => nomatch hnew) (fun hnew => nomatch hnew)
        rintro _ ⟨⟩
        exact ⟨congrArg (· + 1) hfailures, hmore, hcalls⟩
      · simp only [if_neg hmore]
        refine hw.firing hfired rfl rfl (fun _ hnew => nomatch hnew) ?_ (fun hnew => nomatch hnew)
        intro _
        refine ⟨Or.inr ?_, hcalls⟩
        show h.failures + 1 = haltSetMaxAttempts
        omega
    · split at hstep
      · obtain rfl := Option.some.inj hstep
        exact hw.firing hfired rfl rfl (fun _ hnew => nomatch hnew)
          (fun _ => ⟨Or.inl (Nat.succ_pos _), hcalls⟩) (fun hnew => nomatch hnew)
      · cases hstep
  · cases hstep

/-- **Step.** -/
theorem Watched.step (hw : Watched graceSeconds h)
    (hstep : handlerStep graceSeconds h a = some h') : Watched graceSeconds h' := by
  cases a with
  | poll now isConnected =>
    simp only [handlerStep] at hstep
    split at hstep
    · rename_i hmay
      obtain rfl := Option.some.inj hstep
      exact hw.observe hmay.1 hmay.2
    · cases hstep
  | attempt executed raised => exact hw.attempt hstep
  | onHalt =>
    simp only [handlerStep] at hstep
    split at hstep
    · rename_i hphase
      obtain rfl := Option.some.inj hstep
      obtain ⟨hdone, hcalls⟩ := hw.calling hphase
      refine hw.firing (by rw [Handler.fired, hphase]) rfl rfl (fun _ hnew => nomatch hnew)
        (fun hnew => nomatch hnew) fun _ => ⟨hdone, ?_⟩
      show h.onHaltCalls + 1 = 1
      rw [hcalls]
    · cases hstep
  | stop =>
    simp only [handlerStep] at hstep
    split at hstep
    · rename_i hphase
      obtain rfl := Option.some.inj hstep
      exact hw.stop hphase
    · cases hstep

/-- **Run.** -/
theorem Watched.run {C : Handler → Label → Prop} {as : List Label}
    (hrun : Path (handlerSystem graceSeconds) C .initial as h) : Watched graceSeconds h :=
  hrun.invariant (fun _ _ _ hw _ hstep => hw.step hstep) .initial

end Steps

/-- **The handler fires on an outage, and only then.**  Whatever the provider answers and whenever
    the polls come: the handler has fired exactly if polls have seen the broker disconnected all
    along for the grace or longer, and the last poll of that outage is its last one.  Once it has
    returned, Redis has executed the halt script, or five attempts have raised; either way
    `on_halt` has been called, once, and never before the handler fires. -/
theorem fired_iff_downFor {graceSeconds : ℤ} {as : List Label} {h : Handler}
    (hrun : Path (handlerSystem graceSeconds) anyStep .initial as h) :
    (h.fired = true ↔ ∃ i j, DownFor graceSeconds h.polls i j) ∧
    (h.fired = true → ∃ i, DownFor graceSeconds h.polls i (h.polls.length - 1)) ∧
    (h.phase = .returned →
      (0 < h.written ∨ h.failures = haltSetMaxAttempts) ∧ h.onHaltCalls = 1) ∧
    (h.fired = false → h.written = 0 ∧ h.onHaltCalls = 0) := by
  have hw := Watched.run hrun
  refine ⟨⟨fun hfired => ?_, fun hdown => ?_⟩, hw.fires, hw.returned, fun hfired => ?_⟩
  · obtain ⟨i, hdown⟩ := hw.fires hfired
    exact ⟨i, _, hdown⟩
  · obtain ⟨i, j, hdown⟩ := hdown
    by_contra hfired
    exact hw.quiet (Bool.eq_false_iff.mpr hfired) i j hdown
  · exact ⟨(hw.idle hfired).1, (hw.idle hfired).2.2⟩

/-- A short outage, one poll that raises, and an outage of two minutes behind Redis that answers
    the third attempt. -/
def outageOfTwoMinutes : List Label :=
  [.poll 0 (some true), .poll 1 (some false), .poll 2 (some true), .poll 3 none,
    .poll 63 (some false), .poll 123 (some false), .attempt false true, .attempt true true,
    .attempt true false, .onHalt]

theorem fired_outageOfTwoMinutes : ∃ h : Handler, h.phase = .returned ∧
    (∃ i, DownFor 120 h.polls i (h.polls.length - 1)) ∧
    ((0 < h.written ∨ h.failures = haltSetMaxAttempts) ∧ h.onHaltCalls = 1) := by
  have hend : ∃ h ∈ (handlerSystem 120).run .initial outageOfTwoMinutes, h.phase = .returned := by
    decide +kernel
  obtain ⟨h, hrun, hphase⟩ := hend
  obtain ⟨_, hdown, hreturned, _⟩ := fired_iff_downFor (Path.of_run hrun)
  exact ⟨h, hphase, hdown (by rw [Handler.fired, hphase]), hreturned hphase⟩

/-! ### The real outages -/

/-- The polls read the link as it is, at most an interval after the one before. -/
def ReadsLink (link : ℤ → Bool) (interval : ℤ) (h : Handler) : Label → Prop
  | .poll now isConnected =>
    safeCheckConnection isConnected = link now ∧ ∀ p ∈ h.polls.getLast?, now ≤ p.1 + interval
  | _ => True

instance (link : ℤ → Bool) (interval : ℤ) (h : Handler) (a : Label) :
    Decidable (ReadsLink link interval h a) := by
  unfold ReadsLink
  split <;> infer_instance

/-- The polls have read the link, an interval apart or less. -/
structure Polled (link : ℤ → Bool) (interval : ℤ) (h : Handler) : Prop where
  read : ∀ p ∈ h.polls, p.2 = link p.1
  spaced : h.polls.IsChain fun p q => q.1 ≤ p.1 + interval

section Outages

variable {link : ℤ → Bool} {interval graceSeconds now : ℤ} {h h' : Handler} {a : Label}

theorem Polled.step (hp : Polled link interval h) (hC : ReadsLink link interval h a)
    (hstep : handlerStep graceSeconds h a = some h') : Polled link interval h' := by
  have hsame : h'.polls = h.polls ∨
      ∃ now isConnected, a = .poll now isConnected ∧
        h'.polls = h.polls ++ [(now, safeCheckConnection isConnected)] := by
    cases a with
    | poll now isConnected =>
      right
      refine ⟨now, isConnected, rfl, ?_⟩
      simp only [handlerStep, Handler.observe] at hstep
      repeat' split at hstep
      all_goals first
        | exact (congrArg Handler.polls (Option.some.inj hstep)).symm
        | exact absurd hstep (by simp)
    | attempt executed raised =>
      left
      simp only [handlerStep] at hstep
      repeat' split at hstep
      all_goals first
        | exact (congrArg Handler.polls (Option.some.inj hstep)).symm
        | exact absurd hstep (by simp)
    | onHalt =>
      left
      simp only [handlerStep] at hstep
      split at hstep
      · exact (congrArg Handler.polls (Option.some.inj hstep)).symm
      · cases hstep
    | stop =>
      left
      simp only [handlerStep] at hstep
      split at hstep
      · exact (congrArg Handler.polls (Option.some.inj hstep)).symm
      · cases hstep
  obtain hpolls | ⟨now, isConnected, rfl, hpolls⟩ := hsame
  · exact ⟨hpolls ▸ hp.read, hpolls ▸ hp.spaced⟩
  · refine ⟨?_, ?_⟩
    · intro q hq
      rw [hpolls] at hq
      rcases List.mem_append.mp hq with hq | hq
      · exact hp.read q hq
      · rw [List.mem_singleton.mp hq]
        exact hC.1
    · rw [hpolls]
      refine List.isChain_append.mpr ⟨hp.spaced, List.IsChain.singleton _, ?_⟩
      intro q hq q' hq'
      rw [List.head?_cons, Option.mem_some_iff] at hq'
      rw [← hq']
      exact hC.2 q hq

/-- Where the polls are an interval apart or less, one comes within an interval of any moment
    between the first and the last. -/
theorem exists_poll_near {polls : List (ℤ × Bool)} {a : ℤ} (hinterval : 0 ≤ interval)
    (hspaced : polls.IsChain fun p q => q.1 ≤ p.1 + interval)
    (hfirst : ∃ p ∈ polls.head?, p.1 ≤ a) (hlast : ∃ p ∈ polls, a ≤ p.1) :
    ∃ p ∈ polls, a ≤ p.1 ∧ p.1 ≤ a + interval := by
  induction polls with
  | nil =>
    obtain ⟨p, hp, _⟩ := hlast
    exact absurd hp List.not_mem_nil
  | cons p rest ih =>
    obtain ⟨p', hp', hle⟩ := hfirst
    rw [List.head?_cons, Option.mem_some_iff] at hp'
    rw [← hp'] at hle
    by_cases hreached : a ≤ p.1
    · exact ⟨p, List.mem_cons_self, hreached, by omega⟩
    · obtain ⟨q, hq, hlate⟩ := hlast
      have hq : q ∈ rest := by
        rcases List.mem_cons.mp hq with rfl | hq
        · exact absurd hlate hreached
        · exact hq
      cases rest with
      | nil => exact absurd hq List.not_mem_nil
      | cons next rest =>
        obtain ⟨hgap, hrest⟩ := List.isChain_cons_cons.mp hspaced
        by_cases hnext : a ≤ next.1
        · exact ⟨next, by simp, hnext, by omega⟩
        · obtain ⟨r, hr, hnear⟩ := ih hrest ⟨next, rfl, by omega⟩ ⟨q, hq, hlate⟩
          exact ⟨r, List.mem_cons_of_mem p hr, hnear⟩

end Outages

/-- **The outages that are missed are short.**  The polls read the link and come an interval apart
    or less.  Then as long as the handler has not fired, no outage that lies between its first and
    its last poll is longer than the grace and two intervals. -/
theorem watching_outage_lt {link : ℤ → Bool} {interval graceSeconds : ℤ} {as : List Label}
    {h : Handler} (hinterval : 0 ≤ interval) (hgrace : 0 < graceSeconds)
    (hrun : Path (handlerSystem graceSeconds) (ReadsLink link interval) .initial as h)
    (hfired : h.fired = false) {a b : ℤ} (hfirst : ∃ p ∈ h.polls.head?, p.1 ≤ a)
    (hlast : ∃ p ∈ h.polls, b ≤ p.1) (hdown : ∀ t, a ≤ t → t ≤ b → link t = false) :
    b - a < graceSeconds + 2 * interval := by
  by_contra hlong
  have hw := Watched.run hrun
  have hpolled : Polled link interval h :=
    hrun.invariant (fun _ _ _ hp hC hstep => hp.step hC hstep)
      ⟨fun p hp => absurd hp List.not_mem_nil, List.IsChain.nil⟩
  obtain ⟨first, hhead, hle⟩ := hfirst
  obtain ⟨last, hmem, hge⟩ := hlast
  -- one poll soon after the outage begins, one shortly before it ends
  obtain ⟨p, hp, hplow, hphigh⟩ := exists_poll_near hinterval hpolled.spaced ⟨first, hhead, hle⟩
    ⟨last, hmem, by omega⟩
  obtain ⟨q, hq, hqlow, hqhigh⟩ := exists_poll_near (a := b - interval) hinterval hpolled.spaced
    ⟨first, hhead, by omega⟩ ⟨last, hmem, by omega⟩
  obtain ⟨i, hi, hgeti⟩ := List.getElem_of_mem hp
  obtain ⟨j, hj, hgetj⟩ := List.getElem_of_mem hq
  have hmono : ∀ m n (hm : m < h.polls.length) (hn : n < h.polls.length), m ≤ n →
      h.polls[m].1 ≤ h.polls[n].1 := by
    intro m n hm hn hmn
    rcases Nat.eq_or_lt_of_le hmn with rfl | hlt
    · exact le_refl _
    · exact List.pairwise_iff_getElem.mp hw.sorted m n hm hn hlt
  have hlt : i < j := by
    by_contra hji
    have := hmono j i hj hi (by omega)
    rw [hgeti, hgetj] at this
    omega
  refine hw.quiet hfired i j ⟨hlt, fun k hik hkj => ?_, p, q, ?_, ?_, by omega⟩
  · have hk : k < h.polls.length := by omega
    have hlow := hmono i k hi hk hik
    have hhigh := hmono k j hk hj hkj
    rw [hgeti] at hlow
    rw [hgetj] at hhigh
    have hread := hpolled.read _ (List.getElem_mem hk)
    rw [hdown _ (by omega) (by omega)] at hread
    exact ⟨h.polls[k].1, by rw [List.getElem?_eq_getElem hk, ← hread]⟩
  · rw [List.getElem?_eq_getElem hi, hgeti]
  · rw [List.getElem?_eq_getElem hj, hgetj]

/-- A minute between the polls: they miss two minutes without the link. -/
theorem watching_outage_minute : ∃ h : Handler, h.fired = false ∧ h.polls.length = 4 ∧
    (122 : ℤ) - 1 < 120 + 2 * 61 := by
  have hend : ∃ h ∈ (handlerSystem 120).runWhere
      (ReadsLink (fun t => decide (t < 1 ∨ 122 < t)) 61) .initial
      [.poll 0 (some true), .poll 61 none, .poll 122 (some false), .poll 123 (some true)],
      (h.fired = false ∧ h.polls.length = 4) ∧ (∃ p ∈ h.polls.head?, p.1 ≤ 1) ∧
        ∃ p ∈ h.polls, 122 ≤ p.1 := by
    decide +kernel
  obtain ⟨h, hrun, ⟨hfired, hlength⟩, hfirst, hlast⟩ := hend
  exact ⟨h, hfired, hlength, watching_outage_lt (by decide) (by decide) (Path.of_runWhere hrun)
    hfired hfirst hlast fun t hlow hhigh => decide_eq_false (by omega)⟩

end Msai.Live.DisconnectHandler
