import Mathlib.Algebra.Ring.Int.Defs
import Msai.Lib.Transition
import Msai.Projection.State

namespace Msai.Projection

open Msai.Lib Msai.Lib.TransitionSystem

/-!
# Reading positions (`projection/position_reader.py`)

A read answers from the in-memory state once the deployment is hydrated, and otherwise from the
Nautilus store, whose open positions of *one* strategy then hydrate the whole deployment.  The
first streamed snapshot hydrates it too.

* `StorePosition`, `Tracked` — a position of the store, with the events it has sent since the
  worker started;
* `getOpenPositions` — the fast and the cold path.  There is no `await` between the check, the
  cold read and the hydration, so a read is one step;
* `FastPathComplete` — a fast answer has every position it owes;
* `HydratesFully` — the condition: what hydrates a deployment brings all the positions owed, and
  no snapshot replaces another position's or a newer one;
* `fast_path_complete_of_hydrates_fully` — the theorem over all runs.
-/

variable {ι Dec : Type} [DecidableEq ι] [DecidableEq Dec] [Zero Dec]

/-! ### The store -/

/-- A Nautilus `Position`, with the fields `_to_snapshot` reads. -/
structure StorePosition (ι Dec : Type) where
  /-- The trader whose key space the position is in. -/
  deploymentId : ι
  strategyId : String
  instrumentId : String
  quantity : Dec
  avgPxOpen : Dec
  realizedPnl : Dec
  tsLast : ℤ
deriving DecidableEq, Repr

namespace StorePosition

/-- `position.is_open`. -/
def isOpen (p : StorePosition ι Dec) : Bool := decide (p.quantity ≠ 0)

/-- `_to_snapshot`; the unrealised result is not known to the store. -/
def toSnapshot (p : StorePosition ι Dec) : PositionSnapshot ι Dec :=
  { deploymentId := p.deploymentId
    instrumentId := p.instrumentId
    qty := p.quantity
    avgPrice := p.avgPxOpen
    unrealizedPnl := 0
    realizedPnl := p.realizedPnl
    ts := p.tsLast }

/-- The snapshot `translate` makes of the event a change of the position sends. -/
def toEvent (p : StorePosition ι Dec) (unrealizedPnl : Dec) : PositionSnapshot ι Dec :=
  { p.toSnapshot with unrealizedPnl := unrealizedPnl }

end StorePosition

/-- A position with what it has sent. -/
structure Tracked (ι Dec : Type) where
  pos : StorePosition ι Dec
  /-- Its events, oldest first. -/
  events : List (PositionSnapshot ι Dec)
  /-- It has changed since the worker started. -/
  changed : Bool
  /-- The newest event has been applied. -/
  latestApplied : Bool
  /-- They are events of this position. -/
  own : ∀ e ∈ events, e.deploymentId = pos.deploymentId ∧ e.instrumentId = pos.instrumentId
  /-- The newest has the position's quantity. -/
  newest : ∀ e, events.getLast? = some e → e.qty = pos.quantity

namespace Tracked

/-- A fast answer owes the position: it has not changed since the worker started, or its newest
    event has been applied. -/
def isOwed (t : Tracked ι Dec) : Bool := t.pos.isOpen && (!t.changed || t.latestApplied)

section Change

variable {p p' : StorePosition ι Dec} {events : List (PositionSnapshot ι Dec)} {u : Dec}

omit [DecidableEq ι] [DecidableEq Dec] in
/-- The event of a change is the position's own. -/
theorem own_concat
    (h : ∀ e ∈ events, e.deploymentId = p.deploymentId ∧ e.instrumentId = p.instrumentId)
    (hd : p'.deploymentId = p.deploymentId) (hi : p'.instrumentId = p.instrumentId) :
    ∀ e ∈ events ++ [p'.toEvent u],
      e.deploymentId = p'.deploymentId ∧ e.instrumentId = p'.instrumentId := by
  intro e he
  rcases List.mem_append.mp he with he | he
  · rw [hd, hi]
    exact h e he
  · obtain rfl := List.mem_singleton.mp he
    exact ⟨rfl, rfl⟩

omit [DecidableEq ι] [DecidableEq Dec] in
/-- The event of a change is the newest. -/
theorem newest_concat :
    ∀ e, (events ++ [p'.toEvent u]).getLast? = some e → e.qty = p'.quantity := by
  intro e he
  rw [List.getLast?_concat] at he
  obtain rfl := Option.some.inj he
  rfl

end Change

/-- A change of the position, and the event it sends. -/
def change (t : Tracked ι Dec) (quantity avgPxOpen realizedPnl unrealizedPnl : Dec) (ts : ℤ) :
    Tracked ι Dec :=
  let pos := { t.pos with
    quantity := quantity, avgPxOpen := avgPxOpen, realizedPnl := realizedPnl, tsLast := ts }
  { pos := pos
    events := t.events ++ [pos.toEvent unrealizedPnl]
    changed := true
    latestApplied := false
    own := own_concat t.own rfl rfl
    newest := newest_concat }

/-- A position that is opened, and the event it sends. -/
def opened (p : StorePosition ι Dec) (unrealizedPnl : Dec) : Tracked ι Dec :=
  { pos := p
    events := [] ++ [p.toEvent unrealizedPnl]
    changed := true
    latestApplied := false
    own := own_concat (p := p) (List.forall_mem_nil _) rfl rfl
    newest := newest_concat }

/-- A position as a worker finds it when it starts; its older events may still be on their
    way. -/
def found (t : Tracked ι Dec) : Tracked ι Dec := { t with changed := false, latestApplied := false }

/-- Its event `j` has been applied. -/
def applied (t : Tracked ι Dec) (j : ℕ) : Tracked ι Dec :=
  { t with latestApplied := t.latestApplied || decide (j + 1 = t.events.length) }

end Tracked

/-! ### The reader -/

/-- `_read_via_ephemeral_cache_positions`. -/
def coldRead (store : List (Tracked ι Dec)) (id : ι) (strategy : String) :
    List (PositionSnapshot ι Dec) :=
  ((store.map (·.pos)).filter fun p =>
    decide (p.deploymentId = id) && decide (p.strategyId = strategy) && p.isOpen).map
      StorePosition.toSnapshot

/-- `get_open_positions`: the answer, and the state afterwards. -/
def getOpenPositions (s : ProjectionState ι Dec) (store : List (Tracked ι Dec)) (id : ι)
    (strategy : String) : List (PositionSnapshot ι Dec) × ProjectionState ι Dec :=
  if s.isPositionsHydrated id then (s.openPositions id, s)
  else
    let s' := s.hydrateFromColdRead id (some (coldRead store id strategy)) none
    (s'.openPositions id, s')

/-! ### The system -/

/-- A worker and the store. -/
structure ReaderSite (ι Dec : Type) where
  store : List (Tracked ι Dec)
  state : ProjectionState ι Dec

/-- What happens next. -/
inductive ReaderLabel (ι Dec : Type)
  | openPosition (p : StorePosition ι Dec) (unrealizedPnl : Dec)
  | change (k : ℕ) (quantity avgPxOpen realizedPnl unrealizedPnl : Dec) (ts : ℤ)
  /-- Event `j` of position `k` reaches the worker. -/
  | apply (k j : ℕ)
  /-- An event that is no snapshot reaches the worker. -/
  | otherEvent (e : InternalEvent ι Dec)
  | read (id : ι) (strategy : String)

/-- The event is a position snapshot. -/
def InternalEvent.isPosition : InternalEvent ι Dec → Bool
  | .position _ => true
  | _ => false

/-- One step of the worker or of the store. -/
def readerStep (s : ReaderSite ι Dec) : ReaderLabel ι Dec → Option (ReaderSite ι Dec)
  | .openPosition p u => some { s with store := s.store ++ [.opened p u] }
  | .change k quantity avgPxOpen realizedPnl u ts =>
    (s.store[k]?).map fun t =>
      { s with store := s.store.set k (t.change quantity avgPxOpen realizedPnl u ts) }
  | .apply k j =>
    (s.store[k]?).bind fun t => (t.events[j]?).map fun e =>
      { store := s.store.set k (t.applied j), state := s.state.applyPosition e }
  | .otherEvent e => if e.isPosition then none else some { s with state := s.state.apply e }
  | .read id strategy =>
    some { s with state := (getOpenPositions s.state s.store id strategy).2 }

/-- The worker as a transition system. -/
def readerSystem : TransitionSystem (ReaderSite ι Dec) (ReaderLabel ι Dec) where
  step := readerStep

/-- A worker that has just started. -/
def ReaderSite.initial (store : List (Tracked ι Dec)) : ReaderSite ι Dec :=
  { store := store.map Tracked.found, state := .empty }

/-! ### The property and the condition -/

/-- A fast answer has every position it owes, with its quantity. -/
def FastPathComplete (s : ReaderSite ι Dec) : ReaderLabel ι Dec → Prop
  | .read id strategy =>
    s.state.isPositionsHydrated id = true →
      ∀ t ∈ s.store, t.pos.deploymentId = id → t.pos.strategyId = strategy → t.isOwed = true →
        ∃ e ∈ (getOpenPositions s.state s.store id strategy).1,
          e.instrumentId = t.pos.instrumentId ∧ e.qty = t.pos.quantity
  | _ => True

/-- What the condition asks of one step. -/
def hydratesFully (s : ReaderSite ι Dec) : ReaderLabel ι Dec → Bool
  | .apply k j =>
    (s.store[k]?).all fun t =>
      (!t.isOwed || decide (j + 1 = t.events.length)) &&
        s.store.zipIdx.all fun p =>
          decide (p.2 = k) || decide (p.1.pos.deploymentId ≠ t.pos.deploymentId) || !p.1.isOwed
            || (s.state.isPositionsHydrated t.pos.deploymentId
              && decide (p.1.pos.instrumentId ≠ t.pos.instrumentId))
  | .read id strategy =>
    s.state.isPositionsHydrated id || s.store.zipIdx.all fun p =>
      decide (p.1.pos.deploymentId ≠ id) || !p.1.isOwed
        || (decide (p.1.pos.strategyId = strategy) && s.store.zipIdx.all fun q =>
          decide (q.2 = p.2) || decide (q.1.pos.deploymentId ≠ id)
            || decide (q.1.pos.strategyId ≠ strategy) || !q.1.pos.isOpen
            || decide (q.1.pos.instrumentId ≠ p.1.pos.instrumentId))
  | _ => true

/-- The condition.  A snapshot is applied only if every other position owed to its deployment is
    on another instrument and the deployment is hydrated already, and it is not an older one of a
    position that is owed.  A cold read is made only for a strategy that has all
    the positions owed to the deployment, each on an instrument of its own. -/
def HydratesFully (s : ReaderSite ι Dec) (a : ReaderLabel ι Dec) : Prop := hydratesFully s a = true

instance (s : ReaderSite ι Dec) (a : ReaderLabel ι Dec) : Decidable (HydratesFully s a) :=
  inferInstanceAs (Decidable (hydratesFully s a = true))

/-- A hydrated deployment has every position owed to it. -/
def Agrees (s : ReaderSite ι Dec) : Prop :=
  ∀ t ∈ s.store, s.state.isPositionsHydrated t.pos.deploymentId = true → t.isOwed = true →
    ∃ e, s.state.getPosition t.pos.deploymentId t.pos.instrumentId = some e ∧
      e.instrumentId = t.pos.instrumentId ∧ e.qty = t.pos.quantity

/-! ### One step -/

section Step

variable {s s' : ReaderSite ι Dec} {a : ReaderLabel ι Dec} {t : Tracked ι Dec} {k j : ℕ}

/-- What the condition says about an applied snapshot. -/
theorem hydratesFully_apply (h : HydratesFully s (.apply k j)) (hk : s.store[k]? = some t) :
    (t.isOwed = true → j + 1 = t.events.length) ∧
      ∀ k' t', s.store[k']? = some t' → k' ≠ k → t'.pos.deploymentId = t.pos.deploymentId →
        t'.isOwed = true → s.state.isPositionsHydrated t.pos.deploymentId = true ∧
          t'.pos.instrumentId ≠ t.pos.instrumentId := by
  simp only [HydratesFully, hydratesFully, hk, Option.all_some, Bool.and_eq_true,
    List.all_eq_true] at h
  obtain ⟨hlatest, hothers⟩ := h
  refine ⟨fun hl => by simpa [hl] using hlatest, fun k' t' hk' hne hdep howed => ?_⟩
  have hmem := hothers (t', k') (List.mem_zipIdx_iff_getElem?.mpr hk')
  simpa [hne, hdep, howed] using hmem

/-- What the condition says about a cold read. -/
theorem hydratesFully_read {id : ι} {strategy : String} (h : HydratesFully s (.read id strategy))
    (hcold : s.state.isPositionsHydrated id = false) (hk : s.store[k]? = some t)
    (hdep : t.pos.deploymentId = id) (howed : t.isOwed = true) :
    t.pos.strategyId = strategy ∧ ∀ q u, s.store[q]? = some u → u.pos.deploymentId = id →
      u.pos.strategyId = strategy → u.pos.isOpen = true →
      u.pos.instrumentId = t.pos.instrumentId → q = k := by
  simp only [HydratesFully, hydratesFully, hcold, Bool.false_or, List.all_eq_true] at h
  have hmem := h (t, k) (List.mem_zipIdx_iff_getElem?.mpr hk)
  simp only [hdep, howed, ne_eq, not_true_eq_false, decide_false, Bool.not_true, Bool.false_or,
    Bool.and_eq_true, decide_eq_true_eq, List.all_eq_true] at hmem
  refine ⟨hmem.1, fun q u hq hudep hustrat huopen huinst => ?_⟩
  have hq' := hmem.2 (u, q) (List.mem_zipIdx_iff_getElem?.mpr hq)
  simpa [hudep, hustrat, huopen, huinst] using hq'

omit [DecidableEq ι] in
/-- A changed position is not owed before its event is applied. -/
theorem Tracked.isOwed_change {quantity avgPxOpen realizedPnl u : Dec} {ts : ℤ} :
    (t.change quantity avgPxOpen realizedPnl u ts).isOwed = false := by
  simp [Tracked.isOwed, Tracked.change]

omit [DecidableEq ι] in
theorem Tracked.isOwed_opened {p : StorePosition ι Dec} {u : Dec} :
    (Tracked.opened p u).isOwed = false := by
  simp [Tracked.isOwed, Tracked.opened]

omit [DecidableEq ι] in
/-- A position whose event has just been applied is owed the quantity of that event. -/
theorem Tracked.qty_of_applied {e : PositionSnapshot ι Dec} (hj : t.events[j]? = some e)
    (hlatest : t.isOwed = true → j + 1 = t.events.length)
    (howed : (t.applied j).isOwed = true) : e.qty = t.pos.quantity := by
  have hlast : j + 1 = t.events.length := by
    -- an older event would leave the position not owed
    by_cases hj' : j + 1 = t.events.length
    · exact hj'
    · refine hlatest ?_
      simpa [Tracked.isOwed, Tracked.applied, hj'] using howed
  refine t.newest e ?_
  rw [List.getLast?_eq_getElem?, ← hlast]
  exact hj

/-- **A snapshot.** -/
theorem Agrees.apply {e : PositionSnapshot ι Dec} (h : Agrees s)
    (hC : HydratesFully s (.apply k j)) (hk : s.store[k]? = some t) (hj : t.events[j]? = some e) :
    Agrees { store := s.store.set k (t.applied j), state := s.state.applyPosition e } := by
  obtain ⟨hlatest, hothers⟩ := hydratesFully_apply hC hk
  obtain ⟨hdep, hinst⟩ := t.own e (List.mem_of_getElem? hj)
  intro u hu hhyd howed
  obtain ⟨i, hi⟩ := List.mem_iff_getElem?.mp hu
  by_cases hik : k = i
  · subst hik
    have hlt := (List.getElem?_eq_some_iff.mp hk).1
    obtain rfl : t.applied j = u := by simpa [hlt] using hi
    -- the position of the snapshot itself
    refine ⟨e, ?_, hinst, Tracked.qty_of_applied (t := t) hj hlatest howed⟩
    rw [ProjectionState.getPosition_applyPosition]
    exact if_pos ⟨hdep.symm, hinst.symm⟩
  · rw [List.getElem?_set_ne hik] at hi
    have hmem := List.mem_of_getElem? hi
    rw [ProjectionState.isPositionsHydrated_applyPosition, hdep] at hhyd
    rw [ProjectionState.getPosition_applyPosition, hdep, hinst]
    by_cases hsame : u.pos.deploymentId = t.pos.deploymentId
    · -- another position of the deployment is on another instrument
      obtain ⟨hwas, hne⟩ := hothers i u hi (fun he => hik he.symm) hsame howed
      rw [if_neg (fun hc => hne hc.2)]
      exact h u hmem (by rw [hsame]; exact hwas) howed
    · rw [if_neg (fun hc => hsame hc.1)]
      exact h u hmem (by simpa [hsame] using hhyd) howed

/-- **A read.** -/
theorem Agrees.read {id : ι} {strategy : String} (h : Agrees s)
    (hC : HydratesFully s (.read id strategy)) :
    Agrees { s with state := (getOpenPositions s.state s.store id strategy).2 } := by
  unfold getOpenPositions
  by_cases hhyd : s.state.isPositionsHydrated id = true
  · rw [if_pos hhyd]
    exact h
  · rw [if_neg hhyd]
    have hcold : s.state.isPositionsHydrated id = false := by simpa using hhyd
    have hpos :
        (s.state.hydrateFromColdRead id (some (coldRead s.store id strategy)) none).positions
        = Function.update s.state.positions id
          (some (ProjectionState.instrumentsOf (coldRead s.store id strategy))) :=
      ProjectionState.hydrateFromColdRead_positions hcold
    intro t ht hnow howed
    obtain ⟨k, hk⟩ := List.mem_iff_getElem?.mp ht
    unfold ProjectionState.getPosition
    unfold ProjectionState.isPositionsHydrated at hnow
    rw [hpos] at hnow ⊢
    by_cases hdep : t.pos.deploymentId = id
    · -- the strategy that was read has the position, on an instrument of its own
      obtain ⟨hstrat, huniq⟩ := hydratesFully_read hC hcold hk hdep howed
      have hopen : t.pos.isOpen = true := (Bool.and_eq_true_iff.mp howed).1
      rw [hdep, Function.update_self, Option.bind_some]
      refine ⟨t.pos.toSnapshot, ?_, rfl, rfl⟩
      refine ProjectionState.lookup_instrumentsOf (e := t.pos.toSnapshot) ?_ fun e' he' hinst => ?_
      · have hmem : t.pos ∈ s.store.map (·.pos) := List.mem_map.mpr ⟨t, ht, rfl⟩
        refine List.mem_map.mpr ⟨t.pos, List.mem_filter.mpr ⟨hmem, ?_⟩, rfl⟩
        simp [hdep, hstrat, hopen]
      · obtain ⟨p, hp, rfl⟩ := List.mem_map.mp he'
        obtain ⟨hpmem, hpred⟩ := List.mem_filter.mp hp
        obtain ⟨u, hu, rfl⟩ := List.mem_map.mp hpmem
        obtain ⟨q, hq⟩ := List.mem_iff_getElem?.mp hu
        simp only [Bool.and_eq_true, decide_eq_true_eq] at hpred
        obtain rfl := huniq q u hq hpred.1.1 hpred.1.2 hpred.2 hinst
        obtain rfl : t = u := by simpa [hk] using hq
        rfl
    · -- a cold read hydrates its own deployment only
      rw [Function.update_of_ne hdep] at hnow ⊢
      exact h t ht hnow howed

omit [DecidableEq Dec] [Zero Dec] in
/-- An event that is no snapshot leaves the positions alone. -/
theorem apply_positions {st : ProjectionState ι Dec} {e : InternalEvent ι Dec}
    (h : e.isPosition = false) : (st.apply e).positions = st.positions := by
  cases e <;> first | rfl | cases h

/-- **Step.** -/
theorem Agrees.step (h : Agrees s) (hC : HydratesFully s a) (hs : readerStep s a = some s') :
    Agrees s' := by
  cases a with
  | openPosition p u =>
    obtain rfl := Option.some.inj hs
    intro t ht hhyd howed
    rcases List.mem_append.mp ht with ht | ht
    · exact h t ht hhyd howed
    · obtain rfl := List.mem_singleton.mp ht
      rw [Tracked.isOwed_opened] at howed
      cases howed
  | change k quantity avgPxOpen realizedPnl u ts =>
    obtain ⟨t₀, _, rfl⟩ := Option.map_eq_some_iff.mp hs
    intro t ht hhyd howed
    rcases List.mem_or_eq_of_mem_set ht with ht | rfl
    · exact h t ht hhyd howed
    · rw [Tracked.isOwed_change] at howed
      cases howed
  | apply k j =>
    obtain ⟨t, hk, hs⟩ := Option.bind_eq_some_iff.mp hs
    obtain ⟨e, hj, rfl⟩ := Option.map_eq_some_iff.mp hs
    exact h.apply hC hk hj
  | otherEvent e =>
    simp only [readerStep] at hs
    split at hs
    · cases hs
    · rename_i hnot
      obtain rfl := Option.some.inj hs
      have hpos : (s.state.apply e).positions = s.state.positions :=
        apply_positions (by simpa using hnot)
      intro t ht hhyd howed
      simp only [ProjectionState.isPositionsHydrated, ProjectionState.getPosition, hpos] at hhyd ⊢
      exact h t ht hhyd howed
  | read id strategy =>
    obtain rfl := Option.some.inj hs
    exact h.read hC

/-- In agreement a fast answer is complete. -/
theorem Agrees.fastPathComplete (h : Agrees s) (a : ReaderLabel ι Dec) : FastPathComplete s a := by
  cases a with
  | read id strategy =>
    intro hhyd t ht hdep _ howed
    subst hdep
    obtain ⟨e, hpos, hinst, hqty⟩ := h t ht hhyd howed
    have hopen : t.pos.isOpen = true := (Bool.and_eq_true_iff.mp howed).1
    -- an open position is not filtered out
    have hne : e.qty ≠ 0 := by
      rw [hqty]
      simpa [StorePosition.isOpen] using hopen
    have hans : (getOpenPositions s.state s.store t.pos.deploymentId strategy).1
        = s.state.openPositions t.pos.deploymentId := by
      rw [getOpenPositions, if_pos hhyd]
    rw [hans]
    exact ⟨e, ProjectionState.mem_openPositions hpos hne, hinst, hqty⟩
  | openPosition _ _ | change _ _ _ _ _ _ | apply _ _ | otherEvent _ => trivial

end Step

/-! ### Every run -/

omit [DecidableEq ι] in
/-- A worker that has just started has hydrated nothing. -/
theorem agrees_initial (store : List (Tracked ι Dec)) : Agrees (ReaderSite.initial store) := by
  intro t _ hhyd
  cases hhyd

/-- **Fast answers agree with the store.**  In every run of position changes, events and reads
    whose hydrations bring all the positions owed, and whose snapshots replace no other position's
    and no newer one, a read that is answered from memory returns every open position of its
    strategy that has not changed since the worker started or whose newest event has been
    applied, with its quantity. -/
theorem fast_path_complete_of_hydrates_fully {store : List (Tracked ι Dec)}
    {as : List (ReaderLabel ι Dec)} {t : ReaderSite ι Dec}
    (h : Path readerSystem HydratesFully (.initial store) as t) :
    Path readerSystem FastPathComplete (.initial store) as t := by
  refine h.strengthen (I := Agrees) (fun _ _ _ hI hC hs => hI.step hC hs) ?_ (agrees_initial store)
  intro s a _ hI _ _
  exact hI.fastPathComplete a

/-! ### Two strategies of one deployment -/

/-- A position of deployment 0 that has sent nothing yet. -/
def storedPosition (strategy instrument : String) (quantity : ℤ) : Tracked ℕ ℤ :=
  { pos :=
      { deploymentId := 0, strategyId := strategy, instrumentId := instrument,
        quantity := quantity, avgPxOpen := 100, realizedPnl := 0, tsLast := 1 }
    events := []
    changed := false
    latestApplied := false
    own := List.forall_mem_nil _
    newest := nofun }

/-- The theorem at one strategy: a cold read hydrates the deployment, one of its two positions
    grows, and the next read is fast. -/
theorem fast_path_complete_one_strategy :
    ∃ t, Path readerSystem FastPathComplete
      (.initial [storedPosition "alpha" "AAPL" 10, storedPosition "alpha" "MSFT" 5])
      [.read 0 "alpha", .change 0 12 101 0 3 2, .apply 0 0, .read 0 "alpha"] t := by
  obtain ⟨t, ht⟩ : ∃ t, readerSystem.runWhere HydratesFully
      (.initial [storedPosition "alpha" "AAPL" 10, storedPosition "alpha" "MSFT" 5])
      [.read 0 "alpha", .change 0 12 101 0 3 2, .apply 0 0, .read 0 "alpha"] = some t := ⟨_, rfl⟩
  exact ⟨t, fast_path_complete_of_hydrates_fully (.of_runWhere ht)⟩

/-- The cold read for the first strategy hydrates the deployment, and the read for the second is
    answered from memory, without its position. -/
theorem fast_path_complete_fails :
    ∃ s, Path readerSystem anyStep
        (.initial [storedPosition "alpha" "AAPL" 10, storedPosition "beta" "MSFT" 5])
        [.read 0 "alpha"] s ∧
      s.state.isPositionsHydrated 0 = true ∧ ¬FastPathComplete s (.read 0 "beta") := by
  obtain ⟨s, hs, hhyd, hmem, hans⟩ : ∃ s, readerSystem.run
      (.initial [storedPosition "alpha" "AAPL" 10, storedPosition "beta" "MSFT" 5])
      [.read 0 "alpha"] = some s ∧
      s.state.isPositionsHydrated 0 = true ∧
      s.store[1]? = some (storedPosition "beta" "MSFT" 5) ∧
      (getOpenPositions s.state s.store 0 "beta").1.all (·.instrumentId != "MSFT") = true :=
    ⟨_, rfl, rfl, rfl, rfl⟩
  refine ⟨s, .of_run hs, hhyd, fun hcomplete => ?_⟩
  obtain ⟨e, he, hinst, _⟩ := hcomplete hhyd _ (List.mem_of_getElem? hmem) rfl rfl rfl
  have hne := List.all_eq_true.mp hans e he
  rw [hinst] at hne
  cases hne

end Msai.Projection
