import Msai.Lib.GroupStream
import Msai.Lib.LastWrite
import Msai.Lib.Transition
import Msai.Projection.State
import Msai.Projection.Stream

namespace Msai.Projection

open Msai.Lib Msai.Lib.TransitionSystem

/-!
# The projection consumer (`projection/consumer.py`, `projection/fanout.py`)

Workers read the stream of a deployment through one consumer group, publish the event of each
entry on the state channel and acknowledge it.  An entry whose publish or `XACK` failed stays
pending and is claimed by a later sweep.  Every worker applies the channel to its own state; the
system has the state of one of them.

* `Worker` — the entries of a batch that are still to be handled;
* `dispatch`, `moveToDlq` — what becomes of an entry;
* `Converged`, `HoldsNewest` — the state has what the events, applied once each in stream order,
  leave, which is the newest of each slot when the stream is in time order;
* `PublishesInOrder` — the condition: no event is published behind a newer one of its slot, and
  none is given up before it or a newer one has been published;
* `projection_converges_of_in_order` — the theorem over all runs.
-/

/-! ### The slots of the state -/

/-- A place of the state that snapshots replace each other in. -/
inductive Slot (ι : Type)
  | position (deploymentId : ι) (instrumentId : String)
  | account (deploymentId : ι)
deriving DecidableEq, Repr

namespace InternalEvent

variable {ι Dec : Type} [DecidableEq ι]

/-- The place `apply` writes the event to. -/
def slot : InternalEvent ι Dec → Option (Slot ι)
  | .position e => some (.position e.deploymentId e.instrumentId)
  | .accountState e => some (.account e.deploymentId)
  | _ => none

/-- Its timestamp. -/
def ts : InternalEvent ι Dec → ℤ
  | .position e => e.ts
  | .fill e => e.ts
  | .orderStatus e => e.ts
  | .accountState e => e.ts
  | .riskHalt e => e.setAt
  | .deploymentStatus e => e.ts

/-- The snapshot it writes for one instrument. -/
def positionAt (id : ι) (instrument : String) :
    InternalEvent ι Dec → Option (PositionSnapshot ι Dec)
  | .position e => if id = e.deploymentId ∧ instrument = e.instrumentId then some e else none
  | _ => none

/-- The account it writes for one deployment. -/
def accountAt (id : ι) : InternalEvent ι Dec → Option (AccountStateUpdate ι Dec)
  | .accountState e => if id = e.deploymentId then some e else none
  | _ => none

end InternalEvent

/-! ### The workers -/

/-- The settings of a `ProjectionConsumer`. -/
structure ConsumerConfig where
  count : ℕ := 100
  minIdleMs : ℕ := 30000
  maxDeliveryAttempts : ℕ := 5
deriving DecidableEq, Repr

/-- A worker between two calls. -/
structure Worker where
  /-- The entries of the last `XREADGROUP` or `XAUTOCLAIM` it has not handled. -/
  rest : List (Entry EntryFields)
  /-- The cursor of the sweep they are from. -/
  sweep : Option ℕ
deriving DecidableEq, Repr

/-- A worker outside of a batch and of a sweep. -/
def Worker.idle : Worker := { rest := [], sweep := none }

/-- An entry of the dead-letter stream of a deployment. -/
structure DeadLetter (ι : Type) where
  deploymentId : Option ι
  fields : EntryFields
  dlqReason : String
  originalEntryId : ℕ
  originalStream : String
deriving DecidableEq, Repr

/-- How the calls made for one entry end. -/
structure Calls where
  /-- `XPENDING` answers; otherwise the entry counts as delivered 0 times. -/
  xpending : Bool := true
  publish : PublishResult := .ok
  /-- The `XADD` to the dead-letter stream succeeds. -/
  xadd : Bool := true
  xack : Bool := true
deriving DecidableEq, Repr

/-- The stream of a deployment, its consumers, and the state of one worker. -/
structure ProjectionSite (κ ι Dec : Type) where
  stream : GroupStream κ EntryFields
  workers : κ → Worker
  /-- The state channel: what has been published, with the id of its entry. -/
  published : List (ℕ × InternalEvent ι Dec)
  /-- How much of it the worker has applied. -/
  applied : ℕ
  state : ProjectionState ι Dec
  dlq : List (DeadLetter ι)

variable {κ ι Dec : Type} [DecidableEq ι] [Zero Dec] [Add Dec]

namespace ProjectionSite

/-- Before the first entry.  `ensure_group` creates the group at `0`, so that nothing is
    skipped. -/
def initial : ProjectionSite κ ι Dec :=
  { stream := { entries := [], lastId := 0, group := some ⟨0, []⟩ }
    workers := fun _ => .idle
    published := []
    applied := 0
    state := .empty
    dlq := [] }

/-- `_ack`; a failed `XACK` is logged. -/
def ack (s : ProjectionSite κ ι Dec) (g : ConsumerGroup κ) (id : ℕ) (xack : Bool) :
    ProjectionSite κ ι Dec :=
  if xack then { s with stream := { s.stream with group := some (g.ack id) } } else s

end ProjectionSite

section System

variable (cfg : ConsumerConfig) (c : Coercion Dec) (reg : StreamRegistry ι) (stream : String)

/-- `_delivery_attempts`. -/
def deliveryAttempts (g : ConsumerGroup κ) (id : ℕ) (xpending : Bool) : ℕ :=
  if xpending then (g.timesDelivered id).getD 0 else 0

/-- `_move_to_dlq`. -/
def moveToDlq (s : ProjectionSite κ ι Dec) (g : ConsumerGroup κ) (x : Entry EntryFields)
    (calls : Calls) : ProjectionSite κ ι Dec :=
  if calls.xadd then
    ProjectionSite.ack
      { s with
        dlq := s.dlq ++ [{
          deploymentId := resolveDeploymentIdFromStream reg stream
          fields := x.fields
          dlqReason := "max_delivery_attempts_exceeded"
          originalEntryId := x.id
          originalStream := stream }] } g x.id calls.xack
  else s

/-- `_dispatch_entry`, with the publish and the acknowledgement. -/
def dispatch (s : ProjectionSite κ ι Dec) (g : ConsumerGroup κ) (x : Entry EntryFields)
    (calls : Calls) : ProjectionSite κ ι Dec :=
  let out : Dispatched ι Dec :=
    dispatchEntry c (resolveDeploymentIdFromStream reg stream) x.fields calls.publish
  ProjectionSite.ack
    { s with published := s.published ++ (out.published.map fun e => (x.id, e)).toList } g x.id
    (out.acked && calls.xack)

/-- The sweep gives up on the entry. -/
def isPoison (w : Worker) (g : ConsumerGroup κ) (x : Entry EntryFields) (calls : Calls) : Bool :=
  w.sweep.isSome && decide (cfg.maxDeliveryAttempts ≤ deliveryAttempts g x.id calls.xpending)

/-- What happens next. -/
inductive ProjectionLabel (κ : Type)
  /-- The trading node writes to its message bus. -/
  | add (fields : EntryFields)
  /-- `_read_once`. -/
  | read (me : κ) (now : ℕ)
  /-- One `XAUTOCLAIM` of `_recover_pending_for_stream`. -/
  | claim (me : κ) (now : ℕ)
  /-- The worker handles the next entry of its batch. -/
  | handle (me : κ) (calls : Calls)
  /-- The worker dies, or an exception ends its batch or its sweep. -/
  | abort (me : κ)
  /-- `StateApplier` applies the next message. -/
  | apply
deriving DecidableEq, Repr

variable [DecidableEq κ]

/-- One step. -/
def projectionStep (s : ProjectionSite κ ι Dec) :
    ProjectionLabel κ → Option (ProjectionSite κ ι Dec)
  | .add fields => some { s with stream := s.stream.xadd fields }
  | .read me now =>
    s.stream.group.bind fun g =>
      let w := s.workers me
      if w.rest = [] ∧ w.sweep.getD 0 = 0 then
        let r := g.read s.stream.entries now me cfg.count
        some { s with
          stream := { s.stream with group := some r.2 }
          workers := Function.update s.workers me { rest := r.1, sweep := none } }
      else none
  | .claim me now =>
    s.stream.group.bind fun g =>
      let w := s.workers me
      if w.rest = [] then
        let r := g.autoclaim s.stream.entries now cfg.minIdleMs me (w.sweep.getD 0) 100
        some { s with
          stream := { s.stream with group := some r.2.2 }
          workers := Function.update s.workers me
            (if r.2.1 = [] then .idle else { rest := r.2.1, sweep := some r.1 }) }
      else none
  | .handle me calls =>
    s.stream.group.bind fun g =>
      match (s.workers me).rest with
      | [] => none
      | x :: rest =>
        let w := s.workers me
        let s' := { s with workers := Function.update s.workers me { w with rest := rest } }
        some (if isPoison cfg w g x calls then moveToDlq reg stream s' g x calls
          else dispatch c reg stream s' g x calls)
  | .abort me => some { s with workers := Function.update s.workers me .idle }
  | .apply =>
    (s.published[s.applied]?).map fun p =>
      { s with state := s.state.apply p.2, applied := s.applied + 1 }

/-- The consumers as a transition system. -/
def projectionSystem : TransitionSystem (ProjectionSite κ ι Dec) (ProjectionLabel κ) where
  step := projectionStep cfg c reg stream

end System

/-! ### The property and the condition -/

section Property

variable (c : Coercion Dec) (id : ι)

/-- The event of an entry, if the translator has one for it. -/
def eventOf (entry : EntryFields) : Option (InternalEvent ι Dec) :=
  match entry.payload with
  | .dict d =>
    match translate c entry.topic d id with
    | .ok e => e
    | .error _ => none
  | _ => none

/-- The events of a stream, with the ids of their entries. -/
def eventsOf (entries : List (Entry EntryFields)) : List (ℕ × InternalEvent ι Dec) :=
  entries.filterMap fun x => (eventOf c id x.fields).map fun e => (x.id, e)

/-- The state after applying the events once each in stream order. -/
def inStreamOrder (entries : List (Entry EntryFields)) : ProjectionState ι Dec :=
  ((eventsOf c id entries).map (·.2)).foldl ProjectionState.apply .empty

/-- Every entry has been delivered and none is pending, and the worker has applied all that was
    published. -/
def allHandled (s : ProjectionSite κ ι Dec) : Bool :=
  (s.stream.group.any fun g =>
    s.stream.entries.all fun x =>
      decide (x.id ≤ g.lastDelivered) && (g.timesDelivered x.id).isNone) &&
  decide (s.applied = s.published.length)

/-- The positions and the accounts are those of the events in stream order. -/
def Converged (s : ProjectionSite κ ι Dec) : Prop :=
  (∀ i instrument, s.state.getPosition i instrument
      = (inStreamOrder c id s.stream.entries).getPosition i instrument) ∧
    ∀ i, s.state.getAccount i = (inStreamOrder c id s.stream.entries).getAccount i

/-- The events of each slot are in the order of their times. -/
def InTimeOrder (entries : List (Entry EntryFields)) : Prop :=
  (eventsOf c id entries).Pairwise fun p q =>
    ∀ k, p.2.slot = some k → q.2.slot = some k → p.2.ts ≤ q.2.ts

/-- If the stream is in time order, the state has no snapshot older than one of the stream. -/
def HoldsNewest (s : ProjectionSite κ ι Dec) : Prop :=
  InTimeOrder c id s.stream.entries →
    (∀ n e, (n, .position e) ∈ eventsOf c id s.stream.entries →
      ∃ e', s.state.getPosition e.deploymentId e.instrumentId = some e' ∧ e.ts ≤ e'.ts) ∧
    ∀ n e, (n, .accountState e) ∈ eventsOf c id s.stream.entries →
      ∃ e', s.state.getAccount e.deploymentId = some e' ∧ e.ts ≤ e'.ts

/-- No event of the slot behind entry `n` has been published. -/
def noneBehind (published : List (ℕ × InternalEvent ι Dec)) (n : ℕ) (e : InternalEvent ι Dec) :
    Bool :=
  published.all fun p => e.slot.isNone || decide (p.2.slot ≠ e.slot) || decide (p.1 ≤ n)

/-- The event of entry `n`, or one of its slot behind it, has been published. -/
def isCovered (published : List (ℕ × InternalEvent ι Dec)) (n : ℕ) (e : InternalEvent ι Dec) :
    Bool :=
  e.slot.isNone || published.any fun p => decide (p.2.slot = e.slot) && decide (n ≤ p.1)

/-- What the condition asks of one step. -/
def publishesInOrder (cfg : ConsumerConfig) (s : ProjectionSite κ ι Dec) :
    ProjectionLabel κ → Bool
  | .handle me calls =>
    s.stream.group.all fun g => (s.workers me).rest.head?.all fun x =>
      (eventOf c id x.fields).all fun e =>
        if isPoison cfg (s.workers me) g x calls then
          !calls.xadd || !calls.xack || isCovered s.published x.id e
        else decide (calls.publish = .stateRaises) || noneBehind s.published x.id e
  | _ => true

/-- The condition.  An event is published only while none of its slot from behind its entry has
    been, and an entry is moved to the dead-letter stream only when its event, or one of its slot
    from behind it, has been published. -/
def PublishesInOrder (cfg : ConsumerConfig) (s : ProjectionSite κ ι Dec) (a : ProjectionLabel κ) :
    Prop :=
  publishesInOrder c id cfg s a = true

instance (cfg : ConsumerConfig) (s : ProjectionSite κ ι Dec) (a : ProjectionLabel κ) :
    Decidable (PublishesInOrder c id cfg s a) :=
  inferInstanceAs (Decidable (publishesInOrder c id cfg s a = true))

/-- What every step keeps. -/
structure InOrder (s : ProjectionSite κ ι Dec) : Prop where
  wf : s.stream.WF
  /-- A batch holds entries of the stream. -/
  held : ∀ me, ∀ x ∈ (s.workers me).rest, x ∈ s.stream.entries
  /-- What was published are events of the stream. -/
  sound : ∀ p ∈ s.published, p ∈ eventsOf c id s.stream.entries
  /-- Their ids never fall within a slot. -/
  rising : s.published.Pairwise fun p q =>
    ∀ k, p.2.slot = some k → q.2.slot = some k → p.1 ≤ q.1
  /-- An event whose entry is through has been published, or one of its slot behind it. -/
  covered : ∀ g, s.stream.group = some g → ∀ p ∈ eventsOf c id s.stream.entries,
    g.lastDelivered < p.1 ∨ g.isPending p.1 ∨ isCovered s.published p.1 p.2 = true
  bounded : s.applied ≤ s.published.length
  /-- The worker's state is what it has applied. -/
  replayed : s.state
    = ((s.published.take s.applied).map (·.2)).foldl ProjectionState.apply .empty

end Property

/-! ### Slots and what is read from them -/

section Slots

variable {e : InternalEvent ι Dec} {i : ι} {instrument : String}

omit [Zero Dec] [Add Dec] in
theorem getPosition_apply (st : ProjectionState ι Dec) (e : InternalEvent ι Dec) (i : ι)
    (instrument : String) :
    (st.apply e).getPosition i instrument
      = (e.positionAt i instrument).or (st.getPosition i instrument) := by
  cases e with
  | position e =>
    show (st.applyPosition e).getPosition i instrument = _
    rw [ProjectionState.getPosition_applyPosition]
    by_cases he : i = e.deploymentId ∧ instrument = e.instrumentId
    · simp [InternalEvent.positionAt, he]
    · simp [InternalEvent.positionAt, he]
  | fill _ | orderStatus _ | accountState _ | riskHalt _ | deploymentStatus _ => rfl

omit [Zero Dec] [Add Dec] in
theorem getAccount_apply (st : ProjectionState ι Dec) (e : InternalEvent ι Dec) (i : ι) :
    (st.apply e).getAccount i = (e.accountAt i).or (st.getAccount i) := by
  cases e with
  | accountState e =>
    unfold ProjectionState.getAccount ProjectionState.apply InternalEvent.accountAt
    by_cases hi : i = e.deploymentId
    · subst hi
      simp
    · simp [hi]
  | position _ | fill _ | orderStatus _ | riskHalt _ | deploymentStatus _ => rfl

omit [Zero Dec] [Add Dec] in
theorem positionAt_isSome :
    (e.positionAt i instrument).isSome ↔ e.slot = some (.position i instrument) := by
  cases e with
  | position e =>
    simp only [InternalEvent.positionAt, InternalEvent.slot, Option.some.injEq, Slot.position.injEq]
    split <;> simp_all [eq_comm]
  | fill _ | orderStatus _ | accountState _ | riskHalt _ | deploymentStatus _ =>
    simp [InternalEvent.positionAt, InternalEvent.slot]

omit [Zero Dec] [Add Dec] in
theorem accountAt_isSome : (e.accountAt i).isSome ↔ e.slot = some (.account i) := by
  cases e with
  | accountState e =>
    simp only [InternalEvent.accountAt, InternalEvent.slot, Option.some.injEq, Slot.account.injEq]
    split <;> simp_all [eq_comm]
  | position _ | fill _ | orderStatus _ | riskHalt _ | deploymentStatus _ =>
    simp [InternalEvent.accountAt, InternalEvent.slot]

omit [Zero Dec] [Add Dec] in
theorem ts_of_positionAt {p : PositionSnapshot ι Dec} (h : e.positionAt i instrument = some p) :
    e.ts = p.ts := by
  cases e with
  | position e =>
    simp only [InternalEvent.positionAt] at h
    split at h
    · obtain rfl := Option.some.inj h
      rfl
    · cases h
  | fill _ | orderStatus _ | accountState _ | riskHalt _ | deploymentStatus _ => cases h

omit [Zero Dec] [Add Dec] in
theorem ts_of_accountAt {u : AccountStateUpdate ι Dec} (h : e.accountAt i = some u) :
    e.ts = u.ts := by
  cases e with
  | accountState e =>
    simp only [InternalEvent.accountAt] at h
    split at h
    · obtain rfl := Option.some.inj h
      rfl
    · cases h
  | position _ | fill _ | orderStatus _ | riskHalt _ | deploymentStatus _ => cases h

end Slots

/-! ### Entries and their events -/

section Events

variable {c : Coercion Dec} {id : ι} {entries : List (Entry EntryFields)}
  {x : Entry EntryFields} {p : ℕ × InternalEvent ι Dec} {published : List (ℕ × InternalEvent ι Dec)}

omit [DecidableEq ι] in
theorem mem_eventsOf :
    p ∈ eventsOf c id entries ↔ ∃ x ∈ entries, x.id = p.1 ∧ eventOf c id x.fields = some p.2 := by
  unfold eventsOf
  rw [List.mem_filterMap]
  constructor
  · rintro ⟨x, hx, h⟩
    obtain ⟨e, he, rfl⟩ := Option.map_eq_some_iff.mp h
    exact ⟨x, hx, rfl, he⟩
  · rintro ⟨x, hx, hid, he⟩
    exact ⟨x, hx, by rw [he, Option.map_some, hid]⟩

omit [DecidableEq ι] in
theorem eventsOf_sorted (h : entries.Pairwise fun x y => x.id < y.id) :
    (eventsOf c id entries).Pairwise fun p q => p.1 < q.1 := by
  refine List.pairwise_filterMap.mpr (h.imp fun {x y} hxy p hp q hq => ?_)
  obtain ⟨_, _, rfl⟩ := Option.map_eq_some_iff.mp hp
  obtain ⟨_, _, rfl⟩ := Option.map_eq_some_iff.mp hq
  exact hxy

omit [DecidableEq ι] in
/-- What a dispatch publishes is the event of the entry, and it acknowledges no entry whose event
    it has not published. -/
theorem dispatchEntry_spec (c : Coercion Dec) (id : ι) (entry : EntryFields)
    (publish : PublishResult) :
    (dispatchEntry c (some id) entry publish).published
        = (if publish = .stateRaises then none else eventOf c id entry) ∧
      ((dispatchEntry c (some id) entry publish).acked = true →
        (dispatchEntry c (some id) entry publish).published = eventOf c id entry) := by
  unfold dispatchEntry eventOf
  cases entry.payload with
  | undecodable | notDict => simp
  | dict d =>
    simp only
    cases translate c entry.topic d id with
    | error _ => simp
    | ok r =>
      cases r with
      | none => simp
      | some e => cases publish <;> simp

omit [Zero Dec] [Add Dec] in
theorem isCovered_iff {n : ℕ} {e : InternalEvent ι Dec} :
    isCovered published n e = true ↔
      ∀ k, e.slot = some k → ∃ q ∈ published, q.2.slot = some k ∧ n ≤ q.1 := by
  unfold isCovered
  cases he : e.slot with
  | none => simp
  | some k => simp

omit [Zero Dec] [Add Dec] in
theorem noneBehind_iff {n : ℕ} {e : InternalEvent ι Dec} :
    noneBehind published n e = true ↔
      ∀ q ∈ published, ∀ k, q.2.slot = some k → e.slot = some k → q.1 ≤ n := by
  unfold noneBehind
  rw [List.all_eq_true]
  refine forall₂_congr fun q _ => ?_
  cases he : e.slot with
  | none => simp
  | some k =>
    by_cases hq : q.2.slot = some k
    · simp [hq]
    · simp only [Option.isNone_some, Bool.false_or, ne_eq, hq, not_false_eq_true, decide_true,
        Bool.true_or, true_iff, Option.some.injEq]
      rintro k' hk' rfl
      exact absurd hk' hq

end Events

/-! ### One step -/

section Step

variable {cfg : ConsumerConfig} {c : Coercion Dec} {reg : StreamRegistry ι} {stream : String}
  {id : ι} {s t : ProjectionSite κ ι Dec} {a : ProjectionLabel κ} {g : ConsumerGroup κ}
  {x : Entry EntryFields} {e : InternalEvent ι Dec} {me : κ}

/-- The group changes, and no entry is through that was not before. -/
theorem InOrder.setGroup {g' : ConsumerGroup κ} (h : InOrder c id s)
    (hwf : { s.stream with group := some g' }.WF)
    (hcov : ∀ p ∈ eventsOf c id s.stream.entries,
      g'.lastDelivered < p.1 ∨ g'.isPending p.1 ∨ isCovered s.published p.1 p.2 = true) :
    InOrder c id { s with stream := { s.stream with group := some g' } } :=
  { h with
    wf := hwf
    covered := by
      intro g'' hg'' p hp
      -- a site has one group, the new one
      obtain rfl := Option.some.inj hg''
      exact hcov p hp }

/-- An entry is acknowledged whose event, or one of its slot behind it, has been published. -/
theorem InOrder.ack {n : ℕ} {xack : Bool} (h : InOrder c id s) (hg : s.stream.group = some g)
    (hcov : xack = true → ∀ p ∈ eventsOf c id s.stream.entries, p.1 = n →
      isCovered s.published p.1 p.2 = true) : InOrder c id (s.ack g n xack) := by
  unfold ProjectionSite.ack
  split
  · rename_i hxack
    refine h.setGroup (h.wf.ack hg) fun p hp => ?_
    -- only entry `n` leaves the pending ones, and it is covered
    by_cases hn : p.1 = n
    · exact Or.inr (Or.inr (hcov hxack p hp hn))
    · rcases h.covered g hg p hp with hlt | hpend | hcovered
      · exact Or.inl hlt
      · exact Or.inr (Or.inl (ConsumerGroup.isPending_ack.mpr ⟨hpend, hn⟩))
      · exact Or.inr (Or.inr hcovered)
  · exact h

/-- The event of an entry is published, behind none of its slot. -/
theorem InOrder.publish (h : InOrder c id s) (hx : x ∈ s.stream.entries)
    (he : eventOf c id x.fields = some e) (hnone : noneBehind s.published x.id e = true) :
    InOrder c id { s with published := s.published ++ [(x.id, e)] } :=
  { h with
    sound := by
      intro p hp
      rcases List.mem_append.mp hp with hp | hp
      · exact h.sound p hp
      · obtain rfl := List.mem_singleton.mp hp
        exact mem_eventsOf.mpr ⟨x, hx, rfl, he⟩
    rising := by
      refine List.pairwise_append.mpr ⟨h.rising, List.pairwise_singleton _ _, ?_⟩
      intro p hp q hq k hpk hqk
      obtain rfl := List.mem_singleton.mp hq
      -- nothing of its slot has been published behind it
      exact noneBehind_iff.mp hnone p hp k hpk hqk
    covered := by
      intro g hg p hp
      refine (h.covered g hg p hp).imp_right (Or.imp_right fun hcovered => ?_)
      rw [isCovered_iff] at hcovered ⊢
      intro k hk
      obtain ⟨q, hq, hqk⟩ := hcovered k hk
      exact ⟨q, List.mem_append_left _ hq, hqk⟩
    bounded := by
      show s.applied ≤ (s.published ++ [(x.id, e)]).length
      have hle := h.bounded
      rw [List.length_append]
      omega
    replayed := by
      rw [List.take_append_of_le_length h.bounded]
      exact h.replayed }

/-- **A new entry.** -/
theorem InOrder.add (h : InOrder c id s) (fields : EntryFields) :
    InOrder c id { s with stream := s.stream.xadd fields } :=
  { h with
    wf := h.wf.xadd
    held := fun me x hx => List.mem_append_left _ (h.held me x hx)
    sound := by
      intro p hp
      obtain ⟨x, hx, hxp⟩ := mem_eventsOf.mp (h.sound p hp)
      exact mem_eventsOf.mpr ⟨x, List.mem_append_left _ hx, hxp⟩
    covered := by
      intro g hg p hp
      obtain ⟨x, hx, hid, he⟩ := mem_eventsOf.mp hp
      rcases List.mem_append.mp hx with hx | hx
      · exact h.covered g hg p (mem_eventsOf.mpr ⟨x, hx, hid, he⟩)
      · obtain rfl := List.mem_singleton.mp hx
        have hpos : g.lastDelivered ≤ s.stream.lastId := h.wf.positioned g hg
        have hid' : s.stream.lastId + 1 = p.1 := hid
        -- a new entry stands behind all that was delivered
        exact Or.inl (by omega) }

/-- The only event of an entry's id is its own. -/
theorem InOrder.event_of_id {p : ℕ × InternalEvent ι Dec} (h : InOrder c id s)
    (hx : x ∈ s.stream.entries) (hp : p ∈ eventsOf c id s.stream.entries) (hpx : p.1 = x.id) :
    eventOf c id x.fields = some p.2 := by
  obtain ⟨y, hy, hid, he⟩ := mem_eventsOf.mp hp
  obtain rfl := h.wf.eq_of_id_eq hy hx (hid.trans hpx)
  exact he

/-- **An entry that is given up.** -/
theorem InOrder.moveToDlq {calls : Calls} (h : InOrder c id s) (hg : s.stream.group = some g)
    (hx : x ∈ s.stream.entries)
    (hcov : calls.xadd = true → calls.xack = true → ∀ e, eventOf c id x.fields = some e →
      isCovered s.published x.id e = true) :
    InOrder c id (moveToDlq reg stream s g x calls) := by
  unfold Projection.moveToDlq
  split
  · rename_i hxadd
    refine InOrder.ack { h with } hg fun hxack p hp hpx => ?_
    rw [hpx]
    exact hcov hxadd hxack p.2 (h.event_of_id hx hp hpx)
  · exact h

/-- **An entry that is dispatched.** -/
theorem InOrder.dispatch {calls : Calls} (h : InOrder c id s) (hg : s.stream.group = some g)
    (hres : resolveDeploymentIdFromStream reg stream = some id) (hx : x ∈ s.stream.entries)
    (hnone : calls.publish ≠ .stateRaises → ∀ e, eventOf c id x.fields = some e →
      noneBehind s.published x.id e = true) :
    InOrder c id (dispatch c reg stream s g x calls) := by
  unfold Projection.dispatch
  rw [hres]
  obtain ⟨hpub, hacked⟩ := dispatchEntry_spec c id x.fields calls.publish
  cases hout : (dispatchEntry c (some id) x.fields calls.publish).published with
  | none =>
    simp only [hout, Option.map_none, Option.toList_none, List.append_nil]
    refine InOrder.ack h hg fun hxack p hp hpx => ?_
    -- an entry that publishes nothing is acknowledged only if it has no event
    have heq := hacked (Bool.and_eq_true_iff.mp hxack).1
    rw [hout, h.event_of_id hx hp hpx] at heq
    cases heq
  | some e =>
    simp only [hout, Option.map_some, Option.toList_some]
    rw [hpub] at hout
    split at hout
    · cases hout
    · rename_i hok
      refine InOrder.ack (h.publish hx hout (hnone hok e hout)) hg fun _ p hp hpx => ?_
      have heq := h.event_of_id hx hp hpx
      obtain rfl := Option.some.inj (hout.symm.trans heq)
      -- the event has just been published itself
      refine isCovered_iff.mpr fun k hk => ⟨(x.id, p.2), by simp, hk, ?_⟩
      exact Nat.le_of_eq hpx

/-- **A message of the state channel.** -/
theorem InOrder.apply {p : ℕ × InternalEvent ι Dec} (h : InOrder c id s)
    (hp : s.published[s.applied]? = some p) :
    InOrder c id { s with state := s.state.apply p.2, applied := s.applied + 1 } :=
  { h with
    bounded := by
      have hlt := (List.getElem?_eq_some_iff.mp hp).1
      show s.applied + 1 ≤ s.published.length
      omega
    replayed := by
      show s.state.apply p.2 = _
      rw [List.take_add_one, hp, Option.toList_some, List.map_append, List.foldl_append,
        ← h.replayed]
      rfl }

variable [DecidableEq κ]

/-- A worker takes another batch. -/
theorem InOrder.setWorker {w : Worker} (h : InOrder c id s) (me : κ)
    (hw : ∀ x ∈ w.rest, x ∈ s.stream.entries) :
    InOrder c id { s with workers := Function.update s.workers me w } :=
  { h with
    held := by
      intro me' x hx
      simp only [Function.update_apply] at hx
      split at hx
      · exact hw x hx
      · exact h.held me' x hx }

/-- **A fresh batch.** -/
theorem InOrder.read (h : InOrder c id s) (hg : s.stream.group = some g) (now count : ℕ) :
    InOrder c id { s with
      stream := { s.stream with group := some (g.read s.stream.entries now me count).2 }
      workers := Function.update s.workers me
        { rest := (g.read s.stream.entries now me count).1, sweep := none } } := by
  have hwf : { s.stream with group := some (g.read s.stream.entries now me count).2 }.WF :=
    h.wf.read hg
  have hgroup := h.setGroup hwf ?_
  · refine hgroup.setWorker me fun x hx => ?_
    have hmem : x ∈ (g.read s.stream.entries now me count).1 := hx
    exact (ConsumerGroup.mem_read hmem).1
  · intro p hp
    obtain ⟨x, hx, hid, _⟩ := mem_eventsOf.mp hp
    rcases h.covered g hg p hp with hlt | ⟨q, hq, hqid⟩ | hcovered
    · -- an entry behind the cursor is delivered by this read, or stays behind it
      rw [← hid] at hlt ⊢
      rcases ConsumerGroup.read_cut now me count h.wf.sorted hx hlt with ⟨hmem, _⟩ | ⟨_, hlt'⟩
      · exact Or.inr (Or.inl ⟨_, ConsumerGroup.mem_read_pel.mpr (Or.inr ⟨x, hmem, rfl⟩), rfl⟩)
      · exact Or.inl hlt'
    · exact Or.inr (Or.inl ⟨q, ConsumerGroup.mem_read_pel.mpr (Or.inl hq), hqid⟩)
    · exact Or.inr (Or.inr hcovered)

/-- **A page of a sweep.** -/
theorem InOrder.claim (h : InOrder c id s) (hg : s.stream.group = some g)
    (now minIdle start count : ℕ) {w : Worker}
    (hw : ∀ x ∈ w.rest, x ∈ (g.autoclaim s.stream.entries now minIdle me start count).2.1) :
    InOrder c id { s with
      stream := { s.stream with
        group := some (g.autoclaim s.stream.entries now minIdle me start count).2.2 }
      workers := Function.update s.workers me w } := by
  have hwf : { s.stream with
      group := some (g.autoclaim s.stream.entries now minIdle me start count).2.2 }.WF :=
    h.wf.autoclaim hg
  have hgroup := h.setGroup hwf ?_
  · exact hgroup.setWorker me fun x hx => ConsumerGroup.mem_autoclaim_claimed (hw x hx)
  · intro p hp
    obtain ⟨x, hx, hid, _⟩ := mem_eventsOf.mp hp
    rcases h.covered g hg p hp with hlt | hpend | hcovered
    · exact Or.inl hlt
    · refine Or.inr (Or.inl ?_)
      rw [← hid] at hpend ⊢
      -- a sweep changes who holds an entry, not whether it is pending
      exact (ConsumerGroup.isPending_autoclaim hx).mpr hpend
    · exact Or.inr (Or.inr hcovered)

/-- **Step.** -/
theorem InOrder.step (hres : resolveDeploymentIdFromStream reg stream = some id)
    (h : InOrder c id s) (hC : PublishesInOrder c id cfg s a)
    (hs : projectionStep cfg c reg stream s a = some t) : InOrder c id t := by
  cases a with
  | add fields =>
    obtain rfl := Option.some.inj hs
    exact h.add fields
  | read me now =>
    obtain ⟨g, hg, hs⟩ := Option.bind_eq_some_iff.mp hs
    simp only at hs
    split at hs
    · obtain rfl := Option.some.inj hs
      exact h.read hg now cfg.count
    · cases hs
  | claim me now =>
    obtain ⟨g, hg, hs⟩ := Option.bind_eq_some_iff.mp hs
    simp only at hs
    split at hs
    · obtain rfl := Option.some.inj hs
      refine h.claim hg now cfg.minIdleMs _ 100 fun x hx => ?_
      split at hx
      · cases hx
      · exact hx
    · cases hs
  | handle me calls =>
    obtain ⟨g, hg, hs⟩ := Option.bind_eq_some_iff.mp hs
    simp only at hs
    split at hs
    · cases hs
    rename_i x rest hrest
    obtain rfl := Option.some.inj hs
    have hx : x ∈ s.stream.entries := h.held me x (by simp [hrest])
    have hw : ∀ y ∈ rest, y ∈ s.stream.entries :=
      fun y hy => h.held me y (by simp [hrest, hy])
    have h' := InOrder.setWorker (w := { s.workers me with rest := rest }) h me hw
    simp only [PublishesInOrder, publishesInOrder, hg, hrest, List.head?_cons, Option.all_some]
      at hC
    split
    · rename_i hpoison
      refine h'.moveToDlq hg hx fun hxadd hxack e he => ?_
      simpa [he, hpoison, hxadd, hxack] using hC
    · rename_i hpoison
      refine h'.dispatch hg hres hx fun hpub e he => ?_
      simpa [he, hpoison, hpub] using hC
  | abort me =>
    obtain rfl := Option.some.inj hs
    exact h.setWorker me fun x hx => by cases hx
  | apply =>
    obtain ⟨p, hp, rfl⟩ := Option.map_eq_some_iff.mp hs
    exact h.apply hp

end Step

/-! ### Every run -/

section Run

variable {cfg : ConsumerConfig} {c : Coercion Dec} {reg : StreamRegistry ι} {stream : String}
  {id : ι} {s : ProjectionSite κ ι Dec}

theorem inOrder_initial : InOrder c id (ProjectionSite.initial : ProjectionSite κ ι Dec) where
  wf :=
    { sorted := .nil
      bounded := List.forall_mem_nil _
      positioned := by
        intro g hg
        obtain rfl := Option.some.inj hg
        exact Nat.le_refl _
      delivered := by
        intro g hg p hp
        obtain rfl := Option.some.inj hg
        cases hp
      stored := by
        intro g hg p hp
        obtain rfl := Option.some.inj hg
        cases hp }
  held := fun _ _ hx => by cases hx
  sound := fun _ hp => by cases hp
  rising := .nil
  covered := fun _ _ _ hp => by cases hp
  bounded := Nat.le_refl _
  replayed := rfl

/-- Once every entry is through, a register of the state shows the last write of the stream. -/
theorem InOrder.lookup_eq {ν : Type} {val : InternalEvent ι Dec → Option ν} {k : Slot ι}
    (get : ProjectionState ι Dec → Option ν) (h : InOrder c id s) (hall : allHandled s = true)
    (hget : ∀ st e, get (ProjectionState.apply st e) = (val e).or (get st))
    (hval : ∀ e, (val e).isSome ↔ e.slot = some k) :
    get s.state = get (inStreamOrder c id s.stream.entries) := by
  simp only [allHandled, Bool.and_eq_true, Option.any_eq_true, List.all_eq_true,
    decide_eq_true_eq] at hall
  obtain ⟨⟨g, hg, hentries⟩, happlied⟩ := hall
  rw [h.replayed, inStreamOrder, happlied, List.take_length, lookup_foldl get hget,
    lookup_foldl get hget, lastWrite_map, lastWrite_map]
  congr 1
  refine lastWrite_eq_of_covers (eventsOf_sorted h.wf.sorted) h.sound ?_ fun p hp hsome => ?_
  · exact h.rising.imp fun hpq hp hq => hpq k ((hval _).mp hp) ((hval _).mp hq)
  · obtain ⟨x, hx, hid, _⟩ := mem_eventsOf.mp hp
    obtain ⟨hdelivered, hnot⟩ := hentries x hx
    rw [hid] at hdelivered hnot
    rcases h.covered g hg p hp with hlt | hpend | hcovered
    · omega
    · rw [← ConsumerGroup.timesDelivered_isSome] at hpend
      rw [Option.isNone_iff_eq_none.mp hnot] at hpend
      cases hpend
    · obtain ⟨q, hq, hqk, hle⟩ := isCovered_iff.mp hcovered k ((hval _).mp hsome)
      exact ⟨q, hq, (hval _).mpr hqk, hle⟩

theorem InOrder.converged (h : InOrder c id s) (hall : allHandled s = true) : Converged c id s := by
  constructor
  · intro i instrument
    exact h.lookup_eq (·.getPosition i instrument) hall (getPosition_apply · · i instrument)
      fun _ => positionAt_isSome
  · intro i
    exact h.lookup_eq (·.getAccount i) hall (getAccount_apply · · i)
      fun _ => accountAt_isSome

theorem getPosition_inStreamOrder {entries : List (Entry EntryFields)} {i : ι}
    {instrument : String} :
    (inStreamOrder c id entries).getPosition i instrument
      = lastWrite (·.positionAt i instrument) ((eventsOf c id entries).map (·.2)) := by
  have hfold := lookup_foldl (·.getPosition i instrument) (getPosition_apply · · i instrument)
    ((eventsOf c id entries).map (·.2)) (.empty : ProjectionState ι Dec)
  exact hfold.trans Option.or_none

theorem getAccount_inStreamOrder {entries : List (Entry EntryFields)} {i : ι} :
    (inStreamOrder c id entries).getAccount i
      = lastWrite (·.accountAt i) ((eventsOf c id entries).map (·.2)) := by
  have hfold := lookup_foldl (·.getAccount i) (getAccount_apply · · i)
    ((eventsOf c id entries).map (·.2)) (.empty : ProjectionState ι Dec)
  exact hfold.trans Option.or_none

omit [DecidableEq ι] in
/-- In a stream in time order, the last event of a slot has the greatest time. -/
theorem InTimeOrder.lastWrite_ts {ν : Type} {val : InternalEvent ι Dec → Option ν} {k : Slot ι}
    {time : ν → ℤ} {entries : List (Entry EntryFields)} (h : InTimeOrder c id entries)
    (hval : ∀ e, (val e).isSome ↔ e.slot = some k) (htime : ∀ e x, val e = some x → e.ts = time x)
    {n : ℕ} {e : InternalEvent ι Dec} {x : ν} (he : (n, e) ∈ eventsOf c id entries)
    (hx : val e = some x) :
    ∃ x', lastWrite val ((eventsOf c id entries).map (·.2)) = some x' ∧ time x ≤ time x' := by
  rw [lastWrite_map]
  refine le_lastWrite (R := fun x x' => time x ≤ time x') (fun x => Int.le_refl (time x)) ?_ he hx
  refine h.imp fun {p q} hpq x x' hp hq => ?_
  rw [← htime _ _ hp, ← htime _ _ hq]
  exact hpq k ((hval _).mp (by simp [hp])) ((hval _).mp (by simp [hq]))

/-- In a stream in time order, a converged state has the newest snapshots. -/
theorem Converged.holdsNewest (h : Converged c id s) : HoldsNewest c id s := by
  intro htime
  constructor
  · intro n e he
    have hwrite : (InternalEvent.position e).positionAt e.deploymentId e.instrumentId = some e := by
      simp [InternalEvent.positionAt]
    obtain ⟨e', hlast, hle⟩ := htime.lastWrite_ts (fun _ => positionAt_isSome)
      (fun _ _ => ts_of_positionAt) he hwrite
    refine ⟨e', ?_, hle⟩
    rw [h.1, getPosition_inStreamOrder, hlast]
  · intro n e he
    have hwrite : (InternalEvent.accountState e).accountAt e.deploymentId = some e := by
      simp [InternalEvent.accountAt]
    obtain ⟨e', hlast, hle⟩ := htime.lastWrite_ts (fun _ => accountAt_isSome)
      (fun _ _ => ts_of_accountAt) he hwrite
    refine ⟨e', ?_, hle⟩
    rw [h.2, getAccount_inStreamOrder, hlast]

/-- **Convergence.**  For a stream whose name resolves to its deployment, in every run of
    deliveries, failed publishes and acknowledgements, sweeps and deaths of workers that publishes
    no event behind a newer one of its slot and gives up none before it or a newer one was
    published: once every entry has been handled, the positions and the accounts are what the
    events, applied once each in stream order, leave, and if the stream is in time order they are
    the newest. -/
theorem projection_converges_of_in_order [DecidableEq κ]
    {as : List (ProjectionLabel κ)} {t : ProjectionSite κ ι Dec}
    (hres : resolveDeploymentIdFromStream reg stream = some id)
    (h : Path (projectionSystem cfg c reg stream) (PublishesInOrder c id cfg) .initial as t)
    (hall : allHandled t = true) : Converged c id t ∧ HoldsNewest c id t := by
  have hinv : InOrder c id t :=
    h.invariant (fun _ _ _ hI hC hs => hI.step hres hC hs) inOrder_initial
  have hconv := hinv.converged hall
  exact ⟨hconv, hconv.holdsNewest⟩

end Run

/-! ### A publish that is retried -/

/-- A registry that has deployment `7` under a name the consumer can take apart. -/
def resolvableRegistry : StreamRegistry ℕ :=
  StreamRegistry.empty.register 7 "abc" "trader-MSAI-abc-stream"

/-- The two numerals of the entries below. -/
def tenOrTwelve : Coercion ℤ :=
  { decimal := fun s => if s = "10" then some 10 else if s = "12" then some 12 else none
    now := 0 }

/-- A position of AAPL grows from 10 to 12. -/
def grownEntry : EntryFields :=
  { topic := "events.position.changed"
    payload := .dict
      { fields := [("instrument_id", .text "AAPL.NASDAQ"), ("quantity", .text "12"),
          ("ts_event", .int 6)]
        balances := []
        margins := [] } }

/-- The first snapshot is not published at once, but before the second is read. -/
def retriedInOrder : List (ProjectionLabel Unit) :=
  [.add positionEntry, .read () 0, .handle () { publish := .stateRaises }, .claim () 30000,
    .handle () {}, .add grownEntry, .read () 30001, .handle () {}, .apply, .apply]

/-- The first snapshot is not published at once, and claimed behind the second. -/
def retriedBehind : List (ProjectionLabel Unit) :=
  [.add positionEntry, .add grownEntry, .read () 0, .handle () { publish := .stateRaises },
    .handle () {}, .claim () 30000, .handle () {}, .apply, .apply]

/-- The theorem at a retry that comes in order. -/
theorem projection_converges_retried_in_order :
    ∃ t, Path (projectionSystem {} tenOrTwelve resolvableRegistry "trader-MSAI-abc-stream")
        anyStep .initial retriedInOrder t ∧
      Converged tenOrTwelve 7 t ∧ HoldsNewest tenOrTwelve 7 t := by
  have hres : resolveDeploymentIdFromStream resolvableRegistry "trader-MSAI-abc-stream"
      = some 7 := by decide
  obtain ⟨t, ht, hall⟩ :
      ∃ t, (projectionSystem {} tenOrTwelve resolvableRegistry "trader-MSAI-abc-stream").runWhere
          (PublishesInOrder tenOrTwelve 7 {}) .initial retriedInOrder = some t ∧
        allHandled t = true := ⟨_, rfl, rfl⟩
  have hpath := Path.of_runWhere ht
  exact ⟨t, hpath.mono fun _ _ _ _ => trivial,
    projection_converges_of_in_order hres hpath hall⟩

/-- The retry puts the older snapshot in the place of the newer. -/
theorem projection_convergence_fails :
    ∃ t, Path (projectionSystem {} tenOrTwelve resolvableRegistry "trader-MSAI-abc-stream")
        anyStep .initial retriedBehind t ∧
      allHandled t = true ∧ ¬Converged tenOrTwelve 7 t := by
  obtain ⟨t, ht, hall, hstate, horder⟩ :
      ∃ t, (projectionSystem {} tenOrTwelve resolvableRegistry "trader-MSAI-abc-stream").run
          .initial retriedBehind = some t ∧ allHandled t = true ∧
        (t.state.getPosition 7 "AAPL.NASDAQ").map (·.qty) = some 10 ∧
        ((inStreamOrder tenOrTwelve 7 t.stream.entries).getPosition 7 "AAPL.NASDAQ").map (·.qty)
          = some 12 := ⟨_, rfl, rfl, rfl, rfl⟩
  refine ⟨t, .of_run ht, hall, fun hconv => ?_⟩
  rw [hconv.1, horder] at hstate
  cases hstate

end Msai.Projection
