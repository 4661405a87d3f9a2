import Msai.Live.CommandBus.Model

namespace Msai.Live.CommandBus

open Lib

/-!
# No published command is lost

Every entry whose `XADD` completed has exactly one place: not yet delivered, pending,
acknowledged after a handler returned `True`, or removed by a DLQ move whose copy is in the
DLQ.  The group position is set by whichever of producer and consumer comes first, and both
create the group before anything is added or read (`Placed`); the entries a consumer holds
are stored entries, and an `XACK` is always preceded by what justifies it (`Held`).

A DLQ copy does not by itself take an entry out of the PEL: between the two writes of
`_move_to_dlq` the entry is pending *and* copied.
-/

universe u

variable {κ : Type u}

/-! ### The DLQ copy -/

/-- The keys `_move_to_dlq` adds. -/
def dlqKeys : List String :=
  ["original_entry_id", "delivery_count", "dlq_reason", "moved_at", "source_stream"]

/-- A DLQ copy of `e` that keeps every field of `e` the diagnostics do not overwrite. -/
def Copied (dlq : List Fields) (e : Entry Fields) : Prop :=
  ∃ copy ∈ dlq, copy.lookup "original_entry_id" = some (toString e.id) ∧
    ∀ k v, k ∉ dlqKeys → e.fields.lookup k = some v → copy.lookup k = some v

/-- A DLQ copy of `e` with all its original fields. -/
def CopiedWhole (dlq : List Fields) (e : Entry Fields) : Prop :=
  ∃ copy ∈ dlq, copy.lookup "original_entry_id" = some (toString e.id) ∧
    ∀ k v, e.fields.lookup k = some v → copy.lookup k = some v

namespace Fields

variable {d more : Fields} {k k' v : String}

private theorem lookup_cons_ite (a b k : String) (d : Fields) :
    List.lookup k ((a, b) :: d) = if k = a then some b else d.lookup k := by
  rw [List.lookup_cons]
  by_cases h : k = a
  · simp [h]
  · simp [h, beq_false_of_ne h]

private theorem lookup_map_replace (d : Fields) (k k' v : String) :
    (d.map fun kv => if kv.1 == k then (k, v) else kv).lookup k' =
      if k' = k then (d.lookup k).map fun _ => v else d.lookup k' := by
  induction d with
  | nil => simp
  | cons kv d ih =>
    obtain ⟨a, b⟩ := kv
    rw [List.map_cons]
    by_cases ha : a = k
    · subst ha
      simp only [beq_self_eq_true, if_true, lookup_cons_ite, ih]
      by_cases hk : k' = a <;> simp [hk]
    · simp only [beq_false_of_ne ha, Bool.false_eq_true, if_false, lookup_cons_ite, ih]
      by_cases hk : k' = k
      · subst hk
        simp [Ne.symm ha]
      · simp [hk]

/-- Reading after an assignment. -/
theorem lookup_set (d : Fields) (k k' v : String) :
    (d.set k v).lookup k' = if k' = k then some v else d.lookup k' := by
  unfold set
  split
  · rename_i h
    rw [lookup_map_replace]
    obtain ⟨w, hw⟩ := Option.isSome_iff_exists.mp h
    simp [hw]
  · rename_i h
    rw [List.lookup_append, lookup_cons_ite]
    by_cases hk : k' = k
    · subst hk
      simp [Option.not_isSome_iff_eq_none.mp h]
    · simp [hk]

/-- Keys that `more` does not assign keep their value. -/
theorem lookup_update_of_notMem (h : k ∉ more.map Prod.fst) :
    (d.update more).lookup k = d.lookup k := by
  induction more generalizing d with
  | nil => rfl
  | cons kv more ih =>
    simp only [List.map_cons, List.mem_cons, not_or] at h
    rw [update, List.foldl_cons]
    refine (ih h.2).trans ?_
    rw [lookup_set, if_neg h.1]

/-- A key of the updated dict comes from one of the two. -/
theorem lookup_update_source (h : (d.update more).lookup k = some v) :
    k ∈ more.map Prod.fst ∨ d.lookup k = some v := by
  by_cases hk : k ∈ more.map Prod.fst
  · exact .inl hk
  · exact .inr (by rwa [lookup_update_of_notMem hk] at h)

end Fields

section Copy

variable {J U : Type} (codec : Codec J U)

/-- The DLQ fields keep the original ones and name the original entry. -/
theorem copied_dlqFields (e : Entry Fields) (n : ℕ) (reason : String) (now : ℕ) (stream : String)
    (dlq : List Fields) :
    Copied (dlq ++ [dlqFields codec e.fields e.id n reason now stream]) e := by
  refine ⟨_, List.mem_append_right _ (List.mem_singleton.mpr rfl), ?_, fun k v hk hv => ?_⟩
  · simp [dlqFields, dlqExtra, Fields.update, Fields.lookup_set]
  · have hmem : k ∉ (dlqExtra codec e.id n reason now stream).map Prod.fst := hk
    rw [dlqFields, Fields.lookup_update_of_notMem hmem]
    exact hv

private theorem payload_ne_dlqKey (x : String) : "payload_" ++ x ∉ dlqKeys := by
  intro h
  have hhead : ∀ k ∈ dlqKeys, k.toList.head? ≠ some 'p' := by decide
  exact hhead _ h (by simp)

/-- Published commands use none of the diagnostic keys. -/
theorem publishFields_notMem {ty : LiveCommandType} {dep : U} {payload : List (String × J)}
    {key : Option String} {k v : String}
    (h : (publishFields codec ty dep payload key).lookup k = some v) : k ∉ dlqKeys := by
  rcases Fields.lookup_update_source h with hk | hk
  · rw [List.map_map, List.mem_map] at hk
    obtain ⟨kv, -, rfl⟩ := hk
    exact payload_ne_dlqKey kv.1
  · intro hmem
    simp only [dlqKeys, List.mem_cons, List.not_mem_nil, or_false] at hmem
    rcases hmem with rfl | rfl | rfl | rfl | rfl <;> simp [List.lookup_cons] at hk

/-- For a published command the copy is whole. -/
theorem Copied.whole {dlq : List Fields} {e : Entry Fields} {ty : LiveCommandType} {dep : U}
    {payload : List (String × J)} {key : Option String} (h : Copied dlq e)
    (he : e.fields = publishFields codec ty dep payload key) : CopiedWhole dlq e := by
  obtain ⟨copy, hmem, hid, hkeep⟩ := h
  refine ⟨copy, hmem, hid, fun k v hv => hkeep k v ?_ hv⟩
  rw [he] at hv
  exact publishFields_notMem codec hv

end Copy

theorem Copied.mono {dlq dlq' : List Fields} {e : Entry Fields} (h : Copied dlq e)
    (hsub : dlq ⊆ dlq') : Copied dlq' e := by
  obtain ⟨copy, hmem, h⟩ := h
  exact ⟨copy, hsub hmem, h⟩

/-! ### Where an entry is -/

/-- The places of a published entry. -/
inductive Place
  | undelivered
  | pending
  | acknowledged
  | deadLettered
deriving DecidableEq, Repr

/-- `e` is at a place. -/
def At (s : State κ) (e : Entry Fields) : Place → Prop
  | .undelivered => ∃ g, s.stream.group = some g ∧ g.lastDelivered < e.id
  | .pending => ∃ g, s.stream.group = some g ∧ g.isPending e.id
  | .acknowledged => s.removedBy e.id = some .handlerAck ∧ s.handledTrue e.id = true
  | .deadLettered => s.removedBy e.id = some .dlqMove ∧ CopiedWhole s.dlq e

/-- Stream, group position and removals fit together. -/
structure Placed (st : GroupStream κ Fields) (ensured : ℕ → Bool)
    (removedBy : ℕ → Option Removal) : Prop where
  wf : st.WF
  /-- Nothing is added before the group exists. -/
  grouped : st.group = none → st.entries = [] ∧ ∀ p, ensured p = false
  /-- An entry was removed unless it is ahead of the group or pending. -/
  tracked : ∀ g, st.group = some g → ∀ e ∈ st.entries,
    removedBy e.id = none ↔ g.lastDelivered < e.id ∨ g.isPending e.id
  removed : ∀ id, removedBy id ≠ none → id ≤ st.lastId

namespace Placed

variable {st : GroupStream κ Fields} {ensured : ℕ → Bool} {removedBy : ℕ → Option Removal}
variable {g : ConsumerGroup κ} {now minIdle start count : ℕ} {me : κ} {e : Entry Fields}

theorem initial :
    Placed (GroupStream.empty : GroupStream κ Fields) (fun _ => false) (fun _ => none) where
  wf := GroupStream.wf_empty
  grouped := fun _ => ⟨rfl, fun _ => rfl⟩
  tracked := by simp [GroupStream.empty]
  removed := by simp

/-- `ensure_group`, by a producer or a consumer. -/
theorem createGroup (h : Placed st ensured removedBy) {ensured' : ℕ → Bool} :
    Placed st.createGroup ensured' removedBy := by
  cases hg : st.group with
  | some g =>
    have hst : st.createGroup = st := by simp [GroupStream.createGroup, hg]
    rw [hst]
    exact ⟨h.wf, by simp [hg], h.tracked, h.removed⟩
  | none =>
    have hnil := (h.grouped hg).1
    refine ⟨h.wf.createGroup, ?_, ?_, ?_⟩
    · simp [GroupStream.createGroup, hg]
    · simp [GroupStream.createGroup, hg, hnil]
    · simpa [GroupStream.createGroup, hg] using h.removed

/-- `XADD`: the new entry is ahead of the group. -/
theorem xadd (h : Placed st ensured removedBy) {p : ℕ} (hp : ensured p = true) (fields : Fields)
    {ensured' : ℕ → Bool} : Placed (st.xadd fields) ensured' removedBy where
  wf := h.wf.xadd
  grouped := by
    intro hg
    rw [(h.grouped hg).2 p] at hp
    cases hp
  tracked := by
    intro g hg e he
    rcases List.mem_append.mp he with he | he
    · exact h.tracked g hg e he
    · rw [List.mem_singleton.mp he]
      have hnone : removedBy (st.lastId + 1) = none := by
        by_contra hne
        exact absurd (h.removed _ hne) (by omega)
      have hpos := h.wf.positioned g hg
      simp only [hnone, true_iff]
      exact .inl (by omega)
  removed := fun id hid => Nat.le_succ_of_le (h.removed id hid)

/-- `XAUTOCLAIM` moves no entry. -/
theorem autoclaim (h : Placed st ensured removedBy) (hg : st.group = some g) :
    Placed { st with group := some (g.autoclaim st.entries now minIdle me start count).2.2 }
      ensured removedBy where
  wf := h.wf.autoclaim hg
  grouped := by simp
  tracked := by
    rintro g' ⟨⟩ e he
    rw [h.tracked g hg e he, ConsumerGroup.isPending_autoclaim he,
      ConsumerGroup.autoclaim_lastDelivered]
  removed := h.removed

/-- `XREADGROUP`: what leaves the unread part becomes pending. -/
theorem read (h : Placed st ensured removedBy) (hg : st.group = some g) :
    Placed { st with group := some (g.read st.entries now me count).2 } ensured removedBy where
  wf := h.wf.read hg
  grouped := by simp
  tracked := by
    rintro g' ⟨⟩ e he
    rw [h.tracked g hg e he]
    have hold : g.isPending e.id → (g.read st.entries now me count).2.isPending e.id := by
      rintro ⟨p, hp, hid⟩
      exact ⟨p, ConsumerGroup.mem_read_pel.mpr (.inl hp), hid⟩
    constructor
    · rintro (hlt | hp)
      · rcases ConsumerGroup.read_cut now me count h.wf.sorted he hlt with ⟨hmem, -⟩ | ⟨-, hlt'⟩
        · exact .inr ⟨_, ConsumerGroup.mem_read_pel.mpr (.inr ⟨e, hmem, rfl⟩), rfl⟩
        · exact .inl hlt'
      · exact .inr (hold hp)
    · rintro (hlt | ⟨p, hp, hid⟩)
      · exact .inl (Nat.lt_of_le_of_lt ConsumerGroup.lastDelivered_le_read hlt)
      · rcases ConsumerGroup.mem_read_pel.mp hp with hp | ⟨f, hf, rfl⟩
        · exact .inr ⟨p, hp, hid⟩
        · exact .inl (hid ▸ (ConsumerGroup.mem_read hf).2)
  removed := h.removed

/-- `XACK` of a pending entry takes it out of the PEL and records why. -/
theorem ack (h : Placed st ensured removedBy) (hg : st.group = some g) (hp : g.isPending e.id)
    (why : Removal) :
    Placed { st with group := some (g.ack e.id) } ensured
      (Function.update removedBy e.id (some why)) where
  wf := h.wf.ack hg
  grouped := by simp
  tracked := by
    rintro g' ⟨⟩ f hf
    by_cases hid : f.id = e.id
    · have hle : e.id ≤ g.lastDelivered := by
        obtain ⟨p, hmem, hpid⟩ := hp
        exact hpid ▸ h.wf.delivered g hg p hmem
      rw [hid, Function.update_self, ConsumerGroup.isPending_ack, ConsumerGroup.ack_lastDelivered]
      constructor
      · intro hsome
        cases hsome
      · rintro (hlt | ⟨-, hne⟩)
        · omega
        · exact absurd rfl hne
    · rw [Function.update_of_ne hid, h.tracked g hg f hf, ConsumerGroup.isPending_ack,
        ConsumerGroup.ack_lastDelivered]
      simp only [hid, ne_eq, not_false_eq_true, and_true]
  removed := by
    intro id hid
    by_cases heq : id = e.id
    · obtain ⟨p, hmem, hpid⟩ := hp
      rw [heq, ← hpid]
      exact Nat.le_trans (h.wf.delivered g hg p hmem) (h.wf.positioned g hg)
    · rw [Function.update_of_ne heq] at hid
      exact h.removed id hid

/-- `XACK` of an entry that is not pending changes nothing. -/
theorem ack_of_not_pending (h : Placed st ensured removedBy) (hg : st.group = some g) {id : ℕ}
    (hp : ¬ g.isPending id) : Placed { st with group := some (g.ack id) } ensured removedBy where
  wf := h.wf.ack hg
  grouped := by simp
  tracked := by
    rintro g' ⟨⟩ f hf
    rw [h.tracked g hg f hf, ConsumerGroup.isPending_ack, ConsumerGroup.ack_lastDelivered]
    refine or_congr_right ⟨fun hf' => ⟨hf', ?_⟩, And.left⟩
    rintro rfl
    exact hp hf'
  removed := h.removed

end Placed

/-! ### What the consumers hold -/

/-- Consumers only hold stored entries, and have reason for the `XACK` they are about to
    send. -/
def PhaseOk (s : State κ) : Phase → Prop
  | .batch _ rest | .yielded _ rest => ∀ f ∈ rest, f ∈ s.stream.entries
  | .moving _ e _ rest | .handling _ e rest => ∀ f ∈ e :: rest, f ∈ s.stream.entries
  | .moved _ e rest => Copied s.dlq e ∧ ∀ f ∈ e :: rest, f ∈ s.stream.entries
  | .acking _ e rest => s.handledTrue e.id = true ∧ ∀ f ∈ e :: rest, f ∈ s.stream.entries
  | _ => True

/-- What the consumers hold, and what the removals left behind. -/
structure Held (s : State κ) : Prop where
  phase : ∀ c, PhaseOk s (s.consumer c)
  acked : ∀ id, s.removedBy id = some .handlerAck → s.handledTrue id = true
  dead : ∀ e ∈ s.stream.entries, s.removedBy e.id = some .dlqMove → Copied s.dlq e

/-- `s'` forgets nothing of `s`. -/
structure Grows (s s' : State κ) : Prop where
  entries : s.stream.entries ⊆ s'.stream.entries
  dlq : s.dlq ⊆ s'.dlq
  handledTrue : ∀ id, s.handledTrue id = true → s'.handledTrue id = true

theorem Grows.phaseOk {s s' : State κ} {p : Phase} (h : Grows s s') (hp : PhaseOk s p) :
    PhaseOk s' p := by
  unfold PhaseOk at hp ⊢
  split <;> simp only at hp ⊢
  · exact fun f hf => h.entries (hp f hf)
  · exact fun f hf => h.entries (hp f hf)
  · exact fun f hf => h.entries (hp f hf)
  · exact fun f hf => h.entries (hp f hf)
  · exact ⟨hp.1.mono h.dlq, fun f hf => h.entries (hp.2 f hf)⟩
  · exact ⟨h.handledTrue _ hp.1, fun f hf => h.entries (hp.2 f hf)⟩

/-- The waiting entries of a phase are stored. -/
theorem PhaseOk.waiting {s : State κ} {p : Phase} (h : PhaseOk s p) :
    ∀ f ∈ p.waiting, f ∈ s.stream.entries := by
  intro f hf
  cases p with
  | batch src rest => exact h f hf
  | yielded src rest => exact h f hf
  | moving src e n rest => exact h f (List.mem_cons_of_mem _ hf)
  | handling src e rest => exact h f (List.mem_cons_of_mem _ hf)
  | moved src e rest => exact h.2 f (List.mem_cons_of_mem _ hf)
  | acking src e rest => exact h.2 f (List.mem_cons_of_mem _ hf)
  | _ => cases hf

/-- A phase between entries only needs its waiting entries to be stored. -/
theorem PhaseOk.of_between {s : State κ} {p : Phase} (hp : p.between = true)
    (h : ∀ f ∈ p.waiting, f ∈ s.stream.entries) : PhaseOk s p := by
  cases p with
  | batch src rest => exact h
  | yielded src rest => exact h
  | moving src e n rest => cases hp
  | handling src e rest => cases hp
  | moved src e rest => cases hp
  | acking src e rest => cases hp
  | _ => trivial

/-! ### Runs -/

section Runs

variable [DecidableEq κ] {J U : Type} {cfg : Config} {codec : Codec J U}
variable {s t : State κ} {a : Act κ} {as : List (Act κ)}

/-- Moving one consumer: the others keep what they hold. -/
theorem Held.setConsumer (h : Held s) {c : κ} {p : Phase} (hp : PhaseOk s p) :
    Held (s.setConsumer c p) where
  phase := by
    intro c'
    by_cases hc : c' = c
    · subst hc
      rw [State.setConsumer_self]
      exact hp
    · have : (s.setConsumer c p).consumer c' = s.consumer c' := Function.update_of_ne hc ..
      rw [this]
      exact h.phase c'
  acked := h.acked
  dead := h.dead

omit [DecidableEq κ] in
/-- A state that grows and keeps consumers and removals keeps what is held, as long as new
    entries were not removed. -/
theorem Held.grow (h : Held s) (hgrow : Grows s t) (hcons : t.consumer = s.consumer)
    (hrem : t.removedBy = s.removedBy)
    (hnew : ∀ e ∈ t.stream.entries, e ∈ s.stream.entries ∨ s.removedBy e.id = none) :
    Held t where
  phase := by
    intro c
    rw [hcons]
    exact hgrow.phaseOk (h.phase c)
  acked := by
    intro id hid
    rw [hrem] at hid
    exact hgrow.handledTrue id (h.acked id hid)
  dead := by
    intro e he hid
    rw [hrem] at hid
    rcases hnew e he with hold | hnone
    · exact (h.dead e hold hid).mono hgrow.dlq
    · rw [hnone] at hid
      cases hid

omit [DecidableEq κ] in
/-- `ensure_group` touches no entry. -/
theorem Held.createGroup (h : Held s) : Held { s with stream := s.stream.createGroup } :=
  h.grow ⟨by simp, by simp, by simp⟩ rfl rfl fun e he => .inl (by simpa using he)

omit [DecidableEq κ] in
/-- A group command touches no entry. -/
theorem Held.setGroup (h : Held s) (g : ConsumerGroup κ) : Held (s.setGroup g) :=
  h.grow ⟨List.Subset.refl _, List.Subset.refl _, fun _ => id⟩ rfl rfl fun _ he => .inl he

/-- The invariant of the bus. -/
structure Kept (s : State κ) : Prop where
  placed : Placed s.stream s.ensured s.removedBy
  held : Held s

omit [DecidableEq κ] in
/-- An `XACK` for which there is a reason. -/
theorem Kept.xack (h : Kept s) {g : ConsumerGroup κ} (hg : s.stream.group = some g)
    {e : Entry Fields} (why : Removal) (he : e ∈ s.stream.entries)
    (hack : why = .handlerAck → s.handledTrue e.id = true)
    (hdlq : why = .dlqMove → Copied s.dlq e) : Kept (s.xack g e.id why) := by
  have hphase : ∀ c, PhaseOk (s.xack g e.id why) ((s.xack g e.id why).consumer c) := by
    intro c
    have hgrow : Grows s (s.xack g e.id why) := ⟨by simp, by simp, by simp⟩
    rw [State.xack_consumer]
    exact hgrow.phaseOk (h.held.phase c)
  by_cases hp : (g.timesDelivered e.id).isSome = true
  · -- the entry was pending: this `XACK` takes it out, and records why
    have hrem : (s.xack g e.id why).removedBy = Function.update s.removedBy e.id (some why) := by
      unfold State.xack
      rw [if_pos hp]
    refine ⟨?_, hphase, fun id hid => ?_, fun f hf hid => ?_⟩
    · rw [State.xack_stream, State.xack_ensured, hrem]
      exact h.placed.ack hg (ConsumerGroup.timesDelivered_isSome.mp hp) why
    · rw [hrem] at hid
      rw [State.xack_handledTrue]
      by_cases heq : id = e.id
      · rw [heq, Function.update_self] at hid
        rw [heq]
        exact hack (Option.some.inj hid)
      · rw [Function.update_of_ne heq] at hid
        exact h.held.acked id hid
    · rw [hrem] at hid
      rw [State.xack_dlq]
      rw [State.xack_stream] at hf
      by_cases heq : f.id = e.id
      · rw [heq, Function.update_self] at hid
        rw [h.placed.wf.eq_of_id_eq hf he heq]
        exact hdlq (Option.some.inj hid)
      · rw [Function.update_of_ne heq] at hid
        exact h.held.dead f hf hid
  · -- somebody else has acknowledged it: a no-op
    have hrem : (s.xack g e.id why).removedBy = s.removedBy := by
      unfold State.xack
      rw [if_neg hp]
      rfl
    refine ⟨?_, hphase, ?_, ?_⟩
    · rw [State.xack_stream, State.xack_ensured, hrem]
      exact h.placed.ack_of_not_pending hg fun hpend =>
        hp (ConsumerGroup.timesDelivered_isSome.mpr hpend)
    · rw [hrem, State.xack_handledTrue]
      exact h.held.acked
    · rw [hrem, State.xack_dlq, State.xack_stream]
      exact h.held.dead

/-- **Step lemma.** -/
theorem Kept.step (h : Kept s) (hstep : step cfg codec s a = some t) : Kept t := by
  cases step_effect hstep with
  | ensureGroup p =>
    have hheld := h.held.createGroup
    exact ⟨h.placed.createGroup, hheld.phase, hheld.acked, hheld.dead⟩
  | xadd p fields hp =>
    refine ⟨h.placed.xadd hp fields, h.held.grow ⟨?_, by simp, by simp⟩ rfl rfl ?_⟩
    · exact List.subset_append_left ..
    · intro e he
      rcases List.mem_append.mp he with he | he
      · exact .inl he
      · -- a fresh id was never removed
        refine .inr ?_
        by_contra hne
        rw [List.mem_singleton.mp he] at hne
        exact absurd (h.placed.removed _ hne) (Nat.not_succ_le_self _)
  | attach c hc =>
    exact ⟨h.placed.createGroup, h.held.createGroup.setConsumer trivial⟩
  | claim c since cursor g hc hg =>
    exact ⟨h.placed.autoclaim hg,
      (h.held.setGroup _).setConsumer fun f hf => ConsumerGroup.mem_autoclaim_claimed hf⟩
  | moves c src e rest g hc hg hover =>
    have hph := h.held.phase c
    rw [hc] at hph
    exact ⟨h.placed, h.held.setConsumer hph⟩
  | decodes c src e rest g hc hg hover =>
    have hph := h.held.phase c
    rw [hc] at hph
    have hdec : Held { s with decodes := Function.update s.decodes e.id (s.decodes e.id + 1) } :=
      ⟨h.held.phase, h.held.acked, h.held.dead⟩
    refine ⟨h.placed, hdec.setConsumer ?_⟩
    split
    · exact hph
    · trivial
  | dlqAdd c src e n rest hc =>
    have hph := h.held.phase c
    rw [hc] at hph
    have hheld : Held { s with dlq := s.dlq ++
        [dlqFields codec e.fields e.id n "max_attempts" s.now cfg.stream] } :=
      h.held.grow ⟨List.Subset.refl _, List.subset_append_left .., fun _ => id⟩ rfl rfl
        fun _ he => .inl he
    exact ⟨h.placed, hheld.setConsumer
      ⟨copied_dlqFields codec e n "max_attempts" s.now cfg.stream s.dlq, hph⟩⟩
  | dlqAck c src e rest g hc hg =>
    -- the copy is in the DLQ before the original leaves the PEL
    have hph := h.held.phase c
    rw [hc] at hph
    have hk := h.xack hg .dlqMove (hph.2 e (by simp)) (by simp) (fun _ => hph.1)
    refine ⟨hk.placed, hk.held.setConsumer fun f hf => ?_⟩
    rw [State.xack_stream]
    exact hph.2 f (List.mem_cons_of_mem _ hf)
  | handled c src e rest hc =>
    have hph := h.held.phase c
    rw [hc] at hph
    have hgrow : Grows s
        { s with handledTrue := Function.update s.handledTrue e.id true } := by
      refine ⟨List.Subset.refl _, List.Subset.refl _, fun id hid => ?_⟩
      by_cases heq : id = e.id
      · simp [heq]
      · simpa [Function.update_of_ne heq] using hid
    refine ⟨h.placed, Held.setConsumer (h.held.grow hgrow rfl rfl fun e he => .inl he) ?_⟩
    exact ⟨by simp, hph⟩
  | ack c src e rest g hc hg =>
    -- the handler has returned `True` for this entry
    have hph := h.held.phase c
    rw [hc] at hph
    have hk := h.xack hg .handlerAck (hph.2 e (by simp)) (fun _ => hph.1) (by simp)
    refine ⟨hk.placed, hk.held.setConsumer fun f hf => ?_⟩
    rw [State.xack_stream]
    exact hph.2 f (List.mem_cons_of_mem _ hf)
  | read c last g hc hg =>
    exact ⟨h.placed.read hg,
      (h.held.setGroup _).setConsumer fun f hf => (ConsumerGroup.mem_read hf).1⟩
  | quiet c p hp hwait =>
    refine ⟨h.placed, h.held.setConsumer (.of_between hp fun f hf => ?_)⟩
    rcases hwait with hw | ⟨rfl, -⟩
    · exact (h.held.phase c).waiting f (hw ▸ hf)
    · cases hf
  | tick dt => exact ⟨h.placed, h.held.phase, h.held.acked, h.held.dead⟩

omit [DecidableEq κ] in
theorem kept_init : Kept (init κ) where
  placed := .initial
  held := ⟨fun _ => trivial, by simp [init], by simp [init]⟩

omit [DecidableEq κ] in
/-- In a kept state a published entry has exactly one place. -/
theorem Kept.existsUnique (h : Kept s) {e : Entry Fields} (he : e ∈ s.stream.entries)
    {ty : LiveCommandType} {dep : U} {payload : List (String × J)} {key : Option String}
    (hpub : e.fields = publishFields codec ty dep payload key) : ∃! p, At s e p := by
  obtain ⟨g, hg⟩ : ∃ g, s.stream.group = some g := by
    cases hg : s.stream.group with
    | none =>
      -- without a group nothing has been published
      rw [(h.placed.grouped hg).1] at he
      cases he
    | some g => exact ⟨g, rfl⟩
  have htracked := h.placed.tracked g hg e he
  have hexcl : g.lastDelivered < e.id → ¬ g.isPending e.id := by
    rintro hlt ⟨p, hp, hid⟩
    have := h.placed.wf.delivered g hg p hp
    omega
  -- split on the removal: the two remaining places are told apart by the position
  cases hrem : s.removedBy e.id with
  | none =>
    rcases htracked.mp hrem with hlt | hpend
    · refine ⟨.undelivered, ⟨g, hg, hlt⟩, fun p hp => ?_⟩
      cases p with
      | undelivered => rfl
      | pending =>
        obtain ⟨g', hg', hp⟩ := hp
        rw [hg] at hg'
        cases hg'
        exact absurd hp (hexcl hlt)
      | acknowledged => exact absurd (hrem.symm.trans hp.1) (by simp)
      | deadLettered => exact absurd (hrem.symm.trans hp.1) (by simp)
    · refine ⟨.pending, ⟨g, hg, hpend⟩, fun p hp => ?_⟩
      cases p with
      | undelivered =>
        obtain ⟨g', hg', hp⟩ := hp
        rw [hg] at hg'
        cases hg'
        exact absurd hpend (hexcl hp)
      | pending => rfl
      | acknowledged => exact absurd (hrem.symm.trans hp.1) (by simp)
      | deadLettered => exact absurd (hrem.symm.trans hp.1) (by simp)
  | some why =>
    have hgone : ¬ (g.lastDelivered < e.id ∨ g.isPending e.id) := by
      rw [← htracked, hrem]
      simp
    have hnot : ∀ p, At s e p → p ≠ .undelivered ∧ p ≠ .pending := by
      intro p hp
      constructor
      · rintro rfl
        obtain ⟨g', hg', hp⟩ := hp
        rw [hg] at hg'
        cases hg'
        exact hgone (.inl hp)
      · rintro rfl
        obtain ⟨g', hg', hp⟩ := hp
        rw [hg] at hg'
        cases hg'
        exact hgone (.inr hp)
    cases why with
    | handlerAck =>
      refine ⟨.acknowledged, ⟨hrem, h.held.acked e.id hrem⟩, fun p hp => ?_⟩
      cases p with
      | undelivered => exact absurd rfl (hnot _ hp).1
      | pending => exact absurd rfl (hnot _ hp).2
      | acknowledged => rfl
      | deadLettered => exact absurd (hrem.symm.trans hp.1) (by simp)
    | dlqMove =>
      refine ⟨.deadLettered, ⟨hrem, (h.held.dead e he hrem).whole codec hpub⟩, fun p hp => ?_⟩
      cases p with
      | undelivered => exact absurd rfl (hnot _ hp).1
      | pending => exact absurd rfl (hnot _ hp).2
      | acknowledged => exact absurd (hrem.symm.trans hp.1) (by simp)
      | deadLettered => rfl

/-- No step deletes a stream entry. -/
theorem step_entries (h : step cfg codec s a = some t) :
    s.stream.entries ⊆ t.stream.entries := by
  cases step_effect h with
  | ensureGroup p => simp
  | xadd p fields hp => exact List.subset_append_left ..
  | attach c hc => simp
  | dlqAck c src e rest g hc hg => simp
  | ack c src e rest g hc hg => simp
  | _ => exact List.Subset.refl _

/-- **No published command is lost.**  After its `XADD`, a command published by `_publish`
    is at every later moment in exactly one place: not yet delivered, pending, acknowledged
    after a handler returned `True`, or removed by a DLQ move whose copy, with all its
    original fields, is in the DLQ. -/
theorem published_command_placed {bs : List (Act κ)} {u : State κ} {p : ℕ} {ty : LiveCommandType}
    {dep : U} {payload : List (String × J)} {key : Option String}
    (hbefore : (system cfg codec).Path TransitionSystem.anyStep (init κ) as s)
    (hadd : step cfg codec s (.xadd p (publishFields codec ty dep payload key)) = some t)
    (hlater : (system cfg codec).Path TransitionSystem.anyStep t bs u) :
    ∃! q, At u ⟨s.stream.lastId + 1, publishFields codec ty dep payload key⟩ q := by
  have hkept : ∀ (s : State κ) a t, Kept s → TransitionSystem.anyStep s a →
      step cfg codec s a = some t → Kept t := fun _ _ _ hs _ h => hs.step h
  have hs : Kept s := hbefore.invariant hkept kept_init
  have ht : Kept t := hs.step hadd
  have hmem : (⟨s.stream.lastId + 1, publishFields codec ty dep payload key⟩ : Entry Fields) ∈
      t.stream.entries := by
    simp only [CommandBus.step] at hadd
    split at hadd
    · cases hadd
      exact List.mem_append_right _ (List.mem_singleton.mpr rfl)
    · cases hadd
  have hsub : t.stream.entries ⊆ u.stream.entries :=
    hlater.relates (R := fun s t => s.stream.entries ⊆ t.stream.entries) hkept
      (fun _ => List.Subset.refl _) List.Subset.trans (fun _ _ _ _ _ h => step_entries h) ht
  exact (hlater.invariant hkept ht).existsUnique (hsub hmem) rfl

end Runs

/-! ### Between the two writes of a DLQ move -/

/-- The places as Redis shows them: a DLQ copy counts whether or not the entry has left the
    PEL. -/
def Seen (s : State κ) (e : Entry Fields) : Place → Prop
  | .deadLettered => CopiedWhole s.dlq e
  | p => At s e p

/-- After the `XADD` to the DLQ and before the `XACK`, a command is both pending and
    copied. -/
theorem seen_twice :
    ¬ ∀ (bs : List (Act Unit)) (s t u : State Unit),
      (system {} textCodec).Path TransitionSystem.anyStep (init Unit) [.ensureGroup 0] s →
      step {} textCodec s (.xadd 0 startFields) = some t →
      (system {} textCodec).Path TransitionSystem.anyStep t bs u →
        ∃! q, Seen u ⟨s.stream.lastId + 1, startFields⟩ q := by
  intro h
  obtain ⟨q, -, huniq⟩ := h (failingService ++ [.dlqAdd ()]) _ _ _ (.of_run rfl) rfl (.of_run rfl)
  have hpending := huniq .pending ⟨_, rfl, _, List.mem_singleton.mpr rfl, rfl⟩
  have hcopied := huniq .deadLettered
    ((copied_dlqFields textCodec ⟨1, startFields⟩ 5 "max_attempts" 120000 "msai:live:commands"
      []).whole textCodec rfl)
  rw [← hpending] at hcopied
  cases hcopied

/-- `published_command_placed` on a run that goes through a whole DLQ move. -/
theorem published_command_placed_failing :
    ∃ s t u, (system {} textCodec).Path TransitionSystem.anyStep (init Unit) [.ensureGroup 0] s ∧
      step {} textCodec s (.xadd 0 startFields) = some t ∧
      (system {} textCodec).Path TransitionSystem.anyStep t
        (failingService ++ [.dlqAdd (), .dlqAck ()]) u ∧
      ∃! q, At u ⟨s.stream.lastId + 1, startFields⟩ q := by
  obtain ⟨s, hs, t, ht, u, hu⟩ :
      ∃ s, (system {} textCodec).run (init Unit) [.ensureGroup 0] = some s ∧
      ∃ t, step {} textCodec s (.xadd 0 startFields) = some t ∧
      ∃ u, (system {} textCodec).run t (failingService ++ [.dlqAdd (), .dlqAck ()]) = some u :=
    ⟨_, rfl, _, rfl, _, rfl⟩
  exact ⟨s, t, u, .of_run hs, ht, .of_run hu,
    published_command_placed (.of_run hs) ht (.of_run hu)⟩

end Msai.Live.CommandBus
