import Msai.Live.CommandBus.Model

namespace Msai.Live.CommandBus

open Lib

/-!
# Dead-lettering and attempts

Redis counts deliveries, not attempts: `XREADGROUP` and `XAUTOCLAIM` bump the count of a
whole batch before any entry of it is decoded.  This file relates the two for the single
consumer of an account stream, restarted after every crash.

* `Attempted` — an entry is moved to the DLQ only after `max_delivery_attempts - 1` calls
  of `from_redis` on it.
* `abandoned` — the entries a step drops from the batch without having looked at them.
* `attempted_of_no_abandon` — the property holds in every run without such a step; in
  `poisonRun` a poison entry at the head of every batch gets its neighbour dead-lettered
  unseen.
-/

section Property

variable {J U : Type} (cfg : Config) (codec : Codec J U)

/-- A DLQ move only happens to an entry that was decoded often enough before. -/
def Attempted (s : State Unit) : Prop :=
  ∀ t, step cfg codec s (.dlqAdd ()) = some t →
    ∃ src e n rest, s.consumer () = .moving src e n rest ∧
      cfg.maxDeliveryAttempts - 1 ≤ s.decodes e.id

/-- The entries of the current batch that a step drops before they were looked at: a crash,
    a stop after a yield, or an entry that does not decode. -/
def abandoned (s : State Unit) : Act Unit → List (Entry Fields)
  | .crash c => (s.consumer c).waiting
  | .resume c true => (s.consumer c).waiting
  | .look c =>
    match s.consumer c, s.stream.group with
    | .batch src (e :: rest), some g =>
      if overCeiling cfg g src e || decodable codec e.fields then [] else rest
    | _, _ => []
  | _ => []

/-- No entry is dropped from a batch unseen. -/
def NoAbandon (s : State Unit) (a : Act Unit) : Prop := abandoned cfg codec s a = []

instance (s : State Unit) (a : Act Unit) : Decidable (NoAbandon cfg codec s a) :=
  inferInstanceAs (Decidable (abandoned cfg codec s a = []))

/-- The PEL record of an entry against its attempts: over the ceiling for good, or at most
    one delivery ahead, and then only while the entry waits in the batch. -/
def Accounted (decodes : ℕ → ℕ) (waiting : List (Entry Fields)) (p : Pending Unit) : Prop :=
  cfg.maxDeliveryAttempts ≤ decodes p.id + 1 ∨ p.deliveries ≤ decodes p.id ∨
    (p.deliveries ≤ decodes p.id + 1 ∧ ∃ e ∈ waiting, e.id = p.id)

/-- The invariant behind `Attempted`. -/
structure Counted (s : State Unit) : Prop where
  pel : ∀ g, s.stream.group = some g → ∀ p ∈ g.pel,
    Accounted cfg s.decodes (s.consumer ()).waiting p
  moving : ∀ src e n rest, s.consumer () = .moving src e n rest →
    cfg.maxDeliveryAttempts ≤ s.decodes e.id + 1

end Property

section Proofs

variable {J U : Type} {cfg : Config} {codec : Codec J U}
variable {s t : State Unit} {a : Act Unit} {as : List (Act Unit)}
variable {decodes decodes' : ℕ → ℕ} {w w' : List (Entry Fields)} {p q : Pending Unit}

/-- Without waiting entries a record is accounted for whatever the batch is. -/
theorem Accounted.of_nil (h : Accounted cfg decodes [] p) : Accounted cfg decodes w p := by
  rcases h with h | h | ⟨-, e, he, -⟩
  · exact .inl h
  · exact .inr (.inl h)
  · cases he

/-- One more call of `from_redis` accounts for the head of the batch. -/
theorem Accounted.decode {e : Entry Fields} (h : Accounted cfg decodes (e :: w) p) :
    Accounted cfg (Function.update decodes e.id (decodes e.id + 1)) w p := by
  unfold Accounted at h ⊢
  by_cases hid : p.id = e.id
  · -- the decoded entry: its count is now backed by one attempt more
    rw [hid, Function.update_self]
    rw [hid] at h
    omega
  · rw [Function.update_of_ne hid]
    rcases h with h | h | ⟨h, f, hf, hfid⟩
    · exact .inl h
    · exact .inr (.inl h)
    · refine .inr (.inr ⟨h, f, ?_, hfid⟩)
      rcases List.mem_cons.mp hf with rfl | hf
      · exact absurd hfid.symm hid
      · exact hf

/-- A record stays accounted for when the head of the batch is over the ceiling for good. -/
theorem Accounted.skip {e : Entry Fields} (h : Accounted cfg decodes (e :: w) p)
    (he : cfg.maxDeliveryAttempts ≤ decodes e.id + 1) : Accounted cfg decodes w p := by
  rcases h with h | h | ⟨h, f, hf, hfid⟩
  · exact .inl h
  · exact .inr (.inl h)
  · rcases List.mem_cons.mp hf with rfl | hf
    · exact .inl (hfid ▸ he)
    · exact .inr (.inr ⟨h, f, hf, hfid⟩)

/-- The count that sends an entry to the DLQ is backed by attempts. -/
theorem Counted.over_ceiling {g : ConsumerGroup Unit} {src : Source} {e : Entry Fields}
    (hs : Counted cfg s) (hg : s.stream.group = some g)
    (hover : overCeiling cfg g src e = true) :
    cfg.maxDeliveryAttempts ≤ s.decodes e.id + 1 := by
  cases src with
  | fresh last => cases hover
  | recovery since next =>
    have hcount : cfg.maxDeliveryAttempts ≤ deliveryCount g e.id := of_decide_eq_true hover
    unfold deliveryCount at hcount
    cases hd : g.timesDelivered e.id with
    | none =>
      rw [hd, Option.getD_none] at hcount
      omega
    | some n =>
      rw [hd, Option.getD_some] at hcount
      obtain ⟨p, hp, hid, hn⟩ := ConsumerGroup.timesDelivered_eq_some hd
      rcases hs.pel g hg p hp with h | h | ⟨h, -⟩
      · exact hid ▸ h
      · rw [hid] at h
        omega
      · rw [hid] at h
        omega

/-- What the invariant says of a PEL record, at the phase the consumer is in. -/
theorem Counted.accounted {g : ConsumerGroup Unit} {ph : Phase} (hs : Counted cfg s)
    (hc : s.consumer () = ph) (hg : s.stream.group = some g) (hq : q ∈ g.pel) :
    Accounted cfg s.decodes ph.waiting q := by
  rw [← hc]
  exact hs.pel g hg q hq

/-- **Step lemma.** -/
theorem Counted.step (hs : Counted cfg s) (hC : NoAbandon cfg codec s a)
    (h : step cfg codec s a = some t) : Counted cfg t := by
  cases step_effect h with
  | ensureGroup p =>
    refine ⟨fun g hg q hq => ?_, hs.moving⟩
    exact hs.pel g (GroupStream.createGroup_pending hg hq) q hq
  | xadd p fields hp => exact ⟨hs.pel, hs.moving⟩
  | attach c hc =>
    refine ⟨fun g hg q hq => ?_, by simp⟩
    have hacc := hs.accounted hc (GroupStream.createGroup_pending hg hq) hq
    simpa [Phase.waiting] using hacc
  | claim c since cursor g hc hg =>
    refine ⟨?_, by simp⟩
    rintro g' ⟨⟩ q hq
    rw [State.setConsumer_self]
    rcases ConsumerGroup.mem_autoclaim hq with hq | ⟨q', hq', hid, hcount, e, he, heid⟩
    · exact Accounted.of_nil (hs.accounted hc hg hq)
    · -- a claimed entry: one delivery more, and it waits in the batch
      rcases hs.accounted hc hg hq' with h | h | ⟨-, f, hf, -⟩
      · exact .inl (hid ▸ h)
      · exact .inr (.inr ⟨by rw [hcount, hid]; exact Nat.succ_le_succ h, e, he, heid⟩)
      · cases hf
  | moves c src e rest g hc hg hover =>
    -- the one step that decides for the DLQ
    have hmax := hs.over_ceiling hg hover
    refine ⟨fun g' hg' q hq => ?_, fun src' e' n' rest' hm => ?_⟩
    · rw [State.setConsumer_self]
      exact Accounted.skip (hs.accounted hc hg' hq) hmax
    · rw [State.setConsumer_self] at hm
      cases hm
      exact hmax
  | decodes c src e rest g hc hg hover =>
    refine ⟨fun g' hg' q hq => ?_, fun src' e' n' rest' hm => ?_⟩
    · have hdec := Accounted.decode (hs.accounted hc hg' hq)
      cases hdecodable : decodable codec e.fields with
      | true => simpa [State.decode, hdecodable, Phase.waiting] using hdec
      | false =>
        -- the error ends the call, so by the condition nothing of the batch is left
        have hrest : rest = [] := by
          simpa [NoAbandon, abandoned, hc, hg, hover, hdecodable] using hC
        rw [hrest] at hdec
        simpa [State.decode, hdecodable, Phase.waiting] using hdec
    · unfold State.decode at hm
      rw [State.setConsumer_self] at hm
      split at hm <;> cases hm
  | dlqAdd c src e n rest hc =>
    refine ⟨fun g hg q hq => ?_, by simp⟩
    have hacc := hs.accounted hc hg hq
    simpa [Phase.waiting] using hacc
  | dlqAck c src e rest g hc hg =>
    refine ⟨fun g' hg' q hq => ?_, by simp⟩
    obtain rfl : g.ack e.id = g' := by simpa using hg'
    have hacc := hs.accounted hc hg (ConsumerGroup.mem_ack.mp hq).1
    simpa [Phase.waiting] using hacc
  | handled c src e rest hc =>
    refine ⟨fun g hg q hq => ?_, by simp⟩
    have hacc := hs.accounted hc hg hq
    simpa [Phase.waiting] using hacc
  | ack c src e rest g hc hg =>
    refine ⟨fun g' hg' q hq => ?_, by simp⟩
    obtain rfl : g.ack e.id = g' := by simpa using hg'
    have hacc := hs.accounted hc hg (ConsumerGroup.mem_ack.mp hq).1
    simpa [Phase.waiting] using hacc
  | read c last g hc hg =>
    refine ⟨?_, by simp⟩
    rintro g' ⟨⟩ q hq
    rw [State.setConsumer_self]
    rcases ConsumerGroup.mem_read_pel.mp hq with hq | ⟨e, he, rfl⟩
    · exact Accounted.of_nil (hs.accounted hc hg hq)
    · -- a first delivery: count 1, and the entry waits in the batch
      exact .inr (.inr ⟨Nat.le_add_left 1 _, e, he, rfl⟩)
  | quiet c p hp hwait =>
    refine ⟨fun g hg q hq => ?_, fun src e n rest hm => ?_⟩
    · have := hs.pel g hg q hq
      rw [State.setConsumer_self]
      rcases hwait with hw | ⟨rfl, hw⟩
      · rw [hw]
        exact this
      · -- the consumer goes down: its batch was empty
        have hnil : (s.consumer ()).waiting = [] := by
          rcases hw with rfl | rfl | hnone
          · exact hC
          · exact hC
          · rw [State.setConsumer_stream, hnone] at hg
            cases hg
        rw [hnil] at this
        exact this
    · rw [State.setConsumer_self] at hm
      rw [hm] at hp
      cases hp
  | tick dt => exact ⟨hs.pel, hs.moving⟩

theorem counted_init : Counted cfg (init Unit) where
  pel := by simp [init, GroupStream.empty]
  moving := by simp [init]

/-- In an accounted state a DLQ move is backed by attempts. -/
theorem Counted.attempted (hs : Counted cfg s) : Attempted cfg codec s := by
  intro t h
  simp only [CommandBus.step] at h
  split at h
  · rename_i src e n rest hc
    exact ⟨src, e, n, rest, hc, Nat.sub_le_of_le_add (hs.moving src e n rest hc)⟩
  · cases h

/-- **Dead-lettered only after attempts.**  In every run of the consumer, restarted after
    every crash, in which no crash, stop or decoding error drops entries of a batch unseen,
    an entry is moved to the DLQ only after `max_delivery_attempts - 1` decodings. -/
theorem attempted_of_no_abandon
    (hrun : (system cfg codec).Path (NoAbandon cfg codec) (init Unit) as t) :
    Attempted cfg codec t :=
  (hrun.invariant (fun _ _ _ hs hC h => hs.step hC h) counted_init).attempted

end Proofs

/-! ### Two runs of the default bus -/

/-- Two entries are published and read in one batch; the first has no fields at all. -/
def publishTwo : List (Act Unit) :=
  [.ensureGroup 0, .xadd 0 [], .ensureGroup 0, .xadd 0 startFields, .consume (), .attach (),
    .claim (), .drained (), .loop () false, .read (), .look ()]

/-- On the fifth delivery the poison entry is moved, and its neighbour right after it. -/
def poisonRun : List (Act Unit) :=
  publishTwo ++ reclaim ++ reclaim ++ reclaim ++ reclaim ++ [.dlqAdd (), .dlqAck (), .look ()]

/-- The well-formed command is dead-lettered although `from_redis` never saw it. -/
theorem attempted_fails :
    ¬ ∀ (as : List (Act Unit)) (t : State Unit),
      (system {} textCodec).Path TransitionSystem.anyStep (init Unit) as t →
        Attempted {} textCodec t := by
  intro h
  obtain ⟨src, e, n, rest, hc, hle⟩ := h poisonRun _ (.of_run rfl) _ rfl
  cases hc
  exact absurd hle (by decide)

/-- The failing command from its publication on. -/
def failingRun : List (Act Unit) :=
  [.ensureGroup 0, .xadd 0 startFields] ++ failingService

/-- `attempted_of_no_abandon` covers a run that ends in a DLQ move. -/
theorem attempted_failing :
    ∃ t, (system {} textCodec).Path (NoAbandon {} textCodec) (init Unit) failingRun t ∧
      (step {} textCodec t (.dlqAdd ())).isSome = true ∧ Attempted {} textCodec t := by
  obtain ⟨t, hrun, hmove⟩ :
      ∃ t, (system {} textCodec).runWhere (NoAbandon {} textCodec) (init Unit) failingRun = some t ∧
        (step {} textCodec t (.dlqAdd ())).isSome = true := ⟨_, rfl, rfl⟩
  exact ⟨t, .of_runWhere hrun, hmove, attempted_of_no_abandon (.of_runWhere hrun)⟩

end Msai.Live.CommandBus
