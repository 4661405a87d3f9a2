import Mathlib.Algebra.Ring.Int.Defs
import Mathlib.Logic.Function.Basic
import Msai.Projection.Events

namespace Msai.Projection

/-!
# From a stream name to its deployment
(`deployment_identity.py`, `projection/registry.py`, `projection/consumer.py`)

The name of a deployment's message-bus stream is built in one module, kept in a registry, and
taken apart in a third to find the deployment again.

* `deriveMessageBusStream` — the name the API stores, `trader-MSAI-{slug}:stream`;
* `StreamRegistry` — `slug → id`, `id → slug`, `id → stream`;
* `resolveDeploymentIdFromStream`, `dispatchEntry` — the consumer's side.  It looks for the
  suffix `-stream`, and acknowledges an entry whose deployment it does not find;
* `registered_stream_never_delivered` — so no entry of a registered stream is ever published.
-/

variable {ι Dec : Type} [DecidableEq ι]

/-! ### The names -/

/-- `derive_trader_id`. -/
def deriveTraderId (slug : String) : String := "MSAI-" ++ slug

/-- `derive_message_bus_stream`. -/
def deriveMessageBusStream (slug : String) : String := "trader-" ++ deriveTraderId slug ++ ":stream"

/-! ### The registry -/

/-- `StreamRegistry`: three dictionaries behind one lock. -/
structure StreamRegistry (ι : Type) where
  slugToId : String → Option ι
  idToSlug : ι → Option String
  streams : ι → Option String

namespace StreamRegistry

/-- The registry of a fresh worker. -/
def empty : StreamRegistry ι :=
  { slugToId := fun _ => none, idToSlug := fun _ => none, streams := fun _ => none }

/-- `register`. -/
def register (reg : StreamRegistry ι) (id : ι) (slug stream : String) : StreamRegistry ι :=
  { slugToId := Function.update reg.slugToId slug (some id)
    idToSlug := Function.update reg.idToSlug id (some slug)
    streams := Function.update reg.streams id (some stream) }

/-- `unregister`. -/
def unregister (reg : StreamRegistry ι) (id : ι) : StreamRegistry ι :=
  { slugToId :=
      match reg.idToSlug id with
      | some slug => Function.update reg.slugToId slug none
      | none => reg.slugToId
    idToSlug := Function.update reg.idToSlug id none
    streams := Function.update reg.streams id none }

end StreamRegistry

/-- A call on the registry.  `main.py` and `/start-portfolio` register a deployment under the
    stream name of its row. -/
inductive RegistryOp (ι : Type)
  | register (id : ι) (slug : String)
  | unregister (id : ι)
deriving DecidableEq, Repr

/-- The effect of one call. -/
def RegistryOp.apply (reg : StreamRegistry ι) : RegistryOp ι → StreamRegistry ι
  | .register id slug => reg.register id slug (deriveMessageBusStream slug)
  | .unregister id => reg.unregister id

/-- The registry after a sequence of calls. -/
def registryAfter (ops : List (RegistryOp ι)) : StreamRegistry ι :=
  ops.foldl RegistryOp.apply .empty

/-! ### The consumer -/

/-- `stream[len("trader-MSAI-") : -len("-stream")]`. -/
def slugOfStream (stream : String) : String :=
  String.ofList ((stream.toList.drop 12).take (stream.toList.length - 12 - 7))

/-- `_resolve_deployment_id_from_stream`. -/
def resolveDeploymentIdFromStream (reg : StreamRegistry ι) (stream : String) : Option ι :=
  if !startsWith stream "trader-MSAI-" || !endsWith stream "-stream" then none
  else reg.slugToId (slugOfStream stream)

/-- The payload of an entry. -/
inductive Payload
  /-- `msgpack.decode` raises. -/
  | undecodable
  | notDict
  | dict (d : EventDict)
deriving DecidableEq, Repr

/-- The fields of a stream entry. -/
structure EntryFields where
  topic : String
  payload : Payload
deriving DecidableEq, Repr

/-- How the two `PUBLISH` calls of `DualPublisher.publish` end, in their order. -/
inductive PublishResult
  | ok
  | stateRaises
  /-- The state channel has the event, the second call raises. -/
  | eventsRaises
deriving DecidableEq, Repr

/-- What became of an entry: the event on the state channel, and whether `XACK` was sent. -/
structure Dispatched (ι Dec : Type) where
  published : Option (InternalEvent ι Dec)
  acked : Bool
deriving DecidableEq, Repr

/-- `_dispatch_entry` for the deployment the stream name resolved to.  An exception leaves the
    entry pending. -/
def dispatchEntry [Zero Dec] [Add Dec] (c : Coercion Dec) (deploymentId : Option ι)
    (entry : EntryFields) (publish : PublishResult) : Dispatched ι Dec :=
  match entry.payload with
  | .undecodable => ⟨none, false⟩
  | .notDict => ⟨none, true⟩
  | .dict d =>
    match deploymentId with
    | none => ⟨none, true⟩
    | some id =>
      match translate c entry.topic d id with
      | .error _ => ⟨none, false⟩
      | .ok none => ⟨none, true⟩
      | .ok (some e) =>
        match publish with
        | .ok => ⟨some e, true⟩
        | .stateRaises => ⟨none, false⟩
        | .eventsRaises => ⟨some e, false⟩

/-- An entry the translator has an event for. -/
def IsRoutable [Zero Dec] [Add Dec] (c : Coercion Dec) (entry : EntryFields) (id : ι)
    (e : InternalEvent ι Dec) : Prop :=
  ∃ d, entry.payload = .dict d ∧ translate c entry.topic d id = .ok (some e)

/-- The delivery promise for an entry of the stream of deployment `id`: it is not acknowledged
    unless its event has been published for that deployment. -/
def DeliversOrKeeps [Zero Dec] [Add Dec] (c : Coercion Dec) (reg : StreamRegistry ι)
    (stream : String) (entry : EntryFields) (publish : PublishResult)
    (e : InternalEvent ι Dec) : Prop :=
  let out := dispatchEntry c (resolveDeploymentIdFromStream reg stream) entry publish
  out.acked = true → out.published = some e

/-! ### The two ends do not meet -/

theorem endsWith_iff_suffix {s a : String} : endsWith s a = true ↔ a.toList <:+ s.toList :=
  List.isSuffixOf_iff_suffix

/-- Two words of equal length that both end a text are the same. -/
theorem eq_of_endsWith {s a b : String} (ha : endsWith s a = true) (hb : endsWith s b = true)
    (hlen : a.toList.length = b.toList.length) : a = b := by
  have ha' := endsWith_iff_suffix.mp ha
  have hb' := endsWith_iff_suffix.mp hb
  have hab : a.toList <:+ b.toList :=
    List.suffix_of_suffix_length_le ha' hb' (Nat.le_of_eq hlen)
  exact String.toList_inj.mp (hab.eq_of_length hlen)

/-- A stream name ends with `:stream`. -/
theorem deriveMessageBusStream_endsWith (slug : String) :
    endsWith (deriveMessageBusStream slug) ":stream" = true := by
  rw [endsWith_iff_suffix, deriveMessageBusStream, String.toList_append]
  exact List.suffix_append _ _

omit [DecidableEq ι] in
/-- No registry resolves a name `derive_message_bus_stream` builds. -/
theorem resolve_derive (reg : StreamRegistry ι) (slug : String) :
    resolveDeploymentIdFromStream reg (deriveMessageBusStream slug) = none := by
  have hno : endsWith (deriveMessageBusStream slug) "-stream" = false := by
    by_contra h
    have hlen : "-stream".toList.length = ":stream".toList.length := by simp
    have heq : "-stream" = ":stream" :=
      eq_of_endsWith (by simpa using h) (deriveMessageBusStream_endsWith slug) hlen
    exact absurd heq (by decide)
  simp [resolveDeploymentIdFromStream, hno]

/-- Every stream of the registry has a derived name. -/
theorem registryAfter_streams {ops : List (RegistryOp ι)} {id : ι} {stream : String}
    (h : (registryAfter ops).streams id = some stream) :
    ∃ slug, stream = deriveMessageBusStream slug := by
  have hstep : ∀ (ops : List (RegistryOp ι)) (reg : StreamRegistry ι),
      (∀ id stream, reg.streams id = some stream → ∃ slug, stream = deriveMessageBusStream slug) →
      ∀ id stream, (ops.foldl RegistryOp.apply reg).streams id = some stream →
        ∃ slug, stream = deriveMessageBusStream slug := by
    intro ops
    induction ops with
    | nil => exact fun reg h => h
    | cons op ops ih =>
      intro reg hreg
      refine ih (RegistryOp.apply reg op) fun id' stream' h' => ?_
      cases op with
      | register id₀ slug =>
        simp only [RegistryOp.apply, StreamRegistry.register, Function.update_apply] at h'
        split at h'
        · exact ⟨slug, (Option.some.inj h').symm⟩
        · exact hreg id' stream' h'
      | unregister id₀ =>
        simp only [RegistryOp.apply, StreamRegistry.unregister, Function.update_apply] at h'
        split at h'
        · cases h'
        · exact hreg id' stream' h'
  exact hstep ops .empty (fun _ _ h => by cases h) id stream h

section Delivery

variable [Zero Dec] [Add Dec] {c : Coercion Dec} {ops : List (RegistryOp ι)} {id : ι}
  {stream : String} {entry : EntryFields} {e : InternalEvent ι Dec}

/-- **No event gets through.**  After any registrations, no derived stream name resolves to a
    deployment, and an entry of a registered stream that the translator has an event for is
    acknowledged without being published, however the two publishes would have ended. -/
theorem registered_stream_never_delivered (publish : PublishResult)
    (hreg : (registryAfter ops).streams id = some stream) (hroute : IsRoutable c entry id e) :
    (∀ slug, resolveDeploymentIdFromStream (registryAfter ops) (deriveMessageBusStream slug)
        ≠ some id) ∧
      ¬DeliversOrKeeps c (registryAfter ops) stream entry publish e := by
  have hnone : ∀ slug, resolveDeploymentIdFromStream (registryAfter ops)
      (deriveMessageBusStream slug) ≠ some id := by
    intro slug h
    rw [resolve_derive] at h
    cases h
  refine ⟨hnone, fun hdel => ?_⟩
  obtain ⟨slug, rfl⟩ := registryAfter_streams hreg
  obtain ⟨d, hpayload, _⟩ := hroute
  have hout : dispatchEntry c (resolveDeploymentIdFromStream (registryAfter ops)
      (deriveMessageBusStream slug)) entry publish = ⟨none, true⟩ := by
    rw [resolve_derive, dispatchEntry, hpayload]
  simp only [DeliversOrKeeps, hout] at hdel
  cases hdel trivial

end Delivery

/-! ### One deployment, one position event -/

/-- A position event on the bus. -/
def positionEntry : EntryFields :=
  { topic := "events.position.changed"
    payload := .dict
      { fields := [("instrument_id", .text "AAPL.NASDAQ"), ("quantity", .text "10"),
          ("ts_event", .int 5)]
        balances := []
        margins := [] } }

/-- The one numeral of `positionEntry`. -/
def tenOnly : Coercion ℤ := { decimal := fun s => if s = "10" then some 10 else none, now := 0 }

/-- Its event under deployment `7`. -/
def positionEvent : InternalEvent ℕ ℤ :=
  .position
    { deploymentId := 7, instrumentId := "AAPL.NASDAQ", qty := 10, avgPrice := 0,
      unrealizedPnl := 0, realizedPnl := 0, ts := 5 }

theorem positionEntry_isRoutable : IsRoutable tenOnly positionEntry 7 positionEvent :=
  ⟨_, rfl, by decide⟩

/-- The theorem for the deployment `7` with slug `abc`. -/
theorem abc_stream_never_delivered :
    (registryAfter [.register 7 "abc"]).streams 7 = some "trader-MSAI-abc:stream" ∧
      ¬DeliversOrKeeps tenOnly (registryAfter [.register 7 "abc"]) "trader-MSAI-abc:stream"
        positionEntry .ok positionEvent := by
  have hreg : (registryAfter [.register 7 "abc"]).streams 7 = some "trader-MSAI-abc:stream" := by
    decide
  exact ⟨hreg, (registered_stream_never_delivered .ok hreg positionEntry_isRoutable).2⟩

/-- The consumer does not find deployment `7` behind the name of its stream, and drops its
    event. -/
theorem registered_stream_delivery_fails :
    resolveDeploymentIdFromStream (registryAfter [.register 7 "abc"])
        (deriveMessageBusStream "abc") ≠ some 7 ∧
      dispatchEntry tenOnly (resolveDeploymentIdFromStream (registryAfter [.register 7 "abc"])
        (deriveMessageBusStream "abc")) positionEntry .ok
          = (⟨none, true⟩ : Dispatched ℕ ℤ) := by
  decide

end Msai.Projection
