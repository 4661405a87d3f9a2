import Msai.Lib.GroupStream
import Msai.Lib.Transition

namespace Msai.Live.CommandBus

open Lib

/-!
# The live command bus (`services/live_command_bus.py`)

Start and stop commands travel from the API to the live-supervisor over one Redis stream
per account.  The model has the wire format (`publishFields`, `fromRedis`, `dlqFields`)
and one system in which producers (`_publish`), consumers (`consume` and
`_recover_pending`, driven by `_consume_account_forever`) and the clock interleave, one
Redis command at a time.

* A consumer is a program counter (`Phase`); a crash at any point sends it to `down`, from
  where `_consume_account_forever` calls `consume` again.
* `from_redis` runs synchronously after the command that precedes it, so a decoding error
  is part of the `look` step.
* `handle_command` is not part of the bus: its result is a label.

Three fields of the state are history the program does not see: how often `from_redis` was
called on an entry, whether a handler returned `True` for it, and which command removed it
from the PEL.
-/

universe u

/-! ### Wire format -/

/-- The fields of a stream entry: a Python `dict[str, str]` in insertion order. -/
abbrev Fields := List (String × String)

namespace Fields

/-- `fields[k] = v`. -/
def set (d : Fields) (k v : String) : Fields :=
  if (d.lookup k).isSome then d.map fun kv => if kv.1 == k then (k, v) else kv
  else d ++ [(k, v)]

/-- `{**d, **more}`. -/
def update (d : Fields) (more : Fields) : Fields :=
  more.foldl (fun d kv => d.set kv.1 kv.2) d

end Fields

/-- Standard-library conversions of the wire format: `json.dumps` / `json.loads` over JSON
    values `J`, `UUID` texts over ids `U`, and `datetime.isoformat`. -/
structure Codec (J U : Type) where
  dumps : J → String
  loads : String → Option J
  uuidOf : String → Option U
  uuidStr : U → String
  uuidHex : U → String
  isoOf : ℕ → String

/-- Discriminator stored in the `command_type` field. -/
inductive LiveCommandType
  | start
  | stop
  | stopAndReportFlatness
deriving DecidableEq, Repr

namespace LiveCommandType

/-- The stored string. -/
def value : LiveCommandType → String
  | .start => "start"
  | .stop => "stop"
  | .stopAndReportFlatness => "stop_and_report_flatness"

/-- `LiveCommandType(value)`. -/
def ofValue (v : String) : Option LiveCommandType :=
  [start, stop, stopAndReportFlatness].find? fun t => t.value == v

end LiveCommandType

/-- A decoded command; a payload value that is not JSON is kept as its raw string. -/
structure LiveCommand (J U : Type) where
  entryId : ℕ
  commandType : LiveCommandType
  deploymentId : U
  idempotencyKey : String
  payload : List (String × (J ⊕ String))

/-- Why `from_redis` raises. -/
inductive DecodeError
  | keyError (key : String)
  | valueError (value : String)
deriving DecidableEq, Repr

section Wire

variable {J U : Type} (codec : Codec J U)

/-- `fields[key]`. -/
def requireField (fields : Fields) (key : String) : Except DecodeError String :=
  match fields.lookup key with
  | some v => .ok v
  | none => .error (.keyError key)

/-- The `payload_*` fields, decoded. -/
def decodePayload (fields : Fields) : List (String × (J ⊕ String)) :=
  (fields.filter fun kv => "payload_".toList.isPrefixOf kv.1.toList).map fun kv =>
    (String.ofList (kv.1.toList.drop "payload_".length),
      match codec.loads kv.2 with
      | some j => .inl j
      | none => .inr kv.2)

/-- `LiveCommand.from_redis`. -/
def fromRedis (entryId : ℕ) (fields : Fields) : Except DecodeError (LiveCommand J U) := do
  let payload := decodePayload codec fields
  let rawType ← requireField fields "command_type"
  let commandType ← match LiveCommandType.ofValue rawType with
    | some t => .ok t
    | none => .error (.valueError rawType)
  let rawId ← requireField fields "deployment_id"
  let deploymentId ← match codec.uuidOf rawId with
    | some u => .ok u
    | none => .error (.valueError rawId)
  let idempotencyKey ← requireField fields "idempotency_key"
  return ⟨entryId, commandType, deploymentId, idempotencyKey, payload⟩

/-- `from_redis` does not raise on these fields. -/
def decodable (fields : Fields) : Bool :=
  match fromRedis codec 0 fields with
  | .ok _ => true
  | .error _ => false

/-- `_default_idempotency_key`. -/
def defaultIdempotencyKey (deploymentId : U) : String := "dep:" ++ codec.uuidHex deploymentId

/-- `idempotency_key or _default_idempotency_key(deployment_id)`. -/
def effectiveIdempotencyKey (deploymentId : U) : Option String → String
  | none => defaultIdempotencyKey codec deploymentId
  | some "" => defaultIdempotencyKey codec deploymentId
  | some k => k

/-- The fields `_publish` passes to `XADD`. -/
def publishFields (commandType : LiveCommandType) (deploymentId : U)
    (payload : List (String × J)) (idempotencyKey : Option String) : Fields :=
  Fields.update
    [("command_type", commandType.value), ("deployment_id", codec.uuidStr deploymentId),
      ("idempotency_key", effectiveIdempotencyKey codec deploymentId idempotencyKey)]
    (payload.map fun kv => ("payload_" ++ kv.1, codec.dumps kv.2))

/-- The diagnostic fields `_move_to_dlq` adds. -/
def dlqExtra (entryId deliveryCount : ℕ) (reason : String) (now : ℕ) (stream : String) : Fields :=
  [("original_entry_id", toString entryId), ("delivery_count", toString deliveryCount),
    ("dlq_reason", reason), ("moved_at", codec.isoOf now), ("source_stream", stream)]

/-- The fields of the DLQ copy. -/
def dlqFields (fields : Fields) (entryId deliveryCount : ℕ) (reason : String) (now : ℕ)
    (stream : String) : Fields :=
  fields.update (dlqExtra codec entryId deliveryCount reason now stream)

end Wire

/-! ### Producers and consumers -/

/-- Constructor arguments of `LiveCommandBus`, with their defaults. -/
structure Config where
  stream : String := "msai:live:commands"
  maxDeliveryAttempts : ℕ := 5
  minIdleMs : ℕ := 30000
  recoveryIntervalS : ℕ := 30
deriving DecidableEq, Repr

/-- Where the entries of a batch come from. -/
inductive Source
  /-- `XAUTOCLAIM`; `since` is the loop time of a periodic pass, `none` at start-up. -/
  | recovery (since : Option ℕ) (nextCursor : ℕ)
  /-- `XREADGROUP`. -/
  | fresh (lastRecovery : ℕ)
deriving DecidableEq, Repr

/-- Where a consumer stands. -/
inductive Phase
  /-- Not in `consume`: not started, crashed or stopped. -/
  | down
  /-- `ensure_group` comes next. -/
  | starting
  /-- `XAUTOCLAIM` comes next. -/
  | recovering (since : Option ℕ) (cursor : ℕ)
  /-- In the loop over a batch. -/
  | batch (src : Source) (rest : List (Entry Fields))
  /-- `_move_to_dlq`, before `XADD`. -/
  | moving (src : Source) (e : Entry Fields) (deliveryCount : ℕ) (rest : List (Entry Fields))
  /-- `_move_to_dlq`, between `XADD` and `XACK`. -/
  | moved (src : Source) (e : Entry Fields) (rest : List (Entry Fields))
  /-- The command was yielded; `handle_command` runs. -/
  | handling (src : Source) (e : Entry Fields) (rest : List (Entry Fields))
  /-- `handle_command` returned `True`; `XACK` comes next. -/
  | acking (src : Source) (e : Entry Fields) (rest : List (Entry Fields))
  /-- Back in the generator, before the `stop_event` check. -/
  | yielded (src : Source) (rest : List (Entry Fields))
  /-- At the top of the steady-state loop. -/
  | top (lastRecovery : ℕ)
  /-- `XREADGROUP` comes next. -/
  | reading (lastRecovery : ℕ)
deriving DecidableEq, Repr

/-- The entries of the current batch that were not looked at yet. -/
def Phase.waiting : Phase → List (Entry Fields)
  | .batch _ rest => rest
  | .moving _ _ _ rest => rest
  | .moved _ _ rest => rest
  | .handling _ _ rest => rest
  | .acking _ _ rest => rest
  | .yielded _ rest => rest
  | _ => []

/-- The command that took an entry out of the PEL. -/
inductive Removal
  /-- `ack` after `handle_command` returned `True`. -/
  | handlerAck
  /-- The `XACK` of `_move_to_dlq`. -/
  | dlqMove
deriving DecidableEq, Repr

/-- Redis, the clock, the parties and the history. -/
structure State (κ : Type u) where
  now : ℕ
  stream : GroupStream κ Fields
  dlq : List Fields
  consumer : κ → Phase
  /-- Producers between `ensure_group` and `XADD`. -/
  ensured : ℕ → Bool
  decodes : ℕ → ℕ
  handledTrue : ℕ → Bool
  removedBy : ℕ → Option Removal

/-- One step. -/
inductive Act (κ : Type u)
  /-- Producer: `ensure_group`. -/
  | ensureGroup (p : ℕ)
  /-- Producer: `XADD`. -/
  | xadd (p : ℕ) (fields : Fields)
  /-- `_consume_account_forever` calls `consume`. -/
  | consume (c : κ)
  /-- Consumer: `ensure_group`. -/
  | attach (c : κ)
  /-- `XAUTOCLAIM`. -/
  | claim (c : κ)
  /-- Take the next entry of the batch: `XPENDING` (recovery only), then decode or move. -/
  | look (c : κ)
  /-- The batch is empty. -/
  | drained (c : κ)
  | dlqAdd (c : κ)
  | dlqAck (c : κ)
  /-- `handle_command` ends; `false` also stands for an exception. -/
  | handled (c : κ) (ok : Bool)
  | ack (c : κ)
  /-- The generator resumes after a `yield` and reads `stop_event`. -/
  | resume (c : κ) (stop : Bool)
  /-- One evaluation of the `while` condition and of the recovery timer. -/
  | loop (c : κ) (stop : Bool)
  /-- `XREADGROUP`. -/
  | read (c : κ)
  /-- An exception or the death of the process. -/
  | crash (c : κ)
  | tick (dt : ℕ)
deriving DecidableEq, Repr

section System

variable {κ : Type u} [DecidableEq κ] {J U : Type} (cfg : Config) (codec : Codec J U)

namespace State

/-- Move one consumer. -/
def setConsumer (s : State κ) (c : κ) (p : Phase) : State κ :=
  { s with consumer := Function.update s.consumer c p }

/-- Replace the group. -/
def setGroup (s : State κ) (g : ConsumerGroup κ) : State κ :=
  { s with stream := { s.stream with group := some g } }

/-- A group command by `c`; without a group Redis answers `NOGROUP`, which raises. -/
def withGroup (s : State κ) (c : κ) (f : ConsumerGroup κ → State κ) : State κ :=
  match s.stream.group with
  | none => s.setConsumer c .down
  | some g => f g

/-- `XACK` by `c`, recording what removed the entry. -/
def xack (s : State κ) (g : ConsumerGroup κ) (id : ℕ) (why : Removal) : State κ :=
  let s' := s.setGroup (g.ack id)
  if (g.timesDelivered id).isSome then
    { s' with removedBy := Function.update s.removedBy id (some why) }
  else s'

/-- `LiveCommand.from_redis`, then `yield` or an exception. -/
def decode (s : State κ) (c : κ) (src : Source) (e : Entry Fields) (rest : List (Entry Fields)) :
    State κ :=
  let s' := { s with decodes := Function.update s.decodes e.id (s.decodes e.id + 1) }
  s'.setConsumer c (if decodable codec e.fields then .handling src e rest else .down)

variable (s : State κ) (c : κ) (p : Phase) (g : ConsumerGroup κ) (id : ℕ) (why : Removal)

@[simp] theorem setConsumer_self : (s.setConsumer c p).consumer c = p :=
  Function.update_self ..

@[simp] theorem setConsumer_stream : (s.setConsumer c p).stream = s.stream := rfl

@[simp] theorem setConsumer_dlq : (s.setConsumer c p).dlq = s.dlq := rfl

@[simp] theorem setConsumer_ensured : (s.setConsumer c p).ensured = s.ensured := rfl

@[simp] theorem setConsumer_decodes : (s.setConsumer c p).decodes = s.decodes := rfl

@[simp] theorem setConsumer_handledTrue : (s.setConsumer c p).handledTrue = s.handledTrue := rfl

@[simp] theorem setConsumer_removedBy : (s.setConsumer c p).removedBy = s.removedBy := rfl

omit [DecidableEq κ] in
@[simp] theorem xack_stream :
    (s.xack g id why).stream = { s.stream with group := some (g.ack id) } := by
  unfold xack
  split <;> rfl

omit [DecidableEq κ] in
@[simp] theorem xack_dlq : (s.xack g id why).dlq = s.dlq := by
  unfold xack
  split <;> rfl

omit [DecidableEq κ] in
@[simp] theorem xack_consumer : (s.xack g id why).consumer = s.consumer := by
  unfold xack
  split <;> rfl

omit [DecidableEq κ] in
@[simp] theorem xack_ensured : (s.xack g id why).ensured = s.ensured := by
  unfold xack
  split <;> rfl

omit [DecidableEq κ] in
@[simp] theorem xack_decodes : (s.xack g id why).decodes = s.decodes := by
  unfold xack
  split <;> rfl

omit [DecidableEq κ] in
@[simp] theorem xack_handledTrue : (s.xack g id why).handledTrue = s.handledTrue := by
  unfold xack
  split <;> rfl

end State

/-- The delivery count `_recover_pending` reads for a claimed entry. -/
def deliveryCount (g : ConsumerGroup κ) (id : ℕ) : ℕ := (g.timesDelivered id).getD 1

/-- Whether taking `e` from a batch moves it to the DLQ instead of decoding it. -/
def overCeiling (g : ConsumerGroup κ) (src : Source) (e : Entry Fields) : Bool :=
  match src with
  | .recovery _ _ => decide (cfg.maxDeliveryAttempts ≤ deliveryCount g e.id)
  | .fresh _ => false

/-- The phase after the last entry of a batch. -/
def afterBatch (now : ℕ) : Source → Phase
  | .fresh last => .top last
  -- cursor 0: the claim has gone through the whole PEL
  | .recovery since 0 =>
    match since with
    | none => .top now
    | some n => .reading n
  | .recovery since next => .recovering since next

/-- One step of the bus. -/
def step (s : State κ) : Act κ → Option (State κ)
  | .ensureGroup p =>
    some { s with stream := s.stream.createGroup, ensured := Function.update s.ensured p true }
  -- every publish ensures the group first, so that no entry precedes it
  | .xadd p fields =>
    if s.ensured p then
      some { s with stream := s.stream.xadd fields, ensured := Function.update s.ensured p false }
    else none
  | .consume c =>
    match s.consumer c with
    | .down => some (s.setConsumer c .starting)
    | _ => none
  | .attach c =>
    match s.consumer c with
    | .starting =>
      some ({ s with stream := s.stream.createGroup }.setConsumer c (.recovering none 0))
    | _ => none
  | .claim c =>
    match s.consumer c with
    | .recovering since cursor => some (s.withGroup c fun g =>
        let r := g.autoclaim s.stream.entries s.now cfg.minIdleMs c cursor 100
        (s.setGroup r.2.2).setConsumer c (.batch (.recovery since r.1) r.2.1))
    | _ => none
  | .look c =>
    match s.consumer c with
    | .batch src (e :: rest) => some (s.withGroup c fun g =>
        if overCeiling cfg g src e then
          s.setConsumer c (.moving src e (deliveryCount g e.id) rest)
        else s.decode codec c src e rest)
    | _ => none
  | .drained c =>
    match s.consumer c with
    | .batch src [] => some (s.setConsumer c (afterBatch s.now src))
    | _ => none
  -- the move to the DLQ is two commands, the copy first
  | .dlqAdd c =>
    match s.consumer c with
    | .moving src e n rest =>
      let copy := dlqFields codec e.fields e.id n "max_attempts" s.now cfg.stream
      some ({ s with dlq := s.dlq ++ [copy] }.setConsumer c (.moved src e rest))
    | _ => none
  | .dlqAck c =>
    match s.consumer c with
    | .moved src e rest => some (s.withGroup c fun g =>
        (s.xack g e.id .dlqMove).setConsumer c (.batch src rest))
    | _ => none
  | .handled c ok =>
    match s.consumer c with
    | .handling src e rest =>
      if ok then
        some ({ s with handledTrue := Function.update s.handledTrue e.id true }.setConsumer c
          (.acking src e rest))
      -- not acknowledged: the entry stays pending for a later recovery
      else some (s.setConsumer c (.yielded src rest))
    | _ => none
  | .ack c =>
    match s.consumer c with
    | .acking src e rest => some (s.withGroup c fun g =>
        (s.xack g e.id .handlerAck).setConsumer c (.yielded src rest))
    | _ => none
  | .resume c stop =>
    match s.consumer c with
    | .yielded src rest => some (s.setConsumer c (if stop then .down else .batch src rest))
    | _ => none
  | .loop c stop =>
    match s.consumer c with
    | .top last =>
      some (s.setConsumer c
        (if stop then .down
         else if 1000 * cfg.recoveryIntervalS ≤ s.now - last then .recovering (some s.now) 0
         else .reading last))
    | _ => none
  | .read c =>
    match s.consumer c with
    | .reading last => some (s.withGroup c fun g =>
        let r := g.read s.stream.entries s.now c 16
        (s.setGroup r.2).setConsumer c (.batch (.fresh last) r.1))
    | _ => none
  | .crash c => some (s.setConsumer c .down)
  | .tick dt => some { s with now := s.now + dt }

/-- The bus as a transition system. -/
def system : TransitionSystem (State κ) (Act κ) := ⟨step cfg codec⟩

end System

/-- Before the first command: no stream, no group, nobody running. -/
def init (κ : Type u) : State κ where
  now := 0
  stream := .empty
  dlq := []
  consumer := fun _ => .down
  ensured := fun _ => false
  decodes := fun _ => 0
  handledTrue := fun _ => false
  removedBy := fun _ => none

/-! ### A command whose handler keeps failing -/

/-- Texts stand for themselves. -/
def textCodec : Codec String String := ⟨id, some, some, id, id, toString⟩

/-- A well-formed start command. -/
def startFields : Fields :=
  publishFields textCodec .start "d1" [] (some "k1")

/-- A restarted consumer reclaims what is pending and looks at the first entry. -/
def reclaim : List (Act Unit) := [.tick 30000, .consume (), .attach (), .claim (), .look ()]

/-- Four attempts that fail, and the fifth delivery. -/
def failingService : List (Act Unit) :=
  [.consume (), .attach (), .claim (), .drained (), .loop () false, .read (), .look (),
    .handled () false, .crash ()] ++
  (List.replicate 3 (reclaim ++ [.handled () false, .crash ()])).flatten ++ reclaim

/-! ### What a step can do -/

/-- The consumer is not in the middle of handling or moving an entry. -/
def Phase.between : Phase → Bool
  | .moving .. | .moved .. | .handling .. | .acking .. => false
  | _ => true

section Effects

variable {κ : Type u} [DecidableEq κ] {J U : Type} {cfg : Config} {codec : Codec J U}

/-- The effect of a step, by what it does to Redis and to the entries in hand. -/
inductive Effect (cfg : Config) (codec : Codec J U) (s : State κ) : Act κ → State κ → Prop
  | ensureGroup (p : ℕ) : Effect cfg codec s (.ensureGroup p)
      { s with stream := s.stream.createGroup, ensured := Function.update s.ensured p true }
  | xadd (p : ℕ) (fields : Fields) (h : s.ensured p = true) :
      Effect cfg codec s (.xadd p fields)
        { s with stream := s.stream.xadd fields, ensured := Function.update s.ensured p false }
  | attach (c : κ) (h : s.consumer c = .starting) : Effect cfg codec s (.attach c)
      ({ s with stream := s.stream.createGroup }.setConsumer c (.recovering none 0))
  | claim (c : κ) (since : Option ℕ) (cursor : ℕ) (g : ConsumerGroup κ)
      (h : s.consumer c = .recovering since cursor) (hg : s.stream.group = some g) :
      Effect cfg codec s (.claim c)
        ((s.setGroup
            (g.autoclaim s.stream.entries s.now cfg.minIdleMs c cursor 100).2.2).setConsumer c
          (.batch (.recovery since
            (g.autoclaim s.stream.entries s.now cfg.minIdleMs c cursor 100).1)
            (g.autoclaim s.stream.entries s.now cfg.minIdleMs c cursor 100).2.1))
  | moves (c : κ) (src : Source) (e : Entry Fields) (rest : List (Entry Fields))
      (g : ConsumerGroup κ) (h : s.consumer c = .batch src (e :: rest))
      (hg : s.stream.group = some g) (hover : overCeiling cfg g src e = true) :
      Effect cfg codec s (.look c)
        (s.setConsumer c (.moving src e (deliveryCount g e.id) rest))
  | decodes (c : κ) (src : Source) (e : Entry Fields) (rest : List (Entry Fields))
      (g : ConsumerGroup κ) (h : s.consumer c = .batch src (e :: rest))
      (hg : s.stream.group = some g) (hover : overCeiling cfg g src e = false) :
      Effect cfg codec s (.look c)
        (s.decode codec c src e rest)
  | dlqAdd (c : κ) (src : Source) (e : Entry Fields) (n : ℕ) (rest : List (Entry Fields))
      (h : s.consumer c = .moving src e n rest) : Effect cfg codec s (.dlqAdd c)
        ({ s with dlq := s.dlq ++
            [dlqFields codec e.fields e.id n "max_attempts" s.now cfg.stream] }.setConsumer c
          (.moved src e rest))
  | dlqAck (c : κ) (src : Source) (e : Entry Fields) (rest : List (Entry Fields))
      (g : ConsumerGroup κ) (h : s.consumer c = .moved src e rest) (hg : s.stream.group = some g) :
      Effect cfg codec s (.dlqAck c)
        ((s.xack g e.id .dlqMove).setConsumer c (.batch src rest))
  | handled (c : κ) (src : Source) (e : Entry Fields) (rest : List (Entry Fields))
      (h : s.consumer c = .handling src e rest) : Effect cfg codec s (.handled c true)
        ({ s with handledTrue := Function.update s.handledTrue e.id true }.setConsumer c
          (.acking src e rest))
  | ack (c : κ) (src : Source) (e : Entry Fields) (rest : List (Entry Fields)) (g : ConsumerGroup κ)
      (h : s.consumer c = .acking src e rest) (hg : s.stream.group = some g) :
      Effect cfg codec s (.ack c)
        ((s.xack g e.id .handlerAck).setConsumer c (.yielded src rest))
  | read (c : κ) (last : ℕ) (g : ConsumerGroup κ) (h : s.consumer c = .reading last)
      (hg : s.stream.group = some g) : Effect cfg codec s (.read c)
        ((s.setGroup (g.read s.stream.entries s.now c 16).2).setConsumer c
          (.batch (.fresh last) (g.read s.stream.entries s.now c 16).1))
  /-- A consumer moves without a Redis write; it keeps its batch unless it goes down. -/
  | quiet {a : Act κ} (c : κ) (p : Phase) (hp : p.between = true)
      (hwait : p.waiting = (s.consumer c).waiting ∨
        p = .down ∧ (a = .crash c ∨ a = .resume c true ∨ s.stream.group = none)) :
      Effect cfg codec s a (s.setConsumer c p)
  | tick (dt : ℕ) : Effect cfg codec s (.tick dt) { s with now := s.now + dt }

private theorem effect_withGroup {s : State κ} {a : Act κ} {c : κ} {f : ConsumerGroup κ → State κ}
    (h : ∀ g, s.stream.group = some g → Effect cfg codec s a (f g)) :
    Effect cfg codec s a (s.withGroup c f) := by
  unfold State.withGroup
  cases hg : s.stream.group with
  | none => exact .quiet c .down rfl (.inr ⟨rfl, .inr (.inr hg)⟩)
  | some g => exact h g hg

private theorem afterBatch_spec (now : ℕ) (src : Source) :
    (afterBatch now src).between = true ∧ (afterBatch now src).waiting = [] := by
  unfold afterBatch
  split
  · exact ⟨rfl, rfl⟩
  · split <;> exact ⟨rfl, rfl⟩
  · exact ⟨rfl, rfl⟩

section Labels

variable {s t : State κ} {c : κ}

theorem look_effect (h : step cfg codec s (.look c) = some t) :
    Effect cfg codec s (.look c) t := by
  unfold step at h
  dsimp only at h
  split at h
  · rename_i src e rest hc
    cases h
    refine effect_withGroup fun g hg => ?_
    cases hover : overCeiling cfg g src e with
    | true => exact .moves c src e rest g hc hg hover
    | false => exact .decodes c src e rest g hc hg hover
  · cases h

theorem drained_effect (h : step cfg codec s (.drained c) = some t) :
    Effect cfg codec s (.drained c) t := by
  unfold step at h
  dsimp only at h
  split at h
  · rename_i src hc
    cases h
    obtain ⟨hbetween, hwaiting⟩ := afterBatch_spec s.now src
    exact .quiet c _ hbetween (.inl (by rw [hwaiting, hc]; rfl))
  · cases h

theorem handled_effect {ok : Bool} (h : step cfg codec s (.handled c ok) = some t) :
    Effect cfg codec s (.handled c ok) t := by
  unfold step at h
  dsimp only at h
  split at h
  · rename_i src e rest hc
    cases ok with
    | true =>
      cases h
      exact .handled c _ _ _ hc
    | false =>
      cases h
      exact .quiet c (.yielded src rest) rfl (.inl (by rw [hc]; rfl))
  · cases h

theorem resume_effect {stop : Bool} (h : step cfg codec s (.resume c stop) = some t) :
    Effect cfg codec s (.resume c stop) t := by
  unfold step at h
  dsimp only at h
  split at h
  · rename_i src rest hc
    cases h
    cases stop with
    | true => exact .quiet c .down rfl (.inr ⟨rfl, .inr (.inl rfl)⟩)
    | false => exact .quiet c (.batch src rest) rfl (.inl (by rw [hc]; rfl))
  · cases h

theorem loop_effect {stop : Bool} (h : step cfg codec s (.loop c stop) = some t) :
    Effect cfg codec s (.loop c stop) t := by
  unfold step at h
  dsimp only at h
  split at h
  · rename_i last hc
    cases h
    have hwaiting : (s.consumer c).waiting = [] := by rw [hc]; rfl
    split
    · exact .quiet c _ rfl (.inl hwaiting.symm)
    · split <;> exact .quiet c _ rfl (.inl hwaiting.symm)
  · cases h

end Labels

/-- **Step inversion.** -/
theorem step_effect {s t : State κ} {a : Act κ} (h : step cfg codec s a = some t) :
    Effect cfg codec s a t := by
  cases a with
  | ensureGroup p =>
    cases h
    exact .ensureGroup p
  | xadd p fields =>
    unfold step at h
    dsimp only at h
    split at h
    · rename_i hp
      cases h
      exact .xadd p fields hp
    · cases h
  | consume c =>
    unfold step at h
    dsimp only at h
    split at h
    · rename_i hc
      cases h
      exact .quiet c _ rfl (.inl (by rw [hc]; rfl))
    · cases h
  | attach c =>
    unfold step at h
    dsimp only at h
    split at h
    · rename_i hc
      cases h
      exact .attach c hc
    · cases h
  | claim c =>
    unfold step at h
    dsimp only at h
    split at h
    · rename_i hc
      cases h
      exact effect_withGroup fun g hg => .claim c _ _ g hc hg
    · cases h
  | look c => exact look_effect h
  | drained c => exact drained_effect h
  | dlqAdd c =>
    unfold step at h
    dsimp only at h
    split at h
    · rename_i hc
      cases h
      exact .dlqAdd c _ _ _ _ hc
    · cases h
  | dlqAck c =>
    unfold step at h
    dsimp only at h
    split at h
    · rename_i hc
      cases h
      exact effect_withGroup fun g hg => .dlqAck c _ _ _ g hc hg
    · cases h
  | handled c ok => exact handled_effect h
  | ack c =>
    unfold step at h
    dsimp only at h
    split at h
    · rename_i hc
      cases h
      exact effect_withGroup fun g hg => .ack c _ _ _ g hc hg
    · cases h
  | resume c stop => exact resume_effect h
  | loop c stop => exact loop_effect h
  | read c =>
    unfold step at h
    dsimp only at h
    split at h
    · rename_i hc
      cases h
      exact effect_withGroup fun g hg => .read c _ g hc hg
    · cases h
  | crash c =>
    cases h
    exact .quiet c .down rfl (.inr ⟨rfl, .inl rfl⟩)
  | tick dt =>
    cases h
    exact .tick dt

end Effects

end Msai.Live.CommandBus
