import Mathlib.Data.List.Basic

namespace Msai.Live

/-!
# Failure classification (`services/live/failure_kind.py`)

`FailureKind` tags a terminal `live_node_processes` row and an `EndpointOutcome`.  The
values written to the database column are strings; `parseOrUnknown` reads them back and
maps anything unrecognised to `unknown`.
-/

/-- Structured reason a `live_node_processes` row reached a terminal state. -/
inductive FailureKind
  | none
  | haltActive
  | accountHaltActive
  | spawnFailedPermanent
  | nodeCrashed
  | spawnFailedTransient
  | buildTimeout
  | reconciliationFailed
  | heartbeatTimeout
  | registryMiss
  | registryIncomplete
  | unsupportedAssetClass
  | ambiguousRegistry
  | unknown
  -- endpoint-layer values, never written to the column
  | inFlight
  | apiPollTimeout
  | bodyMismatch
deriving DecidableEq, Repr

namespace FailureKind

/-- The string stored in the column. -/
def value : FailureKind → String
  | .none => "none"
  | .haltActive => "halt_active"
  | .accountHaltActive => "account_halt_active"
  | .spawnFailedPermanent => "spawn_failed_permanent"
  | .nodeCrashed => "node_crashed"
  | .spawnFailedTransient => "spawn_failed_transient"
  | .buildTimeout => "build_timeout"
  | .reconciliationFailed => "reconciliation_failed"
  | .heartbeatTimeout => "heartbeat_timeout"
  | .registryMiss => "registry_miss"
  | .registryIncomplete => "registry_incomplete"
  | .unsupportedAssetClass => "unsupported_asset_class"
  | .ambiguousRegistry => "ambiguous_registry"
  | .unknown => "unknown"
  | .inFlight => "in_flight"
  | .apiPollTimeout => "api_poll_timeout"
  | .bodyMismatch => "body_mismatch"

/-- Every member of the enumeration, in declaration order. -/
def all : List FailureKind :=
  [.none, .haltActive, .accountHaltActive, .spawnFailedPermanent, .nodeCrashed,
    .spawnFailedTransient, .buildTimeout, .reconciliationFailed, .heartbeatTimeout,
    .registryMiss, .registryIncomplete, .unsupportedAssetClass, .ambiguousRegistry,
    .unknown, .inFlight, .apiPollTimeout, .bodyMismatch]

/-- Read a raw column value back; `NULL` and unrecognised strings give `unknown`. -/
def parseOrUnknown : Option String → FailureKind
  | Option.none => .unknown
  | some v => (all.find? fun k => k.value == v).getD .unknown

/-- Whether a redelivered START may re-spawn a row that ended with this kind. -/
def isRetryEligible (k : FailureKind) : Bool :=
  k == .spawnFailedTransient

/-- Kinds of rows that never ran, or were ended on purpose: the crash-recovery reaper and
    the rescan must not re-drive them. -/
def preSpawnNeverRanKinds : List FailureKind :=
  [.spawnFailedPermanent, .registryMiss, .registryIncomplete, .unsupportedAssetClass,
    .ambiguousRegistry, .haltActive, .accountHaltActive, .none, .inFlight, .apiPollTimeout,
    .bodyMismatch]

/-- Whether the reaper and the rescan re-drive a terminal row with this kind. -/
def isRecoverableCrash (k : FailureKind) : Bool :=
  !preSpawnNeverRanKinds.contains k

/-- Reading back what a writer stored gives the writer's kind. -/
theorem parseOrUnknown_value (k : FailureKind) : parseOrUnknown (some k.value) = k := by
  cases k <;> decide

end FailureKind

end Msai.Live
