import Msai.Lib.LockedRegister
import Mathlib.Data.Int.Order.Basic
import Mathlib.Data.List.Induction

namespace Msai.Api.AlertHistory

open Msai.Lib

/-!
# The history of the alerts (`services/alerting.py`, `api/alerts.py`)

Every worker appends its alerts to one JSON file, newest first, of which the last 200 are kept.  A
write reads the file, computes the new content and replaces the file, under an exclusive `flock`
that goes with its process; the API reads the file under the lock, or without it where the lock
file cannot be opened.

* `validAlerts`, `writeEvent`, `listAlerts` — the content of the file and its two operations;
* `take_foldl` — what a sequence of writes leaves;
* `history_serialized` — over any writers, kills and failures the response is the newest writes.

The file is what `json.loads` makes of it.  A replacement is one step, so that a reader without the
lock sees one of the contents.
-/

/-! ### The file -/

structure AlertRecord where
  type : String
  level : String
  title : String
  message : String
  createdAt : String
deriving DecidableEq, Repr

/-- A row of `alerts`: one with the five texts, or another value. -/
inductive Entry
  | record (r : AlertRecord)
  | malformed
deriving DecidableEq, Repr

inductive HistoryFile
  | missing
  /-- Not JSON. -/
  | corrupt
  /-- JSON, but no object. -/
  | notAnObject
  /-- An object; nothing if its `alerts` is no list. -/
  | object (alerts : Option (List Entry))
deriving DecidableEq, Repr

def Entry.valid : Entry → Option AlertRecord
  | .record r => some r
  | .malformed => none

/-- `_valid_alerts` of `_read_payload`. -/
def validAlerts : HistoryFile → List AlertRecord
  | .object (some alerts) => alerts.filterMap Entry.valid
  | _ => []

/-- `_MAX_HISTORY`. -/
def maxHistory : ℕ := 200

/-- The replacement that `_write_event` computes. -/
def writeEvent (file : HistoryFile) (event : AlertRecord) : HistoryFile :=
  .object (some (((event :: validAlerts file).take maxHistory).map .record))

/-- `AlertingService.list_alerts`. -/
def listAlerts (file : HistoryFile) (limit : ℕ) : List AlertRecord := (validAlerts file).take limit

/-- `bounded_limit`. -/
def boundedLimit (limit : ℤ) : ℕ := (max 1 (min limit 200)).toNat

/-- `GET /alerts`; a read that does not come back in time is answered with an empty list. -/
def alertsResponse (file : HistoryFile) (limit : ℤ) (timedOut : Bool) : List AlertRecord :=
  if timedOut then [] else listAlerts file (boundedLimit limit)

/-- The writers, each of which may be killed or fail. -/
def writers : TransitionSystem (LockedRegister.State HistoryFile AlertRecord)
    (LockedRegister.Event AlertRecord) :=
  LockedRegister.system writeEvent

/-! ### What the writes leave -/

theorem validAlerts_map_record (rs : List AlertRecord) :
    validAlerts (.object (some (rs.map .record))) = rs := by
  show (rs.map Entry.record).filterMap Entry.valid = rs
  rw [List.filterMap_map]
  exact List.filterMap_some

@[simp] theorem validAlerts_writeEvent (file : HistoryFile) (event : AlertRecord) :
    validAlerts (writeEvent file event) = (event :: validAlerts file).take maxHistory :=
  validAlerts_map_record _

/-- The newest rows behind a sequence of writes. -/
theorem take_foldl (file : HistoryFile) (events : List AlertRecord) {n : ℕ} (hn : n ≤ maxHistory) :
    (validAlerts (events.foldl writeEvent file)).take n
      = (events.reverse ++ validAlerts file).take n := by
  induction events using List.reverseRecOn generalizing n with
  | nil => rfl
  | append_singleton events event ih =>
    rw [List.foldl_append, List.foldl_cons, List.foldl_nil, validAlerts_writeEvent, List.take_take,
      Nat.min_eq_left hn, List.reverse_append]
    cases n with
    | zero => simp
    | succ n =>
      show event :: (validAlerts _).take n = event :: (events.reverse ++ validAlerts file).take n
      rw [ih (by omega)]

theorem boundedLimit_le (limit : ℤ) : boundedLimit limit ≤ maxHistory := by
  unfold boundedLimit maxHistory
  omega

/-- What a sequence of writes leaves is an object with no more than the rows that are kept. -/
theorem foldl_writeEvent (file : HistoryFile) {events : List AlertRecord} (h : events ≠ []) :
    ∃ records : List AlertRecord, events.foldl writeEvent file
      = .object (some (records.map .record)) ∧ records.length ≤ maxHistory := by
  obtain ⟨front, last, rfl⟩ := (List.eq_nil_or_concat events).resolve_left h
  rw [List.concat_eq_append, List.foldl_append, List.foldl_cons, List.foldl_nil]
  exact ⟨_, rfl, List.length_take_le _ _⟩

/-- **The history is that of the writes, in their order, and none is lost.**  However the writers
    are interleaved, and whichever of them fail or are killed, the response has the newest writes,
    the last one first, in front of what the file had at the start, or nothing if the read was not
    in time; every write that was reported is among them or older than the 200 that are kept; and
    from the first write on the file has no more rows than those, all of them records. -/
theorem history_serialized {file : HistoryFile} {n : ℕ}
    {s : LockedRegister.State HistoryFile AlertRecord}
    {events : List (LockedRegister.Event AlertRecord)}
    (h : writers.Path TransitionSystem.anyStep (LockedRegister.start file n) events s) :
    (∀ limit timedOut, alertsResponse s.value limit timedOut
      = if timedOut then []
        else (s.writes.reverse ++ validAlerts file).take (boundedLimit limit)) ∧
    s.acknowledged.Subperm s.writes ∧
    (s.writes ≠ [] → ∃ records : List AlertRecord,
      s.value = .object (some (records.map .record)) ∧ records.length ≤ maxHistory) := by
  have hvalue : s.value = s.writes.foldl writeEvent file := LockedRegister.value_eq_foldl h
  refine ⟨fun limit timedOut => ?_, LockedRegister.acknowledged_subperm h, fun hne => ?_⟩
  · unfold alertsResponse
    split
    · rfl
    · show (validAlerts s.value).take (boundedLimit limit) = _
      rw [hvalue, take_foldl file s.writes (boundedLimit_le limit)]
  · rw [hvalue]
    exact foldl_writeEvent file hne

def fleetAlert (title : String) : AlertRecord :=
  ⟨"alert", "critical", title, "", "2025-06-02T00:00:00+00:00"⟩

/-- The first writer is killed between its read and its write, the second one is not, and a third
    waits for the lock until then; the row that was edited by hand is dropped. -/
theorem history_serialized_killed :
    ∃ s, writers.run
        (LockedRegister.start (.object (some [.malformed, .record (fleetAlert "old")])) 3)
        [.lock 0 (fleetAlert "a"), .load 0, .abandon 0, .lock 1 (fleetAlert "b"), .load 1, .store 1,
          .unlock 1, .lock 2 (fleetAlert "c"), .load 2, .store 2] = some s ∧
      alertsResponse s.value 2 false = [fleetAlert "c", fleetAlert "b"] ∧
      alertsResponse s.value 50 false = [fleetAlert "c", fleetAlert "b", fleetAlert "old"] := by
  have hrun : ∃ s, writers.run
      (LockedRegister.start (.object (some [.malformed, .record (fleetAlert "old")])) 3)
      [.lock 0 (fleetAlert "a"), .load 0, .abandon 0, .lock 1 (fleetAlert "b"), .load 1, .store 1,
        .unlock 1, .lock 2 (fleetAlert "c"), .load 2, .store 2] = some s ∧
      s.writes = [fleetAlert "b", fleetAlert "c"] := ⟨_, rfl, rfl⟩
  obtain ⟨s, hrun, hwrites⟩ := hrun
  obtain ⟨hresponse, -⟩ := history_serialized (TransitionSystem.Path.of_run hrun)
  refine ⟨s, hrun, ?_, ?_⟩
  · rw [hresponse, hwrites]
    rfl
  · rw [hresponse, hwrites]
    rfl

end Msai.Api.AlertHistory
