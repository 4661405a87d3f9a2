import Msai.Lib.Transition
import Mathlib.Algebra.Order.BigOperators.Group.List
import Mathlib.Data.List.Perm.Subperm
import Mathlib.Data.List.Nodup
import Mathlib.Algebra.Order.Ring.Int

namespace Msai.Jobs

open Msai.Lib Msai.Lib.TransitionSystem

/-!
# The compute slots (`services/compute_slots.py`)

A semaphore in Redis.  A lease is a key with a TTL, and the set of active lease ids is a second key;
`acquire_compute_slots` reads the set and every lease of it, adds the slots up, and writes its own
lease if it fits.

* `slotCommand` — the next Redis command of a call to acquire, renew or release;
* `slotSystem` — any number of calls, and the leases that run out;
* `SlotsSafe` — the live leases stay within the limit, and every one that was granted is counted;
* `ReadsStillHold` — the condition: what a call writes still agrees with what it has read;
* `slots_safe` — the theorem over every run.
-/

/-! ### The leases -/

/-- The payload of a lease. -/
structure Lease where
  leaseId : ℕ
  jobKind : String
  jobId : String
  slotCount : ℤ
  positive : 1 ≤ slotCount
deriving DecidableEq

/-- The payload as `_active_leases` reads it. -/
def Lease.read (l : Lease) : Lease :=
  { l with slotCount := max 1 l.slotCount, positive := le_max_left _ _ }

/-- The sum of `_active_slot_usage`. -/
def slotUsage (leases : List Lease) : ℤ := (leases.map Lease.slotCount).sum

/-- The keys under `msai:compute:lease:` that are alive, the set `msai:compute:active`, the next
    lease id, and the ids that an acquire has returned. -/
structure SlotStore where
  leases : List Lease
  active : List ℕ
  nextId : ℕ
  returned : List ℕ
deriving DecidableEq

def SlotStore.empty : SlotStore := ⟨[], [], 0, []⟩

def SlotStore.get (r : SlotStore) (id : ℕ) : Option Lease := r.leases.find? (·.leaseId == id)

/-- `SET`: replaces the lease, or adds it. -/
def SlotStore.set (r : SlotStore) (l : Lease) : SlotStore :=
  { r with
    leases :=
      if l.leaseId ∈ r.leases.map Lease.leaseId then
        r.leases.map fun old => if old.leaseId = l.leaseId then l else old
      else l :: r.leases }

/-- `DEL`, and the expiry of a lease. -/
def SlotStore.del (r : SlotStore) (id : ℕ) : SlotStore :=
  { r with leases := r.leases.filter (·.leaseId ≠ id) }

def SlotStore.sadd (r : SlotStore) (id : ℕ) : SlotStore := { r with active := r.active.insert id }

def SlotStore.srem (r : SlotStore) (ids : List ℕ) : SlotStore :=
  { r with active := r.active.filter (· ∉ ids) }

/-! ### The calls -/

/-- An acquire, with its `slot_count` between 1 and the limit. -/
structure SlotRequest where
  jobKind : String
  jobId : String
  slotCount : ℤ
  positive : 1 ≤ slotCount
deriving DecidableEq

def SlotRequest.make (limit : ℤ) (jobKind jobId : String) (slotCount : ℤ) : SlotRequest where
  jobKind := jobKind
  jobId := jobId
  slotCount := max 1 (min slotCount limit)
  positive := le_max_left _ _

def SlotRequest.lease (request : SlotRequest) (leaseId : ℕ) : Lease where
  leaseId := leaseId
  jobKind := request.jobKind
  jobId := request.jobId
  slotCount := request.slotCount
  positive := request.positive

/-- Where a call stands: what its next command is. -/
inductive SlotCall
  /-- SMEMBERS. -/
  | acquiring (request : SlotRequest)
  /-- The GET of the next member, or the SREM of the stale ones. -/
  | reading (request : SlotRequest) (members : List ℕ) (leases : List Lease) (stale : List ℕ)
  /-- SET: the slots fit. -/
  | admitted (request : SlotRequest) (leases : List Lease)
  /-- SADD. -/
  | recorded (leaseId : ℕ)
  /-- The slots do not fit: a pause, or `ComputeSlotUnavailableError`. -/
  | refused (request : SlotRequest)
  | renewing (leaseId : ℕ)
  /-- The SET of a renewal. -/
  | rewriting (payload : Lease)
  | releasing (leaseId : ℕ)
  /-- The SREM of a release. -/
  | removing (leaseId : ℕ)
  | ended
deriving DecidableEq

def slotCommand (limit : ℤ) (r : SlotStore) : SlotCall → Option (SlotStore × SlotCall)
  | .acquiring request => some (r, .reading request r.active [] [])
  | .reading request (id :: members) leases stale =>
    match r.get id with
    | some l => some (r, .reading request members (leases ++ [l.read]) stale)
    | none => some (r, .reading request members leases (stale ++ [id]))
  | .reading request [] leases stale =>
    some (r.srem stale,
      if slotUsage leases + request.slotCount ≤ limit then .admitted request leases
      else .refused request)
  | .admitted request _ =>
    some ({ r.set (request.lease r.nextId) with nextId := r.nextId + 1 }, .recorded r.nextId)
  | .recorded id => some ({ r.sadd id with returned := id :: r.returned }, .ended)
  | .refused request => some (r, .acquiring request)
  | .renewing id =>
    match r.get id with
    | some payload => some (r, .rewriting payload)
    | none => some (r, .ended)
  | .rewriting payload => some (r.set payload, .ended)
  | .releasing id => some (r.del id, .removing id)
  | .removing id => some (r.srem [id], .ended)
  | .ended => none

structure SlotSite where
  store : SlotStore
  calls : List SlotCall
deriving DecidableEq

def SlotSite.initial : SlotSite := ⟨.empty, []⟩

inductive SlotLabel
  | acquire (jobKind jobId : String) (slotCount : ℤ)
  | renew (leaseId : ℕ)
  | release (leaseId : ℕ)
  /-- The next command of call `k`. -/
  | command (k : ℕ)
  /-- Call `k` gives up waiting. -/
  | timeout (k : ℕ)
  | expire (leaseId : ℕ)
deriving DecidableEq, Repr

/-- A lease is renewed and released under the id that an acquire has returned. -/
def slotStep (limit : ℤ) (s : SlotSite) : SlotLabel → Option SlotSite
  | .acquire jobKind jobId slotCount =>
    some { s with calls := s.calls ++ [.acquiring (.make limit jobKind jobId slotCount)] }
  | .renew id =>
    if id ∈ s.store.returned then some { s with calls := s.calls ++ [.renewing id] } else none
  | .release id =>
    if id ∈ s.store.returned then some { s with calls := s.calls ++ [.releasing id] } else none
  | .command k =>
    (s.calls[k]?).bind fun call =>
      (slotCommand limit s.store call).map fun p => ⟨p.1, s.calls.set k p.2⟩
  | .timeout k =>
    match s.calls[k]? with
    | some (.refused _) => some { s with calls := s.calls.set k .ended }
    | _ => none
  | .expire id => some { s with store := s.store.del id }

/-- The callers of the semaphore. -/
def slotSystem (limit : ℤ) : TransitionSystem SlotSite SlotLabel := ⟨slotStep limit⟩

/-! ### The limit -/

/-- The live leases stay within the limit, and the next acquire counts every one that an acquire
    has returned. -/
structure SlotsSafe (limit : ℤ) (r : SlotStore) : Prop where
  within : slotUsage r.leases ≤ limit
  counted : ∀ l ∈ r.leases, l.leaseId ∈ r.returned → l.leaseId ∈ r.active

/-- What a call writes still agrees with what it has read: the live leases that an acquire has not
    counted fit beside those that it has, and a renewal finds the lease still there. -/
def ReadsStillHold (limit : ℤ) (r : SlotStore) : SlotCall → Prop
  | .admitted request leases =>
    slotUsage leases + slotUsage (r.leases.filter (· ∉ leases)) + request.slotCount ≤ limit
  | .rewriting payload => payload ∈ r.leases
  | _ => True

instance (limit : ℤ) (r : SlotStore) (call : SlotCall) :
    Decidable (ReadsStillHold limit r call) := by
  unfold ReadsStillHold
  split <;> infer_instance

/-- The condition on a step. -/
def WritesHold (limit : ℤ) (s : SlotSite) : SlotLabel → Prop
  | .command k => ∀ call ∈ s.calls[k]?, ReadsStillHold limit s.store call
  | _ => True

instance (limit : ℤ) (s : SlotSite) (a : SlotLabel) : Decidable (WritesHold limit s a) := by
  unfold WritesHold
  split <;> infer_instance

/-! ### Adding slots up -/

section Usage

variable {l : Lease} {leases counted : List Lease}

@[simp] theorem slotUsage_cons : slotUsage (l :: leases) = l.slotCount + slotUsage leases :=
  List.sum_cons

theorem slotUsage_append {leases' : List Lease} :
    slotUsage (leases ++ leases') = slotUsage leases + slotUsage leases' := by
  unfold slotUsage
  rw [List.map_append, List.sum_append]

theorem slotUsage_le_of_sublist (h : leases.Sublist counted) :
    slotUsage leases ≤ slotUsage counted := by
  refine (h.map Lease.slotCount).sum_le_sum fun n hn => ?_
  obtain ⟨l, -, rfl⟩ := List.mem_map.mp hn
  exact le_trans (by decide) l.positive

theorem slotUsage_perm (h : leases.Perm counted) : slotUsage leases = slotUsage counted :=
  (h.map Lease.slotCount).sum_eq

/-- The leases are among those that were counted, or they have not been. -/
theorem slotUsage_le_counted (hnodup : leases.Nodup) :
    slotUsage leases ≤ slotUsage counted + slotUsage (leases.filter (· ∉ counted)) := by
  -- a lease has been counted or it has not
  have hsplit : slotUsage leases =
      slotUsage (leases.filter (· ∈ counted)) + slotUsage (leases.filter (· ∉ counted)) := by
    rw [← slotUsage_append]
    refine slotUsage_perm (List.Perm.symm ?_)
    simpa using List.filter_append_perm (fun l => decide (l ∈ counted)) leases
  have hseen : slotUsage (leases.filter (· ∈ counted)) ≤ slotUsage counted := by
    have hsub : leases.filter (· ∈ counted) ⊆ counted := by
      intro l hl
      exact of_decide_eq_true (List.mem_filter.mp hl).2
    -- the live ones of those that were counted are no more than those
    obtain ⟨seen, hperm, hsublist⟩ := (hnodup.filter _).subperm hsub
    rw [← slotUsage_perm hperm]
    exact slotUsage_le_of_sublist hsublist
  omega

end Usage

/-! ### One command -/

/-- What holds of the keys between two commands. -/
structure SlotStore.Sound (limit : ℤ) (r : SlotStore) : Prop extends SlotsSafe limit r where
  unique : (r.leases.map Lease.leaseId).Nodup
  issued : ∀ l ∈ r.leases, l.leaseId < r.nextId
  activeIssued : ∀ id ∈ r.active, id < r.nextId
  returnedIssued : ∀ id ∈ r.returned, id < r.nextId

/-- The lease was issued and its key is gone: no command brings it back. -/
def SlotStore.Gone (r : SlotStore) (id : ℕ) : Prop :=
  id < r.nextId ∧ ∀ l ∈ r.leases, l.leaseId ≠ id

/-- What a call knows of the keys while it waits for its next command. -/
def SlotCall.Knows (r : SlotStore) : SlotCall → Prop
  | .reading _ members _ stale => (∀ id ∈ members, id < r.nextId) ∧ ∀ id ∈ stale, r.Gone id
  | .recorded id | .releasing id => id < r.nextId
  | .removing id => r.Gone id
  | _ => True

/-- Ids stay issued, and what is gone stays gone. -/
structure SlotStore.Leads (r r' : SlotStore) : Prop where
  issued : r.nextId ≤ r'.nextId
  gone : ∀ id, r.Gone id → r'.Gone id

section Commands

variable {limit : ℤ} {r r' : SlotStore} {call call' : SlotCall} {id : ℕ} {l : Lease}

theorem SlotStore.Sound.empty (hlimit : 0 ≤ limit) : (SlotStore.empty).Sound limit where
  within := hlimit
  counted := fun _ hl => absurd hl List.not_mem_nil
  unique := List.nodup_nil
  issued := fun _ hl => absurd hl List.not_mem_nil
  activeIssued := fun _ hid => absurd hid List.not_mem_nil
  returnedIssued := fun _ hid => absurd hid List.not_mem_nil

theorem SlotStore.Leads.refl (r : SlotStore) : r.Leads r := ⟨le_refl _, fun _ h => h⟩

/-- The other calls still know what they knew. -/
theorem SlotCall.Knows.mono (hleads : r.Leads r') (h : call.Knows r) : call.Knows r' := by
  cases call with
  | reading request members leases stale =>
    exact ⟨fun id hid => lt_of_lt_of_le (h.1 id hid) hleads.issued,
      fun id hid => hleads.gone id (h.2 id hid)⟩
  | recorded id => exact lt_of_lt_of_le (show id < r.nextId from h) hleads.issued
  | releasing id => exact lt_of_lt_of_le (show id < r.nextId from h) hleads.issued
  | removing id => exact hleads.gone id h
  | _ => trivial

/-- A GET finds nothing only where the key is gone. -/
theorem SlotStore.gone_of_get (hid : id < r.nextId) (h : r.get id = none) : r.Gone id := by
  refine ⟨hid, fun l hl heq => ?_⟩
  have hmiss := List.find?_eq_none.mp h l hl
  exact hmiss (by simpa using heq)

/-- A lease under a new id is added. -/
theorem SlotStore.set_new (h : ∀ old ∈ r.leases, old.leaseId ≠ l.leaseId) :
    (r.set l).leases = l :: r.leases := by
  refine if_neg fun hmem => ?_
  obtain ⟨old, hold, heq⟩ := List.mem_map.mp hmem
  exact h old hold heq

/-- The SET of a lease that is there changes nothing. -/
theorem SlotStore.set_same (hunique : (r.leases.map Lease.leaseId).Nodup) (h : l ∈ r.leases) :
    r.set l = r := by
  -- no two leases have one id, so only the lease itself is replaced
  have hmap : (r.leases.map fun old => if old.leaseId = l.leaseId then l else old) = r.leases := by
    refine (List.map_congr_left fun old hold => ?_).trans (List.map_id _)
    split
    · rename_i heq
      exact (List.inj_on_of_nodup_map hunique hold h heq).symm
    · rfl
  have hleases : (r.set l).leases = r.leases :=
    (if_pos (List.mem_map_of_mem h)).trans hmap
  show { r with leases := (r.set l).leases } = r
  rw [hleases]

/-- An acquire adds its lease if the uncounted ones fit too. -/
theorem SlotStore.Sound.setLease (hr : r.Sound limit) {request : SlotRequest} {leases : List Lease}
    (hC : ReadsStillHold limit r (.admitted request leases)) :
    ({ r.set (request.lease r.nextId) with nextId := r.nextId + 1 } : SlotStore).Sound limit ∧
      r.Leads { r.set (request.lease r.nextId) with nextId := r.nextId + 1 } := by
  -- the id is new: nothing is replaced
  have hnew : ∀ old ∈ r.leases, old.leaseId ≠ r.nextId := fun old hold => (hr.issued old hold).ne
  have hset : (r.set (request.lease r.nextId)).leases = request.lease r.nextId :: r.leases :=
    SlotStore.set_new hnew
  have husage : slotUsage r.leases ≤
      slotUsage leases + slotUsage (r.leases.filter (· ∉ leases)) :=
    slotUsage_le_counted (List.Nodup.of_map _ hr.unique)
  have hroom : slotUsage leases + slotUsage (r.leases.filter (· ∉ leases)) + request.slotCount ≤
      limit := hC
  have hold : ∀ {id : ℕ}, id < r.nextId → id < r.nextId + 1 := fun h => Nat.lt_succ_of_lt h
  refine ⟨⟨⟨?_, ?_⟩, ?_, ?_, ?_, ?_⟩, Nat.le_succ _, fun id hid => ⟨hold hid.1, ?_⟩⟩
  · show slotUsage (r.set _).leases ≤ limit
    rw [hset, slotUsage_cons]
    show request.slotCount + _ ≤ limit
    omega
  · show ∀ l ∈ (r.set _).leases, l.leaseId ∈ r.returned → l.leaseId ∈ r.active
    rw [hset, List.forall_mem_cons]
    -- the new id has not been returned yet, so it need not be in the set
    exact ⟨fun hmem => absurd (hr.returnedIssued _ hmem) (lt_irrefl _), hr.counted⟩
  · show ((r.set _).leases.map Lease.leaseId).Nodup
    rw [hset, List.map_cons, List.nodup_cons]
    refine ⟨fun hmem => ?_, hr.unique⟩
    obtain ⟨old, hmem, heq⟩ := List.mem_map.mp hmem
    exact hnew old hmem heq
  · show ∀ l ∈ (r.set _).leases, l.leaseId < r.nextId + 1
    rw [hset, List.forall_mem_cons]
    exact ⟨Nat.lt_succ_self _, fun l hl => hold (hr.issued l hl)⟩
  · exact fun id hid => hold (hr.activeIssued id hid)
  · exact fun id hid => hold (hr.returnedIssued id hid)
  · show ∀ l ∈ (r.set _).leases, l.leaseId ≠ id
    rw [hset, List.forall_mem_cons]
    exact ⟨(ne_of_lt hid.1).symm, hid.2⟩

/-- A key that goes takes its slots along. -/
theorem SlotStore.Sound.del (hr : r.Sound limit) (id : ℕ) :
    (r.del id).Sound limit ∧ r.Leads (r.del id) := by
  have hsub : (r.del id).leases.Sublist r.leases := List.filter_sublist
  refine ⟨⟨⟨?_, ?_⟩, ?_, ?_, hr.activeIssued, hr.returnedIssued⟩, le_refl _, ?_⟩
  · exact le_trans (slotUsage_le_of_sublist hsub) hr.within
  · exact fun l hl => hr.counted l (hsub.subset hl)
  · exact hr.unique.sublist (hsub.map _)
  · exact fun l hl => hr.issued l (hsub.subset hl)
  · exact fun id' hid => ⟨hid.1, fun l hl => hid.2 l (hsub.subset hl)⟩

/-- Ids whose key is gone may leave the set. -/
theorem SlotStore.Sound.srem (hr : r.Sound limit) {ids : List ℕ} (hids : ∀ id ∈ ids, r.Gone id) :
    (r.srem ids).Sound limit ∧ r.Leads (r.srem ids) := by
  refine ⟨⟨⟨hr.within, fun l hl hret => ?_⟩, hr.unique, hr.issued, ?_, hr.returnedIssued⟩,
    le_refl _, fun _ h => h⟩
  · -- a live lease is not among the ids that leave
    refine List.mem_filter.mpr ⟨hr.counted l hl hret, decide_eq_true fun hmem => ?_⟩
    exact (hids _ hmem).2 l hl rfl
  · exact fun id hid => hr.activeIssued id (List.mem_of_mem_filter hid)

/-- An acquire returns its lease id when it is in the set. -/
theorem SlotStore.Sound.record (hr : r.Sound limit) (hid : id < r.nextId) :
    ({ r.sadd id with returned := id :: r.returned } : SlotStore).Sound limit ∧
      r.Leads { r.sadd id with returned := id :: r.returned } := by
  refine ⟨⟨⟨hr.within, fun l hl hret => ?_⟩, hr.unique, hr.issued, ?_, ?_⟩, le_refl _, fun _ h => h⟩
  · show l.leaseId ∈ r.active.insert id
    rw [List.mem_insert_iff]
    exact (List.mem_cons.mp hret).imp_right (hr.counted l hl)
  · show ∀ id' ∈ r.active.insert id, id' < r.nextId
    intro id' hid'
    rcases List.mem_insert_iff.mp hid' with rfl | hmem
    · exact hid
    · exact hr.activeIssued id' hmem
  · exact List.forall_mem_cons.mpr ⟨hid, hr.returnedIssued⟩

/-- **One command** keeps the limit, and what the calls know. -/
theorem slotCommand_sound (hr : r.Sound limit) (hcall : call.Knows r)
    (hC : ReadsStillHold limit r call) (h : slotCommand limit r call = some (r', call')) :
    (r'.Sound limit ∧ r.Leads r') ∧ call'.Knows r' := by
  have hstays : r.Sound limit ∧ r.Leads r := ⟨hr, .refl r⟩
  cases call with
  | acquiring request =>
    obtain ⟨rfl, rfl⟩ := Prod.mk.inj (Option.some.inj h)
    exact ⟨hstays, hr.activeIssued, by simp⟩
  | reading request members leases stale =>
    cases members with
    | cons id members =>
      have hmembers := List.forall_mem_cons.mp hcall.1
      simp only [slotCommand] at h
      split at h
      · obtain ⟨rfl, rfl⟩ := Prod.mk.inj (Option.some.inj h)
        exact ⟨hstays, hmembers.2, hcall.2⟩
      · rename_i hmiss
        obtain ⟨rfl, rfl⟩ := Prod.mk.inj (Option.some.inj h)
        refine ⟨hstays, hmembers.2, List.forall_mem_append.mpr ⟨hcall.2, ?_⟩⟩
        -- a member without a key is stale for good
        exact List.forall_mem_singleton.mpr (SlotStore.gone_of_get hmembers.1 hmiss)
    | nil =>
      obtain ⟨rfl, rfl⟩ := Prod.mk.inj (Option.some.inj h)
      refine ⟨hr.srem hcall.2, ?_⟩
      split <;> trivial
  | admitted request leases =>
    obtain ⟨rfl, rfl⟩ := Prod.mk.inj (Option.some.inj h)
    exact ⟨hr.setLease hC, Nat.lt_succ_self _⟩
  | recorded id =>
    obtain ⟨rfl, rfl⟩ := Prod.mk.inj (Option.some.inj h)
    exact ⟨hr.record hcall, trivial⟩
  | refused request =>
    obtain ⟨rfl, rfl⟩ := Prod.mk.inj (Option.some.inj h)
    exact ⟨hstays, trivial⟩
  | renewing id =>
    simp only [slotCommand] at h
    split at h <;> obtain ⟨rfl, rfl⟩ := Prod.mk.inj (Option.some.inj h)
    · exact ⟨hstays, trivial⟩
    · exact ⟨hstays, trivial⟩
  | rewriting payload =>
    obtain ⟨rfl, rfl⟩ := Prod.mk.inj (Option.some.inj h)
    -- the lease is still there, so the renewal changes nothing but its deadline
    rw [SlotStore.set_same hr.unique hC]
    exact ⟨hstays, trivial⟩
  | releasing id =>
    obtain ⟨rfl, rfl⟩ := Prod.mk.inj (Option.some.inj h)
    refine ⟨hr.del id, hcall, fun l hl => ?_⟩
    exact of_decide_eq_true (List.mem_filter.mp hl).2
  | removing id =>
    obtain ⟨rfl, rfl⟩ := Prod.mk.inj (Option.some.inj h)
    exact ⟨hr.srem (List.forall_mem_singleton.mpr hcall), trivial⟩
  | ended => exact absurd h (by simp [slotCommand])

end Commands

/-! ### Every run of the callers -/

/-- The keys are sound, and no call knows anything that is not so. -/
structure SlotSite.Sound (limit : ℤ) (s : SlotSite) : Prop where
  store : s.store.Sound limit
  calls : ∀ call ∈ s.calls, call.Knows s.store

section Runs

variable {limit : ℤ} {s t : SlotSite} {a : SlotLabel} {as : List SlotLabel}

theorem SlotSite.Sound.call (hs : s.Sound limit) {call : SlotCall} (h : call.Knows s.store) :
    SlotSite.Sound limit { s with calls := s.calls ++ [call] } where
  store := hs.store
  calls := List.forall_mem_append.mpr ⟨hs.calls, List.forall_mem_singleton.mpr h⟩

theorem SlotSite.Sound.lead (hs : s.Sound limit) {r : SlotStore} {call : SlotCall} {k : ℕ}
    (hr : r.Sound limit ∧ s.store.Leads r) (hcall : call.Knows r) :
    SlotSite.Sound limit ⟨r, s.calls.set k call⟩ where
  store := hr.1
  calls := by
    intro other hother
    -- what the other calls know outlives the command
    rcases List.mem_or_eq_of_mem_set hother with hmem | rfl
    · exact (hs.calls other hmem).mono hr.2
    · exact hcall

theorem SlotSite.Sound.step (hs : s.Sound limit) (hC : WritesHold limit s a)
    (h : slotStep limit s a = some t) : t.Sound limit := by
  cases a with
  | acquire jobKind jobId slotCount =>
    obtain rfl := Option.some.inj h
    exact hs.call trivial
  | renew id =>
    simp only [slotStep] at h
    split at h
    · obtain rfl := Option.some.inj h
      exact hs.call trivial
    · exact absurd h (by simp)
  | release id =>
    simp only [slotStep] at h
    split at h
    · rename_i hret
      obtain rfl := Option.some.inj h
      exact hs.call (hs.store.returnedIssued id hret)
    · exact absurd h (by simp)
  | command k =>
    obtain ⟨call, hcall, hcommand⟩ := Option.bind_eq_some_iff.mp h
    obtain ⟨⟨r, call'⟩, hstep, rfl⟩ := Option.map_eq_some_iff.mp hcommand
    have hknows := hs.calls call (List.mem_of_getElem? hcall)
    have hsound := slotCommand_sound hs.store hknows (hC call hcall) hstep
    exact hs.lead hsound.1 hsound.2
  | timeout k =>
    simp only [slotStep] at h
    split at h
    · obtain rfl := Option.some.inj h
      exact hs.lead ⟨hs.store, .refl _⟩ trivial
    · exact absurd h (by simp)
  | expire id =>
    obtain rfl := Option.some.inj h
    have hdel := hs.store.del id
    exact ⟨hdel.1, fun call hcall => (hs.calls call hcall).mono hdel.2⟩

/-- **The compute slots stay within the limit**, and every granted lease is counted, in every run in
    which what the calls write agrees with what they have read. -/
theorem slots_safe (hlimit : 0 ≤ limit)
    (h : Path (slotSystem limit) (WritesHold limit) .initial as s) : SlotsSafe limit s.store := by
  have hinit : SlotSite.Sound limit .initial :=
    ⟨.empty hlimit, fun call hcall => absurd hcall List.not_mem_nil⟩
  have hsound : s.Sound limit := h.invariant (fun _ _ _ hs hC hstep => hs.step hC hstep) hinit
  exact hsound.store.toSlotsSafe

end Runs

/-! ### Two acquires at once, and a late renewal -/

/-- Two jobs come one after the other, and the first one renews its lease. -/
def slotsInTurn : List SlotLabel :=
  [.acquire "research" "job-1" 1, .command 0, .command 0, .command 0, .command 0,
    .acquire "portfolio" "run-1" 1, .command 1, .command 1, .command 1, .command 1, .command 1,
    .renew 0, .command 2, .command 2]

/-- Both jobs read the set before either writes. -/
def slotsAtOnce : List SlotLabel :=
  [.acquire "research" "job-1" 1, .acquire "portfolio" "run-1" 1, .command 0, .command 1,
    .command 0, .command 1, .command 0, .command 1, .command 0, .command 1]

/-- The lease of the first job runs out between the GET and the SET of its renewal, and the second
    job removes it from the set there. -/
def renewedLate : List SlotLabel :=
  [.acquire "research" "job-1" 1, .command 0, .command 0, .command 0, .command 0,
    .renew 0, .command 1, .expire 0,
    .acquire "portfolio" "run-1" 1, .command 2, .command 2, .command 2, .command 2, .command 2,
    .command 1]

theorem slots_safe_in_turn : ∃ s,
    Path (slotSystem 2) (WritesHold 2) .initial slotsInTurn s ∧ SlotsSafe 2 s.store ∧
      slotUsage s.store.leases = 2 ∧ s.store.active = [1, 0] := by
  have hend : ∃ s ∈ (slotSystem 2).runWhere (WritesHold 2) .initial slotsInTurn,
      slotUsage s.store.leases = 2 ∧ s.store.active = [1, 0] := by
    decide +kernel
  obtain ⟨s, hrun, hstore⟩ := hend
  have hpath := Path.of_runWhere hrun
  exact ⟨s, hpath, slots_safe (by decide) hpath, hstore⟩

/-- **The slip.**  With a limit of one slot two leases are live, in the second run beside a set that
    does not count the first. -/
theorem slots_safe_fails :
    (∃ s, Path (slotSystem 1) anyStep .initial slotsAtOnce s ∧ 1 < slotUsage s.store.leases) ∧
      ∃ s, Path (slotSystem 1) anyStep .initial renewedLate s ∧
        1 < slotUsage s.store.leases ∧
        ∃ l ∈ s.store.leases, l.leaseId ∈ s.store.returned ∧ l.leaseId ∉ s.store.active := by
  have hatOnce : ∃ s ∈ (slotSystem 1).run .initial slotsAtOnce, 1 < slotUsage s.store.leases := by
    decide +kernel
  have hlate : ∃ s ∈ (slotSystem 1).run .initial renewedLate, 1 < slotUsage s.store.leases ∧
      ∃ l ∈ s.store.leases, l.leaseId ∈ s.store.returned ∧ l.leaseId ∉ s.store.active := by
    decide +kernel
  obtain ⟨s, hrun, husage⟩ := hatOnce
  obtain ⟨s', hrun', hstore⟩ := hlate
  exact ⟨⟨s, .of_run hrun, husage⟩, s', .of_run hrun', hstore⟩

end Msai.Jobs
