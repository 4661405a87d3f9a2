import Msai.Lib.KeyValue
import Msai.Lib.Transition

namespace Msai.Jobs

open Msai.Lib Msai.Lib.TransitionSystem

/-!
# The auto-heal lock (`services/backtests/auto_heal_lock.py`)

`AutoHealLock` keeps one Redis key per ingest scope.  `try_acquire` is one `SET NX EX`,
`compare_and_swap` one Lua script, and `release` a GET, a comparison and a DEL.

* `lockSystem` — the Redis commands of any number of callers on one key, beside the clock;
* `OnlyOwn` — no release or swap has removed the value of another caller;
* `Believes` — a caller has set the key, its lease has not run out, and it has not released it;
* `NoAcquireMidRelease` — the condition: nobody acquires between the GET and the DEL of another;
* `lock_owned` — the theorem over every run;
* `healSystem` — the callers there are, `run_auto_heal`, and `heal_issues_lock` their commands.
-/

/-! ### The lock -/

section Lock

variable {H : Type}

/-- The lock keys of the Redis database, with the ids of their holders. -/
abbrev LockStore (H : Type) := KeyValue String H

/-- `AutoHealLock.try_acquire`. -/
def tryAcquire (store : LockStore H) (now : ℕ) (key : String) (ttlS : ℕ) (holderId : H) :
    Bool × LockStore H :=
  store.setNx now key holderId ttlS

/-- `CAS_LOCK_VALUE_LUA`. -/
def compareAndSwap [DecidableEq H] (store : LockStore H) (now : ℕ) (key : String)
    (fromHolder toHolder : H) (ttlS : ℕ) : Bool × LockStore H :=
  if store.get now key = some fromHolder then
    (true, store.set now key toHolder (some ttlS))
  else (false, store)

/-- `AutoHealLock.get_holder`. -/
def getHolder (store : LockStore H) (now : ℕ) (key : String) : Option H := store.get now key

/-- `AutoHealLock.release` up to its comparison: whether the DEL follows. -/
def releaseMatches [DecidableEq H] (store : LockStore H) (now : ℕ) (key : String) (holderId : H) :
    Bool :=
  store.get now key = some holderId

end Lock

/-! ### The callers -/

section System

/-- The id that a release or a swap was called with, and the id that it removed. -/
structure Removal (H : Type) where
  holderId : H
  removed : H
deriving DecidableEq, Repr

/-- Redis and its clock (milliseconds), the releases between their GET and their DEL, and the last
    value that each caller has set and not deleted since, with its deadline. -/
structure LockSite (H : Type) where
  now : ℕ
  store : LockStore H
  deleting : List H
  leases : ℕ → Option (Slot H)
  removals : List (Removal H)

def LockSite.initial (H : Type) : LockSite H where
  now := 0
  store := KeyValue.empty
  deleting := []
  leases := fun _ => none
  removals := []

inductive LockLabel (H : Type)
  | tick (ms : ℕ)
  | tryAcquire (holderId : H) (ttlS : ℕ)
  | compareAndSwap (fromHolder toHolder : H) (ttlS : ℕ)
  /-- The GET of a release, with its comparison. -/
  | release (holderId : H)
  /-- The DEL of a release. -/
  | delete (holderId : H)
  /-- The caller dies, or its connection does, before the DEL. -/
  | abandon (holderId : H)
deriving DecidableEq, Repr

variable {H : Type} (owner : H → ℕ) (key : String)

/-- A caller waits for the DEL of its release. -/
def LockSite.Busy (s : LockSite H) (k : ℕ) : Prop := ∃ id ∈ s.deleting, owner id = k

instance (s : LockSite H) (k : ℕ) : Decidable (s.Busy owner k) :=
  inferInstanceAs (Decidable (∃ id ∈ s.deleting, owner id = k))

/-- The caller has set the key to what it holds now. -/
def LockSite.grant (s : LockSite H) (holderId : H) (store : LockStore H) : LockSite H :=
  { s with store := store, leases := Function.update s.leases (owner holderId) (store key) }

/-- A caller issues its commands one after the other, and with ids of its own: `owner` says whose
    an id is. -/
def lockStep [DecidableEq H] (s : LockSite H) : LockLabel H → Option (LockSite H)
  | .tick ms => some { s with now := s.now + ms }
  | .tryAcquire holderId ttlS =>
    -- the caller waits for the DEL of its release
    if s.Busy owner (owner holderId) then none
    else
      match tryAcquire s.store s.now key ttlS holderId with
      | (true, store) => some (s.grant owner key holderId store)
      | (false, _) => some s
  | .compareAndSwap fromHolder toHolder ttlS =>
    if s.Busy owner (owner fromHolder) ∨ owner toHolder ≠ owner fromHolder then none
    else
      match compareAndSwap s.store s.now key fromHolder toHolder ttlS with
      | (true, store) =>
        some
          { s.grant owner key toHolder store with
            -- the script has compared the value with `fromHolder`
            removals := s.removals ++ [⟨fromHolder, fromHolder⟩] }
      | (false, _) => some s
  | .release holderId =>
    if s.Busy owner (owner holderId) then none
    else if releaseMatches s.store s.now key holderId then
      some { s with deleting := holderId :: s.deleting }
    else some s
  | .delete holderId =>
    if holderId ∈ s.deleting then
      some
        { s with
          -- without a second look at the value
          store := s.store.del key
          deleting := s.deleting.erase holderId
          leases := Function.update s.leases (owner holderId) none
          removals := s.removals ++ ((s.store.get s.now key).map (Removal.mk holderId)).toList }
    else none
  | .abandon holderId => some { s with deleting := s.deleting.erase holderId }

/-- The callers of one lock. -/
def lockSystem [DecidableEq H] : TransitionSystem (LockSite H) (LockLabel H) := ⟨lockStep owner key⟩

/-- No release or swap has removed the value of another caller. -/
def OnlyOwn (s : LockSite H) : Prop := ∀ r ∈ s.removals, owner r.removed = owner r.holderId

instance (s : LockSite H) : Decidable (OnlyOwn owner s) :=
  inferInstanceAs (Decidable (∀ r ∈ s.removals, owner r.removed = owner r.holderId))

/-- The caller holds the lock as far as it can tell: it has set the key, its deadline has not
    passed, and it has not deleted the key. -/
def Believes (s : LockSite H) (k : ℕ) : Prop :=
  ∃ slot ∈ s.leases k, slot.live s.now = true

instance (s : LockSite H) (k : ℕ) : Decidable (Believes s k) :=
  inferInstanceAs (Decidable (∃ slot ∈ s.leases k, slot.live s.now = true))

/-- Nobody acquires the lock while another caller stands between the GET and the DEL of a
    release. -/
def NoAcquireMidRelease (s : LockSite H) : LockLabel H → Prop
  | .tryAcquire holderId _ =>
    getHolder s.store s.now key = none → ∀ id ∈ s.deleting, owner id = owner holderId
  | _ => True

instance [DecidableEq H] (s : LockSite H) (a : LockLabel H) :
    Decidable (NoAcquireMidRelease owner key s a) := by
  unfold NoAcquireMidRelease
  split <;> infer_instance

/-! ### One command -/

/-- A lease that has not run out is the value of the key, and a release that is past its GET finds
    no value but of its caller. -/
structure LocksOwned (s : LockSite H) : Prop where
  removals : OnlyOwn owner s
  leased : ∀ (k : ℕ) (slot : Slot H), s.leases k = some slot → slot.live s.now = true →
    s.store key = some slot ∧ owner slot.value = k
  deleting : ∀ id ∈ s.deleting, ∀ slot, s.store.slotAt s.now key = some slot →
    owner slot.value = owner id

variable {owner key} {s t : LockSite H} {a : LockLabel H} {id id' : H} {ttlS : ℕ}

theorem LocksOwned.initial : LocksOwned owner key (.initial H) where
  removals := fun r hr => absurd hr List.not_mem_nil
  leased := fun k slot h => absurd h (by simp [LockSite.initial])
  deleting := fun id hid => absurd hid List.not_mem_nil

/-- One caller at most has a lease that has not run out. -/
theorem LocksOwned.unique (hs : LocksOwned owner key s) {j k : ℕ} (hj : Believes s j)
    (hk : Believes s k) : j = k := by
  obtain ⟨slot, hslot, hlive⟩ := hj
  obtain ⟨slot', hslot', hlive'⟩ := hk
  have hfirst := hs.leased j slot hslot hlive
  have hsecond := hs.leased k slot' hslot' hlive'
  -- both leases are the value of the one key
  have heq : slot = slot' := Option.some.inj (hfirst.1.symm.trans hsecond.1)
  rw [← hfirst.2, ← hsecond.2, heq]

/-- Time runs leases out, and shows no value that could not be seen before. -/
theorem LocksOwned.tick (hs : LocksOwned owner key s) (ms : ℕ) :
    LocksOwned owner key { s with now := s.now + ms } where
  removals := hs.removals
  leased := fun k slot h hlive =>
    hs.leased k slot h (KeyValue.live_of_le (Nat.le_add_right _ _) hlive)
  deleting := by
    intro id hid slot hslot
    rw [KeyValue.slotAt_eq_some] at hslot
    have hlive : slot.live s.now = true := KeyValue.live_of_le (Nat.le_add_right _ _) hslot.2
    exact hs.deleting id hid slot (KeyValue.slotAt_eq_some.mpr ⟨hslot.1, hlive⟩)

/-- A caller may set the key where no other caller has a lease or is past the GET of a release. -/
theorem LocksOwned.grant (hs : LocksOwned owner key s)
    (hothers : ∀ k slot, k ≠ owner id → s.leases k = some slot → slot.live s.now = false)
    (hdeleting : ∀ id' ∈ s.deleting, owner id' = owner id) :
    LocksOwned owner key (s.grant owner key id (s.store.set s.now key id (some ttlS))) where
  removals := hs.removals
  leased := by
    intro k slot h hlive
    change Function.update s.leases (owner id) _ k = some slot at h
    by_cases hk : k = owner id
    · rw [hk, Function.update_self] at h
      refine ⟨h, ?_⟩
      rw [KeyValue.set_same] at h
      rw [hk, ← Option.some.inj h]
    · -- no other caller had a lease that was still running
      rw [Function.update_of_ne hk] at h
      have hold : slot.live s.now = true := hlive
      rw [hothers k slot hk h] at hold
      exact absurd hold (by decide)
  deleting := by
    intro id' hid' slot hslot
    have hset := (KeyValue.slotAt_eq_some.mp hslot).1
    -- a release past its GET belongs to the caller that sets the key
    rw [hdeleting id' hid']
    change s.store.set s.now key id (some ttlS) key = some slot at hset
    rw [KeyValue.set_same] at hset
    rw [← Option.some.inj hset]

/-- A caller may set the key that it sees free, or that it has set. -/
theorem LocksOwned.not_leased (hs : LocksOwned owner key s)
    (hseen : ∀ slot, s.store.slotAt s.now key = some slot → owner slot.value = owner id)
    {k : ℕ} {slot : Slot H} (hk : k ≠ owner id) (h : s.leases k = some slot) :
    slot.live s.now = false := by
  by_contra hlive
  rw [Bool.not_eq_false] at hlive
  have hkey := hs.leased k slot h hlive
  have hown := hseen slot (KeyValue.slotAt_eq_some.mpr ⟨hkey.1, hlive⟩)
  exact hk (hkey.2.symm.trans hown)

/-- What a GET returns is the value that can be seen. -/
theorem value_of_get {v : H} {slot : Slot H} (hget : s.store.get s.now key = some v)
    (hslot : s.store.slotAt s.now key = some slot) : slot.value = v := by
  obtain ⟨slot', hslot', hvalue⟩ := KeyValue.get_eq_some.mp hget
  rw [← hvalue, Option.some.inj (hslot.symm.trans hslot')]

/-- The lock stays owned beside removals of own values. -/
theorem LocksOwned.remove (hs : LocksOwned owner key s) {new : List (Removal H)}
    (hnew : ∀ r ∈ new, owner r.removed = owner r.holderId) :
    LocksOwned owner key { s with removals := s.removals ++ new } where
  removals := fun r hr => (List.mem_append.mp hr).elim (hs.removals r) (hnew r)
  leased := hs.leased
  deleting := hs.deleting

/-- A swap replaces a value of its caller. -/
theorem LocksOwned.swap (hs : LocksOwned owner key s) (howner : owner id' = owner id)
    (hget : s.store.get s.now key = some id) :
    LocksOwned owner key
      { s.grant owner key id' (s.store.set s.now key id' (some ttlS)) with
        removals := s.removals ++ [⟨id, id⟩] } := by
  -- what the script has compared is a value of this caller
  have hseen : ∀ slot, s.store.slotAt s.now key = some slot → owner slot.value = owner id' := by
    intro slot hslot
    rw [value_of_get hget hslot, howner]
  have hgranted : LocksOwned owner key
      (s.grant owner key id' (s.store.set s.now key id' (some ttlS))) := by
    refine hs.grant (fun k slot hk h => hs.not_leased hseen hk h) fun id'' hid => ?_
    obtain ⟨slot, hslot, -⟩ := KeyValue.get_eq_some.mp hget
    rw [← hs.deleting id'' hid slot hslot, hseen slot hslot]
  exact hgranted.remove (by simp)

/-- A DEL that finds no value but of its caller removes no lease but of its caller. -/
theorem LocksOwned.delete [DecidableEq H] (hs : LocksOwned owner key s) (hid : id ∈ s.deleting) :
    LocksOwned owner key
      { s with
        store := s.store.del key
        deleting := s.deleting.erase id
        leases := Function.update s.leases (owner id) none
        removals := s.removals ++ ((s.store.get s.now key).map (Removal.mk id)).toList } := by
  have hdeleted : LocksOwned owner key
      { s with
        store := s.store.del key
        deleting := s.deleting.erase id
        leases := Function.update s.leases (owner id) none } := by
    refine ⟨hs.removals, fun k slot h hlive => ?_, fun id' _ slot hslot => ?_⟩
    · change Function.update s.leases (owner id) none k = some slot at h
      by_cases hk : k = owner id
      · rw [hk, Function.update_self] at h
        exact absurd h (by simp)
      · rw [Function.update_of_ne hk] at h
        -- the value that the DEL finds is of its caller, so no other lease is running
        have hdead := hs.not_leased (hs.deleting id hid) hk h
        exact absurd (hdead.symm.trans hlive) (by decide)
    · have hgone : s.store.del key key = some slot := (KeyValue.slotAt_eq_some.mp hslot).1
      rw [KeyValue.del_same] at hgone
      exact absurd hgone (by simp)
  refine hdeleted.remove fun r hr => ?_
  obtain ⟨v, hget, rfl⟩ := Option.map_eq_some_iff.mp (Option.mem_toList.mp hr)
  obtain ⟨slot, hslot, hvalue⟩ := KeyValue.get_eq_some.mp hget
  show owner v = owner id
  rw [← hvalue, hs.deleting id hid slot hslot]

theorem LocksOwned.step [DecidableEq H] (hs : LocksOwned owner key s)
    (hC : NoAcquireMidRelease owner key s a) (h : lockStep owner key s a = some t) :
    LocksOwned owner key t := by
  cases a with
  | tick ms =>
    obtain rfl := Option.some.inj h
    exact hs.tick ms
  | tryAcquire holderId ttlS =>
    simp only [lockStep, tryAcquire] at h
    split at h
    · exact absurd h (by simp)
    · have hcases : (∃ slot, s.store.slotAt s.now key = some slot ∧
            s.store.setNx s.now key holderId ttlS = (false, s.store)) ∨
          s.store.slotAt s.now key = none ∧ s.store.setNx s.now key holderId ttlS =
            (true, s.store.set s.now key holderId (some ttlS)) := KeyValue.setNx_cases
      rcases hcases with ⟨slot, -, hset⟩ | ⟨hfree, hset⟩
      · rw [hset] at h
        rwa [← Option.some.inj h]
      · rw [hset] at h
        rw [← Option.some.inj h]
        -- the condition speaks of an acquire that finds the key free
        have hnone : getHolder s.store s.now key = none := by
          unfold getHolder KeyValue.get
          rw [hfree]
          rfl
        refine hs.grant (fun k slot hk hlease => hs.not_leased ?_ hk hlease) (hC hnone)
        intro slot hslot
        exact absurd (hfree.symm.trans hslot) (by simp)
  | compareAndSwap fromHolder toHolder ttlS =>
    simp only [lockStep, compareAndSwap] at h
    split at h
    · exact absurd h (by simp)
    · rename_i hmay
      have howner : owner toHolder = owner fromHolder := not_not.mp (not_or.mp hmay).2
      split at h
      · rename_i hswap
        split at hswap
        · rename_i hget
          rw [← Option.some.inj h, ← (Prod.mk.inj hswap).2]
          exact hs.swap howner hget
        · exact absurd (Prod.mk.inj hswap).1 (by decide)
      · rwa [← Option.some.inj h]
  | release holderId =>
    simp only [lockStep] at h
    split at h
    · exact absurd h (by simp)
    · split at h
      · rename_i hmatch
        rw [← Option.some.inj h]
        refine ⟨hs.removals, hs.leased, fun id hid slot hslot => ?_⟩
        -- the GET has just seen the value of this caller
        rcases List.mem_cons.mp hid with rfl | hid
        · rw [value_of_get (of_decide_eq_true hmatch) hslot]
        · exact hs.deleting id hid slot hslot
      · rwa [← Option.some.inj h]
  | delete holderId =>
    simp only [lockStep] at h
    split at h
    · rename_i hpending
      rw [← Option.some.inj h]
      exact hs.delete hpending
    · exact absurd h (by simp)
  | abandon holderId =>
    obtain rfl := Option.some.inj h
    exact ⟨hs.removals, hs.leased, fun id hid => hs.deleting id (List.mem_of_mem_erase hid)⟩

/-- **The lock is owned.**  If nobody acquires it in the middle of another caller's release, then
    releases and swaps remove nothing but own values, and one caller at most believes that it holds
    the lock. -/
theorem lock_owned [DecidableEq H] {as : List (LockLabel H)}
    (h : Path (lockSystem owner key) (NoAcquireMidRelease owner key) (.initial H) as s) :
    OnlyOwn owner s ∧ ∀ j k, Believes s j → Believes s k → j = k := by
  have howned : LocksOwned owner key s :=
    h.invariant (fun _ _ _ hs hC hstep => hs.step hC hstep) .initial
  exact ⟨howned.removals, fun j k => howned.unique⟩

end System

/-! ### The callers of `run_auto_heal` -/

/-- `settings.auto_heal_lock_ttl_seconds`. -/
def autoHealLockTtlSeconds : ℕ := 3000

/-- The ids a caller sets: its placeholder `reserving:{backtest_id}:{uuid}`, and the id of the job
    that it has enqueued. -/
inductive HealId
  | reserving (caller : ℕ)
  | job (caller : ℕ)
deriving DecidableEq, Repr

def HealId.caller : HealId → ℕ
  | .reserving k | .job k => k

/-- Where a caller stands in `run_auto_heal`. -/
inductive HealStage
  | arriving
  /-- Another caller has the lock: nothing but GETs follows. -/
  | waiting
  | enqueuing
  /-- The queue has declined the job. -/
  | declined
  | swapping
  | polling
  /-- In the `finally` block, with `ingest_job_id`. -/
  | leaving (ingestJobId : Option HealId)
  | releasing (current : HealId)
  | ended
deriving DecidableEq, Repr

structure HealSite where
  lock : LockSite HealId
  stages : ℕ → HealStage

def HealSite.initial : HealSite where
  lock := .initial HealId
  stages := fun _ => .arriving

inductive HealLabel
  | tick (ms : ℕ)
  | acquire (k : ℕ)
  /-- `enqueue_ingest` returns a job, or `None`. -/
  | enqueue (k : ℕ) (accepted : Bool)
  | swap (k : ℕ)
  /-- The end of the `try` block: a result or an exception. -/
  | leave (k : ℕ)
  | getHolder (k : ℕ)
  | release (k : ℕ)
  | delete (id : HealId)
  | abandon (id : HealId)
deriving DecidableEq, Repr

section Heal

variable (key : String)

def HealSite.setStage (s : HealSite) (k : ℕ) (stage : HealStage) : HealSite :=
  { s with stages := Function.update s.stages k stage }

/-- A command on the lock. -/
def HealSite.issue (s : HealSite) (command : LockLabel HealId) : Option HealSite :=
  (lockStep HealId.caller key s.lock command).map fun lock => { s with lock := lock }

def healStep (s : HealSite) : HealLabel → Option HealSite
  | .tick ms => s.issue key (.tick ms)
  | .acquire k =>
    match s.stages k with
    | .arriving =>
      let acquired :=
        (tryAcquire s.lock.store s.lock.now key autoHealLockTtlSeconds (.reserving k)).1
      (s.setStage k (if acquired then .enqueuing else .waiting)).issue key
        (.tryAcquire (.reserving k) autoHealLockTtlSeconds)
    | _ => none
  | .enqueue k accepted =>
    match s.stages k with
    | .enqueuing => some (s.setStage k (if accepted then .swapping else .declined))
    | _ => none
  | .swap k =>
    match s.stages k with
    | .swapping =>
      (s.setStage k .polling).issue key
        (.compareAndSwap (.reserving k) (.job k) autoHealLockTtlSeconds)
    | _ => none
  | .leave k =>
    match s.stages k with
    | .enqueuing | .declined => some (s.setStage k (.leaving none))
    | .swapping | .polling => some (s.setStage k (.leaving (some (.job k))))
    | _ => none
  | .getHolder k =>
    match s.stages k with
    | .leaving ingestJobId =>
      if s.lock.Busy HealId.caller k then none
      else
        match getHolder s.lock.store s.lock.now key with
        | some current =>
          if current = .reserving k ∨ some current = ingestJobId then
            some (s.setStage k (.releasing current))
          else some (s.setStage k .ended)
        | none => some (s.setStage k .ended)
    | _ => none
  | .release k =>
    match s.stages k with
    | .declined => (s.setStage k (.leaving none)).issue key (.release (.reserving k))
    | .releasing current => (s.setStage k .ended).issue key (.release current)
    | _ => none
  | .delete id => s.issue key (.delete id)
  | .abandon id => s.issue key (.abandon id)

/-- The callers of `run_auto_heal` for one scope. -/
def healSystem : TransitionSystem HealSite HealLabel := ⟨healStep key⟩

variable {key} {s t : HealSite} {a : HealLabel}

theorem HealSite.lock_of_issue {command : LockLabel HealId} (h : s.issue key command = some t) :
    lockStep HealId.caller key s.lock command = some t.lock := by
  obtain ⟨lock, hlock, rfl⟩ := Option.map_eq_some_iff.mp h
  exact hlock

/-- A step of a caller issues a command of the lock, or leaves it alone. -/
theorem healStep_lock (h : healStep key s a = some t) :
    t.lock = s.lock ∨ ∃ command, lockStep HealId.caller key s.lock command = some t.lock := by
  have hissue : ∀ {s' : HealSite} {command : LockLabel HealId}, s'.issue key command = some t →
      s'.lock = s.lock → ∃ command, lockStep HealId.caller key s.lock command = some t.lock := by
    intro s' command hstep hsame
    exact ⟨command, hsame ▸ HealSite.lock_of_issue hstep⟩
  have hstage : ∀ {k : ℕ} {stage : HealStage}, some (s.setStage k stage) = some t →
      t.lock = s.lock := by
    intro k stage heq
    rw [← Option.some.inj heq]
    rfl
  cases a with
  | tick ms => exact Or.inr (hissue h rfl)
  | delete id => exact Or.inr (hissue h rfl)
  | abandon id => exact Or.inr (hissue h rfl)
  | acquire k =>
    simp only [healStep] at h
    split at h
    · exact Or.inr (hissue h rfl)
    · exact absurd h (by simp)
  | swap k =>
    simp only [healStep] at h
    split at h
    · exact Or.inr (hissue h rfl)
    · exact absurd h (by simp)
  | release k =>
    simp only [healStep] at h
    split at h
    · exact Or.inr (hissue h rfl)
    · exact Or.inr (hissue h rfl)
    · exact absurd h (by simp)
  | enqueue k accepted =>
    simp only [healStep] at h
    split at h
    · exact Or.inl (hstage h)
    · exact absurd h (by simp)
  | leave k =>
    simp only [healStep] at h
    split at h <;> first | exact Or.inl (hstage h) | exact absurd h (by simp)
  | getHolder k =>
    simp only [healStep] at h
    repeat' split at h
    all_goals first | exact Or.inl (hstage h) | exact absurd h (by simp)

/-- What the callers of `run_auto_heal` do to the lock is a run of the lock. -/
theorem heal_issues_lock {as : List HealLabel} (h : Path (healSystem key) anyStep s as t) :
    ∃ commands, Path (lockSystem HealId.caller key) anyStep s.lock commands t.lock := by
  induction h with
  | nil s => exact ⟨[], .nil _⟩
  | cons _ hstep _ ih =>
    obtain ⟨commands, htail⟩ := ih
    rcases healStep_lock hstep with hsame | ⟨command, hcommand⟩
    · exact ⟨commands, hsame ▸ htail⟩
    · exact ⟨command :: commands, .cons trivial hcommand htail⟩

end Heal

/-! ### A lease that runs out in the middle of a release -/

/-- One caller heals and releases the lock, then another one comes. -/
def oneAfterTheOther : List (LockLabel HealId) :=
  [.tryAcquire (.reserving 0) 3000, .compareAndSwap (.reserving 0) (.job 0) 3000,
    .release (.job 0), .delete (.job 0), .tryAcquire (.reserving 1) 3000]

/-- The lease of caller 0 runs out between the GET and the DEL of its release, and caller 1 acquires
    the lock there. -/
def leaseRunsOut : List HealLabel :=
  [.acquire 0, .enqueue 0 true, .swap 0, .leave 0, .getHolder 0, .release 0, .tick 3000000,
    .acquire 1, .delete (.job 0), .acquire 2]

theorem lock_owned_one_by_one : ∃ s,
    Path (lockSystem HealId.caller "auto_heal:scope") anyStep (.initial HealId)
      oneAfterTheOther s ∧
      (OnlyOwn HealId.caller s ∧ ∀ j k, Believes s j → Believes s k → j = k) ∧
      s.removals.length = 2 ∧ Believes s 1 := by
  have hend : ∃ s ∈ (lockSystem HealId.caller "auto_heal:scope").runWhere
      (NoAcquireMidRelease HealId.caller "auto_heal:scope") (.initial HealId) oneAfterTheOther,
      s.removals.length = 2 ∧ Believes s 1 := by
    decide +kernel
  obtain ⟨s, hrun, hlength, hbelieves⟩ := hend
  have hpath := Path.of_runWhere hrun
  exact ⟨s, hpath.mono fun _ _ _ _ => trivial, lock_owned hpath, hlength, hbelieves⟩

/-- **The slip.**  The DEL of caller 0 removes the placeholder of caller 1, and caller 2 acquires
    the lock beside it. -/
theorem lock_owned_fails : ∃ (as : List (LockLabel HealId)) (s : LockSite HealId),
    Path (lockSystem HealId.caller "auto_heal:scope") anyStep (.initial HealId) as s ∧
      ¬ OnlyOwn HealId.caller s ∧ Believes s 1 ∧ Believes s 2 := by
  have hend : ∃ s ∈ (healSystem "auto_heal:scope").run .initial leaseRunsOut,
      ¬ OnlyOwn HealId.caller s.lock ∧ Believes s.lock 1 ∧ Believes s.lock 2 := by
    decide +kernel
  obtain ⟨s, hrun, hfails⟩ := hend
  obtain ⟨commands, hpath⟩ := heal_issues_lock (Path.of_run hrun)
  exact ⟨commands, s.lock, hpath, hfails⟩

end Msai.Jobs
