import Msai.Lib.KeyValue
import Msai.Lib.Transition
import Msai.Live.FailureKind

namespace Msai.Live.Idempotency

open Lib

/-!
# The Idempotency-Key store (`services/live/idempotency.py`)

`IdempotencyStore` keeps one Redis key per user and Idempotency-Key.  `reserve` claims it
with `SET NX EX`, `commit` overwrites it with the outcome, `release` deletes it.  The
system below interleaves any number of requests, one Redis command at a time, with the
passage of time:

* `reserve` is up to four commands (`SET NX`, `GET`, `SET NX` again, `GET` again);
* the Reserved branch ends with one `commit` or one `release`, both unconditional writes;
* a request may also die in the Reserved branch (a cancelled task is not an `Exception`,
  so neither command runs) and leave its marker to expire.

Who wrote a stored value is recorded next to it (`Written.writer`); the program does not
see that field.
-/

universe u

variable {β : Type u}

/-- `RESERVATION_TTL_S`. -/
def reservationTtlS : ℕ := 300

/-- `RESPONSE_TTL_S`. -/
def responseTtlS : ℕ := 86400

/-- Structured endpoint outcome; `β` is the JSON body of the response. -/
structure EndpointOutcome (β : Type u) where
  statusCode : ℕ
  response : β
  cacheable : Bool
  failureKind : FailureKind := .none
deriving DecidableEq, Repr

/-- The JSON document stored at a key, after `json.loads`. -/
inductive Stored (β : Type u)
  | pending (bodyHash : String) (writtenAt : ℕ)
  | completed (bodyHash : String) (outcome : EndpointOutcome β) (writtenAt : ℕ)
deriving DecidableEq, Repr

/-- The in-flight marker. -/
def Stored.isPending : Stored β → Bool
  | .pending .. => true
  | .completed .. => false

/-- What `reserve` returns. -/
inductive ReservationResult (β : Type u)
  | reserved (redisKey : String)
  | inFlight
  | cachedOutcome (outcome : EndpointOutcome β)
  | bodyMismatchReservation
deriving DecidableEq, Repr

/-- Requests are numbered. -/
abbrev ReqId := ℕ

/-- A stored document with the request that wrote it. -/
structure Written (β : Type u) where
  writer : ReqId
  stored : Stored β
deriving DecidableEq, Repr

/-- The Redis database, restricted to the idempotency keys. -/
abbrev Store (β : Type u) := KeyValue String (Written β)

/-- The arguments of one `reserve` call. -/
structure Request where
  userIdHex : String
  key : String
  bodyHash : String
deriving DecidableEq, Repr

/-- `_build_key`; `sha256Hex` is the hash of the raw key. -/
def buildKey (sha256Hex : String → String) (userIdHex key : String) : String :=
  "msai:idem:start:" ++ userIdHex ++ ":" ++ sha256Hex key

/-- The end of `reserve`: classify the document found by `GET`. -/
def classify (existing : Stored β) (bodyHash : String) : ReservationResult β :=
  match existing with
  | .pending h _ => if h ≠ bodyHash then .bodyMismatchReservation else .inFlight
  | .completed h outcome _ =>
    if h ≠ bodyHash then .bodyMismatchReservation else .cachedOutcome outcome

/-- `commit`: cache the outcome for 24 h, whatever the key holds. -/
def commit (store : Store β) (now : ℕ) (me : ReqId) (redisKey bodyHash : String)
    (outcome : EndpointOutcome β) : Except String (Store β) :=
  if !outcome.cacheable then
    .error ("commit() called with a non-cacheable outcome (status=" ++
      toString outcome.statusCode ++ ", failure_kind=" ++ outcome.failureKind.value ++
      "). Use release() for transient outcomes.")
  else
    .ok (store.set now redisKey ⟨me, .completed bodyHash outcome now⟩ (some responseTtlS))

/-- `release`: delete the key, whatever it holds. -/
def release (store : Store β) (redisKey : String) : Store β :=
  store.del redisKey

/-- Where a request stands. -/
inductive Phase (β : Type u)
  | arriving
  /-- The marker is built; the first `SET NX` comes next. -/
  | setNx (writtenAt : ℕ)
  | get (writtenAt : ℕ)
  | setNxRetry (writtenAt : ℕ)
  | getRetry (writtenAt : ℕ)
  /-- In the Reserved branch; the marker was written at `reservedAt`. -/
  | executing (reservedAt : ℕ)
  /-- Another result than `Reserved` was returned. -/
  | answered (result : ReservationResult β)
  | finished
deriving DecidableEq, Repr

/-- Redis, the clock and the requests. -/
structure State (β : Type u) where
  now : ℕ
  store : Store β
  phase : ReqId → Phase β

/-- One step of one request, or of the clock. -/
inductive Act (β : Type u)
  /-- `reserve` is called and builds its marker. -/
  | call (r : ReqId)
  /-- The next Redis command of `reserve` runs. -/
  | redis (r : ReqId)
  /-- The Reserved branch ends: `none` when building the outcome raised. -/
  | finish (r : ReqId) (outcome : Option (EndpointOutcome β))
  /-- The task or process dies inside the Reserved branch. -/
  | die (r : ReqId)
  | tick (dt : ℕ)
deriving DecidableEq, Repr

section System

variable (sha256Hex : String → String) (requests : ReqId → Request)

/-- The Redis key of a request. -/
def redisKey (r : ReqId) : String :=
  buildKey sha256Hex (requests r).userIdHex (requests r).key

namespace State

/-- Move one request. -/
def setPhase (s : State β) (r : ReqId) (p : Phase β) : State β :=
  { s with phase := Function.update s.phase r p }

/-- The state after a Redis command. -/
def withStore (s : State β) (store : Store β) : State β :=
  { s with store := store }

/-- `SET NX EX` by `r`: the Reserved branch, or `lost`. -/
def trySetNx (s : State β) (r : ReqId) (writtenAt : ℕ) (lost : Phase β) : State β :=
  let (wasSet, store) := s.store.setNx s.now (redisKey sha256Hex requests r)
    ⟨r, .pending (requests r).bodyHash writtenAt⟩ reservationTtlS
  if wasSet then (s.withStore store).setPhase r (.executing s.now) else s.setPhase r lost

/-- `GET` by `r`: classify what is there, or go to `missing`. -/
def tryGet (s : State β) (r : ReqId) (missing : Phase β) : State β :=
  match s.store.get s.now (redisKey sha256Hex requests r) with
  | none => s.setPhase r missing
  | some w => s.setPhase r (.answered (classify w.stored (requests r).bodyHash))

/-- The write that ends the Reserved branch. -/
def finishStore (s : State β) (r : ReqId) :
    Option (EndpointOutcome β) → Except String (Store β)
  | none => .ok (release s.store (redisKey sha256Hex requests r))
  -- a transient outcome is released so that a retry may execute again
  | some o =>
    if o.cacheable then
      commit s.store s.now r (redisKey sha256Hex requests r) (requests r).bodyHash o
    else
      .ok (release s.store (redisKey sha256Hex requests r))

end State

/-- One step of the system. -/
def step (s : State β) : Act β → Option (State β)
  | .call r =>
    match s.phase r with
    | .arriving => some (s.setPhase r (.setNx s.now))
    | _ => none
  | .redis r =>
    match s.phase r with
    | .setNx at_ => some (s.trySetNx sha256Hex requests r at_ (.get at_))
    | .get at_ => some (s.tryGet sha256Hex requests r (.setNxRetry at_))
    | .setNxRetry at_ => some (s.trySetNx sha256Hex requests r at_ (.getRetry at_))
    -- two expiries in a row: give up and report the key as in flight
    | .getRetry _ => some (s.tryGet sha256Hex requests r (.answered .inFlight))
    | _ => none
  | .finish r outcome =>
    match s.phase r with
    | .executing _ =>
      match s.finishStore sha256Hex requests r outcome with
      | .ok store => some ((s.withStore store).setPhase r .finished)
      | .error _ => none
    | _ => none
  | .die r =>
    match s.phase r with
    | .executing _ => some (s.setPhase r .finished)
    | _ => none
  | .tick dt => some { s with now := s.now + dt }

/-- The store and its clients as a transition system. -/
def system : TransitionSystem (State β) (Act β) := ⟨step sha256Hex requests⟩

end System

section Properties

variable (sha256Hex : String → String) (requests : ReqId → Request)

/-- At most one request per key is in the Reserved branch. -/
def Exclusive (s : State β) : Prop :=
  ∀ r r' i j, s.phase r = .executing i → s.phase r' = .executing j →
    redisKey sha256Hex requests r = redisKey sha256Hex requests r' → r = r'

/-- The key of `r` currently shows the pending marker that `r` itself wrote. -/
def HoldsOwnMarker (s : State β) (r : ReqId) : Prop :=
  ∃ slot, s.store.slotAt s.now (redisKey sha256Hex requests r) = some slot ∧
    slot.value.writer = r ∧ slot.value.stored.isPending = true

/-- Every completed outcome that is visible in `s` is still stored in `t`, with the same
    deadline. -/
def KeepsCompleted (s t : State β) : Prop :=
  ∀ k slot, s.store.slotAt s.now k = some slot → slot.value.stored.isPending = false →
    t.store k = some slot

/-- Slot ownership in one state: exclusion, and what every step from there may touch. -/
structure SlotOwnership (s : State β) : Prop where
  exclusive : Exclusive sha256Hex requests s
  /-- A `commit` or `release` replaces or deletes the request's own pending marker. -/
  ownMarker : ∀ r o t, step sha256Hex requests s (.finish r o) = some t →
    HoldsOwnMarker sha256Hex requests s r
  /-- No step removes or overwrites a completed outcome before its TTL. -/
  keepsCompleted : ∀ a t, step sha256Hex requests s a = some t → KeepsCompleted s t

/-- The requests are still to come; the store may hold anything. -/
def Initial (s : State β) : Prop := ∀ r, s.phase r = .arriving

/-- Time only passes as long as every request leaves the Reserved branch before the TTL of
    its own marker has elapsed. -/
def FinishesInTime (s : State β) (a : Act β) : Prop :=
  ∀ dt, a = .tick dt → ∀ r i, s.phase r = .executing i →
    s.now + dt < i + 1000 * reservationTtlS

/-- Every request in the Reserved branch owns a live pending marker. -/
def Owned (s : State β) : Prop :=
  ∀ r i, s.phase r = .executing i → s.now < i + 1000 * reservationTtlS ∧
    ∃ w, s.store (redisKey sha256Hex requests r) =
      some ⟨⟨r, .pending (requests r).bodyHash w⟩, some (i + 1000 * reservationTtlS)⟩

end Properties

section Proofs

variable {sha256Hex : String → String} {requests : ReqId → Request}
variable {s t : State β} {a : Act β} {as : List (Act β)} {r r' : ReqId} {p : Phase β}

/-- The phase after a request has moved. -/
theorem setPhase_executing {i : ℕ} (h : (s.setPhase r p).phase r' = .executing i) :
    (r' = r ∧ p = .executing i) ∨ (r' ≠ r ∧ s.phase r' = .executing i) := by
  by_cases hr : r' = r
  · subst hr
    exact .inl ⟨rfl, by simpa [State.setPhase] using h⟩
  · exact .inr ⟨hr, by simpa [State.setPhase, hr] using h⟩

/-- What a step may do, apart from bookkeeping. -/
inductive Effect (sha256Hex : String → String) (requests : ReqId → Request) (s : State β) :
    Act β → State β → Prop
  /-- A request moves without writing, and not into the Reserved branch. -/
  | quiet {a : Act β} {r : ReqId} {p : Phase β} (hact : ∀ r o, a ≠ .finish r o)
      (hp : ∀ i, p ≠ .executing i) : Effect sha256Hex requests s a (s.setPhase r p)
  /-- `SET NX` wins. -/
  | claim {a : Act β} {r : ReqId} (w : ℕ) (hact : ∀ r o, a ≠ .finish r o)
      (hfree : s.store.slotAt s.now (redisKey sha256Hex requests r) = none) :
      Effect sha256Hex requests s a
        ((s.withStore (s.store.set s.now (redisKey sha256Hex requests r)
          ⟨r, .pending (requests r).bodyHash w⟩ (some reservationTtlS))).setPhase r
            (.executing s.now))
  /-- `commit` or `release`. -/
  | finish {r : ReqId} {o : Option (EndpointOutcome β)} {i : ℕ} {store : Store β}
      (hphase : s.phase r = .executing i)
      (hother : ∀ k, k ≠ redisKey sha256Hex requests r → store k = s.store k) :
      Effect sha256Hex requests s (.finish r o) ((s.withStore store).setPhase r .finished)
  | tick (dt : ℕ) : Effect sha256Hex requests s (.tick dt) { s with now := s.now + dt }

private theorem effect_trySetNx {w : ℕ} {lost : Phase β} (hact : ∀ r o, a ≠ .finish r o)
    (hlost : ∀ i, lost ≠ .executing i) :
    Effect sha256Hex requests s a (s.trySetNx sha256Hex requests r w lost) := by
  unfold State.trySetNx
  rcases s.store.setNx_cases with ⟨_, _, h⟩ | ⟨hfree, h⟩
  · rw [h]
    exact .quiet hact hlost
  · rw [h]
    exact .claim w hact hfree

private theorem effect_tryGet {missing : Phase β} (hact : ∀ r o, a ≠ .finish r o)
    (hmissing : ∀ i, missing ≠ .executing i) :
    Effect sha256Hex requests s a (s.tryGet sha256Hex requests r missing) := by
  unfold State.tryGet
  split
  · exact .quiet hact hmissing
  · exact .quiet hact fun i => by simp

/-- `commit` and `release` touch no other key. -/
private theorem finishStore_other {o : Option (EndpointOutcome β)} {store : Store β} {k : String}
    (h : s.finishStore sha256Hex requests r o = .ok store)
    (hk : k ≠ redisKey sha256Hex requests r) : store k = s.store k := by
  have hrelease : .ok (release s.store (redisKey sha256Hex requests r)) =
      (.ok store : Except String (Store β)) → store k = s.store k := by
    rintro ⟨⟩
    exact KeyValue.del_other hk
  cases o with
  | none => exact hrelease h
  | some o =>
    unfold State.finishStore at h
    by_cases hc : o.cacheable = true
    · simp only [hc, if_true, commit, Bool.not_true, Bool.false_eq_true, if_false] at h
      cases h
      exact KeyValue.set_other hk
    · simp only [hc] at h
      exact hrelease h

/-- **Step inversion.** -/
theorem step_effect (h : step sha256Hex requests s a = some t) :
    Effect sha256Hex requests s a t := by
  cases a with
  | call r =>
    simp only [step] at h
    split at h
    · cases h
      exact .quiet (by simp) (by simp)
    · cases h
  | redis r =>
    simp only [step] at h
    split at h
    · cases h
      exact effect_trySetNx (by simp) (by simp)
    · cases h
      exact effect_tryGet (by simp) (by simp)
    · cases h
      exact effect_trySetNx (by simp) (by simp)
    · cases h
      exact effect_tryGet (by simp) (by simp)
    · cases h
  | finish r o =>
    simp only [step] at h
    split at h
    · rename_i i hphase
      split at h
      · rename_i store hstore
        cases h
        exact .finish hphase fun k hk => finishStore_other hstore hk
      · cases h
    · cases h
  | die r =>
    simp only [step] at h
    split at h
    · cases h
      exact .quiet (by simp) (by simp)
    · cases h
  | tick dt =>
    cases h
    exact .tick dt

/-- An owner's marker is visible. -/
theorem Owned.slotAt {i : ℕ} (hs : Owned sha256Hex requests s) (hr : s.phase r = .executing i) :
    ∃ w, s.store.slotAt s.now (redisKey sha256Hex requests r) =
      some ⟨⟨r, .pending (requests r).bodyHash w⟩, some (i + 1000 * reservationTtlS)⟩ := by
  obtain ⟨hlive, w, hw⟩ := hs r i hr
  exact ⟨w, KeyValue.slotAt_eq_some.mpr ⟨hw, by simpa [Slot.live] using hlive⟩⟩

/-- Owners of one key are equal: the key has one writer. -/
theorem Owned.exclusive (hs : Owned sha256Hex requests s) : Exclusive sha256Hex requests s := by
  intro r r' i j hr hr' hkey
  obtain ⟨_, w, hw⟩ := hs r i hr
  obtain ⟨_, w', hw'⟩ := hs r' j hr'
  rw [hkey, hw'] at hw
  simp only [Option.some.injEq, Slot.mk.injEq, Written.mk.injEq] at hw
  exact hw.1.1.symm

/-- **Step lemma.**  Ownership survives every step, ticks included as long as no marker
    runs out under its request. -/
theorem Owned.step (hs : Owned sha256Hex requests s) (hC : FinishesInTime s a)
    (h : step sha256Hex requests s a = some t) : Owned sha256Hex requests t := by
  intro q j hq
  cases step_effect h with
  | quiet _ hp =>
    rcases setPhase_executing hq with ⟨_, rfl⟩ | ⟨_, hq'⟩
    · exact absurd rfl (hp j)
    · exact hs q j hq'
  | @claim _ r w _ hfree =>
    rcases setPhase_executing hq with ⟨rfl, hj⟩ | ⟨_, hq'⟩
    · -- the claimant: its marker was written now
      cases hj
      exact ⟨by simp [State.setPhase, State.withStore, reservationTtlS], w, KeyValue.set_same⟩
    · -- another owner of the same key would have been visible to `SET NX`
      have hkey : redisKey sha256Hex requests q ≠ redisKey sha256Hex requests r := by
        intro heq
        obtain ⟨w', hw'⟩ := hs.slotAt hq'
        rw [heq, hfree] at hw'
        cases hw'
      obtain ⟨hlive, w', hw'⟩ := hs q j hq'
      refine ⟨hlive, w', ?_⟩
      exact (KeyValue.set_other hkey).trans hw'
  | @finish r o i store hphase hother =>
    rcases setPhase_executing hq with ⟨_, hj⟩ | ⟨hne, hq'⟩
    · cases hj
    · -- whoever finishes writes its own key, and the other owner has another one
      have hkey : redisKey sha256Hex requests q ≠ redisKey sha256Hex requests r :=
        fun heq => hne (hs.exclusive q r j i hq' hphase heq)
      obtain ⟨hlive, w', hw'⟩ := hs q j hq'
      exact ⟨hlive, w', (hother _ hkey).trans hw'⟩
  | tick dt =>
    obtain ⟨_, w, hw⟩ := hs q j hq
    exact ⟨hC dt rfl q j hq, w, hw⟩

/-- In an owned state nobody can touch a foreign marker or a completed outcome. -/
theorem Owned.slotOwnership (hs : Owned sha256Hex requests s) :
    SlotOwnership sha256Hex requests s where
  exclusive := hs.exclusive
  ownMarker := by
    intro r o t h
    cases step_effect h with
    | quiet hact _ => exact absurd rfl (hact r o)
    | claim _ hact _ => exact absurd rfl (hact r o)
    | finish hphase _ =>
      obtain ⟨w, hw⟩ := hs.slotAt hphase
      exact ⟨_, hw, rfl, rfl⟩
  keepsCompleted := by
    intro a t h k slot hslot hcompleted
    have hstored := (KeyValue.slotAt_eq_some.mp hslot).1
    cases step_effect h with
    | quiet _ _ => exact hstored
    | @claim _ r _ _ hfree =>
      -- `SET NX` does not claim a key under which something is visible
      have hkey : k ≠ redisKey sha256Hex requests r := by
        rintro rfl
        rw [hfree] at hslot
        cases hslot
      exact (KeyValue.set_other hkey).trans hstored
    | @finish r _ _ _ hphase hother =>
      -- the finished key shows a pending marker, not a completed outcome
      have hkey : k ≠ redisKey sha256Hex requests r := by
        rintro rfl
        obtain ⟨w, hw⟩ := hs.slotAt hphase
        rw [hw] at hslot
        cases hslot
        cases hcompleted
      exact (hother k hkey).trans hstored
    | tick _ => exact hstored

/-- Nobody executes before the first request. -/
theorem Initial.owned (hs : Initial s) : Owned sha256Hex requests s := by
  intro r i hr
  rw [hs r] at hr
  cases hr

/-- **Slot ownership.**  In every run in which each request leaves the Reserved branch
    before the TTL of its own marker elapses, at most one request per key executes, `commit`
    and `release` only touch the request's own marker, and completed outcomes stay until
    their TTL. -/
theorem slot_ownership_of_finishes_in_time (hs : Initial s)
    (hrun : (system sha256Hex requests).Path FinishesInTime s as t) :
    SlotOwnership sha256Hex requests t :=
  (hrun.invariant (fun _ _ _ hs hC h => hs.step hC h) hs.owned).slotOwnership

end Proofs

/-! ### A request that outlives its marker -/

/-- Both requests of the runs below carry the same user, key and body. -/
def sameRequest : ReqId → Request := fun _ => ⟨"u1", "k", "h"⟩

/-- The state in which nothing has happened yet. -/
def fresh : State Unit := ⟨0, KeyValue.empty, fun _ => .arriving⟩

/-- Request 1 executes for 300 s; its marker expires and request 2 claims the key. -/
def overrun : List (Act Unit) :=
  [.call 1, .redis 1, .tick 300000, .call 2, .redis 2]

/-- Without the time limit the property fails: both requests are in the Reserved branch. -/
theorem slot_ownership_fails :
    ¬ ∀ (as : List (Act Unit)) (t : State Unit),
      (system id sameRequest).Path TransitionSystem.anyStep fresh as t →
        SlotOwnership id sameRequest t := by
  intro h
  have hown := h overrun _ (.of_run rfl)
  exact absurd (hown.exclusive 1 2 0 300000 rfl rfl rfl) (by decide)

/-- The condition of `slot_ownership_of_finishes_in_time` can be met: a request that
    commits after 299 s. -/
theorem slot_ownership_prompt :
    ∃ t : State Unit,
      (system id sameRequest).Path FinishesInTime fresh
        [.call 1, .redis 1, .tick 299000, .call 2, .redis 2,
          .finish 1 (some ⟨201, (), true, .none⟩)] t ∧
      SlotOwnership id sameRequest t := by
  have hs : Initial fresh := fun _ => rfl
  have hC : ∀ (s : State Unit) (a : Act Unit), (∀ dt, a ≠ .tick dt) → FinishesInTime s a :=
    fun _ _ ha dt hdt => absurd hdt (ha dt)
  obtain ⟨t, hpath⟩ : ∃ t, (system id sameRequest).Path FinishesInTime fresh
      [.call 1, .redis 1, .tick 299000, .call 2, .redis 2,
        .finish 1 (some ⟨201, (), true, .none⟩)] t := by
    refine ⟨_, .cons (hC _ _ (by simp)) rfl (.cons (hC _ _ (by simp)) rfl (.cons ?_ rfl
      (.cons (hC _ _ (by simp)) rfl (.cons (hC _ _ (by simp)) rfl
        (.cons (hC _ _ (by simp)) rfl (.nil _))))))⟩
    rintro dt ⟨⟩ r i hr
    rcases setPhase_executing hr with ⟨_, hi⟩ | ⟨_, hr'⟩
    · cases hi
      decide
    · rcases setPhase_executing hr' with ⟨_, hi⟩ | ⟨_, hr'⟩
      · cases hi
      · cases hr'
  exact ⟨t, hpath, slot_ownership_of_finishes_in_time hs hpath⟩

end Msai.Live.Idempotency
