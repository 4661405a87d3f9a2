import Msai.Supervisor.LastRow

namespace Msai.Api

open Msai.Live Msai.Lib Msai.Lib.TransitionSystem Msai.Supervisor

/-!
# Coalesced stops (`services/live/flatness_service.py`)

`/stop`, `/kill-all` and `/drain` all go through `coalesce_or_publish_stop_with_flatness`: the
first request to set `inflight_stop:{deployment_id}` publishes a command under its nonce, the
others take over the nonce they find in the key.  The supervisor turns the command into a
ticket on `flatness_pending:{deployment_id}`; the child drains the tickets when it shuts down
and answers each with a `stop_report:{nonce}`, for which the requests poll.

* `StopRequest`, `StopPc` — a handler and the Redis operation it stands at;
* `StopSite`, `stopSiteStep` — the requests, the keys, the stream and the fleet;
* `Settled` — the condition: a request takes over a nonce only from a request that has
  published it, and no row is reserved under a stop that is not over yet;
* `accepted_stop_reaches_node` — then the nonce a request got was published, after the row
  that was active when it got it, and the report it reads is by the child of that row.

The key is set before the command is published, and it outlives the node it was meant for.
-/

/-! ### The handlers -/

/-- The three endpoints. -/
inductive StopKind
  | stop
  | killAll
  | drain
deriving DecidableEq, Repr

/-- The answer to a Redis write: done, not done, or done with the reply lost.  Anything but
    the first raises. -/
inductive Reply
  | ok
  | refused
  | lost
deriving DecidableEq, Repr

/-- Where a handler stands. -/
inductive StopPc
  /-- `SET inflight_stop NX`. -/
  | setNx
  /-- It has set the key to its nonce and publishes. -/
  | publishing (nonce : ℕ)
  /-- The publish raised (`added`: with the command on the stream); the key is deleted. -/
  | clearing (nonce : ℕ) (added : Bool)
  /-- `GET inflight_stop` behind a failed `NX`. -/
  | get
  /-- `poll_stop_report`. -/
  | polling
  /-- `/stop` polls the node row. -/
  | awaitingRow
  /-- The unconditional `DEL inflight_stop`. -/
  | deleting
  | finished
  /-- An exception left the handler; `left` is a nonce it set and never published. -/
  | raised (left : Option ℕ)
deriving DecidableEq, Repr

/-- The handler set the key to this nonce and has not published it. -/
def StopPc.holdsUnpublished (nonce : ℕ) : StopPc → Bool
  | .publishing n => n == nonce
  | .clearing n added => n == nonce && !added
  | .raised left => left == some nonce
  | _ => false

/-- One request for the deployment. -/
structure StopRequest where
  kind : StopKind
  pc : StopPc
  /-- What `coalesce_or_publish_stop_with_flatness` returned, with the row that was active
      then. -/
  returned : Option (ℕ × Option ℕ)
  /-- The child whose report it has read. -/
  report : Option ℕ
deriving DecidableEq, Repr

namespace StopRequest

/-- The same request at another operation. -/
def goto (q : StopRequest) (pc : StopPc) : StopRequest := { q with pc := pc }

/-- The request when the coalescing call returns. -/
def accept (q : StopRequest) (nonce : ℕ) (row : Option ℕ) : StopRequest :=
  { q with pc := .polling, returned := some (nonce, row), report := none }

/-- The request after `poll_stop_report`.  `/kill-all` and `/drain` delete the key when a
    report came, `/stop` when the row is terminal. -/
def afterPoll (q : StopRequest) (report : Option ℕ) : StopRequest :=
  { q with
    report := report
    pc := match q.kind with
      | .stop => .awaitingRow
      | .killAll | .drain => if report.isSome then .deleting else .finished }

@[simp] theorem goto_pc (q : StopRequest) (pc : StopPc) : (q.goto pc).pc = pc := rfl
@[simp] theorem goto_returned (q : StopRequest) (pc : StopPc) :
    (q.goto pc).returned = q.returned := rfl
@[simp] theorem goto_report (q : StopRequest) (pc : StopPc) : (q.goto pc).report = q.report := rfl

/-- Behind its poll a request holds no unpublished nonce. -/
theorem afterPoll_holdsUnpublished (q : StopRequest) (report : Option ℕ) (n : ℕ) :
    (q.afterPoll report).pc.holdsUnpublished n = false := by
  unfold afterPoll
  cases q.kind <;> cases report <;> rfl

end StopRequest

/-! ### The system -/

/-- One deployment, its stop requests and what Redis holds for them. -/
structure StopSite where
  fleet : Fleet
  requests : List StopRequest
  /-- `inflight_stop:{deployment_id}`. -/
  inflight : Option ℕ
  /-- Nonces are random; the next one has not been used. -/
  nextNonce : ℕ
  /-- Every command that got onto the stream: its nonce and the number of rows by then. -/
  published : List (ℕ × ℕ)
  /-- The commands that are not acknowledged. -/
  stream : List ℕ
  /-- `flatness_pending:{deployment_id}`. -/
  tickets : List ℕ
  /-- `stop_report:{nonce}`, with the child that wrote it. -/
  reports : List (ℕ × ℕ)
deriving DecidableEq

/-- What happens next. -/
inductive StopLabel
  /-- A request reads the database and goes on to the coalescing call. -/
  | request (kind : StopKind) (now : ℕ)
  | setNx (k : ℕ) (reply : Reply)
  | publish (k : ℕ) (reply : Reply)
  | clear (k : ℕ) (ok : Bool)
  | get (k : ℕ) (ok : Bool)
  /-- The last iteration of `poll_stop_report`: a report, or the deadline. -/
  | pollReport (k : ℕ)
  /-- The last iteration of `_poll_for_terminal`. -/
  | pollRow (k : ℕ) (now : ℕ)
  | delete (k : ℕ) (ok : Bool)
  /-- A read raises and the request ends. -/
  | fail (k : ℕ)
  /-- The key expires. -/
  | expire
  /-- The supervisor takes a command from the stream, possibly again. -/
  | consume (nonce : ℕ)
  | ack (nonce : ℕ)
  /-- A child takes the next ticket; `wrote` when its report gets through. -/
  | drain (pid : ℕ) (wrote : Bool)
  | expireTickets
  | expireReport (nonce : ℕ)
  /-- Anything else that happens to the deployment. -/
  | fleet (a : FleetLabel)

namespace StopSite

variable (s : StopSite)

/-- The request at position `k` becomes `q`. -/
def put (k : ℕ) (q : StopRequest) : StopSite := { s with requests := s.requests.set k q }

/-- A request enters with the table it left behind. -/
def enter (kind : StopKind) (db : Db) : StopSite :=
  { s with
    fleet := { s.fleet with db := db }
    requests := s.requests ++ [{ kind := kind, pc := .setNx, returned := none, report := none }] }

/-- The key is set to a fresh nonce. -/
def acquire (k : ℕ) (q : StopRequest) : StopSite :=
  { s.put k q with inflight := some s.nextNonce, nextNonce := s.nextNonce + 1 }

/-- The command is on the stream. -/
def append (nonce : ℕ) (k : ℕ) (q : StopRequest) : StopSite :=
  { s.put k q with
    published := s.published ++ [(nonce, s.fleet.db.rows.length)]
    stream := s.stream ++ [nonce] }

/-- The key is gone. -/
def unset (k : ℕ) (q : StopRequest) : StopSite := { s.put k q with inflight := none }

end StopSite

/-- The status write of `/stop`. -/
def stoppedDep (d : Deployment) (now : ℕ) : Deployment :=
  { d.setStatus .stopped Status.stopped_ne_stopping with lastStoppedAt := some now }

/-- The row is terminal for `_poll_for_terminal`. -/
def isTerminalRow (r : NodeRow) : Bool := r.status == .stopped || r.status == .failed

/-- One step of the requests on host `host`. -/
def stopSiteStep (host : String) (policy : Option RestartPolicy) (s : StopSite) :
    StopLabel → Option StopSite
  | .request kind now =>
    match kind with
    | .stop =>
      -- without an active row `/stop` returns before the coalescing call
      s.fleet.db.activeId.bind fun i =>
        (s.fleet.db.write i (.apiStampActive now)).map fun db => s.enter .stop db
    | .killAll =>
      if s.fleet.db.rows.any (·.status.isLive) then some (s.enter .killAll s.fleet.db) else none
    | .drain =>
      -- the drain goes by the deployment row
      if s.fleet.db.dep.status.isLive then some (s.enter .drain s.fleet.db) else none
  | .setNx k reply =>
    (s.requests[k]?).bind fun q =>
      if q.pc = .setNx then
        match s.inflight, reply with
        | some _, .ok => some (s.put k (q.goto .get))
        | none, .ok => some (s.acquire k (q.goto (.publishing s.nextNonce)))
        -- outside the `try`: nothing deletes the key
        | none, .lost => some (s.acquire k (q.goto (.raised (some s.nextNonce))))
        | _, _ => some (s.put k (q.goto (.raised none)))
      else none
  | .publish k reply =>
    (s.requests[k]?).bind fun q =>
      match q.pc, reply with
      | .publishing n, .ok => some (s.append n k (q.accept n s.fleet.db.activeId))
      | .publishing n, .lost => some (s.append n k (q.goto (.clearing n true)))
      | .publishing n, .refused => some (s.put k (q.goto (.clearing n false)))
      | _, _ => none
  | .clear k ok =>
    (s.requests[k]?).bind fun q =>
      match q.pc with
      | .clearing n added =>
        if ok then some (s.unset k (q.goto (.raised none)))
        else some (s.put k (q.goto (.raised (if added then none else some n))))
      | _ => none
  | .get k ok =>
    (s.requests[k]?).bind fun q =>
      if q.pc = .get then
        if ok then
          match s.inflight with
          -- the key expired in between: start over
          | none => some (s.put k (q.goto .setNx))
          | some n => some (s.put k (q.accept n s.fleet.db.activeId))
        else some (s.put k (q.goto (.raised none)))
      else none
  | .pollReport k =>
    (s.requests[k]?).bind fun q => q.returned.bind fun ret =>
      if q.pc = .polling then
        some (s.put k (q.afterPoll ((s.reports.find? fun p => p.1 == ret.1).map (·.2))))
      else none
  | .pollRow k now =>
    (s.requests[k]?).bind fun q =>
      if q.pc = .awaitingRow then
        if s.fleet.db.latest.any isTerminalRow then
          some { s.put k (q.goto .deleting) with
            fleet := { s.fleet with
              db := s.fleet.db.setDep (stoppedDep s.fleet.db.dep now) } }
        -- the deadline: the key stays
        else some (s.put k (q.goto .finished))
      else none
  | .delete k ok =>
    (s.requests[k]?).bind fun q =>
      if q.pc = .deleting then
        if ok then some (s.unset k (q.goto .finished)) else some (s.put k (q.goto .finished))
      else none
  | .fail k =>
    (s.requests[k]?).bind fun q =>
      if q.pc = .polling ∨ q.pc = .awaitingRow then some (s.put k (q.goto (.raised none)))
      else none
  | .expire => some { s with inflight := none }
  | .consume n =>
    -- the list is bounded at 32 entries
    if n ∈ s.stream then
      some { s with tickets := (s.tickets ++ [n]).drop (s.tickets.length + 1 - 32) }
    else none
  | .ack n => some { s with stream := s.stream.filter (· ≠ n) }
  | .drain pid wrote =>
    (s.fleet.children[pid]?).bind fun c =>
      match s.tickets with
      | [] => none
      | n :: rest =>
        if c.alive ∧ c.phase ≠ .exiting then
          some { s with
            tickets := rest
            reports := if wrote then (n, pid) :: s.reports else s.reports }
        else none
  | .expireTickets => some { s with tickets := [] }
  | .expireReport n => some { s with reports := s.reports.filter fun p => p.1 ≠ n }
  | .fleet a => (fleetStep host policy s.fleet a).map fun f => { s with fleet := f }

/-- The requests as a transition system. -/
def stopSystem (host : String) (policy : Option RestartPolicy) :
    TransitionSystem StopSite StopLabel where
  step := stopSiteStep host policy

/-- A deployment without node rows, before the first request. -/
def StopSite.initial (dep : Deployment) : StopSite :=
  { fleet := Fleet.initial (.empty dep)
    requests := []
    inflight := none
    nextNonce := 0
    published := []
    stream := []
    tickets := []
    reports := [] }

/-! ### The property and the condition -/

/-- What every request got from the coalescing call: the nonce of a published command; the
    row that was active then was reserved before the publish; and a report it has read is by
    the child of that row. -/
def StopsReachNode (s : StopSite) : Prop :=
  ∀ (k n : ℕ) (q : StopRequest) (row : Option ℕ), s.requests[k]? = some q →
    q.returned = some (n, row) →
      ∃ m, (n, m) ∈ s.published ∧ ∀ i, row = some i → i < m ∧
        ∀ pid, q.report = some pid → ∃ c, s.fleet.children[pid]? = some c ∧ c.rowId = i

/-- No stop of the deployment is still under way: the key holds no published nonce, no
    command waits for its acknowledgement and no ticket for its report. -/
def StopSite.stopsOver (s : StopSite) : Bool :=
  (s.inflight.all fun n => s.published.all fun p => p.1 != n)
    && s.stream.isEmpty && s.tickets.isEmpty

/-- Nobody holds the nonce in the key without having published it. -/
def StopSite.keyPublished (s : StopSite) : Bool :=
  s.inflight.all fun n => s.requests.all fun q => !q.pc.holdsUnpublished n

/-- The condition on a step. -/
def Settled (s : StopSite) : StopLabel → Prop
  | .get _ _ => s.keyPublished = true
  | .fleet (.reserve req other) =>
    phaseAGate s.fleet.db req other = none → s.stopsOver = true ∧ s.fleet.vacant = true
  | _ => True

instance (s : StopSite) (a : StopLabel) : Decidable (Settled s a) :=
  match a with
  | .get _ _ => inferInstanceAs (Decidable (s.keyPublished = true))
  | .fleet (.reserve req other) =>
    inferInstanceAs (Decidable (phaseAGate s.fleet.db req other = none →
      s.stopsOver = true ∧ s.fleet.vacant = true))
  | .request _ _ | .setNx _ _ | .publish _ _ | .clear _ _ | .pollReport _ | .pollRow _ _
  | .delete _ _ | .fail _ | .expire | .consume _ | .ack _ | .drain _ _ | .expireTickets
  | .expireReport _ | .fleet (.spawn _ _) | .fleet (.child _ _) | .fleet (.childExit _ _)
  | .fleet (.reap _) | .fleet (.sweep _ _) | .fleet (.watchdogSelect _ _)
  | .fleet (.watchdogFlush _) | .fleet (.stop _) | .fleet .stopSignal | .fleet (.apiStart _)
  | .fleet (.apiStatus _ _) => isTrue trivial

/-! ### The invariant -/

/-- The nonce the request got is published, the row that was active then was the latest at
    the publish, and the report it has read is by the child of that row. -/
def Answered (s : StopSite) (q : StopRequest) : Prop :=
  ∀ (n : ℕ) (row : Option ℕ), q.returned = some (n, row) →
    ∃ m, (n, m) ∈ s.published ∧ ∀ i, row = some i → i + 1 = m ∧
      ∀ pid, q.report = some pid → ∃ c, s.fleet.children[pid]? = some c ∧ c.rowId = i

/-- What holds between the keys, the stream, the tickets, the reports and the rows. -/
structure StopInv (s : StopSite) : Prop where
  lastRow : LastRow s.fleet
  /-- The nonce in the key is published, or the request that set it has not got there. -/
  key : ∀ n, s.inflight = some n →
    (∃ (k : ℕ) (q : StopRequest), s.requests[k]? = some q ∧ q.pc.holdsUnpublished n = true) ∨
      ∃ m, (n, m) ∈ s.published
  /-- No row was reserved since the command of the key was published. -/
  keyRows : ∀ n m, s.inflight = some n → (n, m) ∈ s.published → m = s.fleet.db.rows.length
  used : ∀ n m, (n, m) ∈ s.published → n < s.nextNonce
  publishing : ∀ (k n : ℕ) (q : StopRequest), s.requests[k]? = some q → q.pc = .publishing n →
    n < s.nextNonce ∧ ∀ m, (n, m) ∉ s.published
  publisher : ∀ (k k' n : ℕ) (q q' : StopRequest), s.requests[k]? = some q →
    s.requests[k']? = some q' → q.pc = .publishing n → q'.pc = .publishing n → k = k'
  streamRows : ∀ n ∈ s.stream, (∃ m, (n, m) ∈ s.published) ∧
    ∀ m, (n, m) ∈ s.published → m = s.fleet.db.rows.length
  ticketRows : ∀ n ∈ s.tickets, (∃ m, (n, m) ∈ s.published) ∧
    ∀ m, (n, m) ∈ s.published → m = s.fleet.db.rows.length
  /-- A report is by the child of the row that was the latest when its command was
      published. -/
  reports : ∀ (n pid : ℕ), (n, pid) ∈ s.reports → (∃ m, (n, m) ∈ s.published) ∧
    ∀ m, (n, m) ∈ s.published → ∃ c, s.fleet.children[pid]? = some c ∧ c.rowId + 1 = m
  answered : ∀ (k : ℕ) (q : StopRequest), s.requests[k]? = some q → Answered s q

theorem stopInv_initial (dep : Deployment) : StopInv (StopSite.initial dep) := by
  refine ⟨⟨?_, ?_, ?_⟩, ?_, ?_, ?_, ?_, ?_, ?_, ?_, ?_, ?_⟩ <;>
    simp [StopSite.initial, Fleet.initial, Db.empty]

section Parts

variable {s : StopSite} {k n : ℕ} {q q' : StopRequest}

/-- The key is deleted or expires. -/
theorem StopInv.unkey (h : StopInv s) : StopInv { s with inflight := none } :=
  { h with
    key := fun n hn => (by cases hn)
    keyRows := fun n m hn => (by cases hn) }

/-- What a request got does not depend on where it stands. -/
theorem Answered.goto (h : Answered s q) (pc : StopPc) : Answered s (q.goto pc) := h

/-- A request that publishes nothing moves on. -/
theorem StopInv.move (h : StopInv s) (hk : s.requests[k]? = some q)
    (hnew : ∀ n, q'.pc ≠ .publishing n) (hans : Answered s q')
    (hkeep : ∀ n, s.inflight = some n → q.pc.holdsUnpublished n = true →
      q'.pc.holdsUnpublished n = true ∨ ∃ m, (n, m) ∈ s.published) : StopInv (s.put k q') := by
  refine { h with key := ?_, publishing := ?_, publisher := ?_, answered := ?_ }
  · intro n hn
    rcases h.key n hn with ⟨j, p, hp, hhold⟩ | hpub
    · by_cases hj : j = k
      · subst hj
        obtain rfl : q = p := by simpa [hk] using hp
        refine (hkeep n hn hhold).imp_left fun hhold' => ⟨j, q', ?_, hhold'⟩
        exact List.getElem?_set_self (List.getElem?_eq_some_iff.mp hk).1
      · refine Or.inl ⟨j, p, ?_, hhold⟩
        show (s.requests.set k q')[j]? = some p
        rw [List.getElem?_set_ne (Ne.symm hj), hp]
    · exact Or.inr hpub
  · intro j n p hp hpc
    rcases getElem?_set_cases hp with ⟨_, rfl⟩ | ⟨_, hp⟩
    · exact absurd hpc (hnew n)
    · exact h.publishing j n p hp hpc
  · intro j j' n p p' hp hp' hpc hpc'
    rcases getElem?_set_cases hp with ⟨_, rfl⟩ | ⟨_, hp⟩
    · exact absurd hpc (hnew n)
    · rcases getElem?_set_cases hp' with ⟨_, rfl⟩ | ⟨_, hp'⟩
      · exact absurd hpc' (hnew n)
      · exact h.publisher j j' n p p' hp hp' hpc hpc'
  · intro j p hp
    rcases getElem?_set_cases hp with ⟨_, rfl⟩ | ⟨_, hp⟩
    · exact hans
    · exact h.answered j p hp

/-- The key is set to a fresh nonce. -/
theorem StopInv.acquire {pc : StopPc} (h : StopInv s) (hk : s.requests[k]? = some q)
    (hpc : pc = .publishing s.nextNonce ∨ pc = .raised (some s.nextNonce)) :
    StopInv (s.acquire k (q.goto pc)) := by
  have hfresh : ∀ m, (s.nextNonce, m) ∉ s.published := fun m hm =>
    Nat.lt_irrefl _ (h.used _ m hm)
  have hlt : k < s.requests.length := (List.getElem?_eq_some_iff.mp hk).1
  have hnext : ∀ n, pc = .publishing n → n = s.nextNonce := by
    intro n hn
    rcases hpc with hpc | hpc <;> rw [hpc] at hn <;> cases hn
    rfl
  refine { h with key := ?_, keyRows := ?_, used := ?_, publishing := ?_, publisher := ?_,
                  answered := ?_ }
  · intro n hn
    obtain rfl := Option.some.inj hn
    refine Or.inl ⟨k, q.goto pc, List.getElem?_set_self hlt, ?_⟩
    rcases hpc with hpc | hpc <;> rw [hpc] <;> simp [StopPc.holdsUnpublished]
  · intro n m hn hm
    obtain rfl := Option.some.inj hn
    exact absurd hm (hfresh m)
  · intro n m hm
    exact Nat.lt_succ_of_lt (h.used n m hm)
  · intro j n p hp hpp
    rcases getElem?_set_cases hp with ⟨_, rfl⟩ | ⟨_, hp⟩
    · obtain rfl := hnext n hpp
      exact ⟨Nat.lt_succ_self _, hfresh⟩
    · obtain ⟨hold, hnot⟩ := h.publishing j n p hp hpp
      exact ⟨Nat.lt_succ_of_lt hold, hnot⟩
  · intro j j' n p p' hp hp' hpp hpp'
    -- the nonces of the others are older
    have hother : ∀ (i : ℕ) (o : StopRequest), s.requests[i]? = some o →
        o.pc ≠ .publishing s.nextNonce := fun i o ho hopc =>
      Nat.lt_irrefl _ (h.publishing i _ o ho hopc).1
    rcases getElem?_set_cases hp with ⟨hj, rfl⟩ | ⟨_, hp⟩ <;>
      rcases getElem?_set_cases hp' with ⟨hj', rfl⟩ | ⟨_, hp'⟩
    · rw [hj, hj']
    · rw [hnext n hpp] at hpp'
      exact absurd hpp' (hother j' p' hp')
    · rw [hnext n hpp'] at hpp
      exact absurd hpp (hother j p hp)
    · exact h.publisher j j' n p p' hp hp' hpp hpp'
  · intro j p hp
    rcases getElem?_set_cases hp with ⟨_, rfl⟩ | ⟨_, hp⟩
    · exact (h.answered k q hk).goto pc
    · exact h.answered j p hp

/-- The active row is the latest one. -/
theorem StopInv.activeId_eq (h : StopInv s) {i : ℕ} (hi : s.fleet.db.activeId = some i) :
    i + 1 = s.fleet.db.rows.length := by
  obtain ⟨r, hr, ha⟩ := Db.activeId_eq_some hi
  exact h.lastRow.active i r hr ha

/-- A command is published under the nonce its request holds. -/
theorem StopInv.append (h : StopInv s) (hk : s.requests[k]? = some q)
    (hpc : q.pc = .publishing n) (hnew : ∀ m, q'.pc ≠ .publishing m)
    (hans : Answered (s.append n k q') q') : StopInv (s.append n k q') := by
  have hfresh := (h.publishing k n q hk hpc).2
  have hmem : ∀ n' m, (n', m) ∈ s.published ++ [(n, s.fleet.db.rows.length)] →
      (n', m) ∈ s.published ∨ (n' = n ∧ m = s.fleet.db.rows.length) := by
    intro n' m hm
    simpa using hm
  have hold : ∀ {n' : ℕ}, (∃ m, (n', m) ∈ s.published) →
      ∃ m, (n', m) ∈ s.published ++ [(n, s.fleet.db.rows.length)] := by
    rintro n' ⟨m, hm⟩
    exact ⟨m, List.mem_append_left _ hm⟩
  refine { h with key := ?_, keyRows := ?_, used := ?_, publishing := ?_, publisher := ?_,
                  streamRows := ?_, ticketRows := ?_, reports := ?_, answered := ?_ }
  · intro n' hn'
    rcases h.key n' hn' with ⟨j, p, hp, hhold⟩ | hpub
    · by_cases hj : j = k
      · subst hj
        obtain rfl : q = p := by simpa [hk] using hp
        rw [hpc] at hhold
        obtain rfl : n = n' := by simpa [StopPc.holdsUnpublished] using hhold
        exact Or.inr ⟨_, List.mem_append_right _ (List.mem_singleton.mpr rfl)⟩
      · refine Or.inl ⟨j, p, ?_, hhold⟩
        show (s.requests.set k q')[j]? = some p
        rw [List.getElem?_set_ne (Ne.symm hj), hp]
    · exact Or.inr (hold hpub)
  · intro n' m hn' hm
    rcases hmem n' m hm with hm | ⟨_, rfl⟩
    · exact h.keyRows n' m hn' hm
    · rfl
  · intro n' m hm
    rcases hmem n' m hm with hm | ⟨rfl, _⟩
    · exact h.used n' m hm
    · exact (h.publishing k n' q hk hpc).1
  · intro j n' p hp hpp
    rcases getElem?_set_cases hp with ⟨_, rfl⟩ | ⟨hj, hold'⟩
    · exact absurd hpp (hnew n')
    · obtain ⟨hlt, hnot⟩ := h.publishing j n' p hold' hpp
      refine ⟨hlt, fun m hm => ?_⟩
      rcases hmem n' m hm with hm | ⟨rfl, _⟩
      · exact hnot m hm
      · exact hj (h.publisher j k n' p q hold' hk hpp hpc)
  · intro j j' n' p p' hp hp' hpp hpp'
    rcases getElem?_set_cases hp with ⟨_, rfl⟩ | ⟨_, hp⟩
    · exact absurd hpp (hnew n')
    · rcases getElem?_set_cases hp' with ⟨_, rfl⟩ | ⟨_, hp'⟩
      · exact absurd hpp' (hnew n')
      · exact h.publisher j j' n' p p' hp hp' hpp hpp'
  · intro n' hn'
    rcases List.mem_append.mp hn' with hn' | hn'
    · obtain ⟨hpub, hrows⟩ := h.streamRows n' hn'
      exact ⟨hold hpub, fun m hm => (hmem n' m hm).elim (hrows m) fun he => he.2⟩
    · obtain rfl := List.mem_singleton.mp hn'
      refine ⟨⟨_, List.mem_append_right _ (List.mem_singleton.mpr rfl)⟩, fun m hm => ?_⟩
      exact (hmem n' m hm).elim (fun hm => absurd hm (hfresh m)) fun he => he.2
  · intro n' hn'
    obtain ⟨hpub, hrows⟩ := h.ticketRows n' hn'
    exact ⟨hold hpub, fun m hm => (hmem n' m hm).elim (hrows m) fun he => he.2⟩
  · intro n' pid hr
    obtain ⟨⟨m₀, hm₀⟩, hrows⟩ := h.reports n' pid hr
    refine ⟨hold ⟨m₀, hm₀⟩, fun m hm => ?_⟩
    rcases hmem n' m hm with hm | ⟨rfl, _⟩
    · exact hrows m hm
    · -- a nonce that has a report was published before
      exact absurd hm₀ (hfresh m₀)
  · intro j p hp
    rcases getElem?_set_cases hp with ⟨_, rfl⟩ | ⟨_, hp⟩
    · exact hans
    · intro n' row hr
      obtain ⟨m, hm, hrow⟩ := h.answered j p hp n' row hr
      exact ⟨m, List.mem_append_left _ hm, hrow⟩

/-- The fleet moves: nobody new is at an old row, and a row is added only when no stop is
    under way. -/
theorem StopInv.ofFleet {f : Fleet} (h : StopInv s) (hlast : LastRow f)
    (hlen : f.db.rows.length = s.fleet.db.rows.length ∨ s.stopsOver = true)
    (hch : ∀ (pid : ℕ) (c : Child), s.fleet.children[pid]? = some c →
      ∃ c', f.children[pid]? = some c' ∧ c'.rowId = c.rowId) :
    StopInv { s with fleet := f } := by
  have hrows : ∀ {n m : ℕ}, (n, m) ∈ s.published →
      (s.inflight = some n ∨ n ∈ s.stream ∨ n ∈ s.tickets) → m = s.fleet.db.rows.length →
        m = f.db.rows.length := by
    intro n m hm hwhere heq
    rcases hlen with hlen | hover
    · rw [hlen, heq]
    · simp only [StopSite.stopsOver, Bool.and_eq_true, List.isEmpty_iff] at hover
      obtain ⟨⟨hkey, hstream⟩, htickets⟩ := hover
      rcases hwhere with hn | hn | hn
      · rw [hn] at hkey
        simp only [Option.all_some, List.all_eq_true] at hkey
        simpa using hkey _ hm
      · rw [hstream] at hn
        cases hn
      · rw [htickets] at hn
        cases hn
  refine { h with lastRow := hlast, keyRows := ?_, streamRows := ?_, ticketRows := ?_,
                  reports := ?_, answered := ?_ }
  · intro n m hn hm
    exact hrows hm (Or.inl hn) (h.keyRows n m hn hm)
  · intro n hn
    obtain ⟨hpub, heq⟩ := h.streamRows n hn
    exact ⟨hpub, fun m hm => hrows hm (Or.inr (Or.inl hn)) (heq m hm)⟩
  · intro n hn
    obtain ⟨hpub, heq⟩ := h.ticketRows n hn
    exact ⟨hpub, fun m hm => hrows hm (Or.inr (Or.inr hn)) (heq m hm)⟩
  · intro n pid hr
    obtain ⟨hpub, hby⟩ := h.reports n pid hr
    refine ⟨hpub, fun m hm => ?_⟩
    obtain ⟨c, hc, hrow⟩ := hby m hm
    obtain ⟨c', hc', hrow'⟩ := hch pid c hc
    exact ⟨c', hc', by rw [hrow', hrow]⟩
  · intro k q hq n row hret
    obtain ⟨m, hm, hrow⟩ := h.answered k q hq n row hret
    refine ⟨m, hm, fun i hi => ⟨(hrow i hi).1, fun pid hpid => ?_⟩⟩
    obtain ⟨c, hc, hci⟩ := (hrow i hi).2 pid hpid
    obtain ⟨c', hc', hrow'⟩ := hch pid c hc
    exact ⟨c', hc', by rw [hrow', hci]⟩

end Parts

/-! ### The steps -/

section Step

variable {host : String} {policy : Option RestartPolicy} {s t : StopSite} {a : StopLabel}

/-- A table whose rows are as active as before keeps everybody at the latest row. -/
theorem lastRow_of_db {f : Fleet} {db : Db} (h : LastRow f)
    (hlen : db.rows.length = f.db.rows.length)
    (hact : ∀ (i : ℕ) (r' : NodeRow), db.rows[i]? = some r' → r'.isActive = true →
      ∃ r, f.db.rows[i]? = some r ∧ r.isActive = true) : LastRow { f with db := db } := by
  refine ⟨?_, ?_, ?_⟩ <;> rw [hlen]
  · exact h.child
  · exact h.spawn
  · intro i r' hr' ha'
    obtain ⟨r, hr, ha⟩ := hact i r' hr' ha'
    exact h.active i r hr ha

/-- The intent stamp changes no status. -/
theorem apiStampActive_isActive {db db' : Db} {i j now : ℕ} {r' : NodeRow}
    (hw : db.write i (.apiStampActive now) = some db') (hr' : db'.rows[j]? = some r')
    (ha' : r'.isActive = true) : ∃ r, db.rows[j]? = some r ∧ r.isActive = true := by
  rcases Db.write_isActive hw hr' ha' with hold | ⟨_, hug⟩
  · exact hold
  · cases hug

/-- A request enters. -/
theorem StopInv.enter {kind : StopKind} {db : Db} (h : StopInv s)
    (hlen : db.rows.length = s.fleet.db.rows.length)
    (hact : ∀ (i : ℕ) (r' : NodeRow), db.rows[i]? = some r' → r'.isActive = true →
      ∃ r, s.fleet.db.rows[i]? = some r ∧ r.isActive = true) : StopInv (s.enter kind db) := by
  have h' := h.ofFleet (lastRow_of_db h.lastRow hlen hact) (Or.inl hlen)
    fun pid c hc => ⟨c, hc, rfl⟩
  refine { h' with key := ?_, publishing := ?_, publisher := ?_, answered := ?_ }
  · intro n hn
    rcases h.key n hn with ⟨k, q, hk, hhold⟩ | hpub
    · refine Or.inl ⟨k, q, ?_, hhold⟩
      show (s.requests ++ [_])[k]? = some q
      rw [List.getElem?_append_left (List.getElem?_eq_some_iff.mp hk).1, hk]
    · exact Or.inr hpub
  · intro k n q hk hpc
    rcases getElem?_concat_cases hk with ⟨_, rfl⟩ | hk
    · cases hpc
    · exact h.publishing k n q hk hpc
  · intro k k' n q q' hk hk' hpc hpc'
    rcases getElem?_concat_cases hk with ⟨_, rfl⟩ | hk
    · cases hpc
    · rcases getElem?_concat_cases hk' with ⟨_, rfl⟩ | hk'
      · cases hpc'
      · exact h.publisher k k' n q q' hk hk' hpc hpc'
  · intro k q hk
    rcases getElem?_concat_cases hk with ⟨_, rfl⟩ | hk
    · intro n row hret
      cases hret
    · exact h'.answered k q hk

/-- A request that holds no unpublished nonce moves on without publishing. -/
theorem StopInv.pass {k : ℕ} {q : StopRequest} {pc : StopPc} (h : StopInv s)
    (hk : s.requests[k]? = some q) (hold : ∀ n, q.pc.holdsUnpublished n = false)
    (hne : ∀ n, pc ≠ .publishing n) : StopInv (s.put k (q.goto pc)) := by
  refine h.move hk hne ((h.answered k q hk).goto pc) fun n _ hhold => ?_
  rw [hold n] at hhold
  cases hhold

theorem StopInv.request {kind : StopKind} {now : ℕ} (h : StopInv s)
    (hs : stopSiteStep host policy s (.request kind now) = some t) : StopInv t := by
  cases kind with
  | stop =>
    obtain ⟨i, _, hs⟩ := Option.bind_eq_some_iff.mp hs
    obtain ⟨db, hw, rfl⟩ := Option.map_eq_some_iff.mp hs
    exact h.enter (Db.write_length hw) fun j r' hr' ha' => apiStampActive_isActive hw hr' ha'
  | killAll | drain =>
    simp only [stopSiteStep] at hs
    split at hs
    · obtain rfl := Option.some.inj hs
      exact h.enter rfl fun j r' hr' ha' => ⟨r', hr', ha'⟩
    · cases hs

theorem StopInv.setNx {k : ℕ} {reply : Reply} (h : StopInv s)
    (hs : stopSiteStep host policy s (.setNx k reply) = some t) : StopInv t := by
  obtain ⟨q, hk, hs⟩ := Option.bind_eq_some_iff.mp hs
  split at hs
  · rename_i hpc
    have hold : ∀ n, q.pc.holdsUnpublished n = false := fun n => by rw [hpc]; rfl
    split at hs <;> obtain rfl := Option.some.inj hs
    · exact h.pass hk hold fun n he => by cases he
    · exact h.acquire hk (Or.inl rfl)
    · exact h.acquire hk (Or.inr rfl)
    · exact h.pass hk hold fun n he => by cases he
  · cases hs

theorem StopInv.publish {k : ℕ} {reply : Reply} (h : StopInv s)
    (hs : stopSiteStep host policy s (.publish k reply) = some t) : StopInv t := by
  obtain ⟨q, hk, hs⟩ := Option.bind_eq_some_iff.mp hs
  cases hpc : q.pc with
  | publishing n =>
    rw [hpc] at hs
    cases reply with
    | ok =>
      obtain rfl := Option.some.inj hs
      refine h.append hk hpc (fun m he => by cases he) ?_
      intro n' row hret
      obtain ⟨rfl, rfl⟩ := Prod.mk.inj (Option.some.inj hret)
      refine ⟨_, List.mem_append_right _ (List.mem_singleton.mpr rfl), fun i hi => ?_⟩
      exact ⟨h.activeId_eq hi, fun pid hpid => by cases hpid⟩
    | lost =>
      obtain rfl := Option.some.inj hs
      refine h.append hk hpc (fun m he => by cases he) ?_
      intro n' row hret
      obtain ⟨m, hm, hrow⟩ := h.answered k q hk n' row hret
      exact ⟨m, List.mem_append_left _ hm, hrow⟩
    | refused =>
      obtain rfl := Option.some.inj hs
      refine h.move hk (fun m he => by cases he) ((h.answered k q hk).goto _) fun n' _ hhold => ?_
      rw [hpc] at hhold
      exact Or.inl (by simpa [StopPc.holdsUnpublished] using hhold)
  | _ =>
    rw [hpc] at hs
    cases hs

theorem StopInv.clear {k : ℕ} {ok : Bool} (h : StopInv s)
    (hs : stopSiteStep host policy s (.clear k ok) = some t) : StopInv t := by
  obtain ⟨q, hk, hs⟩ := Option.bind_eq_some_iff.mp hs
  split at hs
  · rename_i n added hpc
    split at hs <;> obtain rfl := Option.some.inj hs
    · -- whoever is in the key by now is thrown out
      refine h.unkey.move hk (fun m he => by cases he) ((h.answered k q hk).goto _)
        fun n' hn' => by cases hn'
    · refine h.move hk (fun m he => by cases he) ((h.answered k q hk).goto _) fun n' _ hhold => ?_
      rw [hpc] at hhold
      simp only [StopPc.holdsUnpublished, Bool.and_eq_true, beq_iff_eq, Bool.not_eq_true'] at hhold
      obtain ⟨rfl, rfl⟩ := hhold
      exact Or.inl (by simp [StopPc.holdsUnpublished])
  · cases hs

/-- A request takes over the nonce in the key, which is published by the condition. -/
theorem StopInv.get {k : ℕ} {ok : Bool} (h : StopInv s) (hC : Settled s (.get k ok))
    (hs : stopSiteStep host policy s (.get k ok) = some t) : StopInv t := by
  obtain ⟨q, hk, hs⟩ := Option.bind_eq_some_iff.mp hs
  split at hs
  · rename_i hpc
    have hold : ∀ n, q.pc.holdsUnpublished n = false := fun n => by rw [hpc]; rfl
    split at hs
    · cases hn : s.inflight with
      | none =>
        rw [hn] at hs
        obtain rfl := Option.some.inj hs
        exact h.pass hk hold fun n he => by cases he
      | some n =>
        rw [hn] at hs
        obtain rfl := Option.some.inj hs
        refine h.move hk (fun m he => by cases he) ?_ fun n' _ hhold => ?_
        · intro n' row hret
          obtain ⟨rfl, rfl⟩ := Prod.mk.inj (Option.some.inj hret)
          rcases h.key n hn with ⟨j, p, hp, hhold⟩ | ⟨m, hm⟩
          · have hno : s.keyPublished = true := hC
            rw [StopSite.keyPublished, hn, Option.all_some, List.all_eq_true] at hno
            have hpub := hno p (List.mem_of_getElem? hp)
            rw [hhold] at hpub
            cases hpub
          · refine ⟨m, hm, fun i hi => ⟨?_, fun pid hpid => by cases hpid⟩⟩
            rw [h.keyRows n m hn hm]
            exact h.activeId_eq hi
        · rw [hold n'] at hhold
          cases hhold
    · obtain rfl := Option.some.inj hs
      exact h.pass hk hold fun n he => by cases he
  · cases hs

/-- A request reads the report of its nonce. -/
theorem StopInv.pollReport {k : ℕ} (h : StopInv s)
    (hs : stopSiteStep host policy s (.pollReport k) = some t) : StopInv t := by
  obtain ⟨q, hk, hs⟩ := Option.bind_eq_some_iff.mp hs
  obtain ⟨⟨n₀, row₀⟩, hret₀, hs⟩ := Option.bind_eq_some_iff.mp hs
  split at hs
  · rename_i hpc
    obtain rfl := Option.some.inj hs
    refine h.move hk (fun m he => ?_) ?_ fun n _ hhold => ?_
    · have hno := q.afterPoll_holdsUnpublished
        ((s.reports.find? fun p => p.1 == n₀).map (·.2)) m
      rw [he] at hno
      simp [StopPc.holdsUnpublished] at hno
    · intro n row hret
      obtain ⟨m, hm, hrow⟩ := h.answered k q hk n row hret
      refine ⟨m, hm, fun i hi => ⟨(hrow i hi).1, fun pid hpid => ?_⟩⟩
      obtain ⟨rfl, rfl⟩ : n₀ = n ∧ row₀ = row := by
        have heq : some (n₀, row₀) = some (n, row) := hret₀.symm.trans hret
        exact Prod.mk.inj (Option.some.inj heq)
      -- the report in the key was written under the rows of the publish
      obtain ⟨⟨n', pid'⟩, hfind, rfl⟩ := Option.map_eq_some_iff.mp hpid
      obtain rfl : n' = n₀ := by simpa using List.find?_some hfind
      obtain ⟨c, hc, hci⟩ := (h.reports n' pid' (List.mem_of_find?_eq_some hfind)).2 m hm
      have him := (hrow i hi).1
      exact ⟨c, hc, by omega⟩
    · rw [hpc] at hhold
      cases hhold
  · cases hs

theorem StopInv.pollRow {k now : ℕ} (h : StopInv s)
    (hs : stopSiteStep host policy s (.pollRow k now) = some t) : StopInv t := by
  obtain ⟨q, hk, hs⟩ := Option.bind_eq_some_iff.mp hs
  split at hs
  · rename_i hpc
    have hold : ∀ n, q.pc.holdsUnpublished n = false := fun n => by rw [hpc]; rfl
    split at hs <;> obtain rfl := Option.some.inj hs
    · -- the status write leaves the node rows alone
      have hmove : StopInv (s.put k (q.goto .deleting)) := h.pass hk hold fun n he => by cases he
      have hrows : LastRow
          { s.fleet with db := s.fleet.db.setDep (stoppedDep s.fleet.db.dep now) } :=
        lastRow_of_db h.lastRow rfl fun i r hr ha => ⟨r, hr, ha⟩
      exact hmove.ofFleet hrows (Or.inl rfl) fun pid c hc => ⟨c, hc, rfl⟩
    · exact h.pass hk hold fun n he => by cases he
  · cases hs

theorem StopInv.delete {k : ℕ} {ok : Bool} (h : StopInv s)
    (hs : stopSiteStep host policy s (.delete k ok) = some t) : StopInv t := by
  obtain ⟨q, hk, hs⟩ := Option.bind_eq_some_iff.mp hs
  split at hs
  · rename_i hpc
    have hold : ∀ n, q.pc.holdsUnpublished n = false := fun n => by rw [hpc]; rfl
    split at hs <;> obtain rfl := Option.some.inj hs
    · exact h.unkey.pass hk hold fun n he => by cases he
    · exact h.pass hk hold fun n he => by cases he
  · cases hs

theorem StopInv.fail {k : ℕ} (h : StopInv s)
    (hs : stopSiteStep host policy s (.fail k) = some t) : StopInv t := by
  obtain ⟨q, hk, hs⟩ := Option.bind_eq_some_iff.mp hs
  split at hs
  · rename_i hpc
    obtain rfl := Option.some.inj hs
    refine h.pass hk (fun n => ?_) fun n he => by cases he
    rcases hpc with hpc | hpc <;> rw [hpc] <;> rfl
  · cases hs

/-- The supervisor pushes the ticket of a command that waits on the stream. -/
theorem StopInv.consume {n : ℕ} (h : StopInv s)
    (hs : stopSiteStep host policy s (.consume n) = some t) : StopInv t := by
  simp only [stopSiteStep] at hs
  split at hs
  · rename_i hn
    obtain rfl := Option.some.inj hs
    refine { h with ticketRows := ?_ }
    intro n' hn'
    rcases List.mem_append.mp (List.mem_of_mem_drop hn') with hn' | hn'
    · exact h.ticketRows n' hn'
    · obtain rfl := List.mem_singleton.mp hn'
      exact h.streamRows n' hn
  · cases hs

/-- A live child answers a ticket: it is on the latest row, and no row was added since the
    command was published. -/
theorem StopInv.drain {pid : ℕ} {wrote : Bool} (h : StopInv s)
    (hs : stopSiteStep host policy s (.drain pid wrote) = some t) : StopInv t := by
  obtain ⟨c, hc, hs⟩ := Option.bind_eq_some_iff.mp hs
  split at hs
  · cases hs
  · rename_i n rest htickets
    split at hs
    · rename_i halive
      obtain rfl := Option.some.inj hs
      have hmem : ∀ n' ∈ rest, n' ∈ s.tickets := by
        intro n' hn'
        rw [htickets]
        exact List.mem_cons_of_mem _ hn'
      refine { h with ticketRows := fun n' hn' => h.ticketRows n' (hmem n' hn'), reports := ?_ }
      intro n' pid' hr
      by_cases hw : wrote = true
      · simp only [hw, if_true, List.mem_cons, Prod.mk.injEq] at hr
        rcases hr with ⟨rfl, rfl⟩ | hr
        · obtain ⟨hpub, hrows⟩ := h.ticketRows n' (by rw [htickets]; exact List.mem_cons_self)
          refine ⟨hpub, fun m hm => ⟨c, hc, ?_⟩⟩
          rw [hrows m hm]
          exact h.lastRow.child pid' c hc halive.1
        · exact h.reports n' pid' hr
      · simp only [hw] at hr
        exact h.reports n' pid' hr
    · cases hs

/-- The fleet moves. -/
theorem StopInv.fleet {b : FleetLabel} (h : StopInv s) (hC : Settled s (.fleet b))
    (hs : stopSiteStep host policy s (.fleet b) = some t) : StopInv t := by
  obtain ⟨f, hstep, rfl⟩ := Option.map_eq_some_iff.mp hs
  have hvac : ReservesVacant s.fleet b := by
    cases b with
    | reserve req other => exact fun hgate => (hC hgate).2
    | _ => trivial
  refine h.ofFleet (h.lastRow.step hvac hstep) ?_ fun pid c hc => fleetStep_child_row hstep hc
  by_cases hres : ∃ req other, b = .reserve req other
  · obtain ⟨req, other, rfl⟩ := hres
    rcases fleetStep_reserve hstep with rfl | ⟨hgate, _⟩
    · exact Or.inl rfl
    · exact Or.inr (hC hgate).1
  · exact Or.inl (fleetStep_length hstep fun req other he => hres ⟨req, other, he⟩)

/-- **The step lemma.** -/
theorem StopInv.step (h : StopInv s) (hC : Settled s a)
    (hs : stopSiteStep host policy s a = some t) : StopInv t := by
  cases a with
  | request kind now => exact h.request hs
  | setNx k reply => exact h.setNx hs
  | publish k reply => exact h.publish hs
  | clear k ok => exact h.clear hs
  | get k ok => exact h.get hC hs
  | pollReport k => exact h.pollReport hs
  | pollRow k now => exact h.pollRow hs
  | delete k ok => exact h.delete hs
  | fail k => exact h.fail hs
  | consume n => exact h.consume hs
  | drain pid wrote => exact h.drain hs
  | fleet b => exact h.fleet hC hs
  | expire =>
    obtain rfl := Option.some.inj hs
    exact h.unkey
  | ack n =>
    obtain rfl := Option.some.inj hs
    exact { h with streamRows := fun n' hn' => h.streamRows n' (List.mem_filter.mp hn').1 }
  | expireTickets =>
    obtain rfl := Option.some.inj hs
    exact { h with ticketRows := fun n' hn' => by cases hn' }
  | expireReport n =>
    obtain rfl := Option.some.inj hs
    exact { h with reports := fun n' pid hr => h.reports n' pid (List.mem_filter.mp hr).1 }

/-- **An accepted stop reaches the node.**  In every run in which a request takes over a
    nonce only from a request that has published it, and rows are reserved only when the
    stops before them are over and nobody is left on the deployment, every nonce a request
    got was published, after the row that was active then; and the report it reads is by the
    child of that row. -/
theorem accepted_stop_reaches_node {dep : Deployment} {as : List StopLabel}
    (h : Path (stopSystem host policy) Settled (StopSite.initial dep) as t) :
    StopsReachNode t := by
  have hinv : StopInv t := h.invariant (fun _ _ _ hi hC hs => hi.step hC hs) (stopInv_initial dep)
  intro k n q row hk hret
  obtain ⟨m, hm, hrow⟩ := hinv.answered k q hk n row hret
  refine ⟨m, hm, fun i hi => ⟨?_, (hrow i hi).2⟩⟩
  have him := (hrow i hi).1
  omega

end Step

/-! ### Two stops of a running node -/

/-- A node comes up. -/
def nodeUp : List StopLabel :=
  .fleet (.reserve (startRequest 1) .none) :: ((launch 0 0).map .fleet).append
    [.fleet (.child 0 (.selfWritePid 2)), .fleet (.child 0 (.markReady 3)),
      .fleet (.child 0 (.markRunning 4))]

/-- A second `/stop` finds the key of the first, whose publish then fails. -/
def swallowedStop : List StopLabel :=
  nodeUp.append
    [.request .stop 10, .setNx 0 .ok, .request .stop 11, .setNx 1 .ok, .get 1 true,
      .publish 0 .refused, .clear 0 true]

/-- **The slip.**  The second stop is accepted under a nonce that was never published. -/
theorem accepted_stop_fails :
    ¬∀ (as : List StopLabel) (t : StopSite),
      Path (stopSystem "h" none) anyStep (StopSite.initial queuedDb.dep) as t →
        StopsReachNode t := by
  intro h
  obtain ⟨t, hrun, q, hq, hret, hpub⟩ :
      ∃ t, (stopSystem "h" none).run (StopSite.initial queuedDb.dep) swallowedStop = some t ∧
        ∃ q, t.requests[1]? = some q ∧ q.returned = some (0, some 0) ∧ t.published = [] :=
    ⟨_, rfl, _, rfl, rfl, rfl⟩
  obtain ⟨m, hm, _⟩ := h swallowedStop t (.of_run hrun) 1 0 q (some 0) hq hret
  rw [hpub] at hm
  cases hm

/-- Two stops share one command; the node reports, ends and is started again. -/
def sharedStop : List StopLabel :=
  nodeUp.append
    [.request .stop 10, .setNx 0 .ok, .request .drain 11, .publish 0 .ok, .setNx 1 .ok,
      .get 1 true, .consume 0, .fleet (.stop 12), .fleet .stopSignal, .ack 0, .drain 0 true,
      .fleet (.child 0 (.markTerminal ⟨true, .none, none, 0⟩ 13)),
      .fleet (.childExit 0 (some 0)), .fleet (.reap 14), .pollReport 0, .pollReport 1,
      .pollRow 0 15, .delete 0 true, .fleet (.apiStart 20),
      .fleet (.reserve (startRequest 21) .none)]

/-- Both have read the report of the node they stopped. -/
theorem accepted_stop_shared :
    ∃ t q q', Path (stopSystem "h" none) Settled (StopSite.initial queuedDb.dep) sharedStop t ∧
      t.requests[0]? = some q ∧ t.requests[1]? = some q' ∧ t.fleet.db.rows.length = 2 ∧
      (∃ c, t.fleet.children[0]? = some c ∧ c.rowId = 0 ∧ q.report = some 0 ∧
        q'.report = some 0) := by
  obtain ⟨t, hrun, q, hq, q', hq', hlen, hret, hret', hrep, hrep'⟩ :
      ∃ t, (stopSystem "h" none).runWhere Settled (StopSite.initial queuedDb.dep) sharedStop
          = some t ∧
        ∃ q, t.requests[0]? = some q ∧ ∃ q', t.requests[1]? = some q' ∧
          t.fleet.db.rows.length = 2 ∧ q.returned = some (0, some 0) ∧
          q'.returned = some (0, some 0) ∧ q.report = some 0 ∧ q'.report = some 0 :=
    ⟨_, rfl, _, rfl, _, rfl, rfl, rfl, rfl, rfl, rfl⟩
  have hpath := Path.of_runWhere hrun
  obtain ⟨m, _, hrow⟩ := accepted_stop_reaches_node hpath 1 0 q' (some 0) hq' hret'
  obtain ⟨c, hc, hci⟩ := (hrow 0 rfl).2 0 hrep'
  exact ⟨t, q, q', hpath, hq, hq', hlen, c, hc, hci, hrep, hrep'⟩

end Msai.Api
