import Msai.Lib.Transition

namespace Msai.Live.OrderAudit

open Lib Lib.TransitionSystem

/-!
# The audit row of an order (`services/nautilus/audit_hook.py`)

The trading node publishes the events of an order in their order, and
`_on_order_event_sync` (`trading_node_subprocess.py`) creates a task of its own for each of them.
The tasks write to one row of `order_attempt_audits`, each in its own session.

* `auditCommand` — the next transaction of a task;
* `auditSystem` — one order: its events, their tasks, and any order of the transactions;
* `Settles`, `Overwrites` — the commits that write the terminal event's status, or another one, by
  the events of the order, the trade ids known before and the commits so far;
* `CommitsLast` — the condition on the order of the commits;
* `AuditInv` — the invariant: what the commits so far have made of the row and of the tasks;
* `status_terminal_iff` — the theorem over every run;
* `status_unhandled` — the events that no branch handles.
-/

/-! ### Events -/

/-- The values of `order_attempt_audits.status`. -/
inductive OrderStatus
  | submitted
  | accepted
  | filled
  | partiallyFilled
  | cancelled
  | rejected
  | denied
deriving DecidableEq, Repr

/-- The Nautilus events of one order.  A partial fill is an `OrderFilled` too. -/
inductive OrderEvent
  | submitted
  | accepted (venueOrderId : Option String)
  | filled (tradeId : String)
  | canceled
  | rejected (reason : Option String)
  | denied (reason : Option String)
  | expired
deriving DecidableEq, Repr

def OrderEvent.isTerminal : OrderEvent → Bool
  | .filled _ | .canceled | .rejected _ | .denied _ | .expired => true
  | .submitted | .accepted _ => false

/-- What the row says when the event was the last one.  `cancelled` is also that of an order that
    the broker has let expire. -/
def OrderEvent.status : OrderEvent → OrderStatus
  | .submitted => .submitted
  | .accepted _ => .accepted
  | .filled _ => .filled
  | .canceled | .expired => .cancelled
  | .rejected _ => .rejected
  | .denied _ => .denied

/-- The life of an order: the trade ids of its partial fills, and how it ends. -/
structure Lifecycle where
  accepted : Option (Option String)
  partialFills : List String
  terminal : OrderEvent
  isTerminal : terminal.isTerminal = true
deriving DecidableEq

def Lifecycle.events (l : Lifecycle) : List OrderEvent :=
  .submitted :: l.accepted.toList.map .accepted ++ l.partialFills.map .filled ++ [l.terminal]

/-! ### The tasks -/

/-- The row, with the columns that the UPDATEs set. -/
structure AuditRow where
  status : OrderStatus
  brokerOrderId : Option String
  reason : Option String
deriving DecidableEq, Repr

/-- The row of the order, and the broker trade ids in `trades` of its deployment. -/
structure AuditDb where
  row : Option AuditRow
  trades : List String
deriving DecidableEq, Repr

/-- `write_submitted`. -/
def AuditDb.writeSubmitted (db : AuditDb) : AuditDb :=
  { db with row := db.row.or (some ⟨.submitted, none, none⟩) }

/-- `_update_status`: a column that is `none` is left alone, and so is a row that is missing. -/
def AuditDb.updateStatus (db : AuditDb) (status : OrderStatus)
    (brokerOrderId reason : Option String) : AuditDb :=
  { db with
    row := db.row.map fun row =>
      { status := status
        brokerOrderId := brokerOrderId.or row.brokerOrderId
        reason := reason.or row.reason } }

/-- Where the task of an event stands. -/
inductive AuditTask
  | created (event : OrderEvent)
  /-- `write_trade_fill` has inserted the trade; `update_filled` comes next. -/
  | tradePersisted
  | ended
deriving DecidableEq, Repr

/-- The next transaction of a task. -/
def auditCommand (db : AuditDb) : AuditTask → Option (AuditDb × AuditTask)
  | .created .submitted => some (db.writeSubmitted, .ended)
  | .created (.filled tradeId) =>
    -- `write_trade_fill` drops a fill that is stored already
    if tradeId ∈ db.trades then some (db, .ended)
    else some ({ db with trades := tradeId :: db.trades }, .tradePersisted)
  | .created (.accepted venueOrderId) => some (db.updateStatus .accepted venueOrderId none, .ended)
  | .created .canceled => some (db.updateStatus .cancelled none none, .ended)
  | .created (.rejected reason) => some (db.updateStatus .rejected none reason, .ended)
  -- the handler has no branch for these two
  | .created (.denied _) => some (db, .ended)
  | .created .expired => some (db, .ended)
  | .tradePersisted => some (db.updateStatus .filled none none, .ended)
  | .ended => none

/-- One order: the database, the events that are still to come, and the tasks of the others. -/
structure OrderSite where
  db : AuditDb
  pending : List OrderEvent
  tasks : List AuditTask
deriving DecidableEq, Repr

/-- `trades` has the fills of the deployment that are known already. -/
def OrderSite.initial (l : Lifecycle) (trades : List String) : OrderSite where
  db := { row := none, trades := trades }
  pending := l.events
  tasks := []

inductive AuditLabel
  /-- The next event is published, and its task created. -/
  | publish
  /-- The next transaction of task `k`. -/
  | command (k : ℕ)
deriving DecidableEq, Repr

def auditStep (s : OrderSite) : AuditLabel → Option OrderSite
  | .publish =>
    match s.pending with
    | event :: pending => some { s with pending := pending, tasks := s.tasks ++ [.created event] }
    | [] => none
  | .command k =>
    (s.tasks[k]?).bind fun task =>
      (auditCommand s.db task).map fun p =>
        { s with db := p.1, tasks := s.tasks.set k p.2 }

/-- The events of one order and their tasks. -/
def auditSystem : TransitionSystem OrderSite AuditLabel := ⟨auditStep⟩

/-- Every event was published and every task has finished. -/
def OrderSite.Finished (s : OrderSite) : Prop := s.pending = [] ∧ ∀ task ∈ s.tasks, task = .ended

instance (s : OrderSite) : Decidable s.Finished :=
  inferInstanceAs (Decidable (s.pending = [] ∧ ∀ task ∈ s.tasks, task = .ended))

/-! ### The commits -/

/-- The tasks in the order of their commits.  That of the event at `k` is task `k`. -/
def commits : List AuditLabel → List ℕ
  | [] => []
  | .publish :: as => commits as
  | .command k :: as => k :: commits as

/-- Behind the commits `before`, task `k` is that of a fill whose trade it has stored itself: the
    trade id was not known, and no task of a fill with the same id has committed before its own
    first commit. -/
def FillStored (l : Lifecycle) (trades : List String) (before : List ℕ) (k : ℕ) : Prop :=
  ∃ tradeId, l.events[k]? = some (.filled tradeId) ∧ k ∈ before ∧ tradeId ∉ trades ∧
    ∀ j ∈ before.takeWhile (· ≠ k), l.events[j]? ≠ some (.filled tradeId)

/-- A commit of task `k` behind `before` writes the status of the terminal event.  Where the order
    is filled that is also the commit of a partial fill; denied and expired orders have none. -/
def Settles (l : Lifecycle) (trades : List String) (before : List ℕ) (k : ℕ) : Prop :=
  match l.terminal with
  | .filled _ => FillStored l trades before k
  | .canceled | .rejected _ => k + 1 = l.events.length
  | _ => False

/-- A commit of task `k` behind `before` writes another status: the order was accepted, or filled
    in part and then not filled. -/
def Overwrites (l : Lifecycle) (trades : List String) (before : List ℕ) (k : ℕ) : Prop :=
  (∃ venueOrderId, l.events[k]? = some (.accepted venueOrderId)) ∨
    (FillStored l trades before k ∧ ∀ tradeId, l.terminal ≠ .filled tradeId)

/-- Behind the INSERT of task 0 there is a commit that writes the status of the terminal event, and
    none after it writes another one. -/
def CommitsLast (l : Lifecycle) (trades : List String) (order : List ℕ) : Prop :=
  ∃ before k after, order = before ++ k :: after ∧ 0 ∈ before ∧ Settles l trades before k ∧
    ∀ mid j rest, after = mid ++ j :: rest → ¬ Overwrites l trades (before ++ k :: mid) j

section Commits

variable {l : Lifecycle} {trades : List String} {order : List ℕ} {j k : ℕ} {event : OrderEvent}

/-- Commits behind the first one of a task come after what came before it. -/
theorem takeWhile_concat (h : k ∈ order) :
    (order ++ [j]).takeWhile (· ≠ k) = order.takeWhile (· ≠ k) := by
  induction order with
  | nil => exact absurd h List.not_mem_nil
  | cons i order ih =>
    rw [List.cons_append, List.takeWhile_cons, List.takeWhile_cons]
    split
    · rename_i hne
      have hmem : k ∈ order := (List.mem_cons.mp h).resolve_left fun heq => by simp [heq] at hne
      rw [ih hmem]
    · rfl

/-- Before the first commit of a task come all the others so far. -/
theorem takeWhile_concat_self (h : k ∉ order) : (order ++ [k]).takeWhile (· ≠ k) = order := by
  induction order with
  | nil => simp
  | cons i order ih =>
    rw [List.mem_cons, not_or] at h
    rw [List.cons_append, List.takeWhile_cons, if_pos (by simpa using Ne.symm h.1), ih h.2]

theorem FillStored.concat (h : FillStored l trades order k) :
    FillStored l trades (order ++ [j]) k := by
  obtain ⟨tradeId, hevent, hmem, hnew, hfirst⟩ := h
  refine ⟨tradeId, hevent, List.mem_append_left _ hmem, hnew, ?_⟩
  rwa [takeWhile_concat hmem]

theorem CommitsLast.inserted (h : CommitsLast l trades order) : 0 ∈ order := by
  obtain ⟨before, k, after, rfl, hinsert, -⟩ := h
  exact List.mem_append_left _ hinsert

/-- **One more commit.** -/
theorem commitsLast_concat :
    CommitsLast l trades (order ++ [k]) ↔
      (0 ∈ order ∧ Settles l trades order k) ∨
        (CommitsLast l trades order ∧ ¬ Overwrites l trades order k) := by
  constructor
  · rintro ⟨before, j, after, heq, hinsert, hsettles, hquiet⟩
    rcases List.eq_nil_or_concat after with rfl | ⟨mid, last, rfl⟩
    · -- it is the commit that settles
      obtain ⟨rfl, hlast⟩ := List.append_inj' heq rfl
      obtain rfl := List.head_eq_of_cons_eq hlast
      exact Or.inl ⟨hinsert, hsettles⟩
    · rw [List.concat_eq_append] at heq hquiet
      rw [← List.cons_append, ← List.append_assoc] at heq
      obtain ⟨rfl, hlast⟩ := List.append_inj' heq rfl
      obtain rfl := List.head_eq_of_cons_eq hlast
      refine Or.inr ⟨⟨before, j, mid, rfl, hinsert, hsettles, fun mid' i rest hmid => ?_⟩,
        hquiet mid k [] rfl⟩
      exact hquiet mid' i (rest ++ [k]) (by rw [hmid, List.append_assoc, List.cons_append])
  · rintro (⟨hinsert, hsettles⟩ | ⟨⟨before, j, after, rfl, hinsert, hsettles, hquiet⟩, hover⟩)
    · refine ⟨order, k, [], rfl, hinsert, hsettles, fun mid j rest hmid => ?_⟩
      simp at hmid
    · refine ⟨before, j, after ++ [k], by simp, hinsert, hsettles, fun mid i rest hmid => ?_⟩
      rcases List.eq_nil_or_concat rest with rfl | ⟨rest, last, rfl⟩
      · obtain ⟨rfl, hlast⟩ := List.append_inj' hmid rfl
        obtain rfl := List.head_eq_of_cons_eq hlast
        exact hover
      · rw [List.concat_eq_append, ← List.cons_append, ← List.append_assoc] at hmid
        exact hquiet mid i rest (List.append_inj' hmid rfl).1

/-- What is none of the first events is the last one. -/
theorem terminal_of_event (hk : l.events[k]? = some event) (hsubmitted : event ≠ .submitted)
    (haccepted : ∀ venueOrderId, event ≠ .accepted venueOrderId)
    (hfilled : ∀ tradeId, event ≠ .filled tradeId) :
    event = l.terminal ∧ k + 1 = l.events.length := by
  rcases getElem?_concat_cases (l := OrderEvent.submitted :: l.accepted.toList.map .accepted ++
    l.partialFills.map .filled) hk with ⟨hlast, hevent⟩ | hfront
  · have hlength : l.events.length = k + 1 := by
      rw [hlast]
      exact List.length_append
    exact ⟨hevent, hlength.symm⟩
  · rcases List.mem_append.mp (List.mem_of_getElem? hfront) with hmem | hmem
    · rcases List.mem_cons.mp hmem with rfl | hmem
      · exact absurd rfl hsubmitted
      · obtain ⟨venueOrderId, -, rfl⟩ := List.mem_map.mp hmem
        exact absurd rfl (haccepted venueOrderId)
    · obtain ⟨tradeId, -, rfl⟩ := List.mem_map.mp hmem
      exact absurd rfl (hfilled tradeId)

/-- The last event is the terminal one. -/
theorem event_of_last (hk : k + 1 = l.events.length) : l.events[k]? = some l.terminal := by
  have hlast : l.events.getLast? = some l.terminal := List.getLast?_concat
  rw [List.getLast?_eq_getElem?, ← hk, Nat.add_sub_cancel] at hlast
  exact hlast

/-- Where the terminal event is no fill, only its own task can settle. -/
theorem event_of_settles (h : Settles l trades order k) (hk : l.events[k]? = some event)
    (hfilled : ∀ tradeId, event ≠ .filled tradeId) : event = l.terminal := by
  have hlast : k + 1 = l.events.length → event = l.terminal := fun hlast =>
    Option.some.inj (hk.symm.trans (event_of_last hlast))
  unfold Settles at h
  split at h
  · -- a fill settles by the task of a fill
    obtain ⟨tradeId, hevent, -⟩ := h
    exact absurd (Option.some.inj (hk.symm.trans hevent)) (hfilled tradeId)
  · exact hlast h
  · exact hlast h
  · exact h.elim

end Commits

/-! ### Every order of the transactions -/

/-- Where the commits so far have brought task `k`. -/
def TaskAt (l : Lifecycle) (trades : List String) (order : List ℕ) (k : ℕ) : AuditTask → Prop
  | .created event => l.events[k]? = some event ∧ k ∉ order
  | .tradePersisted => FillStored l trades order k
  | .ended => k ∈ order

/-- What the commits so far have made of the database and of the tasks. -/
structure AuditInv (l : Lifecycle) (trades : List String) (order : List ℕ) (s : OrderSite) :
    Prop where
  pending : s.pending = l.events.drop s.tasks.length
  task : ∀ (k : ℕ) (task : AuditTask), s.tasks[k]? = some task → TaskAt l trades order k task
  ran : ∀ k ∈ order, k < s.tasks.length
  known : ∀ tradeId, tradeId ∈ s.db.trades ↔
    tradeId ∈ trades ∨ ∃ k ∈ order, l.events[k]? = some (.filled tradeId)
  inserted : s.db.row.isSome = true ↔ 0 ∈ order
  status : s.db.row.map AuditRow.status = some l.terminal.status ↔ CommitsLast l trades order

theorem Lifecycle.terminal_ne_submitted (l : Lifecycle) : l.terminal.status ≠ .submitted := by
  have hterminal := l.isTerminal
  revert hterminal
  cases l.terminal <;> simp [OrderEvent.isTerminal, OrderEvent.status]

theorem Lifecycle.terminal_ne_accepted (l : Lifecycle) : l.terminal.status ≠ .accepted := by
  have hterminal := l.isTerminal
  revert hterminal
  cases l.terminal <;> simp [OrderEvent.isTerminal, OrderEvent.status]

section Runs

variable {l : Lifecycle} {trades : List String} {order : List ℕ} {as : List AuditLabel}
  {s t : OrderSite} {a : AuditLabel} {k : ℕ} {task : AuditTask} {status : OrderStatus}
  {db : AuditDb}

/-- The tasks behind one more commit. -/
theorem TaskAt.concat (hs : AuditInv l trades order s) {task' : AuditTask}
    (htask : TaskAt l trades (order ++ [k]) k task') (j : ℕ) (other : AuditTask)
    (hother : (s.tasks.set k task')[j]? = some other) :
    TaskAt l trades (order ++ [k]) j other := by
  rcases getElem?_set_cases hother with ⟨rfl, rfl⟩ | ⟨hne, hother⟩
  · exact htask
  · have hold := hs.task j other hother
    cases other with
    | created event =>
      refine ⟨hold.1, fun hmem => ?_⟩
      rcases List.mem_append.mp hmem with hmem | hmem
      · exact hold.2 hmem
      · exact hne (List.mem_singleton.mp hmem)
    | tradePersisted => exact FillStored.concat hold
    | ended => exact List.mem_append_left _ hold

/-- The state behind a commit of task `k`. -/
theorem AuditInv.commit (hs : AuditInv l trades order s) {task' : AuditTask}
    (hk : s.tasks[k]? = some task) (htask : TaskAt l trades (order ++ [k]) k task')
    (hknown : ∀ tradeId, tradeId ∈ db.trades ↔ tradeId ∈ trades ∨
      ∃ j ∈ order ++ [k], l.events[j]? = some (.filled tradeId))
    (hinserted : db.row.isSome = true ↔ 0 ∈ order ++ [k])
    (hstatus : db.row.map AuditRow.status = some l.terminal.status ↔
      CommitsLast l trades (order ++ [k])) :
    AuditInv l trades (order ++ [k]) { s with db := db, tasks := s.tasks.set k task' } where
  pending := by
    show s.pending = l.events.drop (s.tasks.set k task').length
    rw [List.length_set]
    exact hs.pending
  task := TaskAt.concat hs htask
  ran := by
    intro j hj
    show j < (s.tasks.set k task').length
    rw [List.length_set]
    rcases List.mem_append.mp hj with hj | hj
    · exact hs.ran j hj
    · rw [List.mem_singleton.mp hj]
      exact (List.getElem?_eq_some_iff.mp hk).1
  known := hknown
  inserted := hinserted
  status := hstatus

/-- The trade ids behind a commit that stores none. -/
theorem AuditInv.known_concat (hs : AuditInv l trades order s) {event : OrderEvent}
    (hevent : l.events[k]? = some event) (hstored : ∀ tradeId, event = .filled tradeId →
      tradeId ∈ s.db.trades) (tradeId : String) :
    tradeId ∈ s.db.trades ↔ tradeId ∈ trades ∨
      ∃ j ∈ order ++ [k], l.events[j]? = some (.filled tradeId) := by
  constructor
  · intro hmem
    rcases (hs.known tradeId).mp hmem with hold | ⟨j, hj, hfilled⟩
    · exact Or.inl hold
    · exact Or.inr ⟨j, List.mem_append_left _ hj, hfilled⟩
  · rintro (hold | ⟨j, hj, hfilled⟩)
    · exact (hs.known tradeId).mpr (Or.inl hold)
    · rcases List.mem_append.mp hj with hj | hj
      · exact (hs.known tradeId).mpr (Or.inr ⟨j, hj, hfilled⟩)
      · rw [List.mem_singleton.mp hj, hevent] at hfilled
        exact hstored tradeId (Option.some.inj hfilled)

/-- A commit of another task than the first one inserts no row. -/
theorem AuditInv.inserted_concat (hs : AuditInv l trades order s) {event : OrderEvent}
    (hevent : l.events[k]? = some event) (hsubmitted : event ≠ .submitted)
    (hrow : db.row.isSome = s.db.row.isSome) : db.row.isSome = true ↔ 0 ∈ order ++ [k] := by
  rw [hrow, hs.inserted, List.mem_append, List.mem_singleton]
  refine ⟨Or.inl, fun h => h.resolve_right fun hzero => ?_⟩
  subst hzero
  exact hsubmitted (Option.some.inj hevent).symm

/-- A commit that leaves the row alone. -/
theorem AuditInv.silent (hs : AuditInv l trades order s) (hrow : db.row = s.db.row)
    (hsettles : ¬ Settles l trades order k) (hover : ¬ Overwrites l trades order k) :
    db.row.map AuditRow.status = some l.terminal.status ↔ CommitsLast l trades (order ++ [k]) := by
  rw [commitsLast_concat, hrow, hs.status]
  exact ⟨fun h => Or.inr ⟨h, hover⟩, fun h => (h.resolve_left fun h => hsettles h.2).1⟩

/-- A commit with the status of the terminal event. -/
theorem AuditInv.settles (hs : AuditInv l trades order s)
    (hrow : db.row.map AuditRow.status = s.db.row.map fun _ => l.terminal.status)
    (hsettles : Settles l trades order k) :
    db.row.map AuditRow.status = some l.terminal.status ↔ CommitsLast l trades (order ++ [k]) := by
  have hpresent : (s.db.row.map fun _ => l.terminal.status) = some l.terminal.status ↔
      s.db.row.isSome = true := by
    cases s.db.row <;> simp
  rw [commitsLast_concat, hrow, hpresent, hs.inserted]
  exact ⟨fun h => Or.inl ⟨h, hsettles⟩, fun h => h.elim And.left fun h => h.1.inserted⟩

/-- A commit with another one. -/
theorem AuditInv.overwrites
    (hrow : db.row.map AuditRow.status = s.db.row.map fun _ => status)
    (hne : status ≠ l.terminal.status) (hsettles : ¬ Settles l trades order k)
    (hover : Overwrites l trades order k) :
    db.row.map AuditRow.status = some l.terminal.status ↔ CommitsLast l trades (order ++ [k]) := by
  rw [commitsLast_concat, hrow]
  refine iff_of_false ?_ fun h => h.elim (fun h => hsettles h.2) fun h => h.2 hover
  cases s.db.row <;> simp [hne]

/-- Only the first event is the submission. -/
theorem index_of_submitted (hk : l.events[k]? = some .submitted) : k = 0 := by
  have hterminal : OrderEvent.submitted ≠ l.terminal := by
    intro heq
    have hkind := l.isTerminal
    rw [← heq] at hkind
    cases hkind
  cases k with
  | zero => rfl
  | succ k =>
    have hmem : OrderEvent.submitted ∈ l.accepted.toList.map .accepted ++
        l.partialFills.map .filled ++ [l.terminal] := List.mem_of_getElem? hk
    simp [hterminal] at hmem

/-- The task of the submission. -/
theorem AuditInv.submit (hs : AuditInv l trades order s)
    (hk : s.tasks[k]? = some (.created .submitted)) :
    AuditInv l trades (order ++ [k])
      { s with db := s.db.writeSubmitted, tasks := s.tasks.set k .ended } := by
  obtain ⟨hevent, -⟩ := hs.task k _ hk
  obtain rfl := index_of_submitted hevent
  have hmem : 0 ∈ order ++ [0] := List.mem_append_right _ (List.mem_singleton_self 0)
  refine hs.commit hk hmem (hs.known_concat hevent fun _ heq => by cases heq) ?_ ?_
  · -- an INSERT on a row that is there changes nothing
    refine iff_of_true ?_ hmem
    unfold AuditDb.writeSubmitted
    cases s.db.row <;> rfl
  · have hsettles : ¬ Settles l trades order 0 := fun h => by
      have heq := event_of_settles h hevent fun _ heq => by cases heq
      have hkind := l.isTerminal
      rw [← heq] at hkind
      cases hkind
    have hover : ¬ Overwrites l trades order 0 := by
      rintro (⟨venueOrderId, haccepted⟩ | ⟨⟨tradeId, hfilled, -⟩, -⟩)
      · cases hevent.symm.trans haccepted
      · cases hevent.symm.trans hfilled
    rw [← hs.silent rfl hsettles hover]
    have hne := l.terminal_ne_submitted
    unfold AuditDb.writeSubmitted
    cases s.db.row with
    | none => simp [Ne.symm hne]
    | some row => rfl

/-- The first commit of a fill stores its trade, or drops the fill. -/
theorem AuditInv.fill (hs : AuditInv l trades order s) {tradeId : String} {task' : AuditTask}
    (hk : s.tasks[k]? = some (.created (.filled tradeId)))
    (h : auditCommand s.db (.created (.filled tradeId)) = some (db, task')) :
    AuditInv l trades (order ++ [k]) { s with db := db, tasks := s.tasks.set k task' } := by
  obtain ⟨hevent, hfresh⟩ := hs.task k _ hk
  have hstored : ¬ FillStored l trades order k := fun ⟨_, _, hmem, _⟩ => hfresh hmem
  have hsettles : ¬ Settles l trades order k := by
    have hlast : k + 1 = l.events.length → ∃ t, l.terminal = .filled t := fun hlast =>
      ⟨tradeId, Option.some.inj ((event_of_last hlast).symm.trans hevent)⟩
    intro h
    unfold Settles at h
    split at h
    · exact hstored h
    · rename_i hterminal
      obtain ⟨t, ht⟩ := hlast h
      cases hterminal.symm.trans ht
    · rename_i hterminal
      obtain ⟨t, ht⟩ := hlast h
      cases hterminal.symm.trans ht
    · exact h
  have hover : ¬ Overwrites l trades order k := by
    rintro (⟨venueOrderId, haccepted⟩ | ⟨hfill, -⟩)
    · cases hevent.symm.trans haccepted
    · exact hstored hfill
  have hmem : k ∈ order ++ [k] := List.mem_append_right _ (List.mem_singleton_self k)
  simp only [auditCommand] at h
  split at h
  · -- the trade id is known
    rename_i hknown
    obtain ⟨rfl, rfl⟩ := Prod.mk.inj (Option.some.inj h)
    refine hs.commit hk hmem (hs.known_concat hevent fun t ht => ?_)
      (hs.inserted_concat hevent (fun heq => by cases heq) rfl) (hs.silent rfl hsettles hover)
    rw [← OrderEvent.filled.inj ht]
    exact hknown
  · rename_i hnew
    obtain ⟨rfl, rfl⟩ := Prod.mk.inj (Option.some.inj h)
    rw [hs.known tradeId, not_or] at hnew
    refine hs.commit hk ⟨tradeId, hevent, hmem, hnew.1, fun j hj hfilled => ?_⟩ (fun t => ?_)
      (hs.inserted_concat hevent (fun heq => by cases heq) rfl) (hs.silent rfl hsettles hover)
    · -- what comes before the first commit of the task has committed before
      rw [takeWhile_concat_self hfresh] at hj
      exact hnew.2 ⟨j, hj, hfilled⟩
    · rw [List.mem_cons, hs.known t]
      constructor
      · rintro (rfl | hold | ⟨j, hj, hfilled⟩)
        · exact Or.inr ⟨k, hmem, hevent⟩
        · exact Or.inl hold
        · exact Or.inr ⟨j, List.mem_append_left _ hj, hfilled⟩
      · rintro (hold | ⟨j, hj, hfilled⟩)
        · exact Or.inr (Or.inl hold)
        · rcases List.mem_append.mp hj with hj | hj
          · exact Or.inr (Or.inr ⟨j, hj, hfilled⟩)
          · rw [List.mem_singleton.mp hj, hevent] at hfilled
            exact Or.inl (OrderEvent.filled.inj (Option.some.inj hfilled)).symm

/-- The status of the row behind an UPDATE. -/
theorem status_updateStatus {brokerOrderId reason : Option String} :
    (s.db.updateStatus status brokerOrderId reason).row.map AuditRow.status
      = s.db.row.map fun _ => status := by
  unfold AuditDb.updateStatus
  rw [Option.map_map]
  rfl

theorem isSome_updateStatus {brokerOrderId reason : Option String} :
    (s.db.updateStatus status brokerOrderId reason).row.isSome = s.db.row.isSome := by
  unfold AuditDb.updateStatus
  rw [Option.isSome_map]

/-- An UPDATE of the terminal event, or of the acceptance. -/
theorem AuditInv.update (hs : AuditInv l trades order s) {event : OrderEvent}
    {brokerOrderId reason : Option String} (hk : s.tasks[k]? = some (.created event))
    (hfilled : ∀ tradeId, event ≠ .filled tradeId) (hsubmitted : event ≠ .submitted)
    (hwrites : (Settles l trades order k ∧ status = l.terminal.status) ∨
      (¬ Settles l trades order k ∧ Overwrites l trades order k ∧ status ≠ l.terminal.status)) :
    AuditInv l trades (order ++ [k])
      { s with
        db := s.db.updateStatus status brokerOrderId reason
        tasks := s.tasks.set k .ended } := by
  obtain ⟨hevent, -⟩ := hs.task k _ hk
  refine hs.commit hk (List.mem_append_right _ (List.mem_singleton_self k))
    (hs.known_concat hevent fun t ht => absurd ht (hfilled t))
    (hs.inserted_concat hevent hsubmitted isSome_updateStatus) ?_
  rcases hwrites with ⟨hsettles, rfl⟩ | ⟨hsettles, hover, hne⟩
  · exact hs.settles status_updateStatus hsettles
  · exact AuditInv.overwrites status_updateStatus hne hsettles hover

/-- A commit of the task of an event the handler has no branch for. -/
theorem AuditInv.unhandled (hs : AuditInv l trades order s) {event : OrderEvent}
    (hk : s.tasks[k]? = some (.created event))
    (hkind : (∃ reason, event = .denied reason) ∨ event = .expired) :
    AuditInv l trades (order ++ [k]) { s with tasks := s.tasks.set k .ended } := by
  obtain ⟨hevent, -⟩ := hs.task k _ hk
  have hfilled : ∀ tradeId, event ≠ .filled tradeId := by
    rcases hkind with ⟨reason, rfl⟩ | rfl <;> simp
  have hsubmitted : event ≠ .submitted := by
    rcases hkind with ⟨reason, rfl⟩ | rfl <;> simp
  have hsettles : ¬ Settles l trades order k := by
    intro h
    have heq := event_of_settles h hevent hfilled
    unfold Settles at h
    rcases hkind with ⟨reason, rfl⟩ | rfl
    · rw [← heq] at h
      exact h
    · rw [← heq] at h
      exact h
  have hover : ¬ Overwrites l trades order k := by
    rintro (⟨venueOrderId, haccepted⟩ | ⟨⟨tradeId, hfill, -⟩, -⟩)
    · rcases hkind with ⟨reason, rfl⟩ | rfl <;> cases hevent.symm.trans haccepted
    · exact hfilled tradeId (Option.some.inj (hevent.symm.trans hfill))
  exact hs.commit hk (List.mem_append_right _ (List.mem_singleton_self k))
    (hs.known_concat hevent fun t ht => absurd ht (hfilled t))
    (hs.inserted_concat hevent hsubmitted rfl) (hs.silent rfl hsettles hover)

/-- The UPDATE of a fill: it settles a filled order, and overwrites any other. -/
theorem AuditInv.updateFilled (hs : AuditInv l trades order s)
    (hk : s.tasks[k]? = some .tradePersisted) :
    AuditInv l trades (order ++ [k])
      { s with
        db := s.db.updateStatus .filled none none
        tasks := s.tasks.set k .ended } := by
  have hstored : FillStored l trades order k := hs.task k _ hk
  have ⟨tradeId, hevent, hmem, _⟩ := hstored
  have hknown : tradeId ∈ s.db.trades := (hs.known tradeId).mpr (Or.inr ⟨k, hmem, hevent⟩)
  refine hs.commit hk (List.mem_append_right _ (List.mem_singleton_self k))
    (hs.known_concat hevent fun t ht => OrderEvent.filled.inj ht ▸ hknown)
    (hs.inserted_concat hevent (fun heq => by cases heq) isSome_updateStatus) ?_
  by_cases hterminal : ∃ t, l.terminal = .filled t
  · obtain ⟨t, ht⟩ := hterminal
    have hsettles : Settles l trades order k := by
      unfold Settles
      rw [ht]
      exact hstored
    refine hs.settles ?_ hsettles
    rw [ht]
    exact status_updateStatus
  · have hother : ∀ t, l.terminal ≠ .filled t := not_exists.mp hterminal
    have hlast : k + 1 ≠ l.events.length := fun hlast =>
      hother tradeId (Option.some.inj ((event_of_last hlast).symm.trans hevent))
    refine AuditInv.overwrites status_updateStatus ?_ ?_ (Or.inr ⟨hstored, hother⟩)
    · intro heq
      have hkind := l.isTerminal
      revert heq hkind hother
      cases l.terminal <;> simp [OrderEvent.isTerminal, OrderEvent.status]
    · intro h
      unfold Settles at h
      split at h
      · rename_i t ht
        exact hother t ht
      · exact hlast h
      · exact hlast h
      · exact h

/-- **One commit.** -/
theorem AuditInv.command (hs : AuditInv l trades order s) {task' : AuditTask}
    (hk : s.tasks[k]? = some task) (h : auditCommand s.db task = some (db, task')) :
    AuditInv l trades (order ++ [k]) { s with db := db, tasks := s.tasks.set k task' } := by
  cases task with
  | created event =>
    obtain ⟨hevent, -⟩ := hs.task k _ hk
    cases event with
    | submitted =>
      obtain ⟨rfl, rfl⟩ := Prod.mk.inj (Option.some.inj h)
      exact hs.submit hk
    | filled tradeId => exact hs.fill hk h
    | denied reason =>
      obtain ⟨rfl, rfl⟩ := Prod.mk.inj (Option.some.inj h)
      exact hs.unhandled hk (Or.inl ⟨reason, rfl⟩)
    | expired =>
      obtain ⟨rfl, rfl⟩ := Prod.mk.inj (Option.some.inj h)
      exact hs.unhandled hk (Or.inr rfl)
    | accepted venueOrderId =>
      obtain ⟨rfl, rfl⟩ := Prod.mk.inj (Option.some.inj h)
      refine hs.update hk (by simp) (by simp) (Or.inr ⟨fun hsettles => ?_,
        Or.inl ⟨venueOrderId, hevent⟩, Ne.symm l.terminal_ne_accepted⟩)
      have hkind := l.isTerminal
      rw [← event_of_settles hsettles hevent (by simp)] at hkind
      cases hkind
    | canceled | rejected reason =>
      obtain ⟨rfl, rfl⟩ := Prod.mk.inj (Option.some.inj h)
      obtain ⟨hterminal, hlast⟩ := terminal_of_event hevent (by simp) (by simp) (by simp)
      refine hs.update hk (by simp) (by simp) (Or.inl ⟨?_, ?_⟩)
      · unfold Settles
        rw [← hterminal]
        exact hlast
      · rw [← hterminal]
        rfl
  | tradePersisted =>
    obtain ⟨rfl, rfl⟩ := Prod.mk.inj (Option.some.inj h)
    exact hs.updateFilled hk
  | ended => cases h

/-- An event is published. -/
theorem AuditInv.publish (hs : AuditInv l trades order s) {event : OrderEvent}
    {pending : List OrderEvent} (hpending : s.pending = event :: pending) :
    AuditInv l trades order
      { s with pending := pending, tasks := s.tasks ++ [.created event] } where
  pending := by
    have hdrop := hs.pending
    rw [hpending] at hdrop
    show pending = l.events.drop (s.tasks ++ [AuditTask.created event]).length
    rw [List.length_append, List.length_singleton, ← List.tail_drop, ← hdrop]
    rfl
  task := by
    intro k task htask
    rcases getElem?_concat_cases (l := s.tasks) htask with ⟨rfl, rfl⟩ | hold
    · refine ⟨?_, fun hmem => absurd (hs.ran _ hmem) (Nat.lt_irrefl _)⟩
      rw [← List.head?_drop, ← hs.pending, hpending]
      rfl
    · exact hs.task k task hold
  ran := by
    intro k hk
    show k < (s.tasks ++ [AuditTask.created event]).length
    rw [List.length_append]
    exact Nat.lt_add_right _ (hs.ran k hk)
  known := hs.known
  inserted := hs.inserted
  status := hs.status

/-- **Every run**, by induction on it, with the commits so far. -/
theorem AuditInv.run (hs : AuditInv l trades order s) (h : Path auditSystem anyStep s as t) :
    AuditInv l trades (order ++ commits as) t := by
  induction h generalizing order with
  | nil s =>
    rw [commits, List.append_nil]
    exact hs
  | @cons s u t a as _ hstep _ ih =>
    cases a with
    | publish =>
      have hstep' : auditStep s .publish = some u := hstep
      simp only [auditStep] at hstep'
      split at hstep'
      · rename_i event pending hpending
        obtain rfl := Option.some.inj hstep'
        exact ih (hs.publish hpending)
      · cases hstep'
    | command k =>
      obtain ⟨task, htask, hcommand⟩ := Option.bind_eq_some_iff.mp hstep
      obtain ⟨⟨db', task'⟩, hdb, rfl⟩ := Option.map_eq_some_iff.mp hcommand
      have hrest := ih (hs.command htask hdb)
      rwa [List.append_assoc] at hrest

theorem AuditInv.of_path (h : Path auditSystem anyStep (.initial l trades) as s) :
    AuditInv l trades (commits as) s := by
  have hinit : AuditInv l trades [] (.initial l trades) :=
    { pending := rfl
      task := fun k task htask => by simp [OrderSite.initial] at htask
      ran := fun k hk => absurd hk List.not_mem_nil
      known := fun tradeId => by simp [OrderSite.initial]
      inserted := by simp [OrderSite.initial]
      status := by
        refine iff_of_false (by simp [OrderSite.initial]) fun h => ?_
        exact absurd h.inserted List.not_mem_nil }
  exact hinit.run h

/-- No order of the transactions shows that an order was denied, or that it has expired. -/
theorem status_unhandled (h : Path auditSystem anyStep (.initial l trades) as s)
    (hkind : (∃ reason, l.terminal = .denied reason) ∨ l.terminal = .expired) :
    s.db.row.map AuditRow.status ≠ some l.terminal.status := by
  rw [Ne, (AuditInv.of_path h).status]
  rintro ⟨before, k, after, -, -, hsettles, -⟩
  unfold Settles at hsettles
  rcases hkind with ⟨reason, hterminal⟩ | hterminal
  · rw [hterminal] at hsettles
    exact hsettles
  · rw [hterminal] at hsettles
    exact hsettles

end Runs

/-! ### Two orders -/

/-- An order that is accepted and canceled. -/
def canceledOrder : Lifecycle where
  accepted := some (some "42")
  partialFills := []
  terminal := .canceled
  isTerminal := rfl

/-- An order that is accepted, partially filled, and denied. -/
def deniedOrder : Lifecycle where
  accepted := some (some "43")
  partialFills := ["fill-1"]
  terminal := .denied (some "halted")
  isTerminal := rfl

/-- The tasks run one after the other. -/
def inEventOrder : List AuditLabel :=
  [.publish, .command 0, .publish, .command 1, .publish, .command 2]

/-- The UPDATE to `accepted` comes last. -/
def acceptedLast : List AuditLabel :=
  [.publish, .publish, .publish, .command 0, .command 2, .command 1]

/-- Every task runs as soon as its event is published. -/
def deniedInOrder : List AuditLabel :=
  [.publish, .command 0, .publish, .command 1, .publish, .command 2, .command 2, .publish,
    .command 3]

end Msai.Live.OrderAudit
