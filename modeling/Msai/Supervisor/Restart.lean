import Msai.Lib.Transition
import Msai.Supervisor.Transactions

namespace Msai.Supervisor

open Msai.Live Msai.Lib Msai.Lib.TransitionSystem

/-!
# Auto-restart attempts and the crash-loop ceiling (`FleetRouter._attempt_auto_restart`)

The reaper's detached task and the rescan run the same attempt: load a restart context, pass
the halt gate and the stop gate, ask the policy, wait out the backoff, and reserve the slot
with the counters of the loaded row.  The context is loaded in one transaction and the slot
reserved in a later one, up to a backoff apart.

* `Attempt`, `attemptStep` — one attempt, gate by gate;
* `restartSystem` — any number of attempts against any other writes of the node rows;
* `CurrentContext` — the condition on a Phase A that reserves: the row the attempt loaded is
  still the deployment's latest row.  One that the gate under the lock refuses may be stale;
* `restart_ceiling_of_current` — then the counters climb by one, nothing is reserved behind a
  paused row, and the ceiling bounds the respawns.
-/

/-- Where an attempt stands. -/
inductive AttemptPc
  | haltGate
  | stopGate
  | deciding
  | backingOff
  | stopRegate
  | reserving
  | ended
deriving DecidableEq, Repr

/-- One call of `_attempt_auto_restart` with the context it loaded. -/
structure Attempt where
  /-- Primary key of the loaded row. -/
  ctxId : ℕ
  /-- The loaded row, as it was then. -/
  process : NodeRow
  /-- The rescan skips a candidate in its backoff window. -/
  skipBackoff : Bool
  pc : AttemptPc
deriving DecidableEq

/-- What an attempt reads next. -/
inductive AttemptEvent
  /-- `_halt_active`; an unreadable latch counts as set. -/
  | halt (active : Bool)
  /-- `_operator_stop_requested`; an unreadable intent counts as a stop. -/
  | stopRequested (unreadable : Bool)
  /-- `decide` at time `now`, with the backoff drawn for it. -/
  | decide (now delay : ℕ)
  /-- `_cancellable_backoff` returned. -/
  | backoff (proceed : Bool)
  /-- `spawn_with_outcome`, up to its reservation. -/
  | reserve (host : String) (now : ℕ) (other : OtherStartup)
deriving DecidableEq

/-- The carry built from the loaded row. -/
def Attempt.carry (a : Attempt) : RestartCarry :=
  { priorConsecutiveRespawnFailures := a.process.consecutiveRespawnFailures
    priorLastRestartAt := a.process.lastRestartAt
    priorAutoRestartPaused := a.process.autoRestartPaused
    priorAutoRestartPauseReason := a.process.autoRestartPauseReason }

/-- The request an attempt hands to Phase A. -/
def Attempt.request (a : Attempt) (host : String) (now : ℕ) : SpawnRequest :=
  { gatewaySessionKey := some a.process.gatewaySessionKey
    restartCarry := some a.carry
    host := host
    now := now }

/-- The gates of an attempt. -/
def attemptNext (db : Db) (a : Attempt) : AttemptEvent → Option AttemptPc
  | .halt active =>
    if a.pc = .haltGate then some (if active then .ended else .stopGate) else none
  | .stopRequested unreadable =>
    let stop := unreadable || latestStamped db
    if a.pc = .stopGate then some (if stop then .ended else .deciding)
    else if a.pc = .stopRegate then some (if stop then .ended else .reserving)
    else none
  | .decide now delay =>
    -- the policy sees the loaded row, not the current one
    if a.pc = .deciding then
      match RestartPolicy.decide a.process now delay with
      | .paused _ => some .ended
      | .restart => some .reserving
      | .backoff _ => some (if a.skipBackoff then .ended else .backingOff)
    else none
  | .backoff proceed =>
    if a.pc = .backingOff then some (if proceed then .stopRegate else .ended) else none
  | .reserve _ _ _ => none

/-- One step of an attempt. -/
def attemptStep (p : RestartPolicy) (db : Db) (a : Attempt) : AttemptEvent → Option (Db × Attempt)
  | .reserve host now other =>
    if a.pc = .reserving then
      (phaseA (some p) db (a.request host now) other).map fun out =>
        (out.2, { a with pc := .ended })
    else none
  | ev => (attemptNext db a ev).map fun pc => (db, { a with pc := pc })

/-- The node rows and the attempts in flight. -/
structure RestartState where
  db : Db
  attempts : List Attempt
deriving DecidableEq

/-- What happens next. -/
inductive RestartLabel
  /-- `_load_restart_context` of a new attempt. -/
  | load (skipBackoff : Bool)
  | attempt (k : ℕ) (ev : AttemptEvent)
  /-- Any other writer of a node row. -/
  | write (rowId : ℕ) (w : RowWrite)
  | stop (host : String) (now : ℕ)
deriving DecidableEq

/-- A new attempt on the latest row; without one there is nothing to restart. -/
def loadContext (db : Db) (skipBackoff : Bool) : Option Attempt :=
  db.latest.map fun r =>
    { ctxId := db.rows.length - 1, process := r, skipBackoff := skipBackoff, pc := .haltGate }

/-- Attempts of the reaper and of the rescan, under any other writes. -/
def restartSystem (p : RestartPolicy) : TransitionSystem RestartState RestartLabel where
  step s
    | .load skip => (loadContext s.db skip).map fun a => { s with attempts := s.attempts ++ [a] }
    | .attempt k ev =>
      (s.attempts[k]?).bind fun a =>
        (attemptStep p s.db a ev).map fun out =>
          { db := out.1, attempts := s.attempts.set k out.2 }
    | .write i w => (s.db.write i w).map fun db => { s with db := db }
    | .stop host now => (stopTxn host now s.db).map fun out => { s with db := out.2 }

/-- The write is a `record_success`. -/
def RestartLabel.isSuccess : RestartLabel → Bool
  | .write _ (.markRunning _) => true
  | _ => false

/-- Phase A lets the attempt through on a row that is no longer the latest one. -/
def RestartState.reservesStale (s : RestartState) : RestartLabel → Bool
  | .attempt k (.reserve host now other) =>
    (s.attempts[k]?).any fun a =>
      (phaseAGate s.db (a.request host now) other).isNone &&
        decide (a.ctxId + 1 ≠ s.db.rows.length)
  | _ => false

/-- A step of the runs the ceiling is about: no `record_success`. -/
def NoSuccess (_ : RestartState) (a : RestartLabel) : Prop := a.isSuccess = false

/-- Moreover an attempt whose loaded row is no longer the latest is refused by Phase A. -/
def CurrentContext (s : RestartState) (a : RestartLabel) : Prop :=
  a.isSuccess = false ∧ s.reservesStale a = false

instance (s : RestartState) (a : RestartLabel) : Decidable (NoSuccess s a) :=
  inferInstanceAs (Decidable (_ = false))

instance (s : RestartState) (a : RestartLabel) : Decidable (CurrentContext s a) :=
  inferInstanceAs (Decidable (_ ∧ _))

/-! ### The ledger of restart counters -/

/-- The restart columns of a row. -/
structure RestartEntry where
  startedAt : ℕ
  failures : ℕ
  lastRestartAt : Option ℕ
  paused : Bool
deriving DecidableEq

/-- The restart columns of a row. -/
def NodeRow.entry (r : NodeRow) : RestartEntry :=
  { startedAt := r.startedAt
    failures := r.consecutiveRespawnFailures
    lastRestartAt := r.lastRestartAt
    paused := r.autoRestartPaused }

/-- The restart columns of the deployment, row by row. -/
def Db.ledger (db : Db) : List RestartEntry := db.rows.map (·.entry)

@[simp] theorem ledger_length (db : Db) : db.ledger.length = db.rows.length := by
  simp [Db.ledger]

theorem ledger_getElem? {db : Db} {i : ℕ} {r : NodeRow} (h : db.rows[i]? = some r) :
    db.ledger[i]? = some r.entry := by
  simp [Db.ledger, h]

/-- No writer but `_mark_running` touches the ledger. -/
theorem ledger_of_write {db db' : Db} {i : ℕ} {w : RowWrite} (hw : ∀ now, w ≠ .markRunning now)
    (h : db.write i w = some db') : db'.ledger = db.ledger := by
  refine List.ext_getElem? fun j => ?_
  cases hr : db.rows[j]? with
  | none =>
    have hlen := Db.write_length h
    have hj : db.rows.length ≤ j := List.getElem?_eq_none_iff.mp hr
    rw [List.getElem?_eq_none (by simpa [hlen] using hj),
      List.getElem?_eq_none (by simpa using hj)]
  | some r =>
    rw [ledger_getElem? hr]
    rcases Db.write_getElem?_cases h hr with hr' | ⟨_, hr'⟩
    · rw [ledger_getElem? hr']
    · obtain ⟨h1, h2, h3⟩ := RowWrite.row_counters (c := db.context i r) (r := r) hw
      have h4 := RowWrite.row_startedAt w (db.context i r) r
      rw [ledger_getElem? hr', NodeRow.entry, h1, h2, h3, h4]
      rfl

/-- A stop does not touch the ledger. -/
theorem ledger_of_stop {db db' : Db} {host : String} {now : ℕ} {res : StopResult}
    (h : stopTxn host now db = some (res, db')) : db'.ledger = db.ledger := by
  rcases stopTxn_cases h with ⟨i, _, _, _, _, _, hw⟩ | ⟨_, _, rfl⟩ | ⟨_, _, hcase⟩
  · exact ledger_of_write (by intro n e; cases e) hw
  · rfl
  · rcases hcase with ⟨_, rfl⟩ | ⟨_, _, hw⟩ | ⟨_, _, rfl⟩
    · rfl
    · exact ledger_of_write (by intro n e; cases e) hw
    · unfold stopPreActive
      split <;> rfl

/-- The entry an attempt appends: one more failure on the entry it loaded. -/
def RestartEntry.next (p : RestartPolicy) (e : RestartEntry) (now : ℕ) : RestartEntry :=
  let n := match e.lastRestartAt with
    | none => 1
    | some last => if now ≤ last + p.restartWindow then e.failures + 1 else 1
  { startedAt := now
    failures := n
    lastRestartAt := some now
    paused := e.paused || decide (p.maxRestartAttempts ≤ n) }

/-- Phase A with the carry of an attempt appends the next entry, or nothing. -/
theorem ledger_of_reserve {p : RestartPolicy} {db db' : Db} {a : Attempt} {host : String}
    {now : ℕ} {other : OtherStartup} {o : PhaseAOutcome}
    (h : phaseA (some p) db (a.request host now) other = some (o, db')) :
    db'.ledger = db.ledger ∨
      (phaseAGate db (a.request host now) other = none ∧
        db'.ledger = db.ledger ++ [a.process.entry.next p now]) := by
  rcases phaseA_cases h with ⟨rfl, _⟩ | ⟨_, hgate, _, hrows, _⟩
  · exact Or.inl rfl
  · refine Or.inr ⟨hgate, ?_⟩
    rw [Db.ledger, hrows, List.map_append]
    rfl

/-! ### What one step does -/

namespace AttemptPc

/-- The policy has let the attempt through. -/
def isPastPolicy : AttemptPc → Bool
  | .backingOff | .stopRegate | .reserving => true
  | _ => false

end AttemptPc

/-- An attempt passes the policy only with an unpaused row. -/
theorem attemptNext_past {db : Db} {a : Attempt} {ev : AttemptEvent} {pc : AttemptPc}
    (h : attemptNext db a ev = some pc) (hpast : pc.isPastPolicy = true) :
    a.pc.isPastPolicy = true ∨ a.process.autoRestartPaused = false := by
  cases ev with
  | halt active =>
    simp only [attemptNext] at h
    split at h
    · obtain rfl := Option.some.inj h
      split at hpast <;> cases hpast
    · cases h
  | stopRequested unreadable =>
    simp only [attemptNext] at h
    split at h
    · obtain rfl := Option.some.inj h
      split at hpast <;> cases hpast
    · split at h
      · rename_i hpc
        exact Or.inl (by rw [hpc]; rfl)
      · cases h
  | decide now delay =>
    simp only [attemptNext] at h
    split at h
    · -- the one gate that looks at the brake
      refine Or.inr ?_
      by_contra hp
      rw [RestartPolicy.decide_of_paused (by simpa using hp)] at h
      obtain rfl := Option.some.inj h
      cases hpast
    · cases h
  | backoff proceed =>
    simp only [attemptNext] at h
    split at h
    · rename_i hpc
      exact Or.inl (by rw [hpc]; rfl)
    · cases h
  | reserve _ _ _ => cases h

/-- The attempt's snapshot is an entry of the ledger, and an unpaused one once the policy has
    let it through. -/
def Attempt.Snapshot (ledger : List RestartEntry) (a : Attempt) : Prop :=
  ledger[a.ctxId]? = some a.process.entry ∧
    (a.pc.isPastPolicy = true → a.process.autoRestartPaused = false)

variable {p : RestartPolicy} {s t : RestartState} {a : RestartLabel}

/-- **One step.**  Without a `record_success` the ledger is kept, or the next entry of a
    current snapshot is appended; and every attempt holds a snapshot of it. -/
theorem restartStep_ledger (hsnap : ∀ b ∈ s.attempts, b.Snapshot s.db.ledger)
    (hC : CurrentContext s a) (h : (restartSystem p).step s a = some t) :
    (∀ b ∈ t.attempts, b.Snapshot t.db.ledger) ∧
      (t.db.ledger = s.db.ledger ∨
        ∃ e now, s.db.ledger.getLast? = some e ∧ e.paused = false ∧
          t.db.ledger = s.db.ledger ++ [e.next p now]) := by
  cases a with
  | load skip =>
    -- a new attempt takes its snapshot of the last entry
    obtain ⟨b, hb, rfl⟩ := Option.map_eq_some_iff.mp h
    obtain ⟨r, hr, rfl⟩ := Option.map_eq_some_iff.mp hb
    refine ⟨fun b hb => ?_, Or.inl rfl⟩
    rcases List.mem_append.mp hb with hb | hb
    · exact hsnap b hb
    · obtain rfl := List.mem_singleton.mp hb
      rw [Db.latest_eq_getElem?] at hr
      exact ⟨ledger_getElem? hr, fun hp => by cases hp⟩
  | write i w =>
    obtain ⟨db', hw, rfl⟩ := Option.map_eq_some_iff.mp h
    have hl := ledger_of_write (by rintro now rfl; cases hC.1) hw
    exact ⟨fun b hb => by rw [hl]; exact hsnap b hb, Or.inl hl⟩
  | stop host now =>
    obtain ⟨⟨res, db'⟩, hstop, rfl⟩ := Option.map_eq_some_iff.mp h
    have hl := ledger_of_stop hstop
    exact ⟨fun b hb => by rw [hl]; exact hsnap b hb, Or.inl hl⟩
  | attempt k ev =>
    obtain ⟨b₀, hb₀, h⟩ := Option.bind_eq_some_iff.mp h
    obtain ⟨⟨db', b'⟩, hstep, rfl⟩ := Option.map_eq_some_iff.mp h
    obtain ⟨hctx, hpast⟩ := hsnap b₀ (List.mem_of_getElem? hb₀)
    cases ev with
    | reserve host now other =>
      simp only [attemptStep] at hstep
      split at hstep
      · rename_i hpc
        obtain ⟨⟨o, db''⟩, hA, heq⟩ := Option.map_eq_some_iff.mp hstep
        obtain ⟨rfl, rfl⟩ := Prod.mk.inj heq
        have hunp : b₀.process.autoRestartPaused = false := hpast (by rw [hpc]; rfl)
        -- appended or not, the old positions keep their entries
        have hold : ∀ l : List RestartEntry, ∀ b ∈ s.attempts.set k { b₀ with pc := .ended },
            b.Snapshot (s.db.ledger ++ l) := by
          intro l b hb
          have hget : ∀ c : Attempt, s.db.ledger[c.ctxId]? = some c.process.entry →
              (s.db.ledger ++ l)[c.ctxId]? = some c.process.entry := by
            intro c hc
            rw [List.getElem?_append_left (List.getElem?_eq_some_iff.mp hc).1, hc]
          rcases List.mem_or_eq_of_mem_set hb with hb | rfl
          · exact ⟨hget b (hsnap b hb).1, (hsnap b hb).2⟩
          · exact ⟨hget _ hctx, fun hp => by cases hp⟩
        rcases ledger_of_reserve hA with hl | ⟨hgate, hl⟩
        · -- refused under the lock: however old the context is, nothing was written
          refine ⟨fun b hb => ?_, Or.inl hl⟩
          have hb' := hold [] b hb
          rw [List.append_nil] at hb'
          show b.Snapshot db''.ledger
          rw [hl]
          exact hb'
        · -- the condition: what the attempt loaded is still the last entry
          have hcur : b₀.ctxId + 1 = s.db.rows.length := by
            simpa [RestartState.reservesStale, hb₀, hgate] using hC.2
          have hlast : s.db.ledger.getLast? = some b₀.process.entry := by
            rw [List.getLast?_eq_getElem?, ledger_length, ← hcur]
            exact hctx
          refine ⟨fun b hb => ?_, Or.inr ⟨_, now, hlast, hunp, hl⟩⟩
          show b.Snapshot db''.ledger
          rw [hl]
          exact hold _ b hb
      · cases hstep
    | halt _ | stopRequested _ | decide _ _ | backoff _ =>
      obtain ⟨pc, hnext, heq⟩ := Option.map_eq_some_iff.mp hstep
      obtain ⟨rfl, rfl⟩ := Prod.mk.inj heq
      refine ⟨fun b hb => ?_, Or.inl rfl⟩
      rcases List.mem_or_eq_of_mem_set hb with hb | rfl
      · exact hsnap b hb
      · refine ⟨hctx, fun hp => ?_⟩
        rcases attemptNext_past hnext hp with hprev | hunp
        · exact hpast hprev
        · exact hunp

/-! ### The ceiling -/

/-- The entries from position `n` on were appended by attempts, each on the one before. -/
structure Climbs (p : RestartPolicy) (n : ℕ) (l : List RestartEntry) : Prop where
  /-- The first `n` entries are those the run started from. -/
  base : n ≤ l.length
  /-- An appended entry is dated, counts its attempt, and is paused at the ceiling. -/
  dated : ∀ (i : ℕ) (e : RestartEntry), n ≤ i → l[i]? = some e →
    e.lastRestartAt = some e.startedAt ∧ 0 < e.failures ∧
      (p.maxRestartAttempts ≤ e.failures → e.paused = true)
  /-- Inside the window the counter climbs by one. -/
  climb : ∀ (i : ℕ) (e e' : RestartEntry), n ≤ i → l[i]? = some e → l[i + 1]? = some e' →
    e'.startedAt ≤ e.startedAt + p.restartWindow → e'.failures = e.failures + 1
  /-- Nothing is appended behind a paused entry. -/
  unpaused : ∀ (i : ℕ) (e : RestartEntry), n ≤ i + 1 → i + 1 < l.length → l[i]? = some e →
    e.paused = false

variable {l : List RestartEntry} {n : ℕ}

/-- The step lemma: the next entry of an unpaused last entry. -/
theorem Climbs.append {e : RestartEntry} {now : ℕ} (h : Climbs p n l) (he : l.getLast? = some e)
    (hp : e.paused = false) : Climbs p n (l ++ [e.next p now]) := by
  have hlast : l[l.length - 1]? = some e := by rw [← List.getLast?_eq_getElem?, he]
  have hpos : 0 < l.length := by
    have := (List.getElem?_eq_some_iff.mp hlast).1
    omega
  refine ⟨?_, ?_, ?_, ?_⟩
  · rw [List.length_append]
    exact Nat.le_trans h.base (Nat.le_add_right _ _)
  · intro i e' hn hi
    rcases getElem?_concat_cases hi with ⟨_, rfl⟩ | hold
    · -- `record_failure` dates the entry, counts at least one and trips the brake
      refine ⟨rfl, ?_, fun hmax => ?_⟩
      · simp only [RestartEntry.next]
        split
        · omega
        · split <;> omega
      · simp only [RestartEntry.next, Bool.or_eq_true, decide_eq_true_eq]
        exact Or.inr hmax
    · exact h.dated i e' hn hold
  · intro i e₁ e₂ hn hi hi' hgap
    rcases getElem?_concat_cases hi' with ⟨hlen, rfl⟩ | hold
    · -- the entry before the appended one is the last entry, and it is dated
      have hi₁ : i = l.length - 1 := by omega
      rcases getElem?_concat_cases hi with ⟨hlen₁, _⟩ | hold₁
      · omega
      · rw [hi₁, hlast] at hold₁
        obtain rfl := Option.some.inj hold₁
        obtain ⟨hdate, _, _⟩ := h.dated (l.length - 1) e (hi₁ ▸ hn) hlast
        have hwithin : now ≤ e.startedAt + p.restartWindow := hgap
        simp only [RestartEntry.next, hdate, if_pos hwithin]
    · rcases getElem?_concat_cases hi with ⟨hlen₁, _⟩ | hold₁
      · have := (List.getElem?_eq_some_iff.mp hold).1
        omega
      · exact h.climb i e₁ e₂ hn hold₁ hold hgap
  · -- only the former last entry is new among those with a successor, and it is unpaused
    intro i e' hn hlt hi
    rw [List.length_append, List.length_singleton] at hlt
    rcases getElem?_concat_cases hi with ⟨hlen, _⟩ | hold
    · omega
    · rcases Nat.lt_or_ge (i + 1) l.length with hlt' | hge
      · exact h.unpaused i e' hn hlt' hold
      · have hi₁ : i = l.length - 1 := by omega
        rw [hi₁, hlast] at hold
        obtain rfl := Option.some.inj hold
        exact hp

/-- The run lemma: the ledger climbs over every run whose reservations are current. -/
theorem climbs_of_path {as : List RestartLabel} (hn : s.attempts = [])
    (h : Path (restartSystem p) CurrentContext s as t) :
    Climbs p s.db.rows.length t.db.ledger := by
  have hinv := h.invariant
    (I := fun u => (∀ b ∈ u.attempts, b.Snapshot u.db.ledger) ∧
      Climbs p s.db.rows.length u.db.ledger) ?_ ⟨by rw [hn]; simp, ?_⟩
  · exact hinv.2
  · rintro u a v ⟨hsnap, hcl⟩ hC hstep
    obtain ⟨hsnap', hl | ⟨e, now, he, hp, hl⟩⟩ := restartStep_ledger hsnap hC hstep
    · exact ⟨hsnap', hl ▸ hcl⟩
    · exact ⟨hsnap', hl ▸ hcl.append he hp⟩
  · -- at the start nothing has been appended
    have hnone : ∀ (i : ℕ) (e : RestartEntry), s.db.rows.length ≤ i →
        s.db.ledger[i]? ≠ some e := by
      intro i e hi he
      have := (List.getElem?_eq_some_iff.mp he).1
      rw [ledger_length] at this
      omega
    refine ⟨Nat.le_of_eq (ledger_length s.db).symm, ?_, ?_, ?_⟩
    · exact fun i e hi he => absurd he (hnone i e hi)
    · exact fun i e e' hi he => absurd he (hnone i e hi)
    · intro i e hi hlt _
      rw [ledger_length] at hlt
      omega

/-- Entry `n + k` of a climbing ledger counts more than `k` failures. -/
theorem Climbs.failures_gt (h : Climbs p n l)
    (hgap : ∀ (i : ℕ) (e e' : RestartEntry), n ≤ i → l[i]? = some e → l[i + 1]? = some e' →
      e'.startedAt ≤ e.startedAt + p.restartWindow) :
    ∀ (k : ℕ) (e : RestartEntry), l[n + k]? = some e → k < e.failures := by
  intro k
  induction k with
  | zero =>
    intro e he
    exact (h.dated n e (Nat.le_refl n) he).2.1
  | succ k ih =>
    intro e' he'
    have hlt : n + k < l.length := by
      have := (List.getElem?_eq_some_iff.mp he').1
      omega
    have he : l[n + k]? = some l[n + k] := List.getElem?_eq_getElem hlt
    have hstep := h.climb (n + k) _ e' (Nat.le_add_right n k) he he'
      (hgap (n + k) _ e' (Nat.le_add_right n k) he he')
    have hk := ih _ he
    omega

/-- The ceiling bounds what has been appended. -/
theorem Climbs.length_le (h : Climbs p n l) (hmax : 0 < p.maxRestartAttempts)
    (hgap : ∀ (i : ℕ) (e e' : RestartEntry), n ≤ i → l[i]? = some e → l[i + 1]? = some e' →
      e'.startedAt ≤ e.startedAt + p.restartWindow) :
    l.length ≤ n + p.maxRestartAttempts := by
  by_contra hlong
  -- the entry at the ceiling is paused, yet it is not the last one
  have hlt : n + (p.maxRestartAttempts - 1) < l.length := by omega
  have he : l[n + (p.maxRestartAttempts - 1)]? = some l[n + (p.maxRestartAttempts - 1)] :=
    List.getElem?_eq_getElem hlt
  have hcount := h.failures_gt hgap _ _ he
  have hpaused := (h.dated _ _ (Nat.le_add_right n _) he).2.2 (by omega)
  have hunp := h.unpaused _ _ (by omega) (by omega) he
  rw [hpaused] at hunp
  cases hunp

/-- **Restart ceiling.**  Take any interleaving of auto-restart attempts and other writes
    without a `record_success`, in which Phase A lets an attempt through only while the row it
    loaded is still the deployment's latest row, and successive reservations are at most the
    window apart.
    Then the reserved rows count up by exactly one, none is reserved behind a paused row, and
    there are at most `MAX_RESTART_ATTEMPTS` of them. -/
theorem restart_ceiling_of_current {as : List RestartLabel} (hmax : 0 < p.maxRestartAttempts)
    (hn : s.attempts = []) (h : Path (restartSystem p) CurrentContext s as t)
    (hgap : ∀ (i : ℕ) (r r' : NodeRow), s.db.rows.length ≤ i → t.db.rows[i]? = some r →
      t.db.rows[i + 1]? = some r' → r'.startedAt ≤ r.startedAt + p.restartWindow) :
    (∀ (i : ℕ) (r r' : NodeRow), s.db.rows.length ≤ i → t.db.rows[i]? = some r →
        t.db.rows[i + 1]? = some r' →
        r'.consecutiveRespawnFailures = r.consecutiveRespawnFailures + 1) ∧
      (∀ (i : ℕ) (r r' : NodeRow), s.db.rows.length ≤ i + 1 → t.db.rows[i]? = some r →
        t.db.rows[i + 1]? = some r' → r.autoRestartPaused = false) ∧
      t.db.rows.length ≤ s.db.rows.length + p.maxRestartAttempts := by
  have hcl := climbs_of_path hn h
  refine ⟨?_, ?_, ?_⟩
  · intro i r r' hi hr hr'
    exact hcl.climb i r.entry r'.entry hi (ledger_getElem? hr) (ledger_getElem? hr')
      (hgap i r r' hi hr hr')
  · intro i r r' hi hr hr'
    have hlt := (List.getElem?_eq_some_iff.mp hr').1
    exact hcl.unpaused i r.entry hi (by rw [ledger_length]; exact hlt) (ledger_getElem? hr)
  · have hgap' : ∀ (i : ℕ) (e e' : RestartEntry), s.db.rows.length ≤ i →
        t.db.ledger[i]? = some e → t.db.ledger[i + 1]? = some e' →
        e'.startedAt ≤ e.startedAt + p.restartWindow := by
      intro i e e' hi he he'
      rw [Db.ledger, List.getElem?_map] at he he'
      obtain ⟨r, hr, rfl⟩ := Option.map_eq_some_iff.mp he
      obtain ⟨r', hr', rfl⟩ := Option.map_eq_some_iff.mp he'
      exact hgap i r r' hi hr hr'
    rw [← ledger_length]
    exact hcl.length_le hmax hgap'

/-! ### A stale context, and a current one -/

/-- A crashed row with `n` consecutive failures, last restarted at time 0. -/
def crashedRow (n : ℕ) : NodeRow :=
  { freshRow (startRequest 0) queuedDb.dep with
    status := .failed
    failureKind := some FailureKind.nodeCrashed.value
    consecutiveRespawnFailures := n
    lastRestartAt := some 0 }

/-- The deployment after that crash, no attempt in flight. -/
def crashed (n : ℕ) : RestartState where
  db :=
    { dep := queuedDb.dep.setStatus .failed Status.failed_ne_stopping
      rows := [crashedRow n]
      ordered := List.pairwise_singleton _ _
      index := List.pairwise_singleton _ _ }
  attempts := []

/-- The node of row `i` crashes at time `now`. -/
def crash (i now : ℕ) : RestartLabel :=
  .write i (.markTerminal ⟨false, .nodeCrashed, none, 1⟩ now)

/-- The gates of attempt `k` up to a policy decision at time `now`. -/
def gates (k now delay : ℕ) : List RestartLabel :=
  [.attempt k (.halt false), .attempt k (.stopRequested false), .attempt k (.decide now delay)]

/-- The reaper's task backs off on row 0; its jitter is long, the rescan's is short.  The
    rescan reserves row 1 with the fifth failure, row 1 crashes, and the reaper's task
    reserves row 2 with the counters it loaded from row 0. -/
def staleContext : List RestartLabel :=
  .load false :: gates 0 5 100 ++ .load true :: gates 1 65 61 ++
    [.attempt 1 (.reserve "h" 66 .none), crash 1 70, .attempt 0 (.backoff true),
      .attempt 0 (.stopRequested false), .attempt 0 (.reserve "h" 101 .none)]

/-- The gaps of a ledger of three reservations, from the times read off it. -/
theorem gap_of_times {t : RestartState} {t₀ t₁ t₂ w : ℕ}
    (htimes : t.db.rows.map (·.startedAt) = [t₀, t₁, t₂]) (hw : t₂ ≤ t₁ + w) :
    ∀ (i : ℕ) (r r' : NodeRow), 1 ≤ i → t.db.rows[i]? = some r → t.db.rows[i + 1]? = some r' →
      r'.startedAt ≤ r.startedAt + w := by
  intro i r r' hi hr hr'
  have hlen : t.db.rows.length = 3 := by simpa using congrArg List.length htimes
  have hlt := (List.getElem?_eq_some_iff.mp hr').1
  obtain rfl : i = 1 := by omega
  have h1 : (t.db.rows.map (·.startedAt))[1]? = some r.startedAt := by simp [hr]
  have h2 : (t.db.rows.map (·.startedAt))[2]? = some r'.startedAt := by simp [hr']
  rw [htimes] at h1 h2
  have e1 : t₁ = r.startedAt := by simpa using h1
  have e2 : t₂ = r'.startedAt := by simpa using h2
  omega

/-- **The lost update.**  Without the condition on the context the counter need not climb,
    and a row can be reserved behind a paused one. -/
theorem restart_ceiling_fails :
    ¬∀ (s t : RestartState) (as : List RestartLabel), s.attempts = [] →
      Path (restartSystem .default) NoSuccess s as t →
      (∀ (i : ℕ) (r r' : NodeRow), s.db.rows.length ≤ i → t.db.rows[i]? = some r →
        t.db.rows[i + 1]? = some r' →
        r'.startedAt ≤ r.startedAt + RestartPolicy.default.restartWindow) →
      (∀ (i : ℕ) (r r' : NodeRow), s.db.rows.length ≤ i → t.db.rows[i]? = some r →
        t.db.rows[i + 1]? = some r' →
        r'.consecutiveRespawnFailures = r.consecutiveRespawnFailures + 1) ∧
      (∀ (i : ℕ) (r r' : NodeRow), s.db.rows.length ≤ i → t.db.rows[i]? = some r →
        t.db.rows[i + 1]? = some r' → r.autoRestartPaused = false) := by
  intro h
  obtain ⟨t, hrun, htimes, hcount, hcount'⟩ :
      ∃ t, (restartSystem .default).runWhere NoSuccess (crashed 4) staleContext = some t ∧
        t.db.rows.map (·.startedAt) = [0, 66, 101] ∧
        (t.db.rows[1]?).map (·.consecutiveRespawnFailures) = some 5 ∧
        (t.db.rows[2]?).map (·.consecutiveRespawnFailures) = some 5 :=
    ⟨_, rfl, rfl, rfl, rfl⟩
  obtain ⟨r₁, hr₁, h5⟩ := Option.map_eq_some_iff.mp hcount
  obtain ⟨r₂, hr₂, h5'⟩ := Option.map_eq_some_iff.mp hcount'
  obtain ⟨hclimb, _⟩ := h (crashed 4) t staleContext rfl (.of_runWhere hrun)
    (gap_of_times htimes (by decide))
  have hsucc := hclimb 1 r₁ r₂ (by decide) hr₁ hr₂
  omega

/-- The same two attempts, but the reaper's task wakes up while row 1 is still starting: Phase A
    finds the active row and refuses the stale context.  When row 1 has crashed a third attempt
    loads it and reserves row 2. -/
def currentContext : List RestartLabel :=
  .load false :: gates 0 5 100 ++ .load true :: gates 1 65 61 ++
    [.attempt 1 (.reserve "h" 66 .none), .attempt 0 (.backoff true),
      .attempt 0 (.stopRequested false), .attempt 0 (.reserve "h" 101 .none), crash 1 110] ++
    .load true :: gates 2 200 80 ++ [.attempt 2 (.reserve "h" 201 .none)]

/-- The second respawn of this run reaches the ceiling. -/
theorem restart_ceiling_reached :
    ∃ t, Path (restartSystem .default) CurrentContext (crashed 3) currentContext t ∧
      t.db.rows.map (·.consecutiveRespawnFailures) = [3, 4, 5] ∧
      t.db.rows.length ≤ (crashed 3).db.rows.length + RestartPolicy.default.maxRestartAttempts := by
  obtain ⟨t, hrun, htimes, hcounts⟩ :
      ∃ t, (restartSystem .default).runWhere CurrentContext (crashed 3) currentContext = some t ∧
        t.db.rows.map (·.startedAt) = [0, 66, 201] ∧
        t.db.rows.map (·.consecutiveRespawnFailures) = [3, 4, 5] :=
    ⟨_, rfl, rfl, rfl⟩
  have hpath := Path.of_runWhere hrun
  obtain ⟨_, _, hbound⟩ := restart_ceiling_of_current (by decide) rfl hpath
    (gap_of_times htimes (by decide))
  exact ⟨t, hpath, hcounts, hbound⟩

end Msai.Supervisor
