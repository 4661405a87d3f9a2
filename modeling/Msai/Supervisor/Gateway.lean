import Msai.Supervisor.Table

namespace Msai.Supervisor

open Msai.Live Msai.Lib Msai.Lib.TransitionSystem

/-!
# Start-up on a shared gateway

IB Gateway does not survive two nodes that start up at the same time.  Phase A therefore
looks for another deployment in a start-up status on its gateway before it inserts its row,
and takes a transaction-level advisory lock so that check and insert are one step for the
gateway.  Three keys are involved, each a different function of the caller's
`gateway_session_key`: the lock key, the key the guard filters by and the key the row stores.

Here Phase A is not atomic: it takes its locks, queries the other deployments and commits in
three steps, with any other transaction in between.

* `gatewayLockKey`, `startupMatches`, `effectiveGatewayKey` — the three keys;
* `gatewaySystem` — the deployments that share the tables;
* `gateway_exclusive_of_agreeing` — the exclusion, as long as the three keys agree.
-/

/-! ### The keys -/

/-- `_GLOBAL_GATEWAY_LOCK_KEY`. -/
def globalGatewayLockKey : String := "msai:phase-a:global-gateway-lock"

/-- The key of `pg_advisory_xact_lock`. -/
def gatewayLockKey (key : Option String) : String := key.getD globalGatewayLockKey

/-- `startup_filters` on a row of another deployment: without a key the guard is global. -/
def startupMatches (key : Option String) (r : NodeRow) : Bool :=
  r.status.isStartup &&
    match key with
    | none => true
    | some k => r.gatewaySessionKey == k

/-- The stored key depends on the login of the deployment alone. -/
theorem effectiveGatewayKey_congr {key : Option String} {d d' : Deployment}
    (h : d'.ibLoginKey = d.ibLoginKey) :
    effectiveGatewayKey key d' = effectiveGatewayKey key d := by
  simp only [effectiveGatewayKey, h]

/-- A non-empty key is stored as it is. -/
theorem effectiveGatewayKey_some {k : String} {d : Deployment} (h : k ≠ "") :
    effectiveGatewayKey (some k) d = k := by
  simp [effectiveGatewayKey, truthy, h]

/-- Unless the caller's key is empty, the guard sees every start-up row that stores the same
    key as the caller would. -/
theorem startupMatches_of_stored {key : Option String} {d : Deployment} {r : NodeRow}
    (hkey : key ≠ some "") (hs : r.status.isStartup = true)
    (hr : r.gatewaySessionKey = effectiveGatewayKey key d) : startupMatches key r = true := by
  cases key with
  | none => simp [startupMatches, hs]
  | some k =>
    have hk : k ≠ "" := fun he => hkey (by rw [he])
    simp [startupMatches, hs, hr, effectiveGatewayKey_some hk]

/-! ### The system -/

/-- An open Phase A transaction: its arguments and, once it has run, the answer of the
    concurrent-startup query. -/
structure PhaseATx where
  req : SpawnRequest
  other : Option OtherStartup
deriving DecidableEq

/-- One deployment: its rows, and the Phase A transaction that holds the lock of its
    `live_deployments` row. -/
structure DeploymentSlot where
  db : Db
  tx : Option PhaseATx
deriving DecidableEq

/-- A transaction of the table other than Phase A. -/
def Txn.isPhaseA : Txn → Bool
  | .phaseA _ _ => true
  | _ => false

/-- What happens next. -/
inductive GatewayLabel
  /-- Deployment `d`'s Phase A gets the advisory lock and the row lock. -/
  | acquire (d : ℕ) (req : SpawnRequest)
  /-- It runs the concurrent-startup query. -/
  | query (d : ℕ)
  /-- It inserts, or returns a refusal, and commits. -/
  | commit (d : ℕ)
  | rollback (d : ℕ)
  /-- Another writer of deployment `d` commits.  Those that wait for the row lock are not
      held back here. -/
  | other (d : ℕ) (a : Txn)

/-- The transaction would store this key. -/
def PhaseATx.storedKey (tx : PhaseATx) (db : Db) : String :=
  effectiveGatewayKey tx.req.gatewaySessionKey db.dep

/-- An open transaction holds the advisory lock. -/
def holdsLock (s : List DeploymentSlot) (lock : String) : Bool :=
  s.any fun sl => sl.tx.any fun tx => gatewayLockKey tx.req.gatewaySessionKey == lock

/-- The rows the concurrent-startup query of deployment `d` matches. -/
def otherStartupRows (s : List DeploymentSlot) (d : ℕ) (key : Option String) : List NodeRow :=
  (s.zipIdx.filter fun p => p.2 != d).flatMap fun p => p.1.db.rows.filter (startupMatches key)

/-- `scalar_one_or_none` on the concurrent-startup query. -/
def otherStartup (s : List DeploymentSlot) (d : ℕ) (key : Option String) : OtherStartup :=
  match otherStartupRows s d key with
  | [] => .none
  | [_] => .one
  | _ => .many

/-- One step of the deployments. -/
def gatewayStep (policy : Option RestartPolicy) (s : List DeploymentSlot) :
    GatewayLabel → Option (List DeploymentSlot)
  | .acquire d req =>
    (s[d]?).bind fun sl =>
      -- the advisory lock excludes equal lock keys only, the row lock the same deployment
      if sl.tx = none ∧ holdsLock s (gatewayLockKey req.gatewaySessionKey) = false then
        some (s.set d { sl with tx := some ⟨req, none⟩ })
      else none
  | .query d =>
    (s[d]?).bind fun sl => sl.tx.bind fun tx =>
      if tx.other = none then
        some (s.set d
          { sl with tx := some ⟨tx.req, some (otherStartup s d tx.req.gatewaySessionKey)⟩ })
      else none
  | .commit d =>
    -- the gate goes by the answer of the query, however old it is by now
    (s[d]?).bind fun sl => sl.tx.bind fun tx => tx.other.bind fun other =>
      (phaseA policy sl.db tx.req other).map fun out => s.set d { db := out.2, tx := none }
  | .rollback d => (s[d]?).map fun sl => s.set d { sl with tx := none }
  | .other d a =>
    if a.isPhaseA then none
    else (s[d]?).bind fun sl =>
      (tableStep policy sl.db a).map fun db => s.set d { sl with db := db }

/-- The deployments as a transition system. -/
def gatewaySystem (policy : Option RestartPolicy) :
    TransitionSystem (List DeploymentSlot) GatewayLabel where
  step := gatewayStep policy

/-- What a step does to the deployment it names. -/
inductive SlotEffect (policy : Option RestartPolicy) (s : List DeploymentSlot) (d : ℕ)
    (sl : DeploymentSlot) : GatewayLabel → DeploymentSlot → Prop
  | acquire (req : SpawnRequest)
      (hlock : holdsLock s (gatewayLockKey req.gatewaySessionKey) = false) :
      SlotEffect policy s d sl (.acquire d req) { sl with tx := some ⟨req, none⟩ }
  | query (tx : PhaseATx) (htx : sl.tx = some tx) :
      SlotEffect policy s d sl (.query d)
        { sl with tx := some ⟨tx.req, some (otherStartup s d tx.req.gatewaySessionKey)⟩ }
  | commit (tx : PhaseATx) (other : OtherStartup) (o : PhaseAOutcome) (db : Db)
      (htx : sl.tx = some tx) (hother : tx.other = some other)
      (hA : phaseA policy sl.db tx.req other = some (o, db)) :
      SlotEffect policy s d sl (.commit d) { db := db, tx := none }
  | rollback : SlotEffect policy s d sl (.rollback d) { sl with tx := none }
  | other (a : Txn) (db : Db) (ha : a.isPhaseA = false)
      (hstep : tableStep policy sl.db a = some db) :
      SlotEffect policy s d sl (.other d a) { sl with db := db }

section Step

variable {policy : Option RestartPolicy} {s t : List DeploymentSlot} {a : GatewayLabel}

/-- **One deployment a step.** -/
theorem gatewayStep_cases (h : gatewayStep policy s a = some t) :
    ∃ d sl sl', s[d]? = some sl ∧ t = s.set d sl' ∧ SlotEffect policy s d sl a sl' := by
  cases a with
  | acquire d req =>
    obtain ⟨sl, hd, h⟩ := Option.bind_eq_some_iff.mp h
    split at h
    · rename_i hfree
      obtain rfl := Option.some.inj h
      exact ⟨d, sl, _, hd, rfl, .acquire req hfree.2⟩
    · cases h
  | query d =>
    obtain ⟨sl, hd, h⟩ := Option.bind_eq_some_iff.mp h
    obtain ⟨tx, htx, h⟩ := Option.bind_eq_some_iff.mp h
    split at h
    · obtain rfl := Option.some.inj h
      exact ⟨d, sl, _, hd, rfl, .query tx htx⟩
    · cases h
  | commit d =>
    obtain ⟨sl, hd, h⟩ := Option.bind_eq_some_iff.mp h
    obtain ⟨tx, htx, h⟩ := Option.bind_eq_some_iff.mp h
    obtain ⟨other, hother, h⟩ := Option.bind_eq_some_iff.mp h
    obtain ⟨⟨o, db⟩, hA, rfl⟩ := Option.map_eq_some_iff.mp h
    exact ⟨d, sl, _, hd, rfl, .commit tx other o db htx hother hA⟩
  | rollback d =>
    obtain ⟨sl, hd, rfl⟩ := Option.map_eq_some_iff.mp h
    exact ⟨d, sl, _, hd, rfl, .rollback⟩
  | other d b =>
    simp only [gatewayStep] at h
    split at h
    · cases h
    · rename_i hb
      obtain ⟨sl, hd, h⟩ := Option.bind_eq_some_iff.mp h
      obtain ⟨db, hdb, rfl⟩ := Option.map_eq_some_iff.mp h
      exact ⟨d, sl, _, hd, rfl, .other b db (by simpa using hb) hdb⟩

end Step

/-! ### The exclusion -/

namespace DeploymentSlot

/-- The deployment has a row in a start-up status on this gateway session. -/
def startsOn (sl : DeploymentSlot) (key : String) : Prop :=
  ∃ r ∈ sl.db.rows, r.status.isStartup = true ∧ r.gatewaySessionKey = key

/-- The deployment has an open Phase A transaction that would store this key. -/
def reserving (sl : DeploymentSlot) (key : String) : Prop :=
  ∃ tx, sl.tx = some tx ∧ tx.storedKey sl.db = key

/-- Its query has found nobody else. -/
def cleared (sl : DeploymentSlot) (key : String) : Prop :=
  ∃ tx, sl.tx = some tx ∧ tx.other = some .none ∧ tx.storedKey sl.db = key

theorem cleared.reserving {sl : DeploymentSlot} {key : String} (h : sl.cleared key) :
    sl.reserving key := by
  obtain ⟨tx, htx, _, hkey⟩ := h
  exact ⟨tx, htx, hkey⟩

end DeploymentSlot

/-- No two deployments are in start-up on one gateway session. -/
def GatewayExclusive (s : List DeploymentSlot) : Prop :=
  ∀ (d d' : ℕ) (sl sl' : DeploymentSlot) (key : String), s[d]? = some sl → s[d']? = some sl' →
    sl.startsOn key → sl'.startsOn key → d = d'

/-- A transaction with the same stored key is open under another lock key: one of the two
    callers passed no key. -/
def mixedKeys (s : List DeploymentSlot) (d : ℕ) (req : SpawnRequest) : Bool :=
  (s[d]?).any fun sl => s.any fun sl' => sl'.tx.any fun tx =>
    tx.storedKey sl'.db == effectiveGatewayKey req.gatewaySessionKey sl.db.dep &&
      gatewayLockKey tx.req.gatewaySessionKey != gatewayLockKey req.gatewaySessionKey

/-- The keys of a caller agree: it passes no empty key, and no keyed and un-keyed
    transaction of one gateway are open together.  And no child writes itself back into
    start-up. -/
def KeysAgree (s : List DeploymentSlot) : GatewayLabel → Prop
  | .acquire d req => req.gatewaySessionKey ≠ some "" ∧ mixedKeys s d req = false
  | .other d (.write i w) =>
    w.isUnguarded = true →
      ((s[d]?).bind fun sl => sl.db.rows[i]?).all (·.status.isStartup) = true
  | _ => True

instance (s : List DeploymentSlot) (a : GatewayLabel) : Decidable (KeysAgree s a) :=
  match a with
  | .acquire d req =>
    inferInstanceAs (Decidable (req.gatewaySessionKey ≠ some "" ∧ mixedKeys s d req = false))
  | .other d (.write i w) =>
    inferInstanceAs (Decidable (w.isUnguarded = true →
      ((s[d]?).bind fun sl => sl.db.rows[i]?).all (·.status.isStartup) = true))
  | .other _ (.phaseA _ _) | .other _ (.stop _ _) | .other _ (.apiStart _)
  | .other _ (.apiStatus _ _) | .query _ | .commit _ | .rollback _ => isTrue trivial

/-- Two deployments do not stand in each other's way. -/
structure Apart (sl sl' : DeploymentSlot) : Prop where
  starts : ∀ key, sl.startsOn key → ¬sl'.startsOn key
  reserve : ∀ key, sl.reserving key → ¬sl'.reserving key
  clear : ∀ key, sl.cleared key → ¬sl'.startsOn key
  clear' : ∀ key, sl'.cleared key → ¬sl.startsOn key

theorem Apart.symm {sl sl' : DeploymentSlot} (h : Apart sl sl') : Apart sl' sl :=
  ⟨fun key h1 h2 => h.starts key h2 h1, fun key h1 h2 => h.reserve key h2 h1, h.clear', h.clear⟩

/-- The invariant of the deployments. -/
structure GatewayInv (s : List DeploymentSlot) : Prop where
  keyed : ∀ (d : ℕ) (sl : DeploymentSlot) (tx : PhaseATx), s[d]? = some sl → sl.tx = some tx →
    tx.req.gatewaySessionKey ≠ some ""
  apart : ∀ (d d' : ℕ) (sl sl' : DeploymentSlot), d ≠ d' → s[d]? = some sl → s[d']? = some sl' →
    Apart sl sl'

section Safety

variable {policy : Option RestartPolicy} {s t : List DeploymentSlot} {a : GatewayLabel} {d d' : ℕ}
  {sl sl' new : DeploymentSlot}

/-- It is enough to look at the deployment a step changes. -/
theorem GatewayInv.set (h : GatewayInv s)
    (hkeyed : ∀ tx, new.tx = some tx → tx.req.gatewaySessionKey ≠ some "")
    (hapart : ∀ (d' : ℕ) (sl' : DeploymentSlot), d ≠ d' → s[d']? = some sl' → Apart new sl') :
    GatewayInv (s.set d new) := by
  refine ⟨?_, ?_⟩
  · intro j q tx hq htx
    rcases getElem?_set_cases hq with ⟨_, rfl⟩ | ⟨_, hq⟩
    · exact hkeyed tx htx
    · exact h.keyed j q tx hq htx
  · intro j j' q q' hne hq hq'
    rcases getElem?_set_cases hq with ⟨hj, hnew⟩ | ⟨hj, hold⟩ <;>
      rcases getElem?_set_cases hq' with ⟨hj', hnew'⟩ | ⟨hj', hold'⟩
    · exact absurd (hj.trans hj'.symm) hne
    · rw [hnew]
      exact hapart j' q' (hj ▸ hne) hold'
    · rw [hnew']
      exact (hapart j q (Ne.symm hj) hold).symm
    · exact h.apart j j' q q' hne hold hold'

/-- A deployment that starts, reserves and clears no more than before stays apart. -/
theorem Apart.shrink (h : Apart sl sl') (hstarts : ∀ key, new.startsOn key → sl.startsOn key)
    (hreserve : ∀ key, new.reserving key → sl.reserving key)
    (hclear : ∀ key, new.cleared key → sl.cleared key) : Apart new sl' :=
  ⟨fun key h1 => h.starts key (hstarts key h1), fun key h1 => h.reserve key (hreserve key h1),
    fun key h1 => h.clear key (hclear key h1), fun key h1 h2 => h.clear' key h1 (hstarts key h2)⟩

/-- No transaction changes the login of the deployment. -/
theorem tableStep_ibLoginKey {db db' : Db} {b : Txn} (h : tableStep policy db b = some db') :
    db'.dep.ibLoginKey = db.dep.ibLoginKey := by
  have hwrite : ∀ {i : ℕ} {w : RowWrite} {db' : Db}, db.write i w = some db' →
      db'.dep.ibLoginKey = db.dep.ibLoginKey := by
    intro i w db' hw
    rcases Db.write_eq_some hw with ⟨_, rfl⟩ | ⟨r, _, _, hdep⟩
    · rfl
    · rw [hdep, RowWrite.dep_ibLoginKey]
  cases b with
  | phaseA req other =>
    obtain ⟨⟨o, db₁⟩, hA, rfl⟩ := Option.map_eq_some_iff.mp h
    rcases phaseA_cases hA with ⟨rfl, _⟩ | ⟨_, _, _, _, hdep⟩
    · rfl
    · show db₁.dep.ibLoginKey = _
      rw [hdep, reservedDep]
      split <;> rfl
  | stop host now =>
    obtain ⟨⟨res, db₁⟩, hS, rfl⟩ := Option.map_eq_some_iff.mp h
    rcases stopTxn_cases hS with ⟨i, r, _, _, _, _, hw⟩ | ⟨_, _, rfl⟩ | ⟨_, _, hcase⟩
    · exact hwrite hw
    · rfl
    · rcases hcase with ⟨_, rfl⟩ | ⟨_, _, hw⟩ | ⟨_, _, rfl⟩
      · rfl
      · exact hwrite hw
      · show (stopPreActive db now).dep.ibLoginKey = _
        unfold stopPreActive
        split <;> rfl
  | write i w => exact hwrite h
  | apiStart now =>
    obtain rfl := Option.some.inj h
    show (apiStartDep db.dep now).ibLoginKey = _
    unfold apiStartDep
    split <;> rfl
  | apiStatus st hst =>
    obtain rfl := Option.some.inj h
    rfl

/-- A start-up row after a transaction other than Phase A was one before. -/
theorem startup_of_txn {db db' : Db} {b : Txn} {r' : NodeRow}
    (hC : ∀ i w, b = .write i w → w.isUnguarded = true →
      (db.rows[i]?).all (·.status.isStartup) = true)
    (hb : b.isPhaseA = false) (h : tableStep policy db b = some db') (hr' : r' ∈ db'.rows)
    (hs : r'.status.isStartup = true) :
    ∃ r ∈ db.rows, r.status.isStartup = true ∧ r.gatewaySessionKey = r'.gatewaySessionKey := by
  rcases tableStep_cases h with hrows | ⟨req, other, rfl, _⟩ | ⟨i, w, hw, hu⟩
  · exact ⟨r', hrows ▸ hr', hs, rfl⟩
  · cases hb
  · obtain ⟨j, hj⟩ := List.mem_iff_getElem?.mp hr'
    have hlt : j < db.rows.length := Db.write_length hw ▸ (List.getElem?_eq_some_iff.mp hj).1
    have hr := List.getElem?_eq_getElem hlt
    have hmem : db.rows[j] ∈ db.rows := List.getElem_mem hlt
    rcases Db.write_getElem?_cases hw hr with hsame | ⟨rfl, hnew⟩
    · obtain rfl : db.rows[j] = r' := by simpa [hsame] using hj
      exact ⟨_, hmem, hs, rfl⟩
    · obtain rfl : w.row (db.context j db.rows[j]) db.rows[j] = r' := by simpa [hnew] using hj
      refine ⟨_, hmem, RowWrite.row_isStartup ?_ hs, (RowWrite.row_gatewaySessionKey w _ _).symm⟩
      by_cases hug : w.isUnguarded = true
      · have hst := hC j w (hu hug) hug
        rw [hr] at hst
        exact Or.inr hst
      · exact Or.inl (by simpa using hug)

/-- The query of a caller without an empty key finds every start-up row of its gateway. -/
theorem not_startsOn_of_otherStartup {key : Option String} {dep : Deployment}
    (hkey : key ≠ some "") (h : otherStartup s d key = .none) (hne : d ≠ d')
    (hd' : s[d']? = some sl') : ¬sl'.startsOn (effectiveGatewayKey key dep) := by
  rintro ⟨r, hr, hs, hk⟩
  have hnil : otherStartupRows s d key = [] := by
    unfold otherStartup at h
    split at h <;> first | assumption | cases h
  have hmem : (sl', d') ∈ s.zipIdx.filter fun p => p.2 != d := by
    refine List.mem_filter.mpr ⟨List.mem_zipIdx_iff_getElem?.mpr hd', ?_⟩
    simpa using Ne.symm hne
  have hfilter := List.flatMap_eq_nil_iff.mp hnil (sl', d') hmem
  exact List.filter_eq_nil_iff.mp hfilter r hr (startupMatches_of_stored hkey hs hk)

/-- Taking the locks: the advisory lock keeps out every open transaction of the gateway. -/
theorem GatewayInv.acquire {req : SpawnRequest} (h : GatewayInv s) (hd : s[d]? = some sl)
    (hC : KeysAgree s (.acquire d req))
    (hlock : holdsLock s (gatewayLockKey req.gatewaySessionKey) = false) :
    GatewayInv (s.set d { sl with tx := some ⟨req, none⟩ }) := by
  refine h.set ?_ ?_
  · intro tx htx
    obtain rfl := Option.some.inj htx
    exact hC.1
  · intro d' sl' hne hd'
    have hap := h.apart d d' sl sl' hne hd hd'
    have hmem := List.mem_of_getElem? hd'
    refine ⟨hap.starts, ?_, ?_, hap.clear'⟩
    · rintro key ⟨tx, htx, rfl⟩ ⟨tx', htx', hkey⟩
      obtain rfl := Option.some.inj htx
      -- the other transaction holds a different lock, so its caller is of the other kind
      have hdiff : gatewayLockKey tx'.req.gatewaySessionKey
          ≠ gatewayLockKey req.gatewaySessionKey := by
        intro he
        have hheld : holdsLock s (gatewayLockKey req.gatewaySessionKey) = true :=
          List.any_eq_true.mpr ⟨sl', hmem, by simp [htx', he]⟩
        rw [hlock] at hheld
        cases hheld
      have hmixed : mixedKeys s d req = true := by
        simp only [mixedKeys, hd, Option.any_some]
        refine List.any_eq_true.mpr ⟨sl', hmem, ?_⟩
        simp only [htx', Option.any_some, Bool.and_eq_true, beq_iff_eq, bne_iff_ne]
        exact ⟨hkey, hdiff⟩
      rw [hC.2] at hmixed
      cases hmixed
    · rintro key ⟨tx, htx, hnone, _⟩
      obtain rfl := Option.some.inj htx
      cases hnone

/-- The query: what it does not find is not there. -/
theorem GatewayInv.query {tx : PhaseATx} (h : GatewayInv s) (hd : s[d]? = some sl)
    (htx : sl.tx = some tx) :
    GatewayInv (s.set d
      { sl with tx := some ⟨tx.req, some (otherStartup s d tx.req.gatewaySessionKey)⟩ }) := by
  have hkeyed := h.keyed d sl tx hd htx
  refine h.set ?_ ?_
  · intro tx' htx'
    obtain rfl := Option.some.inj htx'
    exact hkeyed
  · intro d' sl' hne hd'
    have hap := h.apart d d' sl sl' hne hd hd'
    refine ⟨hap.starts, ?_, ?_, hap.clear'⟩
    · -- the stored key is the one it had before the query
      rintro key ⟨tx', htx', rfl⟩
      obtain rfl := Option.some.inj htx'
      exact hap.reserve _ ⟨tx, htx, rfl⟩
    · rintro key ⟨tx', htx', hnone, rfl⟩
      obtain rfl := Option.some.inj htx'
      exact not_startsOn_of_otherStartup hkeyed (Option.some.inj hnone) hne hd'

/-- The commit: the new row is alone on its gateway, and whoever else is cleared is cleared
    for another one. -/
theorem GatewayInv.commit {tx : PhaseATx} {other : OtherStartup} {o : PhaseAOutcome} {db : Db}
    (h : GatewayInv s) (hd : s[d]? = some sl) (htx : sl.tx = some tx)
    (hother : tx.other = some other) (hA : phaseA policy sl.db tx.req other = some (o, db)) :
    GatewayInv (s.set d { db := db, tx := none }) := by
  have hstarts : ∀ key, ({ db := db, tx := none } : DeploymentSlot).startsOn key →
      sl.startsOn key ∨ sl.cleared key := by
    rintro key ⟨r, hr, hs, hk⟩
    rcases phaseA_cases hA with ⟨rfl, _⟩ | ⟨_, hgate, _, hrows, _⟩
    · exact Or.inl ⟨r, hr, hs, hk⟩
    · rcases List.mem_append.mp (hrows ▸ hr) with hold | hnew
      · exact Or.inl ⟨r, hold, hs, hk⟩
      · -- the inserted row: the gate was open, so the query had found nobody
        obtain rfl := List.mem_singleton.mp hnew
        obtain ⟨_, _, _, _, rfl⟩ := phaseAGate_eq_none hgate
        exact Or.inr ⟨tx, htx, hother, by rw [← hk, reservedRow_gatewaySessionKey]; rfl⟩
  refine h.set (fun tx' htx' => by cases htx') ?_
  intro d' sl' hne hd'
  have hap := h.apart d d' sl sl' hne hd hd'
  refine ⟨?_, ?_, ?_, ?_⟩
  · intro key hnew
    rcases hstarts key hnew with hold | hclear
    · exact hap.starts key hold
    · exact hap.clear key hclear
  · rintro key ⟨tx', htx', _⟩
    cases htx'
  · rintro key ⟨tx', htx', _⟩
    cases htx'
  · -- two transactions cleared for one key would both be open on it
    intro key hclear' hnew
    rcases hstarts key hnew with hold | hclear
    · exact hap.clear' key hclear' hold
    · exact hap.reserve key hclear.reserving hclear'.reserving

/-- Any other writer. -/
theorem GatewayInv.other {b : Txn} {db : Db} (h : GatewayInv s) (hd : s[d]? = some sl)
    (hC : KeysAgree s (.other d b)) (hb : b.isPhaseA = false)
    (hstep : tableStep policy sl.db b = some db) : GatewayInv (s.set d { sl with db := db }) := by
  have hlogin := tableStep_ibLoginKey hstep
  have hguard : ∀ i w, b = .write i w → w.isUnguarded = true →
      (sl.db.rows[i]?).all (·.status.isStartup) = true := by
    intro i w hbw hu
    subst hbw
    have hall := hC hu
    rw [hd, Option.bind_some] at hall
    exact hall
  have hkey : ∀ tx : PhaseATx, tx.storedKey db = tx.storedKey sl.db :=
    fun tx => effectiveGatewayKey_congr hlogin
  refine h.set (fun tx htx => h.keyed d sl tx hd htx) ?_
  intro d' sl' hne hd'
  refine (h.apart d d' sl sl' hne hd hd').shrink ?_ ?_ ?_
  · rintro key ⟨r', hr', hs, hk⟩
    obtain ⟨r, hr, hs₀, hk₀⟩ := startup_of_txn hguard hb hstep hr' hs
    exact ⟨r, hr, hs₀, hk₀.trans hk⟩
  · rintro key ⟨tx, htx, hk⟩
    exact ⟨tx, htx, (hkey tx).symm.trans hk⟩
  · rintro key ⟨tx, htx, hnone, hk⟩
    exact ⟨tx, htx, hnone, (hkey tx).symm.trans hk⟩

/-- **The step lemma.** -/
theorem GatewayInv.step (h : GatewayInv s) (hC : KeysAgree s a)
    (hs : gatewayStep policy s a = some t) : GatewayInv t := by
  obtain ⟨d, sl, new, hd, rfl, heff⟩ := gatewayStep_cases hs
  cases heff with
  | acquire req hlock => exact h.acquire hd hC hlock
  | query tx htx => exact h.query hd htx
  | commit tx other o db htx hother hA => exact h.commit hd htx hother hA
  | rollback =>
    refine h.set (fun tx htx => by cases htx) fun d' sl' hne hd' => ?_
    refine (h.apart d d' sl sl' hne hd hd').shrink (fun _ => id) ?_ ?_
    · rintro key ⟨tx, htx, _⟩
      cases htx
    · rintro key ⟨tx, htx, _⟩
      cases htx
  | other b db hb hstep => exact h.other hd hC hb hstep

/-- **Start-up exclusion.**  In every run from a table without a collision in which the keys
    of the callers agree, no two deployments are in `starting`, `building` or `ready` on one
    gateway session. -/
theorem gateway_exclusive_of_agreeing {as : List GatewayLabel}
    (h : Path (gatewaySystem policy) KeysAgree s as t) (h0 : GatewayExclusive s)
    (hidle : ∀ sl ∈ s, sl.tx = none) : GatewayExclusive t := by
  have hno : ∀ (d : ℕ) (sl : DeploymentSlot) (key : String), s[d]? = some sl →
      ¬sl.reserving key := by
    rintro d sl key hd ⟨tx, htx, _⟩
    rw [hidle sl (List.mem_of_getElem? hd)] at htx
    cases htx
  have hinv : GatewayInv t := by
    refine h.invariant (fun _ _ _ hi hC hs => hi.step hC hs) ⟨?_, ?_⟩
    · intro d sl tx hd htx
      exact absurd ⟨tx, htx, rfl⟩ (hno d sl _ hd)
    · intro d d' sl sl' hne hd hd'
      exact ⟨fun key h1 h2 => hne (h0 d d' sl sl' key hd hd' h1 h2),
        fun key h1 => absurd h1 (hno d sl key hd),
        fun key h1 => absurd h1.reserving (hno d sl key hd),
        fun key h1 => absurd h1.reserving (hno d' sl' key hd')⟩
  intro d d' sl sl' key hd hd' hstarts hstarts'
  by_contra hne
  exact (hinv.apart d d' sl sl' hne hd hd').starts key hstarts hstarts'

end Safety

/-! ### Two starts on one login -/

/-- A deployment of login `"login-a"` whose START is queued. -/
def queuedSlot : DeploymentSlot where
  db := queuedDb.setDep { queuedDb.dep with ibLoginKey := some "login-a" }
  tx := none

/-- Deployments without rows do not collide. -/
theorem gatewayExclusive_queued : GatewayExclusive [queuedSlot, queuedSlot] := by
  rintro d d' sl sl' key hd _ ⟨r, hr, _⟩ _
  obtain rfl : sl = queuedSlot := by simpa using List.mem_of_getElem? hd
  cases hr

/-- The same START with the key of the login. -/
def keyedRequest (now : ℕ) : SpawnRequest :=
  { startRequest now with gatewaySessionKey := some "login-a" }

/-- **The slip.**  A START without a key takes the global lock and a START of the same login
    the lock of its key.  Both query before either commits, and both rows store
    `"login-a"`. -/
theorem gateway_exclusive_fails :
    ¬∀ (s t : List DeploymentSlot) (as : List GatewayLabel),
      Path (gatewaySystem none) anyStep s as t → GatewayExclusive s →
      (∀ sl ∈ s, sl.tx = none) → GatewayExclusive t := by
  intro h
  obtain ⟨t, hrun, h0, h1⟩ :
      ∃ t, (gatewaySystem none).run [queuedSlot, queuedSlot]
          [.acquire 0 (keyedRequest 1), .acquire 1 (startRequest 1), .query 0, .query 1,
            .commit 0, .commit 1] = some t ∧
        (t[0]?).map (fun sl => sl.db.rows.map fun r => (r.status, r.gatewaySessionKey))
          = some [(.starting, "login-a")] ∧
        (t[1]?).map (fun sl => sl.db.rows.map fun r => (r.status, r.gatewaySessionKey))
          = some [(.starting, "login-a")] :=
    ⟨_, rfl, rfl, rfl⟩
  have hstarts : ∀ (d : ℕ), (t[d]?).map (fun sl => sl.db.rows.map fun r =>
      (r.status, r.gatewaySessionKey)) = some [(.starting, "login-a")] →
      ∃ sl, t[d]? = some sl ∧ sl.startsOn "login-a" := by
    intro d hd
    obtain ⟨sl, hsl, hrows⟩ := Option.map_eq_some_iff.mp hd
    obtain ⟨r, hr, hval⟩ := List.exists_of_mem_map (hrows ▸ List.mem_singleton_self _)
    obtain ⟨hst, hkey⟩ := Prod.mk.inj hval
    exact ⟨sl, hsl, r, hr, by rw [hst]; rfl, hkey⟩
  obtain ⟨sl, hsl, hon⟩ := hstarts 0 h0
  obtain ⟨sl', hsl', hon'⟩ := hstarts 1 h1
  have hexcl := h _ t _ (.of_run hrun) gatewayExclusive_queued (by decide)
  exact absurd (hexcl 0 1 sl sl' _ hsl hsl' hon hon') (by decide)

/-- The second start is refused while the first node comes up and goes through when it is
    running. -/
def startInTurn : List GatewayLabel :=
  [.acquire 0 (keyedRequest 1), .query 0, .commit 0,
    .acquire 1 (startRequest 2), .query 1, .commit 1,
    .other 0 (.write 0 (.selfWritePid 7 3)), .other 0 (.write 0 (.markReady 4)),
    .other 0 (.write 0 (.markRunning 5)),
    .acquire 1 (startRequest 6), .query 1, .commit 1]

/-- One after the other, a keyed and an un-keyed start exclude each other. -/
theorem gateway_exclusive_in_turn :
    ∃ t, Path (gatewaySystem none) KeysAgree [queuedSlot, queuedSlot] startInTurn t ∧
      t.map (fun sl => sl.db.rows.map (·.status)) = [[.running], [.starting]] ∧
      GatewayExclusive t := by
  obtain ⟨t, hrun, hrows⟩ :
      ∃ t, (gatewaySystem none).runWhere KeysAgree [queuedSlot, queuedSlot] startInTurn
          = some t ∧
        t.map (fun sl => sl.db.rows.map (·.status)) = [[.running], [.starting]] :=
    ⟨_, rfl, rfl⟩
  have hpath := Path.of_runWhere hrun
  exact ⟨t, hpath, hrows, gateway_exclusive_of_agreeing hpath gatewayExclusive_queued (by decide)⟩

end Msai.Supervisor
