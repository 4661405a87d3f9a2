import Msai.Supervisor.Fleet

namespace Msai.Api

open Msai.Live Msai.Lib Msai.Lib.TransitionSystem Msai.Supervisor

/-!
# Broker accounts under starts, rotations and archives
(`services/live/broker_account_service.py`, `deployment_account_resolver.py`, `api/live.py`)

`/start-portfolio` validates the credentials of a broker account without a lock, and then locks
the account row, re-asserts that it is active and that its version is the validated one, and
upserts the deployment in the same transaction.  `archive` takes the same lock and refuses while
a deployment of the account is in an active status.  Neither is in the way of a spawn: Phase A,
the payload factory and the gates before `process.start` never read the account row.

* `BrokerAccount`, `BrokerAccount.rotate`, `archiveBlocked` — the account rows;
* `resolveAccount`, `validateCredentials`, `finalTxn` — the three stages of a start;
* `accountStep` — the starts, the account service, and the supervisors of all deployments;
* `AccountGuarded` — the condition on Phase A and on `archive`;
* `archived_account_starts_nothing` — then no process is started for an archived account, and
  every start stamps the current version.
-/

/-! ### The account rows -/

/-- `BrokerAccountStatus`. -/
inductive AccountStatus
  | active
  | archived
deriving DecidableEq, Repr

/-- `CredentialsBackend`. -/
inductive CredentialsBackend
  | azureKv
  | env
  | legacyEnv
deriving DecidableEq, Repr

/-- A `broker_accounts` row; its primary key is its position in the table. -/
structure BrokerAccount where
  ibAccountId : String
  ibLoginKey : String
  status : AccountStatus
  credentialsBackend : CredentialsBackend
  /-- `NULL` for `legacy_env` rows. -/
  credentialsSecretVersion : Option String
deriving DecidableEq, Repr

/-- `rotate` behind its archived check: the store's new version, and a `legacy_env` row is
    promoted to the service's backend. -/
def BrokerAccount.rotate (b : BrokerAccount) (backend : CredentialsBackend) (version : String) :
    BrokerAccount :=
  { b with
    credentialsBackend :=
      if b.credentialsBackend = .legacyEnv then backend else b.credentialsBackend
    credentialsSecretVersion := some version }

/-- A deployment with its supervisor and the columns that link it to an account. -/
structure LinkedDeployment where
  fleet : Fleet
  /-- The `live_deployments` row exists. -/
  inserted : Bool
  brokerAccountId : Option ℕ
  credentialsValidatedVersion : Option String
deriving DecidableEq

/-- The account the deployment is linked to is archived. -/
def linkedArchived (accounts : List BrokerAccount) (x : LinkedDeployment) : Bool :=
  (x.brokerAccountId.bind fun i => accounts[i]?).any (·.status == .archived)

/-! ### The stages of a start -/

/-- Where a `/start-portfolio` request stands. -/
inductive StartPc
  /-- The account is resolved; `legacy` is what the request has read of its backend. -/
  | validating (account : ℕ) (legacy : Bool)
  /-- Before the final critical section.  Without an account the request restarts a deployment
      that predates the registry. -/
  | committing (account : Option ℕ) (validated : Option String)
  | finished
deriving DecidableEq, Repr

/-- A request for deployment `target`. -/
structure StartRequest where
  target : ℕ
  pc : StartPc
deriving DecidableEq, Repr

/-- The row has the identity the deployment was derived from.  Otherwise the request is one for
    another deployment. -/
def BrokerAccount.identifies (b : BrokerAccount) (d : Deployment) : Bool :=
  d.accountId == some b.ibAccountId && d.ibLoginKey == some b.ibLoginKey

/-- `resolve_active_broker_account` by primary key. -/
def activeById (accounts : List BrokerAccount) (i : ℕ) : Option ℕ :=
  if (accounts[i]?).any (·.status == .active) then some i else none

/-- `resolve_active_broker_account` by `ib_account_id`. -/
def activeByIbAccount (accounts : List BrokerAccount) (ib : Option String) : Option ℕ :=
  accounts.findIdx? fun b => some b.ibAccountId == ib && b.status == .active

/-- `_resolve_effective_account` for a request with a `broker_account_id` or with the legacy
    strings.  `none` is a 422, `some none` the path without an account. -/
def resolveAccount (accounts : List BrokerAccount) (x : LinkedDeployment) :
    Option ℕ → Option (Option ℕ)
  | some i => (activeById accounts i).map some
  | none =>
    let byIbAccount := (activeByIbAccount accounts x.fleet.db.dep.accountId).map some
    if x.inserted then
      match x.brokerAccountId with
      -- a linked deployment does not get around its account
      | some j => (activeById accounts j).map some
      | none =>
        if accounts.any fun b => some b.ibAccountId == x.fleet.db.dep.accountId then byIbAccount
        else some none
    else byIbAccount

/-- `validate_account_credentials`: the version that was read, or `none` for a refusal.
    `readable` is the answer of the credential store. -/
def validateCredentials (accounts : List BrokerAccount) (i : ℕ) (legacy readable : Bool) :
    Option (Option String) :=
  if legacy then some none
  else
    (accounts[i]?).bind fun b =>
      -- `resolve_for_spawn` refreshes the row, without a lock
      if b.status = .archived then none
      else if b.credentialsBackend = .legacyEnv then (if readable then some none else none)
      else
        b.credentialsSecretVersion.bind fun v => if readable then some (some v) else none

/-- Why the final transaction is rolled back. -/
inductive StartError
  /-- 422 `DEPLOY_VALIDATION_FAILED`. -/
  | archived
  /-- 409 `BROKER_ACCOUNT_CREDENTIALS_ROTATED`. -/
  | credentialsRotated
  /-- 422 `LIVE_DEPLOY_CONFLICT`. -/
  | conflict
deriving DecidableEq, Repr

/-- The upsert of the deployment row; the link and the stamp are written only for a request
    with an account. -/
def upsertDeployment (x : LinkedDeployment) (account : Option ℕ) (validated : Option String)
    (now : ℕ) : LinkedDeployment :=
  { fleet := { x.fleet with db := x.fleet.db.setDep (apiStartDep x.fleet.db.dep now) }
    inserted := true
    brokerAccountId := account.or x.brokerAccountId
    credentialsValidatedVersion :=
      if account.isSome then validated else x.credentialsValidatedVersion }

/-- The final critical section: `lock_and_assert_account_active`, the comparison of the
    versions, the collision check and the upsert, in one transaction. -/
def finalTxn (accounts : List BrokerAccount) (x : LinkedDeployment) (account : Option ℕ)
    (validated : Option String) (now : ℕ) (collision : Bool) :
    Except StartError LinkedDeployment :=
  let upsert : Except StartError LinkedDeployment :=
    if collision then .error .conflict else .ok (upsertDeployment x account validated now)
  match account with
  | none => upsert
  | some i =>
    match accounts[i]? with
    | none => .error .archived
    | some b =>
      if b.status ≠ .active then .error .archived
      else if b.credentialsSecretVersion ≠ validated then .error .credentialsRotated
      else upsert

/-! ### The system -/

/-- The account rows, the deployments and the start requests in flight. -/
structure AccountSite where
  accounts : List BrokerAccount
  deployments : List LinkedDeployment
  starts : List StartRequest
deriving DecidableEq

/-- What happens next. -/
inductive AccountLabel
  /-- A new start: the account it names, and the answer of the row-state and route checks. -/
  | resolve (d : ℕ) (byId : Option ℕ) (rowStateOk : Bool)
  | validate (k : ℕ) (readable : Bool)
  | commit (k now : ℕ) (collision : Bool)
  | archive (i : ℕ)
  | rotate (i : ℕ) (backend : CredentialsBackend) (version : String)
  | register (account : BrokerAccount)
  /-- A step of the supervisor or of a child of deployment `d`: START deliveries and
      redeliveries, crashes, restarts. -/
  | fleet (d : ℕ) (a : FleetLabel)

/-- The active-deployment check of `archive`, by `account_id` alone. -/
def archiveBlocked (s : AccountSite) (b : BrokerAccount) : Bool :=
  s.deployments.any fun x =>
    x.inserted && x.fleet.db.dep.accountId == some b.ibAccountId
      && x.fleet.db.dep.status.isActive

/-- The first stage of a start.  `none` when the request is refused. -/
def startResolved (s : AccountSite) (d : ℕ) (x : LinkedDeployment) (byId : Option ℕ)
    (rowStateOk : Bool) : Option StartRequest :=
  (resolveAccount s.accounts x byId).bind fun
    | none => some { target := d, pc := .committing none none }
    | some i =>
      (s.accounts[i]?).bind fun b =>
        if rowStateOk && b.identifies x.fleet.db.dep then
          some
            { target := d
              pc := .validating i (b.credentialsBackend == .legacyEnv) }
        else none

/-- The upsert is a step of the start request, not of the fleet. -/
def isApiStart : FleetLabel → Bool
  | .apiStart _ => true
  | _ => false

/-- One step of the site.  Deployment `d` runs on host `host d`. -/
def accountStep (host : ℕ → String) (policy : Option RestartPolicy) (s : AccountSite) :
    AccountLabel → Option AccountSite
  | .resolve d byId rowStateOk =>
    (s.deployments[d]?).bind fun x =>
      (startResolved s d x byId rowStateOk).map fun rq => { s with starts := s.starts ++ [rq] }
  | .validate k readable =>
    (s.starts[k]?).bind fun rq =>
      match rq.pc with
      | .validating i legacy =>
        let pc := match validateCredentials s.accounts i legacy readable with
          | some version => StartPc.committing (some i) version
          | none => .finished
        some { s with starts := s.starts.set k { rq with pc := pc } }
      | _ => none
  | .commit k now collision =>
    (s.starts[k]?).bind fun rq =>
      match rq.pc with
      | .committing account validated =>
        (s.deployments[rq.target]?).map fun x =>
          { s with
            deployments :=
              match finalTxn s.accounts x account validated now collision with
              | .ok x' => s.deployments.set rq.target x'
              | .error _ => s.deployments
            starts := s.starts.set k { rq with pc := .finished } }
      | _ => none
  | .archive i =>
    (s.accounts[i]?).map fun b =>
      -- `AccountInUseError` leaves the row alone
      if archiveBlocked s b then s
      else { s with accounts := s.accounts.set i { b with status := .archived } }
  | .rotate i backend version =>
    (s.accounts[i]?).map fun b =>
      if b.status = .archived then s
      else { s with accounts := s.accounts.set i (b.rotate backend version) }
  | .register b =>
    -- `uq_broker_accounts_active_ib_account_id`
    if b.status = .active ∧ activeByIbAccount s.accounts (some b.ibAccountId) = none then
      some { s with accounts := s.accounts ++ [b] }
    else none
  | .fleet d a =>
    if isApiStart a then none
    else (s.deployments[d]?).bind fun x =>
      (fleetStep (host d) policy x.fleet a).map fun f =>
        { s with deployments := s.deployments.set d { x with fleet := f } }

/-- The site as a transition system. -/
def accountSystem (host : ℕ → String) (policy : Option RestartPolicy) :
    TransitionSystem AccountSite AccountLabel where
  step := accountStep host policy

/-- Supervisors that have just come up, before any request. -/
def AccountSite.initial (accounts : List BrokerAccount)
    (rows : List (Db × Bool × Option ℕ × Option String)) : AccountSite :=
  { accounts := accounts
    deployments := rows.map fun p =>
      { fleet := Fleet.initial p.1
        inserted := p.2.1
        brokerAccountId := p.2.2.1
        credentialsValidatedVersion := p.2.2.2 }
    starts := [] }

/-! ### The two halves of the property, and the condition -/

/-- A spawn calls `process.start` only while the account of its deployment is not archived. -/
def StartsActive (s : AccountSite) : AccountLabel → Prop
  | .fleet d (.spawn _ (.start _)) =>
    ∀ x, s.deployments[d]? = some x → linkedArchived s.accounts x = false
  | _ => True

/-- A final transaction with an account that commits links the deployment to it and stamps the
    account's current version. -/
def StampsCurrent (s : AccountSite) : AccountLabel → Prop
  | .commit k now collision =>
    ∀ rq i validated x x', s.starts[k]? = some rq → rq.pc = .committing (some i) validated →
      s.deployments[rq.target]? = some x →
      finalTxn s.accounts x (some i) validated now collision = .ok x' →
      ∃ b, s.accounts[i]? = some b ∧ b.status = .active ∧ x'.brokerAccountId = some i ∧
        x'.credentialsValidatedVersion = b.credentialsSecretVersion
  | _ => True

/-- No spawn of the deployment stands between its reservation and `process.start`. -/
def noPreStart (x : LinkedDeployment) : Bool := x.fleet.spawns.all fun sp => !sp.pc.isPreStart

/-- What the condition asks of one step. -/
def guardedStep (s : AccountSite) : AccountLabel → Bool
  | .fleet d (.reserve req other) =>
    (s.deployments[d]?).all fun x =>
      !linkedArchived s.accounts x || (phaseAGate x.fleet.db req other).isSome
  | .archive i =>
    (s.accounts[i]?).all fun b => archiveBlocked s b || s.deployments.all fun x =>
      x.brokerAccountId != some i || noPreStart x
  | _ => true

/-- The condition.  Phase A reserves a slot only while the account of the deployment is not
    archived, and `archive` commits only while no spawn of a deployment linked to the account
    stands between its reservation and `process.start`. -/
def AccountGuarded (s : AccountSite) (a : AccountLabel) : Prop := guardedStep s a = true

instance (s : AccountSite) (a : AccountLabel) : Decidable (AccountGuarded s a) :=
  inferInstanceAs (Decidable (guardedStep s a = true))

/-- No spawn of a deployment of an archived account is on its way to `process.start`. -/
def NoSpawnArchived (s : AccountSite) : Prop :=
  ∀ x ∈ s.deployments, linkedArchived s.accounts x = true → noPreStart x = true

/-! ### One step -/

section Step

variable {host : ℕ → String} {policy : Option RestartPolicy} {s t : AccountSite}
  {a : AccountLabel} {x : LinkedDeployment}

/-- What a committed final transaction did. -/
theorem finalTxn_eq_ok {accounts : List BrokerAccount} {account : Option ℕ}
    {validated : Option String} {now : ℕ} {collision : Bool} {x' : LinkedDeployment}
    (h : finalTxn accounts x account validated now collision = .ok x') :
    x' = upsertDeployment x account validated now ∧
      ∀ i, account = some i → ∃ b, accounts[i]? = some b ∧ b.status = .active ∧
        b.credentialsSecretVersion = validated := by
  have hupsert : (if collision then Except.error StartError.conflict
      else .ok (upsertDeployment x account validated now)) = .ok x' →
      x' = upsertDeployment x account validated now := by
    intro h
    split at h
    · cases h
    · exact (Except.ok.inj h).symm
  cases account with
  | none => exact ⟨hupsert h, fun i hi => by cases hi⟩
  | some i =>
    simp only [finalTxn] at h
    cases hb : accounts[i]? with
    | none =>
      rw [hb] at h
      cases h
    | some b =>
      simp only [hb] at h
      split at h
      · cases h
      rename_i hactive
      split at h
      · cases h
      rename_i hversion
      refine ⟨hupsert h, fun j hj => ?_⟩
      obtain rfl := Option.some.inj hj
      exact ⟨b, hb, not_not.mp hactive, not_not.mp hversion⟩

/-- Changing account rows without archiving one archives no deployment's account. -/
theorem linkedArchived_of_set {accounts : List BrokerAccount} {i : ℕ} {b b' : BrokerAccount}
    (hb : accounts[i]? = some b) (hst : b'.status = b.status) :
    linkedArchived (accounts.set i b') x = linkedArchived accounts x := by
  unfold linkedArchived
  cases x.brokerAccountId with
  | none => rfl
  | some j =>
    simp only [Option.bind_some]
    by_cases hj : i = j
    · subst hj
      have hi := (List.getElem?_eq_some_iff.mp hb).1
      rw [List.getElem?_set_self hi, hb]
      simp [hst]
    · rw [List.getElem?_set_ne hj]

/-- A new account row is active. -/
theorem linkedArchived_of_append {accounts : List BrokerAccount} {b : BrokerAccount}
    (hb : b.status = .active) (h : linkedArchived (accounts ++ [b]) x = true) :
    linkedArchived accounts x = true := by
  unfold linkedArchived at h ⊢
  obtain ⟨b', hb', harch⟩ := (Option.any_eq_true _ _).mp h
  obtain ⟨j, hj, hget⟩ := Option.bind_eq_some_iff.mp hb'
  rcases getElem?_concat_cases hget with ⟨_, rfl⟩ | hold
  · simp [hb] at harch
  · simp only [hj, Option.bind_some, hold]
    exact harch

/-- The upsert keeps the spawns, and a link it writes is to an active account. -/
theorem linkedArchived_upsert {account : Option ℕ} {validated : Option String} {now : ℕ}
    (hactive : ∀ i, account = some i → ∃ b, s.accounts[i]? = some b ∧ b.status = .active)
    (h : linkedArchived s.accounts (upsertDeployment x account validated now) = true) :
    linkedArchived s.accounts x = true := by
  cases account with
  | none => exact h
  | some i =>
    obtain ⟨b, hb, hst⟩ := hactive i rfl
    simp [linkedArchived, upsertDeployment, hb, hst] at h

/-- A step of the fleet brings no spawn on its way, but for a reservation. -/
theorem noPreStart_fleetStep {d : ℕ} {b : FleetLabel} {f : Fleet}
    (h : fleetStep (host d) policy x.fleet b = some f) (hx : noPreStart x = true)
    (hres : ∀ req other, b = .reserve req other → phaseAGate x.fleet.db req other ≠ none) :
    noPreStart { x with fleet := f } = true := by
  simp only [noPreStart, List.all_eq_true, Bool.not_eq_true'] at hx ⊢
  intro sp' hmem
  by_contra hpre
  rcases fleetStep_isPreStart h hmem (by simpa using hpre) with ⟨sp, hsp, hpre'⟩ |
      ⟨req, other, he, hgate⟩
  · rw [hx sp hsp] at hpre'
    cases hpre'
  · exact hres req other he hgate

/-- A deployment that replaces one whose account was as much archived. -/
theorem NoSpawnArchived.set {d : ℕ} {x' : LinkedDeployment} (h : NoSpawnArchived s)
    (hx' : linkedArchived s.accounts x' = true → noPreStart x' = true) :
    NoSpawnArchived { s with deployments := s.deployments.set d x' } := by
  intro y hy harch
  rcases List.mem_or_eq_of_mem_set hy with hold | rfl
  · exact h y hold harch
  · exact hx' harch

/-- A committed archive finds no spawn of its deployments on its way. -/
theorem NoSpawnArchived.archive {i : ℕ} {b : BrokerAccount} (h : NoSpawnArchived s)
    (hfree : ∀ x ∈ s.deployments, x.brokerAccountId = some i → noPreStart x = true) :
    NoSpawnArchived { s with accounts := s.accounts.set i { b with status := .archived } } := by
  intro x hx harch
  by_cases hlink : x.brokerAccountId = some i
  · exact hfree x hx hlink
  · refine h x hx ?_
    unfold linkedArchived at harch ⊢
    cases hj : x.brokerAccountId with
    | none => simp [hj] at harch
    | some j =>
      have hne : i ≠ j := fun he => hlink (by rw [hj, he])
      simpa [hj, List.getElem?_set_ne hne] using harch

/-- **Step.** -/
theorem NoSpawnArchived.step (h : NoSpawnArchived s) (hC : AccountGuarded s a)
    (hs : accountStep host policy s a = some t) : NoSpawnArchived t := by
  cases a with
  | resolve d byId rowStateOk =>
    obtain ⟨x, _, hs⟩ := Option.bind_eq_some_iff.mp hs
    obtain ⟨rq, _, rfl⟩ := Option.map_eq_some_iff.mp hs
    exact h
  | validate k readable =>
    obtain ⟨rq, _, hs⟩ := Option.bind_eq_some_iff.mp hs
    split at hs
    · obtain rfl := Option.some.inj hs
      exact h
    · cases hs
  | commit k now collision =>
    obtain ⟨rq, _, hs⟩ := Option.bind_eq_some_iff.mp hs
    split at hs
    · rename_i account validated hpc
      obtain ⟨x, hx, rfl⟩ := Option.map_eq_some_iff.mp hs
      cases htxn : finalTxn s.accounts x account validated now collision with
      | error e => exact h
      | ok x' =>
        obtain ⟨rfl, hactive⟩ := finalTxn_eq_ok htxn
        refine NoSpawnArchived.set h fun harch => ?_
        have hactive' : ∀ i, account = some i →
            ∃ b, s.accounts[i]? = some b ∧ b.status = .active := by
          intro i hi
          obtain ⟨b, hb, hst, _⟩ := hactive i hi
          exact ⟨b, hb, hst⟩
        exact h x (List.mem_of_getElem? hx) (linkedArchived_upsert hactive' harch)
    · cases hs
  | archive i =>
    obtain ⟨b, hb, rfl⟩ := Option.map_eq_some_iff.mp hs
    split
    · exact h
    · rename_i hblocked
      refine h.archive fun x hx hlink => ?_
      simp only [AccountGuarded, guardedStep, hb, Option.all_some, Bool.or_eq_true,
        List.all_eq_true, hblocked, Bool.false_eq_true, false_or] at hC
      simpa [hlink] using hC x hx
  | rotate i backend version =>
    obtain ⟨b, hb, rfl⟩ := Option.map_eq_some_iff.mp hs
    split
    · exact h
    · intro x hx harch
      have hsame : linkedArchived (s.accounts.set i (b.rotate backend version)) x
          = linkedArchived s.accounts x := linkedArchived_of_set hb rfl
      exact h x hx (hsame.symm.trans harch)
  | register b =>
    simp only [accountStep] at hs
    split at hs
    · rename_i hb
      obtain rfl := Option.some.inj hs
      exact fun x hx harch => h x hx (linkedArchived_of_append hb.1 harch)
    · cases hs
  | fleet d b =>
    simp only [accountStep] at hs
    split at hs
    · cases hs
    · obtain ⟨x, hx, hs⟩ := Option.bind_eq_some_iff.mp hs
      obtain ⟨f, hf, rfl⟩ := Option.map_eq_some_iff.mp hs
      refine NoSpawnArchived.set h fun harch => ?_
      have harch' : linkedArchived s.accounts x = true := harch
      refine noPreStart_fleetStep hf (h x (List.mem_of_getElem? hx) harch') ?_
      rintro req other rfl hgate
      simp [AccountGuarded, guardedStep, hx, harch', hgate] at hC

/-- The spawn behind a call of `process.start` stands behind its gates. -/
theorem fleetStep_processStart {d k : ℕ} {f f' : Fleet} {result : Except String ℕ}
    (h : fleetStep (host d) policy f (.spawn k (.start result)) = some f') :
    ∃ sp, f.spawns[k]? = some sp ∧ sp.pc = .processStart := by
  obtain ⟨sp, hk, h⟩ := Option.bind_eq_some_iff.mp h
  refine ⟨sp, hk, ?_⟩
  by_contra hpc
  have hnone : spawnStep f.db sp (.start result) = none := by simp [spawnStep, hpc]
  cases result with
  | ok pid =>
    simp only [hnone, Option.map_none, ite_self] at h
    cases h
  | error exc =>
    simp only [hnone, Option.map_none] at h
    cases h

/-- No process is started for an archived account. -/
theorem startsActive_of_noSpawnArchived (h : NoSpawnArchived s)
    (hs : accountStep host policy s a = some t) : StartsActive s a := by
  unfold StartsActive
  split
  · rename_i d k result
    intro x hx
    simp only [accountStep, isApiStart, hx, Option.bind_some] at hs
    obtain ⟨f, hf, _⟩ := Option.map_eq_some_iff.mp hs
    obtain ⟨sp, hk, hpc⟩ := fleetStep_processStart hf
    by_contra harch
    have hfree := h x (List.mem_of_getElem? hx) (by simpa using harch)
    simp only [noPreStart, List.all_eq_true, Bool.not_eq_true'] at hfree
    have hpre := hfree sp (List.mem_of_getElem? hk)
    rw [hpc] at hpre
    cases hpre
  · trivial

/-- The guards of the final transaction are evaluated under the row lock. -/
theorem stampsCurrent (s : AccountSite) (a : AccountLabel) : StampsCurrent s a := by
  unfold StampsCurrent
  split
  · intro rq i validated x x' _ _ _ htxn
    obtain ⟨rfl, hactive⟩ := finalTxn_eq_ok htxn
    obtain ⟨b, hb, hst, hversion⟩ := hactive i rfl
    exact ⟨b, hb, hst, rfl, hversion.symm⟩
  · trivial

end Step

/-! ### Every run -/

theorem noSpawnArchived_initial (accounts : List BrokerAccount)
    (rows : List (Db × Bool × Option ℕ × Option String)) :
    NoSpawnArchived (AccountSite.initial accounts rows) := by
  intro x hx _
  obtain ⟨p, _, rfl⟩ := List.mem_map.mp hx
  rfl

/-- **No node for an archived account.**  In every run of starts, archives, rotations, START
    deliveries, crashes and restarts in which Phase A reserves no slot for a deployment of an
    archived account, and `archive` commits while no spawn of its deployments is on its way to
    `process.start`, every call of `process.start` finds the account not archived, and every
    final transaction that commits stamps the current version of the account. -/
theorem archived_account_starts_nothing {host : ℕ → String} {policy : Option RestartPolicy}
    {accounts : List BrokerAccount} {rows : List (Db × Bool × Option ℕ × Option String)}
    {as : List AccountLabel} {t : AccountSite}
    (h : Path (accountSystem host policy) AccountGuarded (.initial accounts rows) as t) :
    Path (accountSystem host policy) (fun s a => StartsActive s a ∧ StampsCurrent s a)
      (.initial accounts rows) as t := by
  refine h.strengthen (I := NoSpawnArchived) (fun _ _ _ hI hC hs => hI.step hC hs) ?_
    (noSpawnArchived_initial accounts rows)
  intro s a t hI _ hs
  exact ⟨startsActive_of_noSpawnArchived hI hs, stampsCurrent s a⟩

/-! ### A crash and a restart -/

/-- An account of the registry. -/
def registered : BrokerAccount :=
  { ibAccountId := "DU1", ibLoginKey := "lvp", status := .active, credentialsBackend := .azureKv,
    credentialsSecretVersion := some "v1" }

/-- A deployment of that account before its first start. -/
def newDeployment : Db :=
  .empty
    { status := .stopped, accountId := some "DU1", ibLoginKey := some "lvp",
      lastStartedAt := none, lastStoppedAt := none, notStopping := Status.stopped_ne_stopping }

/-- A start with all its stages, a node that comes up, and its crash. -/
def startThenCrash : List AccountLabel :=
  List.flatten
    [[.resolve 0 (some 0) true, .validate 0 true, .commit 0 1 false,
        .fleet 0 (.reserve (startRequest 2) .none)],
      (launch 0 0).map (.fleet 0),
      [.fleet 0 (.child 0 (.markTerminal
          { clean := false, failureKind := .nodeCrashed, errorMessage := none, exitCode := 1 } 3)),
        .fleet 0 (.childExit 0 (some 1)), .fleet 0 (.reap 4)]]

/-- The restart that the reaper dispatched, up to its last gate. -/
def restartThenGates : List AccountLabel :=
  .fleet 0 (.reserve (restartRequest 20) .none) :: (passGates 1).map (.fleet 0)

/-- The restarted node comes up, an operator stops it, and then archives the account. -/
def stopThenArchive : List AccountLabel :=
  [.fleet 0 (.spawn 1 (.start (.ok 1))), .fleet 0 (.spawn 1 (.phaseC true)),
    .fleet 0 (.stop 30), .fleet 0 .stopSignal,
    .fleet 0 (.child 1 (.markTerminal
      { clean := true, failureKind := .none, errorMessage := none, exitCode := 0 } 31)),
    .fleet 0 (.childExit 1 (some 0)), .archive 0]

/-- The theorem at a crash and a restart: the account is archived only after the restarted node
    has been stopped. -/
theorem archived_after_stop_starts_nothing :
    ∃ t, Path (accountSystem (fun _ => "h") (some .default))
      (fun s a => StartsActive s a ∧ StampsCurrent s a)
      (.initial [registered] [(newDeployment, false, none, none)])
      (startThenCrash ++ restartThenGates ++ stopThenArchive) t := by
  obtain ⟨t, ht⟩ : ∃ t, (accountSystem (fun _ => "h") (some .default)).runWhere AccountGuarded
      (.initial [registered] [(newDeployment, false, none, none)])
      (startThenCrash ++ restartThenGates ++ stopThenArchive) = some t := ⟨_, rfl⟩
  exact ⟨t, archived_account_starts_nothing (.of_runWhere ht)⟩

/-- Between the crash and the restart the deployment is `failed`, so `archive` goes through, and
    the restart starts a process for the archived account. -/
theorem archived_account_start_fails :
    ∃ s t, Path (accountSystem (fun _ => "h") (some .default)) anyStep
        (.initial [registered] [(newDeployment, false, none, none)])
        (startThenCrash ++ [.archive 0] ++ restartThenGates) s ∧
      accountStep (fun _ => "h") (some .default) s (.fleet 0 (.spawn 1 (.start (.ok 1))))
        = some t ∧
      ¬StartsActive s (.fleet 0 (.spawn 1 (.start (.ok 1)))) := by
  obtain ⟨s, hs, t, ht, x, hx, harch⟩ :
      ∃ s, (accountSystem (fun _ => "h") (some .default)).run
          (.initial [registered] [(newDeployment, false, none, none)])
          (startThenCrash ++ [.archive 0] ++ restartThenGates) = some s ∧
        ∃ t, accountStep (fun _ => "h") (some .default) s
          (.fleet 0 (.spawn 1 (.start (.ok 1)))) = some t ∧
        ∃ x, s.deployments[0]? = some x ∧ linkedArchived s.accounts x = true :=
    ⟨_, rfl, _, rfl, _, rfl, rfl⟩
  refine ⟨s, t, .of_run hs, ht, fun hstart => ?_⟩
  rw [hstart x hx] at harch
  cases harch

end Msai.Api
