import Msai.Api.BrokerAccounts

namespace Msai.Api

open Msai.Lib Msai.Lib.TransitionSystem

/-!
# Broker credentials in two systems
(`services/live/broker_account_service.py`, `broker_credentials_store.py`)

`create`, `rotate` and `archive` write the credentials store and the `broker_accounts` table, and
no transaction spans both.  A secret is written before the row that points at it is committed, and
it is deleted after the row has been archived or its own commit has failed.

* `StoredSecret`, `storeRotate`, `storeDelete` — the credentials store;
* `AccountRow`, `CreateRequest.check`, `freeSlot`, `allocate`, `flushRow` — the rows and what a
  creation makes of them;
* `AccountOp`, `CredentialsState` — the operations in flight over one table and one store;
* `credentialsStep` — one statement of one operation;
* `NeverDangling`, `NeverOrphaned` — what the two systems owe to each other.
-/

/-! ### The credentials store -/

/-- The name of a secret: `broker-cred-{id}`, `broker-cred-{id}-{hex}`, or the pair of environment
    keys of a `legacy_env` row. -/
inductive SecretRef
  | created (accountId : ℕ)
  | promoted (accountId hex : ℕ)
  | pointer (keys : String)
deriving DecidableEq, Repr

/-- The `uuid4` drawn for the name. -/
def SecretRef.uuid : SecretRef → Option ℕ
  | .created accountId => some accountId
  | .promoted _ hex => some hex
  | .pointer _ => none

/-- The account a name of the service is made for. -/
def SecretRef.accountId : SecretRef → Option ℕ
  | .created accountId => some accountId
  | .promoted accountId _ => some accountId
  | .pointer _ => none

structure Credentials where
  twsUserid : String
  twsPassword : String
deriving DecidableEq, Repr

/-- A version of a secret. -/
structure StoredSecret where
  ref : SecretRef
  version : String
  creds : Credentials
deriving DecidableEq, Repr

structure CredentialWriteResult where
  secretRef : SecretRef
  version : String
deriving DecidableEq, Repr

/-- `rotate` of the store, and `put`, which is the same: earlier versions stay. -/
def storeRotate (store : List StoredSecret) (write : CredentialWriteResult) (creds : Credentials) :
    List StoredSecret :=
  store.filter (fun e => !(e.ref == write.secretRef && e.version == write.version)) ++
    [{ ref := write.secretRef, version := write.version, creds := creds }]

/-- `delete` of the store: every version goes. -/
def storeDelete (store : List StoredSecret) (ref : SecretRef) : List StoredSecret :=
  store.filter fun e => e.ref != ref

/-- The store has this version of the secret. -/
def Stored (store : List StoredSecret) (ref : SecretRef) (version : String) : Prop :=
  ∃ e ∈ store, e.ref = ref ∧ e.version = version

/-! ### The account rows -/

inductive AccountClass
  | paper
  | test
  | real
deriving DecidableEq, Repr

/-- `AccountClass(value)`; `none` is the `ValueError`. -/
def AccountClass.parse (value : String) : Option AccountClass :=
  if value = "paper" then some .paper
  else if value = "test" then some .test
  else if value = "real" then some .real
  else none

/-- A `broker_accounts` row with the columns the service writes. -/
structure AccountRow extends BrokerAccount where
  id : ℕ
  label : Option String
  gatewaySlot : String
  tradingMode : String
  accountClass : AccountClass
  credentialsSecretRef : SecretRef
  credentialsUpdatedAt : Option ℕ
  credentialsUpdatedBy : Option String
  createdBy : Option ℕ
deriving DecidableEq, Repr

/-- The secret of the row is in the credentials store. -/
def AccountRow.IsManaged (r : AccountRow) : Prop := r.credentialsBackend ≠ .legacyEnv

/-- A spawn for the account would read the credentials store. -/
def AccountRow.NeedsSecret (r : AccountRow) : Prop := r.status ≠ .archived ∧ r.IsManaged

instance (r : AccountRow) : Decidable r.IsManaged := inferInstanceAs (Decidable (_ ≠ _))

instance (r : AccountRow) : Decidable r.NeedsSecret := inferInstanceAs (Decidable (_ ∧ _))

/-- The columns of a rotation. -/
def AccountRow.writeCredentials (r acct : AccountRow) : AccountRow :=
  { r with
    credentialsBackend := acct.credentialsBackend
    credentialsSecretRef := acct.credentialsSecretRef
    credentialsSecretVersion := acct.credentialsSecretVersion
    credentialsUpdatedAt := acct.credentialsUpdatedAt
    credentialsUpdatedBy := acct.credentialsUpdatedBy }

/-- The columns of an archive. -/
def AccountRow.writeArchived (r acct : AccountRow) : AccountRow :=
  { r with
    status := acct.status
    credentialsUpdatedAt := acct.credentialsUpdatedAt
    credentialsUpdatedBy := acct.credentialsUpdatedBy }

/-- `UPDATE broker_accounts ... WHERE id = ...`. -/
def updateById (rows : List AccountRow) (id : ℕ) (f : AccountRow → AccountRow) : List AccountRow :=
  rows.map fun r => if r.id = id then f r else r

/-! ### The errors -/

inductive AccountError
  | duplicateAccount (ibAccountId : String)
  | unknownSlot (slot : String)
  | classOfPaper (accountClass : String)
  | classOfLive
  | noFreeSlot (slots : List String)
  | noFreeSlotAfterRetries (slots : List String)
  | slotInUse (slot : String)
  | notFound (accountId : ℕ)
  | archived (ibAccountId : String)
  | inUse (ibAccountId : String)
  /-- `CredentialResolutionError` of the store. -/
  | store
  /-- Every other exception, among them those of the database. -/
  | other
deriving DecidableEq, Repr

/-- A list of names as an f-string prints it. -/
def pyList (names : List String) : String :=
  "[" ++ ", ".intercalate (names.map fun s => "'" ++ s ++ "'") ++ "]"

/-- The text of a `BrokerAccountError`. -/
def AccountError.text : AccountError → String
  | .duplicateAccount ib => "active account " ++ ib ++ " already exists"
  | .unknownSlot slot => "unknown gateway slot " ++ slot
  | .classOfPaper cls =>
    "account_class='" ++ cls ++ "' is invalid for trading_mode='paper' " ++
      "(paper accounts must be account_class='paper')"
  | .classOfLive =>
    "account_class='paper' is invalid for trading_mode='live' " ++
      "(live accounts must be account_class='test' or 'real')"
  | .noFreeSlot slots => "no free gateway slot in pool " ++ pyList slots
  | .noFreeSlotAfterRetries slots => "no free gateway slot after retries in pool " ++ pyList slots
  | .slotInUse slot => "gateway slot " ++ slot ++ " is in use"
  | .notFound accountId => "no broker account " ++ toString accountId
  | .archived ib => "account " ++ ib ++ " is archived and cannot be rotated"
  | .inUse ib => "account " ++ ib ++ " has an active deployment; stop it before archiving"
  | .store => ""
  | .other => ""

/-! ### The requests -/

/-- The arguments of `create`. -/
structure CreateRequest where
  ibAccountId : String
  ibLoginKey : String
  tradingMode : String
  gatewaySlot : Option String
  creds : Credentials
  actor : String
  label : Option String
  createdBy : Option ℕ
  accountClass : Option String
deriving DecidableEq, Repr

/-- `account_class or (...)`: an empty string counts as omitted. -/
def CreateRequest.resolvedClass (req : CreateRequest) : String :=
  (req.accountClass.filter fun cls => cls ≠ "").getD
    (if req.tradingMode = "paper" then "paper" else "test")

/-- The slot of `gateway_slot or await self._free_slot()`. -/
def CreateRequest.pinnedSlot (req : CreateRequest) : Option String :=
  req.gatewaySlot.filter fun slot => slot ≠ ""

/-- `_free_slot`. -/
def freeSlot (slots : List String) (rows : List AccountRow) : Option String :=
  slots.find? fun slot => rows.all fun r => r.status == .archived || r.gatewaySlot != slot

/-- The checks of `create` before the store is written. -/
def CreateRequest.check (req : CreateRequest) (slots : List String) (rows : List AccountRow) :
    Option AccountError :=
  if rows.any fun r => r.ibAccountId == req.ibAccountId && r.status != .archived then
    some (.duplicateAccount req.ibAccountId)
  else
    match req.pinnedSlot.filter fun slot => slot ∉ slots with
    | some slot => some (.unknownSlot slot)
    | none =>
      if req.tradingMode = "paper" ∧ req.resolvedClass ≠ "paper" then
        some (.classOfPaper req.resolvedClass)
      else if req.tradingMode = "live" ∧ req.resolvedClass = "paper" then some .classOfLive
      else none

/-- The row `_allocate_and_insert` adds. -/
def CreateRequest.row (req : CreateRequest) (backend : CredentialsBackend) (newId : ℕ)
    (write : CredentialWriteResult) (slot : String) (cls : AccountClass) (now : ℕ) : AccountRow :=
  { id := newId
    ibAccountId := req.ibAccountId
    ibLoginKey := req.ibLoginKey
    label := req.label
    status := .active
    gatewaySlot := slot
    tradingMode := req.tradingMode
    accountClass := cls
    credentialsBackend := backend
    credentialsSecretRef := write.secretRef
    credentialsSecretVersion := some write.version
    credentialsUpdatedAt := some now
    credentialsUpdatedBy := some req.actor
    createdBy := req.createdBy }

/-! ### The operations -/

/-- Where an operation stands. -/
inductive AccountOp
  /-- `create` behind its checks, before `store.put`. -/
  | putting (req : CreateRequest)
  /-- At the head of the allocation loop, with the attempts that are left. -/
  | allocating (req : CreateRequest) (newId : ℕ) (write : CredentialWriteResult) (left : ℕ)
  /-- Before the flush of the row in its savepoint. -/
  | inserting (req : CreateRequest) (write : CredentialWriteResult) (left : ℕ) (row : AccountRow)
  /-- The row is flushed and not committed. -/
  | inserted (row : AccountRow)
  /-- `rotate` before `SELECT ... FOR UPDATE`. -/
  | rotateLocking (id : ℕ) (creds : Credentials) (actor : String)
  /-- The row is locked and active. -/
  | rotateWriting (acct : AccountRow) (creds : Credentials) (actor : String)
  /-- The store is written, and `acct` has the new columns. -/
  | rotateCommitting (acct : AccountRow) (promotedRef : Option SecretRef)
  /-- `archive` before `SELECT ... FOR UPDATE`. -/
  | archiveLocking (id : ℕ) (actor : String)
  /-- The row is locked; the deployments are not read yet. -/
  | archiveChecking (acct : AccountRow) (actor : String)
  | archiveCommitting (acct : AccountRow)
  /-- `_best_effort_delete_secret`; then the operation ends as it would have without. -/
  | deleting (ref : SecretRef) (outcome : Option AccountError)
  | finished (outcome : Option AccountError)
deriving DecidableEq, Repr

def AccountOp.isFinished : AccountOp → Bool
  | .finished _ => true
  | _ => false

/-- The row whose lock the operation holds. -/
def AccountOp.locks : AccountOp → Option ℕ
  | .rotateWriting acct _ _ => some acct.id
  | .rotateCommitting acct _ => some acct.id
  | .archiveChecking acct _ => some acct.id
  | .archiveCommitting acct => some acct.id
  | _ => none

/-- The row the operation has flushed and not committed. -/
def AccountOp.flushed : AccountOp → Option AccountRow
  | .inserted row => some row
  | _ => none

/-- The table, the store and the operations in flight.  `drawn` are the uuids in use, and `written`
    the secrets the service has written. -/
structure CredentialsState where
  rows : List AccountRow
  store : List StoredSecret
  ops : List AccountOp
  drawn : List ℕ
  written : List SecretRef
deriving DecidableEq, Repr

/-- What operation `k` does next, with the answer it gets. -/
inductive CredentialsLabel
  | create (req : CreateRequest)
  | rotate (id : ℕ) (creds : Credentials) (actor : String)
  | archive (id : ℕ) (actor : String)
  /-- A write of the store.  `version` is `none` for a failure. -/
  | write (k uuid : ℕ) (version : Option String) (now : ℕ)
  /-- `_free_slot` and the values of the row.  `fails` is an error of the query. -/
  | select (k now : ℕ) (fails : Bool)
  /-- The flush in its savepoint.  `fails` is any error but a conflict of the two indexes. -/
  | insert (k : ℕ) (fails : Bool)
  | lock (k : ℕ)
  /-- The deployments of the account: one is in an active status, or none is. -/
  | checkDeployments (k : ℕ) (active : Bool) (now : ℕ)
  | commit (k : ℕ) (ok : Bool)
  | delete (k : ℕ) (ok : Bool)
deriving DecidableEq, Repr

/-! ### The steps -/

/-- `create` up to the store. -/
def CreateRequest.begin (req : CreateRequest) (slots : List String) (rows : List AccountRow) :
    AccountOp :=
  match req.check slots rows with
  | some e => .finished (some e)
  | none => .putting req

/-- `get`, and then `op`. -/
def withAccount (rows : List AccountRow) (id : ℕ) (op : AccountOp) : AccountOp :=
  if rows.any fun r => r.id == id then op else .finished (some (.notFound id))

/-- `store.put` or `store.rotate`, and what the operation does with the version. -/
def writeSecret (slots : List String) (backend : CredentialsBackend) (s : CredentialsState) (k : ℕ)
    (uuid : ℕ) (version : Option String) (now : ℕ) : AccountOp → Option CredentialsState
  | .putting req =>
    match version with
    | none => some { s with ops := s.ops.set k (.finished (some .store)) }
    | some v =>
      if uuid ∈ s.drawn then none
      else
        let write := { secretRef := .created uuid, version := v }
        some { s with
          store := storeRotate s.store write req.creds
          ops := s.ops.set k (.allocating req uuid write (slots.length + 1))
          drawn := uuid :: s.drawn
          written := write.secretRef :: s.written }
  | .rotateWriting acct creds actor =>
    match version with
    -- the failure releases the lock
    | none => some { s with ops := s.ops.set k (.finished (some .store)) }
    | some v =>
      if acct.credentialsBackend = .legacyEnv then
        if uuid ∈ s.drawn then none
        else
          let write := { secretRef := .promoted acct.id uuid, version := v }
          some { s with
            store := storeRotate s.store write creds
            ops := s.ops.set k (.rotateCommitting
              { acct with
                toBrokerAccount := acct.toBrokerAccount.rotate backend v
                credentialsSecretRef := write.secretRef
                credentialsUpdatedAt := some now
                credentialsUpdatedBy := some actor }
              (some write.secretRef))
            drawn := uuid :: s.drawn
            written := write.secretRef :: s.written }
      else
        let write := { secretRef := acct.credentialsSecretRef, version := v }
        some { s with
          store := storeRotate s.store write creds
          ops := s.ops.set k (.rotateCommitting
            { acct with
              toBrokerAccount := acct.toBrokerAccount.rotate backend v
              credentialsUpdatedAt := some now
              credentialsUpdatedBy := some actor }
            none)
          written := write.secretRef :: s.written }
  | _ => none

/-- One turn of the allocation loop up to the flush. -/
def allocate (slots : List String) (backend : CredentialsBackend) (rows : List AccountRow)
    (req : CreateRequest) (newId : ℕ) (write : CredentialWriteResult) (left now : ℕ)
    (fails : Bool) : AccountOp :=
  match left with
  | 0 => .deleting write.secretRef (some (.noFreeSlotAfterRetries slots))
  | left + 1 =>
    -- a pinned slot is not queried for
    if req.pinnedSlot.isNone && fails then .deleting write.secretRef (some .other)
    else
      match req.pinnedSlot.or (freeSlot slots rows) with
      | none => .deleting write.secretRef (some (.noFreeSlot slots))
      | some slot =>
        match AccountClass.parse req.resolvedClass with
        | none => .deleting write.secretRef (some .other)
        | some cls => .inserting req write left (req.row backend newId write slot cls now)

/-- The flush of the row against the two partial unique indexes, in the order they were created.
    `none` while another transaction has to end first. -/
def flushRow (rows flushed : List AccountRow) (req : CreateRequest) (write : CredentialWriteResult)
    (left : ℕ) (row : AccountRow) (fails : Bool) : Option AccountOp :=
  if fails then some (.deleting write.secretRef (some .other))
  else if rows.any fun r => r.status != .archived && r.ibAccountId == row.ibAccountId then
    some (.deleting write.secretRef (some (.duplicateAccount row.ibAccountId)))
  else if flushed.any fun r => r.ibAccountId == row.ibAccountId then none
  else if rows.any fun r => r.status != .archived && r.gatewaySlot == row.gatewaySlot then
    match req.gatewaySlot with
    -- also for an empty string, although the slot was not pinned then
    | some slot => some (.deleting write.secretRef (some (.slotInUse slot)))
    | none => some (.allocating req row.id write left)
  else if flushed.any fun r => r.gatewaySlot == row.gatewaySlot then none
  else some (.inserted row)

/-- `SELECT ... FOR UPDATE`: the operation behind the lock.  `none` while the row is locked. -/
def lockRow (rows : List AccountRow) (locked : List ℕ) : AccountOp → Option AccountOp
  | .rotateLocking id creds actor =>
    if id ∈ locked then none
    else
      (rows.find? fun r => r.id == id).map fun acct =>
        if acct.status = .archived then .finished (some (.archived acct.ibAccountId))
        else .rotateWriting acct creds actor
  | .archiveLocking id actor =>
    if id ∈ locked then none
    else (rows.find? fun r => r.id == id).map fun acct => .archiveChecking acct actor
  | _ => none

/-- The commit of an operation, and the compensation of a commit that failed. -/
def commitOp (s : CredentialsState) (k : ℕ) (ok : Bool) : AccountOp → Option CredentialsState
  | .inserted row =>
    if ok then some { s with rows := s.rows ++ [row], ops := s.ops.set k (.finished none) }
    else
      some { s with ops := s.ops.set k (.deleting row.credentialsSecretRef (some .other)) }
  | .rotateCommitting acct promotedRef =>
    if ok then
      some { s with
        rows := updateById s.rows acct.id fun r => r.writeCredentials acct
        ops := s.ops.set k (.finished none) }
    else
      match promotedRef with
      | some ref => some { s with ops := s.ops.set k (.deleting ref (some .other)) }
      -- the store keeps the new version under the name the row still has
      | none => some { s with ops := s.ops.set k (.finished (some .other)) }
  | .archiveCommitting acct =>
    if ok then
      some { s with
        rows := updateById s.rows acct.id fun r => r.writeArchived acct
        ops := s.ops.set k
          (if acct.credentialsBackend = .legacyEnv then .finished none
            else .deleting acct.credentialsSecretRef none) }
    else some { s with ops := s.ops.set k (.finished (some .other)) }
  | _ => none

/-- One statement of one operation. -/
def credentialsStep (slots : List String) (backend : CredentialsBackend) (s : CredentialsState) :
    CredentialsLabel → Option CredentialsState
  | .create req => some { s with ops := s.ops ++ [req.begin slots s.rows] }
  | .rotate id creds actor =>
    some { s with ops := s.ops ++ [withAccount s.rows id (.rotateLocking id creds actor)] }
  | .archive id actor =>
    some { s with ops := s.ops ++ [withAccount s.rows id (.archiveLocking id actor)] }
  | .write k uuid version now => (s.ops[k]?).bind (writeSecret slots backend s k uuid version now)
  | .select k now fails =>
    (s.ops[k]?).bind fun
      | .allocating req newId write left =>
        some { s with
          ops := s.ops.set k (allocate slots backend s.rows req newId write left now fails) }
      | _ => none
  | .insert k fails =>
    (s.ops[k]?).bind fun
      | .inserting req write left row =>
        (flushRow s.rows (s.ops.filterMap (·.flushed)) req write left row fails).map fun op =>
          { s with ops := s.ops.set k op }
      | _ => none
  | .lock k =>
    (s.ops[k]?).bind fun op =>
      (lockRow s.rows (s.ops.filterMap (·.locks)) op).map fun op => { s with ops := s.ops.set k op }
  | .checkDeployments k active now =>
    (s.ops[k]?).bind fun
      | .archiveChecking acct actor =>
        some { s with
          ops := s.ops.set k
            (if active then .finished (some (.inUse acct.ibAccountId))
              else .archiveCommitting
                { acct with
                  status := .archived
                  credentialsUpdatedAt := some now
                  credentialsUpdatedBy := some actor }) }
      | _ => none
  | .commit k ok => (s.ops[k]?).bind (commitOp s k ok)
  | .delete k ok =>
    (s.ops[k]?).bind fun
      | .deleting ref outcome =>
        some { s with
          store := if ok then storeDelete s.store ref else s.store
          ops := s.ops.set k (.finished outcome) }
      | _ => none

/-- The backend of `build_broker_account_service`. -/
def serviceBackend (environment : String) : CredentialsBackend :=
  if environment = "production" then .azureKv else .env

/-- The services of one environment, over one table and one store. -/
def credentialsSystem (slots : List String) (environment : String) :
    TransitionSystem CredentialsState CredentialsLabel :=
  ⟨credentialsStep slots (serviceBackend environment)⟩

/-! ### The two properties -/

/-- The row points at a version the store has. -/
def Served (store : List StoredSecret) (r : AccountRow) : Prop :=
  ∃ v, r.credentialsSecretVersion = some v ∧ Stored store r.credentialsSecretRef v

/-- The secret and the version of every managed account are in the store. -/
def NeverDangling (s : CredentialsState) : Prop := ∀ r ∈ s.rows, r.NeedsSecret → Served s.store r

/-- What the service has written and the store still has is the secret of an account. -/
def NeverOrphaned (s : CredentialsState) : Prop :=
  ∀ ref ∈ s.written, (∃ v, Stored s.store ref v) →
    ∃ r ∈ s.rows, r.status ≠ .archived ∧ r.credentialsSecretRef = ref

/-- The name is one the service has made. -/
def Known (drawn : List ℕ) (ref : SecretRef) : Prop := ∃ u ∈ drawn, ref.uuid = some u

/-- The table is consistent with the store. -/
structure RowsOk (s : CredentialsState) : Prop where
  drawn : ∀ r ∈ s.rows, r.id ∈ s.drawn
  /-- The primary key. -/
  distinct : ∀ r ∈ s.rows, ∀ r' ∈ s.rows, r.id = r'.id → r = r'
  /-- A managed row has a name that was made for it. -/
  owned : ∀ r ∈ s.rows, r.IsManaged →
    r.credentialsSecretRef.accountId = some r.id ∧ Known s.drawn r.credentialsSecretRef
  served : NeverDangling s

/-- No operation has been issued yet.  Rows of every kind may exist, and the store may hold what it
    likes besides the secrets of the managed accounts. -/
structure CredentialsState.Settled (s : CredentialsState) : Prop extends RowsOk s where
  ops : s.ops = []
  written : s.written = []

end Msai.Api
