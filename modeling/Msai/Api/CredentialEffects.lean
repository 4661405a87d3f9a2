import Msai.Api.BrokerCredentials

namespace Msai.Api

/-!
# What the statements of the account service do

An operation in flight owns what nobody else may touch: the secret it has written and no committed
row points at, the secret it is about to delete, the lock of its row.

* `AccountOp.holds`, `AccountOp.dooms`, `AccountOp.locks` — what it owns;
* `OpOk`, `Apart`, `Foreign` — what it relies on, and what keeps it apart from other operations and
  from the rows;
* `CredentialsInv`, `SecretsCovered` — the two invariants;
* `OpEffect` — the effects of a statement; `credentialsStep_cases` shows that there are no others.
-/

/-! ### What an operation owns -/

/-- The secret the operation has written and no committed row points at. -/
def AccountOp.holds : AccountOp → Option SecretRef
  | .allocating _ _ write _ => some write.secretRef
  | .inserting _ write _ _ => some write.secretRef
  | .inserted row => some row.credentialsSecretRef
  | .rotateCommitting _ promotedRef => promotedRef
  | _ => none

/-- The secret the operation is about to delete. -/
def AccountOp.dooms : AccountOp → Option SecretRef
  | .deleting ref _ => some ref
  | _ => none

/-- No two operations own the same secret or the same lock. -/
def Apart (op op' : AccountOp) : Prop :=
  (∀ ref, op.holds = some ref → op'.holds ≠ some ref ∧ op'.dooms ≠ some ref) ∧
    ∀ id, op.locks = some id → op'.locks ≠ some id

/-- The row has nothing to do with the secret of the operation. -/
def Foreign (op : AccountOp) (r : AccountRow) : Prop :=
  op.holds ≠ some (.created r.id) ∧
    (r.IsManaged → op.holds ≠ some r.credentialsSecretRef) ∧
    (r.NeedsSecret → op.dooms ≠ some r.credentialsSecretRef)

/-- What an operation relies on: its secret is stored, and the row it has locked is as it read
    it. -/
def OpOk (rows : List AccountRow) (store : List StoredSecret) : AccountOp → Prop
  | .allocating _ newId write _ =>
    write.secretRef = .created newId ∧ Stored store write.secretRef write.version
  | .inserting _ write _ row =>
    write.secretRef = .created row.id ∧ Stored store write.secretRef write.version ∧
      row.NeedsSecret ∧ row.credentialsSecretRef = write.secretRef ∧
      row.credentialsSecretVersion = some write.version
  | .inserted row => row.credentialsSecretRef = .created row.id ∧ row.NeedsSecret ∧ Served store row
  | .rotateWriting acct _ _ => acct ∈ rows ∧ acct.status ≠ .archived
  | .rotateCommitting acct promotedRef =>
    acct.IsManaged ∧ Served store acct ∧ acct.credentialsSecretRef.accountId = some acct.id ∧
      ∃ r ∈ rows, r.id = acct.id ∧ r.status ≠ .archived ∧
        match promotedRef with
        | some ref => acct.credentialsSecretRef = ref ∧ ¬ r.IsManaged
        | none => r.credentialsSecretRef = acct.credentialsSecretRef ∧ r.IsManaged
  | .archiveChecking acct _ => acct ∈ rows
  | .archiveCommitting acct =>
    acct.status = .archived ∧
      ∃ r ∈ rows, r.id = acct.id ∧ r.credentialsSecretRef = acct.credentialsSecretRef ∧
        r.credentialsBackend = acct.credentialsBackend
  | _ => True

/-- The operations in flight are consistent with the table, the store and one another. -/
structure CredentialsInv (s : CredentialsState) : Prop extends RowsOk s where
  ok : ∀ (k : ℕ) (op : AccountOp), s.ops[k]? = some op → OpOk s.rows s.store op
  known : ∀ (k : ℕ) (op : AccountOp) (ref : SecretRef), s.ops[k]? = some op →
    op.holds = some ref ∨ op.dooms = some ref → Known s.drawn ref
  foreign : ∀ (k : ℕ) (op : AccountOp), s.ops[k]? = some op → ∀ r ∈ s.rows, Foreign op r
  apart : ∀ (j k : ℕ) (op op' : AccountOp), j ≠ k → s.ops[j]? = some op → s.ops[k]? = some op' →
    Apart op op'

/-- The secret is an account's, or in the hands of an operation. -/
def SecretCovered (s : CredentialsState) (ref : SecretRef) : Prop :=
  (∃ r ∈ s.rows, r.NeedsSecret ∧ r.credentialsSecretRef = ref) ∨
    ∃ (k : ℕ) (op : AccountOp), s.ops[k]? = some op ∧ (op.holds = some ref ∨ op.dooms = some ref)

/-- Each secret the service has written is covered as long as it is stored. -/
def SecretsCovered (s : CredentialsState) : Prop :=
  ∀ ref ∈ s.written, (∃ v, Stored s.store ref v) → SecretCovered s ref

/-! ### The store and the table -/

section Tables

variable {store : List StoredSecret} {rows : List AccountRow} {write : CredentialWriteResult}
  {creds : Credentials} {ref : SecretRef} {v : String} {r r' : AccountRow} {id : ℕ}
  {f : AccountRow → AccountRow}

@[simp] theorem stored_storeRotate :
    Stored (storeRotate store write creds) ref v ↔
      (ref = write.secretRef ∧ v = write.version) ∨ Stored store ref v := by
  constructor
  · rintro ⟨e, he, rfl, rfl⟩
    rcases List.mem_append.mp he with he | he
    · exact Or.inr ⟨e, (List.mem_filter.mp he).1, rfl, rfl⟩
    · obtain rfl := List.mem_singleton.mp he
      exact Or.inl ⟨rfl, rfl⟩
  · rintro (⟨rfl, rfl⟩ | ⟨e, he, rfl, rfl⟩)
    · exact ⟨_, List.mem_append_right _ (List.mem_singleton_self _), rfl, rfl⟩
    · by_cases hsame : e.ref = write.secretRef ∧ e.version = write.version
      · exact ⟨_, List.mem_append_right _ (List.mem_singleton_self _), hsame.1.symm,
          hsame.2.symm⟩
      · refine ⟨e, List.mem_append_left _ (List.mem_filter.mpr ⟨he, ?_⟩), rfl, rfl⟩
        simpa [imp_iff_not_or] using hsame

@[simp] theorem stored_storeDelete {ref' : SecretRef} :
    Stored (storeDelete store ref') ref v ↔ ref ≠ ref' ∧ Stored store ref v := by
  constructor
  · rintro ⟨e, he, rfl, rfl⟩
    have hmem := List.mem_filter.mp he
    exact ⟨by simpa using hmem.2, e, hmem.1, rfl, rfl⟩
  · rintro ⟨hne, e, he, rfl, rfl⟩
    exact ⟨e, List.mem_filter.mpr ⟨he, by simpa using hne⟩, rfl, rfl⟩

theorem mem_updateById_cases (h : r' ∈ updateById rows id f) :
    (∃ r ∈ rows, r.id = id ∧ r' = f r) ∨ r' ∈ rows ∧ r'.id ≠ id := by
  obtain ⟨r, hr, heq⟩ := List.mem_map.mp h
  by_cases hid : r.id = id
  · rw [if_pos hid] at heq
    exact Or.inl ⟨r, hr, hid, heq.symm⟩
  · rw [if_neg hid] at heq
    subst heq
    exact Or.inr ⟨hr, hid⟩

theorem mem_updateById_of_ne (hr : r ∈ rows) (hid : r.id ≠ id) : r ∈ updateById rows id f :=
  List.mem_map.mpr ⟨r, hr, if_neg hid⟩

theorem mem_updateById_self (hr : r ∈ rows) : f r ∈ updateById rows r.id f :=
  List.mem_map.mpr ⟨r, hr, if_pos rfl⟩

theorem serviceBackend_ne (environment : String) : serviceBackend environment ≠ .legacyEnv := by
  unfold serviceBackend
  split <;> simp

end Tables

/-! ### What a step does -/

/-- What one statement of operation `k` does to the table, the store and the duties of the
    operation. -/
inductive OpEffect (s : CredentialsState) (a : CredentialsLabel) (k : ℕ) (op : AccountOp) :
    CredentialsState → Prop
  /-- The operation moves on.  A secret it held may have become one to delete. -/
  | quiet (op' : AccountOp) (hok : OpOk s.rows s.store op')
      (hsecret : op'.holds = op.holds ∧ op'.dooms = op.dooms ∨
        op'.holds = none ∧ op'.dooms = op.holds ∧ op.dooms = none)
      (hlocks : op'.locks = op.locks ∨ op'.locks = none) :
      OpEffect s a k op { s with ops := s.ops.set k op' }
  | lock (op' : AccountOp) (id : ℕ) (hok : OpOk s.rows s.store op')
      (hfree : id ∉ s.ops.filterMap (·.locks)) (hlocks : op'.locks = some id)
      (hbefore : op.holds = none ∧ op.dooms = none)
      (hsecret : op'.holds = none ∧ op'.dooms = none) :
      OpEffect s a k op { s with ops := s.ops.set k op' }
  /-- A new secret, or a new version of the secret of a row. -/
  | write (op' : AccountOp) (write : CredentialWriteResult) (creds : Credentials) (drawn : List ℕ)
      (hok : OpOk s.rows (storeRotate s.store write creds) op') (hlocks : op'.locks = op.locks)
      (hbefore : op.holds = none ∧ op.dooms = none) (hdooms : op'.dooms = none)
      (hholds :
        (∃ u, u ∉ s.drawn ∧ drawn = u :: s.drawn ∧ write.secretRef.uuid = some u ∧
          op'.holds = some write.secretRef) ∨
        (drawn = s.drawn ∧ op'.holds = none ∧
          ∃ r ∈ s.rows, r.NeedsSecret ∧ r.credentialsSecretRef = write.secretRef)) :
      OpEffect s a k op
        { s with
          store := storeRotate s.store write creds
          ops := s.ops.set k op'
          drawn := drawn
          written := write.secretRef :: s.written }
  | insertRow (row : AccountRow) (hop : op = .inserted row) :
      OpEffect s a k op
        { s with rows := s.rows ++ [row], ops := s.ops.set k (.finished none) }
  | updateRow (acct : AccountRow) (promotedRef : Option SecretRef)
      (hop : op = .rotateCommitting acct promotedRef) :
      OpEffect s a k op
        { s with
          rows := updateById s.rows acct.id fun r => r.writeCredentials acct
          ops := s.ops.set k (.finished none) }
  | archiveRow (acct : AccountRow) (hop : op = .archiveCommitting acct) :
      OpEffect s a k op
        { s with
          rows := updateById s.rows acct.id fun r => r.writeArchived acct
          ops := s.ops.set k
            (if acct.credentialsBackend = .legacyEnv then .finished none
              else .deleting acct.credentialsSecretRef none) }
  | delete (ref : SecretRef) (outcome : Option AccountError) (hop : op = .deleting ref outcome) :
      OpEffect s a k op
        { s with store := storeDelete s.store ref, ops := s.ops.set k (.finished outcome) }
  | giveUp (ref : SecretRef) (outcome : Option AccountError) (hop : op = .deleting ref outcome)
      (ha : a = .delete k false) :
      OpEffect s a k op { s with ops := s.ops.set k (.finished outcome) }

section Effects

variable {slots : List String} {backend : CredentialsBackend} {s t : CredentialsState}
  {a : CredentialsLabel} {k : ℕ} {op : AccountOp}

theorem writeSecret_effect {uuid now : ℕ} {version : Option String}
    (hb : backend ≠ .legacyEnv) (hrows : RowsOk s) (hok : OpOk s.rows s.store op)
    (h : writeSecret slots backend s k uuid version now op = some t) : OpEffect s a k op t := by
  unfold writeSecret at h
  split at h
  · split at h
    · obtain rfl := Option.some.inj h
      exact .quiet _ trivial (Or.inl ⟨rfl, rfl⟩) (Or.inl rfl)
    · rename_i req _ v
      split at h
      · -- a creation writes under a new name
        exact absurd h (by simp)
      · rename_i hfresh
        obtain rfl := Option.some.inj h
        refine .write _ _ _ _ ⟨rfl, ?_⟩ rfl ⟨rfl, rfl⟩ rfl
          (Or.inl ⟨uuid, hfresh, rfl, rfl, rfl⟩)
        exact stored_storeRotate.mpr (Or.inl ⟨rfl, rfl⟩)
  · split at h
    · obtain rfl := Option.some.inj h
      exact .quiet _ trivial (Or.inl ⟨rfl, rfl⟩) (Or.inr rfl)
    · rename_i acct creds actor _ v
      obtain ⟨hacct, hactive⟩ := hok
      split at h
      · -- a rotation of a legacy row writes under a new name too
        rename_i hlegacy
        split at h
        · exact absurd h (by simp)
        · rename_i hfresh
          obtain rfl := Option.some.inj h
          refine .write _ _ _ _ ⟨?_, ⟨v, rfl, ?_⟩, rfl, acct, hacct, rfl, hactive, rfl, ?_⟩ rfl
            ⟨rfl, rfl⟩ rfl (Or.inl ⟨uuid, hfresh, rfl, rfl, rfl⟩)
          · show (if acct.credentialsBackend = .legacyEnv then backend else _) ≠ _
            rwa [if_pos hlegacy]
          · exact stored_storeRotate.mpr (Or.inl ⟨rfl, rfl⟩)
          · exact fun hmanaged => hmanaged hlegacy
      · -- a managed row keeps its name, and gets another version
        rename_i hmanaged
        obtain rfl := Option.some.inj h
        refine .write _ { secretRef := acct.credentialsSecretRef, version := v } _ _
          ⟨?_, ⟨v, rfl, ?_⟩, (hrows.owned acct hacct hmanaged).1, acct, hacct, rfl, hactive, rfl,
            hmanaged⟩ rfl ⟨rfl, rfl⟩ rfl
          (Or.inr ⟨rfl, rfl, acct, hacct, ⟨hactive, hmanaged⟩, rfl⟩)
        · show (if acct.credentialsBackend = .legacyEnv then backend else _) ≠ _
          rwa [if_neg hmanaged]
        · exact stored_storeRotate.mpr (Or.inl ⟨rfl, rfl⟩)
  · exact absurd h (by simp)

/-- The operation goes on with its secret, or gives it up. -/
def KeepsOrDooms (op' : AccountOp) (ref : SecretRef) : Prop :=
  (op'.holds = some ref ∧ op'.dooms = none ∨ op'.holds = none ∧ op'.dooms = some ref) ∧
    op'.locks = none

theorem keepsOrDooms_deleting (ref : SecretRef) (outcome : Option AccountError) :
    KeepsOrDooms (.deleting ref outcome) ref :=
  ⟨Or.inr ⟨rfl, rfl⟩, rfl⟩

theorem allocate_ok {rows : List AccountRow} {store : List StoredSecret} {req : CreateRequest}
    {newId left now : ℕ} {write : CredentialWriteResult} {fails : Bool}
    (hb : backend ≠ .legacyEnv) (hok : OpOk rows store (.allocating req newId write left)) :
    OpOk rows store (allocate slots backend rows req newId write left now fails) ∧
      KeepsOrDooms (allocate slots backend rows req newId write left now fails)
        write.secretRef := by
  obtain ⟨href, hstored⟩ := hok
  -- every refusal on the way deletes the secret that was written
  have hdoom : ∀ e, OpOk rows store (.deleting write.secretRef e) ∧
      KeepsOrDooms (.deleting write.secretRef e) write.secretRef :=
    fun e => ⟨trivial, keepsOrDooms_deleting _ e⟩
  unfold allocate
  split
  · exact hdoom _
  · split
    · exact hdoom _
    · split
      · exact hdoom _
      · split
        · exact hdoom _
        · have hactive : AccountStatus.active ≠ .archived := by decide
          exact ⟨⟨href, hstored, ⟨hactive, hb⟩, rfl, rfl⟩, Or.inl ⟨rfl, rfl⟩, rfl⟩

theorem flushRow_ok {rows flushed : List AccountRow} {store : List StoredSecret}
    {req : CreateRequest} {left : ℕ} {write : CredentialWriteResult} {row : AccountRow}
    {fails : Bool} {op' : AccountOp} (hok : OpOk rows store (.inserting req write left row))
    (h : flushRow rows flushed req write left row fails = some op') :
    OpOk rows store op' ∧ KeepsOrDooms op' write.secretRef := by
  obtain ⟨href, hstored, hneeds, hrowRef, hversion⟩ := hok
  have hdoom : ∀ e, some (AccountOp.deleting write.secretRef e) = some op' →
      OpOk rows store op' ∧ KeepsOrDooms op' write.secretRef := by
    intro e he
    obtain rfl := Option.some.inj he
    exact ⟨trivial, keepsOrDooms_deleting _ e⟩
  unfold flushRow at h
  split at h
  · exact hdoom _ h
  · split at h
    · exact hdoom _ h
    · split at h
      · exact absurd h (by simp)
      · split at h
        · split at h
          · exact hdoom _ h
          · obtain rfl := Option.some.inj h
            -- a slot that was taken meanwhile: the creation tries the next one
            exact ⟨⟨href, hstored⟩, Or.inl ⟨rfl, rfl⟩, rfl⟩
        · split at h
          · exact absurd h (by simp)
          · obtain rfl := Option.some.inj h
            refine ⟨⟨hrowRef.trans href, hneeds, write.version, hversion, ?_⟩,
              Or.inl ⟨congrArg some hrowRef, rfl⟩, rfl⟩
            rwa [hrowRef]

theorem OpEffect.of_keepsOrDooms {op' : AccountOp} {ref : SecretRef}
    (hok : OpOk s.rows s.store op') (hkeeps : KeepsOrDooms op' ref) (hholds : op.holds = some ref)
    (hdooms : op.dooms = none) : OpEffect s a k op { s with ops := s.ops.set k op' } := by
  refine .quiet op' hok ?_ (Or.inr hkeeps.2)
  rw [hholds, hdooms]
  exact hkeeps.1.imp_right fun h => ⟨h.1, h.2, rfl⟩

theorem lockRow_effect {op' : AccountOp}
    (h : lockRow s.rows (s.ops.filterMap (·.locks)) op = some op') :
    OpEffect s a k op { s with ops := s.ops.set k op' } := by
  unfold lockRow at h
  split at h
  · rename_i id creds actor
    split at h
    · exact absurd h (by simp)
    · -- no other operation has the row
      rename_i hfree
      obtain ⟨acct, hfind, heq⟩ := Option.map_eq_some_iff.mp h
      have hmem : acct ∈ s.rows := List.mem_of_find?_eq_some hfind
      have hid : acct.id = id := by simpa using List.find?_some hfind
      split at heq
      · subst heq
        exact .quiet _ trivial (Or.inl ⟨rfl, rfl⟩) (Or.inl rfl)
      · rename_i hactive
        subst heq
        exact .lock _ id ⟨hmem, hactive⟩ hfree (congrArg some hid) ⟨rfl, rfl⟩ ⟨rfl, rfl⟩
  · rename_i id actor
    split at h
    · exact absurd h (by simp)
    · rename_i hfree
      obtain ⟨acct, hfind, rfl⟩ := Option.map_eq_some_iff.mp h
      have hid : acct.id = id := by simpa using List.find?_some hfind
      exact .lock _ id (List.mem_of_find?_eq_some hfind) hfree (congrArg some hid) ⟨rfl, rfl⟩
        ⟨rfl, rfl⟩
  · exact absurd h (by simp)

theorem commitOp_effect {ok : Bool} (h : commitOp s k ok op = some t) : OpEffect s a k op t := by
  unfold commitOp at h
  split at h
  · split at h
    · obtain rfl := Option.some.inj h
      exact .insertRow _ rfl
    · obtain rfl := Option.some.inj h
      exact .quiet _ trivial (Or.inr ⟨rfl, rfl, rfl⟩) (Or.inl rfl)
  · split at h
    · obtain rfl := Option.some.inj h
      exact .updateRow _ _ rfl
    · split at h
      · obtain rfl := Option.some.inj h
        exact .quiet _ trivial (Or.inr ⟨rfl, rfl, rfl⟩) (Or.inr rfl)
      · obtain rfl := Option.some.inj h
        exact .quiet _ trivial (Or.inl ⟨rfl, rfl⟩) (Or.inr rfl)
  · split at h
    · obtain rfl := Option.some.inj h
      exact .archiveRow _ rfl
    · obtain rfl := Option.some.inj h
      exact .quiet _ trivial (Or.inl ⟨rfl, rfl⟩) (Or.inr rfl)
  · exact absurd h (by simp)

/-- A new operation relies on nothing and owns nothing. -/
def AccountOp.Unbound (op : AccountOp) : Prop :=
  (∀ rows store, OpOk rows store op) ∧ op.holds = none ∧ op.dooms = none ∧ op.locks = none

theorem unbound_finished (outcome : Option AccountError) :
    (AccountOp.finished outcome).Unbound :=
  ⟨fun _ _ => trivial, rfl, rfl, rfl⟩

theorem unbound_begin (req : CreateRequest) (rows : List AccountRow) :
    (req.begin slots rows).Unbound := by
  unfold CreateRequest.begin
  split
  · exact unbound_finished _
  · exact ⟨fun _ _ => trivial, rfl, rfl, rfl⟩

theorem unbound_withAccount {rows : List AccountRow} {id : ℕ} (h : op.Unbound) :
    (withAccount rows id op).Unbound := by
  unfold withAccount
  split
  · exact h
  · exact unbound_finished _

/-- A step is a new request, or one statement of an operation in flight. -/
theorem credentialsStep_cases (hb : backend ≠ .legacyEnv) (hinv : CredentialsInv s)
    (h : credentialsStep slots backend s a = some t) :
    (∃ op, op.Unbound ∧ t = { s with ops := s.ops ++ [op] }) ∨
      ∃ k op, s.ops[k]? = some op ∧ OpEffect s a k op t := by
  cases a with
  | create req => exact Or.inl ⟨_, unbound_begin req s.rows, (Option.some.inj h).symm⟩
  | rotate id creds actor =>
    have hlocking : (AccountOp.rotateLocking id creds actor).Unbound :=
      ⟨fun _ _ => trivial, rfl, rfl, rfl⟩
    exact Or.inl ⟨_, unbound_withAccount hlocking, (Option.some.inj h).symm⟩
  | archive id actor =>
    have hlocking : (AccountOp.archiveLocking id actor).Unbound :=
      ⟨fun _ _ => trivial, rfl, rfl, rfl⟩
    exact Or.inl ⟨_, unbound_withAccount hlocking, (Option.some.inj h).symm⟩
  | write k uuid version now =>
    obtain ⟨op, hop, h⟩ := Option.bind_eq_some_iff.mp h
    exact Or.inr ⟨k, op, hop, writeSecret_effect hb hinv.toRowsOk (hinv.ok k op hop) h⟩
  | select k now fails =>
    obtain ⟨op, hop, h⟩ := Option.bind_eq_some_iff.mp h
    refine Or.inr ⟨k, op, hop, ?_⟩
    split at h
    · obtain rfl := Option.some.inj h
      obtain ⟨hok, hkeeps⟩ := allocate_ok hb (hinv.ok k _ hop)
      exact .of_keepsOrDooms hok hkeeps rfl rfl
    · exact absurd h (by simp)
  | insert k fails =>
    obtain ⟨op, hop, h⟩ := Option.bind_eq_some_iff.mp h
    refine Or.inr ⟨k, op, hop, ?_⟩
    split at h
    · obtain ⟨op', hflush, rfl⟩ := Option.map_eq_some_iff.mp h
      obtain ⟨hok, hkeeps⟩ := flushRow_ok (hinv.ok k _ hop) hflush
      exact .of_keepsOrDooms hok hkeeps rfl rfl
    · exact absurd h (by simp)
  | lock k =>
    obtain ⟨op, hop, h⟩ := Option.bind_eq_some_iff.mp h
    obtain ⟨op', hlock, rfl⟩ := Option.map_eq_some_iff.mp h
    exact Or.inr ⟨k, op, hop, lockRow_effect hlock⟩
  | checkDeployments k active now =>
    obtain ⟨op, hop, h⟩ := Option.bind_eq_some_iff.mp h
    refine Or.inr ⟨k, op, hop, ?_⟩
    split at h
    · rename_i acct actor
      have hacct : acct ∈ s.rows := hinv.ok k _ hop
      obtain rfl := Option.some.inj h
      split
      · exact .quiet _ trivial (Or.inl ⟨rfl, rfl⟩) (Or.inr rfl)
      · exact .quiet _ ⟨rfl, acct, hacct, rfl, rfl, rfl⟩ (Or.inl ⟨rfl, rfl⟩) (Or.inl rfl)
    · exact absurd h (by simp)
  | commit k ok =>
    obtain ⟨op, hop, h⟩ := Option.bind_eq_some_iff.mp h
    exact Or.inr ⟨k, op, hop, commitOp_effect h⟩
  | delete k ok =>
    obtain ⟨op, hop, h⟩ := Option.bind_eq_some_iff.mp h
    refine Or.inr ⟨k, op, hop, ?_⟩
    split at h
    · obtain rfl := Option.some.inj h
      -- a delete that fails is given up
      cases ok with
      | true => exact .delete _ _ rfl
      | false => exact .giveUp _ _ rfl rfl
    · exact absurd h (by simp)

end Effects

end Msai.Api
