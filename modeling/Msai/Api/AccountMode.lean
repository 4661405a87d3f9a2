import Msai.Api.BrokerCredentials
import Msai.Lib.PyText

namespace Msai.Api

open Msai.Lib Msai.Lib.TransitionSystem

/-!
# The trading mode and the class of a broker account
(`services/live/broker_account_service.py`, `services/nautilus/ib_port_validator.py`)

A row says twice whether the account is a paper account: in `trading_mode` and in `account_class`.
`create` checks the two against each other; `update` writes the mode alone, and checks it against
the prefix of the account id.

* `assertAccountModeConsistent`, `UpdateRequest.check`, `updateAccount` — the update;
* `accountsSystem` — all calls of the service, `create`, `rotate` and `archive` statement by
  statement, with the committed tables as history;
* `ModeIsClass` — the two columns agree;
* `KeepsMode` — the condition on creations and updates;
* `mode_is_class_iff` — the theorem over every sequence of calls.
-/

/-! ### The update -/

/-- `IB_PAPER_PREFIXES`. -/
def ibPaperPrefixes : List String := ["DU", "DF"]

/-- `assert_account_mode_consistent`: the text of the `ValueError`, if it raises one. -/
def assertAccountModeConsistent (ibAccountId tradingMode : String) : Option String :=
  let normalized := PyText.strip ibAccountId
  if tradingMode ≠ "paper" ∧ tradingMode ≠ "live" then
    some ("trading_mode '" ++ tradingMode ++ "' is invalid; expected 'paper' or 'live'")
  else if tradingMode = "paper" ∧ ¬ ibPaperPrefixes.any (PyText.startsWith normalized) then
    -- a mode that the prefix of the id contradicts
    some ("ib_account_id '" ++ ibAccountId ++ "' is not a paper-prefix account (expected " ++
      "/".intercalate ibPaperPrefixes ++ "*); use trading_mode='live' for real-money accounts")
  else if tradingMode = "live" ∧ ¬ PyText.startsWith normalized "U" then
    some ("ib_account_id '" ++ ibAccountId ++ "' is not a live-prefix account (expected U*, NOT " ++
      "/".intercalate ibPaperPrefixes ++ "); use trading_mode='paper' for paper accounts")
  else none

/-- The arguments of `update`.  The outer `none` is `UNSET`. -/
structure UpdateRequest where
  label : Option (Option String)
  tradingMode : Option (Option String)
  ibAccountId : Option String
deriving DecidableEq, Repr

inductive UpdateError
  | immutableField
  | notFound (accountId : ℕ)
  | archived (ibAccountId : String)
  | nullMode
  | inconsistent (text : String)
deriving DecidableEq, Repr

/-- The text of the exception. -/
def UpdateError.text : UpdateError → String
  | .immutableField => "ib_account_id is immutable and cannot be changed"
  | .notFound accountId => "no broker account " ++ toString accountId
  | .archived ib => "account " ++ ib ++ " is archived and cannot be edited"
  | .nullMode => "trading_mode cannot be null"
  | .inconsistent text => text

/-- The checks of `update` on the account it has loaded. -/
def UpdateRequest.check (req : UpdateRequest) (acct : AccountRow) : Option UpdateError :=
  if acct.status = .archived then some (.archived acct.ibAccountId)
  else
    match req.tradingMode with
    | none => none
    | some none => some .nullMode
    | some (some mode) => (assertAccountModeConsistent acct.ibAccountId mode).map .inconsistent

/-- `update` accepts the request for the account it finds. -/
def UpdateRequest.Passes (req : UpdateRequest) (rows : List AccountRow) (id : ℕ) : Prop :=
  req.ibAccountId = none ∧
    ∃ acct, (rows.find? fun r => r.id == id) = some acct ∧ req.check acct = none

/-- The columns of an update. -/
def UpdateRequest.write (req : UpdateRequest) (r : AccountRow) : AccountRow :=
  { r with
    label := req.label.getD r.label
    tradingMode := (req.tradingMode.bind id).getD r.tradingMode }

/-- `update`: the table it commits, or the exception. -/
def updateAccount (rows : List AccountRow) (id : ℕ) (req : UpdateRequest) :
    Except UpdateError (List AccountRow) :=
  if req.ibAccountId.isSome then .error .immutableField
  else
    match rows.find? fun r => r.id == id with
    | none => .error (.notFound id)
    | some acct =>
      match req.check acct with
      | some e => .error e
      -- the mode is written alone: nothing looks at the class
      | none => .ok (updateById rows id req.write)

/-! ### The calls of the service -/

/-- The table and the operations in flight, and the tables that were committed before. -/
structure AccountsState where
  creds : CredentialsState
  past : List (List AccountRow)
deriving DecidableEq, Repr

/-- Every committed table of the run. -/
def AccountsState.history (s : AccountsState) : List (List AccountRow) := s.past ++ [s.creds.rows]

/-- No call has been issued. -/
def AccountsState.initial (rows : List AccountRow) (store : List StoredSecret) (drawn : List ℕ) :
    AccountsState where
  creds := { rows := rows, store := store, ops := [], drawn := drawn, written := [] }
  past := []

inductive AccountsLabel
  /-- A statement of `create`, `rotate` or `archive`. -/
  | service (a : CredentialsLabel)
  | update (id : ℕ) (req : UpdateRequest)
deriving DecidableEq, Repr

def AccountsState.next (s : AccountsState) (creds : CredentialsState) : AccountsState where
  creds := creds
  past := s.history

def accountsStep (slots : List String) (backend : CredentialsBackend) (s : AccountsState) :
    AccountsLabel → Option AccountsState
  | .service a => (credentialsStep slots backend s.creds a).map s.next
  | .update id req =>
    match updateAccount s.creds.rows id req with
    | .ok rows => some (s.next { s.creds with rows := rows })
    | .error _ => some (s.next s.creds)

/-- The services of one environment. -/
def accountsSystem (slots : List String) (environment : String) :
    TransitionSystem AccountsState AccountsLabel :=
  ⟨accountsStep slots (serviceBackend environment)⟩

/-! ### The two columns -/

/-- The mode says `paper` exactly if the class does. -/
def ModeIsClass (r : AccountRow) : Prop := r.tradingMode = "paper" ↔ r.accountClass = .paper

instance (r : AccountRow) : Decidable (ModeIsClass r) := inferInstanceAs (Decidable (_ ↔ _))

/-- The matrix that `create` checks: `paper` demands the class `paper`, and `live` another one. -/
def ClassOfMode (r : AccountRow) : Prop :=
  (r.tradingMode = "paper" → r.accountClass = .paper) ∧
    (r.tradingMode = "live" → r.accountClass ≠ .paper)

/-- A creation does not commit the class `paper` for a mode it does not know, and an accepted update
    does not turn a paper account into another one, or another one into a paper account. -/
def KeepsMode (s : AccountsState) : AccountsLabel → Prop
  | .service (.commit k true) => ∀ row, s.creds.ops[k]? = some (.inserted row) →
    row.tradingMode ≠ "paper" → row.tradingMode ≠ "live" → row.accountClass ≠ .paper
  | .service _ => True
  | .update id req => ∀ mode, req.tradingMode = some (some mode) → req.Passes s.creds.rows id →
    ∀ acct ∈ s.creds.rows, acct.id = id → (mode = "paper" ↔ acct.tradingMode = "paper")

/-! ### What the statements keep -/

/-- The request has passed the matrix. -/
def CreateRequest.ClassOfMode (req : CreateRequest) : Prop :=
  (req.tradingMode = "paper" → req.resolvedClass = "paper") ∧
    (req.tradingMode = "live" → req.resolvedClass ≠ "paper")

/-- What a creation in flight has passed. -/
def AccountOp.MatrixChecked : AccountOp → Prop
  | .putting req => req.ClassOfMode
  | .allocating req _ _ _ => req.ClassOfMode
  | .inserting req _ _ row => req.ClassOfMode ∧ ClassOfMode row
  | .inserted row => ClassOfMode row
  | _ => True

/-- The creations in flight have passed the matrix. -/
def MatrixChecked (s : CredentialsState) : Prop :=
  ∀ (k : ℕ) (op : AccountOp), s.ops[k]? = some op → op.MatrixChecked

/-- What a statement does to the table. -/
inductive RowsEffect (s : CredentialsState) : CredentialsLabel → CredentialsState → Prop
  | same {a : CredentialsLabel} {t : CredentialsState} (hrows : t.rows = s.rows)
    (hno : ∀ k row, a = .commit k true → s.ops[k]? ≠ some (.inserted row)) : RowsEffect s a t
  | insert {k : ℕ} {t : CredentialsState} {row : AccountRow}
    (hop : s.ops[k]? = some (.inserted row)) (hrows : t.rows = s.rows ++ [row]) :
    RowsEffect s (.commit k true) t
  | write {a : CredentialsLabel} {t : CredentialsState} {id : ℕ} {f : AccountRow → AccountRow}
    (hf : ∀ r, (f r).tradingMode = r.tradingMode ∧ (f r).accountClass = r.accountClass)
    (hrows : t.rows = updateById s.rows id f)
    (hno : ∀ k row, a = .commit k true → s.ops[k]? ≠ some (.inserted row)) : RowsEffect s a t

section Statements

variable {slots : List String} {backend : CredentialsBackend} {s t : CredentialsState}
  {a : CredentialsLabel} {k : ℕ} {op op' : AccountOp} {r : AccountRow}

/-- `AccountClass(value)` reads the three values back. -/
theorem AccountClass.parse_eq_paper_iff {value : String} {cls : AccountClass}
    (h : AccountClass.parse value = some cls) : cls = .paper ↔ value = "paper" := by
  unfold AccountClass.parse at h
  split at h
  · rename_i hpaper
    simp [← Option.some.inj h, hpaper]
  · rename_i hpaper
    split at h
    · simp [← Option.some.inj h, hpaper]
    · split at h
      · simp [← Option.some.inj h, hpaper]
      · exact absurd h (by simp)

/-- A creation behind its checks has passed the matrix. -/
theorem begin_matrixChecked (req : CreateRequest) (rows : List AccountRow) :
    (req.begin slots rows).MatrixChecked := by
  unfold CreateRequest.begin
  split
  · trivial
  · rename_i hcheck
    unfold CreateRequest.check at hcheck
    split at hcheck
    · exact absurd hcheck (by simp)
    · split at hcheck
      · exact absurd hcheck (by simp)
      · split at hcheck
        · exact absurd hcheck (by simp)
        · rename_i hpaper
          split at hcheck
          · exact absurd hcheck (by simp)
          · -- both lines of the matrix have passed
            rename_i hlive
            exact ⟨fun hmode => by_contra fun hcls => hpaper ⟨hmode, hcls⟩,
              fun hmode hcls => hlive ⟨hmode, hcls⟩⟩

theorem allocate_matrixChecked {rows : List AccountRow} {req : CreateRequest} {newId left now : ℕ}
    {write : CredentialWriteResult} {fails : Bool} (h : req.ClassOfMode) :
    (allocate slots backend rows req newId write left now fails).MatrixChecked := by
  unfold allocate
  split
  · trivial
  · split
    · trivial
    · split
      · trivial
      · split
        · trivial
        · rename_i cls hcls
          -- the class of the row is the one the matrix has seen
          have hpaper := AccountClass.parse_eq_paper_iff hcls
          refine ⟨h, fun hmode => hpaper.mpr (h.1 hmode), fun hmode hcls => ?_⟩
          exact h.2 hmode (hpaper.mp hcls)

theorem flushRow_matrixChecked {rows flushed : List AccountRow} {req : CreateRequest}
    {write : CredentialWriteResult} {left : ℕ} {row : AccountRow} {fails : Bool}
    (hreq : req.ClassOfMode) (hrow : ClassOfMode row)
    (h : flushRow rows flushed req write left row fails = some op') : op'.MatrixChecked := by
  unfold flushRow at h
  split at h
  · obtain rfl := Option.some.inj h
    trivial
  · split at h
    · obtain rfl := Option.some.inj h
      trivial
    · split at h
      · exact absurd h (by simp)
      · split at h
        · split at h
          · obtain rfl := Option.some.inj h
            trivial
          · obtain rfl := Option.some.inj h
            exact hreq
        · split at h
          · exact absurd h (by simp)
          · obtain rfl := Option.some.inj h
            exact hrow

theorem lockRow_matrixChecked {rows : List AccountRow} {locked : List ℕ}
    (h : lockRow rows locked op = some op') : op'.MatrixChecked := by
  unfold lockRow at h
  split at h
  · split at h
    · exact absurd h (by simp)
    · obtain ⟨acct, -, rfl⟩ := Option.map_eq_some_iff.mp h
      split <;> trivial
  · split at h
    · exact absurd h (by simp)
    · obtain ⟨acct, -, rfl⟩ := Option.map_eq_some_iff.mp h
      trivial
  · exact absurd h (by simp)

theorem MatrixChecked.set (hs : MatrixChecked s) (hops : t.ops = s.ops.set k op')
    (hop : op'.MatrixChecked) : MatrixChecked t := by
  intro j o hj
  rw [hops] at hj
  rcases getElem?_set_cases hj with ⟨-, rfl⟩ | ⟨-, hj⟩
  · exact hop
  · exact hs j o hj

theorem MatrixChecked.append (hs : MatrixChecked s) (hops : t.ops = s.ops ++ [op'])
    (hop : op'.MatrixChecked) : MatrixChecked t := by
  intro j o hj
  rw [hops] at hj
  rcases getElem?_concat_cases hj with ⟨-, rfl⟩ | hj
  · exact hop
  · exact hs j o hj

/-- A write to the store leaves the table alone. -/
theorem writeSecret_rows {uuid now : ℕ} {version : Option String} (hs : MatrixChecked s)
    (hop : s.ops[k]? = some op)
    (h : writeSecret slots backend s k uuid version now op = some t) :
    t.rows = s.rows ∧ MatrixChecked t := by
  have hmatrix := hs k op hop
  unfold writeSecret at h
  split at h
  · split at h
    · obtain rfl := Option.some.inj h
      exact ⟨rfl, hs.set rfl trivial⟩
    · split at h
      · exact absurd h (by simp)
      · obtain rfl := Option.some.inj h
        exact ⟨rfl, hs.set rfl hmatrix⟩
  · split at h
    · obtain rfl := Option.some.inj h
      exact ⟨rfl, hs.set rfl trivial⟩
    · split at h
      · split at h
        · exact absurd h (by simp)
        · obtain rfl := Option.some.inj h
          exact ⟨rfl, hs.set rfl trivial⟩
      · obtain rfl := Option.some.inj h
        exact ⟨rfl, hs.set rfl trivial⟩
  · exact absurd h (by simp)

/-- A commit adds the row of a creation, or writes neither column. -/
theorem commitOp_rows {ok : Bool} (hs : MatrixChecked s) (hop : s.ops[k]? = some op)
    (h : commitOp s k ok op = some t) : RowsEffect s (.commit k ok) t ∧ MatrixChecked t := by
  -- a commit of another operation adds no row
  have hother : (∀ row, op ≠ .inserted row) → ∀ j row, CredentialsLabel.commit k ok =
      .commit j true → s.ops[j]? ≠ some (.inserted row) := by
    rintro hne j row hj hrow
    obtain ⟨rfl, -⟩ := CredentialsLabel.commit.inj hj
    exact hne row (Option.some.inj (hop.symm.trans hrow))
  unfold commitOp at h
  split at h
  · rename_i row
    split at h
    · rename_i hok
      obtain rfl := Option.some.inj h
      subst hok
      exact ⟨.insert hop rfl, hs.set rfl trivial⟩
    · rename_i hok
      obtain rfl := Option.some.inj h
      exact ⟨.same rfl (by simp [hok]), hs.set rfl trivial⟩
  · rename_i acct _
    split at h
    · -- a rotation writes neither the mode nor the class
      obtain rfl := Option.some.inj h
      have hkeeps : ∀ r : AccountRow, (r.writeCredentials acct).tradingMode = r.tradingMode ∧
          (r.writeCredentials acct).accountClass = r.accountClass := fun _ => ⟨rfl, rfl⟩
      exact ⟨.write hkeeps rfl (hother (by simp)), hs.set rfl trivial⟩
    · split at h
      · obtain rfl := Option.some.inj h
        exact ⟨.same rfl (hother (by simp)), hs.set rfl trivial⟩
      · obtain rfl := Option.some.inj h
        exact ⟨.same rfl (hother (by simp)), hs.set rfl trivial⟩
  · rename_i acct
    split at h
    · -- nor does an archive
      obtain rfl := Option.some.inj h
      have hkeeps : ∀ r : AccountRow, (r.writeArchived acct).tradingMode = r.tradingMode ∧
          (r.writeArchived acct).accountClass = r.accountClass := fun _ => ⟨rfl, rfl⟩
      refine ⟨.write hkeeps rfl (hother (by simp)), hs.set rfl ?_⟩
      split <;> trivial
    · obtain rfl := Option.some.inj h
      exact ⟨.same rfl (hother (by simp)), hs.set rfl trivial⟩
  · exact absurd h (by simp)

/-- What a statement of the service does to the table, and that it keeps the matrix of the
    creations. -/
theorem credentialsStep_rows (hs : MatrixChecked s)
    (h : credentialsStep slots backend s a = some t) : RowsEffect s a t ∧ MatrixChecked t := by
  cases a with
  | create req =>
    obtain rfl := Option.some.inj h
    exact ⟨.same rfl (by simp), hs.append rfl (begin_matrixChecked req s.rows)⟩
  | rotate id creds actor =>
    obtain rfl := Option.some.inj h
    refine ⟨.same rfl (by simp), hs.append rfl ?_⟩
    unfold withAccount
    split <;> trivial
  | archive id actor =>
    obtain rfl := Option.some.inj h
    refine ⟨.same rfl (by simp), hs.append rfl ?_⟩
    unfold withAccount
    split <;> trivial
  | write k uuid version now =>
    obtain ⟨op, hop, hwrite⟩ := Option.bind_eq_some_iff.mp h
    obtain ⟨hrows, hmatrix⟩ := writeSecret_rows hs hop hwrite
    exact ⟨.same hrows (by simp), hmatrix⟩
  | select k now fails =>
    obtain ⟨op, hop, hselect⟩ := Option.bind_eq_some_iff.mp h
    have hmatrix := hs k op hop
    split at hselect
    · obtain rfl := Option.some.inj hselect
      exact ⟨.same rfl (by simp), hs.set rfl (allocate_matrixChecked hmatrix)⟩
    · exact absurd hselect (by simp)
  | insert k fails =>
    obtain ⟨op, hop, hinsert⟩ := Option.bind_eq_some_iff.mp h
    have hmatrix := hs k op hop
    split at hinsert
    · obtain ⟨op', hflush, rfl⟩ := Option.map_eq_some_iff.mp hinsert
      exact ⟨.same rfl (by simp), hs.set rfl (flushRow_matrixChecked hmatrix.1 hmatrix.2 hflush)⟩
    · exact absurd hinsert (by simp)
  | lock k =>
    obtain ⟨op, hop, hlock⟩ := Option.bind_eq_some_iff.mp h
    obtain ⟨op', hlocked, rfl⟩ := Option.map_eq_some_iff.mp hlock
    exact ⟨.same rfl (by simp), hs.set rfl (lockRow_matrixChecked hlocked)⟩
  | checkDeployments k active now =>
    obtain ⟨op, hop, hcheck⟩ := Option.bind_eq_some_iff.mp h
    split at hcheck
    · obtain rfl := Option.some.inj hcheck
      refine ⟨.same rfl (by simp), hs.set rfl ?_⟩
      split <;> trivial
    · exact absurd hcheck (by simp)
  | commit k ok =>
    obtain ⟨op, hop, hcommit⟩ := Option.bind_eq_some_iff.mp h
    exact commitOp_rows hs hop hcommit
  | delete k ok =>
    obtain ⟨op, hop, hdelete⟩ := Option.bind_eq_some_iff.mp h
    split at hdelete
    · obtain rfl := Option.some.inj hdelete
      exact ⟨.same rfl (by simp), hs.set rfl trivial⟩
    · exact absurd hdelete (by simp)

end Statements

/-! ### Every sequence of calls -/

/-- In every committed table the two columns agree. -/
def AccountsState.Agreed (s : AccountsState) : Prop :=
  ∀ rows ∈ s.history, ∀ r ∈ rows, ModeIsClass r

instance (s : AccountsState) : Decidable s.Agreed :=
  inferInstanceAs (Decidable (∀ rows ∈ s.history, ∀ r ∈ rows, ModeIsClass r))

section Calls

variable {slots : List String} {backend : CredentialsBackend} {s t : AccountsState}
  {a : AccountsLabel} {creds : CredentialsState} {rows : List AccountRow} {id : ℕ}
  {req : UpdateRequest} {r : AccountRow}

theorem agreed_next_iff :
    (s.next creds).Agreed ↔ s.Agreed ∧ ∀ r ∈ creds.rows, ModeIsClass r := by
  show (∀ rows ∈ s.history ++ [creds.rows], ∀ r ∈ rows, ModeIsClass r) ↔ _
  rw [List.forall_mem_append, List.forall_mem_singleton]
  rfl

theorem AccountsState.Agreed.last (h : s.Agreed) : ∀ r ∈ s.creds.rows, ModeIsClass r :=
  h s.creds.rows (List.mem_append_right _ (List.mem_singleton_self _))

/-- A row that has passed the matrix agrees unless its mode is unknown and its class is `paper`. -/
theorem ClassOfMode.modeIsClass_iff (h : ClassOfMode r) :
    ModeIsClass r ↔
      (r.tradingMode ≠ "paper" → r.tradingMode ≠ "live" → r.accountClass ≠ .paper) := by
  constructor
  · intro hagree hpaper _ hcls
    -- a paper class beside another mode contradicts the row
    exact hpaper (hagree.mpr hcls)
  · intro hother
    refine ⟨h.1, fun hcls => by_contra fun hpaper => ?_⟩
    exact hother hpaper (fun hlive => h.2 hlive hcls) hcls

/-- Rows that keep their columns keep agreeing. -/
theorem modeIsClass_updateById {f : AccountRow → AccountRow}
    (hf : ∀ r, (f r).tradingMode = r.tradingMode ∧ (f r).accountClass = r.accountClass)
    (h : ∀ r ∈ rows, ModeIsClass r) : ∀ r ∈ updateById rows id f, ModeIsClass r := by
  intro r hr
  obtain ⟨r₀, hr₀, rfl⟩ := List.mem_map.mp hr
  split
  · rw [ModeIsClass, (hf r₀).1, (hf r₀).2]
    exact h r₀ hr₀
  · exact h r₀ hr₀

/-- A statement of `create`, `rotate` or `archive` keeps the columns exactly if it meets the
    condition. -/
theorem credentialsStep_agree_iff {b : CredentialsLabel} (hs : MatrixChecked s.creds)
    (h : credentialsStep slots backend s.creds b = some creds)
    (hagree : ∀ r ∈ s.creds.rows, ModeIsClass r) :
    (∀ r ∈ creds.rows, ModeIsClass r) ↔ KeepsMode s (.service b) := by
  -- a statement that inserts no row meets the condition
  have hno : (∀ k row, b = .commit k true → s.creds.ops[k]? ≠ some (.inserted row)) →
      KeepsMode s (.service b) := by
    intro hno
    unfold KeepsMode
    split
    · rename_i k heq
      intro row hrow
      exact absurd hrow (hno k row (AccountsLabel.service.inj heq))
    · trivial
    · rename_i heq
      exact absurd heq (by simp)
  cases (credentialsStep_rows hs h).1 with
  | same hrows hnone =>
    rw [hrows]
    exact iff_of_true hagree (hno hnone)
  | @insert k _ row hop hrows =>
    rw [hrows, List.forall_mem_append, List.forall_mem_singleton,
      (hs k _ hop : ClassOfMode row).modeIsClass_iff]
    constructor
    · rintro ⟨-, hrow⟩ row' hop'
      obtain rfl : row = row' := by simpa using hop.symm.trans hop'
      exact hrow
    · exact fun hcond => ⟨hagree, hcond row hop⟩
  | write hf hrows hnone =>
    rw [hrows]
    exact iff_of_true (modeIsClass_updateById hf hagree) (hno hnone)

/-- A refused update commits nothing, and an accepted one writes the account. -/
theorem updateAccount_cases (rows : List AccountRow) (id : ℕ) (req : UpdateRequest) :
    (¬ req.Passes rows id ∧ ∃ e, updateAccount rows id req = .error e) ∨
      req.Passes rows id ∧ updateAccount rows id req = .ok (updateById rows id req.write) := by
  unfold updateAccount UpdateRequest.Passes
  cases hib : req.ibAccountId with
  | some ib => exact Or.inl ⟨by simp, _, rfl⟩
  | none =>
    cases hfind : rows.find? fun r => r.id == id with
    | none => exact Or.inl ⟨by simp, _, rfl⟩
    | some acct =>
      cases hcheck : req.check acct with
      | some e => exact Or.inl ⟨by simp [hcheck], e, by simp [hcheck]⟩
      | none => exact Or.inr ⟨⟨rfl, acct, rfl, hcheck⟩, by simp [hcheck]⟩

/-- An accepted update keeps the columns exactly if it does not switch the mode to or from
    `paper`. -/
theorem updateById_agree_iff (hagree : ∀ r ∈ rows, ModeIsClass r) :
    (∀ r ∈ updateById rows id req.write, ModeIsClass r) ↔
      ∀ mode, req.tradingMode = some (some mode) →
        ∀ acct ∈ rows, acct.id = id → (mode = "paper" ↔ acct.tradingMode = "paper") := by
  constructor
  · intro h mode hmode acct hacct hid
    -- the written row has the new mode and the old class
    have hwritten : ModeIsClass (req.write acct) :=
      h _ (List.mem_map.mpr ⟨acct, hacct, if_pos hid⟩)
    have hnew : (req.write acct).tradingMode = mode := by simp [UpdateRequest.write, hmode]
    rw [ModeIsClass, hnew] at hwritten
    exact hwritten.trans (hagree acct hacct).symm
  · intro h r hr
    obtain ⟨acct, hacct, rfl⟩ := List.mem_map.mp hr
    split
    · rename_i hid
      show (req.tradingMode.bind fun mode => mode).getD acct.tradingMode = "paper" ↔
        acct.accountClass = .paper
      have hclass : acct.tradingMode = "paper" ↔ acct.accountClass = .paper := hagree acct hacct
      rw [← hclass]
      -- only a mode that is set can switch
      match hmode : req.tradingMode with
      | none => exact Iff.rfl
      | some none => exact Iff.rfl
      | some (some mode) => exact h mode hmode acct hacct hid
    · exact hagree acct hacct

/-- **One call or statement** keeps the columns in agreement exactly if it meets the condition. -/
theorem accountsStep_agreed_iff (hs : MatrixChecked s.creds)
    (h : accountsStep slots backend s a = some t) : t.Agreed ↔ s.Agreed ∧ KeepsMode s a := by
  cases a with
  | service b =>
    obtain ⟨creds, hstep, rfl⟩ := Option.map_eq_some_iff.mp h
    rw [agreed_next_iff]
    exact and_congr_right fun hagreed => credentialsStep_agree_iff hs hstep hagreed.last
  | update id req =>
    rcases updateAccount_cases s.creds.rows id req with
      ⟨hrefused, e, herror⟩ | ⟨hpasses, hok⟩
    · -- refused: the table is the one before
      simp only [accountsStep, herror] at h
      obtain rfl := Option.some.inj h
      rw [agreed_next_iff]
      refine and_congr_right fun hagreed => iff_of_true hagreed.last ?_
      intro mode _ hpasses
      exact absurd hpasses hrefused
    · -- accepted: the mode of one account is written
      simp only [accountsStep, hok] at h
      obtain rfl := Option.some.inj h
      rw [agreed_next_iff]
      refine and_congr_right fun hagreed => (updateById_agree_iff hagreed.last).trans ?_
      exact ⟨fun hmode mode heq _ => hmode mode heq, fun hmode mode heq => hmode mode heq hpasses⟩

end Calls

/-- **Mode and class agree in every committed table**, exactly if no creation commits the class
    `paper` for an unknown mode, and no accepted update switches a mode to or from `paper`. -/
theorem mode_is_class_iff {slots : List String} {environment : String} {rows : List AccountRow}
    {store : List StoredSecret} {drawn : List ℕ} {as : List AccountsLabel} {s : AccountsState}
    (hrows : ∀ r ∈ rows, ModeIsClass r)
    (h : Path (accountsSystem slots environment) anyStep (.initial rows store drawn) as s) :
    s.Agreed ↔
      Path (accountsSystem slots environment) KeepsMode (.initial rows store drawn) as s := by
  have hmatrix : MatrixChecked (AccountsState.initial rows store drawn).creds := by
    intro k op hop
    exact absurd hop (by simp [AccountsState.initial])
  refine h.good_iff_of (I := fun s => MatrixChecked s.creds) (fun s a t hs hstep => ?_)
    (fun _ _ _ hs hstep => accountsStep_agreed_iff hs hstep) hmatrix ?_
  · cases a with
    | service b =>
      obtain ⟨creds, hcreds, rfl⟩ := Option.map_eq_some_iff.mp hstep
      exact (credentialsStep_rows hs hcreds).2
    | update id req =>
      rcases updateAccount_cases s.creds.rows id req with
        ⟨-, e, herror⟩ | ⟨-, hok⟩
      · obtain rfl : s.next s.creds = t := by
          simpa [accountsSystem, accountsStep, herror] using hstep
        exact hs
      · obtain rfl : s.next { s.creds with rows := updateById s.creds.rows id req.write } = t := by
          simpa [accountsSystem, accountsStep, hok] using hstep
        exact hs
  · intro table htable
    obtain rfl : table = rows := by
      simpa [AccountsState.initial, AccountsState.history] using htable
    exact hrows

/-! ### An account id and two modes -/

/-- A creation in the given mode, for an account id with a paper prefix. -/
def createIn (tradingMode : String) : CreateRequest where
  ibAccountId := "DU1"
  ibLoginKey := "login"
  tradingMode := tradingMode
  gatewaySlot := none
  creds := ⟨"user", "password"⟩
  actor := "operator"
  label := none
  createdBy := none
  accountClass := none

/-- The creation, and an update of the account to `paper`. -/
def createThenPaper (tradingMode : String) : List AccountsLabel :=
  [.service (.create (createIn tradingMode)), .service (.write 0 1 (some "v1") 10),
    .service (.select 0 11 false), .service (.insert 0 false), .service (.commit 0 true),
    .update 1 ⟨some (some "desk"), some (some "paper"), none⟩]

theorem mode_is_class_paper : ∃ s : AccountsState,
    Path (accountsSystem ["slot1"] "production") KeepsMode (.initial [] [] [])
      (createThenPaper "paper") s ∧
      s.creds.rows.map (fun r => (r.label, r.tradingMode, r.accountClass)) =
        [(some "desk", "paper", .paper)] := by
  obtain ⟨s, hrun, hagreed, hrows⟩ :
      ∃ s, (accountsSystem ["slot1"] "production").run (.initial [] [] [])
        (createThenPaper "paper") = some s ∧ s.Agreed ∧
        s.creds.rows.map (fun r => (r.label, r.tradingMode, r.accountClass)) =
          [(some "desk", "paper", .paper)] :=
    ⟨_, rfl, by decide, rfl⟩
  exact ⟨s, (mode_is_class_iff (by simp) (Path.of_run hrun)).mp hagreed, hrows⟩

/-- **The slip.**  An account with a paper prefix is created as a live one of the class `test`, and
    an update makes its mode `paper` and leaves its class. -/
theorem mode_is_class_fails :
    ¬∀ (as : List AccountsLabel) (s : AccountsState),
      Path (accountsSystem ["slot1"] "production") anyStep (.initial [] [] []) as s → s.Agreed := by
  intro h
  have hagreed := h (createThenPaper "live") _ (.of_run rfl)
  exact absurd hagreed (by decide)

end Msai.Api
