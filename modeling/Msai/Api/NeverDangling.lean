import Msai.Api.CredentialEffects

namespace Msai.Api

open Msai.Lib Msai.Lib.TransitionSystem

/-!
# No dangling and no orphaned credentials

Each effect of a statement keeps both invariants; the second one needs deletes that succeed.

* `CredentialsInv.replace` — the replacement rule, for a step of one operation; `inherit` and
  `finish` are its cases for an operation that owns nothing new, or nothing any more;
* `CredentialsInv.provision`, `insertRow`, `updateRow`, `archiveRow`, `delete` — one lemma for each
  effect that changes the table or the store;
* `OpEffect.inv`, `OpEffect.covered` — every effect keeps the invariants;
* `credentials_never_dangle` — the theorem.
-/

/-! ### Replacing one operation -/

section Replace

variable {s t : CredentialsState} {k : ℕ} {op op' op₁ : AccountOp}

/-- What an operation relies on outlives a change that leaves its locked row and its secret. -/
theorem OpOk.mono {rows rows' : List AccountRow} {store store' : List StoredSecret}
    (hok : OpOk rows store op) (hrows : ∀ r ∈ rows, op.locks = some r.id → r ∈ rows')
    (hstore : ∀ ref v, Stored store ref v →
      (op.holds = some ref ∨ ∃ r ∈ rows, r.NeedsSecret ∧ r.credentialsSecretRef = ref) →
      Stored store' ref v) :
    OpOk rows' store' op := by
  cases op with
  | putting req => trivial
  | allocating req newId write left => exact ⟨hok.1, hstore _ _ hok.2 (Or.inl rfl)⟩
  | inserting req write left row => exact ⟨hok.1, hstore _ _ hok.2.1 (Or.inl rfl), hok.2.2⟩
  | inserted row =>
    obtain ⟨href, hneeds, v, hv, hstored⟩ := hok
    exact ⟨href, hneeds, v, hv, hstore _ _ hstored (Or.inl rfl)⟩
  | rotateLocking id creds actor => trivial
  | rotateWriting acct creds actor => exact ⟨hrows acct hok.1 rfl, hok.2⟩
  | rotateCommitting acct promotedRef =>
    obtain ⟨hmanaged, ⟨v, hv, hstored⟩, hid, r, hr, hrid, hactive, hkind⟩ := hok
    have hr' : r ∈ rows' := hrows r hr (congrArg some hrid.symm)
    refine ⟨hmanaged, ⟨v, hv, hstore _ _ hstored ?_⟩, hid, r, hr', hrid, hactive, hkind⟩
    cases promotedRef with
    | none => exact Or.inr ⟨r, hr, ⟨hactive, hkind.2⟩, hkind.1⟩
    | some ref => exact Or.inl (congrArg some hkind.1.symm)
  | archiveLocking id actor => trivial
  | archiveChecking acct actor => exact hrows acct hok rfl
  | archiveCommitting acct =>
    obtain ⟨hstatus, r, hr, hrid, hcolumns⟩ := hok
    exact ⟨hstatus, r, hrows r hr (congrArg some hrid.symm), hrid, hcolumns⟩
  | deleting ref outcome => trivial
  | finished outcome => trivial

/-- The operation owns nothing it did not own before, but for a secret it may have given up. -/
structure Inherits (op' op : AccountOp) : Prop where
  holds : ∀ ref, op'.holds = some ref → op.holds = some ref
  dooms : ∀ ref, op'.dooms = some ref → op.holds = some ref ∨ op.dooms = some ref
  locks : ∀ id, op'.locks = some id → op.locks = some id

theorem inherits_finished (op : AccountOp) (outcome : Option AccountError) :
    Inherits (.finished outcome) op where
  holds ref h := absurd h (by simp [AccountOp.holds])
  dooms ref h := absurd h (by simp [AccountOp.dooms])
  locks id h := absurd h (by simp [AccountOp.locks])

theorem foreign_finished (outcome : Option AccountError) (r : AccountRow) :
    Foreign (.finished outcome) r := by
  simp [Foreign, AccountOp.holds, AccountOp.dooms]

theorem Inherits.apart (h : Inherits op' op) (hl : Apart op op₁) (hr : Apart op₁ op) :
    Apart op' op₁ ∧ Apart op₁ op' := by
  refine ⟨⟨fun ref href => hl.1 ref (h.holds ref href), fun id hid => hl.2 id (h.locks id hid)⟩,
    fun ref href => ⟨fun hholds => ?_, fun hdooms => ?_⟩, fun id hid hlocks => ?_⟩
  · exact (hr.1 ref href).1 (h.holds ref hholds)
  · rcases h.dooms ref hdooms with hholds | hdooms
    · exact (hr.1 ref href).1 hholds
    · exact (hr.1 ref href).2 hdooms
  · exact hr.2 id hid (h.locks id hlocks)

theorem Inherits.foreign (h : Inherits op' op) {r : AccountRow} (hr : Foreign op r) :
    Foreign op' r := by
  refine ⟨fun hholds => hr.1 (h.holds _ hholds), fun hm hholds => hr.2.1 hm (h.holds _ hholds),
    fun hneeds hdooms => ?_⟩
  rcases h.dooms _ hdooms with hholds | hdooms
  · exact hr.2.1 hneeds.2 hholds
  · exact hr.2.2 hneeds hdooms

/-- **Replacement rule.**  The invariant after operation `k` has become `op'`, from what the change
    means for the table, for `op'`, and for the other operations. -/
theorem CredentialsInv.replace (hinv : CredentialsInv s) (hrows : RowsOk t)
    (hdrawn : ∀ u ∈ s.drawn, u ∈ t.drawn) (hops : t.ops = s.ops.set k op')
    (hok : OpOk t.rows t.store op')
    (hknown : ∀ ref, op'.holds = some ref ∨ op'.dooms = some ref → Known t.drawn ref)
    (hforeign : ∀ r ∈ t.rows, Foreign op' r)
    (hother : ∀ j op₁, j ≠ k → s.ops[j]? = some op₁ →
      OpOk t.rows t.store op₁ ∧ (∀ r ∈ t.rows, Foreign op₁ r) ∧ Apart op' op₁ ∧ Apart op₁ op') :
    CredentialsInv t := by
  have hcases : ∀ {j : ℕ} {op₁ : AccountOp}, t.ops[j]? = some op₁ →
      (j = k ∧ op₁ = op') ∨ (j ≠ k ∧ s.ops[j]? = some op₁) := by
    intro j op₁ hj
    rw [hops] at hj
    exact getElem?_set_cases hj
  refine { toRowsOk := hrows, ok := ?_, known := ?_, foreign := ?_, apart := ?_ }
  · intro j op₁ hj
    rcases hcases hj with ⟨-, rfl⟩ | ⟨hne, hj⟩
    · exact hok
    · exact (hother j op₁ hne hj).1
  · intro j op₁ ref hj href
    rcases hcases hj with ⟨-, rfl⟩ | ⟨-, hj⟩
    · exact hknown ref href
    · obtain ⟨u, hu, huuid⟩ := hinv.known j op₁ ref hj href
      exact ⟨u, hdrawn u hu, huuid⟩
  · intro j op₁ hj
    rcases hcases hj with ⟨-, rfl⟩ | ⟨hne, hj⟩
    · exact hforeign
    · exact (hother j op₁ hne hj).2.1
  · intro i j op₁ op₂ hij hi hj
    rcases hcases hi with ⟨rfl, rfl⟩ | ⟨hik, hi⟩
    · rcases hcases hj with ⟨rfl, -⟩ | ⟨hjk, hj⟩
      · exact absurd rfl hij
      · exact (hother j op₂ hjk hj).2.2.1
    · rcases hcases hj with ⟨rfl, rfl⟩ | ⟨-, hj⟩
      · exact (hother i op₁ hik hi).2.2.2
      · exact hinv.apart i j op₁ op₂ hij hi hj

/-- The replacement rule for an operation that inherits its duties. -/
theorem CredentialsInv.inherit (hinv : CredentialsInv s) (hop : s.ops[k]? = some op)
    (hin : Inherits op' op) (hrows : RowsOk t) (hdrawn : ∀ u ∈ s.drawn, u ∈ t.drawn)
    (hops : t.ops = s.ops.set k op') (hok : OpOk t.rows t.store op')
    (hforeign : ∀ r ∈ t.rows, Foreign op' r)
    (hother : ∀ j op₁, j ≠ k → s.ops[j]? = some op₁ →
      OpOk t.rows t.store op₁ ∧ ∀ r ∈ t.rows, Foreign op₁ r) :
    CredentialsInv t := by
  refine hinv.replace hrows hdrawn hops hok ?_ hforeign fun j op₁ hne hj => ?_
  · intro ref href
    have hbefore : op.holds = some ref ∨ op.dooms = some ref := by
      rcases href with hholds | hdooms
      · exact Or.inl (hin.holds ref hholds)
      · exact hin.dooms ref hdooms
    obtain ⟨u, hu, huuid⟩ := hinv.known k op ref hop hbefore
    exact ⟨u, hdrawn u hu, huuid⟩
  · obtain ⟨hok₁, hforeign₁⟩ := hother j op₁ hne hj
    exact ⟨hok₁, hforeign₁, hin.apart (hinv.apart k j op op₁ (Ne.symm hne) hop hj)
      (hinv.apart j k op₁ op hne hj hop)⟩

/-- The replacement rule for an operation that ends. -/
theorem CredentialsInv.finish (hinv : CredentialsInv s) (hop : s.ops[k]? = some op)
    {outcome : Option AccountError} (hrows : RowsOk t) (hdrawn : t.drawn = s.drawn)
    (hops : t.ops = s.ops.set k (.finished outcome))
    (hother : ∀ j op₁, j ≠ k → s.ops[j]? = some op₁ →
      OpOk t.rows t.store op₁ ∧ ∀ r ∈ t.rows, Foreign op₁ r) :
    CredentialsInv t :=
  hinv.inherit hop (inherits_finished op outcome) hrows (fun _ h => hdrawn ▸ h) hops trivial
    (fun r _ => foreign_finished outcome r) hother

end Replace

/-! ### The effects keep the invariant -/

section Steps

variable {s t : CredentialsState} {k : ℕ} {op op' : AccountOp}

theorem RowsOk.of_same (h : RowsOk s) (hrows : t.rows = s.rows)
    (hdrawn : ∀ u ∈ s.drawn, u ∈ t.drawn)
    (hstore : ∀ ref v, Stored s.store ref v → Stored t.store ref v) : RowsOk t where
  drawn r hr := hdrawn r.id (h.drawn r (hrows ▸ hr))
  distinct := hrows ▸ h.distinct
  owned r hr hmanaged := by
    obtain ⟨hid, u, hu, huuid⟩ := h.owned r (hrows ▸ hr) hmanaged
    exact ⟨hid, u, hdrawn u hu, huuid⟩
  served r hr hneeds := by
    obtain ⟨v, hv, hstored⟩ := h.served r (hrows ▸ hr) hneeds
    exact ⟨v, hv, hstore _ v hstored⟩

theorem RowsOk.of_ops (h : RowsOk s) (ops : List AccountOp) : RowsOk { s with ops := ops } :=
  h.of_same rfl (fun _ hu => hu) fun _ _ hstored => hstored

theorem CredentialsInv.append (hinv : CredentialsInv s) (hop : op.Unbound) :
    CredentialsInv { s with ops := s.ops ++ [op] } := by
  obtain ⟨hok, hholds, hdooms, hlocks⟩ := hop
  refine { toRowsOk := hinv.toRowsOk.of_ops _,
           ok := ?_, known := ?_, foreign := ?_, apart := ?_ }
  · intro j op₁ hj
    rcases getElem?_concat_cases hj with ⟨-, rfl⟩ | hj
    · exact hok _ _
    · exact hinv.ok j op₁ hj
  · intro j op₁ ref hj href
    rcases getElem?_concat_cases hj with ⟨-, rfl⟩ | hj
    · simp [hholds, hdooms] at href
    · exact hinv.known j op₁ ref hj href
  · intro j op₁ hj
    rcases getElem?_concat_cases hj with ⟨-, rfl⟩ | hj
    · intro r _
      simp [Foreign, hholds, hdooms]
    · exact hinv.foreign j op₁ hj
  · intro i j op₁ op₂ hij hi hj
    rcases getElem?_concat_cases hi with ⟨hi', rfl⟩ | hi
    · simp [Apart, hholds, hlocks]
    · rcases getElem?_concat_cases hj with ⟨-, rfl⟩ | hj
      · simp [Apart, hholds, hdooms, hlocks]
      · exact hinv.apart i j op₁ op₂ hij hi hj

theorem CredentialsInv.quiet (hinv : CredentialsInv s) (hop : s.ops[k]? = some op)
    (hok : OpOk s.rows s.store op')
    (hsecret : op'.holds = op.holds ∧ op'.dooms = op.dooms ∨
      op'.holds = none ∧ op'.dooms = op.holds ∧ op.dooms = none)
    (hlocks : op'.locks = op.locks ∨ op'.locks = none) :
    CredentialsInv { s with ops := s.ops.set k op' } := by
  have hin : Inherits op' op := by
    refine ⟨fun ref h => ?_, fun ref h => ?_, fun id h => ?_⟩
    · rcases hsecret with ⟨hh, -⟩ | ⟨hh, -⟩
      · exact hh ▸ h
      · exact absurd (hh.symm.trans h) (by simp)
    · rcases hsecret with ⟨-, hd⟩ | ⟨-, hd, -⟩
      · exact Or.inr (hd ▸ h)
      · exact Or.inl (hd ▸ h)
    · rcases hlocks with hl | hl
      · exact hl ▸ h
      · exact absurd (hl.symm.trans h) (by simp)
  exact hinv.inherit hop hin (hinv.toRowsOk.of_ops _) (fun _ h => h) rfl hok
    (fun r hr => hin.foreign (hinv.foreign k op hop r hr))
    fun j op₁ _ hj => ⟨hinv.ok j op₁ hj, hinv.foreign j op₁ hj⟩

/-- A lock is taken only while nobody else has it. -/
theorem CredentialsInv.lock (hinv : CredentialsInv s) {id : ℕ} (hok : OpOk s.rows s.store op')
    (hfree : id ∉ s.ops.filterMap (·.locks)) (hlocks : op'.locks = some id)
    (hsecret : op'.holds = none ∧ op'.dooms = none) :
    CredentialsInv { s with ops := s.ops.set k op' } := by
  obtain ⟨hholds, hdooms⟩ := hsecret
  refine hinv.replace (hinv.toRowsOk.of_ops _) (fun _ h => h) rfl hok ?_ ?_
    fun j op₁ _ hj => ⟨hinv.ok j op₁ hj, hinv.foreign j op₁ hj, ?_⟩
  · intro ref href
    simp [hholds, hdooms] at href
  · intro r _
    simp [Foreign, hholds, hdooms]
  · have hne : op₁.locks ≠ some id := fun h =>
      hfree (List.mem_filterMap.mpr ⟨op₁, List.mem_of_getElem? hj, h⟩)
    constructor
    · refine ⟨fun ref href => absurd (hholds.symm.trans href) (by simp), fun i hi => ?_⟩
      obtain rfl : id = i := Option.some.inj (hlocks.symm.trans hi)
      exact hne
    · refine ⟨fun ref _ => by simp [hholds, hdooms], fun i hi h => ?_⟩
      obtain rfl : id = i := Option.some.inj (hlocks.symm.trans h)
      exact hne hi

theorem Stored.rotate {store : List StoredSecret} {ref : SecretRef} {v : String}
    (h : Stored store ref v) (write : CredentialWriteResult) (creds : Credentials) :
    Stored (storeRotate store write creds) ref v :=
  stored_storeRotate.mpr (Or.inr h)

/-- A name with a new uuid belongs to no row and to no other operation. -/
theorem CredentialsInv.provision (hinv : CredentialsInv s) (hop : s.ops[k]? = some op)
    {write : CredentialWriteResult} {creds : Credentials} {u : ℕ} {written : List SecretRef}
    (hok : OpOk s.rows (storeRotate s.store write creds) op') (hlocks : op'.locks = op.locks)
    (hdooms : op'.dooms = none) (hfresh : u ∉ s.drawn) (huuid : write.secretRef.uuid = some u)
    (hholds : op'.holds = some write.secretRef) :
    CredentialsInv
      { s with
        store := storeRotate s.store write creds
        ops := s.ops.set k op'
        drawn := u :: s.drawn
        written := written } := by
  have hunknown : ¬ Known s.drawn write.secretRef := by
    rintro ⟨u', hu', huuid'⟩
    obtain rfl : u = u' := Option.some.inj (huuid.symm.trans huuid')
    exact hfresh hu'
  have hstore : ∀ ref v, Stored s.store ref v → Stored (storeRotate s.store write creds) ref v :=
    fun _ _ h => h.rotate write creds
  have hdrawn : ∀ u' ∈ s.drawn, u' ∈ u :: s.drawn := fun _ h => List.mem_cons_of_mem _ h
  refine hinv.replace (hinv.toRowsOk.of_same rfl hdrawn hstore) hdrawn rfl hok ?_ ?_
    fun j op₁ hne hj =>
      ⟨(hinv.ok j op₁ hj).mono (fun _ h _ => h) fun ref v h _ => hstore ref v h,
        hinv.foreign j op₁ hj, ?_⟩
  · intro ref href
    have href' : write.secretRef = ref := by simpa [hholds, hdooms] using href
    exact ⟨u, List.mem_cons_self, href' ▸ huuid⟩
  · intro r hr
    refine ⟨fun h => ?_, fun hmanaged h => ?_, fun _ h => absurd (hdooms.symm.trans h) (by simp)⟩
    · have href : write.secretRef = .created r.id := Option.some.inj (hholds.symm.trans h)
      exact hunknown ⟨r.id, hinv.drawn r hr, by rw [href]; rfl⟩
    · have href : write.secretRef = r.credentialsSecretRef := Option.some.inj (hholds.symm.trans h)
      exact hunknown (href ▸ (hinv.owned r hr hmanaged).2)
  · have hother : op₁.holds ≠ some write.secretRef ∧ op₁.dooms ≠ some write.secretRef :=
      ⟨fun h => hunknown (hinv.known j op₁ _ hj (Or.inl h)),
        fun h => hunknown (hinv.known j op₁ _ hj (Or.inr h))⟩
    constructor
    · refine ⟨fun ref href => ?_, fun id hid => ?_⟩
      · obtain rfl : write.secretRef = ref := Option.some.inj (hholds.symm.trans href)
        exact hother
      · exact (hinv.apart k j op op₁ (Ne.symm hne) hop hj).2 id (hlocks ▸ hid)
    · refine ⟨fun ref href => ⟨fun h => ?_, by simp [hdooms]⟩, fun id hid h => ?_⟩
      · obtain rfl : write.secretRef = ref := Option.some.inj (hholds.symm.trans h)
        exact hother.1 href
      · exact (hinv.apart j k op₁ op hne hj hop).2 id hid (hlocks ▸ h)

/-- A new version of the secret of a row. -/
theorem CredentialsInv.renew (hinv : CredentialsInv s) (hop : s.ops[k]? = some op)
    {write : CredentialWriteResult} {creds : Credentials} {written : List SecretRef}
    (hok : OpOk s.rows (storeRotate s.store write creds) op') (hlocks : op'.locks = op.locks)
    (hdooms : op'.dooms = none) (hholds : op'.holds = none) :
    CredentialsInv
      { s with
        store := storeRotate s.store write creds
        ops := s.ops.set k op'
        written := written } := by
  have hstore : ∀ ref v, Stored s.store ref v → Stored (storeRotate s.store write creds) ref v :=
    fun _ _ h => h.rotate write creds
  have hin : Inherits op' op :=
    ⟨fun ref h => absurd (hholds.symm.trans h) (by simp),
      fun ref h => absurd (hdooms.symm.trans h) (by simp), fun id h => hlocks ▸ h⟩
  exact hinv.inherit hop hin (hinv.toRowsOk.of_same rfl (fun _ h => h) hstore) (fun _ h => h) rfl
    hok (fun r hr => hin.foreign (hinv.foreign k op hop r hr)) fun j op₁ _ hj =>
      ⟨(hinv.ok j op₁ hj).mono (fun _ h _ => h) fun ref v h _ => hstore ref v h,
        hinv.foreign j op₁ hj⟩

/-- The secret an operation held becomes that of the new row. -/
theorem CredentialsInv.insertRow (hinv : CredentialsInv s) {row : AccountRow}
    (hop : s.ops[k]? = some (.inserted row)) :
    CredentialsInv { s with rows := s.rows ++ [row], ops := s.ops.set k (.finished none) } := by
  obtain ⟨href, -, hserved⟩ := hinv.ok k _ hop
  obtain ⟨u, hu, huuid⟩ := hinv.known k _ _ hop (Or.inl rfl)
  have hdrawn : row.id ∈ s.drawn := by
    rw [href] at huuid
    obtain rfl : row.id = u := Option.some.inj huuid
    exact hu
  -- the operation holds the secret of this id, so no row has it
  have hnew : ∀ r ∈ s.rows, r.id ≠ row.id := by
    intro r hr heq
    apply (hinv.foreign k _ hop r hr).1
    rw [heq, ← href]
    rfl
  have hmem : ∀ {r}, r ∈ s.rows ++ [row] → r ∈ s.rows ∨ r = row := fun h =>
    (List.mem_append.mp h).imp_right List.mem_singleton.mp
  have hrows : RowsOk { s with rows := s.rows ++ [row], ops := s.ops.set k (.finished none) } := by
    refine ⟨fun r hr => ?_, fun r hr r' hr' heq => ?_, fun r hr hm => ?_, fun r hr hneeds => ?_⟩
    · rcases hmem hr with hr | rfl
      · exact hinv.drawn r hr
      · exact hdrawn
    · rcases hmem hr with hold | hrow
      · rcases hmem hr' with hold' | hrow'
        · exact hinv.distinct r hold r' hold' heq
        · exact absurd (hrow' ▸ heq) (hnew r hold)
      · rcases hmem hr' with hold' | hrow'
        · exact absurd (hrow ▸ heq.symm) (hnew r' hold')
        · rw [hrow, hrow']
    · rcases hmem hr with hr | rfl
      · exact hinv.owned r hr hm
      · exact ⟨by rw [href]; rfl, u, hu, huuid⟩
    · rcases hmem hr with hr | rfl
      · exact hinv.served r hr hneeds
      · exact hserved
  refine hinv.finish hop hrows rfl rfl fun j op₁ hne hj => ?_
  refine ⟨(hinv.ok j op₁ hj).mono (fun r hr _ => List.mem_append_left _ hr) fun _ _ h _ => h,
    fun r hr => ?_⟩
  rcases hmem hr with hr | rfl
  · exact hinv.foreign j op₁ hj r hr
  · have hapart := (hinv.apart k j _ op₁ (Ne.symm hne) hop hj).1 r.credentialsSecretRef rfl
    exact ⟨fun h => hapart.1 (href ▸ h), fun _ => hapart.1, fun _ => hapart.2⟩

section Update

variable {r₀ : AccountRow} {f : AccountRow → AccountRow}

theorem RowsOk.mem_update (h : RowsOk s) (hr₀ : r₀ ∈ s.rows) {r : AccountRow}
    (hr : r ∈ updateById s.rows r₀.id f) : r = f r₀ ∨ r ∈ s.rows ∧ r.id ≠ r₀.id := by
  rcases mem_updateById_cases hr with ⟨r', hr', hid, rfl⟩ | hkept
  · rw [h.distinct r' hr' r₀ hr₀ hid]
    exact Or.inl rfl
  · exact Or.inr hkept

theorem RowsOk.update (h : RowsOk s) (hr₀ : r₀ ∈ s.rows) (hid : (f r₀).id = r₀.id)
    (howned : (f r₀).IsManaged → (f r₀).credentialsSecretRef.accountId = some (f r₀).id ∧
      Known s.drawn (f r₀).credentialsSecretRef)
    (hserved : (f r₀).NeedsSecret → Served s.store (f r₀))
    (hrows : t.rows = updateById s.rows r₀.id f) (hdrawn : t.drawn = s.drawn)
    (hstore : t.store = s.store) : RowsOk t := by
  have hcases : ∀ r ∈ t.rows, r = f r₀ ∨ r ∈ s.rows ∧ r.id ≠ r₀.id := fun r hr =>
    h.mem_update hr₀ (hrows ▸ hr)
  refine ⟨fun r hr => ?_, fun r hr r' hr' heq => ?_, fun r hr hm => ?_, fun r hr hneeds => ?_⟩
  · rw [hdrawn]
    rcases hcases r hr with hnew | ⟨hold, -⟩
    · rw [hnew, hid]
      exact h.drawn r₀ hr₀
    · exact h.drawn r hold
  · rcases hcases r hr with hnew | ⟨hold, hne⟩
    · rcases hcases r' hr' with hnew' | ⟨hold', hne'⟩
      · rw [hnew, hnew']
      · exact absurd (heq.symm.trans (hnew ▸ hid)) hne'
    · rcases hcases r' hr' with hnew' | ⟨hold', hne'⟩
      · exact absurd (heq.trans (hnew' ▸ hid)) hne
      · exact h.distinct r hold r' hold' heq
  · rw [hdrawn]
    rcases hcases r hr with rfl | ⟨hold, -⟩
    · exact howned hm
    · exact h.owned r hold hm
  · rw [hstore]
    rcases hcases r hr with rfl | ⟨hold, -⟩
    · exact hserved hneeds
    · exact h.served r hold hneeds

/-- The other operations have neither the lock of the row nor its secret. -/
theorem CredentialsInv.others_of_update (hinv : CredentialsInv s) (hop : s.ops[k]? = some op)
    (hr₀ : r₀ ∈ s.rows) (hlock : op.locks = some r₀.id)
    (hforeign : ∀ j op₁, j ≠ k → s.ops[j]? = some op₁ → Foreign op₁ (f r₀)) :
    ∀ j op₁, j ≠ k → s.ops[j]? = some op₁ →
      OpOk (updateById s.rows r₀.id f) s.store op₁ ∧
        ∀ r ∈ updateById s.rows r₀.id f, Foreign op₁ r := by
  intro j op₁ hne hj
  constructor
  · refine (hinv.ok j op₁ hj).mono (fun r hr hlocked => ?_) fun _ _ h _ => h
    apply mem_updateById_of_ne hr
    intro hid
    exact (hinv.apart k j op op₁ (Ne.symm hne) hop hj).2 _ hlock (hid ▸ hlocked)
  · intro r hr
    rcases hinv.toRowsOk.mem_update hr₀ hr with rfl | ⟨hold, -⟩
    · exact hforeign j op₁ hne hj
    · exact hinv.foreign j op₁ hj r hold

end Update

/-- A rotation: the row keeps its name, or gets the one the operation held. -/
theorem CredentialsInv.updateRow (hinv : CredentialsInv s) {acct : AccountRow}
    {promotedRef : Option SecretRef}
    (hop : s.ops[k]? = some (.rotateCommitting acct promotedRef)) :
    CredentialsInv
      { s with
        rows := updateById s.rows acct.id fun r => r.writeCredentials acct
        ops := s.ops.set k (.finished none) } := by
  obtain ⟨hmanaged, hserved, hname, r₀, hr₀, hid, hactive, hkind⟩ := hinv.ok k _ hop
  rw [← hid] at hname ⊢
  have hknown : Known s.drawn acct.credentialsSecretRef := by
    cases promotedRef with
    | none => exact hkind.1 ▸ (hinv.owned r₀ hr₀ hkind.2).2
    | some ref => exact hinv.known k _ _ hop (Or.inl (congrArg some hkind.1.symm))
  have hforeign : ∀ j op₁, j ≠ k → s.ops[j]? = some op₁ →
      Foreign op₁ (r₀.writeCredentials acct) := by
    intro j op₁ hne hj
    have hold := hinv.foreign j op₁ hj r₀ hr₀
    -- the secret was the row's own, or the one this operation held
    have hsecret : op₁.holds ≠ some acct.credentialsSecretRef ∧
        op₁.dooms ≠ some acct.credentialsSecretRef := by
      cases promotedRef with
      | none =>
        rw [← hkind.1]
        exact ⟨hold.2.1 hkind.2, hold.2.2 ⟨hactive, hkind.2⟩⟩
      | some ref =>
        exact (hinv.apart k j _ op₁ (Ne.symm hne) hop hj).1 _ (congrArg some hkind.1.symm)
    exact ⟨hold.1, fun _ => hsecret.1, fun _ => hsecret.2⟩
  have hrows : RowsOk
      { s with
        rows := updateById s.rows r₀.id fun r => r.writeCredentials acct
        ops := s.ops.set k (.finished none) } :=
    hinv.toRowsOk.update hr₀ rfl (fun _ => ⟨hname, hknown⟩) (fun _ => hserved) rfl rfl rfl
  exact hinv.finish hop hrows rfl rfl
    (hinv.others_of_update hop hr₀ (congrArg some hid.symm) hforeign)

/-- An archive: the row keeps its name, and needs the secret no longer. -/
theorem CredentialsInv.archiveRow (hinv : CredentialsInv s) {acct : AccountRow}
    (hop : s.ops[k]? = some (.archiveCommitting acct)) :
    CredentialsInv
      { s with
        rows := updateById s.rows acct.id fun r => r.writeArchived acct
        ops := s.ops.set k
          (if acct.credentialsBackend = .legacyEnv then .finished none
            else .deleting acct.credentialsSecretRef none) } := by
  obtain ⟨hstatus, r₀, hr₀, hid, hsame, hbackend⟩ := hinv.ok k _ hop
  rw [← hid]
  have hidle : ¬ (r₀.writeArchived acct).NeedsSecret := fun h => h.1 hstatus
  have hforeign : ∀ j op₁, j ≠ k → s.ops[j]? = some op₁ →
      Foreign op₁ (r₀.writeArchived acct) := by
    intro j op₁ _ hj
    have hold := hinv.foreign j op₁ hj r₀ hr₀
    exact ⟨hold.1, hold.2.1, fun h => absurd h hidle⟩
  have hrows : RowsOk
      { s with
        rows := updateById s.rows r₀.id fun r => r.writeArchived acct
        ops := s.ops.set k
          (if acct.credentialsBackend = .legacyEnv then .finished none
            else .deleting acct.credentialsSecretRef none) } :=
    hinv.toRowsOk.update hr₀ rfl (hinv.owned r₀ hr₀) (fun h => absurd h hidle) rfl rfl rfl
  have hothers := hinv.others_of_update (f := fun r => r.writeArchived acct) hop hr₀
    (congrArg some hid.symm) hforeign
  -- a row without a managed secret leaves nothing to delete
  by_cases hlegacy : acct.credentialsBackend = .legacyEnv
  · simp only [if_pos hlegacy] at hrows ⊢
    exact hinv.finish hop hrows rfl rfl hothers
  · simp only [if_neg hlegacy] at hrows ⊢
    have hmanaged : r₀.IsManaged := fun h => hlegacy (hbackend ▸ h)
    obtain ⟨hname, hknown⟩ := hinv.owned r₀ hr₀ hmanaged
    refine hinv.replace hrows (fun _ h => h) rfl trivial ?_ ?_ fun j op₁ hne hj => ?_
    · rintro ref (h | h)
      · exact absurd h (by simp [AccountOp.holds])
      · obtain rfl := Option.some.inj h
        exact hsame ▸ hknown
    · intro r hr
      refine ⟨by simp [AccountOp.holds], by simp [AccountOp.holds], fun hneeds hdooms => ?_⟩
      rcases hinv.toRowsOk.mem_update hr₀ hr with rfl | ⟨hold, hne⟩
      · exact hidle hneeds
      · -- the names of two accounts differ
        have heq : r₀.credentialsSecretRef = r.credentialsSecretRef :=
          hsame.trans (Option.some.inj hdooms)
        have hname' := (hinv.owned r hold hneeds.2).1
        rw [← heq, hname] at hname'
        exact hne (Option.some.inj hname').symm
    · obtain ⟨hok₁, hforeign₁⟩ := hothers j op₁ hne hj
      refine ⟨hok₁, hforeign₁, ⟨by simp [AccountOp.holds], by simp [AccountOp.locks]⟩,
        fun ref href => ⟨by simp [AccountOp.holds], fun hdooms => ?_⟩, by simp [AccountOp.locks]⟩
      obtain rfl : acct.credentialsSecretRef = ref := Option.some.inj hdooms
      exact (hinv.foreign j op₁ hj r₀ hr₀).2.1 hmanaged (hsame ▸ href)

/-- A secret to delete is nobody's any more. -/
theorem CredentialsInv.delete (hinv : CredentialsInv s) {ref : SecretRef}
    {outcome : Option AccountError} (hop : s.ops[k]? = some (.deleting ref outcome)) :
    CredentialsInv
      { s with store := storeDelete s.store ref, ops := s.ops.set k (.finished outcome) } := by
  have hdoomed : ∀ r ∈ s.rows, r.NeedsSecret → r.credentialsSecretRef ≠ ref := by
    intro r hr hneeds heq
    exact (hinv.foreign k _ hop r hr).2.2 hneeds (heq ▸ rfl)
  have hrows : RowsOk
      { s with store := storeDelete s.store ref, ops := s.ops.set k (.finished outcome) } := by
    refine ⟨hinv.drawn, hinv.distinct, hinv.owned, fun r hr hneeds => ?_⟩
    obtain ⟨v, hv, hstored⟩ := hinv.served r hr hneeds
    exact ⟨v, hv, stored_storeDelete.mpr ⟨hdoomed r hr hneeds, hstored⟩⟩
  refine hinv.finish hop hrows rfl rfl fun j op₁ hne hj => ⟨?_, hinv.foreign j op₁ hj⟩
  refine (hinv.ok j op₁ hj).mono (fun _ h _ => h) fun ref' v hstored hneeded => ?_
  refine stored_storeDelete.mpr ⟨?_, hstored⟩
  rintro rfl
  rcases hneeded with hholds | ⟨r, hr, hneeds, heq⟩
  · exact ((hinv.apart j k op₁ _ hne hj hop).1 ref' hholds).2 rfl
  · exact hdoomed r hr hneeds heq

/-- Every effect keeps the invariant. -/
theorem OpEffect.inv {a : CredentialsLabel} (heff : OpEffect s a k op t)
    (hop : s.ops[k]? = some op) (hinv : CredentialsInv s) : CredentialsInv t := by
  cases heff with
  | quiet op' hok hsecret hlocks => exact hinv.quiet hop hok hsecret hlocks
  | lock op' id hok hfree hlocks _ hsecret => exact hinv.lock hok hfree hlocks hsecret
  | write op' write creds drawn hok hlocks _ hdooms hholds =>
    rcases hholds with ⟨u, hfresh, rfl, huuid, hholds⟩ | ⟨rfl, hholds, -⟩
    · exact hinv.provision hop hok hlocks hdooms hfresh huuid hholds
    · exact hinv.renew hop hok hlocks hdooms hholds
  | insertRow row heq => exact hinv.insertRow (heq ▸ hop)
  | updateRow acct promotedRef heq => exact hinv.updateRow (heq ▸ hop)
  | archiveRow acct heq => exact hinv.archiveRow (heq ▸ hop)
  | delete ref outcome heq => exact hinv.delete (heq ▸ hop)
  | giveUp ref outcome heq _ =>
    exact hinv.finish hop (hinv.toRowsOk.of_ops _) rfl rfl fun j op₁ _ hj =>
      ⟨hinv.ok j op₁ hj, hinv.foreign j op₁ hj⟩

end Steps

/-! ### No orphans -/

section Coverage

variable {s t : CredentialsState} {a : CredentialsLabel} {k : ℕ} {op op' : AccountOp}
  {ref : SecretRef}

theorem secretCovered_self (hop : s.ops[k]? = some op) (hops : t.ops = s.ops.set k op')
    (href : op'.holds = some ref ∨ op'.dooms = some ref) : SecretCovered t ref := by
  refine Or.inr ⟨k, op', ?_, href⟩
  rw [hops, List.getElem?_set_self']
  exact Option.map_eq_some_iff.mpr ⟨op, hop, rfl⟩

/-- A secret is covered after a step if the row or the operation that covered it goes on doing so,
    or something else does. -/
theorem SecretCovered.step (h : SecretCovered s ref) (hop : s.ops[k]? = some op)
    (hops : t.ops = s.ops.set k op')
    (hrow : ∀ r ∈ s.rows, r.NeedsSecret → r.credentialsSecretRef = ref → SecretCovered t ref)
    (hself : op.holds = some ref ∨ op.dooms = some ref → SecretCovered t ref) :
    SecretCovered t ref := by
  rcases h with ⟨r, hr, hneeds, href⟩ | ⟨j, op₁, hj, href⟩
  · exact hrow r hr hneeds href
  · by_cases hjk : j = k
    · subst hjk
      obtain rfl : op = op₁ := Option.some.inj (hop.symm.trans hj)
      exact hself href
    · refine Or.inr ⟨j, op₁, ?_, href⟩
      rw [hops, List.getElem?_set_ne (Ne.symm hjk)]
      exact hj

theorem SecretsCovered.append (hcov : SecretsCovered s) :
    SecretsCovered { s with ops := s.ops ++ [op] } := by
  intro ref href hstored
  rcases hcov ref href hstored with hrow | ⟨j, op₁, hj, h⟩
  · exact Or.inl hrow
  · have hlt : j < s.ops.length := (List.getElem?_eq_some_iff.mp hj).1
    exact Or.inr ⟨j, op₁, (List.getElem?_append_left hlt).trans hj, h⟩

theorem SecretsCovered.updateRow (hcov : SecretsCovered s) (hinv : CredentialsInv s)
    {acct : AccountRow} {promotedRef : Option SecretRef}
    (hop : s.ops[k]? = some (.rotateCommitting acct promotedRef)) :
    SecretsCovered
      { s with
        rows := updateById s.rows acct.id fun r => r.writeCredentials acct
        ops := s.ops.set k (.finished none) } := by
  obtain ⟨hmanaged, -, -, r₀, hr₀, hid, hactive, hkind⟩ := hinv.ok k _ hop
  rw [← hid]
  have hnew : (r₀.writeCredentials acct).NeedsSecret := ⟨hactive, hmanaged⟩
  have hmem : r₀.writeCredentials acct ∈
      updateById s.rows r₀.id fun r => r.writeCredentials acct :=
    mem_updateById_self (f := fun r => r.writeCredentials acct) hr₀
  intro ref href hstored
  refine (hcov ref href hstored).step hop rfl (fun r hr hneeds heq => ?_) fun hheld => ?_
  · -- the row that covered the secret still does, unless it is the rotated one
    by_cases hsame : r.id = r₀.id
    · obtain rfl := hinv.distinct r hr r₀ hr₀ hsame
      cases promotedRef with
      | none => exact Or.inl ⟨_, hmem, hnew, hkind.1.symm.trans heq⟩
      | some ref' => exact absurd hneeds.2 hkind.2
    · exact Or.inl ⟨r, mem_updateById_of_ne hr hsame, hneeds, heq⟩
  · have hholds : promotedRef = some ref := by simpa [AccountOp.holds, AccountOp.dooms] using hheld
    subst hholds
    exact Or.inl ⟨_, hmem, hnew, hkind.1⟩

theorem SecretsCovered.archiveRow (hcov : SecretsCovered s) (hinv : CredentialsInv s)
    {acct : AccountRow}
    (hop : s.ops[k]? = some (.archiveCommitting acct)) :
    SecretsCovered
      { s with
        rows := updateById s.rows acct.id fun r => r.writeArchived acct
        ops := s.ops.set k
          (if acct.credentialsBackend = .legacyEnv then .finished none
            else .deleting acct.credentialsSecretRef none) } := by
  obtain ⟨-, r₀, hr₀, hid, hsame, hbackend⟩ := hinv.ok k _ hop
  intro ref href hstored
  refine (hcov ref href hstored).step hop rfl (fun r hr hneeds heq => ?_) fun hheld => ?_
  · by_cases hrow : r.id = r₀.id
    · -- the archive is about to delete the secret of its row
      obtain rfl := hinv.distinct r hr r₀ hr₀ hrow
      have hmanaged : acct.credentialsBackend ≠ .legacyEnv := hbackend ▸ hneeds.2
      refine secretCovered_self hop rfl (Or.inr ?_)
      rw [if_neg hmanaged]
      exact congrArg some (hsame.symm.trans heq)
    · exact Or.inl ⟨r, mem_updateById_of_ne hr (hid ▸ hrow), hneeds, heq⟩
  · exact absurd hheld (by simp [AccountOp.holds, AccountOp.dooms])

/-- Every effect but a failed delete keeps the secrets covered. -/
theorem OpEffect.covered (heff : OpEffect s a k op t) (hop : s.ops[k]? = some op)
    (hinv : CredentialsInv s) (ha : a ≠ .delete k false) (hcov : SecretsCovered s) :
    SecretsCovered t := by
  cases heff with
  | quiet op' hok hsecret hlocks =>
    intro ref href hstored
    refine (hcov ref href hstored).step hop rfl (fun r hr hn h => Or.inl ⟨r, hr, hn, h⟩)
      fun hheld => secretCovered_self hop rfl ?_
    rcases hsecret with ⟨hholds, hdooms⟩ | ⟨-, hdooms, hnone⟩
    · rwa [hholds, hdooms]
    · rw [hnone] at hheld
      rw [hdooms]
      exact Or.inr (hheld.resolve_right (by simp))
  | lock op' id hok hfree hlocks hbefore hsecret =>
    intro ref href hstored
    refine (hcov ref href hstored).step hop rfl (fun r hr hn h => Or.inl ⟨r, hr, hn, h⟩) ?_
    simp [hbefore.1, hbefore.2]
  | write op' write creds drawn hok hlocks hbefore hdooms hholds =>
    intro ref href hstored
    -- the written secret is covered by its operation or by the row it rotates
    by_cases hnew : ref = write.secretRef
    · subst hnew
      rcases hholds with ⟨-, -, -, -, hholds⟩ | ⟨-, -, hrow⟩
      · exact secretCovered_self hop rfl (Or.inl hholds)
      · exact Or.inl hrow
    · have hold : ref ∈ s.written := (List.mem_cons.mp href).resolve_left hnew
      obtain ⟨v, hv⟩ := hstored
      have hstored' : Stored s.store ref v :=
        (stored_storeRotate.mp hv).resolve_left fun h => hnew h.1
      refine (hcov ref hold ⟨v, hstored'⟩).step hop rfl
        (fun r hr hn h => Or.inl ⟨r, hr, hn, h⟩) ?_
      simp [hbefore.1, hbefore.2]
  | insertRow row heq =>
    subst heq
    intro ref href hstored
    refine (hcov ref href hstored).step hop rfl
      (fun r hr hn h => Or.inl ⟨r, List.mem_append_left _ hr, hn, h⟩) fun hheld => ?_
    have hholds : row.credentialsSecretRef = ref := by
      simpa [AccountOp.holds, AccountOp.dooms] using hheld
    exact Or.inl ⟨row, List.mem_append_right _ (List.mem_singleton_self row),
      (hinv.ok k _ hop).2.1, hholds⟩
  | updateRow acct promotedRef heq => exact hcov.updateRow hinv (heq ▸ hop)
  | archiveRow acct heq => exact hcov.archiveRow hinv (heq ▸ hop)
  | delete ref' outcome heq =>
    subst heq
    intro ref href hstored
    obtain ⟨v, hv⟩ := hstored
    obtain ⟨hne, hv'⟩ := stored_storeDelete.mp hv
    refine (hcov ref href ⟨v, hv'⟩).step hop rfl (fun r hr hn h => Or.inl ⟨r, hr, hn, h⟩)
      fun hheld => absurd ?_ hne
    simpa [AccountOp.holds, AccountOp.dooms, eq_comm] using hheld
  | giveUp ref' outcome heq hlabel => exact absurd hlabel ha

end Coverage

/-! ### Every run -/

section Runs

variable {slots : List String} {environment : String} {s₀ s t : CredentialsState}
  {a : CredentialsLabel} {as : List CredentialsLabel}

theorem CredentialsState.Settled.inv (h : s.Settled) : CredentialsInv s where
  toRowsOk := h.toRowsOk
  ok k op hop := absurd hop (by simp [h.ops])
  known k op ref hop := absurd hop (by simp [h.ops])
  foreign k op hop := absurd hop (by simp [h.ops])
  apart j k op op' _ hj := absurd hj (by simp [h.ops])

theorem CredentialsState.Settled.covered (h : s.Settled) : SecretsCovered s := by
  intro ref href
  simp [h.written] at href

theorem CredentialsInv.step (hinv : CredentialsInv s)
    (h : (credentialsSystem slots environment).step s a = some t) : CredentialsInv t := by
  rcases credentialsStep_cases (serviceBackend_ne environment) hinv h with
    ⟨op, hop, rfl⟩ | ⟨k, op, hop, heff⟩
  · exact hinv.append hop
  · exact heff.inv hop hinv

/-- No delete of the store fails. -/
def DeleteSucceeds (_ : CredentialsState) (a : CredentialsLabel) : Prop :=
  ∀ k, a ≠ .delete k false

theorem SecretsCovered.of_path
    (h : Path (credentialsSystem slots environment) DeleteSucceeds s₀ as s)
    (hinv : CredentialsInv s₀) (hcov : SecretsCovered s₀) :
    CredentialsInv s ∧ SecretsCovered s := by
  refine h.invariant (I := fun s => CredentialsInv s ∧ SecretsCovered s) ?_ ⟨hinv, hcov⟩
  rintro s a t ⟨hinv, hcov⟩ ha hstep
  refine ⟨hinv.step hstep, ?_⟩
  rcases credentialsStep_cases (serviceBackend_ne environment) hinv hstep with
    ⟨op, hop, rfl⟩ | ⟨k, op, hop, heff⟩
  · exact hcov.append
  · exact heff.covered hop hinv (ha k) hcov

theorem owns_nothing_of_isFinished {op : AccountOp} (h : op.isFinished = true) :
    op.holds = none ∧ op.dooms = none := by
  cases op with
  | finished outcome => exact ⟨rfl, rfl⟩
  | _ => simp [AccountOp.isFinished] at h

/-- **No dangling and no orphaned credentials.**  Whatever requests are made, however their
    statements interleave, and whichever writes of the store, deletes and commits fail: the secret
    of every managed account is in the store.  If no delete fails, then after the last operation
    every secret the service has written and the store still has belongs to an account. -/
theorem credentials_never_dangle (h₀ : s₀.Settled)
    (h : Path (credentialsSystem slots environment) anyStep s₀ as s) :
    NeverDangling s ∧
      ((∀ k, .delete k false ∉ as) → (∀ op ∈ s.ops, op.isFinished = true) → NeverOrphaned s) := by
  constructor
  · exact (h.invariant (fun s a t hinv _ hstep => CredentialsInv.step hinv hstep) h₀.inv).served
  · intro hdeletes hfinished ref href hstored
    have hpath : Path (credentialsSystem slots environment) DeleteSucceeds s₀ as s :=
      h.mono fun a ha _ _ k heq => hdeletes k (heq ▸ ha)
    rcases (SecretsCovered.of_path hpath h₀.inv h₀.covered).2 ref href hstored with
      ⟨r, hr, hneeds, heq⟩ | ⟨k, op, hop, hheld⟩
    · exact ⟨r, hr, hneeds.1, heq⟩
    · obtain ⟨hholds, hdooms⟩ :=
        owns_nothing_of_isFinished (hfinished op (List.mem_of_getElem? hop))
      simp [hholds, hdooms] at hheld

/-- An account whose credentials come from the environment. -/
def migratedAccount : AccountRow :=
  { id := 0, ibAccountId := "U1", ibLoginKey := "lvp", status := .active
    credentialsBackend := .legacyEnv, credentialsSecretVersion := none, label := none
    gatewaySlot := "lvp", tradingMode := "live", accountClass := .test
    credentialsSecretRef := .pointer "env:TWS_USERID|TWS_PASSWORD", credentialsUpdatedAt := none
    credentialsUpdatedBy := none, createdBy := none }

def newAccount : CreateRequest :=
  { ibAccountId := "DU2", ibLoginKey := "paper", tradingMode := "paper", gatewaySlot := none
    creds := ⟨"user", "password"⟩, actor := "ops", label := none, createdBy := none
    accountClass := none }

def migrated : CredentialsState :=
  { rows := [migratedAccount], store := [], ops := [], drawn := [0], written := [] }

/-- A creation whose commit fails, a promotion, and an archive that waits for its lock. -/
def createRotateArchive : List CredentialsLabel :=
  [.create newAccount, .rotate 0 ⟨"user", "password"⟩ "ops", .archive 0 "ops", .lock 1,
    .write 0 1 (some "v1") 5, .write 1 2 (some "v2") 6, .select 0 7 false, .insert 0 false,
    .commit 0 false, .commit 1 true, .lock 2, .delete 0 true, .checkDeployments 2 false 8,
    .commit 2 true, .delete 2 true]

def afterArchive : CredentialsState :=
  { rows :=
      [{ migratedAccount with
        status := .archived
        credentialsBackend := .env
        credentialsSecretRef := .promoted 0 2
        credentialsSecretVersion := some "v2"
        credentialsUpdatedAt := some 8
        credentialsUpdatedBy := some "ops" }]
    store := []
    ops := [.finished (some .other), .finished none, .finished none]
    drawn := [2, 1, 0]
    written := [.promoted 0 2, .created 1] }

theorem migrated_settled : migrated.Settled := by
  have hlegacy : ∀ r ∈ migrated.rows, ¬ r.IsManaged := by decide
  refine { ops := rfl, written := rfl, drawn := by decide, distinct := by decide, owned := ?_,
           served := ?_ }
  · exact fun r hr hmanaged => absurd hmanaged (hlegacy r hr)
  · exact fun r hr hneeds => absurd hneeds.2 (hlegacy r hr)

theorem credentials_never_dangle_migrated :
    NeverDangling afterArchive ∧ NeverOrphaned afterArchive := by
  have hrun : (credentialsSystem ["lvp", "hvp"] "development").run migrated createRotateArchive
      = some afterArchive := by decide
  obtain ⟨hdangling, horphaned⟩ := credentials_never_dangle migrated_settled (Path.of_run hrun)
  exact ⟨hdangling, horphaned (by simp [createRotateArchive]) (by decide)⟩

end Runs

end Msai.Api
