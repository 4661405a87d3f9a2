import Mathlib.Data.List.AList
import Mathlib.Logic.Function.Basic
import Msai.Projection.Events

namespace Msai.Projection

/-!
# The in-memory state of a worker (`projection/projection_state.py`)

Every API worker keeps the latest position of each `(deployment, instrument)`, the latest
account of each deployment, and its halt and lifecycle events.  `apply` is fed from the state
channel, `hydrateFromColdRead` from a read of the Nautilus store.

* `ProjectionState` — the four dictionaries.  A deployment that has an entry in `positions` is
  *hydrated*, whoever made the entry;
* `apply`, `hydrateFromColdRead` — the two writers;
* `openPositions` — what a read of a hydrated deployment returns.

The order in which a dictionary lists its entries is not the order of insertion here; nothing
depends on it.
-/

variable {ι Dec : Type} [DecidableEq ι]

/-- `instrument_id → latest snapshot`. -/
abbrev Instruments (ι Dec : Type) := AList fun _ : String => PositionSnapshot ι Dec

/-- `ProjectionState`. -/
structure ProjectionState (ι Dec : Type) where
  positions : ι → Option (Instruments ι Dec)
  /-- `some none`: a cold read found no account. -/
  accounts : ι → Option (Option (AccountStateUpdate ι Dec))
  halts : ι → Option (RiskHaltEvent ι)
  statuses : ι → Option (DeploymentStatusEvent ι)

namespace ProjectionState

/-- The state of a worker that has just started. -/
def empty : ProjectionState ι Dec :=
  { positions := fun _ => none, accounts := fun _ => none, halts := fun _ => none,
    statuses := fun _ => none }

variable (s : ProjectionState ι Dec)

/-- `_apply_position`: there is no look at `ts`. -/
def applyPosition (e : PositionSnapshot ι Dec) : ProjectionState ι Dec :=
  { s with
    positions := Function.update s.positions e.deploymentId
      (some (((s.positions e.deploymentId).getD ∅).insert e.instrumentId e)) }

/-- `apply`. -/
def apply : InternalEvent ι Dec → ProjectionState ι Dec
  | .position e => s.applyPosition e
  | .accountState e =>
    { s with accounts := Function.update s.accounts e.deploymentId (some (some e)) }
  | .riskHalt e => { s with halts := Function.update s.halts e.deploymentId (some e) }
  | .deploymentStatus e => { s with statuses := Function.update s.statuses e.deploymentId (some e) }
  -- passed through to the WebSocket clients, without an effect on hydration
  | .fill _ => s
  | .orderStatus _ => s

/-- `is_positions_hydrated`. -/
def isPositionsHydrated (id : ι) : Bool := (s.positions id).isSome

/-- `get_position`. -/
def getPosition (id : ι) (instrument : String) : Option (PositionSnapshot ι Dec) :=
  (s.positions id).bind (·.lookup instrument)

/-- `get_account`. -/
def getAccount (id : ι) : Option (AccountStateUpdate ι Dec) := (s.accounts id).join

/-- `positions`: the open ones. -/
def openPositions [Zero Dec] [DecidableEq Dec] (id : ι) : List (PositionSnapshot ι Dec) :=
  (((s.positions id).getD ∅).entries.map (·.2)).filter fun e => decide (e.qty ≠ 0)

/-- The dictionary a cold read writes: of two snapshots of one instrument the later one stays. -/
def instrumentsOf (snapshots : List (PositionSnapshot ι Dec)) : Instruments ι Dec :=
  snapshots.foldl (fun acc e => acc.insert e.instrumentId e) ∅

/-- `hydrate_from_cold_read`: each domain only if it is still cold.  `none` leaves a domain
    out. -/
def hydrateFromColdRead (id : ι) (snapshots : Option (List (PositionSnapshot ι Dec)))
    (account : Option (Option (AccountStateUpdate ι Dec))) : ProjectionState ι Dec :=
  { s with
    positions :=
      match snapshots, s.positions id with
      | some l, none => Function.update s.positions id (some (instrumentsOf l))
      | _, _ => s.positions
    accounts :=
      match account, s.accounts id with
      | some a, none => Function.update s.accounts id (some a)
      | _, _ => s.accounts }

/-! ### What the writers do -/

variable {s} {id id' : ι} {instrument : String} {e : PositionSnapshot ι Dec}

theorem getPosition_applyPosition :
    (s.applyPosition e).getPosition id instrument =
      if id = e.deploymentId ∧ instrument = e.instrumentId then some e
      else s.getPosition id instrument := by
  unfold getPosition applyPosition
  by_cases hid : id = e.deploymentId
  · subst hid
    by_cases hinst : instrument = e.instrumentId
    · subst hinst
      simp
    · rw [if_neg (fun h => hinst h.2)]
      simp only [Function.update_self, Option.bind_some, AList.lookup_insert_ne hinst]
      cases s.positions e.deploymentId <;> rfl
  · simp [hid]

@[simp] theorem isPositionsHydrated_applyPosition :
    (s.applyPosition e).isPositionsHydrated id
      = (decide (id = e.deploymentId) || s.isPositionsHydrated id) := by
  unfold isPositionsHydrated applyPosition
  by_cases hid : id = e.deploymentId
  · subst hid
    simp
  · simp [hid]

/-- The positions a cold read leaves in a deployment that is still cold. -/
theorem hydrateFromColdRead_positions {l : List (PositionSnapshot ι Dec)}
    {account : Option (Option (AccountStateUpdate ι Dec))} (h : s.isPositionsHydrated id = false) :
    (s.hydrateFromColdRead id (some l) account).positions
      = Function.update s.positions id (some (instrumentsOf l)) := by
  have hnone : s.positions id = none := by simpa [isPositionsHydrated] using h
  simp only [hydrateFromColdRead, hnone]

omit [DecidableEq ι] in
/-- A stored open position is in the answer of a read. -/
theorem mem_openPositions [Zero Dec] [DecidableEq Dec]
    (h : s.getPosition id instrument = some e) (hq : e.qty ≠ 0) : e ∈ s.openPositions id := by
  obtain ⟨m, hm, hlookup⟩ := Option.bind_eq_some_iff.mp h
  have hmem : (⟨instrument, e⟩ : (_ : String) × PositionSnapshot ι Dec) ∈ m.entries :=
    AList.mem_lookup_iff.mp hlookup
  unfold openPositions
  rw [hm, Option.getD_some, List.mem_filter]
  exact ⟨List.mem_map.mpr ⟨_, hmem, rfl⟩, by simpa using hq⟩

omit [DecidableEq ι] in
/-- The last snapshot of an instrument is the one a cold read keeps. -/
theorem lookup_instrumentsOf {l : List (PositionSnapshot ι Dec)} (hmem : e ∈ l)
    (hlast : ∀ e' ∈ l, e'.instrumentId = e.instrumentId → e' = e) :
    (instrumentsOf l).lookup e.instrumentId = some e := by
  have hfold : ∀ (l : List (PositionSnapshot ι Dec)) (acc : Instruments ι Dec),
      (∀ e' ∈ l, e'.instrumentId = e.instrumentId → e' = e) →
      (e ∈ l ∨ acc.lookup e.instrumentId = some e) →
      (l.foldl (fun acc e => acc.insert e.instrumentId e) acc).lookup e.instrumentId
        = some e := by
    intro l
    induction l with
    | nil =>
      intro acc _ h
      rcases h with h | h
      · cases h
      · exact h
    | cons x l ih =>
      intro acc hlast h
      refine ih _ (fun e' he' => hlast e' (List.mem_cons_of_mem _ he')) ?_
      by_cases hx : x.instrumentId = e.instrumentId
      · obtain rfl := hlast x List.mem_cons_self hx
        exact Or.inr (AList.lookup_insert _)
      · rcases h with h | h
        · rcases List.mem_cons.mp h with rfl | h
          · exact absurd rfl hx
          · exact Or.inl h
        · refine Or.inr ?_
          rw [AList.lookup_insert_ne (Ne.symm hx)]
          exact h
  exact hfold l ∅ hlast (Or.inl hmem)

end ProjectionState

end Msai.Projection
