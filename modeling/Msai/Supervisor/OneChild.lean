import Msai.Supervisor.Fleet

namespace Msai.Supervisor

open Msai.Live Msai.Lib Msai.Lib.TransitionSystem

/-!
# At most one live child per deployment

The unique index bounds the active *rows*; this module relates the processes to them.  An
occupant is a live child, or a spawn that may still start one.  As long as every occupant that
has not reported its end holds the active row, Phase A opens no second slot.

* `Occupant`, `Occupies`, `HoldsSlot` — who is on a row, and who must find it active;
* `Occupancy` — the invariant: one occupant, on the active row, under the cached handle;
* `ConfirmedDead` — the condition on a step: the heartbeat sweep, the rescan's stale-active
  flip and the watchdog's flush take an active row away only when nothing occupies it, and
  Phase A reserves only when no child is between its terminal write and its exit;
* `one_live_child_of_confirmed` — then no two children are alive at once.
-/

/-- A process, or a spawn that may become one. -/
inductive Occupant
  | child (pid : ℕ)
  | spawn (k : ℕ)
deriving DecidableEq, Repr

/-- The occupant is on row `i`. -/
def Occupies (s : Fleet) (i : ℕ) : Occupant → Prop
  | .child pid => ∃ c, s.children[pid]? = some c ∧ c.alive = true ∧ c.rowId = i
  | .spawn k => ∃ sp, s.spawns[k]? = some sp ∧ sp.pc.isPreStart = true ∧ sp.rowId = i

/-- The occupant is on row `i` and has not reported its end. -/
def HoldsSlot (s : Fleet) (i : ℕ) : Occupant → Prop
  | .child pid => ∃ c, s.children[pid]? = some c ∧ c.alive = true ∧ c.rowId = i ∧
      c.phase ≠ .exiting
  | .spawn k => Occupies s i (.spawn k)

variable {host : String} {policy : Option RestartPolicy} {s t : Fleet} {a : FleetLabel}
  {i : ℕ} {o : Occupant}

theorem HoldsSlot.occupies (h : HoldsSlot s i o) : Occupies s i o := by
  cases o with
  | child pid =>
    obtain ⟨c, hc, ha, hrow, _⟩ := h
    exact ⟨c, hc, ha, hrow⟩
  | spawn k => exact h

/-- One occupant, holding the active row. -/
structure Occupancy (s : Fleet) : Prop where
  single : ∀ (i j : ℕ) (o o' : Occupant), Occupies s i o → Occupies s j o' → o = o'
  slot : ∀ (i : ℕ) (o : Occupant), HoldsSlot s i o →
    ∃ r, s.db.rows[i]? = some r ∧ r.isActive = true
  handle : ∀ (i pid : ℕ), Occupies s i (.child pid) → s.handle = some pid
  dispatched : ∀ (i : ℕ) (r : NodeRow) (o : Occupant), s.db.rows[i]? = some r →
    r.restartDispatchedAt.isSome = true → ¬Occupies s i o

/-! ### The condition -/

/-- Nobody is on row `i`. -/
def Fleet.unoccupied (s : Fleet) (i : ℕ) : Bool :=
  (s.children.all fun c => !(c.alive && decide (c.rowId = i))) &&
    s.spawns.all fun sp => !(sp.pc.isPreStart && decide (sp.rowId = i))

/-- The write would take row `i` out of the active set. -/
def Fleet.flips (s : Fleet) (i : ℕ) (w : RowWrite) : Bool :=
  (s.db.rows[i]?).any fun r => r.isActive && !(w.row (s.db.context i r) r).isActive

/-- A flip of row `i` is confirmed: it changes nothing, or the row has no occupant. -/
def Fleet.confirms (s : Fleet) (i : ℕ) (w : RowWrite) : Bool :=
  !s.flips i w || s.unoccupied i

/-- Some child has written its terminal status and is still alive. -/
def Fleet.someExiting (s : Fleet) : Bool :=
  s.children.any fun c => c.alive && decide (c.phase = .exiting)

/-- The condition on a step, decidable in the state before it. -/
def Fleet.confirmed (s : Fleet) : FleetLabel → Bool
  | .sweep i (.heartbeatSweep cutoff) => s.confirms i (.heartbeatSweep cutoff)
  | .sweep i (.rescanFlip cutoff) => s.confirms i (.rescanFlip cutoff)
  | .watchdogFlush timeout =>
    match s.watchdog with
    | [] => true
    | (i, pid) :: _ => s.confirms i (.watchdogFlush timeout pid)
  | .reserve req other => (phaseAGate s.db req other).isSome || !s.someExiting
  | _ => true

/-- Rows are flipped only under confirmed deaths, slots reserved only under confirmed exits. -/
def ConfirmedDead (s : Fleet) (a : FleetLabel) : Prop := s.confirmed a = true

instance (s : Fleet) (a : FleetLabel) : Decidable (ConfirmedDead s a) :=
  inferInstanceAs (Decidable (_ = true))

theorem not_occupies_of_unoccupied (h : s.unoccupied i = true) : ¬Occupies s i o := by
  obtain ⟨hch, hsp⟩ := Bool.and_eq_true_iff.mp h
  rw [List.all_eq_true] at hch hsp
  cases o with
  | child pid =>
    rintro ⟨c, hc, ha, hrow⟩
    have := hch c (List.mem_of_getElem? hc)
    simp [ha, hrow] at this
  | spawn k =>
    rintro ⟨sp, hk, hpre, hrow⟩
    have := hsp sp (List.mem_of_getElem? hk)
    simp [hpre, hrow] at this

/-- A confirmed write keeps the row of an occupant active. -/
theorem active_of_confirms {w : RowWrite} {r : NodeRow} (h : s.confirms i w = true)
    (hocc : Occupies s i o) (hr : s.db.rows[i]? = some r) (ha : r.isActive = true) :
    (w.row (s.db.context i r) r).isActive = true := by
  rcases Bool.or_eq_true_iff.mp h with hno | hun
  · by_contra hina
    simp [Fleet.flips, hr, ha, hina] at hno
  · exact absurd hocc (not_occupies_of_unoccupied hun)

/-! ### Steps that add no occupant -/

/-- Occupants only leave, and the rows of those that stay keep their status. -/
theorem Occupancy.shrink (h : Occupancy s)
    (hocc : ∀ (i : ℕ) (o : Occupant), Occupies t i o → Occupies s i o)
    (hhold : ∀ (i : ℕ) (o : Occupant), HoldsSlot t i o → HoldsSlot s i o)
    (hhandle : ∀ (i pid : ℕ), Occupies t i (.child pid) → s.handle = some pid →
      t.handle = some pid)
    (hrow : ∀ (i : ℕ) (o : Occupant) (r : NodeRow), HoldsSlot t i o → s.db.rows[i]? = some r →
      r.isActive = true → ∃ r', t.db.rows[i]? = some r' ∧ r'.isActive = true)
    (hdisp : ∀ (i : ℕ) (o : Occupant) (r' : NodeRow), Occupies t i o → t.db.rows[i]? = some r' →
      r'.restartDispatchedAt.isSome = true →
      ∃ r, s.db.rows[i]? = some r ∧ r.restartDispatchedAt.isSome = true) :
    Occupancy t := by
  refine ⟨?_, ?_, ?_, ?_⟩
  · intro i j o o' ho ho'
    exact h.single i j o o' (hocc i o ho) (hocc j o' ho')
  · intro i o ho
    obtain ⟨r, hr, ha⟩ := h.slot i o (hhold i o ho)
    exact hrow i o r ho hr ha
  · intro i pid ho
    exact hhandle i pid ho (h.handle i pid (hocc i _ ho))
  · intro i r' o hr' hd ho
    obtain ⟨r, hr, hd⟩ := hdisp i o r' ho hr' hd
    exact h.dispatched i r o hr hd (hocc i o ho)

/-- The special case of one row write under unchanged handles. -/
theorem Occupancy.of_write {w : RowWrite} (h : Occupancy s) (hw : s.db.write i w = some t.db)
    (hocc : ∀ (j : ℕ) (o : Occupant), Occupies t j o → Occupies s j o)
    (hhold : ∀ (j : ℕ) (o : Occupant), HoldsSlot t j o → HoldsSlot s j o)
    (hhandle : ∀ (j pid : ℕ), Occupies t j (.child pid) → s.handle = some pid →
      t.handle = some pid)
    (hkeep : ∀ (o : Occupant) (r : NodeRow), HoldsSlot t i o → s.db.rows[i]? = some r →
      r.isActive = true → (w.row (s.db.context i r) r).isActive = true)
    (hsent : (∀ e p n, w ≠ .onChildExit e p n) ∨ ∀ o, ¬Occupies t i o) : Occupancy t := by
  refine h.shrink hocc hhold hhandle ?_ ?_
  · intro j o r ho hr ha
    rcases Db.write_getElem?_cases hw hr with hr' | ⟨rfl, hr'⟩
    · exact ⟨r, hr', ha⟩
    · exact ⟨_, hr', hkeep o r ho hr ha⟩
  · intro j o r' ho hr' hd
    have hlt : j < s.db.rows.length := by
      rw [← Db.write_length hw]
      exact (List.getElem?_eq_some_iff.mp hr').1
    have hr : s.db.rows[j]? = some s.db.rows[j] := List.getElem?_eq_getElem hlt
    refine ⟨_, hr, ?_⟩
    rcases Db.write_getElem?_cases hw hr with hsame | ⟨rfl, hnew⟩
    · obtain rfl : s.db.rows[j] = r' := by simpa [hsame] using hr'
      exact hd
    · obtain rfl : w.row (s.db.context j s.db.rows[j]) s.db.rows[j] = r' := by
        simpa [hnew] using hr'
      rcases hsent with hne | hno
      · exact RowWrite.row_dispatched hne hd
      · exact absurd ho (hno o)

/-- Signals move no occupant; without a pid nothing is sent. -/
theorem occupies_of_signal (pid : Option ℕ) (hsp : t.spawns = s.spawns)
    (hch : t.children = s.signal pid) :
    (∀ (i : ℕ) (o : Occupant), Occupies t i o → Occupies s i o) ∧
      (∀ (i : ℕ) (o : Occupant), HoldsSlot t i o → HoldsSlot s i o) := by
  have hget : ∀ (p : ℕ) (c : Child), t.children[p]? = some c →
      ∃ c₀, s.children[p]? = some c₀ ∧ c.alive = c₀.alive ∧ c.rowId = c₀.rowId ∧
        c.phase = c₀.phase := by
    intro p c hc
    rw [hch] at hc
    cases pid with
    | none => exact ⟨c, hc, rfl, rfl, rfl⟩
    | some q =>
      simp only [Fleet.signal, List.getElem?_modify] at hc
      obtain ⟨c₀, hc₀, rfl⟩ := Option.map_eq_some_iff.mp hc
      refine ⟨c₀, hc₀, ?_⟩
      by_cases hq : q = p <;> simp [hq]
  constructor <;> intro i o ho <;> cases o with
  | spawn k => simpa only [HoldsSlot, Occupies, hsp] using ho
  | child p =>
    obtain ⟨c, hc, ha, hrest⟩ := ho
    obtain ⟨c₀, hc₀, e1, e2, e3⟩ := hget p c hc
    rw [e1] at ha
    first
      | exact ⟨c₀, hc₀, ha, by rw [← e2]; exact hrest⟩
      | exact ⟨c₀, hc₀, ha, by rw [← e2]; exact hrest.1, by rw [← e3]; exact hrest.2⟩

/-! ### The steps, one by one -/

/-- Phase A opens a slot only when nobody is left on the deployment. -/
theorem Occupancy.reserve {req : SpawnRequest} {other : OtherStartup} (h : Occupancy s)
    (hC : ConfirmedDead s (.reserve req other))
    (hs : fleetStep host policy s (.reserve req other) = some t) : Occupancy t := by
  rcases fleetStep_reserve hs with rfl | ⟨hgate, hrows, hsp, hch, hhandle⟩
  · exact h
  obtain ⟨_, _, hact, _, _⟩ := phaseAGate_eq_none hgate
  have hexit : s.someExiting = false := by
    simpa [ConfirmedDead, Fleet.confirmed, hgate] using hC
  -- nobody occupies a row: a holder would make it active, a child that is exiting is excluded
  have hnobody : ∀ (i : ℕ) (o : Occupant), ¬Occupies s i o := by
    intro i o ho
    have hholds : ¬HoldsSlot s i o := by
      intro hh
      obtain ⟨r, hr, ha⟩ := h.slot i o hh
      rw [Db.hasActive_iff.mpr ⟨i, r, hr, ha⟩] at hact
      cases hact
    cases o with
    | spawn k => exact hholds ho
    | child pid =>
      obtain ⟨c, hc, ha, hrow⟩ := ho
      by_cases hphase : c.phase = .exiting
      · have : s.someExiting = true :=
          List.any_eq_true.mpr ⟨c, List.mem_of_getElem? hc, by simp [ha, hphase]⟩
        rw [hexit] at this
        cases this
      · exact hholds ⟨c, hc, ha, hrow, hphase⟩
  -- so the new spawn is the only occupant
  have hnew : ∀ (i : ℕ) (o : Occupant), Occupies t i o →
      o = .spawn s.spawns.length ∧ i = s.db.rows.length := by
    intro i o ho
    cases o with
    | child pid =>
      obtain ⟨c, hc, ha, hrow⟩ := ho
      rw [hch] at hc
      exact absurd ⟨c, hc, ha, hrow⟩ (hnobody i (.child pid))
    | spawn k =>
      obtain ⟨sp, hk, hpre, hrow⟩ := ho
      rw [hsp] at hk
      rcases getElem?_concat_cases hk with ⟨rfl, rfl⟩ | hk
      · exact ⟨rfl, hrow.symm⟩
      · exact absurd ⟨sp, hk, hpre, hrow⟩ (hnobody i (.spawn k))
  have hnewrow : t.db.rows[s.db.rows.length]? = some (reservedRow policy req s.db.dep) := by
    rw [hrows, List.getElem?_concat_length]
  refine ⟨?_, ?_, ?_, ?_⟩
  · intro i j o o' ho ho'
    rw [(hnew i o ho).1, (hnew j o' ho').1]
  · -- it holds the row Phase A has just inserted
    intro i o ho
    obtain ⟨_, rfl⟩ := hnew i o ho.occupies
    refine ⟨_, hnewrow, ?_⟩
    rw [NodeRow.isActive, reservedRow_status]
    rfl
  · intro i pid ho
    cases (hnew i _ ho).1
  · -- a fresh row has no dispatch sentinel
    intro i r o hr hd ho
    obtain ⟨_, rfl⟩ := hnew i o ho
    obtain rfl : reservedRow policy req s.db.dep = r := by simpa [hnewrow] using hr
    rw [reservedRow_restartDispatchedAt] at hd
    cases hd

/-- The spawn that starts a process hands its row over to it. -/
theorem Occupancy.start {k : ℕ} {sp : Spawn} (h : Occupancy s)
    (hk : s.spawns[k]? = some sp) (hpc : sp.pc = .processStart) :
    Occupancy (s.afterStart k
      (s.db, { sp with pc := .phaseC s.children.length, child := some s.children.length })) := by
  have hme : Occupies s sp.rowId (.spawn k) := ⟨sp, hk, by rw [hpc]; rfl, rfl⟩
  -- the new child is the only occupant
  have hnew : ∀ (i : ℕ) (o : Occupant), Occupies (s.afterStart k
      (s.db, { sp with pc := .phaseC s.children.length, child := some s.children.length })) i o →
      o = .child s.children.length ∧ i = sp.rowId := by
    intro i o ho
    cases o with
    | child pid =>
      obtain ⟨c, hc, ha, hrow⟩ := ho
      rcases getElem?_concat_cases (l := s.children) hc with ⟨rfl, rfl⟩ | hold
      · exact ⟨rfl, hrow.symm⟩
      · cases h.single i sp.rowId (.child pid) (.spawn k) ⟨c, hold, ha, hrow⟩ hme
    | spawn j =>
      obtain ⟨q, hq, hpre, hrow⟩ := ho
      rcases getElem?_set_cases hq with ⟨rfl, rfl⟩ | ⟨hj, hq⟩
      · cases hpre
      · have heq := h.single i sp.rowId (.spawn j) (.spawn k) ⟨q, hq, hpre, hrow⟩ hme
        exact absurd (Occupant.spawn.inj heq) hj
  refine ⟨?_, ?_, ?_, ?_⟩
  · intro i j o o' ho ho'
    rw [(hnew i o ho).1, (hnew j o' ho').1]
  · intro i o ho
    obtain ⟨_, rfl⟩ := hnew i o ho.occupies
    exact h.slot sp.rowId (.spawn k) hme
  · intro i pid ho
    cases (hnew i _ ho).1
    rfl
  · intro i r o hr hd ho
    obtain ⟨_, rfl⟩ := hnew i o ho
    exact h.dispatched sp.rowId r (.spawn k) hr hd hme

/-- A spawn in its clean-up has left its row. -/
theorem not_occupies_of_cleanup {k : ℕ} {sp : Spawn} (hw : Wired s) (hk : s.spawns[k]? = some sp)
    (hno : sp.pc.hasNoHandle = true) (hpre : sp.pc.isPreStart = false) :
    ∀ o, ¬Occupies s sp.rowId o := by
  intro o ho
  cases o with
  | child pid =>
    obtain ⟨c, hc, _, hrow⟩ := ho
    have hchild := hw.childOf k pid sp c hk hc hrow
    rw [hw.noChild k sp hk hno] at hchild
    cases hchild
  | spawn j =>
    obtain ⟨q, hq, hpre', hrow⟩ := ho
    obtain rfl := hw.ownRow j k q sp hq hk hrow
    obtain rfl : q = sp := by simpa [hq] using hk
    rw [hpre] at hpre'
    cases hpre'

/-- A spawn that starts no process. -/
theorem Occupancy.advance {k : ℕ} {sp sp' : Spawn} {db' : Db} {ev : SpawnEvent} (h : Occupancy s)
    (hw : Wired s) (hk : s.spawns[k]? = some sp) (heff : SpawnEffect s.db sp ev db' sp')
    (hne : ∀ pid, ev ≠ .start (.ok pid)) : Occupancy (s.afterSpawn k (db', sp')) := by
  obtain ⟨hrow', _, _⟩ := heff.kept hne
  obtain ⟨hsig, hsig'⟩ := occupies_of_signal (s := s)
    (t := { s with children := (s.afterSpawn k (db', sp')).children })
    (if sp'.terminated then sp'.child else none) rfl (by
      show (if sp'.terminated then s.signal sp'.child else s.children) = _
      split <;> rfl)
  have hspawn : ∀ (i j : ℕ), Occupies (s.afterSpawn k (db', sp')) i (.spawn j) →
      Occupies s i (.spawn j) := by
    rintro i j ⟨q, hq, hp, hrow⟩
    rcases getElem?_set_cases hq with ⟨rfl, rfl⟩ | ⟨_, hq⟩
    · exact ⟨sp, hk, heff.isPreStart hp, hrow'.symm.trans hrow⟩
    · exact ⟨q, hq, hp, hrow⟩
  have hocc : ∀ (i : ℕ) (o : Occupant), Occupies (s.afterSpawn k (db', sp')) i o →
      Occupies s i o := by
    intro i o ho
    cases o with
    | child pid => exact hsig i (.child pid) ho
    | spawn j => exact hspawn i j ho
  have hhold : ∀ (i : ℕ) (o : Occupant), HoldsSlot (s.afterSpawn k (db', sp')) i o →
      HoldsSlot s i o := by
    intro i o ho
    cases o with
    | child pid => exact hsig' i (.child pid) ho
    | spawn j => exact hspawn i j ho
  -- a clean-up write hits a row nobody occupies; Phase C leaves the status alone
  have hclean : ∀ (w : RowWrite), sp.pc.isCleanup = true → s.db.write sp.rowId w = some db' →
      (∀ e p n, w ≠ .onChildExit e p n) → Occupancy (s.afterSpawn k (db', sp')) := by
    intro w hcl hwr hne'
    have hfree : ∀ o, ¬Occupies s sp.rowId o := by
      refine not_occupies_of_cleanup hw hk ?_ ?_ <;>
        cases hpc : sp.pc <;> rw [hpc] at hcl <;> first | rfl | cases hcl
    refine h.of_write hwr hocc hhold (fun _ _ _ hh => hh) ?_ (Or.inl hne')
    intro o r ho
    exact absurd (hocc _ o ho.occupies) (hfree o)
  have hidle : db' = s.db → Occupancy (s.afterSpawn k (db', sp')) := by
    rintro rfl
    refine h.shrink hocc hhold (fun _ _ _ hh => hh) ?_ ?_
    · exact fun i o r _ hr ha => ⟨r, hr, ha⟩
    · exact fun i o r _ hr hd => ⟨r, hr, hd⟩
  cases heff with
  | recorded pid db'' hpc hev hwr =>
    -- Phase C writes the pid alone
    refine h.of_write hwr hocc hhold (fun _ _ _ hh => hh) (fun o r _ _ ha => ha)
      (Or.inl fun e p n he => by cases he)
  | failed kind reason ret bestEffort db'' hpc hwr =>
    exact hclean _ (by rw [hpc]; rfl) hwr fun e p n he => by cases he
  | terminalized reason ret db'' hpc hev hwr =>
    exact hclean _ (by rw [hpc]; rfl) hwr fun e p n he => by cases he
  | started pid hpc hev => exact absurd hev (hne pid)
  | _ => exact hidle rfl

/-- A child writes its own row: it is the only occupant, and it stays active until the
    child reports its end. -/
theorem Occupancy.child {pid : ℕ} {act : ChildAct} (h : Occupancy s)
    (hs : fleetStep host policy s (.child pid act) = some t) : Occupancy t := by
  obtain ⟨c, hc, hs⟩ := Option.bind_eq_some_iff.mp hs
  split at hs
  · rename_i ha
    obtain ⟨⟨w, phase⟩, hout, hs⟩ := Option.bind_eq_some_iff.mp hs
    obtain ⟨db', hwr, rfl⟩ := Option.map_eq_some_iff.mp hs
    obtain ⟨hlive, hkeep⟩ := childWrite_cases hout
    have hme : Occupies s c.rowId (.child pid) := ⟨c, hc, ha, rfl⟩
    have hocc : ∀ (i : ℕ) (o : Occupant), Occupies { s with
        db := db', children := s.children.set pid { c with phase := phase } } i o →
        Occupies s i o := by
      intro i o ho
      cases o with
      | spawn k => exact ho
      | child p =>
        obtain ⟨c', hc', ha', hrow'⟩ := ho
        rcases getElem?_set_cases hc' with ⟨rfl, rfl⟩ | ⟨_, hc'⟩
        · exact ⟨c, hc, ha', hrow'⟩
        · exact ⟨c', hc', ha', hrow'⟩
    refine h.of_write hwr hocc ?_ (fun _ _ _ hh => hh) ?_ ?_
    · intro i o ho
      cases o with
      | spawn k => exact ho
      | child p =>
        obtain ⟨c', hc', ha', hrow', hph'⟩ := ho
        rcases getElem?_set_cases hc' with ⟨rfl, rfl⟩ | ⟨_, hc'⟩
        · exact ⟨c, hc, ha', hrow', hlive⟩
        · exact ⟨c', hc', ha', hrow', hph'⟩
    · intro o r ho hr hact
      -- the holder is this child, so it has not reported its end
      obtain rfl := h.single _ _ _ _ (hocc _ o ho.occupies) hme
      obtain ⟨c', hc', _, _, hph'⟩ := ho
      obtain ⟨_, rfl⟩ | ⟨hne, _⟩ := getElem?_set_cases hc'
      · rcases hkeep with hexit | hkeep
        · exact absurd hexit hph'
        · exact hkeep _ r hact
      · exact absurd rfl hne
    · refine Or.inl fun e p n he => ?_
      subst he
      cases hph : c.phase <;> cases act <;> rw [hph] at hout <;> cases hout
  · cases hs

/-- A child dies. -/
theorem Occupancy.childExit {pid : ℕ} {code : Option Int} (h : Occupancy s)
    (hs : fleetStep host policy s (.childExit pid code) = some t) : Occupancy t := by
  obtain ⟨c, hc, hs⟩ := Option.bind_eq_some_iff.mp hs
  split at hs
  · obtain rfl := Option.some.inj hs
    refine h.shrink ?_ ?_ (fun _ _ _ hh => hh) (fun i o r _ hr ha => ⟨r, hr, ha⟩)
      (fun i o r _ hr hd => ⟨r, hr, hd⟩) <;> intro i o ho <;> cases o with
    | spawn k => exact ho
    | child p =>
      obtain ⟨c', hc', ha', hrest⟩ := ho
      rcases getElem?_set_cases hc' with ⟨rfl, rfl⟩ | ⟨_, hc'⟩
      · cases ha'
      · exact ⟨c', hc', ha', hrest⟩
  · cases hs

/-- The reaper writes the row of a dead child and drops its handle. -/
theorem Occupancy.reap {now : ℕ} (h : Occupancy s) (hw : Wired s)
    (hs : fleetStep host policy s (.reap now) = some t) : Occupancy t := by
  obtain ⟨pid, hpid, hs⟩ := Option.bind_eq_some_iff.mp hs
  obtain ⟨c, hc, hs⟩ := Option.bind_eq_some_iff.mp hs
  split at hs
  · cases hs
  · rename_i hdead
    obtain ⟨db', hwr, rfl⟩ := Option.map_eq_some_iff.mp hs
    -- a live child is the cached one, and the cached one is dead
    have hnochild : ∀ (i p : ℕ), ¬Occupies s i (.child p) := by
      intro i p ho
      have hp := h.handle i p ho
      obtain ⟨c', hc', ha', _⟩ := ho
      obtain rfl : pid = p := by simpa [hpid] using hp
      obtain rfl : c = c' := by simpa [hc] using hc'
      exact hdead ha'
    have hfree : ∀ o, ¬Occupies s c.rowId o := by
      intro o ho
      cases o with
      | child p => exact hnochild _ p ho
      | spawn k =>
        obtain ⟨sp, hk, hpre, hrow⟩ := ho
        have hchild := hw.childOf k pid sp c hk hc hrow.symm
        rw [hw.noChild k sp hk (hasNoHandle_of_isPreStart hpre)] at hchild
        cases hchild
    refine h.of_write hwr (fun _ _ ho => ho) (fun _ _ ho => ho) ?_ ?_ (Or.inr hfree)
    · exact fun i p ho _ => absurd ho (hnochild i p)
    · exact fun o r ho => absurd ho.occupies (hfree o)

/-- The supervisor's sweeps and clean-ups keep off occupied rows: two by the condition, the
    ownerless reap by the handle and the in-flight set, the clean-ups by ownership. -/
theorem Occupancy.sweep {w : RowWrite} (h : Occupancy s) (hw : Wired s)
    (hC : ConfirmedDead s (.sweep i w))
    (hs : fleetStep host policy s (.sweep i w) = some t) : Occupancy t := by
  simp only [fleetStep] at hs
  split at hs
  · rename_i hallow
    obtain ⟨db', hwr, rfl⟩ := Option.map_eq_some_iff.mp hs
    have hkeep : ∀ (o : Occupant) (r : NodeRow), Occupies s i o → s.db.rows[i]? = some r →
        r.isActive = true → (w.row (s.db.context i r) r).isActive = true := by
      intro o r ho hr ha
      cases w with
      | heartbeatSweep cutoff => exact active_of_confirms hC ho hr ha
      | rescanFlip cutoff => exact active_of_confirms hC ho hr ha
      | apiStampActive now =>
        simp only [RowWrite.row]
        split <;> exact ha
      | reapOwnerless cutoff =>
        -- a live child has its handle cached, a spawn before its start is in flight
        exfalso
        obtain ⟨halive, hflight⟩ := Bool.and_eq_true_iff.mp hallow
        cases o with
        | child p =>
          have hp := h.handle i p ho
          obtain ⟨c, hc, hca, _⟩ := ho
          simp [Fleet.handleAlive, hp, hc, hca] at halive
        | spawn k =>
          obtain ⟨sp, hk, hpre, hrow⟩ := ho
          have hin : s.inFlight i = true := by
            refine List.any_eq_true.mpr ⟨sp, List.mem_of_getElem? hk, ?_⟩
            cases hpc : sp.pc <;> rw [hpc] at hpre <;> first | (cases hpre; done) | simp [hrow]
          simp [hin] at hflight
      | clearSentinelAndRefailAfterGiveup =>
        -- the sentinel is set by the reaper, after the exit
        have hd : r.restartDispatchedAt.isSome = true := by
          simpa [Fleet.sweepAllowed, hr] using hallow
        exact absurd ho (h.dispatched i r o hr hd)
      | refailStrandedRestart =>
        -- the stranded spawn ended without a child, and no other spawn has its row
        obtain ⟨sp, hmem, hsp⟩ := List.any_eq_true.mp hallow
        obtain ⟨k, hk⟩ := List.mem_iff_getElem?.mp hmem
        simp only [Bool.and_eq_true, decide_eq_true_eq] at hsp
        obtain ⟨rfl, hpc⟩ := hsp
        refine absurd ho (not_occupies_of_cleanup hw hk ?_ ?_ o) <;> rw [hpc] <;> rfl
      | _ => cases hallow
    refine h.of_write hwr (fun _ _ ho => ho) (fun _ _ ho => ho) (fun _ _ _ hh => hh) ?_ ?_
    · exact fun o r ho => hkeep o r ho.occupies
    · refine Or.inl fun e p n he => ?_
      subst he
      cases hallow
  · cases hs

/-- The watchdog flushes rows whose death is confirmed. -/
theorem Occupancy.flush {timeout : String} (h : Occupancy s)
    (hC : ConfirmedDead s (.watchdogFlush timeout))
    (hs : fleetStep host policy s (.watchdogFlush timeout) = some t) : Occupancy t := by
  simp only [fleetStep] at hs
  split at hs
  · cases hs
  · rename_i j pid rest hwatch
    obtain ⟨db', hwr, rfl⟩ := Option.map_eq_some_iff.mp hs
    have hconf : s.confirms j (.watchdogFlush timeout pid) = true := by
      simpa [ConfirmedDead, Fleet.confirmed, hwatch] using hC
    refine h.of_write hwr (fun _ _ ho => ho) (fun _ _ ho => ho) (fun _ _ _ hh => hh) ?_
      (Or.inl fun e p n he => by cases he)
    exact fun o r ho hr ha => active_of_confirms hconf ho.occupies hr ha

/-- A stop keeps the active row active. -/
theorem Occupancy.stop {now : ℕ} (h : Occupancy s)
    (hs : fleetStep host policy s (.stop now) = some t) : Occupancy t := by
  obtain ⟨⟨res, db'⟩, hstop, rfl⟩ := Option.map_eq_some_iff.mp hs
  have hrow : ∀ (j : ℕ) (r : NodeRow), s.db.rows[j]? = some r →
      ∃ r', db'.rows[j]? = some r' ∧ r'.isActive = r.isActive ∧
        r'.restartDispatchedAt = r.restartDispatchedAt := by
    intro j r hr
    obtain ⟨r', hr', hsame, _, hd⟩ := stopTxn_row hstop hr
    exact ⟨r', hr', hsame, hd⟩
  have hlen := stopTxn_length hstop
  have hbody : ∀ stops, Occupancy { s with db := db', stops := stops } := by
    intro stops
    refine h.shrink (fun _ _ ho => ho) (fun _ _ ho => ho) (fun _ _ _ hh => hh) ?_ ?_
    · intro j o r _ hr ha
      obtain ⟨r', hr', hsame, _⟩ := hrow j r hr
      exact ⟨r', hr', by rw [hsame, ha]⟩
    · intro j o r' _ hr' hd
      have hlt : j < s.db.rows.length := hlen ▸ (List.getElem?_eq_some_iff.mp hr').1
      obtain ⟨r'', hr'', _, hsame⟩ := hrow j _ (List.getElem?_eq_getElem hlt)
      obtain rfl : r'' = r' := by simpa [hr''] using hr'
      exact ⟨_, List.getElem?_eq_getElem hlt, by rw [← hsame]; exact hd⟩
  split
  · exact hbody _
  · exact hbody _

/-- **The step lemma.** -/
theorem Occupancy.step (h : Occupancy s) (hw : Wired s) (hC : ConfirmedDead s a)
    (hs : fleetStep host policy s a = some t) : Occupancy t := by
  have hkeep : t.db.rows = s.db.rows → t.handle = s.handle →
      (∀ (i : ℕ) (o : Occupant), Occupies t i o → Occupies s i o) ∧
        (∀ (i : ℕ) (o : Occupant), HoldsSlot t i o → HoldsSlot s i o) → Occupancy t := by
    intro hrows hhandle ⟨hocc, hhold⟩
    refine h.shrink hocc hhold (fun _ _ _ hh => hhandle.trans hh) ?_ ?_ <;> rw [hrows]
    · exact fun i o r _ hr ha => ⟨r, hr, ha⟩
    · exact fun i o r _ hr hd => ⟨r, hr, hd⟩
  cases a with
  | reserve req other => exact h.reserve hC hs
  | spawn k ev =>
    obtain ⟨sp, hk, ⟨hpc, rfl⟩ | ⟨hne, db', sp', heff, rfl⟩⟩ := fleetStep_spawn hs
    · exact h.start hk hpc
    · exact h.advance hw hk heff hne
  | child pid act => exact h.child hs
  | childExit pid code => exact h.childExit hs
  | reap now => exact h.reap hw hs
  | sweep i w => exact h.sweep hw hC hs
  | watchdogSelect i cutoff =>
    obtain ⟨r, hr, hs⟩ := Option.bind_eq_some_iff.mp hs
    split at hs
    · obtain rfl := Option.some.inj hs
      exact hkeep rfl rfl (occupies_of_signal _ rfl rfl)
    · cases hs
  | watchdogFlush timeout => exact h.flush hC hs
  | stop now => exact h.stop hs
  | stopSignal =>
    simp only [fleetStep] at hs
    split at hs
    · cases hs
    · obtain rfl := Option.some.inj hs
      exact hkeep rfl rfl (occupies_of_signal _ rfl rfl)
  | apiStart now | apiStatus st hst =>
    obtain rfl := Option.some.inj hs
    exact hkeep rfl rfl (occupies_of_signal none rfl rfl)

/-- **At most one live child.**  In every run of one supervisor in which active rows are
    flipped by the heartbeat sweep, the rescan and the watchdog only when nothing occupies
    them, and slots are reserved only when no child is still exiting, two live children of
    the deployment are the same process. -/
theorem one_live_child_of_confirmed {db : Db} {as : List FleetLabel}
    (h : Path (fleetSystem host policy) ConfirmedDead (Fleet.initial db) as t) {pid pid' : ℕ}
    {c c' : Child} (hc : t.children[pid]? = some c) (hc' : t.children[pid']? = some c')
    (ha : c.alive = true) (ha' : c'.alive = true) : pid = pid' := by
  have hinv : Wired t ∧ Occupancy t := by
    refine h.invariant (I := fun u => Wired u ∧ Occupancy u) ?_ ⟨?_, ?_⟩
    · intro u a v hinv hC hstep
      exact ⟨hinv.1.step hstep, hinv.2.step hinv.1 hC hstep⟩
    · exact wired_initial db
    · have hnone : ∀ (i : ℕ) (o : Occupant), ¬Occupies (Fleet.initial db) i o := by
        intro i o ho
        cases o <;> simp [Occupies, Fleet.initial] at ho
      exact ⟨fun i _ o _ ho => absurd ho (hnone i o), fun i o ho => absurd ho.occupies (hnone i o),
        fun i pid ho => absurd ho (hnone i _), fun i _ o _ _ => hnone i o⟩
  have hsame := hinv.2.single c.rowId c'.rowId (.child pid) (.child pid') ⟨c, hc, ha, rfl⟩
    ⟨c', hc', ha', rfl⟩
  exact Occupant.child.inj hsame

/-! ### A stale heartbeat with and without a dead child -/

/-- Child `pid` comes up and sends one heartbeat at time 5. -/
def comeUp (pid : ℕ) : List FleetLabel :=
  [.child pid (.selfWritePid 2), .child pid (.markReady 3), .child pid (.markRunning 4),
    .child pid (.heartbeat 5)]

/-- The heartbeat thread of a trading child stalls for 35 seconds; the monitor fails its row
    and the rescan restarts the deployment. -/
def stalledHeartbeat : List FleetLabel :=
  .reserve (startRequest 1) .none :: launch 0 0 ++ comeUp 0 ++
    .sweep 0 (.heartbeatSweep 40) :: .reserve (restartRequest 50) .none :: launch 1 1

/-- **The slip.**  The row is failed on a stale heartbeat alone, and a second child starts
    beside the first. -/
theorem one_live_child_fails :
    ¬∀ (db : Db) (as : List FleetLabel) (t : Fleet) (pid pid' : ℕ) (c c' : Child),
      Path (fleetSystem "h" (some .default)) anyStep (Fleet.initial db) as t →
      t.children[pid]? = some c → t.children[pid']? = some c' →
      c.alive = true → c'.alive = true → pid = pid' := by
  intro h
  obtain ⟨t, hrun, h0, h1⟩ :
      ∃ t, (fleetSystem "h" (some .default)).run (Fleet.initial queuedDb) stalledHeartbeat
          = some t ∧
        (t.children[0]?).map (·.alive) = some true ∧
        (t.children[1]?).map (·.alive) = some true :=
    ⟨_, rfl, rfl, rfl⟩
  obtain ⟨c, hc, ha⟩ := Option.map_eq_some_iff.mp h0
  obtain ⟨c', hc', ha'⟩ := Option.map_eq_some_iff.mp h1
  exact absurd (h queuedDb _ t 0 1 c c' (.of_run hrun) hc hc' ha ha') (by decide)

/-- The same sweep after the child was killed. -/
def deadHeartbeat : List FleetLabel :=
  .reserve (startRequest 1) .none :: launch 0 0 ++ comeUp 0 ++
    .childExit 0 (some (-9)) :: .sweep 0 (.heartbeatSweep 40) ::
      .reserve (restartRequest 50) .none :: launch 1 1

/-- Then the restarted child is the only live one. -/
theorem one_live_child_restarted :
    ∃ t, Path (fleetSystem "h" (some .default)) ConfirmedDead (Fleet.initial queuedDb)
        deadHeartbeat t ∧
      t.children.length = 2 ∧
      ∀ (pid : ℕ) (c : Child), t.children[pid]? = some c → c.alive = true → pid = 1 := by
  obtain ⟨t, hrun, hlen, h1⟩ :
      ∃ t, (fleetSystem "h" (some .default)).runWhere ConfirmedDead (Fleet.initial queuedDb)
          deadHeartbeat = some t ∧
        t.children.length = 2 ∧ (t.children[1]?).map (·.alive) = some true :=
    ⟨_, rfl, rfl, rfl⟩
  obtain ⟨c₁, hc₁, ha₁⟩ := Option.map_eq_some_iff.mp h1
  have hpath := Path.of_runWhere hrun
  exact ⟨t, hpath, hlen, fun pid c hc ha =>
    one_live_child_of_confirmed hpath hc hc₁ ha ha₁⟩

end Msai.Supervisor
