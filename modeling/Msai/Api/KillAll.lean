import Msai.Supervisor.Fleet

namespace Msai.Api

open Msai.Live Msai.Lib Msai.Lib.TransitionSystem Msai.Supervisor

/-!
# Kill-all and the spawns in flight (`live_kill_all` in `api/live.py`)

The handler sets the fleet halt latch with one script, then reads the active node rows of
every deployment, then requests a stop for each of them.  A spawn commits its row first and
reads the latch afterwards, twice, the second time behind the payload factory.  So whoever has
seen the latch clear had committed its row before the handler's `SELECT`.

* `Site`, `siteStep` — the deployments with their supervisors, the latch, and one kill-all;
* `selectActive` — the rows the handler's `SELECT` returns;
* `spawnStep_isPastRecheck` — the second latch read is the only way to `process.start()`;
* `InFlightLive` — no row of a spawn behind that read has left the selected statuses;
* `kill_all_selects_every_start` — then the `SELECT` returns the row of every start to come.

A row can leave the selected statuses while its spawn is already behind all gates.  If a stop has
marked it `stopping`, Phase C terminates the child that is started for it; if the rescan has
re-failed it for its stale heartbeat, the child is started, kept, and stopped by nobody.
-/

/-! ### The handler -/

/-- Where the handler stands. -/
inductive KillAll
  | idle
  /-- `HALT_WRITE_LUA` has run. -/
  | halted
  /-- The `SELECT` has returned `rows`, each a deployment and a row of it; `pending` still
      wait for their stop request, `failed` could not be published. -/
  | stopping (rows pending failed : List (ℕ × ℕ))
  /-- The script raised: the request ends with a 5xx. -/
  | raised
deriving DecidableEq, Repr

namespace KillAll

/-- The latch was written by this request. -/
def hasHalted : KillAll → Bool
  | .halted | .stopping _ _ _ => true
  | .idle | .raised => false

/-- The result of the `SELECT`. -/
def selected : KillAll → List (ℕ × ℕ)
  | .stopping rows _ _ => rows
  | _ => []

end KillAll

/-- `status IN ('starting', 'building', 'ready', 'running')` over all deployments. -/
def selectActive (fleets : List Fleet) : List (ℕ × ℕ) :=
  fleets.zipIdx.flatMap fun p =>
    (p.1.db.rows.zipIdx.filter fun q => q.1.status.isLive).map fun q => (p.2, q.2)

theorem mem_selectActive {fleets : List Fleet} {d i : ℕ} :
    (d, i) ∈ selectActive fleets ↔ ∃ f r, fleets[d]? = some f ∧ f.db.rows[i]? = some r ∧
      r.status.isLive = true := by
  simp only [selectActive, List.mem_flatMap, List.mem_map, List.mem_filter, Prod.exists,
    List.mem_zipIdx_iff_getElem?, Prod.mk.injEq]
  constructor
  · rintro ⟨f, d', hf, r, i', ⟨hr, hl⟩, rfl, rfl⟩
    exact ⟨f, r, hf, hr, hl⟩
  · rintro ⟨f, r, hf, hr, hl⟩
    exact ⟨f, d, hf, r, i, ⟨hr, hl⟩, rfl, rfl⟩

/-! ### The system -/

/-- The deployments with their supervisors, the fleet halt latch and the kill-all request. -/
structure Site where
  fleets : List Fleet
  /-- `EXISTS msai:risk:halt`.  The latch does not expire. -/
  latch : Bool
  killAll : KillAll
deriving DecidableEq

/-- What happens next. -/
inductive SiteLabel
  /-- A step of deployment `d`. -/
  | fleet (d : ℕ) (a : FleetLabel)
  /-- An automatic halt sets the same latch. -/
  | otherHalt
  | haltWrite (ok : Bool)
  | select
  | stopRequest (ok : Bool)

/-- An answer of `redis.exists` that the latch allows; the read may always fail. -/
def Latch.agrees (latch : Bool) : Latch → Bool
  | .clear => !latch
  | .set => latch
  | .raises _ => true

/-- The label is no read of the fleet latch, or its answer is the state of the latch.  The
    reads of the account latch are answered freely. -/
def latchAgrees (latch : Bool) (f : Fleet) : FleetLabel → Bool
  | .spawn k (.latch answer) =>
    match f.spawns[k]? with
    | some sp =>
      if sp.pc = .haltCheck ∨ sp.pc = .haltRecheck then Latch.agrees latch answer else true
    | none => true
  | _ => true

/-- One step of the site.  Deployment `d` runs on host `host d`. -/
def siteStep (host : ℕ → String) (policy : Option RestartPolicy) (s : Site) :
    SiteLabel → Option Site
  | .fleet d a =>
    (s.fleets[d]?).bind fun f =>
      if latchAgrees s.latch f a then
        (fleetStep (host d) policy f a).map fun f' => { s with fleets := s.fleets.set d f' }
      else none
  | .otherHalt => some { s with latch := true }
  | .haltWrite ok =>
    match s.killAll with
    | .idle =>
      if ok then some { s with latch := true, killAll := .halted }
      else some { s with killAll := .raised }
    | _ => none
  | .select =>
    match s.killAll with
    | .halted =>
      some { s with killAll := .stopping (selectActive s.fleets) (selectActive s.fleets) [] }
    | _ => none
  | .stopRequest ok =>
    match s.killAll with
    | .stopping rows (row :: pending) failed =>
      -- a failed publish is recorded and the loop goes on
      some { s with killAll := .stopping rows pending (if ok then failed else failed ++ [row]) }
    | _ => none

/-- The site as a transition system. -/
def siteSystem (host : ℕ → String) (policy : Option RestartPolicy) :
    TransitionSystem Site SiteLabel where
  step := siteStep host policy

/-- Supervisors that have just come up, before the request. -/
def Site.initial (dbs : List Db) (latch : Bool) : Site :=
  { fleets := dbs.map Fleet.initial, latch := latch, killAll := .idle }

/-! ### Behind the second latch read -/

/-- The call has read the fleet latch for the last time and may still start a process. -/
def isPastRecheck : Pc → Bool
  | .accountHaltRecheck _ | .stopIntentGate | .processStart => true
  | _ => false

section Spawn

variable {db db' : Db} {sp sp' : Spawn} {ev : SpawnEvent}

/-- A reading step gets behind the second latch read by seeing the latch clear. -/
theorem nextPc_isPastRecheck {pc : Pc} (h : sp.nextPc db ev = some pc)
    (hpc : isPastRecheck pc = true) :
    isPastRecheck sp.pc = true ∨ (sp.pc = .haltRecheck ∧ ev = .latch .clear) := by
  cases ev with
  | latch answer =>
    simp only [Spawn.nextPc] at h
    split at h
    · obtain rfl := Option.some.inj h
      cases answer <;> cases hpc
    · split at h <;> obtain rfl := Option.some.inj h <;> cases hpc
    · rename_i hread
      obtain rfl := Option.some.inj h
      cases answer with
      | clear => exact Or.inr ⟨hread, rfl⟩
      | set | raises _ => cases hpc
    · rename_i a hread
      rw [hread]
      exact Or.inl rfl
    · cases h
  | lookup exc =>
    simp only [Spawn.nextPc] at h
    split at h
    · obtain rfl := Option.some.inj h
      cases hpc
    · split at h <;> obtain rfl := Option.some.inj h <;> cases hpc
    · cases h
  | factory result =>
    simp only [Spawn.nextPc] at h
    split at h
    · obtain rfl := Option.some.inj h
      cases result <;> cases hpc
    · cases h
  | stopIntent raises =>
    simp only [Spawn.nextPc] at h
    split at h
    · rename_i hread
      rw [hread]
      exact Or.inl rfl
    · cases h
  | start _ | phaseC _ | commit _ | leave | cancel => cases h

/-- The second latch read is the only way to `process.start()`. -/
theorem spawnStep_isPastRecheck (h : spawnStep db sp ev = some (db', sp'))
    (hpc : isPastRecheck sp'.pc = true) :
    isPastRecheck sp.pc = true ∨ (sp.pc = .haltRecheck ∧ ev = .latch .clear) := by
  cases ev with
  | latch _ | lookup _ | factory _ | stopIntent _ =>
    simp only [spawnStep] at h
    obtain ⟨pc, hnext, heq⟩ := Option.map_eq_some_iff.mp h
    obtain ⟨_, rfl⟩ := Prod.mk.inj heq
    exact nextPc_isPastRecheck hnext hpc
  -- every other step leads into a clean-up, out of the call, or behind the start
  | start result =>
    simp only [spawnStep] at h
    split at h
    · split at h <;> obtain ⟨_, rfl⟩ := Prod.mk.inj (Option.some.inj h) <;> cases hpc
    · cases h
  | phaseC ok =>
    simp only [spawnStep] at h
    split at h
    · split at h
      · obtain ⟨_, _, heq⟩ := Option.map_eq_some_iff.mp h
        obtain ⟨_, rfl⟩ := Prod.mk.inj heq
        cases hpc
      · obtain ⟨_, rfl⟩ := Prod.mk.inj (Option.some.inj h)
        cases hpc
    · cases h
  | commit ok =>
    simp only [spawnStep] at h
    split at h
    · split at h
      · obtain ⟨_, _, heq⟩ := Option.map_eq_some_iff.mp h
        obtain ⟨_, rfl⟩ := Prod.mk.inj heq
        cases hpc
      · obtain ⟨_, rfl⟩ := Prod.mk.inj (Option.some.inj h)
        rw [Spawn.goto_pc] at hpc
        split at hpc <;> cases hpc
    · split at h
      · obtain ⟨_, _, heq⟩ := Option.map_eq_some_iff.mp h
        obtain ⟨_, rfl⟩ := Prod.mk.inj heq
        cases hpc
      · obtain ⟨_, rfl⟩ := Prod.mk.inj (Option.some.inj h)
        cases hpc
    · cases h
  | leave =>
    simp only [spawnStep] at h
    split at h
    · obtain ⟨_, rfl⟩ := Prod.mk.inj (Option.some.inj h)
      cases hpc
    · cases h
  | cancel =>
    simp only [spawnStep] at h
    split at h
    · obtain ⟨_, rfl⟩ := Prod.mk.inj (Option.some.inj h)
      cases hpc
    · split at h
      · obtain ⟨_, rfl⟩ := Prod.mk.inj (Option.some.inj h)
        cases hpc
      · cases h

end Spawn

/-! ### The rows of the children -/

/-- Whoever is behind the second latch read, and every child from pid `n` on, belongs to one of
    the rows `p`. -/
structure Covered (p : ℕ → Prop) (n : ℕ) (f : Fleet) : Prop where
  gates : ∀ (k : ℕ) (sp : Spawn), f.spawns[k]? = some sp → isPastRecheck sp.pc = true →
    p sp.rowId
  children : ∀ (pid : ℕ) (c : Child), f.children[pid]? = some c → n ≤ pid → p c.rowId

/-- The rows of the spawns behind the second latch read are still `starting`, `building`, `ready`
    or `running`. -/
def InFlightLive (s : Site) : Prop :=
  ∀ f ∈ s.fleets, ∀ sp ∈ f.spawns, isPastRecheck sp.pc = true →
    (f.db.rows[sp.rowId]?).any (·.status.isLive) = true

instance (s : Site) : Decidable (InFlightLive s) :=
  inferInstanceAs (Decidable (∀ f ∈ s.fleets, ∀ sp ∈ f.spawns, isPastRecheck sp.pc = true →
    (f.db.rows[sp.rowId]?).any (·.status.isLive) = true))

section Step

variable {host : String} {policy : Option RestartPolicy} {f f' : Fleet} {a : FleetLabel}
  {p : ℕ → Prop} {n : ℕ}

/-- At any time, everybody belongs to a row of the table. -/
theorem covered_of_wired (h : Wired f) : Covered (· < f.db.rows.length) 0 f := by
  refine ⟨fun k sp hk _ => h.inTable k sp hk, fun pid c hc _ => ?_⟩
  obtain ⟨k, sp, hk, hrow⟩ := h.hasSpawn pid c hc
  exact hrow ▸ h.inTable k sp hk

/-- And the starts in flight to a row the `SELECT` returns, as long as these rows are active. -/
theorem covered_of_inFlightLive {s : Site} {d : ℕ} (hlive : InFlightLive s)
    (hf : s.fleets[d]? = some f) :
    Covered (fun i => (d, i) ∈ selectActive s.fleets) f.children.length f := by
  refine ⟨fun k sp hk hpc => ?_, fun pid c hc hnew => ?_⟩
  · obtain ⟨r, hr, hstatus⟩ := (Option.any_eq_true _ _).mp
      (hlive f (List.mem_of_getElem? hf) sp (List.mem_of_getElem? hk) hpc)
    exact mem_selectActive.mpr ⟨f, r, hf, hr, hstatus⟩
  · have hlt := (List.getElem?_eq_some_iff.mp hc).1
    omega

/-- The call behind a spawn label. -/
theorem fleetStep_spawnStep {k : ℕ} {ev : SpawnEvent}
    (h : fleetStep host policy f (.spawn k ev) = some f') :
    ∃ sp db' sp', f.spawns[k]? = some sp ∧ spawnStep f.db sp ev = some (db', sp') ∧
      sp'.rowId = sp.rowId ∧
      ((sp.pc = .processStart ∧ f' = f.afterStart k (db', sp')) ∨
        f' = f.afterSpawn k (db', sp')) := by
  obtain ⟨sp, hk, h⟩ := Option.bind_eq_some_iff.mp h
  split at h
  · split at h
    · obtain ⟨⟨db', sp'⟩, hout, rfl⟩ := Option.map_eq_some_iff.mp h
      obtain ⟨hpc, rfl, rfl⟩ := spawnStep_start hout
      exact ⟨sp, _, _, hk, hout, rfl, Or.inl ⟨hpc, rfl⟩⟩
    · cases h
  · rename_i hne
    obtain ⟨⟨db', sp'⟩, hout, rfl⟩ := Option.map_eq_some_iff.mp h
    have hrow := ((spawnStep_effect hout).kept fun pid he => hne pid he).1
    exact ⟨sp, db', sp', hk, hout, hrow, Or.inr rfl⟩

/-- Under the latch nobody new gets behind the second read. -/
theorem Covered.step (h : Covered p n f) (hlatch : latchAgrees true f a = true)
    (hs : fleetStep host policy f a = some f') : Covered p n f' := by
  rcases fleetStep_kinds hs with ⟨req, other, rfl⟩ | ⟨k, ev, rfl⟩ | ⟨_, hsp, hch⟩
  · rcases fleetStep_reserve hs with rfl | ⟨_, _, hsp, hch, _⟩
    · exact h
    · refine ⟨fun k sp hk hpc => ?_, by rw [hch]; exact h.children⟩
      rw [hsp] at hk
      rcases getElem?_concat_cases hk with ⟨_, rfl⟩ | hk
      · -- a fresh call stands at its first latch read
        cases hpc
      · exact h.gates k sp hk hpc
  · obtain ⟨sp, db', sp', hk, hout, hrow, hf'⟩ := fleetStep_spawnStep hs
    have hgates : ∀ (j : ℕ) (q : Spawn), (f.spawns.set k sp')[j]? = some q →
        isPastRecheck q.pc = true → p q.rowId := by
      intro j q hq hpc
      rcases getElem?_set_cases hq with ⟨rfl, rfl⟩ | ⟨_, hq⟩
      · rcases spawnStep_isPastRecheck hout hpc with hpast | ⟨hread, rfl⟩
        · exact hrow ▸ h.gates j sp hk hpast
        · -- the second read would have had to see the latch clear
          simp [latchAgrees, hk, hread, Latch.agrees] at hlatch
      · exact h.gates j q hq hpc
    rcases hf' with ⟨hpc, rfl⟩ | rfl
    · refine ⟨hgates, fun pid c hc hnew => ?_⟩
      rcases getElem?_concat_cases (l := f.children) hc with ⟨_, rfl⟩ | hc
      · show p sp'.rowId
        rw [hrow]
        exact h.gates k sp hk (by rw [hpc]; rfl)
      · exact h.children pid c hc hnew
    · refine ⟨hgates, fun pid c hc hnew => ?_⟩
      obtain ⟨c₀, hc₀, hrow₀, _⟩ := (f.follows_afterSpawn k (db', sp')).child pid c hc
      exact hrow₀ ▸ h.children pid c₀ hc₀ hnew
  · refine ⟨by rw [hsp]; exact h.gates, fun pid c hc hnew => ?_⟩
    obtain ⟨c₀, hc₀, hrow₀, _⟩ := hch.child pid c hc
    exact hrow₀ ▸ h.children pid c₀ hc₀ hnew

end Step

/-! ### The site -/

section Site

variable {host : ℕ → String} {policy : Option RestartPolicy} {s t u : Site} {a : SiteLabel}

/-- **What a step of the site does.**  It moves one deployment under the latch as it is, or
    leaves all deployments alone; the latch is never cleared, and the handler keeps the rows
    it has selected. -/
theorem siteStep_cases (h : siteStep host policy s a = some t) :
    (∃ d b f f', s.fleets[d]? = some f ∧ latchAgrees s.latch f b = true ∧
      fleetStep (host d) policy f b = some f' ∧ t = { s with fleets := s.fleets.set d f' }) ∨
    (t.fleets = s.fleets ∧ (s.latch = true → t.latch = true) ∧
      (t.killAll.hasHalted = true → s.killAll.hasHalted = true ∨ t.latch = true) ∧
      ∀ rows pending failed, s.killAll = .stopping rows pending failed →
        ∃ pending' failed', t.killAll = .stopping rows pending' failed') := by
  cases a with
  | fleet d b =>
    obtain ⟨f, hf, h⟩ := Option.bind_eq_some_iff.mp h
    split at h
    · rename_i hagree
      obtain ⟨f', hstep, rfl⟩ := Option.map_eq_some_iff.mp h
      exact Or.inl ⟨d, b, f, f', hf, hagree, hstep, rfl⟩
    · cases h
  | otherHalt =>
    obtain rfl := Option.some.inj h
    exact Or.inr ⟨rfl, fun _ => rfl, fun hh => Or.inl hh, fun _ _ _ hk => ⟨_, _, hk⟩⟩
  | haltWrite ok =>
    simp only [siteStep] at h
    split at h
    · rename_i hidle
      have hno : ∀ rows pending failed, s.killAll ≠ .stopping rows pending failed :=
        fun _ _ _ hk => by rw [hidle] at hk; cases hk
      split at h <;> obtain rfl := Option.some.inj h
      · exact Or.inr ⟨rfl, fun _ => rfl, fun _ => Or.inr rfl, fun _ _ _ hk => absurd hk (hno _ _ _)⟩
      · exact Or.inr ⟨rfl, id, fun hh => (by cases hh), fun _ _ _ hk => absurd hk (hno _ _ _)⟩
    · cases h
  | select =>
    simp only [siteStep] at h
    split at h
    · rename_i hhalted
      obtain rfl := Option.some.inj h
      refine Or.inr ⟨rfl, id, fun _ => Or.inl (by rw [hhalted]; rfl), fun _ _ _ hk => ?_⟩
      rw [hhalted] at hk
      cases hk
    · cases h
  | stopRequest ok =>
    simp only [siteStep] at h
    split at h
    · rename_i rows row pending failed hstop
      obtain rfl := Option.some.inj h
      refine Or.inr ⟨rfl, id, fun _ => Or.inl (by rw [hstop]; rfl), fun rows' _ _ hk => ?_⟩
      rw [hstop] at hk
      cases hk
      exact ⟨_, _, rfl⟩
    · cases h

/-- The invariant of every run: the supervisors are wired, and once the handler has run its
    script the latch is set. -/
structure SiteInv (s : Site) : Prop where
  wired : ∀ (d : ℕ) (f : Fleet), s.fleets[d]? = some f → Wired f
  latched : s.killAll.hasHalted = true → s.latch = true

theorem siteInv_initial (dbs : List Db) (latch : Bool) : SiteInv (Site.initial dbs latch) := by
  refine ⟨fun d f hf => ?_, fun hh => by cases hh⟩
  simp only [Site.initial, List.getElem?_map] at hf
  obtain ⟨db, _, rfl⟩ := Option.map_eq_some_iff.mp hf
  exact wired_initial db

theorem SiteInv.step (h : SiteInv s) (hs : siteStep host policy s a = some t) : SiteInv t := by
  rcases siteStep_cases hs with ⟨d, b, f, f', hf, _, hstep, rfl⟩ | ⟨hfl, hmono, hhalt, _⟩
  · refine ⟨fun j g hg => ?_, h.latched⟩
    rcases getElem?_set_cases hg with ⟨rfl, rfl⟩ | ⟨_, hg⟩
    · exact (h.wired j f hf).step hstep
    · exact h.wired j g hg
  · refine ⟨by rw [hfl]; exact h.wired, fun hh => ?_⟩
    rcases hhalt hh with hold | hnew
    · exact hmono (h.latched hold)
    · exact hnew

/-- What holds from the `SELECT` in state `s` on. -/
structure AfterSelect (s u : Site) : Prop where
  latched : u.latch = true
  handler : ∃ pending failed, u.killAll = .stopping (selectActive s.fleets) pending failed
  covered : ∀ (d : ℕ) (f : Fleet), u.fleets[d]? = some f →
    ∃ f₀, s.fleets[d]? = some f₀ ∧ Covered (· < f₀.db.rows.length) 0 f ∧
      (InFlightLive s →
        Covered (fun i => (d, i) ∈ selectActive s.fleets) f₀.children.length f)

/-- At the `SELECT` everybody belongs to a row of the table. -/
theorem afterSelect_select (h : SiteInv s) (hs : siteStep host policy s .select = some u) :
    AfterSelect s u := by
  simp only [siteStep] at hs
  split at hs
  · rename_i hhalted
    obtain rfl := Option.some.inj hs
    refine ⟨h.latched (by rw [hhalted]; rfl), ⟨_, _, rfl⟩, fun d f hf => ?_⟩
    exact ⟨f, hf, covered_of_wired (h.wired d f hf),
      fun hlive => covered_of_inFlightLive hlive hf⟩
  · cases hs

theorem AfterSelect.step (h : AfterSelect s u) (hs : siteStep host policy u a = some t) :
    AfterSelect s t := by
  rcases siteStep_cases hs with ⟨d, b, f, f', hf, hagree, hstep, rfl⟩ | ⟨hfl, hmono, _, hkeep⟩
  · refine ⟨h.latched, h.handler, fun j g hg => ?_⟩
    rcases getElem?_set_cases hg with ⟨rfl, rfl⟩ | ⟨_, hg⟩
    · obtain ⟨f₀, hf₀, hcov, hselected⟩ := h.covered j f hf
      rw [h.latched] at hagree
      exact ⟨f₀, hf₀, hcov.step hagree hstep, fun hlive => (hselected hlive).step hagree hstep⟩
    · exact h.covered j g hg
  · obtain ⟨pending, failed, hk⟩ := h.handler
    exact ⟨hmono h.latched, hkeep _ _ _ hk, by rw [hfl]; exact h.covered⟩

/-- The `SELECT` leaves the deployments alone. -/
theorem fleets_select (h : siteStep host policy s .select = some u) : u.fleets = s.fleets := by
  simp only [siteStep] at h
  split at h
  · obtain rfl := Option.some.inj h
    rfl
  · cases h

/-- **Kill-all misses no spawn.**  In every run with one kill-all request, the row of every child
    that is ever started was in the table when the request read it, and the request got it back
    unless it had already left the statuses `starting`, `building`, `ready` and `running`; and if no
    spawn in flight had such a row then, the request got the row of every child that is started
    behind its `SELECT`. -/
theorem kill_all_selects_every_start {dbs : List Db} {latch : Bool} {as bs : List SiteLabel}
    (hbefore : Path (siteSystem host policy) anyStep (Site.initial dbs latch) as s)
    (hselect : siteStep host policy s .select = some u)
    (hafter : Path (siteSystem host policy) anyStep u bs t) :
    (∀ (d pid : ℕ) (f : Fleet) (c : Child), t.fleets[d]? = some f → f.children[pid]? = some c →
      ∃ f₀ r, s.fleets[d]? = some f₀ ∧ f₀.db.rows[c.rowId]? = some r ∧
        (r.status.isLive = true → (d, c.rowId) ∈ u.killAll.selected)) ∧
    (InFlightLive s → ∀ (d pid : ℕ) (f f' : Fleet) (c : Child),
      u.fleets[d]? = some f → t.fleets[d]? = some f' →
      f.children[pid]? = none → f'.children[pid]? = some c →
      (d, c.rowId) ∈ u.killAll.selected) := by
  have hinv : SiteInv s :=
    hbefore.invariant (fun _ _ _ h _ hs => h.step hs) (siteInv_initial dbs latch)
  have hu := afterSelect_select hinv hselect
  have ht : AfterSelect s t :=
    hafter.invariant (I := AfterSelect s) (fun _ _ _ h _ hs => h.step hs) hu
  obtain ⟨pending, failed, hk⟩ := hu.handler
  rw [hk]
  refine ⟨fun d pid f c hf hc => ?_, fun hlive d pid f f' c hf hf' hnone hc => ?_⟩
  · obtain ⟨f₀, hf₀, hcov, -⟩ := ht.covered d f hf
    have hlt := hcov.children pid c hc (Nat.zero_le pid)
    exact ⟨f₀, _, hf₀, List.getElem?_eq_getElem hlt, fun hstatus =>
      mem_selectActive.mpr ⟨f₀, _, hf₀, List.getElem?_eq_getElem hlt, hstatus⟩⟩
  · obtain ⟨f₀, hf₀, -, hselected⟩ := ht.covered d f' hf'
    rw [fleets_select hselect, hf₀] at hf
    obtain rfl := Option.some.inj hf
    exact (hselected hlive).children pid c hc (List.getElem?_eq_none_iff.mp hnone)

end Site

/-! ### A spawn on both sides of the request -/

/-- A START that is about to read the stop intent when kill-all begins. -/
def spawnInFlight : List SiteLabel :=
  .fleet 0 (.reserve (startRequest 1) .none) ::
    ((passGates 0).dropLast).map (.fleet 0) ++ [.haltWrite true]

/-- It passes the last gate and starts its child after the `SELECT`: its row was selected. -/
theorem kill_all_selects_spawn_in_flight :
    ∃ s u t f f' c, Path (siteSystem (fun _ => "h") none) anyStep (Site.initial [queuedDb] false)
        spawnInFlight s ∧
      siteStep (fun _ => "h") none s .select = some u ∧
      Path (siteSystem (fun _ => "h") none) anyStep u
        [.fleet 0 (.spawn 0 (.stopIntent false)), .fleet 0 (.spawn 0 (.start (.ok 0)))] t ∧
      InFlightLive s ∧ u.fleets[0]? = some f ∧ t.fleets[0]? = some f' ∧
      f.children[0]? = none ∧ f'.children[0]? = some c ∧ (0, c.rowId) ∈ u.killAll.selected := by
  obtain ⟨s, hbefore, hlive, u, hselect, t, hafter, f, hf, f', hf', hnone, c, hc⟩ :
      ∃ s, (siteSystem (fun _ => "h") none).run (Site.initial [queuedDb] false) spawnInFlight
          = some s ∧ InFlightLive s ∧
        ∃ u, siteStep (fun _ => "h") none s .select = some u ∧
        ∃ t, (siteSystem (fun _ => "h") none).run u
          [.fleet 0 (.spawn 0 (.stopIntent false)), .fleet 0 (.spawn 0 (.start (.ok 0)))]
            = some t ∧
        ∃ f, u.fleets[0]? = some f ∧ ∃ f', t.fleets[0]? = some f' ∧ f.children[0]? = none ∧
          ∃ c, f'.children[0]? = some c :=
    ⟨_, rfl, by decide, _, rfl, _, rfl, _, rfl, _, rfl, rfl, _, rfl⟩
  obtain ⟨-, hstarts⟩ :=
    kill_all_selects_every_start (.of_run hbefore) hselect (.of_run hafter)
  exact ⟨s, u, t, f, f', c, .of_run hbefore, hselect, .of_run hafter, hlive, hf, hf', hnone, hc,
    hstarts hlive 0 0 f f' c hf hf' hnone hc⟩

/-- A START behind all its gates, and a rescan that re-fails its row, whose heartbeat is old by
    then, before kill-all reads it. -/
def rescanBeforeSelect : List SiteLabel :=
  .fleet 0 (.reserve (startRequest 1) .none) :: (passGates 0).map (.fleet 0) ++
    [.fleet 0 (.sweep 0 (.rescanFlip 50)), .haltWrite true]

/-- The child is started behind the `SELECT`, and Phase C commits. -/
def startUnselected : List SiteLabel :=
  [.fleet 0 (.spawn 0 (.start (.ok 0))), .fleet 0 (.spawn 0 (.phaseC true))]

/-- **A start behind kill-all.**  The rescan has re-failed the row of a start in flight: the
    `SELECT` returns nothing, the child is started all the same, and Phase C keeps it. -/
theorem kill_all_selects_every_start_fails :
    ¬∀ (dbs : List Db) (as bs : List SiteLabel) (s u t : Site) (d pid : ℕ) (f f' : Fleet)
      (c : Child),
      Path (siteSystem (fun _ => "h") none) anyStep (Site.initial dbs false) as s →
      siteStep (fun _ => "h") none s .select = some u →
      Path (siteSystem (fun _ => "h") none) anyStep u bs t →
      u.fleets[d]? = some f → t.fleets[d]? = some f' →
      f.children[pid]? = none → f'.children[pid]? = some c →
      c.alive = true → c.signalled = false →
      (∀ sp ∈ f'.spawns, sp.pc = .finished (some (true, true))) →
      (d, c.rowId) ∈ u.killAll.selected := by
  intro h
  obtain ⟨s, hbefore, u, hselect, t, hafter, f, hf, f', hf', hnone, hkept, c, hc, halive,
      hunsignalled, hsel⟩ :
      ∃ s, (siteSystem (fun _ => "h") none).run (Site.initial [queuedDb] false) rescanBeforeSelect
          = some s ∧
        ∃ u, siteStep (fun _ => "h") none s .select = some u ∧
        ∃ t, (siteSystem (fun _ => "h") none).run u startUnselected = some t ∧
        ∃ f, u.fleets[0]? = some f ∧ ∃ f', t.fleets[0]? = some f' ∧ f.children[0]? = none ∧
          (∀ sp ∈ f'.spawns, sp.pc = .finished (some (true, true))) ∧
          ∃ c, f'.children[0]? = some c ∧ c.alive = true ∧ c.signalled = false ∧
            u.killAll.selected = [] :=
    ⟨_, rfl, _, rfl, _, rfl, _, rfl, _, rfl, rfl, by decide, _, rfl, rfl, rfl, rfl⟩
  have hmem := h [queuedDb] rescanBeforeSelect _ s u t 0 0 f f' c (.of_run hbefore) hselect
    (.of_run hafter) hf hf' hnone hc halive hunsignalled hkept
  rw [hsel] at hmem
  cases hmem

end Msai.Api
