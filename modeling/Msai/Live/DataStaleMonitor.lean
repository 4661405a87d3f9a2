import Msai.Lib.Transition
import Msai.Live.HaltKeys

namespace Msai.Live.DataStaleMonitor

open Lib DataFreshness HaltKeys

/-!
# The data-stale monitor and fleet resume
# (`services/nautilus/data_stale_monitor.py`, `/api/v1/live/resume`)

A monitor tick evaluates the feeds, writes the fleet halt if there are findings and it has
not fired in this episode, and only then publishes manifest and verdicts, one `SET` at a
time.  `/resume` probes the same keys one read at a time and then runs `RESUME_CLEAR_LUA`.
The system interleaves any number of monitors and resume requests, with failing and lost
writes; keys do not expire.

* `Halted` — a monitor whose current stale episode has fired finds the latch set.
* `VerdictsCurrent` — Redis shows what a monitor's last evaluation found.
* `halted_of_current_verdicts` — the latch stays set over every run in which a clear only
  runs while the verdicts of every fired monitor are current and probed; in `earlyResume`
  the clear falls between the halt write and the publish.
-/

/-! ### The monitor -/

/-- Constructor arguments of a monitor. -/
structure Config where
  deploymentId : String
  accountId : String
  nodeId : String
  requiredFeeds : List FeedKey
  cfg : GraceConfig
  phaseResolver : AssetClass → ℤ → SessionPhase

/-- One evaluation: the snapshot it read and the findings it returned. -/
structure Evaluation where
  snapshot : Snapshot
  nowNs : ℤ
  findings : List StaleFinding

/-- The verdict `_queue_per_feed` publishes for a feed. -/
def Evaluation.verdict (ev : Evaluation) (fk : FeedKey) : Verdict :=
  if fk ∈ staleFeeds ev.findings then .stale
  else if ev.snapshot fk = none then .pending
  else .warm

/-- A `SET` of the telemetry pipeline. -/
inductive Publish
  | manifest
  | row (fk : FeedKey) (r : FeedRow)
  | verdict (fk : FeedKey) (v : Verdict)

namespace Config

variable (c : Config)

/-- `_manifest_payload`. -/
def manifestPayload : List ManifestEntry :=
  c.requiredFeeds.map fun fk => ⟨fk.dataset, fk.nativeBarTypeStr, fk.symbol⟩

/-- Where and what a telemetry command writes. -/
def writes : Publish → Key × Value
  | .manifest => (.dataFreshnessManifest c.deploymentId, .manifest c.manifestPayload)
  | .row fk r => (.dataFreshness c.deploymentId fk.dataset fk.nativeBarTypeStr, .row r)
  | .verdict fk v =>
    (.dataFreshnessVerdict c.deploymentId fk.dataset fk.nativeBarTypeStr, .verdict v)

/-- The row of one feed. -/
def feedRow (ev : Evaluation) (fk : FeedKey) : FeedRow :=
  let assetClass := assetClassForDataset fk.dataset
  let phase := (c.phaseResolver assetClass ev.nowNs).phase
  let obs := ev.snapshot fk
  { lastEventTs := obs.map (·.tsEventNs), lastArrivalTs := obs.map (·.tsArrivalNs)
    verdict := ev.verdict fk, phase := phase, graceS := c.cfg.graceS assetClass phase
    accountId := c.accountId, nodeId := c.nodeId, symbol := fk.symbol }

/-- `_queue_per_feed`. -/
def queuePerFeed (ev : Evaluation) : List Publish :=
  c.requiredFeeds.flatMap fun fk => [.row fk (c.feedRow ev fk), .verdict fk (ev.verdict fk)]

/-- `_select_finding`: a dataset finding if there is one, else the first. -/
def selectFinding (findings : List StaleFinding) : Option StaleFinding :=
  (findings.find? fun f => f.granularity == .dataset).or findings.head?

/-- `_build_cause`. -/
def buildCause (f : StaleFinding) : Cause :=
  { accountId := c.accountId, nodeId := c.nodeId, deploymentId := c.deploymentId
    dataset := f.dataset, feed := f.feedKey.map (·.nativeBarTypeStr), symbol := f.symbol
    detectedAt := f.detectedAt, lastEventTs := f.lastEventTs }

/-- The keys `_delete_per_feed_keys` removes. -/
def perFeedKeys : List Key :=
  c.requiredFeeds.flatMap fun fk =>
    [.dataFreshness c.deploymentId fk.dataset fk.nativeBarTypeStr,
      .dataFreshnessVerdict c.deploymentId fk.dataset fk.nativeBarTypeStr]

end Config

/-- `HALT_SET_MAX_ATTEMPTS`. -/
def haltSetMaxAttempts : ℕ := 5

/-- Where a monitor stands.  `inStart` marks the inline evaluation of `start`, whose publish
    failure raises. -/
inductive Phase
  | created
  /-- `start`: the manifest `SET` comes next. -/
  | opened
  /-- `start`: the inline evaluation comes next. -/
  | announced
  /-- `_fire_halt`, with the attempts left; the telemetry waits. -/
  | halting (inStart : Bool) (attemptsLeft : ℕ) (cause : Cause) (queued : List Publish)
  /-- The rest of the telemetry pipeline; `[]` between ticks. -/
  | publishing (inStart : Bool) (rest : List Publish)
  /-- `stop`: the loop is cancelled, the `DEL` comes next. -/
  | stopping
  | gone

/-- The monitor's loop may still tick. -/
def Phase.alive : Phase → Bool
  | .created | .stopping | .gone => false
  | _ => true

/-- A monitor's memory; `latest` is history the program does not keep. -/
structure Monitor where
  phase : Phase
  monitorStartedNs : ℤ
  haltFired : Bool
  latest : Option Evaluation

/-- Outcome of one attempt at the halt script. -/
inductive HaltAttempt
  | done
  | failed
  /-- The script ran but its answer was lost. -/
  | lost
deriving DecidableEq, Repr

/-! ### Resume -/

/-- A probed deployment and its manifest. -/
abbrev Probed := String × List ManifestEntry

/-- Where a resume request stands. -/
inductive ResumePhase
  /-- Not started, refused or finished. -/
  | idle
  /-- The manifest of the first deployment to do comes next; the clear when none is left. -/
  | probing (todo : List String) (probed : List Probed)
  | reconciled (p : Probed) (todo : List String) (probed : List Probed)
  /-- In the loop over a manifest; `blocked` if some verdict was not `warm`. -/
  | verdicts (p : Probed) (rest : List ManifestEntry) (blocked : Bool) (todo : List String)
      (probed : List Probed)

/-- The verdict key of a manifest entry. -/
def verdictKey (deploymentId : String) (e : ManifestEntry) : Key :=
  .dataFreshnessVerdict deploymentId e.dataset e.feed

/-- The manifest entries `/resume` accepts. -/
def ManifestEntry.wellFormed (e : ManifestEntry) : Bool := e.dataset ≠ "" && e.feed ≠ ""

/-- The next read of the probe. -/
def probeRead (r : Redis) : ResumePhase → ResumePhase
  | .probing (d :: todo) probed =>
    match r (.dataFreshnessManifest d) with
    | some (.manifest es) =>
      if es.all ManifestEntry.wellFormed then .reconciled (d, es) todo probed else .idle
    | _ => .idle
  | .reconciled p todo probed =>
    if r (.reconciled p.1) = none then .idle else .verdicts p p.2 false todo probed
  | .verdicts p (e :: rest) blocked todo probed =>
    .verdicts p rest (blocked || r (verdictKey p.1 e) ≠ some (.verdict .warm)) todo probed
  | .verdicts p [] blocked todo probed =>
    if blocked then .idle else .probing todo (probed ++ [p])
  | p => p

/-- The clear over what was probed. -/
def clear (probed : List Probed) (r : Redis) : ClearResult × Redis :=
  resumeClearLua (probed.map fun p => (.dataFreshnessManifest p.1, .manifest p.2))
    (probed.flatMap fun p => p.2.map (verdictKey p.1)) (probed.map fun p => .reconciled p.1)
    haltKeyset r

/-! ### The system -/

/-- Redis, the monitors and the resume requests. -/
structure State where
  redis : Redis
  monitor : ℕ → Monitor
  resume : ℕ → ResumePhase

inductive Act
  /-- `start` opens the client. -/
  | start (m : ℕ) (nowNs : ℤ)
  /-- `start` publishes the manifest. -/
  | announce (m : ℕ) (ok : Bool)
  /-- `_evaluate_and_apply_halt`, up to its first await. -/
  | evaluate (m : ℕ) (nowNs : ℤ) (snapshot : Snapshot)
  | haltWrite (m : ℕ) (setAt : String) (attempt : HaltAttempt)
  | publish (m : ℕ)
  /-- The pipeline raises; the rest is not written. -/
  | publishFails (m : ℕ)
  | stop (m : ℕ)
  | stopDelete (m : ℕ)
  | crash (m : ℕ)
  /-- The run loop sets or deletes a reconciliation marker. -/
  | mark (deploymentId : String) (present : Bool)
  /-- `/resume` has loaded the active deployments. -/
  | resume (q : ℕ) (active : List String)
  | probe (q : ℕ)
  | clear (q : ℕ)

namespace State

def setMonitor (s : State) (m : ℕ) (x : Monitor) : State :=
  { s with monitor := Function.update s.monitor m x }

def setResume (s : State) (q : ℕ) (p : ResumePhase) : State :=
  { s with resume := Function.update s.resume q p }

end State

/-- One evaluation of a monitor and the phase it leads to. -/
def evaluateMonitor (c : Config) (x : Monitor) (inStart : Bool) (nowNs : ℤ) (snapshot : Snapshot) :
    Monitor :=
  let findings := DataFreshness.evaluate c.cfg c.phaseResolver snapshot nowNs x.monitorStartedNs
    c.requiredFeeds
  let ev : Evaluation := ⟨snapshot, nowNs, findings⟩
  let queued := (if inStart then [] else [.manifest]) ++ c.queuePerFeed ev
  match Config.selectFinding findings with
  -- fully warm: the episode is over and the guard is re-armed
  | none => { x with phase := .publishing inStart queued, haltFired := false, latest := some ev }
  | some f =>
    -- one halt per episode: a fired monitor only publishes
    if x.haltFired then { x with phase := .publishing inStart queued, latest := some ev }
    else
      { x with
        phase := .halting inStart haltSetMaxAttempts (c.buildCause f) queued
        latest := some ev }

section System

variable (monitors : ℕ → Config)

/-- One step of the system. -/
def step (s : State) : Act → Option State
  | .start m nowNs =>
    match (s.monitor m).phase with
    | .created =>
      some (s.setMonitor m { s.monitor m with phase := .opened, monitorStartedNs := nowNs })
    | _ => none
  | .announce m ok =>
    match (s.monitor m).phase with
    | .opened =>
      if ok then
        let w := (monitors m).writes .manifest
        some ({ s with redis := s.redis.set w.1 w.2 }.setMonitor m
          { s.monitor m with phase := .announced })
      else some (s.setMonitor m { s.monitor m with phase := .gone })
    | _ => none
  | .evaluate m nowNs snapshot =>
    match (s.monitor m).phase with
    | .announced =>
      some (s.setMonitor m (evaluateMonitor (monitors m) (s.monitor m) true nowNs snapshot))
    | .publishing _ [] =>
      some (s.setMonitor m (evaluateMonitor (monitors m) (s.monitor m) false nowNs snapshot))
    | _ => none
  | .haltWrite m setAt attempt =>
    match (s.monitor m).phase with
    | .halting inStart (n + 1) cause queued =>
      let halted := haltWriteLua ("data_stale_monitor:" ++ (monitors m).nodeId) setAt cause s.redis
      match attempt with
      | .done =>
        some ({ s with redis := halted }.setMonitor m
          { s.monitor m with phase := .publishing inStart queued, haltFired := true })
      | .failed =>
        some (s.setMonitor m { s.monitor m with phase := .halting inStart n cause queued })
      | .lost =>
        some ({ s with redis := halted }.setMonitor m
          { s.monitor m with phase := .halting inStart n cause queued })
    -- attempts exhausted: `_halt_fired` stays false and a later tick retries
    | .halting inStart 0 _ queued =>
      some (s.setMonitor m { s.monitor m with phase := .publishing inStart queued })
    | _ => none
  | .publish m =>
    match (s.monitor m).phase with
    | .publishing inStart (p :: rest) =>
      let w := (monitors m).writes p
      some ({ s with redis := s.redis.set w.1 w.2 }.setMonitor m
        { s.monitor m with phase := .publishing inStart rest })
    | _ => none
  | .publishFails m =>
    match (s.monitor m).phase with
    | .publishing inStart (_ :: _) =>
      -- `start` raises, the loop logs and goes on with the next tick
      some (s.setMonitor m
        { s.monitor m with phase := if inStart then .gone else .publishing false [] })
    | _ => none
  | .stop m =>
    if (s.monitor m).phase.alive then
      some (s.setMonitor m { s.monitor m with phase := .stopping })
    else none
  | .stopDelete m =>
    match (s.monitor m).phase with
    | .stopping =>
      some ({ s with redis := s.redis.del (monitors m).perFeedKeys }.setMonitor m
        { s.monitor m with phase := .gone })
    | _ => none
  | .crash m => some (s.setMonitor m { s.monitor m with phase := .gone })
  | .mark d present =>
    some { s with redis :=
      if present then s.redis.set (.reconciled d) (.text "reconciled")
      else s.redis.del [.reconciled d] }
  | .resume q active => some (s.setResume q (.probing active []))
  | .probe q => some (s.setResume q (probeRead s.redis (s.resume q)))
  | .clear q =>
    match s.resume q with
    | .probing [] probed =>
      some ({ s with redis := (DataStaleMonitor.clear probed s.redis).2 }.setResume q .idle)
    | _ => none

/-- Monitors and resume requests as a transition system. -/
def system : TransitionSystem State Act := ⟨step monitors⟩

/-- No monitor has started and no request is under way; Redis may hold anything. -/
structure Initial (s : State) : Prop where
  created : ∀ m, (s.monitor m).phase = .created
  quiet : ∀ m, (s.monitor m).haltFired = false

/-! ### The latch over whole runs -/

/-- A live monitor whose stale episode has fired finds the latch set. -/
def Halted (s : State) : Prop :=
  ∀ m, (s.monitor m).phase.alive = true → (s.monitor m).haltFired = true →
    s.redis .fleetHalt ≠ none

/-- Redis shows the manifest and the verdicts of the monitor's last evaluation. -/
structure VerdictsCurrent (s : State) (m : ℕ) : Prop where
  manifest : s.redis (.dataFreshnessManifest (monitors m).deploymentId) =
    some (.manifest (monitors m).manifestPayload)
  verdicts : ∀ ev, (s.monitor m).latest = some ev → ∀ fk ∈ (monitors m).requiredFeeds,
    s.redis (.dataFreshnessVerdict (monitors m).deploymentId fk.dataset fk.nativeBarTypeStr) =
      some (.verdict (ev.verdict fk))

/-- A clear runs only while, for every live monitor that has fired, the probe covered its
    deployment and its verdicts are current. -/
def ClearsOnCurrent (s : State) (a : Act) : Prop :=
  ∀ q, a = .clear q → ∀ probed, s.resume q = .probing [] probed →
    ∀ m, (s.monitor m).phase.alive = true → (s.monitor m).haltFired = true →
      (monitors m).deploymentId ∈ probed.map Prod.fst ∧ VerdictsCurrent monitors s m

/-- The last evaluation left some required feed not warm. -/
def Stale (c : Config) (x : Monitor) : Prop :=
  ∃ ev, x.latest = some ev ∧ ∃ fk ∈ c.requiredFeeds, ev.verdict fk ≠ .warm

/-- The monitor is about to write the halt. -/
def Phase.isHalting : Phase → Bool
  | .halting .. => true
  | _ => false

/-- What holds of every monitor. -/
structure Watched (r : Redis) (c : Config) (x : Monitor) : Prop where
  latch : x.phase.alive = true → x.haltFired = true → r .fleetHalt ≠ none
  fired : x.haltFired = true → Stale c x
  halting : x.phase.isHalting = true → Stale c x
  created : x.phase = .created → x.haltFired = false

/-- The invariant of the system. -/
def AllWatched (s : State) : Prop := ∀ m, Watched s.redis (monitors m) (s.monitor m)

end System

section Proofs

variable {monitors : ℕ → Config} {s t : State} {a : Act} {as : List Act} {m : ℕ}
variable {c : Config} {x : Monitor} {r r' : Redis}

/-- A store that keeps the latch keeps what holds of a monitor. -/
theorem Watched.mono (h : Watched r c x) (hr : r .fleetHalt ≠ none → r' .fleetHalt ≠ none) :
    Watched r' c x :=
  ⟨fun ha hf => hr (h.latch ha hf), h.fired, h.halting, h.created⟩

/-- A monitor may move to any phase that does not start or resume anything. -/
theorem Watched.move (h : Watched r c x) {p : Phase}
    (halive : p.alive = true → x.phase.alive = true)
    (hhalting : p.isHalting = true → x.phase.isHalting = true) (hcreated : p ≠ .created) :
    Watched r c { x with phase := p } :=
  ⟨fun ha hf => h.latch (halive ha) hf, h.fired, fun hh => h.halting (hhalting hh),
    fun hp => absurd hp hcreated⟩

/-- A monitor that ends. -/
theorem Watched.ends (h : Watched r c x) {p : Phase} (hp : p = .stopping ∨ p = .gone) :
    Watched r c { x with phase := p } := by
  rcases hp with rfl | rfl
  · exact h.move (by simp [Phase.alive]) (by simp [Phase.isHalting]) (by simp)
  · exact h.move (by simp [Phase.alive]) (by simp [Phase.isHalting]) (by simp)

/-- A live monitor that goes on with its telemetry. -/
theorem Watched.publishing (h : Watched r c x) (halive : x.phase.alive = true) (inStart : Bool)
    (rest : List Publish) : Watched r c { x with phase := .publishing inStart rest } :=
  h.move (fun _ => halive) (by simp [Phase.isHalting]) (by simp)

/-- Replacing one monitor, on a store that keeps the latch. -/
theorem AllWatched.setMonitor (h : AllWatched monitors s)
    (hr : s.redis .fleetHalt ≠ none → r' .fleetHalt ≠ none)
    (hx : Watched r' (monitors m) x) :
    AllWatched monitors ({ s with redis := r' }.setMonitor m x) := by
  intro n
  by_cases hn : n = m
  · subst hn
    show Watched r' (monitors n) (Function.update s.monitor n x n)
    rw [Function.update_self]
    exact hx
  · show Watched r' (monitors n) (Function.update s.monitor m x n)
    rw [Function.update_of_ne hn]
    exact (h n).mono hr

/-- Replacing one monitor, on a store whose latch is as before. -/
theorem AllWatched.setMonitor_of_latch (h : AllWatched monitors s)
    (hr : r' .fleetHalt = s.redis .fleetHalt) (hx : Watched s.redis (monitors m) x) :
    AllWatched monitors ({ s with redis := r' }.setMonitor m x) := by
  have hkeep : s.redis .fleetHalt ≠ none → r' .fleetHalt ≠ none := by
    rw [hr]
    exact id
  exact h.setMonitor hkeep (hx.mono hkeep)

/-- `start` of a monitor that was only created. -/
theorem Watched.started (h : Watched r c x) (hp : x.phase = .created) (nowNs : ℤ) :
    Watched r c { x with phase := .opened, monitorStartedNs := nowNs } := by
  have hquiet : x.haltFired = false := h.created hp
  refine ⟨fun _ hf => ?_, fun hf => ?_, fun hh => ?_, fun hp => ?_⟩
  · exact absurd (hquiet.symm.trans hf) (by decide)
  · exact absurd (hquiet.symm.trans hf) (by decide)
  · cases hh
  · cases hp

/-- One attempt of the halt write. -/
theorem AllWatched.haltWrite (h : AllWatched monitors s) {setAt : String} {attempt : HaltAttempt}
    (hstep : step monitors s (.haltWrite m setAt attempt) = some t) : AllWatched monitors t := by
  simp only [DataStaleMonitor.step] at hstep
  split at hstep
  · rename_i inStart n cause queued hp
    have hm := h m
    have hhalting : (s.monitor m).phase.isHalting = true := by rw [hp]; rfl
    have halive : (s.monitor m).phase.alive = true := by rw [hp]; rfl
    have hlatch : ∀ r : Redis, haltWriteLua ("data_stale_monitor:" ++ (monitors m).nodeId) setAt
        cause r .fleetHalt ≠ none := by
      intro r
      rw [haltWriteLua_latch]
      simp
    cases attempt with
    | done =>
      -- the script set the latch, and the pending episode is the stale one
      cases hstep
      refine h.setMonitor (fun _ => hlatch _) ⟨fun _ _ => hlatch _, fun _ => hm.halting hhalting,
        fun hh => ?_, fun hp => ?_⟩
      · cases hh
      · cases hp
    | failed =>
      cases hstep
      exact h.setMonitor id (hm.move (fun _ => halive) (fun _ => hhalting) (by simp))
    | lost =>
      -- the latch may be set without `_halt_fired`: the next attempt sets it again
      cases hstep
      refine h.setMonitor (fun _ => hlatch _) ?_
      exact (hm.mono fun _ => hlatch _).move (fun _ => halive) (fun _ => hhalting) (by simp)
  · rename_i inStart cause queued hp
    cases hstep
    exact h.setMonitor id ((h m).publishing (by rw [hp]; rfl) inStart queued)
  · cases hstep

/-- An evaluation with findings leaves some required feed not warm. -/
theorem exists_not_warm {snapshot : Snapshot} {nowNs startedNs : ℤ}
    {findings : List StaleFinding}
    (hev : findings = DataFreshness.evaluate c.cfg c.phaseResolver snapshot nowNs startedNs
      c.requiredFeeds) (hne : findings ≠ []) :
    ∃ fk ∈ c.requiredFeeds, (⟨snapshot, nowNs, findings⟩ : Evaluation).verdict fk ≠ .warm := by
  have hne' := hne
  rw [hev] at hne'
  obtain ⟨fk, hfk, habsent | hstale⟩ := exists_stale_or_absent hne'
  · refine ⟨fk, hfk, ?_⟩
    -- absent and not stale is `pending`
    unfold Evaluation.verdict
    split <;> decide
  · refine ⟨fk, hfk, ?_⟩
    unfold Evaluation.verdict
    rw [if_pos (hev ▸ hstale)]
    decide

/-- One evaluation keeps what holds of a monitor. -/
theorem Watched.evaluate (h : Watched r c x) (halive : x.phase.alive = true) (inStart : Bool)
    (nowNs : ℤ) (snapshot : Snapshot) :
    Watched r c (evaluateMonitor c x inStart nowNs snapshot) := by
  unfold evaluateMonitor
  simp only
  split
  · -- no finding: the guard is re-armed, so nothing is claimed of the latch
    refine ⟨fun _ hf => ?_, fun hf => ?_, fun hh => ?_, fun hp => ?_⟩
    · cases hf
    · cases hf
    · cases hh
    · cases hp
  · rename_i f hsel
    have hne : DataFreshness.evaluate c.cfg c.phaseResolver snapshot nowNs x.monitorStartedNs
        c.requiredFeeds ≠ [] := by
      intro hnil
      rw [hnil] at hsel
      cases hsel
    have hstale := exists_not_warm rfl hne
    split
    · -- still the same episode: the latch of the earlier halt
      refine ⟨fun _ hf => h.latch halive hf, fun _ => ⟨_, rfl, hstale⟩, fun hh => ?_, fun hp => ?_⟩
      · cases hh
      · cases hp
    · -- a new episode: nothing has fired until the halt write is done
      rename_i hfired
      refine ⟨fun _ hf => absurd hf hfired, fun hf => absurd hf hfired, fun _ => ⟨_, rfl, hstale⟩,
        fun hp => ?_⟩
      cases hp

/-- Telemetry never touches the latch. -/
private theorem writes_ne_fleetHalt (c : Config) (p : Publish) : (c.writes p).1 ≠ .fleetHalt := by
  cases p <;> simp [Config.writes]

private theorem publish_latch (c : Config) (p : Publish) (r : Redis) :
    r.set (c.writes p).1 (c.writes p).2 .fleetHalt = r .fleetHalt :=
  set_other (writes_ne_fleetHalt c p).symm

private theorem fleetHalt_notMem_perFeedKeys (c : Config) : Key.fleetHalt ∉ c.perFeedKeys := by
  simp [Config.perFeedKeys]

/-- A clear that is answered `OK` saw only warm verdicts for every deployment it probed. -/
theorem clear_spec (probed : List Probed) (r : Redis) :
    (clear probed r).2 = r ∨ ∀ p ∈ probed,
      r (.dataFreshnessManifest p.1) = some (.manifest p.2) ∧
      ∀ e ∈ p.2, r (verdictKey p.1 e) = some (.verdict .warm) := by
  rcases resumeClearLua_spec (probed.map fun p => (.dataFreshnessManifest p.1, .manifest p.2))
      (probed.flatMap fun p => p.2.map (verdictKey p.1)) (probed.map fun p => .reconciled p.1)
      haltKeyset r with ⟨hchecks, -⟩ | hsame
  · refine .inr fun p hp => ⟨?_, fun e he => ?_⟩
    · exact hchecks.manifests _ (List.mem_map.mpr ⟨p, hp, rfl⟩)
    · exact hchecks.verdicts _ (List.mem_flatMap.mpr ⟨p, hp, List.mem_map.mpr ⟨e, he, rfl⟩⟩)
  · exact .inl hsame

/-- Under the side condition a clear never deletes the latch of a fired monitor. -/
theorem AllWatched.clear (h : AllWatched monitors s) {q : ℕ}
    (hC : ClearsOnCurrent monitors s (.clear q)) {probed : List Probed}
    (hq : s.resume q = .probing [] probed) (m : ℕ) :
    Watched (clear probed s.redis).2 (monitors m) (s.monitor m) := by
  refine ⟨fun halive hfired => ?_, (h m).fired, (h m).halting, (h m).created⟩
  rcases clear_spec probed s.redis with hsame | hwarm
  · rw [hsame]
    exact (h m).latch halive hfired
  · -- the probed manifest is the monitor's own, and one of its verdicts is not warm
    exfalso
    obtain ⟨hprobed, hcurrent⟩ := hC q rfl probed hq m halive hfired
    obtain ⟨p, hp, hdep⟩ := List.mem_map.mp hprobed
    obtain ⟨hmanifest, hverdicts⟩ := hwarm p hp
    rw [hdep, hcurrent.manifest] at hmanifest
    obtain ⟨ev, hev, fk, hfk, hnot⟩ := (h m).fired hfired
    have hentry : (⟨fk.dataset, fk.nativeBarTypeStr, fk.symbol⟩ : ManifestEntry) ∈ p.2 := by
      have heq : (monitors m).manifestPayload = p.2 := by simpa using hmanifest
      rw [← heq]
      exact List.mem_map.mpr ⟨fk, hfk, rfl⟩
    have hkey := hverdicts _ hentry
    rw [hdep] at hkey
    have hown := hcurrent.verdicts ev hev fk hfk
    have hsome : some (Value.verdict .warm) = some (Value.verdict (ev.verdict fk)) :=
      hkey.symm.trans hown
    simp only [Option.some.injEq, Value.verdict.injEq] at hsome
    exact hnot hsome.symm

/-- **Step lemma.** -/
theorem AllWatched.step (h : AllWatched monitors s) (hC : ClearsOnCurrent monitors s a)
    (hstep : step monitors s a = some t) : AllWatched monitors t := by
  cases a with
  | start m nowNs =>
    simp only [DataStaleMonitor.step] at hstep
    split at hstep
    · rename_i hp
      cases hstep
      exact h.setMonitor id ((h m).started hp nowNs)
    · cases hstep
  | announce m ok =>
    simp only [DataStaleMonitor.step] at hstep
    split at hstep
    · rename_i hp
      have hm := h m
      split at hstep
      · cases hstep
        refine h.setMonitor_of_latch (publish_latch (monitors m) .manifest s.redis) ?_
        exact hm.move (fun _ => by rw [hp]; rfl) (by simp [Phase.isHalting]) (by simp)
      · cases hstep
        exact h.setMonitor id (hm.ends (.inr rfl))
    · cases hstep
  | evaluate m nowNs snapshot =>
    simp only [DataStaleMonitor.step] at hstep
    split at hstep
    · rename_i hp
      cases hstep
      exact h.setMonitor id ((h m).evaluate (by rw [hp]; rfl) true nowNs snapshot)
    · rename_i hp
      cases hstep
      exact h.setMonitor id ((h m).evaluate (by rw [hp]; rfl) false nowNs snapshot)
    · cases hstep
  | haltWrite m setAt attempt => exact h.haltWrite hstep
  | publish m =>
    simp only [DataStaleMonitor.step] at hstep
    split at hstep
    · rename_i inStart p rest hp
      cases hstep
      refine h.setMonitor_of_latch (publish_latch (monitors m) p s.redis) ?_
      exact (h m).publishing (by rw [hp]; rfl) inStart rest
    · cases hstep
  | publishFails m =>
    simp only [DataStaleMonitor.step] at hstep
    split at hstep
    · rename_i inStart p rest hp
      cases hstep
      cases inStart with
      | true => exact h.setMonitor id ((h m).ends (.inr rfl))
      | false => exact h.setMonitor id ((h m).publishing (by rw [hp]; rfl) false [])
    · cases hstep
  | stop m =>
    simp only [DataStaleMonitor.step] at hstep
    split at hstep
    · cases hstep
      exact h.setMonitor id ((h m).ends (.inl rfl))
    · cases hstep
  | stopDelete m =>
    simp only [DataStaleMonitor.step] at hstep
    split at hstep
    · cases hstep
      have hlatch : s.redis.del (monitors m).perFeedKeys .fleetHalt = s.redis .fleetHalt :=
        if_neg (fleetHalt_notMem_perFeedKeys (monitors m))
      exact h.setMonitor_of_latch hlatch ((h m).ends (.inr rfl))
    · cases hstep
  | crash m =>
    cases hstep
    exact h.setMonitor id ((h m).ends (.inr rfl))
  | mark d present =>
    -- a reconciliation marker is not the latch
    cases hstep
    refine fun m => (h m).mono fun hne => ?_
    cases present with
    | true => exact hne
    | false => exact hne
  | resume q active =>
    cases hstep
    exact h
  | probe q =>
    cases hstep
    exact h
  | clear q =>
    simp only [DataStaleMonitor.step] at hstep
    split at hstep
    · rename_i probed hq
      cases hstep
      exact h.clear hC hq
    · cases hstep

/-- Before the first start nothing has fired. -/
theorem Initial.allWatched (h : Initial s) : AllWatched monitors s := by
  intro m
  refine ⟨fun halive _ => ?_, fun hf => ?_, fun hh => ?_, fun _ => h.quiet m⟩
  · rw [h.created m] at halive
    cases halive
  · exact absurd ((h.quiet m).symm.trans hf) (by decide)
  · rw [h.created m] at hh
    cases hh

/-- **A resumed fleet is halted while a feed is stale.**  In every run in which each clear
    runs while the verdicts of every live fired monitor are current and its deployment was
    probed, the latch is set whenever a live monitor's episode has fired. -/
theorem halted_of_current_verdicts (h0 : Initial s)
    (hrun : (system monitors).Path (ClearsOnCurrent monitors) s as t) : Halted t := by
  have hinv : AllWatched monitors t :=
    hrun.invariant (fun _ _ _ hs hC h => hs.step hC h) h0.allWatched
  exact fun m => (hinv m).latch

end Proofs

/-! ### A clear between the halt write and the publish -/

/-- One equity feed with a one-minute cadence. -/
def aapl : FeedKey where
  dataset := "EQUS.MINI"
  nativeBarTypeStr := "AAPL.XNAS-1-MINUTE-LAST-EXTERNAL"
  symbol := "AAPL"
  expectedIntervalS := 60
  symbol_eq := by decide
  interval_eq := by decide

/-- A monitor of that feed, in regular trading hours since time 0. -/
def aaplMonitor : ℕ → Config := fun _ =>
  ⟨"d1", "U1", "n1", [aapl], .default, fun _ _ => ⟨.rth, some 0⟩⟩

/-- Nothing has happened yet. -/
def fresh : State :=
  ⟨fun _ => none, fun _ => ⟨.created, 0, false, none⟩, fun _ => .idle⟩

/-- The feed was last seen at time 0. -/
def seenOnce : Snapshot := fun _ => some ⟨0, 0⟩

/-- Start, publish `warm`; the run loop sets the reconciliation marker. -/
def warmStart : List Act :=
  [.start 0 0, .announce 0 true, .evaluate 0 1 seenOnce, .publish 0, .publish 0, .mark "d1" true]

/-- Probe one deployment with one feed. -/
def probeAll : List Act := [.resume 0 ["d1"], .probe 0, .probe 0, .probe 0, .probe 0]

/-- 151 s later the feed is stale: the halt is written, and `/resume`, which probed before,
    clears it before the stale verdict is published. -/
def earlyResume : List Act :=
  warmStart ++ probeAll ++
    [.evaluate 0 151000000000 seenOnce, .haltWrite 0 "t" .done, .clear 0]

/-- The latch is gone while the monitor's episode is stale and has fired. -/
theorem halted_fails :
    ¬ ∀ (as : List Act) (t : State),
      (system aaplMonitor).Path TransitionSystem.anyStep fresh as t → Halted t := by
  intro h
  have hhalted := h earlyResume _ (.of_run rfl) 0 rfl rfl
  exact hhalted rfl

/-- The same evaluation with its stale verdict published. -/
def publishedStale : List Act :=
  warmStart ++ probeAll ++ [.evaluate 0 151000000000 seenOnce, .haltWrite 0 "t" .done,
    .publish 0, .publish 0, .publish 0]

/-- With the stale verdict published first, the same clear is refused. -/
theorem halted_late_resume :
    ∃ t, (system aaplMonitor).Path (ClearsOnCurrent aaplMonitor) fresh
        (publishedStale ++ [.clear 0]) t ∧ Halted t := by
  have h0 : Initial fresh := ⟨fun _ => rfl, fun _ => rfl⟩
  obtain ⟨s, hs, hprobed, hmanifest, ⟨ev, hev, hverdict⟩, hothers, t, ht⟩ :
      ∃ s, (system aaplMonitor).run fresh publishedStale = some s ∧
        s.resume 0 = .probing [] [("d1", [⟨"EQUS.MINI", aapl.nativeBarTypeStr, "AAPL"⟩])] ∧
        s.redis (.dataFreshnessManifest "d1") = some (.manifest (aaplMonitor 0).manifestPayload) ∧
        (∃ ev, (s.monitor 0).latest = some ev ∧
          s.redis (.dataFreshnessVerdict "d1" aapl.dataset aapl.nativeBarTypeStr) =
            some (.verdict (ev.verdict aapl))) ∧
        (∀ m, m ≠ 0 → (s.monitor m).phase.alive = false) ∧
        ∃ t, step aaplMonitor s (.clear 0) = some t := by
    refine ⟨_, rfl, rfl, rfl, ⟨_, rfl, rfl⟩, fun m hm => ?_, _, rfl⟩
    cases m with
    | zero => exact absurd rfl hm
    | succ k => rfl
  have hbefore :
      (system aaplMonitor).Path (ClearsOnCurrent aaplMonitor) fresh publishedStale s := by
    refine (TransitionSystem.Path.of_run hs).mono fun a ha s' _ q hq => ?_
    subst hq
    simp [publishedStale, warmStart, probeAll] at ha
  -- the clear: monitor 0 is the only live one, and its verdict is published
  have hclear : ClearsOnCurrent aaplMonitor s (.clear 0) := by
    rintro q ⟨⟩ probed hq m halive hfired
    rw [hprobed] at hq
    cases hq
    by_cases hm : m = 0
    · subst hm
      refine ⟨by decide, hmanifest, fun ev' hev' fk hfk => ?_⟩
      rw [hev] at hev'
      cases hev'
      rw [List.mem_singleton.mp hfk]
      exact hverdict
    · rw [hothers m hm] at halive
      cases halive
  have hpath : (system aaplMonitor).Path (ClearsOnCurrent aaplMonitor) fresh
      (publishedStale ++ [.clear 0]) t := hbefore.snoc hclear ht
  exact ⟨t, hpath, halted_of_current_verdicts h0 hpath⟩

end Msai.Live.DataStaleMonitor
