import Mathlib.Logic.Function.Basic
import Msai.Lib.Dict
import Msai.Lib.Transition
import Msai.MarketData.Coverage
import Msai.Onboarding.StorageKey

namespace Msai.Onboarding.Run

open Msai.Lib Msai.Lib.TransitionSystem Msai.MarketData

/-!
# A run of the symbol onboarding
(`workers/symbol_onboarding_job.py`, `services/symbol_onboarding/orchestrator.py`)

A task takes the symbols of a run one after the other through the registration, the ingest, the
coverage scan and, if asked for, the qualification.  It commits each step to the row of the run,
which the API reads at any time.  The task may raise or be cancelled at every step, and run again.

* `RunRow`, `symbolStates`, `repairTargets` — the row, as the API creates and reads it;
* `onboardStep` — the commits of the task, with the answers of the services it calls;
* `Evidence` — what the services have answered for a symbol in the attempt that wrote its entry;
* `OnboardOk` — the invariant;
* `onboarding_status_true` — what the statuses of a row promise.

Start and end of a window are day numbers.
-/

/-! ### The row -/

inductive SymbolStepStatus
  | pending
  | bootstrap
  | ingest
  | coverage
  | ibQualify
  | completed
  | ibSkipped
  | coverageFailed
deriving DecidableEq, Repr

inductive SymbolStatus
  | notStarted
  | inProgress
  | succeeded
  | failed
deriving DecidableEq, Repr

inductive RunStatus
  | pending
  | inProgress
  | completed
  | completedWithFailures
  | failed
deriving DecidableEq, Repr

/-- The `error` of an entry. -/
structure OnboardError where
  code : String
  message : String
  details : Option (CoverageStatus × List (ℤ × ℤ))
deriving DecidableEq, Repr

/-- A symbol of a request, with its window. -/
structure OnboardSpec where
  symbol : String
  assetClass : AssetClass
  startDate : ℤ
  endDate : ℤ
deriving DecidableEq, Repr

/-- A value of `symbol_states`. -/
structure SymbolEntry extends OnboardSpec where
  status : SymbolStatus
  step : SymbolStepStatus
  error : Option OnboardError
deriving DecidableEq, Repr

abbrev SymbolStates := Dict String SymbolEntry

/-- The `symbol_states` of a new run. -/
def symbolStates (specs : List OnboardSpec) : SymbolStates :=
  Dict.build (fun spec => some (spec.symbol, ⟨spec, .notStarted, .pending, none⟩)) specs

/-- The symbols that `onboard_repair` retries if none are named. -/
def repairTargets (states : SymbolStates) : List String :=
  ((Dict.values states).filter fun e => e.status = .failed).map (·.symbol)

/-- `_hydrate_specs`. -/
def hydrateSpecs (states : SymbolStates) : List OnboardSpec :=
  (Dict.values states).map (·.toOnboardSpec)

/-- What `_persist_step` writes. -/
def persistStep (states : SymbolStates) (symbol : String) (step : SymbolStepStatus) :
    SymbolStates :=
  match Dict.get states symbol with
  | some e => Dict.set states symbol { e with status := .inProgress, step := step }
  | none => states

/-- What `_finalize` writes. -/
def finalize (states : SymbolStates) (spec : OnboardSpec) (status : SymbolStatus)
    (step : SymbolStepStatus) (error : Option OnboardError) : SymbolStates :=
  Dict.set states spec.symbol ⟨spec, status, step, error⟩

/-! ### The services -/

inductive BootstrapOutcome
  | created
  | noop
  | aliasRotated
  | ambiguous
  | upstreamError
  | unauthorized
  | unmappedVenue
  | rateLimited
deriving DecidableEq, Repr

namespace BootstrapOutcome

def name : BootstrapOutcome → String
  | created => "CREATED"
  | noop => "NOOP"
  | aliasRotated => "ALIAS_ROTATED"
  | ambiguous => "AMBIGUOUS"
  | upstreamError => "UPSTREAM_ERROR"
  | unauthorized => "UNAUTHORIZED"
  | unmappedVenue => "UNMAPPED_VENUE"
  | rateLimited => "RATE_LIMITED"

def value : BootstrapOutcome → String
  | created => "created"
  | noop => "noop"
  | aliasRotated => "alias_rotated"
  | ambiguous => "ambiguous"
  | upstreamError => "upstream_error"
  | unauthorized => "unauthorized"
  | unmappedVenue => "unmapped_venue"
  | rateLimited => "rate_limited"

/-- `_BOOTSTRAP_FAILURE_OUTCOMES`. -/
def failures : List BootstrapOutcome :=
  [ambiguous, unauthorized, unmappedVenue, upstreamError, rateLimited]

end BootstrapOutcome

/-- How a call of a service ends, if the task goes on. -/
inductive BootstrapAnswer
  | raised (text : String)
  | results (outcomes : List BootstrapOutcome)
deriving DecidableEq, Repr

inductive IbAnswer
  | qualified
  | timeout
  /-- `NotImplementedError` -/
  | notConfigured
  | raised (text : String)
deriving DecidableEq, Repr

def defaultIbTimeoutS : ℕ := 120

/-- The call of `_fail` behind an answer of the registration, if it is reached. -/
def BootstrapAnswer.failure : BootstrapAnswer → Option OnboardError
  | .raised text => some ⟨"BOOTSTRAP_FAILED", text, none⟩
  | .results [] =>
    some ⟨"BOOTSTRAP_FAILED", "DatabentoBootstrapService returned no result for the symbol.", none⟩
  | .results (outcome :: _) =>
    if outcome ∈ BootstrapOutcome.failures then
      some ⟨"BOOTSTRAP_" ++ outcome.name, "Bootstrap terminated with outcome=" ++ outcome.value,
        none⟩
    else none

def coverageValue : CoverageStatus → String
  | .full => "full"
  | .gapped => "gapped"
  | .none => "none"

def coverageFailure (report : CoverageReport) : Option OnboardError :=
  if report.status ≠ .full then
    some ⟨"COVERAGE_INCOMPLETE",
      "Post-ingest coverage scan returned status='" ++ coverageValue report.status ++ "'",
      some (report.status, report.missingRanges)⟩
  else none

def IbAnswer.failure : IbAnswer → Option OnboardError
  | .qualified => none
  | .timeout =>
    some ⟨"IB_TIMEOUT", "IB qualification exceeded the " ++ toString defaultIbTimeoutS ++ "s SLA",
      none⟩
  | .notConfigured =>
    some ⟨"IB_NOT_CONFIGURED", "IB qualification adapter is not wired into this build. " ++
      "Set request_live_qualification=false or pass an explicit ib_service.", none⟩
  | .raised text => some ⟨"IB_UNAVAILABLE", text, none⟩

/-! ### The task -/

/-- The service that is called for the current symbol. -/
inductive Phase
  | bootstrap
  | ingest
  | coverage
  | ibQualify
deriving DecidableEq, Repr

/-- `run_symbol_onboarding` between two commits: `per_symbol_states`, the symbol in work, and those
    of `specs` that are left. -/
structure Attempt where
  perSymbol : List (String × SymbolStatus)
  current : Option (OnboardSpec × Phase)
  rest : List OnboardSpec
deriving DecidableEq, Repr

/-- What the services have answered for a symbol since its last `BOOTSTRAP`. -/
structure Evidence where
  bootstrap : Option BootstrapAnswer
  /-- The text of the exception, if there was one. -/
  ingest : Option (Option String)
  coverage : Option CoverageReport
  qualify : Option IbAnswer
deriving DecidableEq, Repr

def Evidence.empty : Evidence := ⟨none, none, none, none⟩

/-- The row, the task if it runs, and the answers. -/
structure RunRow where
  status : RunStatus
  states : SymbolStates
  requestLiveQualification : Bool
  attempt : Option Attempt
  evidence : String → Evidence

/-- The row that the API commits. -/
def RunRow.created (specs : List OnboardSpec) (requestLiveQualification : Bool) : RunRow where
  status := .pending
  states := symbolStates specs
  requestLiveQualification := requestLiveQualification
  attempt := none
  evidence := fun _ => .empty

/-- `_compute_terminal_status`. -/
def computeTerminalStatus (perSymbol : List (String × SymbolStatus)) : RunStatus :=
  if perSymbol.all fun p => p.2 = .succeeded then .completed else .completedWithFailures

inductive OnboardLabel
  /-- Phase A of the task. -/
  | attempt
  /-- `BOOTSTRAP` of the next symbol. -/
  | next
  /-- The answers of the services, each with the commit that follows. -/
  | bootstrap (answer : BootstrapAnswer)
  | ingest (error : Option String)
  | coverage (report : CoverageReport)
  | qualify (answer : IbAnswer)
  /-- Phase C. -/
  | sync
  /-- The task raises; `synced` if the row is marked. -/
  | crash (synced : Bool)
  /-- The task is cancelled, or its process dies. -/
  | cancel
deriving DecidableEq, Repr

/-- `_fail` or `_succeed`, and the next symbol. -/
def RunRow.terminal (s : RunRow) (a : Attempt) (spec : OnboardSpec) (status : SymbolStatus)
    (step : SymbolStepStatus) (error : Option OnboardError) (ev : Evidence) : RunRow :=
  { s with
    states := finalize s.states spec status step error
    attempt := some ⟨a.perSymbol ++ [(spec.symbol, status)], none, a.rest⟩
    evidence := Function.update s.evidence spec.symbol ev }

/-- `_persist_step`, and the call that follows. -/
def RunRow.persist (s : RunRow) (a : Attempt) (spec : OnboardSpec) (phase : Phase)
    (step : SymbolStepStatus) (rest : List OnboardSpec) (ev : Evidence) : RunRow :=
  { s with
    states := persistStep s.states spec.symbol step
    attempt := some ⟨a.perSymbol, some (spec, phase), rest⟩
    evidence := Function.update s.evidence spec.symbol ev }

def onboardStep (s : RunRow) : OnboardLabel → Option RunRow
  | .attempt =>
    match s.attempt with
    | none =>
      some { s with status := .inProgress, attempt := some ⟨[], none, hydrateSpecs s.states⟩ }
    | some _ => none
  | .next =>
    s.attempt.bind fun a =>
      match a.current, a.rest with
      | none, spec :: rest => some (s.persist a spec .bootstrap .bootstrap rest .empty)
      | _, _ => none
  | .bootstrap answer =>
    s.attempt.bind fun a =>
      match a.current with
      | some (spec, .bootstrap) =>
        let ev := { s.evidence spec.symbol with bootstrap := some answer }
        match answer.failure with
        | some e => some (s.terminal a spec .failed .bootstrap (some e) ev)
        | none => some (s.persist a spec .ingest .ingest a.rest ev)
      | _ => none
  | .ingest error =>
    s.attempt.bind fun a =>
      match a.current with
      | some (spec, .ingest) =>
        let ev := { s.evidence spec.symbol with ingest := some error }
        match error with
        | some text =>
          some (s.terminal a spec .failed .ingest (some ⟨"INGEST_FAILED", text, none⟩) ev)
        | none => some (s.persist a spec .coverage .coverage a.rest ev)
      | _ => none
  | .coverage report =>
    s.attempt.bind fun a =>
      match a.current with
      | some (spec, .coverage) =>
        let ev := { s.evidence spec.symbol with coverage := some report }
        match coverageFailure report with
        | some e => some (s.terminal a spec .failed .coverageFailed (some e) ev)
        | none =>
          if s.requestLiveQualification then
            some (s.persist a spec .ibQualify .ibQualify a.rest ev)
          else some (s.terminal a spec .succeeded .ibSkipped none ev)
      | _ => none
  | .qualify answer =>
    s.attempt.bind fun a =>
      match a.current with
      | some (spec, .ibQualify) =>
        let ev := { s.evidence spec.symbol with qualify := some answer }
        match answer.failure with
        | some e => some (s.terminal a spec .failed .ibQualify (some e) ev)
        | none => some (s.terminal a spec .succeeded .completed none ev)
      | _ => none
  | .sync =>
    s.attempt.bind fun a =>
      match a.current, a.rest with
      | none, [] => some { s with status := computeTerminalStatus a.perSymbol, attempt := none }
      | _, _ => none
  | .crash synced =>
    s.attempt.bind fun _ =>
      some { s with status := if synced then .failed else s.status, attempt := none }
  | .cancel => s.attempt.bind fun _ => some { s with attempt := none }

def onboardSystem : TransitionSystem RunRow OnboardLabel := ⟨onboardStep⟩

/-! ### What the statuses promise -/

/-- The symbol is in the registry. -/
def Evidence.Registered (ev : Evidence) : Prop :=
  ∃ outcome outcomes, ev.bootstrap = some (.results (outcome :: outcomes)) ∧
    outcome ∉ BootstrapOutcome.failures

/-- The answers that a success rests on. -/
structure Evidence.Complete (requestLiveQualification : Bool) (ev : Evidence) : Prop where
  registered : ev.Registered
  ingested : ev.ingest = some none
  coverage : ∃ report, ev.coverage = some report ∧ report.status = .full
  qualified : requestLiveQualification = true → ev.qualify = some .qualified

structure EntryTrue (requestLiveQualification : Bool) (ev : Evidence) (k : String)
    (e : SymbolEntry) : Prop where
  symbol : e.symbol = k
  succeeded : e.status = .succeeded → e.error = none ∧ ev.Complete requestLiveQualification
  failed : e.status = .failed → e.error ≠ none

/-- What has been answered when a service is called. -/
def PhaseTrue (requestLiveQualification : Bool) (ev : Evidence) : Phase → Prop
  | .bootstrap => True
  | .ingest => ev.Registered
  | .coverage => ev.Registered ∧ ev.ingest = some none
  | .ibQualify => requestLiveQualification = true ∧ ev.Registered ∧ ev.ingest = some none ∧
      ∃ report, ev.coverage = some report ∧ report.status = .full

/-- The entry of a symbol has its window. -/
def Stored (states : SymbolStates) (spec : OnboardSpec) : Prop :=
  ∃ e, Dict.get states spec.symbol = some e ∧ e.toOnboardSpec = spec

/-- The task knows the row. -/
structure AttemptTrue (s : RunRow) (a : Attempt) : Prop where
  symbols : Dict.keys s.states = a.perSymbol.map Prod.fst ++
    (a.current.map (·.1.symbol)).toList ++ a.rest.map (·.symbol)
  perSymbol : ∀ p ∈ a.perSymbol, (∃ e, Dict.get s.states p.1 = some e ∧ e.status = p.2) ∧
    (p.2 = .succeeded ∨ p.2 = .failed)
  current : ∀ spec phase, a.current = some (spec, phase) → Stored s.states spec ∧
    PhaseTrue s.requestLiveQualification (s.evidence spec.symbol) phase
  rest : ∀ spec ∈ a.rest, Stored s.states spec

/-- The invariant of a run that was created for `specs`. -/
structure OnboardOk (specs : List OnboardSpec) (s : RunRow) : Prop where
  keys : Dict.keys s.states = Dict.keys (symbolStates specs)
  windows : ∀ k e, Dict.get s.states k = some e →
    (Dict.get (symbolStates specs) k).map (·.toOnboardSpec) = some e.toOnboardSpec
  entry : ∀ k e, Dict.get s.states k = some e →
    EntryTrue s.requestLiveQualification (s.evidence k) k e
  running : ∀ a, s.attempt = some a → s.status = .inProgress ∧ AttemptTrue s a
  completed : s.status = .completed → ∀ k e, Dict.get s.states k = some e → e.status = .succeeded
  withFailures : s.status = .completedWithFailures →
    (∀ k e, Dict.get s.states k = some e → e.status = .succeeded ∨ e.status = .failed) ∧
      ∃ k e, Dict.get s.states k = some e ∧ e.status = .failed

section Invariant

variable {specs : List OnboardSpec} {s t : RunRow} {a a' : Attempt} {spec : OnboardSpec}
  {e : SymbolEntry} {ev : Evidence} {phase : Phase} {step : SymbolStepStatus}
  {rest : List OnboardSpec} {status : SymbolStatus} {error : Option OnboardError}

theorem nodup_keys_symbolStates : (Dict.keys (symbolStates specs)).Nodup := by
  unfold symbolStates
  rw [Dict.keys_build]
  exact nodup_firstSeen

/-- `_persist_step` writes the entry of a symbol of the run. -/
theorem persistStep_eq (step : SymbolStepStatus) (h : Stored s.states spec) :
    ∃ error, persistStep s.states spec.symbol step =
      Dict.set s.states spec.symbol ⟨spec, .inProgress, step, error⟩ := by
  obtain ⟨e, he, rfl⟩ := h
  exact ⟨e.error, by rw [persistStep, he]⟩

/-- A commit of the task: one entry is written, of the symbol in work. -/
theorem OnboardOk.write (h : OnboardOk specs s) (hrun : s.status = .inProgress)
    (hstored : Stored s.states spec)
    (hentry : EntryTrue s.requestLiveQualification ev spec.symbol ⟨spec, status, step, error⟩)
    (hstates : t.states = Dict.set s.states spec.symbol ⟨spec, status, step, error⟩)
    (hstatus : t.status = s.status)
    (hlive : t.requestLiveQualification = s.requestLiveQualification)
    (hevidence : t.evidence = Function.update s.evidence spec.symbol ev)
    (hattempt : ∀ a, t.attempt = some a → AttemptTrue t a) : OnboardOk specs t := by
  obtain ⟨e, he, hspec⟩ := hstored
  have hget : ∀ k e', Dict.get t.states k = some e' →
      (k = spec.symbol ∧ e' = ⟨spec, status, step, error⟩) ∨
        (k ≠ spec.symbol ∧ Dict.get s.states k = some e') := by
    intro k e' h'
    rw [hstates, Dict.get_set] at h'
    split at h'
    · rename_i hk
      exact Or.inl ⟨hk.symm, (Option.some.inj h').symm⟩
    · rename_i hk
      exact Or.inr ⟨Ne.symm hk, h'⟩
  refine ⟨?_, ?_, ?_, ?_, ?_, ?_⟩
  · have hmem : spec.symbol ∈ Dict.keys s.states := by
      by_contra hnot
      rw [Dict.get_eq_none.mpr hnot] at he
      cases he
    rw [hstates, Dict.keys_set, if_pos hmem, h.keys]
  · intro k e' h'
    rcases hget k e' h' with ⟨rfl, rfl⟩ | ⟨_, hold⟩
    · rw [h.windows _ _ he, hspec]
    · exact h.windows k e' hold
  · intro k e' h'
    rw [hlive, hevidence]
    rcases hget k e' h' with ⟨rfl, rfl⟩ | ⟨hk, hold⟩
    · rwa [Function.update_self]
    · rw [Function.update_of_ne hk]
      exact h.entry k e' hold
  · intro a ha
    exact ⟨hstatus.trans hrun, hattempt a ha⟩
  · intro hdone
    rw [hstatus, hrun] at hdone
    cases hdone
  · intro hdone
    rw [hstatus, hrun] at hdone
    cases hdone

/-- What the task knows of the symbols that are not in work outlives a commit. -/
theorem AttemptTrue.write (h : AttemptTrue s a) (hnodup : (Dict.keys s.states).Nodup)
    (hsymbols : Dict.keys s.states =
      a.perSymbol.map Prod.fst ++ spec.symbol :: rest.map (·.symbol))
    (hrest : ∀ spec' ∈ rest, Stored s.states spec') (e' : SymbolEntry) :
    (∀ p ∈ a.perSymbol,
      (∃ e, Dict.get (Dict.set s.states spec.symbol e') p.1 = some e ∧ e.status = p.2) ∧
        (p.2 = .succeeded ∨ p.2 = .failed)) ∧
      (∀ spec' ∈ rest, Stored (Dict.set s.states spec.symbol e') spec') ∧
      Dict.keys (Dict.set s.states spec.symbol e') = Dict.keys s.states := by
  rw [hsymbols] at hnodup
  have hmem : spec.symbol ∈ Dict.keys s.states := by
    rw [hsymbols]
    exact List.mem_append_right _ List.mem_cons_self
  have hdone : ∀ p ∈ a.perSymbol, spec.symbol ≠ p.1 := by
    intro p hp heq
    exact List.disjoint_of_nodup_append hnodup (List.mem_map_of_mem hp)
      (heq ▸ List.mem_cons_self)
  have hleft : ∀ spec' ∈ rest, spec.symbol ≠ spec'.symbol := by
    intro spec' hspec' heq
    have hcons := (List.nodup_append.mp hnodup).2.1
    exact (List.nodup_cons.mp hcons).1 (heq ▸ List.mem_map_of_mem hspec')
  refine ⟨fun p hp => ?_, fun spec' hspec' => ?_, ?_⟩
  · rw [Dict.get_set, if_neg (hdone p hp)]
    exact h.perSymbol p hp
  · unfold Stored
    rw [Dict.get_set, if_neg (hleft spec' hspec')]
    exact hrest spec' hspec'
  · rw [Dict.keys_set, if_pos hmem]

/-- A service is called for the next symbol, or for the one in work. -/
theorem OnboardOk.persist (h : OnboardOk specs s) (ha : s.attempt = some a)
    (hsymbols : Dict.keys s.states =
      a.perSymbol.map Prod.fst ++ spec.symbol :: rest.map (·.symbol))
    (hspec : Stored s.states spec) (hrest : ∀ spec' ∈ rest, Stored s.states spec')
    (hphase : PhaseTrue s.requestLiveQualification ev phase) :
    OnboardOk specs (s.persist a spec phase step rest ev) := by
  obtain ⟨hrun, hattempt⟩ := h.running a ha
  have hnodup : (Dict.keys s.states).Nodup := h.keys ▸ nodup_keys_symbolStates
  obtain ⟨error, hstates⟩ := persistStep_eq step hspec
  have hentry : EntryTrue s.requestLiveQualification ev spec.symbol
      ⟨spec, .inProgress, step, error⟩ := ⟨rfl, nofun, nofun⟩
  refine h.write hrun hspec hentry hstates rfl rfl rfl fun a' ha' => ?_
  obtain rfl := Option.some.inj ha'
  obtain ⟨hdone, hleft, hkeys⟩ := hattempt.write hnodup hsymbols hrest
    ⟨spec, .inProgress, step, error⟩
  have hstates' : (s.persist a spec phase step rest ev).states = Dict.set s.states spec.symbol
    ⟨spec, .inProgress, step, error⟩ := hstates
  refine ⟨?_, ?_, ?_, ?_⟩
  · rw [hstates', hkeys, hsymbols]
    simp
  · rw [hstates']
    exact hdone
  · intro spec' phase' hcurrent
    obtain ⟨rfl, rfl⟩ := Prod.mk.inj (Option.some.inj hcurrent)
    rw [hstates']
    refine ⟨⟨_, Dict.get_set.trans (if_pos rfl), rfl⟩, ?_⟩
    show PhaseTrue _ (Function.update s.evidence spec.symbol ev spec.symbol) phase
    rwa [Function.update_self]
  · rw [hstates']
    exact hleft

/-- A symbol is through. -/
theorem OnboardOk.terminal (h : OnboardOk specs s) (ha : s.attempt = some a)
    (hcurrent : a.current = some (spec, phase)) (hstatus : status = .succeeded ∨ status = .failed)
    (hentry : EntryTrue s.requestLiveQualification ev spec.symbol ⟨spec, status, step, error⟩) :
    OnboardOk specs (s.terminal a spec status step error ev) := by
  obtain ⟨hrun, hattempt⟩ := h.running a ha
  have hnodup : (Dict.keys s.states).Nodup := h.keys ▸ nodup_keys_symbolStates
  have hsymbols : Dict.keys s.states =
      a.perSymbol.map Prod.fst ++ spec.symbol :: a.rest.map (·.symbol) := by
    rw [hattempt.symbols, hcurrent]
    simp
  refine h.write hrun (hattempt.current spec phase hcurrent).1 hentry rfl rfl rfl rfl
    fun a' ha' => ?_
  obtain rfl := Option.some.inj ha'
  obtain ⟨hdone, hleft, hkeys⟩ := hattempt.write hnodup hsymbols hattempt.rest
    ⟨spec, status, step, error⟩
  refine ⟨?_, ?_, nofun, hleft⟩
  · show Dict.keys (Dict.set s.states spec.symbol _) = _
    rw [hkeys, hsymbols]
    simp
  · intro p hp
    rcases List.mem_append.mp hp with hold | hnew
    · exact hdone p hold
    · rw [List.mem_singleton.mp hnew]
      exact ⟨⟨_, Dict.get_set.trans (if_pos rfl), rfl⟩, hstatus⟩

theorem AttemptTrue.current_symbols (h : AttemptTrue s a)
    (hcurrent : a.current = some (spec, phase)) :
    Dict.keys s.states = a.perSymbol.map Prod.fst ++ spec.symbol :: a.rest.map (·.symbol) := by
  rw [h.symbols, hcurrent]
  simp

/-- The task stops: nothing is known but the row. -/
theorem OnboardOk.stop (h : OnboardOk specs s) (hstatus : t.status = .inProgress ∨
      t.status = .failed) (hstates : t.states = s.states)
    (hlive : t.requestLiveQualification = s.requestLiveQualification)
    (hevidence : t.evidence = s.evidence) (hattempt : ∀ a, t.attempt = some a →
      t.status = .inProgress ∧ AttemptTrue t a) : OnboardOk specs t := by
  refine ⟨?_, ?_, ?_, hattempt, ?_, ?_⟩
  · rw [hstates, h.keys]
  · rw [hstates]
    exact h.windows
  · rw [hstates, hlive, hevidence]
    exact h.entry
  · intro hdone
    rcases hstatus with hs | hs <;> rw [hs] at hdone <;> cases hdone
  · intro hdone
    rcases hstatus with hs | hs <;> rw [hs] at hdone <;> cases hdone

/-- The task starts with the windows of the row. -/
theorem OnboardOk.start (h : OnboardOk specs s) : OnboardOk specs
    { s with status := .inProgress, attempt := some ⟨[], none, hydrateSpecs s.states⟩ } := by
  have hnodup : (Dict.keys s.states).Nodup := h.keys ▸ nodup_keys_symbolStates
  refine h.stop (Or.inl rfl) rfl rfl rfl fun a ha => ⟨rfl, ?_⟩
  obtain rfl := Option.some.inj ha
  refine ⟨?_, nofun, nofun, ?_⟩
  · show Dict.keys s.states = [] ++ [] ++ (hydrateSpecs s.states).map (·.symbol)
    rw [hydrateSpecs, Dict.values, List.map_map, List.map_map, List.nil_append, List.nil_append]
    refine List.map_congr_left ?_
    rintro ⟨k, e⟩ hp
    exact ((h.entry k e ((Dict.mem_iff_get hnodup).mp hp)).symbol).symm
  · intro spec hspec
    obtain ⟨e, he, rfl⟩ := List.mem_map.mp hspec
    obtain ⟨k, hk⟩ := (Dict.mem_values hnodup).mp he
    obtain rfl := (h.entry k e hk).symbol
    exact ⟨e, hk, rfl⟩

/-- The task has been through all symbols. -/
theorem OnboardOk.sync (h : OnboardOk specs s) (ha : s.attempt = some a)
    (hcurrent : a.current = none) (hrest : a.rest = []) : OnboardOk specs
      { s with status := computeTerminalStatus a.perSymbol, attempt := none } := by
  obtain ⟨_, hattempt⟩ := h.running a ha
  have hdone : ∀ k e, Dict.get s.states k = some e → ∃ p ∈ a.perSymbol, p.1 = k ∧
      e.status = p.2 := by
    intro k e he
    have hk : k ∈ Dict.keys s.states := by
      by_contra hnot
      rw [Dict.get_eq_none.mpr hnot] at he
      cases he
    rw [hattempt.symbols, hcurrent, hrest, Option.map_none, Option.toList_none, List.map_nil,
      List.append_nil, List.append_nil] at hk
    obtain ⟨p, hp, rfl⟩ := List.mem_map.mp hk
    obtain ⟨⟨e', he', hstatus⟩, _⟩ := hattempt.perSymbol p hp
    obtain rfl := Option.some.inj (he.symm.trans he')
    exact ⟨p, hp, rfl, hstatus⟩
  refine ⟨h.keys, h.windows, h.entry, nofun, ?_, ?_⟩
  · intro hcompleted k e he
    obtain ⟨p, hp, _, hstatus⟩ := hdone k e he
    simp only [computeTerminalStatus] at hcompleted
    split at hcompleted
    · rename_i hall
      rw [hstatus]
      simpa using List.all_eq_true.mp hall p hp
    · cases hcompleted
  · intro hfailures
    simp only [computeTerminalStatus] at hfailures
    split at hfailures
    · cases hfailures
    · rename_i hall
      constructor
      · intro k e he
        obtain ⟨p, hp, _, hstatus⟩ := hdone k e he
        rw [hstatus]
        exact (hattempt.perSymbol p hp).2
      · simp only [List.all_eq_true, decide_eq_true_eq, not_forall] at hall
        obtain ⟨p, hp, hne⟩ := hall
        obtain ⟨⟨e, he, hstatus⟩, hterminal⟩ := hattempt.perSymbol p hp
        exact ⟨p.1, e, he, hstatus.trans (hterminal.resolve_left hne)⟩

theorem onboardOk_created (live : Bool) : OnboardOk specs (.created specs live) := by
  refine ⟨rfl, ?_, ?_, nofun, nofun, nofun⟩
  · intro k e he
    rw [show Dict.get (symbolStates specs) k = some e from he]
    rfl
  · intro k e he
    obtain ⟨spec, _, hentry⟩ :=
      Dict.exists_of_get_build (show Dict.get (symbolStates specs) k = some e from he)
    obtain ⟨rfl, rfl⟩ := Prod.mk.inj (Option.some.inj hentry)
    exact ⟨rfl, nofun, nofun⟩

theorem Evidence.registered {answer : BootstrapAnswer} (h : answer.failure = none)
    (hev : ev.bootstrap = some answer) : ev.Registered := by
  cases answer with
  | raised text => cases h
  | results outcomes =>
    cases outcomes with
    | nil => cases h
    | cons outcome outcomes =>
      simp only [BootstrapAnswer.failure] at h
      split at h
      · cases h
      · rename_i hout
        exact ⟨outcome, outcomes, hev, hout⟩

theorem IbAnswer.qualified_of_failure {answer : IbAnswer} (h : answer.failure = none) :
    answer = .qualified := by
  cases answer with
  | qualified => rfl
  | timeout => cases h
  | notConfigured => cases h
  | raised text => cases h

/-- The task goes on to its next symbol. -/
theorem OnboardOk.next (h : OnboardOk specs s) (hs : onboardStep s .next = some t) :
    OnboardOk specs t := by
  obtain ⟨a, ha, hs⟩ := Option.bind_eq_some_iff.mp hs
  obtain ⟨_, hattempt⟩ := h.running a ha
  split at hs
  · rename_i spec rest hcurrent hrest
    rw [← Option.some.inj hs]
    have hstored : ∀ spec' ∈ spec :: rest, Stored s.states spec' := hrest ▸ hattempt.rest
    refine h.persist ha ?_ (hstored spec List.mem_cons_self)
      (fun spec' hspec' => hstored spec' (List.mem_cons_of_mem _ hspec')) trivial
    rw [hattempt.symbols, hcurrent, hrest]
    simp
  · cases hs

theorem OnboardOk.bootstrap {answer : BootstrapAnswer} (h : OnboardOk specs s)
    (hs : onboardStep s (.bootstrap answer) = some t) : OnboardOk specs t := by
  obtain ⟨a, ha, hs⟩ := Option.bind_eq_some_iff.mp hs
  obtain ⟨_, hattempt⟩ := h.running a ha
  split at hs
  · rename_i spec hcurrent
    simp only at hs
    split at hs
    · rw [← Option.some.inj hs]
      exact h.terminal ha hcurrent (Or.inr rfl) ⟨rfl, nofun, nofun⟩
    · rename_i hanswer
      rw [← Option.some.inj hs]
      exact h.persist ha (hattempt.current_symbols hcurrent) (hattempt.current _ _ hcurrent).1
        hattempt.rest (Evidence.registered hanswer rfl)
  · cases hs

theorem OnboardOk.ingest {error : Option String} (h : OnboardOk specs s)
    (hs : onboardStep s (.ingest error) = some t) : OnboardOk specs t := by
  obtain ⟨a, ha, hs⟩ := Option.bind_eq_some_iff.mp hs
  obtain ⟨_, hattempt⟩ := h.running a ha
  split at hs
  · rename_i spec hcurrent
    obtain ⟨hstored, hphase⟩ := hattempt.current _ _ hcurrent
    simp only at hs
    split at hs
    · rw [← Option.some.inj hs]
      exact h.terminal ha hcurrent (Or.inr rfl) ⟨rfl, nofun, nofun⟩
    · rw [← Option.some.inj hs]
      exact h.persist ha (hattempt.current_symbols hcurrent) hstored hattempt.rest ⟨hphase, rfl⟩
  · cases hs

/-- A symbol that is covered in full is done, unless its qualification is asked for. -/
theorem OnboardOk.coverage {report : CoverageReport} (h : OnboardOk specs s)
    (hs : onboardStep s (.coverage report) = some t) : OnboardOk specs t := by
  obtain ⟨a, ha, hs⟩ := Option.bind_eq_some_iff.mp hs
  obtain ⟨_, hattempt⟩ := h.running a ha
  split at hs
  · rename_i spec hcurrent
    obtain ⟨hstored, hregistered, hingested⟩ := hattempt.current _ _ hcurrent
    simp only at hs
    split at hs
    · rw [← Option.some.inj hs]
      exact h.terminal ha hcurrent (Or.inr rfl) ⟨rfl, nofun, nofun⟩
    · rename_i hfull
      have hreport : report.status = .full := by
        by_contra hne
        rw [coverageFailure, if_pos hne] at hfull
        cases hfull
      split at hs
      · rename_i hlive
        rw [← Option.some.inj hs]
        exact h.persist ha (hattempt.current_symbols hcurrent) hstored hattempt.rest
          ⟨hlive, hregistered, hingested, report, rfl, hreport⟩
      · rename_i hlive
        rw [← Option.some.inj hs]
        refine h.terminal ha hcurrent (Or.inl rfl) ⟨rfl, fun _ => ⟨rfl, ?_⟩, nofun⟩
        exact ⟨hregistered, hingested, ⟨report, rfl, hreport⟩, fun hlive' => absurd hlive' hlive⟩
  · cases hs

theorem OnboardOk.qualify {answer : IbAnswer} (h : OnboardOk specs s)
    (hs : onboardStep s (.qualify answer) = some t) : OnboardOk specs t := by
  obtain ⟨a, ha, hs⟩ := Option.bind_eq_some_iff.mp hs
  obtain ⟨_, hattempt⟩ := h.running a ha
  split at hs
  · rename_i spec hcurrent
    obtain ⟨_, _, hregistered, hingested, hcoverage⟩ := hattempt.current _ _ hcurrent
    simp only at hs
    split at hs
    · rw [← Option.some.inj hs]
      exact h.terminal ha hcurrent (Or.inr rfl) ⟨rfl, nofun, nofun⟩
    · rename_i hanswer
      rw [← Option.some.inj hs]
      refine h.terminal ha hcurrent (Or.inl rfl) ⟨rfl, fun _ => ⟨rfl, ?_⟩, nofun⟩
      exact ⟨hregistered, hingested, hcoverage,
        fun _ => congrArg some (IbAnswer.qualified_of_failure hanswer)⟩
  · cases hs

/-- One commit keeps the invariant. -/
theorem onboardOk_step {label : OnboardLabel} (h : OnboardOk specs s)
    (hs : onboardStep s label = some t) : OnboardOk specs t := by
  cases label with
  | attempt =>
    simp only [onboardStep] at hs
    split at hs
    · rw [← Option.some.inj hs]
      exact h.start
    · cases hs
  | next => exact h.next hs
  | bootstrap answer => exact h.bootstrap hs
  | ingest error => exact h.ingest hs
  | coverage report => exact h.coverage hs
  | qualify answer => exact h.qualify hs
  | sync =>
    obtain ⟨a, ha, hs⟩ := Option.bind_eq_some_iff.mp hs
    split at hs
    · rename_i hcurrent hrest
      rw [← Option.some.inj hs]
      exact h.sync ha hcurrent hrest
    · cases hs
  | crash synced =>
    obtain ⟨a, ha, hs⟩ := Option.bind_eq_some_iff.mp hs
    rw [← Option.some.inj hs]
    refine h.stop ?_ rfl rfl rfl nofun
    cases synced
    · exact Or.inl (h.running a ha).1
    · exact Or.inr rfl
  | cancel =>
    obtain ⟨a, ha, hs⟩ := Option.bind_eq_some_iff.mp hs
    rw [← Option.some.inj hs]
    exact h.stop (Or.inl (h.running a ha).1) rfl rfl rfl nofun

end Invariant

/-- **What the statuses of a run promise.**  However the services answer, wherever the task raises
    or is cancelled, and however often it is run again: the row has the symbols and windows that it
    was created with; a symbol succeeded only if, in the attempt that wrote its entry, it was
    registered, ingested, covered in full and, if that was asked for, qualified; a symbol that
    failed has its error; a completed run has only successes, and a run completed with failures has
    only successes and failures, with something to repair. -/
theorem onboarding_status_true {specs : List OnboardSpec} {live : Bool}
    {labels : List OnboardLabel} {s : RunRow}
    (h : TransitionSystem.Path onboardSystem anyStep (.created specs live) labels s) :
    (Dict.keys s.states = Dict.keys (symbolStates specs) ∧
      ∀ k e, Dict.get s.states k = some e →
        (Dict.get (symbolStates specs) k).map (·.toOnboardSpec) = some e.toOnboardSpec) ∧
    (∀ k e, Dict.get s.states k = some e →
      (e.status = .succeeded → e.error = none ∧
        (s.evidence k).Complete s.requestLiveQualification) ∧
      (e.status = .failed → e.error ≠ none)) ∧
    (s.status = .completed →
      (∀ k e, Dict.get s.states k = some e → e.status = .succeeded) ∧
        repairTargets s.states = []) ∧
    (s.status = .completedWithFailures →
      (∀ k e, Dict.get s.states k = some e → e.status = .succeeded ∨ e.status = .failed) ∧
        repairTargets s.states ≠ []) := by
  have hok : OnboardOk specs s := h.invariant (I := OnboardOk specs)
    (fun _ _ _ hok _ hs => onboardOk_step hok hs) (onboardOk_created live)
  have hnodup : (Dict.keys s.states).Nodup := hok.keys ▸ nodup_keys_symbolStates
  refine ⟨⟨hok.keys, hok.windows⟩, ?_, ?_, ?_⟩
  · intro k e he
    exact ⟨(hok.entry k e he).succeeded, (hok.entry k e he).failed⟩
  · intro hcompleted
    refine ⟨hok.completed hcompleted, ?_⟩
    rw [repairTargets, List.map_eq_nil_iff, List.filter_eq_nil_iff]
    intro e he
    obtain ⟨k, hk⟩ := (Dict.mem_values hnodup).mp he
    simp [hok.completed hcompleted k e hk]
  · intro hfailures
    obtain ⟨hterminal, k, e, he, hfailed⟩ := hok.withFailures hfailures
    refine ⟨hterminal, ?_⟩
    have hmem : e.symbol ∈ repairTargets s.states :=
      List.mem_map_of_mem (List.mem_filter.mpr
        ⟨(Dict.mem_values hnodup).mpr ⟨k, he⟩, by simp [hfailed]⟩)
    exact List.ne_nil_of_mem hmem

/-- A run of two symbols: the task is cancelled and comes again, and one symbol stays gapped. -/
def gappedRun : List OnboardLabel :=
  [.attempt, .next, .bootstrap (.results [.created]), .cancel,
    .attempt, .next, .bootstrap (.results [.noop]), .ingest none, .coverage ⟨.full, none, []⟩,
    .next, .bootstrap (.results [.created]), .ingest none, .coverage ⟨.gapped, none, [(3, 4)]⟩,
    .sync]

def gappedSpecs : List OnboardSpec := [⟨"SPY", .equity, 1, 9⟩, ⟨"XYZ", .equity, 1, 9⟩]

theorem onboarding_status_gapped : ∃ s,
    TransitionSystem.Path onboardSystem anyStep (.created gappedSpecs false) gappedRun s ∧
      s.status = .completedWithFailures ∧ repairTargets s.states ≠ [] := by
  have hrun : (onboardSystem.run (.created gappedSpecs false) gappedRun).map (·.status) =
      some .completedWithFailures := by
    decide
  obtain ⟨s, hs, hstatus⟩ := Option.map_eq_some_iff.mp hrun
  have hpath := Path.of_run hs
  exact ⟨s, hpath, hstatus, ((onboarding_status_true hpath).2.2.2 hstatus).2⟩

end Msai.Onboarding.Run
