import Msai.Lib.Dict
import Msai.Lib.PyText
import Msai.Lib.Transition

namespace Msai.Gateway.AccountSnapshot

open Msai.Lib Msai.Lib.TransitionSystem

/-!
# The account snapshot (`services/ib_account_snapshot.py`, `api/account.py`)

A background task connects to the broker, and on every tick fetches the summary of the account and
then its positions.  The two are kept apart: a fetch that fails leaves the other one and the old
values in place.  The login of the gateway may change from one connection to the next.

* `snapshotSystem` — `refresh_once` with a step for each of its awaits, `start` and `stop`, beside
  any logins and any answers of the broker;
* `accountSummary`, `accountPortfolio` — what the two endpoints serve in a state;
* `Labelled` — the invariant: what is served was fetched under a login of the account it is labelled
  with;
* `served_labelled` — the theorem over every run.

Numbers and positions are of any type.
-/

/-! ### The fetches -/

section Fetch

variable {ν : Type} [Zero ν]

/-- `_ZERO_SUMMARY`. -/
def zeroSummary : Dict String ν :=
  [("net_liquidation", 0), ("buying_power", 0), ("margin_used", 0), ("available_funds", 0),
    ("unrealized_pnl", 0), ("realized_pnl", 0)]

/-- `_TAG_MAP`. -/
def tagMap : Dict String String :=
  [("NetLiquidation", "net_liquidation"), ("BuyingPower", "buying_power"),
    ("TotalCashValue", "available_funds"), ("MaintMarginReq", "margin_used"),
    ("UnrealizedPnL", "unrealized_pnl"), ("RealizedPnL", "realized_pnl")]

/-- `_fetch_summary`: the tags with what `float` makes of their values, if it does not raise. -/
def fetchSummary (tags : List (String × Option ν)) : Dict String ν :=
  tags.foldl (fun result item =>
    match tagMap.get item.1, item.2 with
    | some key, some value => result.set key value
    | _, _ => result) zeroSummary

/-- A login of the gateway: `IB.managedAccounts()`. -/
abbrev Login := List String

/-- `_resolve_account_id`. -/
def resolveAccountId (accounts : Login) : Option String :=
  match (accounts.map PyText.strip).filter (· ≠ "") with
  | [accountId] => some accountId
  | _ => none

example : resolveAccountId [" DU1 ", ""] = some "DU1" ∧ resolveAccountId ["DU1", "DU2"] = none := by
  decide +kernel

end Fetch

/-! ### The refresh -/

/-- Where the background task is. -/
inductive Stage
  /-- There is no task. -/
  | stopped
  /-- Between two ticks. -/
  | sleeping
  /-- In `_fetch_summary`, with `resolved_account_id` and `account_changed`. -/
  | fetchingSummary (login : Login) (resolved : Option String) (changed : Bool)
  | fetchingPortfolio (login : Login)
deriving DecidableEq, Repr

/-- The snapshot (its connection with the login behind it), and what has been fetched under which
    login. -/
structure Snapshot (ν π : Type) where
  connected : Option Login
  summary : Dict String ν
  portfolio : List π
  accountId : Option String
  lastSummarySuccessAt : Option ℕ
  lastPortfolioSuccessAt : Option ℕ
  stage : Stage
  fetchedSummaries : List (Login × Dict String ν)
  fetchedPortfolios : List (Login × List π)
deriving DecidableEq

inductive Label (ν π : Type)
  | start
  /-- `stop`: the task is cancelled wherever it is. -/
  | stop
  /-- A tick up to its first fetch.  A snapshot that is not connected connects: to a gateway with
      some login, or the attempt fails. -/
  | connect (login : Option Login)
  /-- The fetch of the summary ends; `none` is a timeout or an exception. -/
  | summary (now : ℕ) (tags : Option (List (String × Option ν)))
  | portfolio (now : ℕ) (positions : Option (List π))
deriving DecidableEq

section Refresh

variable {ν π : Type} [Zero ν]

def Snapshot.initial : Snapshot ν π where
  connected := none
  summary := zeroSummary
  portfolio := []
  accountId := none
  lastSummarySuccessAt := none
  lastPortfolioSuccessAt := none
  stage := .stopped
  fetchedSummaries := []
  fetchedPortfolios := []

/-- `_drop_connection`, behind which the task sleeps. -/
def Snapshot.dropConnection (s : Snapshot ν π) : Snapshot ν π :=
  { s with connected := none, stage := .sleeping }

/-- The tick goes on to the fetch of the summary. -/
def Snapshot.resolve (s : Snapshot ν π) (login : Login) : Snapshot ν π :=
  let resolved := resolveAccountId login
  { s with
    connected := some login
    stage := .fetchingSummary login resolved (resolved ≠ s.accountId) }

def snapshotStep (s : Snapshot ν π) : Label ν π → Option (Snapshot ν π)
  | .start => if s.stage = .stopped then some { s with stage := .sleeping } else some s
  | .stop => some { s with connected := none, stage := .stopped }
  | .connect login =>
    if s.stage = .sleeping then
      match s.connected, login with
      | some login, _ => some (s.resolve login)
      | none, some login => some (s.resolve login)
      | none, none => some s.dropConnection
    else none
  | .summary now tags =>
    match s.stage, tags with
    | .fetchingSummary login resolved changed, some tags =>
      let summary := fetchSummary tags
      some
        { s with
          summary := summary
          accountId := resolved
          lastSummarySuccessAt := some now
          -- the positions belong to the account before
          portfolio := if changed then [] else s.portfolio
          lastPortfolioSuccessAt := if changed then none else s.lastPortfolioSuccessAt
          stage := .fetchingPortfolio login
          fetchedSummaries := s.fetchedSummaries ++ [(login, summary)] }
    | .fetchingSummary _ _ _, none => some s.dropConnection
    | _, _ => none
  | .portfolio now positions =>
    match s.stage, positions with
    | .fetchingPortfolio login, some positions =>
      some
        { s with
          portfolio := positions
          lastPortfolioSuccessAt := some now
          stage := .sleeping
          fetchedPortfolios := s.fetchedPortfolios ++ [(login, positions)] }
    | .fetchingPortfolio _, none => some s.dropConnection
    | _, _ => none

variable (ν π) in
/-- The task and the requests beside it. -/
def snapshotSystem : TransitionSystem (Snapshot ν π) (Label ν π) := ⟨snapshotStep⟩

/-- `GET /api/v1/account/summary`: the summary with `account_id`, or 503. -/
def accountSummary (s : Snapshot ν π) : Option (Dict String ν × Option String) :=
  if s.lastSummarySuccessAt = none then none else some (s.summary, s.accountId)

/-- `GET /api/v1/account/portfolio`: the positions, or 503. -/
def accountPortfolio (s : Snapshot ν π) : Option (List π) :=
  if s.lastPortfolioSuccessAt = none then none else some s.portfolio

/-! ### What holds in every state -/

/-- What is served was fetched under a login of the account that is shown with it. -/
structure Labelled (s : Snapshot ν π) : Prop where
  summary : s.lastSummarySuccessAt ≠ none →
    ∃ login, (login, s.summary) ∈ s.fetchedSummaries ∧ s.accountId = resolveAccountId login
  portfolio : s.lastPortfolioSuccessAt ≠ none →
    ∃ login, (login, s.portfolio) ∈ s.fetchedPortfolios ∧ s.accountId = resolveAccountId login
  cold : s.lastSummarySuccessAt = none ↔ s.fetchedSummaries = []
  empty : s.lastPortfolioSuccessAt = none → s.portfolio = []
  fetchingSummary : ∀ login resolved changed, s.stage = .fetchingSummary login resolved changed →
    resolved = resolveAccountId login ∧ changed = decide (resolved ≠ s.accountId)
  fetchingPortfolio : ∀ login, s.stage = .fetchingPortfolio login →
    s.accountId = resolveAccountId login

variable {s t : Snapshot ν π} {a : Label ν π}

theorem Labelled.initial : Labelled (Snapshot.initial : Snapshot ν π) where
  summary h := absurd rfl h
  portfolio h := absurd rfl h
  cold := iff_of_true rfl rfl
  empty _ := rfl
  fetchingSummary _ _ _ h := nomatch h
  fetchingPortfolio _ h := nomatch h

omit [Zero ν] in
/-- The connection and the task may change; what is served stays. -/
theorem Labelled.moved (hs : Labelled s) (connected : Option Login) {stage : Stage}
    (hsummary : ∀ login resolved changed, stage = .fetchingSummary login resolved changed →
      resolved = resolveAccountId login ∧ changed = decide (resolved ≠ s.accountId))
    (hportfolio : ∀ login, stage = .fetchingPortfolio login →
      s.accountId = resolveAccountId login) :
    Labelled { s with connected := connected, stage := stage } :=
  ⟨hs.summary, hs.portfolio, hs.cold, hs.empty, hsummary, hportfolio⟩

omit [Zero ν] in
theorem Labelled.resolve (hs : Labelled s) (login : Login) : Labelled (s.resolve login) := by
  apply hs.moved
  · intro login' resolved changed heq
    injection heq with hlogin hresolved hchanged
    subst hlogin hresolved hchanged
    exact ⟨rfl, rfl⟩
  · exact fun _ heq => nomatch heq

omit [Zero ν] in
/-- The summary is committed, and with it the account that labels it. -/
theorem Labelled.summaryFetched (hs : Labelled s) {now : ℕ} {login : Login}
    {resolved : Option String} {changed : Bool} {summary : Dict String ν}
    (hstage : s.stage = .fetchingSummary login resolved changed) :
    Labelled
      { s with
        summary := summary
        accountId := resolved
        lastSummarySuccessAt := some now
        portfolio := if changed then [] else s.portfolio
        lastPortfolioSuccessAt := if changed then none else s.lastPortfolioSuccessAt
        stage := .fetchingPortfolio login
        fetchedSummaries := s.fetchedSummaries ++ [(login, summary)] } where
  summary _ := ⟨login, by simp, (hs.fetchingSummary _ _ _ hstage).1⟩
  portfolio := by
    intro hserved
    obtain ⟨hresolved, hchanged⟩ := hs.fetchingSummary _ _ _ hstage
    cases changed with
    | true => exact absurd rfl hserved
    | false =>
      -- the label is the old one, so the old positions may stay
      have hsame : resolved = s.accountId := not_not.mp (of_decide_eq_false hchanged.symm)
      obtain ⟨login', hmem, hlabel⟩ := hs.portfolio hserved
      exact ⟨login', hmem, hsame.trans hlabel⟩
  cold := iff_of_false (by simp) (by simp)
  empty := by
    intro hnone
    cases changed with
    | true => rfl
    | false => exact hs.empty hnone
  fetchingSummary _ _ _ heq := nomatch heq
  fetchingPortfolio := by
    intro login' heq
    injection heq with hlogin
    rw [← hlogin]
    exact (hs.fetchingSummary _ _ _ hstage).1

/-- **Step.** -/
theorem Labelled.step (hs : Labelled s) (h : snapshotStep s a = some t) : Labelled t := by
  have hdrop : Labelled s.dropConnection := hs.moved none nofun nofun
  cases a with
  | start =>
    simp only [snapshotStep] at h
    split at h
    · obtain rfl := Option.some.inj h
      exact hs.moved s.connected nofun nofun
    · obtain rfl := Option.some.inj h
      exact hs
  | stop =>
    obtain rfl := Option.some.inj h
    exact hs.moved none nofun nofun
  | connect login =>
    simp only [snapshotStep] at h
    split at h
    · split at h
      · obtain rfl := Option.some.inj h
        exact hs.resolve _
      · obtain rfl := Option.some.inj h
        exact hs.resolve _
      · obtain rfl := Option.some.inj h
        exact hdrop
    · cases h
  | summary now tags =>
    simp only [snapshotStep] at h
    split at h
    · rename_i hstage
      obtain rfl := Option.some.inj h
      exact hs.summaryFetched hstage
    · obtain rfl := Option.some.inj h
      exact hdrop
    · cases h
  | portfolio now positions =>
    simp only [snapshotStep] at h
    split at h
    · rename_i login positions hstage
      obtain rfl := Option.some.inj h
      refine ⟨hs.summary, fun _ => ⟨login, by simp, hs.fetchingPortfolio login hstage⟩, hs.cold,
        nofun, nofun, nofun⟩
    · obtain rfl := Option.some.inj h
      exact hdrop
    · cases h

/-- **Run.** -/
theorem Labelled.run {as : List (Label ν π)}
    (h : Path (snapshotSystem ν π) anyStep .initial as s) : Labelled s :=
  h.invariant (fun _ _ _ hs _ hstep => hs.step hstep) .initial

/-- **What is served belongs to the account that is shown.**  In every state, between the fetches
    of a tick too, and whatever logins, failures and cancellations came before: the summary that is
    served was fetched under a login that resolves to the `account_id` beside it, the positions
    that are served at that moment under one that resolves to the same, and the summary is refused
    exactly as long as none has been fetched. -/
theorem served_labelled {as : List (Label ν π)}
    (h : Path (snapshotSystem ν π) anyStep .initial as s) :
    (∀ summary accountId, accountSummary s = some (summary, accountId) →
      ∃ login, (login, summary) ∈ s.fetchedSummaries ∧ resolveAccountId login = accountId) ∧
    (∀ positions, accountPortfolio s = some positions →
      ∃ login, (login, positions) ∈ s.fetchedPortfolios ∧
        resolveAccountId login = s.accountId) ∧
    (accountSummary s = none ↔ s.fetchedSummaries = []) := by
  have hs := Labelled.run h
  refine ⟨fun summary accountId hserved => ?_, fun positions hserved => ?_, ?_⟩
  · unfold accountSummary at hserved
    split at hserved
    · cases hserved
    · rename_i hsome
      obtain ⟨rfl, rfl⟩ := Prod.mk.inj (Option.some.inj hserved)
      obtain ⟨login, hmem, hlabel⟩ := hs.summary hsome
      exact ⟨login, hmem, hlabel.symm⟩
  · unfold accountPortfolio at hserved
    split at hserved
    · cases hserved
    · rename_i hsome
      obtain rfl := Option.some.inj hserved
      obtain ⟨login, hmem, hlabel⟩ := hs.portfolio hsome
      exact ⟨login, hmem, hlabel.symm⟩
  · rw [← hs.cold]
    unfold accountSummary
    split
    · rename_i hnone
      exact iff_of_true rfl hnone
    · rename_i hsome
      exact iff_of_false (by simp) hsome

end Refresh

/-- The gateway logs in as `DU2` between two ticks, and the positions of `DU2` do not come. -/
def loginChanges : List (Label ℤ String) :=
  [.start, .connect (some ["DU1"]), .summary 1 (some [("NetLiquidation", some 5)]),
    .portfolio 2 (some ["AAPL"]), .connect none, .summary 31 none, .connect (some ["DU2"]),
    .summary 61 (some [("NetLiquidation", some 7), ("Other", some 1)])]

theorem served_labelled_login : ∃ s : Snapshot ℤ String, accountPortfolio s = none ∧
    ∃ summary login, (login, summary) ∈ s.fetchedSummaries ∧
      resolveAccountId login = some "DU2" := by
  have hend : ∃ s ∈ (snapshotSystem ℤ String).run .initial loginChanges,
      accountPortfolio s = none ∧
        (accountSummary s).map (fun served => served.2) = some (some "DU2") := by
    decide +kernel
  obtain ⟨s, hrun, hportfolio, hserved⟩ := hend
  obtain ⟨⟨summary, accountId⟩, hsummary, hid⟩ := Option.map_eq_some_iff.mp hserved
  obtain ⟨login, hmem, hlabel⟩ := (served_labelled (Path.of_run hrun)).1 summary accountId hsummary
  exact ⟨s, hportfolio, summary, login, hmem, hlabel.trans hid⟩

end Msai.Gateway.AccountSnapshot
