import Msai.Lib.Transition
import Msai.Live.DeploymentIdentity
import Msai.Supervisor.Rows

namespace Msai.Live.StartPortfolio

open Msai.Lib Msai.Lib.TransitionSystem Msai.Portfolio Msai.Live.DeploymentIdentity
open Msai.Supervisor (Status)

/-!
# Concurrent starts of portfolios (`api/live.py`, the final critical section of `/start-portfolio`)

A start locks the row of its revision, looks for a deployment of the same revision and account
under another identity, and upserts its own row by the signature.  The lock is held until the
commit that the upsert ends with; starts of other revisions run meanwhile.

* `upsert` — the `INSERT … ON CONFLICT (identity_signature) DO UPDATE`, with the constraints of the
  table: the primary key, the slug, the signature, and revision with account;
* `startSystem` — any number of starts, and the other writers of the status column;
* `Serialized` — the invariant: what a start has checked under its lock stays true until its upsert;
* `starts_share_iff` — the deployments that the starts are answered with.

The row lock of the broker account, which serializes a start with the archive, is not part of it.
-/

/-! ### The table -/

/-- The columns of a `live_deployments` row that identify it, and its status. -/
structure LiveDeployment where
  id : Uuid
  deploymentSlug : String
  identitySignature : String
  portfolioRevisionId : Uuid
  accountId : String
  paperTrading : Bool
  ibLoginKey : String
  status : Status
deriving DecidableEq

/-- `uq_live_deployments_revision_account`. -/
def LiveDeployment.place (d : LiveDeployment) : Uuid × String :=
  (d.portfolioRevisionId, d.accountId)

inductive StartAnswer
  | accepted (deploymentId : Uuid) (warmRestart : Bool)
  /-- 422 `LIVE_DEPLOY_CONFLICT`. -/
  | conflict (existingDeploymentId : Uuid)
  /-- `scalar_one_or_none` has met more than one row. -/
  | multipleResults
  /-- The `IntegrityError` of revision and account. -/
  | integrityError
  /-- The `IntegrityError` of an id or a slug that is taken. -/
  | drawTaken
deriving DecidableEq

/-- `existing_collision`. -/
def collisions (sha : String → String) (table : List LiveDeployment) (start : PortfolioStart) :
    List LiveDeployment :=
  table.filter fun d => d.place = start.place ∧
    d.identitySignature ≠ start.identitySignature sha

/-- The DO UPDATE: an active row keeps its status. -/
def LiveDeployment.restarted (d : LiveDeployment) : LiveDeployment :=
  { d with status := if d.status.isLive then d.status else .starting }

/-- `upsert_stmt`, with the `id` and the `slug` that were drawn for a new row. -/
def upsert (sha : String → String) (table : List LiveDeployment) (start : PortfolioStart)
    (id : Uuid) (slug : String) : StartAnswer × List LiveDeployment :=
  match table.find? fun d => d.identitySignature = start.identitySignature sha with
  | some row =>
    (.accepted row.id (row.deploymentSlug ≠ slug),
      table.map fun d =>
        if d.identitySignature = start.identitySignature sha then d.restarted else d)
  | none =>
    if table.any fun d => d.place = start.place then (.integrityError, table)
    else if table.any fun d => d.id = id ∨ d.deploymentSlug = slug then (.drawTaken, table)
    else
      (.accepted id false,
        table ++
          [⟨id, slug, start.identitySignature sha, start.portfolioRevisionId, start.accountId,
            start.paperTrading, start.ibLoginKey, .starting⟩])

/-! ### The starts -/

/-- Where a start is in the critical section. -/
inductive StartPhase
  /-- Before the `SELECT … FOR UPDATE` of its revision. -/
  | arrived
  | locked
  /-- It has found no collision. -/
  | rechecked
  | answered (a : StartAnswer)
  /-- It has raised, and its transaction was rolled back. -/
  | raised
deriving DecidableEq

structure StartRequest where
  start : PortfolioStart
  phase : StartPhase
deriving DecidableEq

/-- It holds the lock of its revision. -/
def StartRequest.holds (r : StartRequest) : Bool := r.phase = .locked ∨ r.phase = .rechecked

structure StartSite where
  table : List LiveDeployment
  requests : List StartRequest

def StartSite.initial : StartSite := ⟨[], []⟩

inductive StartLabel
  | arrive (start : PortfolioStart)
  | lock (i : ℕ)
  | recheck (i : ℕ)
  | upsert (i : ℕ) (id : Uuid) (slug : String)
  | raise (i : ℕ)
  /-- A write of the supervisor, of a subprocess, or of another handler. -/
  | setStatus (id : Uuid) (status : Status)
deriving DecidableEq

def StartSite.setPhase (s : StartSite) (i : ℕ) (r : StartRequest) (phase : StartPhase) :
    StartSite :=
  { s with requests := s.requests.set i { r with phase := phase } }

def startStep (sha : String → String) (s : StartSite) : StartLabel → Option StartSite
  | .arrive start => some { s with requests := s.requests ++ [⟨start, .arrived⟩] }
  | .lock i =>
    s.requests[i]?.bind fun r =>
      -- a held lock is waited for
      if r.phase = .arrived ∧ ∀ r' ∈ s.requests, r'.holds →
          r'.start.portfolioRevisionId ≠ r.start.portfolioRevisionId then
        some (s.setPhase i r .locked)
      else none
  | .recheck i =>
    s.requests[i]?.bind fun r =>
      if r.phase = .locked then
        match collisions sha s.table r.start with
        | [] => some (s.setPhase i r .rechecked)
        | [d] => some (s.setPhase i r (.answered (.conflict d.id)))
        | _ => some (s.setPhase i r (.answered .multipleResults))
      else none
  | .upsert i id slug =>
    s.requests[i]?.bind fun r =>
      if r.phase = .rechecked then
        match upsert sha s.table r.start id slug with
        | (a, table) => some ({ s with table := table }.setPhase i r (.answered a))
      else none
  | .raise i =>
    s.requests[i]?.bind fun r => if r.holds then some (s.setPhase i r .raised) else none
  | .setStatus id status =>
    some
      { s with
        table := s.table.map fun d => if d.id = id then { d with status := status } else d }

def startSystem (sha : String → String) : TransitionSystem StartSite StartLabel := ⟨startStep sha⟩

/-! ### What the lock protects -/

/-- The columns that no writer changes. -/
structure FixedColumns where
  id : Uuid
  identitySignature : String
  place : Uuid × String

def LiveDeployment.fixed (d : LiveDeployment) : FixedColumns := ⟨d.id, d.identitySignature, d.place⟩

/-- What an answer says about the table. -/
def AnswerTrue (sha : String → String) (rows : List FixedColumns) (start : PortfolioStart) :
    StartAnswer → Prop
  | .accepted id _ =>
    ∃ x ∈ rows, x.id = id ∧ x.identitySignature = start.identitySignature sha ∧
      x.place = start.place
  | .conflict id =>
    ∃ x ∈ rows, x.id = id ∧ x.identitySignature ≠ start.identitySignature sha ∧
      x.place = start.place
  | .multipleResults => False
  | .integrityError => False
  | .drawTaken => True

/-- The constraints of the table, one holder of each lock, and the checks and answers given. -/
structure Serialized (sha : String → String) (rows : List FixedColumns)
    (requests : List StartRequest) : Prop where
  ids : (rows.map (·.id)).Nodup
  signatures : (rows.map (·.identitySignature)).Nodup
  places : (rows.map (·.place)).Nodup
  exclusive : ∀ (i j : ℕ) (r r' : StartRequest), requests[i]? = some r → requests[j]? = some r' →
    r.holds → r'.holds → r.start.portfolioRevisionId = r'.start.portfolioRevisionId → i = j
  rechecked : ∀ r ∈ requests, r.phase = .rechecked → ∀ x ∈ rows,
    x.place = r.start.place → x.identitySignature = r.start.identitySignature sha
  answered : ∀ r ∈ requests, ∀ a, r.phase = .answered a → AnswerTrue sha rows r.start a

/-- Every row was inserted for a request that was answered with it. -/
def Originated (sha : String → String) (rows : List FixedColumns) (requests : List StartRequest) :
    Prop :=
  ∀ x ∈ rows, ∃ r ∈ requests, (∃ w, r.phase = .answered (.accepted x.id w)) ∧
    x.identitySignature = r.start.identitySignature sha ∧ x.place = r.start.place

section Serialized

variable {sha : String → String} {s t : StartSite} {a : StartLabel} {rows : List FixedColumns}
  {requests : List StartRequest} {r : StartRequest} {i : ℕ} {phase : StartPhase}
  {table : List LiveDeployment} {start : PortfolioStart} {id : Uuid} {slug : String}

theorem AnswerTrue.mono {rows' : List FixedColumns} {answer : StartAnswer}
    (h : AnswerTrue sha rows start answer) (hrows : ∀ x ∈ rows, x ∈ rows') :
    AnswerTrue sha rows' start answer := by
  cases answer with
  | accepted id w =>
    obtain ⟨x, hx, hvalues⟩ := h
    exact ⟨x, hrows x hx, hvalues⟩
  | conflict id =>
    obtain ⟨x, hx, hvalues⟩ := h
    exact ⟨x, hrows x hx, hvalues⟩
  | multipleResults => exact h
  | integrityError => exact h
  | drawTaken => trivial

/-- A request moves on: to the lock only if nobody else has it, and to what is true. -/
theorem Serialized.move (h : Serialized sha rows requests) (hr : requests[i]? = some r)
    (hholds : ({ r with phase := phase } : StartRequest).holds → r.holds ∨
      ∀ r' ∈ requests, r'.holds → r'.start.portfolioRevisionId ≠ r.start.portfolioRevisionId)
    (hrechecked : phase = .rechecked → ∀ x ∈ rows, x.place = r.start.place →
      x.identitySignature = r.start.identitySignature sha)
    (hanswered : ∀ a, phase = .answered a → AnswerTrue sha rows r.start a) :
    Serialized sha rows (requests.set i { r with phase := phase }) := by
  refine ⟨h.ids, h.signatures, h.places, ?_, ?_, ?_⟩
  · -- the mover against another request `r'`
    have hmover : ∀ j r', requests[j]? = some r' → j ≠ i →
        ({ r with phase := phase } : StartRequest).holds → r'.holds →
        r.start.portfolioRevisionId ≠ r'.start.portfolioRevisionId := by
      intro j r' hr' hj hnew hold hrevision
      rcases hholds hnew with hbefore | hfree
      · exact hj (h.exclusive j i r' r hr' hr hold hbefore hrevision.symm)
      · exact hfree r' (List.mem_of_getElem? hr') hold hrevision.symm
    intro j k r₁ r₂ h₁ h₂ hold₁ hold₂ hrevision
    rcases getElem?_set_cases h₁ with ⟨rfl, rfl⟩ | ⟨hj, hleft⟩
    · rcases getElem?_set_cases h₂ with ⟨rfl, _⟩ | ⟨hk, hright⟩
      · rfl
      · exact absurd hrevision (hmover k r₂ hright hk hold₁ hold₂)
    · rcases getElem?_set_cases h₂ with ⟨rfl, rfl⟩ | ⟨hk, hright⟩
      · exact absurd hrevision.symm (hmover j r₁ hleft hj hold₂ hold₁)
      · exact h.exclusive j k r₁ r₂ hleft hright hold₁ hold₂ hrevision
  · intro r' hr' hphase
    rcases List.mem_or_eq_of_mem_set hr' with hold | rfl
    · exact h.rechecked r' hold hphase
    · exact hrechecked hphase
  · intro r' hr' a hphase
    rcases List.mem_or_eq_of_mem_set hr' with hold | rfl
    · exact h.answered r' hold a hphase
    · exact hanswered a hphase

theorem Originated.move (h : Originated sha rows requests) (hr : requests[i]? = some r)
    (hopen : ∀ a, r.phase ≠ .answered a) :
    Originated sha rows (requests.set i { r with phase := phase }) := by
  intro x hx
  obtain ⟨r', hr', ⟨w, hphase⟩, hvalues⟩ := h x hx
  obtain ⟨j, hj⟩ := List.mem_iff_getElem?.mp hr'
  have hne : i ≠ j := by
    rintro rfl
    obtain rfl := Option.some.inj (hr.symm.trans hj)
    exact hopen _ hphase
  refine ⟨r', List.mem_of_getElem? (i := j) ?_, ⟨w, hphase⟩, hvalues⟩
  rwa [List.getElem?_set_ne hne]

/-- A request arrives. -/
theorem Serialized.arrive (h : Serialized sha rows requests) :
    Serialized sha rows (requests ++ [⟨start, .arrived⟩]) := by
  have hlast : ∀ r ∈ requests ++ [⟨start, .arrived⟩], r ∈ requests ∨ r.phase = .arrived := by
    intro r hr
    rcases List.mem_append.mp hr with hold | hnew
    · exact Or.inl hold
    · exact Or.inr (by rw [List.mem_singleton.mp hnew])
  refine ⟨h.ids, h.signatures, h.places, ?_, ?_, ?_⟩
  · intro i j r r' hi hj hr hr' hrevision
    rcases getElem?_concat_cases hi with ⟨_, rfl⟩ | hi
    · simp [StartRequest.holds] at hr
    · rcases getElem?_concat_cases hj with ⟨_, rfl⟩ | hj
      · simp [StartRequest.holds] at hr'
      · exact h.exclusive i j r r' hi hj hr hr' hrevision
  · intro r hr hphase
    rcases hlast r hr with hold | hnew
    · exact h.rechecked r hold hphase
    · rw [hnew] at hphase
      cases hphase
  · intro r hr a hphase
    rcases hlast r hr with hold | hnew
    · exact h.answered r hold a hphase
    · rw [hnew] at hphase
      cases hphase

theorem nodup_map_concat {β : Type} {f : FixedColumns → β} {x : FixedColumns}
    (h : (rows.map f).Nodup) (hx : f x ∉ rows.map f) : ((rows ++ [x]).map f).Nodup := by
  rw [List.map_append, List.map_singleton]
  exact List.Nodup.append h (List.nodup_singleton _) (by simpa [List.Disjoint] using hx)

/-- A request that has found no collision inserts its row: what the others have checked stays true,
    since they hold the locks of other revisions. -/
theorem Serialized.insert {x : FixedColumns} (h : Serialized sha rows requests)
    (hr : requests[i]? = some r) (hphase : r.phase = .rechecked)
    (hid : x.id ∉ rows.map (·.id)) (hplace : x.place ∉ rows.map (·.place))
    (hsignature : x.identitySignature ∉ rows.map (·.identitySignature))
    (hx : x.identitySignature = r.start.identitySignature sha)
    (hx' : x.place = r.start.place) : Serialized sha (rows ++ [x]) requests := by
  refine ⟨nodup_map_concat h.ids hid, nodup_map_concat h.signatures hsignature,
    nodup_map_concat h.places hplace, h.exclusive, ?_, ?_⟩
  · intro r' hr' hphase' y hy hy'
    rcases List.mem_append.mp hy with hold | hnew
    · exact h.rechecked r' hr' hphase' y hold hy'
    · obtain rfl := List.mem_singleton.mp hnew
      obtain ⟨j, hj⟩ := List.mem_iff_getElem?.mp hr'
      have hrevision := congrArg Prod.fst (hx'.symm.trans hy')
      obtain rfl := h.exclusive i j r r' hr hj (by simp [StartRequest.holds, hphase])
        (by simp [StartRequest.holds, hphase']) hrevision
      obtain rfl := Option.some.inj (hr.symm.trans hj)
      exact hx
  · intro r' hr' a ha
    exact (h.answered r' hr' a ha).mono fun y hy => List.mem_append_left _ hy

/-! ### One step -/

theorem map_fixed_eq {f : LiveDeployment → LiveDeployment} (hf : ∀ d, (f d).fixed = d.fixed) :
    (table.map f).map LiveDeployment.fixed = table.map LiveDeployment.fixed := by
  rw [List.map_map]
  exact List.map_congr_left fun d _ => hf d

/-- What the statement does. -/
theorem upsert_cases (sha : String → String) (table : List LiveDeployment) (start : PortfolioStart)
    (id : Uuid) (slug : String) :
    (∃ d ∈ table, ∃ w table', d.identitySignature = start.identitySignature sha ∧
      upsert sha table start id slug = (.accepted d.id w, table') ∧
      table'.map LiveDeployment.fixed = table.map LiveDeployment.fixed) ∨
    ((∀ d ∈ table, d.identitySignature ≠ start.identitySignature sha) ∧
      ((∃ d ∈ table, d.place = start.place ∧
          upsert sha table start id slug = (.integrityError, table)) ∨
        upsert sha table start id slug = (.drawTaken, table) ∨
        ((∀ d ∈ table, d.place ≠ start.place ∧ d.id ≠ id) ∧
          ∃ d : LiveDeployment,
            d.fixed = ⟨id, start.identitySignature sha, start.place⟩ ∧
            upsert sha table start id slug = (.accepted id false, table ++ [d])))) := by
  unfold upsert
  cases hfind : table.find? fun d => d.identitySignature = start.identitySignature sha with
  | some row =>
    refine Or.inl ⟨row, List.mem_of_find?_eq_some hfind, _, _,
      by simpa using List.find?_some hfind, rfl, map_fixed_eq fun d => ?_⟩
    split <;> rfl
  | none =>
    refine Or.inr ⟨by simpa using hfind, ?_⟩
    simp only
    by_cases hplace : table.any fun d => d.place = start.place
    · obtain ⟨d, hd, hd'⟩ := List.any_eq_true.mp hplace
      exact Or.inl ⟨d, hd, by simpa using hd', if_pos hplace⟩
    · rw [if_neg hplace]
      by_cases hdraw : table.any fun d => d.id = id ∨ d.deploymentSlug = slug
      · exact Or.inr (Or.inl (if_pos hdraw))
      · rw [if_neg hdraw]
        refine Or.inr (Or.inr ⟨fun d hd => ⟨?_, ?_⟩, _, rfl, rfl⟩)
        · simp only [List.any_eq_true, not_exists, not_and] at hplace
          simpa using hplace d hd
        · simp only [List.any_eq_true, not_exists, not_and] at hdraw
          have := hdraw d hd
          simp only [decide_eq_true_eq, not_or] at this
          exact this.1

theorem collisions_nodup (hplaces : (table.map LiveDeployment.place).Nodup) :
    (collisions sha table start).length ≤ 1 := by
  have hsub : ((collisions sha table start).map LiveDeployment.place).Nodup :=
    hplaces.sublist (List.filter_sublist.map _)
  have hsame : ∀ p ∈ (collisions sha table start).map LiveDeployment.place, p = start.place := by
    intro p hp
    obtain ⟨d, hd, rfl⟩ := List.mem_map.mp hp
    have hfilter := (List.mem_filter.mp hd).2
    simp only [decide_eq_true_eq] at hfilter
    exact hfilter.1
  match hlist : collisions sha table start with
  | [] => simp
  | [_] => simp
  | d :: e :: rest =>
    rw [hlist] at hsub hsame
    have hd := hsame d.place (by simp)
    have he := hsame e.place (by simp)
    simp [hd, he] at hsub

/-- The invariant of the starts. -/
def StartSite.Good (sha : String → String) (s : StartSite) : Prop :=
  Serialized sha (s.table.map LiveDeployment.fixed) s.requests ∧
    Originated sha (s.table.map LiveDeployment.fixed) s.requests

theorem good_initial : StartSite.Good sha .initial := by
  refine ⟨⟨by simp [StartSite.initial], by simp [StartSite.initial], by simp [StartSite.initial],
    ?_, ?_, ?_⟩, ?_⟩
  · intro i j r r' hi
    cases hi
  · intro r hr
    cases hr
  · intro r hr
    cases hr
  · intro x hx
    cases hx

/-- A row with the signature of a start has its revision and account. -/
theorem Originated.place_eq (h : Originated sha rows requests) (hsha : Function.Injective sha)
    {x : FixedColumns} (hx : x ∈ rows)
    (hsig : x.identitySignature = start.identitySignature sha) : x.place = start.place := by
  obtain ⟨r, _, _, hr, hplace⟩ := h x hx
  have hsame := (identitySignature_eq_iff hsha).mp (hr.symm.trans hsig)
  rw [hplace]
  exact Prod.ext hsame.2.1 hsame.2.2.1

/-- The request is answered with what the statement has done. -/
theorem good_upsert (hsha : Function.Injective sha) (h : s.Good sha)
    (hr : s.requests[i]? = some r) (hphase : r.phase = .rechecked)
    {answer : StartAnswer} (hu : upsert sha s.table r.start id slug = (answer, table)) :
    StartSite.Good sha ({ s with table := table }.setPhase i r (.answered answer)) := by
  obtain ⟨hser, horig⟩ := h
  have hopen : ∀ a, r.phase ≠ .answered a := by simp [hphase]
  have hanswer : ∀ {rows : List FixedColumns}, Serialized sha rows s.requests →
      AnswerTrue sha rows r.start answer →
      Serialized sha rows (s.requests.set i { r with phase := .answered answer }) := by
    intro rows hrows htrue
    refine hrows.move hr (fun hnew => by simp [StartRequest.holds] at hnew) (fun h => by cases h) ?_
    intro a ha
    rwa [← StartPhase.answered.inj ha]
  show Serialized sha (table.map _) _ ∧ Originated sha (table.map _) _
  rcases upsert_cases sha s.table r.start id slug with ⟨d, hd, w, table', hsig, heq, hfixed⟩ |
      ⟨hnew, ⟨d, hd, hplace, _⟩ | heq | ⟨hfresh, d, hd, heq⟩⟩
  · -- the row is there already
    obtain ⟨rfl, rfl⟩ := Prod.mk.inj (heq.symm.trans hu)
    have hmem : d.fixed ∈ s.table.map LiveDeployment.fixed := List.mem_map_of_mem hd
    rw [hfixed]
    exact ⟨hanswer hser ⟨d.fixed, hmem, rfl, hsig, horig.place_eq hsha hmem hsig⟩,
      horig.move hr hopen⟩
  · -- a row of the same place has the signature, as the check under the lock has found
    exact absurd (hser.rechecked r (List.mem_of_getElem? hr) hphase d.fixed
      (List.mem_map_of_mem hd) hplace) (hnew d hd)
  · obtain ⟨rfl, rfl⟩ := Prod.mk.inj (heq.symm.trans hu)
    exact ⟨hanswer hser trivial, horig.move hr hopen⟩
  · -- a row is inserted
    obtain ⟨rfl, rfl⟩ := Prod.mk.inj (heq.symm.trans hu)
    rw [List.map_append, List.map_singleton, hd]
    have hlast : (⟨id, r.start.identitySignature sha, r.start.place⟩ : FixedColumns) ∈
        s.table.map LiveDeployment.fixed ++ [⟨id, r.start.identitySignature sha, r.start.place⟩] :=
      List.mem_append_right _ (List.mem_singleton_self _)
    refine ⟨hanswer (hser.insert hr hphase ?_ ?_ ?_ rfl rfl) ⟨_, hlast, rfl, rfl, rfl⟩, ?_⟩
    · simpa [LiveDeployment.fixed] using fun d hd => (hfresh d hd).2
    · simpa [LiveDeployment.fixed] using fun d hd => (hfresh d hd).1
    · simpa [LiveDeployment.fixed] using hnew
    · intro x hx
      rcases List.mem_append.mp hx with hold | hlast
      · exact horig.move hr hopen x hold
      · obtain rfl := List.mem_singleton.mp hlast
        refine ⟨{ r with phase := .answered (.accepted id false) },
          List.mem_of_getElem? (i := i) ?_, ⟨false, rfl⟩, rfl, rfl⟩
        exact List.getElem?_set_self (List.getElem?_eq_some_iff.mp hr).1

/-- A request moves on and the table stays. -/
theorem good_setPhase (h : s.Good sha) (hr : s.requests[i]? = some r)
    (hopen : ∀ a, r.phase ≠ .answered a)
    (hholds : ({ r with phase := phase } : StartRequest).holds → r.holds ∨
      ∀ r' ∈ s.requests, r'.holds → r'.start.portfolioRevisionId ≠ r.start.portfolioRevisionId)
    (hrechecked : phase = .rechecked → ∀ d ∈ s.table, d.place = r.start.place →
      d.identitySignature = r.start.identitySignature sha)
    (hanswered : ∀ a, phase = .answered a →
      AnswerTrue sha (s.table.map LiveDeployment.fixed) r.start a) :
    StartSite.Good sha (s.setPhase i r phase) := by
  refine ⟨h.1.move hr hholds ?_ hanswered, h.2.move hr hopen⟩
  intro hphase x hx hplace
  obtain ⟨d, hd, rfl⟩ := List.mem_map.mp hx
  exact hrechecked hphase d hd hplace

theorem good_recheck (h : s.Good sha) (hr : s.requests[i]? = some r) (hphase : r.phase = .locked)
    (hstep : (match collisions sha s.table r.start with
      | [] => some (s.setPhase i r .rechecked)
      | [d] => some (s.setPhase i r (.answered (.conflict d.id)))
      | _ => some (s.setPhase i r (.answered .multipleResults))) = some t) : t.Good sha := by
  have hopen : ∀ a, r.phase ≠ .answered a := by simp [hphase]
  have hplaces : (s.table.map LiveDeployment.place).Nodup := by
    simpa [LiveDeployment.fixed, Function.comp_def] using h.1.places
  have hone := @collisions_nodup sha s.table r.start hplaces
  have hmem : ∀ d, d ∈ collisions sha s.table r.start ↔ d ∈ s.table ∧ d.place = r.start.place ∧
      d.identitySignature ≠ r.start.identitySignature sha := by
    intro d
    simp [collisions]
  split at hstep
  · rename_i hnone
    rw [← Option.some.inj hstep]
    refine good_setPhase h hr hopen ?_ ?_ (fun a ha => by cases ha)
    · exact fun _ => Or.inl (by simp [StartRequest.holds, hphase])
    · intro _ d hd hplace
      by_contra hsig
      have := (hmem d).mpr ⟨hd, hplace, hsig⟩
      simp [hnone] at this
  · rename_i d hsingle
    rw [← Option.some.inj hstep]
    obtain ⟨hd, hplace, hsig⟩ := (hmem d).mp (by simp [hsingle])
    refine good_setPhase h hr hopen (fun hnew => by simp [StartRequest.holds] at hnew)
      (fun h => by cases h) ?_
    intro a ha
    rw [← StartPhase.answered.inj ha]
    exact ⟨d.fixed, List.mem_map_of_mem hd, rfl, hsig, hplace⟩
  · rename_i hnil hsingle
    match hlist : collisions sha s.table r.start with
    | [] => exact absurd hlist hnil
    | [d] => exact absurd hlist (hsingle d)
    | _ :: _ :: _ => simp [hlist] at hone

/-- One step keeps the invariant. -/
theorem good_step (hsha : Function.Injective sha) (h : s.Good sha)
    (hs : startStep sha s a = some t) : t.Good sha := by
  cases a with
  | arrive start =>
    simp only [startStep, Option.some.injEq] at hs
    subst hs
    refine ⟨h.1.arrive, fun x hx => ?_⟩
    obtain ⟨r, hr, hvalues⟩ := h.2 x hx
    exact ⟨r, List.mem_append_left _ hr, hvalues⟩
  | lock i =>
    obtain ⟨r, hr, hs⟩ := Option.bind_eq_some_iff.mp hs
    split at hs
    · rename_i hfree
      rw [← Option.some.inj hs]
      exact good_setPhase h hr (by simp [hfree.1]) (fun _ => Or.inr hfree.2) (fun h => by cases h)
        (fun a ha => by cases ha)
    · cases hs
  | recheck i =>
    obtain ⟨r, hr, hs⟩ := Option.bind_eq_some_iff.mp hs
    split at hs
    · rename_i hphase
      exact good_recheck h hr hphase hs
    · cases hs
  | upsert i id slug =>
    obtain ⟨r, hr, hs⟩ := Option.bind_eq_some_iff.mp hs
    split at hs
    · rename_i hphase
      rw [← Option.some.inj hs]
      exact good_upsert hsha h hr hphase rfl
    · cases hs
  | raise i =>
    obtain ⟨r, hr, hs⟩ := Option.bind_eq_some_iff.mp hs
    split at hs
    · rename_i hholds
      rw [← Option.some.inj hs]
      refine good_setPhase h hr ?_ (fun hnew => by simp [StartRequest.holds] at hnew)
        (fun h => by cases h) (fun a ha => by cases ha)
      intro a ha
      simp [StartRequest.holds, ha] at hholds
    · cases hs
  | setStatus id status =>
    simp only [startStep, Option.some.injEq] at hs
    subst hs
    show Serialized sha (List.map _ (s.table.map _)) _ ∧
      Originated sha (List.map _ (s.table.map _)) _
    rw [map_fixed_eq fun d => by split <;> rfl]
    exact h

theorem Good.of_path {labels : List StartLabel} (hsha : Function.Injective sha)
    (h : Path (startSystem sha) anyStep .initial labels s) : s.Good sha :=
  h.invariant (I := StartSite.Good sha) (fun _ _ _ hgood _ hs => good_step hsha hgood hs)
    good_initial

end Serialized

/-- **Concurrent starts and their deployments.**  Whatever starts run at once, and wherever one of
    them raises: two accepted starts are answered with one deployment exactly if they agree in the
    caller, the revision, the account, the mode and the login; accepted starts of one revision and
    account agree in all of it; a start is refused only for an accepted one of its revision and
    account that differs from it; and none fails at the constraint on revision and account. -/
theorem starts_share_iff {sha : String → String} (hsha : Function.Injective sha)
    {labels : List StartLabel} {s : StartSite}
    (h : Path (startSystem sha) anyStep .initial labels s) :
    (∀ r ∈ s.requests, ∀ r' ∈ s.requests, ∀ d d' w w', r.phase = .answered (.accepted d w) →
      r'.phase = .answered (.accepted d' w') → (d = d' ↔ r.start.SameIdentity r'.start)) ∧
    (∀ r ∈ s.requests, ∀ r' ∈ s.requests, ∀ d d' w w', r.phase = .answered (.accepted d w) →
      r'.phase = .answered (.accepted d' w') → r.start.place = r'.start.place →
        r.start.SameIdentity r'.start) ∧
    (∀ r ∈ s.requests, ∀ d, r.phase = .answered (.conflict d) → ∃ r' ∈ s.requests,
      (∃ w, r'.phase = .answered (.accepted d w)) ∧ r'.start.place = r.start.place ∧
        ¬ r.start.SameIdentity r'.start) ∧
    ∀ r ∈ s.requests, r.phase ≠ .answered .integrityError ∧
      r.phase ≠ .answered .multipleResults := by
  obtain ⟨hser, horig⟩ := Good.of_path hsha h
  refine ⟨?_, ?_, ?_, ?_⟩
  · intro r hr r' hr' d d' w w' hd hd'
    obtain ⟨x, hx, rfl, hsig, _⟩ := hser.answered r hr _ hd
    obtain ⟨y, hy, rfl, hsig', _⟩ := hser.answered r' hr' _ hd'
    rw [← identitySignature_eq_iff hsha, ← hsig, ← hsig']
    constructor
    · intro hid
      rw [List.inj_on_of_nodup_map hser.ids hx hy hid]
    · intro hsame
      rw [List.inj_on_of_nodup_map hser.signatures hx hy hsame]
  · intro r hr r' hr' d d' w w' hd hd' hplace
    obtain ⟨x, hx, _, hsig, hxplace⟩ := hser.answered r hr _ hd
    obtain ⟨y, hy, _, hsig', hyplace⟩ := hser.answered r' hr' _ hd'
    have hrow : x = y :=
      List.inj_on_of_nodup_map hser.places hx hy (by rw [hxplace, hyplace, hplace])
    rw [← identitySignature_eq_iff hsha, ← hsig, ← hsig', hrow]
  · intro r hr d hd
    obtain ⟨x, hx, rfl, hsig, hplace⟩ := hser.answered r hr _ hd
    obtain ⟨r', hr', hphase, hsig', hplace'⟩ := horig x hx
    refine ⟨r', hr', hphase, hplace'.symm.trans hplace, fun hsame => hsig ?_⟩
    rw [hsig', (identitySignature_eq_iff hsha).mpr hsame]
  · intro r hr
    exact ⟨fun ha => hser.answered r hr _ ha, fun ha => hser.answered r hr _ ha⟩

/-- Two users race for one revision and account. -/
def startsRace : List StartLabel :=
  [.arrive ⟨some 1, none, 7, "DU1", true, "login"⟩, .arrive ⟨some 2, none, 7, "DU1", true, "login"⟩,
    .lock 0, .recheck 0, .upsert 0 100 "aa", .setStatus 100 .running, .lock 1, .recheck 1]

theorem starts_share_race : ∃ s, Path (startSystem id) anyStep .initial startsRace s ∧
    s.requests.map (·.phase) = [.answered (.accepted 100 false), .answered (.conflict 100)] ∧
    ∀ r ∈ s.requests, r.phase ≠ .answered .integrityError ∧
      r.phase ≠ .answered .multipleResults := by
  have hrun : ((startSystem id).run .initial startsRace).map (fun s => s.requests.map (·.phase)) =
      some [.answered (.accepted 100 false), .answered (.conflict 100)] := by
    decide +kernel
  obtain ⟨s, hs, hphases⟩ := Option.map_eq_some_iff.mp hrun
  have hpath := Path.of_run hs
  exact ⟨s, hpath, hphases, (starts_share_iff Function.injective_id hpath).2.2.2⟩

end Msai.Live.StartPortfolio
