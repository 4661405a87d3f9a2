import Msai.Instruments.LiveResolver

namespace Msai.Instruments

open Msai.Lib Msai.Lib.TransitionSystem

/-!
# The history of aliases

A call of `_upsert_definition_and_alias` gives its instrument an alias from the effective date on.
Beside the registry stands a log of these gifts, and the windows of the rows are compared with it.

* `LoggedRegistry`, `loggedStep` — the registry with the log; `lastUpserted` — the last alias an
  instrument was given on or before a date;
* `OwnAlias` — no two definitions of a provider share an alias string;
* `Recorded` — the invariant: the windows that contain a date are those of the log;
* `KeepsPast`, `HistoryKept` — the past does not change, and every date has one alias, which the
  live lookup finds;
* `alias_history_kept` — the theorem over all sequences of calls.
-/

/-! ### The log -/

/-- An alias an instrument was given, with the date it holds from: the date of the call, or
    1900-01-01 for the first alias of a class without expiry. -/
structure Upserted where
  instrumentUid : ℕ
  aliasString : String
  effectiveFrom : ℕ
deriving DecidableEq, Repr

/-- The registry with the log of its calls. -/
structure LoggedRegistry where
  registry : Registry
  log : List Upserted

/-- An empty registry. -/
def LoggedRegistry.initial : LoggedRegistry := { registry := .initial, log := [] }

/-- What a call writes, with its arguments as they are stored. -/
def entryOf (s : Registry) (c : UpsertArgs) : Upserted :=
  { instrumentUid := instrumentUid s c, aliasString := c.aliasString
    effectiveFrom := effectiveFrom s c (instrumentUid s c) }

/-- What a call adds to the log; nothing if it raises. -/
def logged (s : Registry) (c : UpsertArgs) : List Upserted :=
  match prepare c with
  | .error _ => []
  | .ok c' =>
    match upsertStored s c' with
    | .error _ => []
    | .ok _ => [entryOf s c']

/-- One call. -/
def loggedStep (s : LoggedRegistry) (c : UpsertArgs) : Option LoggedRegistry :=
  (registryStep s.registry c).map fun t => { registry := t, log := s.log ++ logged s.registry c }

/-- The calls as a transition system. -/
def loggedSystem : TransitionSystem LoggedRegistry UpsertArgs where
  step := loggedStep

/-- The last alias an instrument was given on or before a date. -/
def lastUpserted (log : List Upserted) (uid asOf : ℕ) : Option String :=
  ((log.filter fun e => e.instrumentUid == uid && decide (e.effectiveFrom ≤ asOf)).getLast?).map
    (·.aliasString)

/-- The first alias an instrument was given. -/
def firstUpserted (log : List Upserted) (uid : ℕ) : Option Upserted :=
  log.find? fun e => e.instrumentUid == uid

/-- A row of the instrument has the alias on a date. -/
def ActiveAlias (s : Registry) (uid asOf : ℕ) (a : String) : Prop :=
  ∃ r ∈ s.aliases, r.instrumentUid = uid ∧ r.aliasString = a ∧ r.activeOn asOf = true

/-! ### The properties -/

/-- No row of another instrument has the alias of the call. -/
def ownAlias (s : Registry) (c : UpsertArgs) : Bool :=
  match prepare c with
  | .error _ => true
  | .ok c' => s.aliases.all fun r =>
      !(r.provider == c'.provider && r.aliasString == c'.aliasString)
        || r.instrumentUid == instrumentUid s c'

/-- No two definitions of one provider share an alias string. -/
def OwnAlias (s : LoggedRegistry) (c : UpsertArgs) : Prop := ownAlias s.registry c = true

instance (s : LoggedRegistry) (c : UpsertArgs) : Decidable (OwnAlias s c) :=
  inferInstanceAs (Decidable (ownAlias s.registry c = true))

/-- A call changes no alias on a date before its own, of an instrument that is registered. -/
def KeepsPast (s : LoggedRegistry) (c : UpsertArgs) : Prop :=
  ∀ t, loggedStep s c = some t → ∀ d ∈ s.registry.definitions, ∀ asOf < c.today, ∀ a,
    ActiveAlias t.registry d.instrumentUid asOf a ↔ ActiveAlias s.registry d.instrumentUid asOf a

/-- What the live lookup of an alias returns on a date. -/
def LooksUp (s : Registry) (d : Definition) (a : String) (asOf : ℕ) : Prop :=
  '.' ∈ a.toList → (∀ d' ∈ s.definitions, d'.rawSymbol ≠ a) → ∀ ac,
    ∃ r ∈ s.aliases, r.instrumentUid = d.instrumentUid ∧ r.aliasString = a ∧
      r.activeOn asOf = true ∧ lookupForLive s [a] asOf d.provider ac = resolvesTo d a r

/-- From its first alias on every instrument has one alias on every date: the last one it was
    given. -/
def HistoryKept (s : LoggedRegistry) : Prop :=
  ∀ d ∈ s.registry.definitions, ∃ first, firstUpserted s.log d.instrumentUid = some first ∧
    (d.assetClass.timeInvariant = true → first.effectiveFrom = 0) ∧
    ∀ asOf, first.effectiveFrom ≤ asOf → ∃ a, lastUpserted s.log d.instrumentUid asOf = some a ∧
      ActiveAlias s.registry d.instrumentUid asOf a ∧
      (∀ r ∈ s.registry.aliases, r.instrumentUid = d.instrumentUid → r.activeOn asOf = true →
        r.aliasString = a) ∧
      LooksUp s.registry d a asOf

/-- What every call keeps. -/
structure Recorded (s : LoggedRegistry) : Prop where
  kept : WellKept s.registry
  uids : (s.registry.definitions.map (·.instrumentUid)).Nodup
  fresh : ∀ d ∈ s.registry.definitions, d.instrumentUid < s.registry.nextUid
  closed : ∀ r ∈ s.registry.aliases, ∀ day, r.effectiveTo = some day → day ≤ s.registry.today
  owner : ∀ r ∈ s.registry.aliases, ∀ r' ∈ s.registry.aliases, r.provider = r'.provider →
    r.aliasString = r'.aliasString → r.instrumentUid = r'.instrumentUid
  defined : ∀ r ∈ s.registry.aliases, ∃ d ∈ s.registry.definitions,
    d.instrumentUid = r.instrumentUid ∧ d.provider = r.provider
  first : ∀ d ∈ s.registry.definitions, ∃ first, firstUpserted s.log d.instrumentUid = some first ∧
    (d.assetClass.timeInvariant = true → first.effectiveFrom = 0)
  windows : ∀ r ∈ s.registry.aliases, ∀ asOf, r.activeOn asOf = true →
    lastUpserted s.log r.instrumentUid asOf = some r.aliasString
  covered : ∀ uid asOf a, lastUpserted s.log uid asOf = some a → ActiveAlias s.registry uid asOf a

/-! ### Windows and the log -/

section Windows

variable {c : UpsertArgs} {uid asOf : ℕ} {r : Alias} {log : List Upserted} {e : Upserted}

/-- Another entry of the log. -/
theorem lastUpserted_concat :
    lastUpserted (log ++ [e]) uid asOf
      = if e.instrumentUid = uid ∧ e.effectiveFrom ≤ asOf then some e.aliasString
        else lastUpserted log uid asOf := by
  unfold lastUpserted
  rw [List.filter_append]
  by_cases h : e.instrumentUid = uid ∧ e.effectiveFrom ≤ asOf
  · simp [h.1, h.2]
  · have hnot : (e.instrumentUid == uid && decide (e.effectiveFrom ≤ asOf)) = false := by
      simpa using h
    simp [h, hnot]

/-- On the date of an entry the instrument has an alias. -/
theorem exists_lastUpserted (he : e ∈ log) (hid : e.instrumentUid = uid)
    (hfrom : e.effectiveFrom ≤ asOf) : ∃ a, lastUpserted log uid asOf = some a := by
  refine Option.isSome_iff_exists.mp ?_
  rw [lastUpserted, Option.isSome_map, List.getLast?_isSome]
  exact List.ne_nil_of_mem (List.mem_filter.mpr ⟨he, by simp [hid, hfrom]⟩)

/-- A row that is closed today keeps its alias on the days before. -/
theorem activeOn_closeOther_before (h : asOf < c.today) :
    (closeOther c uid r).activeOn asOf = r.activeOn asOf := by
  unfold closeOther
  split
  · rename_i hopen
    simp only [Bool.and_eq_true, Option.isNone_iff_eq_none] at hopen
    simp [Alias.activeOn, hopen.1.2, h]
  · rfl

/-- From today on an instrument has the alias of the call. -/
theorem aliasString_of_activeOn_closeOther (h : c.today ≤ asOf) (hown : isOwn c uid r = true)
    (hclosed : ∀ day, r.effectiveTo = some day → day ≤ c.today)
    (hactive : (closeOther c uid r).activeOn asOf = true) : r.aliasString = c.aliasString := by
  by_contra hne
  cases hto : r.effectiveTo with
  | none =>
    have hclose : closeOther c uid r = { r with effectiveTo := some c.today } := by
      simp [closeOther, hown, hto, hne]
    rw [hclose] at hactive
    simp only [Alias.activeOn, Option.all_some, Bool.and_eq_true, decide_eq_true_eq] at hactive
    omega
  | some day =>
    have hday := hclosed day hto
    have hclose : closeOther c uid r = r := by simp [closeOther, hto]
    rw [hclose] at hactive
    simp only [Alias.activeOn, hto, Option.all_some, Bool.and_eq_true, decide_eq_true_eq]
      at hactive
    omega

/-- An open row is active from its first day on. -/
theorem activeOn_of_open (hopen : r.effectiveTo = none) (h : r.effectiveFrom ≤ asOf) :
    r.activeOn asOf = true := by
  simp [Alias.activeOn, hopen, h]

/-- A row that keeps its key is there behind an insert. -/
theorem mem_insertAlias_of_ne {rows : List Alias} {new : Alias} (hr : r ∈ rows)
    (hne : r.key ≠ new.key) : r ∈ insertAlias rows new := by
  unfold insertAlias
  split
  · exact List.mem_map.mpr ⟨r, hr, by simp [hne]⟩
  · exact List.mem_append_left _ hr

/-- The row of the key is open behind an insert. -/
theorem exists_open_insertAlias (rows : List Alias) {new : Alias} (hopen : new.effectiveTo = none) :
    ∃ r ∈ insertAlias rows new, r.key = new.key ∧ r.effectiveTo = none ∧
      (r = new ∨ ∃ r₀ ∈ rows, r₀.key = new.key ∧ r.instrumentUid = r₀.instrumentUid) := by
  unfold insertAlias
  split
  · rename_i hany
    obtain ⟨r₀, hr₀, hkey⟩ := List.any_eq_true.mp hany
    refine ⟨{ r₀ with effectiveTo := none }, List.mem_map.mpr ⟨r₀, hr₀, by simp [hkey]⟩,
      beq_iff_eq.mp hkey, rfl, Or.inr ⟨r₀, hr₀, beq_iff_eq.mp hkey, rfl⟩⟩
  · exact ⟨new, List.mem_append_right _ (List.mem_singleton_self _), rfl, hopen, Or.inl rfl⟩

end Windows

/-! ### One call -/

section Call

variable {s : LoggedRegistry} {c : UpsertArgs} {t : Registry} {uid asOf : ℕ} {r : Alias}
  {a : String}

/-- The windows that contain a date are those of the log. -/
theorem Recorded.activeAlias_iff (h : Recorded s) :
    ActiveAlias s.registry uid asOf a ↔ lastUpserted s.log uid asOf = some a := by
  refine ⟨?_, h.covered uid asOf a⟩
  rintro ⟨r, hr, rfl, rfl, hactive⟩
  exact h.windows r hr asOf hactive

/-- The definition of the call is there, or the instrument is new. -/
theorem instrumentUid_cases (s : Registry) (c : UpsertArgs) :
    (∃ d ∈ s.definitions, d.isOf c = true ∧ instrumentUid s c = d.instrumentUid ∧
      s.definitions.any (·.isOf c) = true) ∨
    (instrumentUid s c = s.nextUid ∧ s.definitions.any (·.isOf c) = false) := by
  cases hfind : s.definitions.find? (·.isOf c) with
  | some d =>
    have hmem := List.mem_of_find?_eq_some hfind
    have hof := List.find?_some hfind
    exact Or.inl ⟨d, hmem, hof, by simp [instrumentUid, hfind], List.any_eq_true.mpr ⟨d, hmem, hof⟩⟩
  | none =>
    refine Or.inr ⟨by simp [instrumentUid, hfind], ?_⟩
    simpa [List.any_eq_false] using hfind

/-- A row of the instrument is under the provider of the call. -/
theorem Recorded.isOwn (h : Recorded s) (hr : r ∈ s.registry.aliases)
    (hid : r.instrumentUid = instrumentUid s.registry c) :
    isOwn c (instrumentUid s.registry c) r = true := by
  obtain ⟨d', hd', hid', hprovider'⟩ := h.defined r hr
  rcases instrumentUid_cases s.registry c with ⟨d, hd, hof, huid, _⟩ | ⟨huid, _⟩
  · have heq : d' = d := List.inj_on_of_nodup_map h.uids hd' hd (by rw [hid', hid, huid])
    simp only [Definition.isOf, Bool.and_eq_true, beq_iff_eq] at hof
    simp [Instruments.isOwn, hid, ← hprovider', heq, hof.1.2]
  · have hlt := h.fresh d' hd'
    omega

/-- A registered instrument gets its alias from today on. -/
theorem Recorded.effectiveFrom_eq (h : Recorded s) {d : Definition}
    (hd : d ∈ s.registry.definitions) (huid : instrumentUid s.registry c = d.instrumentUid) :
    effectiveFrom s.registry c (instrumentUid s.registry c) = c.today := by
  obtain ⟨first, hfirst, _⟩ := h.first d hd
  have hmem := List.mem_of_find?_eq_some hfirst
  have hid := List.find?_some hfirst
  -- the first entry of the log is on the date it holds from
  obtain ⟨a, ha⟩ := exists_lastUpserted hmem (beq_iff_eq.mp hid) (Nat.le_refl _)
  obtain ⟨r, hr, hrid, _, _⟩ := h.covered _ _ _ ha
  have hown : s.registry.aliases.any (Instruments.isOwn c (instrumentUid s.registry c)) = true :=
    List.any_eq_true.mpr ⟨r, hr, h.isOwn hr (hrid.trans huid.symm)⟩
  simp [effectiveFrom, hown]

/-- A new instrument has no rows. -/
theorem Recorded.no_rows (h : Recorded s) (huid : instrumentUid s.registry c = s.registry.nextUid)
    (hr : r ∈ s.registry.aliases) : r.instrumentUid ≠ instrumentUid s.registry c := by
  obtain ⟨d, hd, hid, _⟩ := h.defined r hr
  have hlt := h.fresh d hd
  omega

/-- An instrument with rows gets its alias from today on. -/
theorem Recorded.effectiveFrom_of_row (h : Recorded s) (hr : r ∈ s.registry.aliases)
    (hid : r.instrumentUid = instrumentUid s.registry c) :
    effectiveFrom s.registry c (instrumentUid s.registry c) = c.today := by
  rcases instrumentUid_cases s.registry c with ⟨d, hd, _, huid, _⟩ | ⟨huid, _⟩
  · exact h.effectiveFrom_eq hd huid
  · exact absurd hid (h.no_rows huid hr)

/-- The alias of the call is no other instrument's. -/
def OwnStored (s : Registry) (c : UpsertArgs) : Prop :=
  ∀ r ∈ s.aliases, r.provider = c.provider → r.aliasString = c.aliasString →
    r.instrumentUid = instrumentUid s c

/-- A row with the key of the new one is the instrument's. -/
theorem OwnStored.of_key (h : OwnStored s.registry c) (hr : r ∈ s.registry.aliases)
    (hkey : r.key = (newAlias s.registry c (instrumentUid s.registry c)).key) :
    r.instrumentUid = instrumentUid s.registry c :=
  h r hr (congrArg (fun k => k.2.1) hkey) (congrArg Prod.fst hkey)

/-- The rows behind a call. -/
theorem mem_aliases_cases (ht : upsertStored s.registry c = .ok t) (hr : r ∈ t.aliases) :
    r = newAlias s.registry c (instrumentUid s.registry c) ∨
    (∃ r₀ ∈ s.registry.aliases, r = closeOther c (instrumentUid s.registry c) r₀ ∧
      r₀.key ≠ (newAlias s.registry c (instrumentUid s.registry c)).key) ∨
    ∃ r₀ ∈ s.registry.aliases, r₀.key = (newAlias s.registry c (instrumentUid s.registry c)).key ∧
      r.key = r₀.key ∧ r.instrumentUid = r₀.instrumentUid ∧ r.effectiveTo = none := by
  rw [(upsertStored_eq_ok ht).1] at hr
  rcases mem_insertAlias_cases hr with hnew | ⟨hmem, hne⟩ | ⟨r₁, hmem, hkey, rfl⟩
  · exact Or.inl hnew
  · obtain ⟨r₀, hr₀, rfl⟩ := List.mem_map.mp hmem
    exact Or.inr (Or.inl ⟨r₀, hr₀, rfl, by simpa using hne⟩)
  · obtain ⟨r₀, hr₀, rfl⟩ := List.mem_map.mp hmem
    have hkey' : r₀.key = (newAlias s.registry c (instrumentUid s.registry c)).key := by
      simpa using hkey
    exact Or.inr (Or.inr ⟨r₀, hr₀, hkey', closeOther_key, closeOther_instrumentUid, rfl⟩)

/-- Every row behind a call has the alias, the provider and the instrument of an old one, or those
    of the call. -/
theorem alias_of_mem (hown : OwnStored s.registry c) (ht : upsertStored s.registry c = .ok t)
    (hr : r ∈ t.aliases) :
    (r.aliasString = c.aliasString ∧ r.provider = c.provider ∧
      r.instrumentUid = instrumentUid s.registry c) ∨
    ∃ r₀ ∈ s.registry.aliases, r.aliasString = r₀.aliasString ∧ r.provider = r₀.provider ∧
      r.instrumentUid = r₀.instrumentUid := by
  rcases mem_aliases_cases ht hr with rfl | ⟨r₀, hr₀, rfl, _⟩ | ⟨r₀, hr₀, hkey, hkey', hid, _⟩
  · exact Or.inl ⟨rfl, rfl, rfl⟩
  · exact Or.inr ⟨r₀, hr₀, closeOther_aliasString, closeOther_provider, closeOther_instrumentUid⟩
  · have hsame := hkey'.trans hkey
    exact Or.inl ⟨congrArg Prod.fst hsame, congrArg (fun k => k.2.1) hsame,
      hid.trans (hown.of_key hr₀ hkey)⟩

/-- **The windows behind a call.** -/
theorem Recorded.windows_upsertStored (h : Recorded s) (hday : s.registry.today ≤ c.today)
    (hown : OwnStored s.registry c) (ht : upsertStored s.registry c = .ok t) :
    ∀ r ∈ t.aliases, ∀ asOf, r.activeOn asOf = true →
      lastUpserted (s.log ++ [entryOf s.registry c]) r.instrumentUid asOf
        = some r.aliasString := by
  intro r hr asOf hactive
  have hfrom : r.effectiveFrom ≤ asOf := by
    simp only [Alias.activeOn, Bool.and_eq_true, decide_eq_true_eq] at hactive
    exact hactive.1
  rw [lastUpserted_concat]
  rcases mem_aliases_cases ht hr with rfl | ⟨r₀, hr₀, rfl, _⟩ | ⟨r₀, hr₀, hkey, hkey', hid, _⟩
  · rw [if_pos ⟨rfl, hfrom⟩]
    rfl
  · rw [closeOther_instrumentUid, closeOther_aliasString]
    by_cases hid : r₀.instrumentUid = instrumentUid s.registry c
    · have hentry : (entryOf s.registry c).effectiveFrom = c.today := h.effectiveFrom_of_row hr₀ hid
      -- a window closed by the call ends today: what it held before today it still holds
      by_cases hbefore : asOf < c.today
      · rw [if_neg (by omega)]
        rw [activeOn_closeOther_before hbefore] at hactive
        exact h.windows r₀ hr₀ asOf hactive
      · have halias := aliasString_of_activeOn_closeOther (by omega) (h.isOwn hr₀ hid)
          (fun day hto => Nat.le_trans (h.closed r₀ hr₀ day hto) hday) hactive
        rw [if_pos ⟨hid.symm, by omega⟩, halias]
        rfl
    · have hnot : Instruments.isOwn c (instrumentUid s.registry c) r₀ = false := by
        simp [Instruments.isOwn, hid]
      rw [closeOther_of_not_own hnot] at hactive
      rw [if_neg (fun hentry => hid hentry.1.symm)]
      exact h.windows r₀ hr₀ asOf hactive
  · have hsame := hkey'.trans hkey
    -- a row with the key of the call is reopened, and by the premise it is the instrument's own
    have hentry : r.effectiveFrom = (entryOf s.registry c).effectiveFrom :=
      congrArg (fun k => k.2.2) hsame
    have halias : r.aliasString = c.aliasString := congrArg Prod.fst hsame
    rw [if_pos ⟨(hid.trans (hown.of_key hr₀ hkey)).symm, by omega⟩, halias]
    rfl

/-- **Every date of the log has a window behind a call.** -/
theorem Recorded.covered_upsertStored (h : Recorded s) (hown : OwnStored s.registry c)
    (ht : upsertStored s.registry c = .ok t) (uid asOf : ℕ) (a : String)
    (ha : lastUpserted (s.log ++ [entryOf s.registry c]) uid asOf = some a) :
    ActiveAlias t uid asOf a := by
  rw [lastUpserted_concat] at ha
  split at ha
  · rename_i hentry
    obtain ⟨rfl, hfrom⟩ := hentry
    obtain rfl := Option.some.inj ha
    have hnew : (newAlias s.registry c (instrumentUid s.registry c)).effectiveTo = none := rfl
    obtain ⟨r, hr, hkey, hopen, hid⟩ := exists_open_insertAlias
      (s.registry.aliases.map (closeOther c (instrumentUid s.registry c))) hnew
    rw [← (upsertStored_eq_ok ht).1] at hr
    refine ⟨r, hr, ?_, congrArg Prod.fst hkey, activeOn_of_open hopen ?_⟩
    · rcases hid with rfl | ⟨r₁, hr₁, hkey₁, hid⟩
      · rfl
      · obtain ⟨r₀, hr₀, rfl⟩ := List.mem_map.mp hr₁
        rw [hid, closeOther_instrumentUid]
        exact hown.of_key hr₀ (by simpa using hkey₁)
    · have hkey' : r.effectiveFrom = (entryOf s.registry c).effectiveFrom :=
        congrArg (fun k => k.2.2) hkey
      omega
  · rename_i hentry
    obtain ⟨r₀, hr₀, rfl, rfl, hactive⟩ := h.covered uid asOf a ha
    have hfrom : r₀.effectiveFrom ≤ asOf := by
      simp only [Alias.activeOn, Bool.and_eq_true, decide_eq_true_eq] at hactive
      exact hactive.1
    have hne : r₀.key ≠ (newAlias s.registry c (instrumentUid s.registry c)).key := by
      intro hkey
      have hkey' : r₀.effectiveFrom = (entryOf s.registry c).effectiveFrom :=
        congrArg (fun k => k.2.2) hkey
      exact hentry ⟨(hown.of_key hr₀ hkey).symm, by omega⟩
    have hmem : closeOther c (instrumentUid s.registry c) r₀ ∈ t.aliases := by
      rw [(upsertStored_eq_ok ht).1]
      exact mem_insertAlias_of_ne (List.mem_map_of_mem hr₀) (by simpa using hne)
    refine ⟨_, hmem, closeOther_instrumentUid, closeOther_aliasString, ?_⟩
    by_cases hid : r₀.instrumentUid = instrumentUid s.registry c
    · -- the entry of the call begins today, and the log still shows the earlier one
      have hbefore : asOf < c.today := by
        have hentry' : (entryOf s.registry c).effectiveFrom = c.today :=
          h.effectiveFrom_of_row hr₀ hid
        by_contra hlate
        exact hentry ⟨hid.symm, by omega⟩
      rw [activeOn_closeOther_before hbefore]
      exact hactive
    · have hnot : Instruments.isOwn c (instrumentUid s.registry c) r₀ = false := by
        simp [Instruments.isOwn, hid]
      rw [closeOther_of_not_own hnot]
      exact hactive

/-- The definitions behind a call: the old ones with the venues of the call, or one more. -/
theorem mem_upsertDefinition_cases {s : Registry} {d : Definition} (hd : d ∈ upsertDefinition s c) :
    (∃ d₀ ∈ s.definitions, d.instrumentUid = d₀.instrumentUid ∧ d.provider = d₀.provider ∧
      d.assetClass = d₀.assetClass) ∨
    (instrumentUid s c = s.nextUid ∧ s.definitions.any (·.isOf c) = false ∧
      d.instrumentUid = s.nextUid ∧ d.provider = c.provider ∧ d.assetClass = c.assetClass) := by
  unfold upsertDefinition at hd
  split at hd
  · obtain ⟨d₀, hd₀, rfl⟩ := List.mem_map.mp hd
    refine Or.inl ⟨d₀, hd₀, ?_⟩
    split <;> exact ⟨rfl, rfl, rfl⟩
  · rename_i hany
    rcases List.mem_append.mp hd with hold | hnew
    · exact Or.inl ⟨d, hold, rfl, rfl, rfl⟩
    · obtain rfl := List.mem_singleton.mp hnew
      rcases instrumentUid_cases s c with ⟨_, _, _, _, hany'⟩ | ⟨huid, hany'⟩
      · exact absurd hany' hany
      · exact Or.inr ⟨huid, hany', rfl, rfl, rfl⟩

/-- Every old definition is there behind a call. -/
theorem exists_mem_upsertDefinition {s : Registry} {d : Definition} (hd : d ∈ s.definitions) :
    ∃ d' ∈ upsertDefinition s c, d'.instrumentUid = d.instrumentUid ∧ d'.provider = d.provider := by
  unfold upsertDefinition
  split
  · refine ⟨_, List.mem_map_of_mem hd, ?_⟩
    split <;> exact ⟨rfl, rfl⟩
  · exact ⟨d, List.mem_append_left _ hd, rfl, rfl⟩

/-- The definition of the call is there behind it. -/
theorem exists_mem_upsertDefinition_self (s : Registry) (c : UpsertArgs) :
    ∃ d ∈ upsertDefinition s c, d.instrumentUid = instrumentUid s c ∧ d.provider = c.provider := by
  rcases instrumentUid_cases s c with ⟨d, hd, hof, huid, _⟩ | ⟨huid, hany⟩
  · obtain ⟨d', hd', hid, hprovider⟩ := exists_mem_upsertDefinition (c := c) hd
    simp only [Definition.isOf, Bool.and_eq_true, beq_iff_eq] at hof
    exact ⟨d', hd', hid.trans huid.symm, hprovider.trans hof.1.2⟩
  · have hnew : upsertDefinition s c = s.definitions ++
        [{ instrumentUid := s.nextUid, rawSymbol := c.rawSymbol, listingVenue := c.listingVenue
           routingVenue := c.routingVenue, assetClass := c.assetClass, provider := c.provider }] := by
      rw [upsertDefinition, if_neg (by simp [hany])]
    rw [hnew]
    exact ⟨_, List.mem_append_right _ (List.mem_singleton_self _), huid.symm, rfl⟩

/-- The ids stay apart. -/
theorem Recorded.uids_upsertDefinition (h : Recorded s) :
    ((upsertDefinition s.registry c).map (·.instrumentUid)).Nodup := by
  unfold upsertDefinition
  split
  · have hmap : (s.registry.definitions.map fun d => if d.isOf c then
        { d with listingVenue := c.listingVenue, routingVenue := c.routingVenue } else d).map
          (·.instrumentUid) = s.registry.definitions.map (·.instrumentUid) := by
      rw [List.map_map]
      refine List.map_congr_left fun d _ => ?_
      simp only [Function.comp_apply]
      split <;> rfl
    rw [hmap]
    exact h.uids
  · rw [List.map_append, List.map_singleton]
    refine List.Nodup.append h.uids (List.nodup_singleton _) ?_
    rw [List.disjoint_singleton]
    intro hmem
    obtain ⟨d, hd, hid⟩ := List.mem_map.mp hmem
    exact Nat.ne_of_lt (h.fresh d hd) hid

/-- The first entry of an instrument stays the first; a new instrument has that of its call. -/
theorem Recorded.first_upsertStored (h : Recorded s) {d : Definition}
    (hd : d ∈ upsertDefinition s.registry c) :
    ∃ first, firstUpserted (s.log ++ [entryOf s.registry c]) d.instrumentUid = some first ∧
      (d.assetClass.timeInvariant = true → first.effectiveFrom = 0) := by
  rcases mem_upsertDefinition_cases hd with
    ⟨d₀, hd₀, hid, _, hclass⟩ | ⟨huid, _, hid, hprovider, hclass⟩
  · obtain ⟨first, hfirst, hzero⟩ := h.first d₀ hd₀
    refine ⟨first, ?_, fun htime => hzero (hclass ▸ htime)⟩
    rw [hid]
    simp only [firstUpserted] at hfirst ⊢
    rw [List.find?_append, hfirst]
    rfl
  · have hnone : firstUpserted s.log s.registry.nextUid = none := by
      refine List.find?_eq_none.mpr fun e he hfresh => ?_
      -- an entry of this id would have a window, and the id has no rows yet
      obtain ⟨a, ha⟩ := exists_lastUpserted he (beq_iff_eq.mp hfresh) (Nat.le_refl _)
      obtain ⟨r, hr, hrid, _, _⟩ := h.covered _ _ _ ha
      exact h.no_rows huid hr (hrid.trans huid.symm)
    have hself : (entryOf s.registry c).instrumentUid = s.registry.nextUid := huid
    refine ⟨entryOf s.registry c, ?_, fun htime => ?_⟩
    · rw [hid]
      simp only [firstUpserted] at hnone ⊢
      rw [List.find?_append, hnone]
      simp [hself]
    · have hown : s.registry.aliases.any
          (Instruments.isOwn c (instrumentUid s.registry c)) = false := by
        refine List.any_eq_false.mpr fun r hr => ?_
        simp [Instruments.isOwn, h.no_rows huid hr]
      rw [hclass] at htime
      simp [entryOf, effectiveFrom, hown, htime]

/-- **A call that returns.** -/
theorem Recorded.upsertStored (h : Recorded s) (hday : s.registry.today ≤ c.today)
    (hown : OwnStored s.registry c) (ht : upsertStored s.registry c = .ok t) :
    Recorded { registry := t, log := s.log ++ [entryOf s.registry c] } := by
  obtain ⟨haliases, hdefinitions, htoday⟩ := upsertStored_eq_ok ht
  refine ⟨h.kept.upsertStored hday ht, ?_, ?_, ?_, ?_, ?_, ?_, ?_, ?_⟩
  · show (t.definitions.map _).Nodup
    rw [hdefinitions]
    exact h.uids_upsertDefinition
  · intro d hd
    have hnext : t.nextUid = if s.registry.definitions.any (·.isOf c) then s.registry.nextUid
        else s.registry.nextUid + 1 := by
      simp only [Instruments.upsertStored] at ht
      split at ht
      · obtain rfl := Except.ok.inj ht
        rfl
      · cases ht
    show d.instrumentUid < t.nextUid
    rw [hnext]
    rcases mem_upsertDefinition_cases (hdefinitions ▸ hd) with
      ⟨d₀, hd₀, hid, _⟩ | ⟨_, hany, hid, _⟩
    · have hlt := h.fresh d₀ hd₀
      split <;> omega
    · rw [hany, hid]
      simp
  · intro r hr day hto
    show day ≤ t.today
    rw [htoday]
    rcases mem_aliases_cases ht hr with rfl | ⟨r₀, hr₀, rfl, _⟩ | ⟨r₀, _, _, _, _, hopen⟩
    · cases hto
    · unfold closeOther at hto
      split at hto
      · exact Nat.le_of_eq (Option.some.inj hto).symm
      · exact Nat.le_trans (h.closed r₀ hr₀ day hto) hday
    · rw [hopen] at hto
      cases hto
  · intro r hr r' hr' hprovider halias
    rcases alias_of_mem hown ht hr with ⟨ha, hp, hid⟩ | ⟨r₀, hr₀, ha, hp, hid⟩
    · rcases alias_of_mem hown ht hr' with ⟨ha', hp', hid'⟩ | ⟨r₁, hr₁, ha', hp', hid'⟩
      · exact hid.trans hid'.symm
      · have howner := hown r₁ hr₁ (by rw [← hp', ← hprovider, hp]) (by rw [← ha', ← halias, ha])
        rw [hid, hid', howner]
    · rcases alias_of_mem hown ht hr' with ⟨ha', hp', hid'⟩ | ⟨r₁, hr₁, ha', hp', hid'⟩
      · have howner := hown r₀ hr₀ (by rw [← hp, hprovider, hp']) (by rw [← ha, halias, ha'])
        rw [hid, hid', howner]
      · rw [hid, hid']
        exact h.owner r₀ hr₀ r₁ hr₁ (by rw [← hp, hprovider, hp']) (by rw [← ha, halias, ha'])
  · intro r hr
    show ∃ d ∈ t.definitions, _
    rw [hdefinitions]
    rcases alias_of_mem hown ht hr with ⟨_, hp, hid⟩ | ⟨r₀, hr₀, _, hp, hid⟩
    · rw [hp, hid]
      exact exists_mem_upsertDefinition_self s.registry c
    · obtain ⟨d₀, hd₀, hid₀, hprovider₀⟩ := h.defined r₀ hr₀
      obtain ⟨d, hd, hdid, hdprovider⟩ := exists_mem_upsertDefinition (c := c) hd₀
      exact ⟨d, hd, by rw [hdid, hid₀, hid], by rw [hdprovider, hprovider₀, hp]⟩
  · intro d hd
    exact h.first_upsertStored (hdefinitions ▸ hd)
  · exact h.windows_upsertStored hday hown ht
  · exact h.covered_upsertStored hown ht

/-- Another day. -/
theorem Recorded.later (h : Recorded s) {today : ℕ} (htoday : s.registry.today ≤ today) :
    Recorded { registry := { s.registry with today := today }, log := s.log } :=
  { h with
    kept := h.kept.later htoday
    closed := fun r hr day hto => Nat.le_trans (h.closed r hr day hto) htoday
    covered := fun uid asOf a ha => h.covered uid asOf a ha }

/-- A call that returns changes no alias on a date before its own. -/
theorem Recorded.past_upsertStored (h : Recorded s) (hday : s.registry.today ≤ c.today)
    (hown : OwnStored s.registry c) (ht : Instruments.upsertStored s.registry c = .ok t)
    {d : Definition}
    (hd : d ∈ s.registry.definitions) (hbefore : asOf < c.today) :
    ActiveAlias t d.instrumentUid asOf a ↔ ActiveAlias s.registry d.instrumentUid asOf a := by
  have hafter : ActiveAlias t d.instrumentUid asOf a ↔
      lastUpserted (s.log ++ [entryOf s.registry c]) d.instrumentUid asOf = some a :=
    (h.upsertStored hday hown ht).activeAlias_iff
  rw [h.activeAlias_iff, hafter, lastUpserted_concat, if_neg]
  rintro ⟨hid, hfrom⟩
  have hentry : (entryOf s.registry c).effectiveFrom = c.today := h.effectiveFrom_eq hd hid
  omega

/-- What a call makes of the logged registry. -/
theorem loggedStep_cases {t : LoggedRegistry} (hs : loggedStep s c = some t) :
    s.registry.today ≤ c.today ∧
      ((∃ c' t', prepare c = .ok c' ∧ upsertStored s.registry c' = .ok t' ∧
        t = { registry := t', log := s.log ++ [entryOf s.registry c'] }) ∨
      t = { registry := { s.registry with today := c.today }, log := s.log }) := by
  obtain ⟨u, hu, rfl⟩ := Option.map_eq_some_iff.mp hs
  simp only [registryStep] at hu
  split at hu
  · cases hu
  · rename_i hlate
    refine ⟨Nat.le_of_not_lt hlate, ?_⟩
    cases hprepare : prepare c with
    | error e =>
      have hup : upsert s.registry c = .error e := by rw [upsert, hprepare]; rfl
      rw [hup] at hu
      obtain rfl := Option.some.inj hu
      exact Or.inr (by simp [logged, hprepare])
    | ok c' =>
      have hup : upsert s.registry c = upsertStored s.registry c' := by
        rw [upsert, hprepare]
        rfl
      rw [hup] at hu
      cases hstored : upsertStored s.registry c' with
      | error e =>
        rw [hstored] at hu
        obtain rfl := Option.some.inj hu
        exact Or.inr (by simp [logged, hprepare, hstored])
      | ok t' =>
        rw [hstored] at hu
        obtain rfl := Option.some.inj hu
        exact Or.inl ⟨c', t', rfl, hstored, by simp [logged, hprepare, hstored]⟩

theorem OwnAlias.stored {c' : UpsertArgs} (h : OwnAlias s c) (hprepare : prepare c = .ok c') :
    OwnStored s.registry c' := by
  intro r hr hprovider halias
  rw [OwnAlias, ownAlias, hprepare] at h
  have hr' := List.all_eq_true.mp h r hr
  simpa [hprovider, halias] using hr'

/-- **Step.** -/
theorem Recorded.step {t : LoggedRegistry} (h : Recorded s) (hC : OwnAlias s c)
    (hs : loggedStep s c = some t) : Recorded t ∧ KeepsPast s c := by
  have hsame : ∀ t', loggedStep s c = some t' → t' = t :=
    fun t' hs' => Option.some.inj (hs'.symm.trans hs)
  obtain ⟨hday, ⟨c', t', hprepare, hstored, rfl⟩ | rfl⟩ := loggedStep_cases hs
  · have htoday := prepare_today hprepare
    have hown := hC.stored hprepare
    refine ⟨h.upsertStored (by omega) hown hstored, fun u hu d hd asOf hbefore a => ?_⟩
    rw [hsame u hu]
    exact h.past_upsertStored (by omega) hown hstored hd (by omega)
  · refine ⟨h.later hday, fun u hu d _ asOf _ a => ?_⟩
    rw [hsame u hu]
    exact Iff.rfl

/-- The history of a registry whose windows are those of its log. -/
theorem Recorded.historyKept (h : Recorded s) : HistoryKept s := by
  intro d hd
  obtain ⟨first, hfirst, hzero⟩ := h.first d hd
  refine ⟨first, hfirst, hzero, fun asOf hfrom => ?_⟩
  have hid := List.find?_some hfirst
  obtain ⟨a, ha⟩ := exists_lastUpserted (List.mem_of_find?_eq_some hfirst) (beq_iff_eq.mp hid) hfrom
  have hactive := h.covered _ _ _ ha
  have hwindows : ∀ r ∈ s.registry.aliases, r.instrumentUid = d.instrumentUid →
      r.activeOn asOf = true → r.aliasString = a := by
    intro r hr hrid hractive
    have hlast := h.windows r hr asOf hractive
    rw [hrid, ha] at hlast
    exact (Option.some.inj hlast).symm
  refine ⟨a, ha, hactive, hwindows, fun hdot hraw ac => ?_⟩
  obtain ⟨r, hr, hrid, halias, hractive⟩ := hactive
  obtain ⟨d', hd', hid', hprovider'⟩ := h.defined r hr
  have heq : d' = d := List.inj_on_of_nodup_map h.uids hd' hd (hid'.trans hrid)
  have hprovider : r.provider = d.provider := by rw [← hprovider', heq]
  have hactive : IsActive s.registry d a asOf :=
    { window := ⟨r, hr, hrid, hprovider, halias, hractive⟩
      windows := hwindows
      owner := fun r' hr' halias' hprovider'' =>
        (h.owner r' hr' r hr (hprovider''.trans hprovider.symm) (halias'.trans halias.symm)).trans
          hrid }
  exact hactive.lookupForLive hd h.uids h.kept.keys hdot hraw

end Call

/-! ### Every sequence of calls -/

theorem recorded_initial : Recorded .initial where
  kept := wellKept_initial
  uids := List.nodup_nil
  fresh := fun d hd => by cases hd
  closed := fun r hr => by cases hr
  owner := fun r hr => by cases hr
  defined := fun r hr => by cases hr
  first := fun d hd => by cases hd
  windows := fun r hr => by cases hr
  covered := fun uid asOf a ha => by cases ha

/-- **Alias history is stable.**  After every sequence of calls at dates that never decrease in
    which no two definitions of a provider share an alias string, every registered instrument has
    one alias on every date from its first one on, the last it was given, which the live lookup
    returns unless the class is not supported or the contract cannot be built; and no call changes
    the alias of a registered instrument on an earlier date. -/
theorem alias_history_kept {as : List UpsertArgs} {t : LoggedRegistry}
    (h : Path loggedSystem OwnAlias .initial as t) :
    HistoryKept t ∧ Path loggedSystem KeepsPast .initial as t := by
  have hstep : ∀ s c t, Recorded s → OwnAlias s c → loggedSystem.step s c = some t → Recorded t :=
    fun s c t hI hC hs => (hI.step hC hs).1
  refine ⟨(h.invariant hstep recorded_initial).historyKept, ?_⟩
  exact h.strengthen hstep (fun s c t hI hC hs => (hI.step hC hs).2) recorded_initial

/-! ### Two sequences -/

/-- A change of venue, and a refresh on a later day. -/
def venueSwap : List UpsertArgs :=
  [refreshAapl "AAPL.NASDAQ" 46000, refreshAapl "AAPL.ARCA" 46001, refreshAapl "AAPL.ARCA" 46002]

/-- The theorem at a change of venue. -/
theorem alias_history_venue_swap :
    ∃ t, lastUpserted t.log 0 45000 = some "AAPL.NASDAQ" ∧
      lastUpserted t.log 0 46001 = some "AAPL.ARCA" ∧ HistoryKept t ∧
      Path loggedSystem KeepsPast .initial venueSwap t := by
  obtain ⟨t, ht, hold, hnew⟩ : ∃ t, loggedSystem.runWhere OwnAlias .initial venueSwap = some t ∧
      lastUpserted t.log 0 45000 = some "AAPL.NASDAQ" ∧
      lastUpserted t.log 0 46001 = some "AAPL.ARCA" := ⟨_, rfl, rfl, rfl⟩
  exact ⟨t, hold, hnew, alias_history_kept (.of_runWhere ht)⟩

/-- A crypto pair. -/
def refreshBtc : UpsertArgs :=
  { rawSymbol := "BTC", listingVenue := "PAXOS", routingVenue := "PAXOS", assetClass := .crypto
    aliasString := "BTC.PAXOS", provider := .interactiveBrokers, venueFormat := .exchangeName
    sourceVenueRaw := none, today := 46000 }

/-- The lookup of the alias of a class that is not supported returns no instrument. -/
theorem alias_history_fails :
    ∃ t, Path loggedSystem OwnAlias .initial [refreshBtc] t ∧
      lastUpserted t.log 0 46000 = some "BTC.PAXOS" ∧
      (∀ d ∈ t.registry.definitions, d.rawSymbol ≠ "BTC.PAXOS") ∧
      lookupForLive t.registry ["BTC.PAXOS"] 46000 .interactiveBrokers none
        = .error (.unsupportedAssetClass "BTC.PAXOS" .crypto) := by
  obtain ⟨t, ht, hlast, hraw, hlookup⟩ :
      ∃ t, loggedSystem.runWhere OwnAlias .initial [refreshBtc] = some t ∧
      lastUpserted t.log 0 46000 = some "BTC.PAXOS" ∧
      t.registry.definitions.map (·.rawSymbol) = ["BTC"] ∧
      lookupForLive t.registry ["BTC.PAXOS"] 46000 .interactiveBrokers none
        = .error (.unsupportedAssetClass "BTC.PAXOS" .crypto) := ⟨_, rfl, rfl, rfl, rfl⟩
  refine ⟨t, .of_runWhere ht, hlast, fun d hd heq => ?_, hlookup⟩
  have hmem : "BTC.PAXOS" ∈ t.registry.definitions.map (·.rawSymbol) :=
    List.mem_map.mpr ⟨d, hd, heq⟩
  rw [hraw] at hmem
  exact absurd hmem (by decide)

end Msai.Instruments
