import Mathlib.Algebra.Group.Nat.Defs
import Mathlib.Data.List.Nodup
import Mathlib.Data.List.TakeDrop
import Mathlib.Data.List.TakeWhile
import Msai.Lib.Transition

namespace Msai.Instruments

open Msai.Lib Msai.Lib.TransitionSystem

/-!
# The aliases of the instrument registry
(`services/nautilus/security_master/service.py`)

`_upsert_definition_and_alias` writes the definition of an instrument and the alias it has from
today on: the open rows of its other aliases are closed, and the row of the alias is inserted, or
opened again if its key is there.  A date is the number of days since 1900-01-01.

* `Registry`, `Definition`, `Alias` — the two tables;
* `prepare` — the arguments as they are stored;
* `upsert` — a whole call, and `registryStep` — calls at dates that never decrease;
* `OneOpen` — one row of the instrument is open, and has the alias of the call;
* `SingleRowCall` — the condition: the instrument has no other open row of the alias, and the key
  is no other instrument's;
* `one_open_alias_iff` — the theorem over all sequences of calls.
-/

/-! ### The tables -/

/-- `RegistryAssetClass`. -/
inductive AssetClass
  | equity | futures | fx | option | crypto
deriving DecidableEq, Repr

/-- `Provider`. -/
inductive Provider
  | interactiveBrokers | databento
deriving DecidableEq, Repr

/-- `VenueFormat`. -/
inductive VenueFormat
  | exchangeName | micCode | databentoContinuous
deriving DecidableEq, Repr

/-- An `instrument_definitions` row. -/
structure Definition where
  instrumentUid : ℕ
  rawSymbol : String
  listingVenue : String
  routingVenue : String
  assetClass : AssetClass
  provider : Provider
deriving DecidableEq, Repr

/-- An `instrument_aliases` row. -/
structure Alias where
  instrumentUid : ℕ
  aliasString : String
  venueFormat : VenueFormat
  sourceVenueRaw : Option String
  provider : Provider
  effectiveFrom : ℕ
  effectiveTo : Option ℕ
deriving DecidableEq, Repr

/-- The columns of `uq_instrument_aliases_string_provider_from`. -/
def Alias.key (r : Alias) : String × Provider × ℕ := (r.aliasString, r.provider, r.effectiveFrom)

/-- `ck_instrument_aliases_effective_window`. -/
def Alias.windowOk (r : Alias) : Bool := r.effectiveTo.all fun day => decide (r.effectiveFrom ≤ day)

/-- The registry, and the last exchange-local date of a call. -/
structure Registry where
  definitions : List Definition
  aliases : List Alias
  nextUid : ℕ
  today : ℕ
deriving DecidableEq, Repr

/-- A registry without instruments. -/
def Registry.initial : Registry := { definitions := [], aliases := [], nextUid := 0, today := 0 }

/-! ### The arguments -/

/-- The arguments of a call, with the date of `exchange_local_today`. -/
structure UpsertArgs where
  rawSymbol : String
  listingVenue : String
  routingVenue : String
  assetClass : AssetClass
  aliasString : String
  provider : Provider
  venueFormat : VenueFormat
  sourceVenueRaw : Option String
  today : ℕ
deriving DecidableEq, Repr

/-- Why a call raises. -/
inductive UpsertError
  /-- `UnknownDatabentoVenueError`: the alias has no venue. -/
  | noVenueSuffix (aliasString : String)
  /-- `UnknownDatabentoVenueError`: the venue is not in the map. -/
  | unmappedMic (aliasString mic : String)
  | integrityError
deriving DecidableEq, Repr

/-- `rpartition(".")`, if there is a dot. -/
def rpartitionDot (s : String) : Option (String × String) :=
  match s.toList.reverse.span (· != '.') with
  | (_, []) => none
  | (suffix, _ :: rest) => some (String.ofList rest.reverse, String.ofList suffix.reverse)

/-- The split is at the last dot. -/
theorem rpartitionDot_append {front suffix : String} (h : '.' ∉ suffix.toList) :
    rpartitionDot (front ++ "." ++ suffix) = some (front, suffix) := by
  have hspan : (front ++ "." ++ suffix).toList.reverse.span (· != '.') =
      (suffix.toList.reverse, '.' :: front.toList.reverse) := by
    have hne : ∀ c ∈ suffix.toList.reverse, (c != '.') = true := fun c hc =>
      bne_iff_ne.mpr fun heq => h (heq ▸ List.mem_reverse.mp hc)
    rw [List.span_eq_takeWhile_dropWhile]
    simp [List.takeWhile_append_of_pos hne, List.dropWhile_append_of_pos hne]
  rw [rpartitionDot, hspan]
  simp

theorem rpartitionDot_eq_some {s front suffix : String} :
    rpartitionDot s = some (front, suffix) ↔ s = front ++ "." ++ suffix ∧ '.' ∉ suffix.toList := by
  constructor
  · intro h
    rw [rpartitionDot, List.span_eq_takeWhile_dropWhile] at h
    have hsplit := List.takeWhile_append_dropWhile (p := (· != '.')) (l := s.toList.reverse)
    have hfree : '.' ∉ s.toList.reverse.takeWhile (· != '.') := fun hmem =>
      absurd (List.mem_takeWhile_imp hmem) (by decide)
    have hdot := List.head?_dropWhile_not (· != '.') s.toList.reverse
    cases hrest : s.toList.reverse.dropWhile (· != '.') with
    | nil =>
      rw [hrest] at h
      cases h
    | cons c rest =>
      rw [hrest] at h hsplit hdot
      cases h
      have hc : c = '.' := by simpa using hdot
      refine ⟨String.toList_injective ?_, by simpa using hfree⟩
      have htext : s.toList = _ :=
        (List.reverse_reverse s.toList).symm.trans (congrArg List.reverse hsplit.symm)
      refine htext.trans ?_
      rw [hc]
      simp
  · rintro ⟨rfl, hsuffix⟩
    exact rpartitionDot_append hsuffix

theorem rpartitionDot_eq_none {s : String} : rpartitionDot s = none ↔ '.' ∉ s.toList := by
  rw [rpartitionDot, List.span_eq_takeWhile_dropWhile]
  cases hrest : s.toList.reverse.dropWhile (· != '.') with
  | nil =>
    have hall := List.dropWhile_eq_nil_iff.mp hrest
    refine iff_of_true rfl fun hmem => ?_
    exact absurd (hall '.' (List.mem_reverse.mpr hmem)) (by decide)
  | cons c rest =>
    have hdot := List.head?_dropWhile_not (· != '.') s.toList.reverse
    have hmem : c ∈ s.toList.reverse :=
      (List.dropWhile_sublist _).mem (hrest ▸ List.mem_cons_self)
    rw [hrest] at hdot
    have hc : c = '.' := by simpa using hdot
    exact iff_of_false (by simp) fun h => h (hc ▸ List.mem_reverse.mp hmem)

/-- `_DATABENTO_MIC_TO_EXCHANGE_NAME`. -/
def databentoMicToExchangeName : List (String × String) :=
  [("XNAS", "NASDAQ"), ("XNYS", "NYSE"), ("XARC", "ARCA"), ("ARCX", "ARCA"), ("XASE", "AMEX"),
    ("BATS", "BATS"), ("BATY", "BATY"), ("EDGA", "EDGA"), ("EDGX", "EDGX"), ("IEXG", "IEX"),
    ("XBOS", "BOSTON"), ("XPSX", "PSX"), ("XCHI", "CHX"), ("XCIS", "NSX"), ("MEMX", "MEMX"),
    ("EPRL", "PEARL"), ("GLBX", "CME")]

/-- `normalize_alias_for_registry`. -/
def normalizeAliasForRegistry (provider : Provider) (aliasString : String) :
    Except UpsertError String :=
  match provider with
  | .interactiveBrokers => .ok aliasString
  | .databento =>
    match rpartitionDot aliasString with
    | none => .error (.noVenueSuffix aliasString)
    | some (symbol, mic) =>
      match databentoMicToExchangeName.lookup mic with
      | none => .error (.unmappedMic aliasString mic)
      | some exchangeName => .ok (symbol ++ "." ++ exchangeName)

/-- The slash form of a currency pair. -/
def storedRawSymbol (assetClass : AssetClass) (rawSymbol : String) : String :=
  if assetClass = .fx ∧ '/' ∉ rawSymbol.toList ∧ rawSymbol.toList.count '.' = 1 then
    String.ofList (rawSymbol.toList.map fun c => if c = '.' then '/' else c)
  else rawSymbol

/-- The venue the provider gave, where the alias is normalized. -/
def storedSourceVenue (c : UpsertArgs) : Option String :=
  if c.provider = .databento ∧ c.venueFormat = .micCode ∧ c.sourceVenueRaw = none then
    (rpartitionDot c.aliasString).map (·.2)
  else c.sourceVenueRaw

/-- The arguments as they are stored. -/
def prepare (c : UpsertArgs) : Except UpsertError UpsertArgs :=
  let stored : UpsertArgs :=
    { c with
      rawSymbol := storedRawSymbol c.assetClass c.rawSymbol
      sourceVenueRaw := storedSourceVenue c }
  match c.venueFormat with
  | .micCode =>
    (normalizeAliasForRegistry c.provider c.aliasString).map fun a =>
      { stored with aliasString := a }
  | _ => .ok stored

/-! ### The statements of a call -/

/-- The row has the columns of `uq_instrument_definitions_symbol_provider_asset`. -/
def Definition.isOf (d : Definition) (c : UpsertArgs) : Bool :=
  d.rawSymbol == c.rawSymbol && d.provider == c.provider && d.assetClass == c.assetClass

section Statements

variable (s : Registry) (c : UpsertArgs)

/-- The `instrument_uid` the upsert of the definition returns. -/
def instrumentUid : ℕ := ((s.definitions.find? (·.isOf c)).map (·.instrumentUid)).getD s.nextUid

/-- The definitions with the venues of the call. -/
def upsertDefinition : List Definition :=
  if s.definitions.any (·.isOf c) then
    s.definitions.map fun d =>
      if d.isOf c then { d with listingVenue := c.listingVenue, routingVenue := c.routingVenue }
      else d
  else
    s.definitions ++
      [{ instrumentUid := s.nextUid, rawSymbol := c.rawSymbol, listingVenue := c.listingVenue
         routingVenue := c.routingVenue, assetClass := c.assetClass, provider := c.provider }]

/-- The row belongs to the instrument, under the provider of the call. -/
def isOwn (uid : ℕ) (r : Alias) : Bool := r.instrumentUid == uid && r.provider == c.provider

/-- `close_stmt`, of one row. -/
def closeOther (uid : ℕ) (r : Alias) : Alias :=
  if isOwn c uid r && r.effectiveTo.isNone && r.aliasString != c.aliasString then
    { r with effectiveTo := some c.today }
  else r

/-- Classes without expiry: their first alias holds from 1900-01-01 on. -/
def AssetClass.timeInvariant : AssetClass → Bool
  | .equity | .fx | .crypto => true
  | .futures | .option => false

/-- `effective_from`. -/
def effectiveFrom (uid : ℕ) : ℕ :=
  if c.assetClass.timeInvariant && !s.aliases.any (isOwn c uid) then 0 else c.today

/-- The row of the alias. -/
def newAlias (uid : ℕ) : Alias :=
  { instrumentUid := uid, aliasString := c.aliasString, venueFormat := c.venueFormat
    sourceVenueRaw := c.sourceVenueRaw, provider := c.provider
    effectiveFrom := effectiveFrom s c uid, effectiveTo := none }

end Statements

/-- `INSERT … ON CONFLICT DO UPDATE SET effective_to = NULL`. -/
def insertAlias (rows : List Alias) (new : Alias) : List Alias :=
  if rows.any (·.key == new.key) then
    rows.map fun r => if r.key == new.key then { r with effectiveTo := none } else r
  else rows ++ [new]

/-- The call with its arguments as they are stored. -/
def upsertStored (s : Registry) (c : UpsertArgs) : Except UpsertError Registry :=
  let uid := instrumentUid s c
  let closed := s.aliases.map (closeOther c uid)
  if closed.all (·.windowOk) then
    .ok
      { definitions := upsertDefinition s c
        aliases := insertAlias closed (newAlias s c uid)
        nextUid := if s.definitions.any (·.isOf c) then s.nextUid else s.nextUid + 1
        today := c.today }
  else .error .integrityError

/-- `_upsert_definition_and_alias`. -/
def upsert (s : Registry) (c : UpsertArgs) : Except UpsertError Registry :=
  (prepare c).bind (upsertStored s)

/-- One call, at a date that is not before the last. -/
def registryStep (s : Registry) (c : UpsertArgs) : Option Registry :=
  if c.today < s.today then none
  else
    match upsert s c with
    | .ok t => some t
    | .error _ => some { s with today := c.today }

/-- The calls as a transition system. -/
def registrySystem : TransitionSystem Registry UpsertArgs where
  step := registryStep

/-! ### The property and the condition -/

/-- The open rows of an instrument under a provider. -/
def Registry.openAliases (s : Registry) (uid : ℕ) (provider : Provider) : List Alias :=
  s.aliases.filter fun r =>
    r.instrumentUid == uid && r.provider == provider && r.effectiveTo.isNone

/-- One row of the instrument is open, and it has the alias. -/
def OneOpen (s : Registry) (uid : ℕ) (provider : Provider) (aliasString : String) : Prop :=
  ∃ r, s.openAliases uid provider = [r] ∧ r.aliasString = aliasString

/-- What a call that returns leaves open. -/
def LeavesOneOpen (s : Registry) (c : UpsertArgs) : Prop :=
  ∀ c', prepare c = .ok c' → ∀ t, upsertStored s c' = .ok t →
    OneOpen t (instrumentUid s c') c'.provider c'.aliasString

/-- The open rows of the instrument that have the alias under another date. -/
def othersOpen (s : Registry) (c : UpsertArgs) (uid : ℕ) : ℕ :=
  s.aliases.countP fun r => isOwn c uid r && r.effectiveTo.isNone &&
    r.aliasString == c.aliasString && r.effectiveFrom != effectiveFrom s c uid

/-- The key of the new row is another instrument's. -/
def keyIsForeign (s : Registry) (c : UpsertArgs) (uid : ℕ) : Bool :=
  s.aliases.any fun r => r.key == (newAlias s c uid).key && r.instrumentUid != uid

/-- What the condition asks of one call. -/
def singleRowCall (s : Registry) (c : UpsertArgs) : Bool :=
  match prepare c with
  | .error _ => true
  | .ok c' =>
    decide (othersOpen s c' (instrumentUid s c')
      = if keyIsForeign s c' (instrumentUid s c') then 1 else 0)

/-- The condition: no open row of the instrument has the alias under another date, or exactly one
    where the key of the call is another instrument's. -/
def SingleRowCall (s : Registry) (c : UpsertArgs) : Prop := singleRowCall s c = true

instance (s : Registry) (c : UpsertArgs) : Decidable (SingleRowCall s c) :=
  inferInstanceAs (Decidable (singleRowCall s c = true))

/-- What every call keeps. -/
structure WellKept (s : Registry) : Prop where
  keys : (s.aliases.map Alias.key).Nodup
  past : ∀ r ∈ s.aliases, r.effectiveFrom ≤ s.today
  windows : ∀ r ∈ s.aliases, r.windowOk = true

/-! ### One call -/

section Call

variable {s t : Registry} {c : UpsertArgs} {uid : ℕ} {r : Alias}

@[simp] theorem closeOther_key : (closeOther c uid r).key = r.key := by
  unfold closeOther
  split <;> rfl

@[simp] theorem closeOther_instrumentUid :
    (closeOther c uid r).instrumentUid = r.instrumentUid := by
  unfold closeOther
  split <;> rfl

@[simp] theorem closeOther_provider : (closeOther c uid r).provider = r.provider := by
  unfold closeOther
  split <;> rfl

@[simp] theorem closeOther_aliasString : (closeOther c uid r).aliasString = r.aliasString := by
  unfold closeOther
  split <;> rfl

@[simp] theorem closeOther_effectiveFrom :
    (closeOther c uid r).effectiveFrom = r.effectiveFrom := by
  unfold closeOther
  split <;> rfl

@[simp] theorem closeOther_isOwn : isOwn c uid (closeOther c uid r) = isOwn c uid r := by
  simp [isOwn]

/-- A row of the instrument stays open if it has the alias. -/
theorem closeOther_isOpen (hown : isOwn c uid r = true) :
    (closeOther c uid r).effectiveTo.isNone
      = (r.effectiveTo.isNone && r.aliasString == c.aliasString) := by
  unfold closeOther
  cases hopen : r.effectiveTo.isNone <;> by_cases halias : r.aliasString = c.aliasString <;>
    simp [hown, hopen, halias]

/-- A row of another instrument is left. -/
theorem closeOther_of_not_own (hown : isOwn c uid r = false) : closeOther c uid r = r := by
  simp [closeOther, hown]

/-- Counting by cases. -/
theorem countP_ite {α : Type} (l : List α) (p q q' : α → Bool) :
    l.countP (fun a => if p a then q a else q' a)
      = l.countP (fun a => p a && q a) + l.countP (fun a => !p a && q' a) := by
  induction l with
  | nil => rfl
  | cons a l ih =>
    simp only [List.countP_cons, ih]
    cases p a <;> simp <;> omega

/-- Of the rows with one key there is one. -/
theorem countP_key {rows : List Alias} (hkeys : (rows.map Alias.key).Nodup) (hr : r ∈ rows)
    (p : Alias → Bool) :
    rows.countP (fun r' => r'.key == r.key && p r') = if p r then 1 else 0 := by
  induction rows with
  | nil => cases hr
  | cons a rows ih =>
    obtain ⟨hnot, hkeys⟩ := List.nodup_cons.mp hkeys
    -- no later row has the key again
    have hrest : r = a → rows.countP (fun r' => r'.key == r.key && p r') = 0 := by
      rintro rfl
      refine List.countP_eq_zero.mpr fun r' hr' => ?_
      have hne : r'.key ≠ r.key := fun heq => hnot (heq ▸ List.mem_map_of_mem hr')
      simp [hne]
    rw [List.countP_cons]
    by_cases ha : r = a
    · rw [hrest ha, ha]
      simp
    · have hmem : r ∈ rows := (List.mem_cons.mp hr).resolve_left ha
      have hne : a.key ≠ r.key := fun heq => hnot (heq ▸ List.mem_map_of_mem hmem)
      rw [ih hkeys hmem]
      simp [hne]

/-- A row of the instrument with the alias has the key of the new row under the same date. -/
theorem key_eq_newAlias (hown : isOwn c uid r = true) (halias : r.aliasString = c.aliasString) :
    (r.key == (newAlias s c uid).key) = (r.effectiveFrom == effectiveFrom s c uid) := by
  simp only [isOwn, Bool.and_eq_true, beq_iff_eq] at hown
  rw [Bool.eq_iff_iff]
  simp [Alias.key, newAlias, halias, hown.2]

/-- The open rows of the instrument under other keys. -/
theorem countP_others (s : Registry) (c : UpsertArgs) (uid : ℕ) :
    s.aliases.countP (fun r => !(r.key == (newAlias s c uid).key) &&
      (isOwn c uid r && (r.effectiveTo.isNone && r.aliasString == c.aliasString)))
      = othersOpen s c uid := by
  refine List.countP_congr fun r _ => ?_
  by_cases hown : isOwn c uid r = true
  · -- under the alias of the call the key differs by the date alone
    by_cases halias : r.aliasString = c.aliasString
    · rw [key_eq_newAlias hown halias]
      simp [hown, halias, and_comm]
    · simp [hown, halias]
  · simp [hown]

/-- An open row of the instrument behind the call: under another key it was open before. -/
theorem isOpen_closeOther (r : Alias) :
    ((closeOther c uid r).instrumentUid == uid && (closeOther c uid r).provider == c.provider &&
      (closeOther c uid r).effectiveTo.isNone)
      = (isOwn c uid r && (r.effectiveTo.isNone && r.aliasString == c.aliasString)) := by
  cases hown : isOwn c uid r with
  | true => simpa [isOwn, closeOther_isOpen hown] using fun _ _ => hown
  | false =>
    rw [closeOther_of_not_own hown]
    have hnot : (r.instrumentUid == uid && r.provider == c.provider) = false := hown
    simp [hnot]

/-- The key of the new row is there. -/
theorem countP_openRows_of_key (hkeys : (s.aliases.map Alias.key).Nodup) {r₀ : Alias}
    (hr₀ : r₀ ∈ s.aliases) (hkey : r₀.key = (newAlias s c uid).key) :
    (insertAlias (s.aliases.map (closeOther c uid)) (newAlias s c uid)).countP
      (fun r => r.instrumentUid == uid && r.provider == c.provider && r.effectiveTo.isNone)
      = othersOpen s c uid + if keyIsForeign s c uid then 0 else 1 := by
  have hany : (s.aliases.map (closeOther c uid)).any (·.key == (newAlias s c uid).key) = true := by
    simp only [List.any_map, List.any_eq_true, Function.comp_apply, closeOther_key, beq_iff_eq]
    exact ⟨r₀, hr₀, hkey⟩
  have hown : ∀ r : Alias, r.key = (newAlias s c uid).key → r.provider = c.provider :=
    fun r hr => congrArg (fun k => k.2.1) hr
  -- the row with the key is reopened whoever has it, the others of the alias stay open
  have hsplit : ∀ r : Alias,
      (fun r : Alias => r.instrumentUid == uid && r.provider == c.provider && r.effectiveTo.isNone)
        (if (closeOther c uid r).key == (newAlias s c uid).key
          then { closeOther c uid r with effectiveTo := none } else closeOther c uid r)
      = if r.key == (newAlias s c uid).key then r.instrumentUid == uid
        else isOwn c uid r && (r.effectiveTo.isNone && r.aliasString == c.aliasString) := by
    intro r
    by_cases hr : r.key = (newAlias s c uid).key
    · simp [hr, hown r hr]
    · simp only [closeOther_key, beq_iff_eq, if_neg hr]
      exact isOpen_closeOther r
  -- the key has one row, so it is foreign exactly if that row is
  have hforeign : keyIsForeign s c uid = (r₀.instrumentUid != uid) := by
    have hcount := countP_key hkeys hr₀ fun r => r.instrumentUid != uid
    rw [hkey] at hcount
    rw [keyIsForeign, Bool.eq_iff_iff, List.any_eq_true, ← List.countP_pos_iff, hcount]
    by_cases hne : r₀.instrumentUid != uid <;> simp [hne]
  rw [insertAlias, if_pos hany, List.map_map, List.countP_map]
  have hcongr : s.aliases.countP ((fun r : Alias => r.instrumentUid == uid &&
      r.provider == c.provider && r.effectiveTo.isNone) ∘
      ((fun r => if r.key == (newAlias s c uid).key then { r with effectiveTo := none } else r) ∘
        closeOther c uid))
      = s.aliases.countP fun r => if r.key == (newAlias s c uid).key then r.instrumentUid == uid
        else isOwn c uid r && (r.effectiveTo.isNone && r.aliasString == c.aliasString) :=
    List.countP_congr fun r _ => by rw [← hsplit r]; rfl
  have hself := countP_key hkeys hr₀ fun r => r.instrumentUid == uid
  rw [hkey] at hself
  rw [hcongr, countP_ite, hself, countP_others, hforeign]
  by_cases hid : r₀.instrumentUid = uid <;> simp [hid, Nat.add_comm]

/-- The key of the new row is not there. -/
theorem countP_openRows_of_fresh (hfresh : ∀ r ∈ s.aliases, r.key ≠ (newAlias s c uid).key) :
    (insertAlias (s.aliases.map (closeOther c uid)) (newAlias s c uid)).countP
      (fun r => r.instrumentUid == uid && r.provider == c.provider && r.effectiveTo.isNone)
      = othersOpen s c uid + if keyIsForeign s c uid then 0 else 1 := by
  have hany : (s.aliases.map (closeOther c uid)).any (·.key == (newAlias s c uid).key) = false := by
    simpa [List.any_eq_false] using hfresh
  have hforeign : keyIsForeign s c uid = false := by
    refine List.any_eq_false.mpr fun r hr => ?_
    simp [hfresh r hr]
  rw [insertAlias, if_neg (by simp [hany]), List.countP_append, List.countP_map, hforeign,
    ← countP_others]
  -- the new row is appended, and closing leaves the open ones of the alias
  have hrest : s.aliases.countP ((fun r : Alias => r.instrumentUid == uid &&
      r.provider == c.provider && r.effectiveTo.isNone) ∘ closeOther c uid)
      = s.aliases.countP fun r => !(r.key == (newAlias s c uid).key) &&
        (isOwn c uid r && (r.effectiveTo.isNone && r.aliasString == c.aliasString)) := by
    refine List.countP_congr fun r hr => ?_
    have hne : (r.key == (newAlias s c uid).key) = false := by simpa using hfresh r hr
    rw [Function.comp_apply, isOpen_closeOther, hne]
    simp
  rw [hrest]
  simp [newAlias]

/-- The rows behind an insert: the new one, an old one, or the old one with its key. -/
theorem mem_insertAlias_cases {rows : List Alias} {new : Alias} (hr : r ∈ insertAlias rows new) :
    r = new ∨ (r ∈ rows ∧ r.key ≠ new.key) ∨
      ∃ r₀ ∈ rows, r₀.key = new.key ∧ r = { r₀ with effectiveTo := none } := by
  unfold insertAlias at hr
  split at hr
  · obtain ⟨r₀, hr₀, rfl⟩ := List.mem_map.mp hr
    split
    · rename_i hkey
      exact Or.inr (Or.inr ⟨r₀, hr₀, by simpa using hkey, rfl⟩)
    · rename_i hkey
      exact Or.inr (Or.inl ⟨hr₀, by simpa using hkey⟩)
  · rename_i hany
    rcases List.mem_append.mp hr with hold | hnew
    · have hne : r.key ≠ new.key := by simpa using fun h => hany (List.any_eq_true.mpr ⟨r, hold, h⟩)
      exact Or.inr (Or.inl ⟨hold, hne⟩)
    · exact Or.inl (List.mem_singleton.mp hnew)

/-- The date is stored as it is. -/
theorem prepare_today {c' : UpsertArgs} (h : prepare c = .ok c') : c'.today = c.today := by
  simp only [prepare] at h
  split at h
  · cases hname : normalizeAliasForRegistry c.provider c.aliasString with
    | error e =>
      rw [hname] at h
      cases h
    | ok a =>
      rw [hname] at h
      obtain rfl := Except.ok.inj h
      rfl
  · obtain rfl := Except.ok.inj h
    rfl

/-- What a call that returns makes of the registry. -/
theorem upsertStored_eq_ok (ht : upsertStored s c = .ok t) :
    t.aliases = insertAlias (s.aliases.map (closeOther c (instrumentUid s c)))
        (newAlias s c (instrumentUid s c)) ∧
      t.definitions = upsertDefinition s c ∧ t.today = c.today := by
  simp only [upsertStored] at ht
  split at ht
  · obtain rfl := Except.ok.inj ht
    exact ⟨rfl, rfl, rfl⟩
  · cases ht

/-- The open rows of the instrument have the alias of the call. -/
theorem aliasString_of_open (ht : upsertStored s c = .ok t)
    (hr : r ∈ t.openAliases (instrumentUid s c) c.provider) : r.aliasString = c.aliasString := by
  obtain ⟨hmem, hopen⟩ := List.mem_filter.mp hr
  rw [(upsertStored_eq_ok ht).1] at hmem
  rcases mem_insertAlias_cases hmem with rfl | ⟨hold, _⟩ | ⟨r₀, _, hkey, rfl⟩
  · rfl
  · obtain ⟨r₀, _, rfl⟩ := List.mem_map.mp hold
    rw [isOpen_closeOther] at hopen
    simp only [Bool.and_eq_true, beq_iff_eq] at hopen
    rw [closeOther_aliasString]
    exact hopen.2.2
  · exact congrArg Prod.fst hkey

/-- **The open rows behind a call.** -/
theorem WellKept.length_openAliases (h : WellKept s) (ht : upsertStored s c = .ok t) :
    (t.openAliases (instrumentUid s c) c.provider).length
      = othersOpen s c (instrumentUid s c)
        + if keyIsForeign s c (instrumentUid s c) then 0 else 1 := by
  rw [Registry.openAliases, ← List.countP_eq_length_filter, (upsertStored_eq_ok ht).1]
  by_cases hkey : ∃ r ∈ s.aliases, r.key = (newAlias s c (instrumentUid s c)).key
  · obtain ⟨r₀, hr₀, hkey⟩ := hkey
    exact countP_openRows_of_key h.keys hr₀ hkey
  · exact countP_openRows_of_fresh fun r hr hr' => hkey ⟨r, hr, hr'⟩

/-- A call at a date that is not before the last keeps every window. -/
theorem WellKept.windows_closed (h : WellKept s) (htoday : s.today ≤ c.today) (uid : ℕ) :
    ∀ r ∈ s.aliases.map (closeOther c uid), r.windowOk = true := by
  intro r hr
  obtain ⟨r₀, hr₀, rfl⟩ := List.mem_map.mp hr
  unfold closeOther
  split
  · -- a window that is closed today began at the last call or before
    have hpast := h.past r₀ hr₀
    have hle : r₀.effectiveFrom ≤ c.today := by omega
    simpa [Alias.windowOk] using hle
  · exact h.windows r₀ hr₀

/-- Such a call returns. -/
theorem WellKept.upsertStored_ok (h : WellKept s) (htoday : s.today ≤ c.today) :
    ∃ t, upsertStored s c = .ok t := by
  have hall := List.all_eq_true.mpr (h.windows_closed htoday (instrumentUid s c))
  simp only [upsertStored, hall, if_true]
  exact ⟨_, rfl⟩

theorem effectiveFrom_le (s : Registry) (c : UpsertArgs) (uid : ℕ) :
    effectiveFrom s c uid ≤ c.today := by
  unfold effectiveFrom
  split <;> omega

/-- The keys stay apart. -/
theorem nodup_insertAlias {rows : List Alias} {new : Alias} (h : (rows.map Alias.key).Nodup) :
    ((insertAlias rows new).map Alias.key).Nodup := by
  unfold insertAlias
  split
  · -- reopening a row does not change its key
    have hmap : (rows.map fun r => if r.key == new.key then { r with effectiveTo := none }
        else r).map Alias.key = rows.map Alias.key := by
      rw [List.map_map]
      refine List.map_congr_left fun r _ => ?_
      simp only [Function.comp_apply]
      split <;> rfl
    rw [hmap]
    exact h
  · rename_i hany
    have hnew : new.key ∉ rows.map Alias.key := by
      simpa [List.any_eq_true] using hany
    rw [List.map_append, List.map_singleton]
    exact List.Nodup.append h (List.nodup_singleton _) (by simpa using hnew)

/-- A call that returns keeps the rows in order. -/
theorem WellKept.upsertStored (h : WellKept s) (htoday : s.today ≤ c.today)
    (ht : upsertStored s c = .ok t) : WellKept t := by
  obtain ⟨haliases, _, hday⟩ := upsertStored_eq_ok ht
  have hclosed := h.windows_closed htoday (instrumentUid s c)
  refine ⟨?_, fun r hr => ?_, fun r hr => ?_⟩
  · have hkeys : (s.aliases.map (closeOther c (instrumentUid s c))).map Alias.key
        = s.aliases.map Alias.key := by
      rw [List.map_map]
      exact List.map_congr_left fun r _ => closeOther_key
    rw [haliases]
    exact nodup_insertAlias (hkeys ▸ h.keys)
  · rw [haliases] at hr
    rw [hday]
    have hold : ∀ r₀ ∈ s.aliases, r₀.effectiveFrom ≤ c.today :=
      fun r₀ hr₀ => Nat.le_trans (h.past r₀ hr₀) htoday
    rcases mem_insertAlias_cases hr with rfl | ⟨hmem, _⟩ | ⟨r₁, hmem, _, rfl⟩
    · exact effectiveFrom_le s c _
    · obtain ⟨r₀, hr₀, rfl⟩ := List.mem_map.mp hmem
      rw [closeOther_effectiveFrom]
      exact hold r₀ hr₀
    · obtain ⟨r₀, hr₀, rfl⟩ := List.mem_map.mp hmem
      show (closeOther c _ r₀).effectiveFrom ≤ c.today
      rw [closeOther_effectiveFrom]
      exact hold r₀ hr₀
  · rw [haliases] at hr
    rcases mem_insertAlias_cases hr with rfl | ⟨hmem, _⟩ | ⟨r₁, _, _, rfl⟩
    · rfl
    · exact hclosed r hmem
    · rfl

/-- Another day. -/
theorem WellKept.later (h : WellKept s) {today : ℕ} (htoday : s.today ≤ today) :
    WellKept { s with today := today } :=
  ⟨h.keys, fun r hr => Nat.le_trans (h.past r hr) htoday, h.windows⟩

/-- **Step.** -/
theorem WellKept.step (h : WellKept s) (hs : registryStep s c = some t) : WellKept t := by
  simp only [registryStep] at hs
  split at hs
  · cases hs
  · rename_i htoday
    have hle : s.today ≤ c.today := Nat.le_of_not_lt htoday
    split at hs
    · rename_i t' hup
      obtain rfl := Option.some.inj hs
      rw [upsert] at hup
      cases hprepare : prepare c with
      | error e =>
        rw [hprepare] at hup
        cases hup
      | ok c' =>
        rw [hprepare] at hup
        have hday := prepare_today hprepare
        exact h.upsertStored (by omega) hup
    · obtain rfl := Option.some.inj hs
      exact h.later hle

/-- **One call.**  It leaves one row of the instrument open exactly if it meets the condition. -/
theorem WellKept.leavesOneOpen_iff (h : WellKept s) (htoday : s.today ≤ c.today) :
    LeavesOneOpen s c ↔ SingleRowCall s c := by
  unfold LeavesOneOpen SingleRowCall singleRowCall
  cases hprepare : prepare c with
  | error e => exact ⟨fun _ => rfl, fun _ c' hc' => by cases hc'⟩
  | ok c' =>
    have hday := prepare_today hprepare
    obtain ⟨t, ht⟩ := h.upsertStored_ok (c := c') (by omega)
    -- the one open row has the alias of the call in any case
    have hone : (t.openAliases (instrumentUid s c') c'.provider).length = 1 ↔
        OneOpen t (instrumentUid s c') c'.provider c'.aliasString := by
      refine ⟨fun hlength => ?_, ?_⟩
      · obtain ⟨r, hr⟩ := List.length_eq_one_iff.mp hlength
        refine ⟨r, hr, aliasString_of_open ht ?_⟩
        rw [hr]
        exact List.mem_singleton_self r
      · rintro ⟨r, hr, _⟩
        rw [hr]
        rfl
    have hlength := h.length_openAliases ht
    simp only [decide_eq_true_eq]
    constructor
    · intro hall
      have hcount := hone.mpr (hall c' rfl t ht)
      split at hlength <;> simp_all
    · intro hcount c'' hc'' t' ht'
      obtain rfl := Except.ok.inj hc''
      obtain rfl := Except.ok.inj (ht.symm.trans ht')
      refine hone.mp ?_
      split at hlength <;> simp_all

end Call

/-! ### Every sequence of calls -/

section Runs

variable {s t : Registry} {as : List UpsertArgs}

theorem wellKept_initial : WellKept .initial where
  keys := List.nodup_nil
  past := fun r hr => by cases hr
  windows := fun r hr => by cases hr

/-- The calls that leave one row open are those that meet the condition. -/
theorem leavesOneOpen_path_iff (h : WellKept s) :
    Path registrySystem LeavesOneOpen s as t ↔ Path registrySystem SingleRowCall s as t := by
  have hday : ∀ u c v, registryStep u c = some v → u.today ≤ c.today := by
    intro u c v hs
    by_contra hlt
    simp only [registryStep] at hs
    rw [if_pos (by omega)] at hs
    cases hs
  constructor <;> intro hpath
  · refine hpath.strengthen (I := WellKept) ?_ ?_ h
    · exact fun u c v hI _ hs => hI.step hs
    · exact fun u c v hI hC hs => (hI.leavesOneOpen_iff (hday u c v hs)).mp hC
  · refine hpath.strengthen (I := WellKept) ?_ ?_ h
    · exact fun u c v hI _ hs => hI.step hs
    · exact fun u c v hI hC hs => (hI.leavesOneOpen_iff (hday u c v hs)).mpr hC

/-- **Exactly one open alias.**  After every call of a sequence at dates that never decrease one
    row of the instrument is open, and has the alias of the call, exactly if the instrument has no
    other open row of the alias, or one where the key of the call is another instrument's. -/
theorem one_open_alias_iff :
    Path registrySystem LeavesOneOpen .initial as t ↔
      Path registrySystem SingleRowCall .initial as t :=
  leavesOneOpen_path_iff wellKept_initial

end Runs

/-! ### A refresh on a later day -/

/-- A call for one equity. -/
def refreshAapl (aliasString : String) (today : ℕ) : UpsertArgs :=
  { rawSymbol := "AAPL", listingVenue := "NASDAQ", routingVenue := "SMART", assetClass := .equity
    aliasString := aliasString, provider := .interactiveBrokers, venueFormat := .exchangeName
    sourceVenueRaw := none, today := today }

/-- The same alias on the next day: a second row is inserted, and the first one stays open. -/
theorem one_open_alias_fails :
    ∃ t, Path registrySystem anyStep .initial [refreshAapl "AAPL.NASDAQ" 46000] t ∧
      ∃ t', registryStep t (refreshAapl "AAPL.NASDAQ" 46001) = some t' ∧
        (t'.openAliases 0 .interactiveBrokers).map (·.effectiveFrom) = [0, 46001] ∧
        ¬LeavesOneOpen t (refreshAapl "AAPL.NASDAQ" 46001) := by
  obtain ⟨t, ht, hid, t', ht', hopen, hup⟩ : ∃ t,
      registrySystem.run .initial [refreshAapl "AAPL.NASDAQ" 46000] = some t ∧
      instrumentUid t (refreshAapl "AAPL.NASDAQ" 46001) = 0 ∧
      ∃ t', registryStep t (refreshAapl "AAPL.NASDAQ" 46001) = some t' ∧
        (t'.openAliases 0 .interactiveBrokers).map (·.effectiveFrom) = [0, 46001] ∧
        upsertStored t (refreshAapl "AAPL.NASDAQ" 46001) = .ok t' :=
    ⟨_, rfl, rfl, _, rfl, rfl, rfl⟩
  refine ⟨t, .of_run ht, t', ht', hopen, fun h => ?_⟩
  have hstored : prepare (refreshAapl "AAPL.NASDAQ" 46001)
      = .ok (refreshAapl "AAPL.NASDAQ" 46001) := rfl
  obtain ⟨r, hr, _⟩ := h _ hstored t' hup
  rw [hid] at hr
  change t'.openAliases 0 .interactiveBrokers = [r] at hr
  have hlength := congrArg List.length hopen
  rw [hr] at hlength
  cases hlength

/-- A change of venue and back on one day leaves one row open. -/
example : (registrySystem.runWhere SingleRowCall .initial
    [refreshAapl "AAPL.NASDAQ" 46000, refreshAapl "AAPL.ARCA" 46001,
      refreshAapl "AAPL.NASDAQ" 46001, refreshAapl "AAPL.ARCA" 46001]).isSome = true := by decide

end Msai.Instruments
