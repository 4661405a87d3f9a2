import Mathlib.Tactic.IntervalCases
import Msai.Instruments.LiveResolver
import Msai.Lib.PyDate
import Msai.Portfolio.Composition

namespace Msai.Instruments

open Msai.Lib
open Msai.Portfolio (Decimal)

/-!
# The identifier of a futures contract
(`services/nautilus/security_master`: `specs.py`, `live_resolver.py`)

`InstrumentSpec.canonical_id` writes a contract as its root, a letter for the month and the last
digit of the year; `_parse_futures_expiry` (`futuresExpiry`) reads year and month of it, beside the
year in which the alias became effective.

* `InstrumentSpec`, `InstrumentSpec.canonicalId` — the specification of an instrument, and its id;
* `canonicalId_isOk` — every specification that can be constructed has an id;
* `futuresExpiry_canonical`, `futuresExpiry_dotted` — what is read of an id;
* `futures_id_iff` — the ids of a root are read back exactly if the root has no dot.
-/

/-! ### Specifications -/

/-- A `date`. -/
structure Date where
  year : ℕ
  month : ℕ
  day : ℕ
  year_range : 1 ≤ year ∧ year ≤ 9999
  exists_day : Calendar.isDate year month day = true

theorem Date.month_range (d : Date) : 1 ≤ d.month ∧ d.month ≤ 12 := by
  have h := (Calendar.isDate_range d.exists_day).1
  omega

/-- `AssetClass` of `specs.py`. -/
inductive SpecClass
  | equity
  | future
  | option
  | forex
  | index
deriving DecidableEq, Repr

/-- `OptionRight`. -/
inductive OptionRight
  | call
  | put
deriving DecidableEq, Repr

def OptionRight.value : OptionRight → String
  | .call => "C"
  | .put => "P"

/-- The fields of an `InstrumentSpec`. -/
structure SpecFields where
  assetClass : SpecClass
  symbol : String
  venue : String
  currency : String := "USD"
  expiry : Option Date := none
  strike : Option Decimal := none
  right : Option OptionRight := none
  underlying : Option String := none

/-- `f"{self.asset_class}"`. -/
def SpecClass.value : SpecClass → String
  | .equity => "equity"
  | .future => "future"
  | .option => "option"
  | .forex => "forex"
  | .index => "index"

/-- `__post_init__`, or the text of its `ValueError`. -/
def SpecFields.postInit (s : SpecFields) : Except String Unit :=
  if s.symbol = "" then .error "symbol is required"
  else if s.venue = "" then .error "venue is required"
  else
    match s.assetClass with
    | .option =>
      if s.expiry.isNone then .error "option spec requires an expiry"
      else if s.strike.isNone then .error "option spec requires a strike"
      else if s.right.isNone then .error "option spec requires a right (C or P)"
      else if s.underlying.isNone then .error "option spec requires an underlying symbol"
      else .ok ()
    | .future => .ok ()
    | .forex =>
      if s.currency = "" then .error "forex spec requires a (quote) currency" else .ok ()
    | .equity | .index =>
      if s.strike.isSome || s.right.isSome then
        .error (s.assetClass.value ++
          " spec cannot have strike/right — those are option-only fields")
      else .ok ()

/-- An `InstrumentSpec`: the constructor has not raised. -/
structure InstrumentSpec extends SpecFields where
  valid : toSpecFields.postInit = .ok ()

/-- `_FUT_MONTH_CODES`. -/
def futMonthCodes : List (ℕ × Char) :=
  [(1, 'F'), (2, 'G'), (3, 'H'), (4, 'J'), (5, 'K'), (6, 'M'), (7, 'N'), (8, 'Q'), (9, 'U'),
    (10, 'V'), (11, 'X'), (12, 'Z')]

/-- `str(year)[-1]`. -/
def yearDigit (year : ℕ) : Char := (toString year).toList.getLastD '0'

/-- What is used to write an option: `f"{float(strike):g}"` and `strftime("%Y%m%d")`. -/
structure OptionFormat where
  strike : Decimal → String
  expiry : Date → String

/-- Why `canonical_id` raises. -/
inductive CanonicalIdError
  | keyError (month : ℕ)
  | assertionError
deriving DecidableEq, Repr

/-- `canonical_id`. -/
def InstrumentSpec.canonicalId (format : OptionFormat) (s : InstrumentSpec) :
    Except CanonicalIdError String :=
  match s.assetClass with
  | .equity => .ok (s.symbol ++ "." ++ s.venue)
  | .index =>
    let sym := if s.symbol.toList.head? = some '^' then s.symbol else "^" ++ s.symbol
    .ok (sym ++ "." ++ s.venue)
  | .future =>
    match s.expiry with
    | none => .ok (s.symbol ++ "." ++ s.venue)
    | some expiry =>
      match futMonthCodes.lookup expiry.month with
      | none => .error (.keyError expiry.month)
      | some monthCode =>
        .ok (s.symbol ++ String.singleton monthCode ++ String.singleton (yearDigit expiry.year) ++
          "." ++ s.venue)
  | .option =>
    match s.expiry, s.strike, s.right, s.underlying with
    | some expiry, some strike, some right, some underlying =>
      .ok (right.value ++ " " ++ underlying ++ " " ++ format.expiry expiry ++ " " ++
        format.strike strike ++ "." ++ s.venue)
    | _, _, _, _ => .error .assertionError
  | .forex => .ok (s.symbol ++ "/" ++ s.currency ++ "." ++ s.venue)

/-! ### The property -/

/-- The year and the month of a contract, as the parser writes them. -/
def contractMonth (expiry : Date) : String :=
  fourDigits expiry.year ++ String.ofList (PyDate.twoDigits expiry.month)

/-- A contract of the root that expires in the month of the date. -/
structure IsContract (root : String) (expiry : Date) (s : InstrumentSpec) : Prop where
  future : s.assetClass = .future
  symbol : s.symbol = root
  expiry : s.expiry = some expiry

/-- The ids of the contracts of a root are read back, beside every date up to nine years before;
    and contracts less than ten years apart have different ids. -/
structure RoundTrips (format : OptionFormat) (root : String) : Prop where
  expiry : ∀ s expiry, IsContract root expiry s → ∀ effectiveFrom : Date,
    expiry.year ≤ effectiveFrom.year + 9 → effectiveFrom.year ≤ expiry.year →
      ∃ id, s.canonicalId format = .ok id ∧
        futuresExpiry id effectiveFrom.year root = .ok (contractMonth expiry)
  distinct : ∀ s s' expiry expiry', IsContract root expiry s → IsContract root expiry' s' →
    expiry.year < expiry'.year + 10 → expiry'.year < expiry.year + 10 →
      s.canonicalId format = s'.canonicalId format →
        s.venue = s'.venue ∧ expiry.year = expiry'.year ∧ expiry.month = expiry'.month

/-! ### The ids -/

section Ids

variable {format : OptionFormat} {s s' : InstrumentSpec} {root venue : String}
  {expiry expiry' : Date} {code : Char} {base : ℕ}

/-- The letter of a month is read as the month. -/
theorem futMonthCodes_lookup {m : ℕ} (hm : 1 ≤ m ∧ m ≤ 12) : ∃ code,
    futMonthCodes.lookup m = some code ∧ code ≠ '.' ∧
      futuresMonthCodes.lookup code = some (String.ofList (PyDate.twoDigits m)) := by
  obtain ⟨hlow, hhigh⟩ := hm
  interval_cases m
  all_goals exact ⟨_, rfl, by decide, by decide⟩

/-- What the constructor has checked of an option. -/
theorem InstrumentSpec.option_fields (s : InstrumentSpec) (hoption : s.assetClass = .option) :
    ∃ expiry strike right underlying, s.expiry = some expiry ∧ s.strike = some strike ∧
      s.right = some right ∧ s.underlying = some underlying := by
  have hvalid := s.valid
  simp only [SpecFields.postInit, hoption] at hvalid
  split at hvalid
  · cases hvalid
  · split at hvalid
    · cases hvalid
    · split at hvalid
      · cases hvalid
      · split at hvalid
        · cases hvalid
        · split at hvalid
          · cases hvalid
          · split at hvalid
            · cases hvalid
            · rename_i hexpiry hstrike hright hunderlying
              obtain ⟨expiry, hexpiry⟩ := Option.ne_none_iff_exists'.mp
                fun h => hexpiry (Option.isNone_iff_eq_none.mpr h)
              obtain ⟨strike, hstrike⟩ := Option.ne_none_iff_exists'.mp
                fun h => hstrike (Option.isNone_iff_eq_none.mpr h)
              obtain ⟨right, hright⟩ := Option.ne_none_iff_exists'.mp
                fun h => hright (Option.isNone_iff_eq_none.mpr h)
              obtain ⟨underlying, hunderlying⟩ := Option.ne_none_iff_exists'.mp
                fun h => hunderlying (Option.isNone_iff_eq_none.mpr h)
              exact ⟨expiry, strike, right, underlying, hexpiry, hstrike, hright, hunderlying⟩

/-- **Every specification that can be constructed has an id.** -/
theorem canonicalId_isOk (s : InstrumentSpec) : ∃ id, s.canonicalId format = .ok id := by
  unfold InstrumentSpec.canonicalId
  cases hclass : s.assetClass with
  | equity => exact ⟨_, rfl⟩
  | index => exact ⟨_, rfl⟩
  | forex => exact ⟨_, rfl⟩
  | future =>
    cases hexpiry : s.expiry with
    | none => exact ⟨_, rfl⟩
    | some expiry =>
      obtain ⟨code, hcode, -⟩ := futMonthCodes_lookup expiry.month_range
      simp only [hcode]
      exact ⟨_, rfl⟩
  | option =>
    obtain ⟨expiry, strike, right, underlying, hexpiry, hstrike, hright, hunderlying⟩ :=
      s.option_fields hclass
    simp only [hexpiry, hstrike, hright, hunderlying]
    exact ⟨_, rfl⟩

theorem yearDigit_eq (year : ℕ) : yearDigit year = (year % 10).digitChar := by
  rw [yearDigit, Nat.toString_eq_ofList_toDigits, String.toList_ofList,
    Nat.toDigits_eq_if (by norm_num)]
  split
  · rename_i hlt
    rw [Nat.mod_eq_of_lt hlt]
    rfl
  · rw [List.getLastD_concat]

/-- **The id of a contract.** -/
theorem IsContract.canonicalId_eq (h : IsContract root expiry s) (format : OptionFormat) :
    ∃ id code,
    s.canonicalId format = .ok id ∧
      id.toList = root.toList ++ code :: (expiry.year % 10).digitChar :: '.' :: s.venue.toList ∧
      code ≠ '.' ∧
      futuresMonthCodes.lookup code = some (String.ofList (PyDate.twoDigits expiry.month)) := by
  obtain ⟨code, hcode, hdot, hread⟩ := futMonthCodes_lookup expiry.month_range
  refine ⟨root ++ String.singleton code ++ String.singleton (yearDigit expiry.year) ++ "." ++
    s.venue, code, ?_, ?_, hdot, hread⟩
  · simp only [InstrumentSpec.canonicalId, h.future, h.expiry, hcode, h.symbol]
  · rw [yearDigit_eq]
    simp only [String.toList_append, String.toList_singleton, List.append_assoc,
      List.cons_append, List.nil_append]
    rfl

/-- The decade in which a year of that digit is next. -/
theorem decade_eq {year : ℕ} (hlow : year ≤ base + 9) (hhigh : base ≤ year) :
    (if base / 10 * 10 + year % 10 < base then base / 10 * 10 + year % 10 + 10
      else base / 10 * 10 + year % 10) = year := by
  split <;> omega

/-- **An id is read back**, if its root has no dot. -/
theorem futuresExpiry_canonical {id : String} {year : ℕ} {month : String}
    (hid : id.toList = root.toList ++ code :: (year % 10).digitChar :: '.' :: venue.toList)
    (hroot : '.' ∉ root.toList) (hdot : code ≠ '.')
    (hcode : futuresMonthCodes.lookup code = some month)
    (hlow : year ≤ base + 9) (hhigh : base ≤ year) :
    futuresExpiry id base root = .ok (fourDigits year ++ month) := by
  have hlt : year % 10 < 10 := Nat.mod_lt _ (by norm_num)
  have hnumber : PyText.decimalValue (year % 10).digitChar = some (year % 10) :=
    PyText.decimalValue_digitChar hlt
  have hdigit : PyText.isDigit (year % 10).digitChar = true := by
    rw [PyText.isDigit, PyText.isDecimal, hnumber]
    rfl
  have hfront : id.toList.takeWhile (· != '.') =
      root.toList ++ [code, (year % 10).digitChar] := by
    have hne : ∀ c ∈ root.toList ++ [code, (year % 10).digitChar], (c != '.') = true := by
      intro c hc
      rw [bne_iff_ne]
      rintro rfl
      rcases List.mem_append.mp hc with hc | hc
      · exact hroot hc
      · rcases List.mem_cons.mp hc with hc | hc
        · exact hdot hc.symm
        · have hdot : PyText.decimalValue '.' = none := by decide
          rw [← List.mem_singleton.mp hc, hdot] at hnumber
          cases hnumber
    have hsplit : id.toList =
        (root.toList ++ [code, (year % 10).digitChar]) ++ '.' :: venue.toList := by
      rw [hid, List.append_assoc]
      rfl
    rw [hsplit, List.takeWhile_append_of_pos hne, List.takeWhile_cons_of_neg (by simp),
      List.append_nil]
  have hstarts : root.toList.isPrefixOf (root.toList ++ [code, (year % 10).digitChar]) = true :=
    List.isPrefixOf_iff_prefix.mpr (List.prefix_append _ _)
  simp only [futuresExpiry, hfront, hstarts, List.drop_left, hcode, hdigit, hnumber,
    decade_eq hlow hhigh, Bool.not_true, Bool.false_eq_true, if_false]

/-- **The first dot of an id ends the root**: one of its own, if it has one. -/
theorem futuresExpiry_dotted {id : String} {rest : List Char}
    (hid : id.toList = root.toList ++ rest) (hroot : '.' ∈ root.toList) :
    futuresExpiry id base root = .error (.registryIncomplete root (.rootMismatch id)) := by
  obtain ⟨front, tail, hsplit, hnotMem⟩ := List.eq_append_cons_of_mem hroot
  have hne : ∀ c ∈ front, (c != '.') = true := by
    intro c hc
    rw [bne_iff_ne]
    rintro rfl
    exact hnotMem hc
  have hfront : id.toList.takeWhile (· != '.') = front := by
    rw [hid, hsplit, List.append_assoc, List.takeWhile_append_of_pos hne, List.cons_append,
      List.takeWhile_cons_of_neg (by simp), List.append_nil]
  have hstarts : root.toList.isPrefixOf front = false := by
    rw [Bool.eq_false_iff]
    intro hstarts
    have hlength := (List.isPrefixOf_iff_prefix.mp hstarts).length_le
    rw [hsplit, List.length_append, List.length_cons] at hlength
    omega
  simp only [futuresExpiry, hfront, hstarts, Bool.not_false, if_true]

/-- A specification of a contract. -/
def futureSpec (root venue : String) (expiry : Date) (hroot : root ≠ "") (hvenue : venue ≠ "") :
    InstrumentSpec where
  assetClass := .future
  symbol := root
  venue := venue
  expiry := some expiry
  valid := by simp [SpecFields.postInit, hroot, hvenue]

theorem twoDigits_inj {m n : ℕ} (hm : m < 100) (hn : n < 100)
    (h : PyDate.twoDigits m = PyDate.twoDigits n) : m = n := by
  simp only [PyDate.twoDigits, List.cons.injEq, and_true] at h
  have htens := congrArg PyDate.digitOf h.1
  have hunits := congrArg PyDate.digitOf h.2
  rw [PyDate.digitOf_digit (by omega), PyDate.digitOf_digit (by omega)] at htens hunits
  have htens' := Option.some.inj htens
  have hunits' := Option.some.inj hunits
  omega

/-- **Ids of one root.**  Within ten years they differ. -/
theorem canonicalId_distinct (h : IsContract root expiry s) (h' : IsContract root expiry' s')
    (hlow : expiry.year < expiry'.year + 10) (hhigh : expiry'.year < expiry.year + 10)
    (heq : s.canonicalId format = s'.canonicalId format) :
    s.venue = s'.venue ∧ expiry.year = expiry'.year ∧ expiry.month = expiry'.month := by
  obtain ⟨id, code, hid, htext, hdot, hcode⟩ := h.canonicalId_eq format
  obtain ⟨id', code', hid', htext', hdot', hcode'⟩ := h'.canonicalId_eq format
  obtain rfl : id = id' := Except.ok.inj (hid.symm.trans (heq.trans hid'))
  have hrest := List.append_cancel_left (htext.symm.trans htext')
  simp only [List.cons.injEq, true_and] at hrest
  obtain ⟨rfl, hdigit, hvenue⟩ := hrest
  have hyear := congrArg Char.toNat hdigit
  rw [Nat.toNat_digitChar_of_lt_ten (Nat.mod_lt _ (by norm_num)),
    Nat.toNat_digitChar_of_lt_ten (Nat.mod_lt _ (by norm_num))] at hyear
  have hmonth : PyDate.twoDigits expiry.month = PyDate.twoDigits expiry'.month :=
    String.ofList_injective (Option.some.inj (hcode.symm.trans hcode'))
  have hsame : expiry.month = expiry'.month :=
    twoDigits_inj (by have := expiry.month_range; omega) (by have := expiry'.month_range; omega)
      hmonth
  exact ⟨String.toList_injective hvenue, by omega, hsame⟩

/-- **The ids of a root are read back** exactly if the root has no dot. -/
theorem futures_id_iff : RoundTrips format root ↔ '.' ∉ root.toList := by
  constructor
  · intro hround hroot
    have hne : root ≠ "" := by
      rintro rfl
      cases hroot
    let expiry : Date := ⟨2025, 6, 20, by decide, by decide⟩
    have hcontract : IsContract root expiry (futureSpec root "CME" expiry hne (by decide)) :=
      ⟨rfl, rfl, rfl⟩
    obtain ⟨id, hid, hread⟩ := hround.expiry _ _ hcontract expiry (by omega) le_rfl
    obtain ⟨id', code, hid', htext, -⟩ := hcontract.canonicalId_eq format
    obtain rfl : id = id' := Except.ok.inj (hid.symm.trans hid')
    rw [futuresExpiry_dotted htext hroot] at hread
    cases hread
  · intro hroot
    constructor
    · intro s expiry hcontract effectiveFrom hlow hhigh
      obtain ⟨id, code, hid, htext, hdot, hcode⟩ := hcontract.canonicalId_eq format
      exact ⟨id, hid, futuresExpiry_canonical htext hroot hdot hcode hlow hhigh⟩
    · exact fun s s' expiry expiry' h h' => canonicalId_distinct h h'

end Ids

/-! ### A root with a dot -/

/-- No option is written. -/
def noOptions : OptionFormat := { strike := fun _ => "", expiry := fun _ => "" }

def december2025 : Date := ⟨2025, 12, 30, by decide, by decide⟩

example : (futureSpec "6M" "CME" december2025 (by decide) (by decide)).canonicalId noOptions
      = .ok "6MZ5.CME" ∧
    futuresExpiry "6MZ5.CME" 2016 "6M" = .ok "202512" := by decide +kernel

/-- The contracts on the Hang Seng China Enterprises index have the root `HHI.HK`. -/
theorem futures_id_fails :
    (futureSpec "HHI.HK" "HKFE" december2025 (by decide) (by decide)).canonicalId noOptions
        = .ok "HHI.HKZ5.HKFE" ∧
      futuresExpiry "HHI.HKZ5.HKFE" 2025 "HHI.HK" =
        .error (.registryIncomplete "HHI.HK" (.rootMismatch "HHI.HKZ5.HKFE")) ∧
      ¬ RoundTrips noOptions "HHI.HK" := by
  have hid : (futureSpec "HHI.HK" "HKFE" december2025 (by decide) (by decide)).canonicalId noOptions
      = .ok "HHI.HKZ5.HKFE" := by decide +kernel
  have hread : futuresExpiry "HHI.HKZ5.HKFE" 2025 "HHI.HK"
      = .error (.registryIncomplete "HHI.HK" (.rootMismatch "HHI.HKZ5.HKFE")) := by
    decide +kernel
  refine ⟨hid, hread, fun hround => ?_⟩
  have hcontract : IsContract "HHI.HK" december2025
      (futureSpec "HHI.HK" "HKFE" december2025 (by decide) (by decide)) := ⟨rfl, rfl, rfl⟩
  obtain ⟨id, hid', hread'⟩ := hround.expiry _ _ hcontract december2025 (by decide) le_rfl
  obtain rfl := Except.ok.inj (hid.symm.trans hid')
  cases hread.symm.trans hread'

end Msai.Instruments
