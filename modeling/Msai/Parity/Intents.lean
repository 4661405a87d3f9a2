import Mathlib.Data.List.Perm.Basic
import Mathlib.Data.Prod.Lex
import Mathlib.Data.String.Basic
import Msai.Lib.Binary64
import Msai.Lib.IndexedFold
import Msai.Lib.PyText
import Msai.Lib.Ranking
import Msai.Portfolio.Composition

namespace Msai.Parity

open Msai.Lib
open Msai.Portfolio (Decimal)

/-!
# Order intents (`services/nautilus/parity`: `normalizer.py`, `comparator.py`)

The orders of a backtest and of a live run are brought into a normal form and compared position by
position.

* `readRow`, `normalizeOrdersDf` — a row of a report as an intent, and all rows, sorted by time and
  instrument;
* `compare` — the divergences of two lists;
* `compare_eq_nil` — there are none if the lists are equal and every quantity is a number;
* `IgnoresOrder` — the order of the rows does not matter;
* `RowsAgree` — the condition: rows of one time and instrument say the same;
* `normalize_ignores_order_iff` — they are equivalent.

Times are nanoseconds.  An intent has its quantity as the number it is: Python's decimals are equal
if their values are.
-/

/-! ### Quantities -/

/-- The value of a `Decimal`. -/
inductive Quantity
  | finite (value : ℚ)
  | infinity (negative : Bool)
  | nan
deriving DecidableEq

namespace Quantity

/-- `==` of two decimals. -/
def eq (a b : Quantity) : Bool := decide (a = b ∧ b ≠ .nan)

/-- The value of digits. -/
def ofDecimal (d : Decimal) : Quantity :=
  .finite ((if d.negative then -1 else 1) * d.coefficient * 10 ^ d.exponent)

end Quantity

/-- What `Decimal(text)` reads. -/
inductive DecimalText
  | digits (d : Decimal)
  | infinity (negative : Bool)
  | nan

/-- The exponent behind the digits. -/
def readExponent : List Char → Option ℤ
  | [] => some 0
  | e :: cs =>
    let negative := cs.head? == some '-'
    let ds := if negative ∨ cs.head? = some '+' then cs.drop 1 else cs
    if (e = 'e' ∨ e = 'E') ∧ ds ≠ [] ∧ ds.all Char.isDigit then
      some (if negative then -(Nat.ofDigitChars 10 ds 0 : ℤ) else Nat.ofDigitChars 10 ds 0)
    else none

/-- `Decimal(text)`; `none` is `InvalidOperation`. -/
def readDecimal (text : String) : Option DecimalText :=
  let cs := (PyText.stripChars text.toList).filter (· ≠ '_')
  let negative := cs.head? == some '-'
  let body := if negative ∨ cs.head? = some '+' then cs.drop 1 else cs
  let word := body.map Char.toLower
  if word = "inf".toList ∨ word = "infinity".toList then some (.infinity negative)
  else if "nan".toList.isPrefixOf word ∧ (word.drop 3).all Char.isDigit then some .nan
  else
    let whole := body.takeWhile Char.isDigit
    let tail := body.dropWhile Char.isDigit
    let point := tail.head? == some '.'
    let fraction := if point then (tail.drop 1).takeWhile Char.isDigit else []
    let rest := if point then (tail.drop 1).dropWhile Char.isDigit else tail
    if whole = [] ∧ fraction = [] then none
    else (readExponent rest).map fun e => .digits
      { negative := negative, coefficient := Nat.ofDigitChars 10 (whole ++ fraction) 0
        exponent := e - fraction.length }

/-- `qty`. -/
def DecimalText.quantity : DecimalText → Quantity
  | .digits d => .ofDecimal d
  | .infinity negative => .infinity negative
  | .nan => .nan

/-- `-qty`, rounded to the 28 digits of the context. -/
def DecimalText.negated : DecimalText → Quantity
  | .digits d =>
    let extra := (toString d.coefficient).length - 28
    .ofDecimal
      { negative := !d.negative
        coefficient := Decimal.divHalfEven d.coefficient extra
        exponent := d.exponent + extra }
  | .infinity negative => .infinity !negative
  | .nan => .nan

/-! ### The normal form -/

/-- A cell of a report.  A `datetime` has its reading and, if it has a zone, the offset. -/
inductive Cell
  | int (n : ℤ)
  | datetime (reading : ℤ) (utcoffset : Option ℤ)
  | str (s : String)
  | other (typeName : String)
deriving DecidableEq

/-- A data frame: its columns and the cells of each row. -/
structure OrdersTable where
  columns : List String
  rows : List (String → Cell)

inductive OrderSide
  | buy
  | sell
deriving DecidableEq, Repr

/-- `decision_timestamp`, `instrument_id`, `side` and `signed_qty`. -/
structure OrderIntent where
  decisionTimestamp : ℤ
  instrumentId : String
  side : OrderSide
  signedQty : Quantity
deriving DecidableEq

/-- `==` of two intents. -/
def OrderIntent.eq (i j : OrderIntent) : Bool :=
  decide (i.decisionTimestamp = j.decisionTimestamp) && decide (i.instrumentId = j.instrumentId) &&
    decide (i.side = j.side) && i.signedQty.eq j.signedQty

inductive NormalizeError
  | keyError (text : String)
  | valueError (text : String)
  | typeError (text : String)
  | timestampOutOfRange
  | invalidOperation
deriving DecidableEq

/-- What is used of the language: `str.upper`, `str` and `repr` of a cell, `repr` of a tuple of
    texts, and `datetime.fromisoformat(…).astimezone(UTC)`. -/
structure Environment where
  upper : String → String
  str : Cell → String
  repr : Cell → String
  tupleRepr : List String → String
  fromIsoformat : String → Except NormalizeError ℤ

/-- `_TS_CANDIDATE_COLUMNS` and the three behind it. -/
def tsCandidateColumns : List String := ["ts_init", "ts_init_ns", "init_time", "ts_event"]

def instrumentCandidateColumns : List String := ["instrument_id", "instrument"]

def sideCandidateColumns : List String := ["order_side", "side"]

def quantityCandidateColumns : List String := ["quantity", "qty"]

/-- The columns that are read. -/
structure Columns where
  ts : String
  instrument : String
  side : String
  quantity : String
deriving DecidableEq

/-- The years 1 to 9999, in microseconds. -/
def minUs : ℤ := -62135596800 * 10 ^ 6
def maxUs : ℤ := 253402300800 * 10 ^ 6

/-- `datetime.fromtimestamp(n / 1_000_000_000, tz=UTC)`: a float of seconds, of which microseconds
    are kept. -/
def fromTimestamp (n : ℤ) : Except NormalizeError ℤ :=
  let seconds := Binary64.round (n / 10 ^ 9)
  let whole := Binary64.toInt seconds
  let us := whole * 10 ^ 6 + Binary64.roundEven (Binary64.round ((seconds - whole) * 10 ^ 6))
  if minUs ≤ us ∧ us < maxUs then .ok (us * 1000) else .error .timestampOutOfRange

section Normalize

variable (env : Environment)

/-- `_resolve_column`. -/
def resolveColumn (columns candidates : List String) : Except NormalizeError String :=
  match candidates.find? fun name => decide (name ∈ columns) with
  | some name => .ok name
  | none => .error (.keyError ("none of the candidate columns " ++ env.tupleRepr candidates ++
      " found in DataFrame columns " ++ env.tupleRepr columns))

def resolveColumns (columns : List String) : Except NormalizeError Columns := do
  let ts ← resolveColumn env columns tsCandidateColumns
  let instrument ← resolveColumn env columns instrumentCandidateColumns
  let side ← resolveColumn env columns sideCandidateColumns
  let quantity ← resolveColumn env columns quantityCandidateColumns
  return { ts := ts, instrument := instrument, side := side, quantity := quantity }

/-- `str(cell)`. -/
def strOf : Cell → String
  | .str s => s
  | cell => env.str cell

/-- `_ts_to_datetime`. -/
def tsToDatetime : Cell → Except NormalizeError ℤ
  | .int n => fromTimestamp n
  | .datetime reading utcoffset => .ok (reading - utcoffset.getD 0)
  | .str s =>
    env.fromIsoformat
      (String.ofList (s.toList.flatMap fun c => if c = 'Z' then "+00:00".toList else [c]))
  | .other typeName => .error (.typeError ("unsupported timestamp value type: " ++ typeName))

/-- `side_str`. -/
def readSide (cell : Cell) : Except NormalizeError OrderSide :=
  let sideStr := env.upper (strOf env cell)
  if sideStr = "BUY" then .ok .buy
  else if sideStr = "SELL" then .ok .sell
  else .error (.valueError
    ("unrecognized order side " ++ env.repr cell ++ " — expected 'BUY' or 'SELL'"))

/-- `signed`. -/
def signedQuantity (side : OrderSide) (cell : Cell) : Except NormalizeError Quantity :=
  match readDecimal (strOf env cell) with
  | none => .error .invalidOperation
  | some qty => .ok (match side with
    | .buy => qty.quantity
    | .sell => qty.negated)

/-- The body of the loop. -/
def readRow (cols : Columns) (row : String → Cell) : Except NormalizeError OrderIntent := do
  let side ← readSide env (row cols.side)
  let signed ← signedQuantity env side (row cols.quantity)
  let ts ← tsToDatetime env (row cols.ts)
  return { decisionTimestamp := ts, instrumentId := strOf env (row cols.instrument), side := side
           signedQty := signed }

/-- `intents.sort(key=…)`. -/
def OrderIntent.key (i : OrderIntent) : ℤ ×ₗ String := toLex (i.decisionTimestamp, i.instrumentId)

/-- `normalize_orders_df`. -/
def normalizeOrdersDf (table : OrdersTable) : Except NormalizeError (List OrderIntent) :=
  if table.columns.isEmpty || table.rows.isEmpty then .ok []
  else do
    let cols ← resolveColumns env table.columns
    let intents ← table.rows.mapM (readRow env cols)
    return rankBy OrderIntent.key intents

end Normalize

/-! ### The comparator -/

inductive DivergenceKind
  | lengthMismatch
  | fieldMismatch
  | extraLeft
  | extraRight
deriving DecidableEq, Repr

structure Divergence where
  kind : DivergenceKind
  index : ℕ
  left : Option OrderIntent
  right : Option OrderIntent
deriving DecidableEq

/-- What one list has behind the overlap, and the summary. -/
def extras (overlap : ℕ) (l : List OrderIntent) (extra : OrderIntent → ℕ → Divergence) :
    List Divergence :=
  if overlap < l.length then
    ((l.zipIdx).drop overlap).map (fun p => extra p.1 p.2) ++
      [{ kind := .lengthMismatch, index := overlap, left := none, right := none }]
  else []

/-- `compare`. -/
def compare (left right : List OrderIntent) : List Divergence :=
  let overlap := min left.length right.length
  ((left.zip right).zipIdx.filterMap fun p =>
      if p.1.1.eq p.1.2 then none
      else some
        { kind := .fieldMismatch, index := p.2, left := some p.1.1, right := some p.1.2 }) ++
    extras overlap left (fun i k =>
      { kind := .extraLeft, index := k, left := some i, right := none }) ++
    extras overlap right fun i k =>
      { kind := .extraRight, index := k, left := none, right := some i }

/-- `is_identical`. -/
def isIdentical (left right : List OrderIntent) : Bool := (compare left right).isEmpty

/-! ### The property and the condition -/

/-- The rows in any order give the same list; and every table with the same intents, in any order,
    is found equal. -/
structure IgnoresOrder (env : Environment) (table : OrdersTable) (intents : List OrderIntent) :
    Prop where
  permuted : ∀ rows : List (String → Cell), rows.Perm table.rows →
    ∃ intents', normalizeOrdersDf env { table with rows := rows } = .ok intents' ∧
      compare intents' intents = []
  same : ∀ table' intents', normalizeOrdersDf env table' = .ok intents' →
    intents'.Perm intents → isIdentical intents' intents = true

/-- Rows of one time and one instrument have the same side and equal quantities; with itself a row
    is compared too, and a `nan` equals nothing. -/
def RowsAgree (env : Environment) (table : OrdersTable) : Prop :=
  ∀ cols, resolveColumns env table.columns = .ok cols → ∀ a ∈ table.rows, ∀ b ∈ table.rows,
    ∀ i j, readRow env cols a = .ok i → readRow env cols b = .ok j →
      i.decisionTimestamp = j.decisionTimestamp → i.instrumentId = j.instrumentId →
        i.side = j.side ∧ i.signedQty.eq j.signedQty = true

/-! ### When there is no divergence -/

section Compare

variable {left right l : List OrderIntent} {i j : OrderIntent} {overlap : ℕ}

theorem OrderIntent.eq_iff : i.eq j = true ↔ i.signedQty ≠ .nan ∧ i = j := by
  obtain ⟨ts, instrument, side, qty⟩ := i
  obtain ⟨ts', instrument', side', qty'⟩ := j
  simp only [OrderIntent.eq, Quantity.eq, Bool.and_eq_true, decide_eq_true_eq,
    OrderIntent.mk.injEq]
  constructor
  · rintro ⟨⟨⟨hts, hinstrument⟩, hside⟩, hqty, hnan⟩
    exact ⟨hqty ▸ hnan, hts, hinstrument, hside, hqty⟩
  · rintro ⟨hnan, hts, hinstrument, hside, hqty⟩
    exact ⟨⟨⟨hts, hinstrument⟩, hside⟩, hqty, hqty ▸ hnan⟩

theorem extras_eq_nil {extra : OrderIntent → ℕ → Divergence} :
    extras overlap l extra = [] ↔ l.length ≤ overlap := by
  unfold extras
  split
  · simpa using by omega
  · simpa using by omega

/-- The pairs that are compared. -/
theorem mismatches_eq_nil {ps : List (OrderIntent × OrderIntent)}
    {f : (OrderIntent × OrderIntent) × ℕ → Divergence} :
    (ps.zipIdx.filterMap fun p => if p.1.1.eq p.1.2 then none else some (f p)) = [] ↔
      ∀ p ∈ ps, p.1.eq p.2 = true := by
  rw [List.filterMap_eq_nil_iff]
  constructor
  · intro h p hp
    obtain ⟨k, hk⟩ := List.getElem?_of_mem hp
    have hpair := h (p, k) (List.mem_zipIdx_iff_getElem?.mpr hk)
    by_contra hne
    rw [if_neg hne] at hpair
    cases hpair
  · intro h p hp
    rw [if_pos (h p.1 (List.fst_mem_of_mem_zipIdx hp))]

/-- **No divergence.**  The lists are equal, and every quantity is a number. -/
theorem compare_eq_nil :
    compare left right = [] ↔ (∀ i ∈ left, i.signedQty ≠ .nan) ∧ left = right := by
  have hpairs : (∀ i ∈ left, i.signedQty ≠ .nan) ∧ left = right ↔
      left.length = right.length ∧ ∀ p ∈ left.zip right, p.1.eq p.2 = true := by
    rw [← List.forall₂_eq_eq_eq, ← List.forall₂_and_left, List.forall₂_iff_zip]
    refine and_congr_right fun _ => ⟨fun h p hp => ?_, fun h i j hp => ?_⟩
    · exact OrderIntent.eq_iff.mpr (h hp)
    · exact OrderIntent.eq_iff.mp (h (i, j) hp)
  rw [hpairs]
  simp only [compare, List.append_eq_nil_iff, extras_eq_nil, mismatches_eq_nil]
  constructor
  · rintro ⟨⟨hsame, hleft⟩, hright⟩
    exact ⟨by omega, hsame⟩
  · rintro ⟨hlength, hsame⟩
    exact ⟨⟨hsame, by omega⟩, by omega⟩

end Compare

/-! ### Tables in another order -/

section Normalize

variable {env : Environment} {table table' : OrdersTable} {intents intents' : List OrderIntent}
  {cols : Columns} {i j : OrderIntent}

/-- The intents of a table before they are sorted. -/
structure Reads (env : Environment) (table : OrdersTable) (cols : Columns)
    (read : List OrderIntent) : Prop where
  columns : resolveColumns env table.columns = .ok cols
  rows : List.Forall₂ (fun row i => readRow env cols row = .ok i) table.rows read

/-- A table without rows or columns has no intents; of any other the rows are read. -/
theorem normalizeOrdersDf_ok :
    normalizeOrdersDf env table = .ok intents ↔
      ((table.columns = [] ∨ table.rows = []) ∧ intents = []) ∨
        (table.columns ≠ [] ∧ table.rows ≠ [] ∧
          ∃ cols read, Reads env table cols read ∧ intents = rankBy OrderIntent.key read) := by
  unfold normalizeOrdersDf
  by_cases hempty : table.columns = [] ∨ table.rows = []
  · have hcond : (table.columns.isEmpty || table.rows.isEmpty) = true := by simpa using hempty
    rw [if_pos hcond]
    constructor
    · exact fun h => Or.inl ⟨hempty, (Except.ok.inj h).symm⟩
    · rintro (⟨_, rfl⟩ | ⟨hcolumns, hrows, _⟩)
      · rfl
      · exact absurd hempty (not_or.mpr ⟨hcolumns, hrows⟩)
  · have hcond : ¬ (table.columns.isEmpty || table.rows.isEmpty) = true := by simpa using hempty
    rw [if_neg hcond]
    constructor
    · intro h
      obtain ⟨cols, hcols, h⟩ := except_bind_eq_ok h
      obtain ⟨read, hread, h⟩ := except_bind_eq_ok h
      obtain ⟨hcolumns, hrows⟩ := not_or.mp hempty
      exact Or.inr ⟨hcolumns, hrows, cols, read, ⟨hcols, mapM_eq_ok_iff.mp hread⟩,
        (Except.ok.inj h).symm⟩
    · rintro (⟨hnone, _⟩ | ⟨_, _, cols, read, hreads, rfl⟩)
      · exact absurd hnone hempty
      · rw [hreads.columns]
        show (table.rows.mapM (readRow env cols) >>= _) = _
        rw [mapM_eq_ok_iff.mpr hreads.rows]
        rfl

section Reads

variable {read read' : List OrderIntent} {rows : List (String → Cell)}

theorem Reads.mem_iff (h : Reads env table cols read) :
    i ∈ read ↔ ∃ row ∈ table.rows, readRow env cols row = .ok i :=
  mem_iff_of_forall₂_ok h.rows

/-- The rows in another order are read in that order. -/
theorem Reads.of_perm (h : Reads env table cols read) (hperm : rows.Perm table.rows) :
    ∃ read', Reads env { table with rows := rows } cols read' ∧ read'.Perm read := by
  obtain ⟨read', hread', hperm'⟩ := List.perm_comp_forall₂ hperm h.rows
  exact ⟨read', ⟨h.columns, hread'⟩, hperm'⟩

/-- Every order of the intents comes from one of the rows. -/
theorem Reads.perm_of (h : Reads env table cols read) (hperm : read'.Perm read) :
    ∃ rows, rows.Perm table.rows ∧ Reads env { table with rows := rows } cols read' := by
  obtain ⟨rows, hrows, hperm'⟩ := List.perm_comp_forall₂ hperm h.rows.flip
  exact ⟨rows, hperm', h.columns, hrows.flip⟩

theorem Reads.normalize_eq (h : Reads env table cols read) (hcolumns : table.columns ≠ [])
    (hrows : table.rows ≠ []) :
    normalizeOrdersDf env table = .ok (rankBy OrderIntent.key read) :=
  normalizeOrdersDf_ok.mpr (Or.inr ⟨hcolumns, hrows, cols, read, h, rfl⟩)

/-- **The condition** in terms of the intents. -/
theorem Reads.rowsAgree_iff (h : Reads env table cols read) :
    RowsAgree env table ↔ ∀ i ∈ read, ∀ j ∈ read, i.key = j.key → i.eq j = true := by
  have hkey : ∀ i j : OrderIntent, i.key = j.key ↔
      i.decisionTimestamp = j.decisionTimestamp ∧ i.instrumentId = j.instrumentId := by
    intro i j
    rw [OrderIntent.key, OrderIntent.key, toLex_inj, Prod.mk.injEq]
  constructor
  · intro hagree i hi j hj hij
    obtain ⟨a, ha, hia⟩ := h.mem_iff.mp hi
    obtain ⟨b, hb, hjb⟩ := h.mem_iff.mp hj
    obtain ⟨hts, hinstrument⟩ := (hkey i j).mp hij
    obtain ⟨hside, hqty⟩ := hagree cols h.columns a ha b hb i j hia hjb hts hinstrument
    simp only [OrderIntent.eq, hts, hinstrument, hside, hqty, decide_true, Bool.and_self]
  · intro htied cols' hcols' a ha b hb i j hia hjb hts hinstrument
    obtain rfl : cols' = cols := Except.ok.inj (hcols'.symm.trans h.columns)
    have heq := htied i (h.mem_iff.mpr ⟨a, ha, hia⟩) j (h.mem_iff.mpr ⟨b, hb, hjb⟩)
      ((hkey i j).mpr ⟨hts, hinstrument⟩)
    simp only [OrderIntent.eq, Bool.and_eq_true, decide_eq_true_eq] at heq
    exact ⟨heq.1.2, heq.2⟩

/-- **Ties that are equal** do not show. -/
theorem Reads.ignoresOrder (h : Reads env table cols read) (hcolumns : table.columns ≠ [])
    (hrows : table.rows ≠ [])
    (htied : ∀ i ∈ read, ∀ j ∈ read, i.key = j.key → i.eq j = true) :
    IgnoresOrder env table (rankBy OrderIntent.key read) := by
  have hranked : ∀ {read' : List OrderIntent}, read'.Perm read →
      rankBy OrderIntent.key read' = rankBy OrderIntent.key read := fun hperm =>
    rankBy_eq_of_perm hperm fun i hi j hj hkey =>
      (OrderIntent.eq_iff.mp (htied i hi j hj hkey)).2
  have hself : compare (rankBy OrderIntent.key read) (rankBy OrderIntent.key read) = [] := by
    refine compare_eq_nil.mpr ⟨fun i hi => ?_, rfl⟩
    have hi' : i ∈ read := rankBy_perm.mem_iff.mp hi
    exact (OrderIntent.eq_iff.mp (htied i hi' i hi' rfl)).1
  constructor
  · intro rows hperm
    obtain ⟨read', hread', hperm'⟩ := h.of_perm hperm
    have hne : rows ≠ [] := fun hnil => hrows (List.perm_nil.mp (hnil ▸ hperm.symm))
    refine ⟨_, hread'.normalize_eq hcolumns hne, ?_⟩
    rw [hranked hperm']
    exact hself
  · intro table' intents' hnormalize hperm
    rw [isIdentical, List.isEmpty_iff]
    rcases normalizeOrdersDf_ok.mp hnormalize with ⟨_, rfl⟩ | ⟨_, _, _, read', _, rfl⟩
    · rw [List.nil_perm.mp hperm]
      rfl
    · rw [hranked (rankBy_perm.symm.trans (hperm.trans rankBy_perm))]
      exact hself

/-- **Ties that differ** show. -/
theorem Reads.tied_of_ignoresOrder (h : Reads env table cols read)
    (hcolumns : table.columns ≠ []) (hrows : table.rows ≠ [])
    (hignores : IgnoresOrder env table (rankBy OrderIntent.key read)) :
    ∀ i ∈ read, ∀ j ∈ read, i.key = j.key → i.eq j = true := by
  -- any order of the rows gives the same list, and no quantity in it is `nan`
  have hordered : ∀ read' : List OrderIntent, read'.Perm read →
      (∀ i ∈ rankBy OrderIntent.key read', i.signedQty ≠ .nan) ∧
        rankBy OrderIntent.key read' = rankBy OrderIntent.key read := by
    intro read' hperm
    obtain ⟨rows, hperm', hread'⟩ := h.perm_of hperm
    have hne : rows ≠ [] := fun hnil => hrows (List.perm_nil.mp (hnil ▸ hperm'.symm))
    obtain ⟨intents', hnormalize, hcompare⟩ := hignores.permuted rows hperm'
    rw [hread'.normalize_eq hcolumns hne] at hnormalize
    rw [← Except.ok.inj hnormalize] at hcompare
    exact compare_eq_nil.mp hcompare
  intro i hi j hj hkey
  refine OrderIntent.eq_iff.mpr ⟨?_, ?_⟩
  · exact (hordered read (List.Perm.refl _)).1 i (rankBy_perm.mem_iff.mpr hi)
  · exact rankBy_perm_iff.mp (fun read' hperm => (hordered read' hperm).2) i hi j hj hkey

end Reads

/-- **The order of the rows is immaterial** exactly if the rows of one time and one instrument
    agree. -/
theorem normalize_ignores_order_iff (h : normalizeOrdersDf env table = .ok intents) :
    IgnoresOrder env table intents ↔ RowsAgree env table := by
  rcases normalizeOrdersDf_ok.mp h with ⟨hempty, rfl⟩ | ⟨hcolumns, hrows, cols, read, hread, rfl⟩
  · refine iff_of_true ⟨fun rows hperm => ⟨[], ?_, rfl⟩, fun _ intents' _ hperm => ?_⟩ ?_
    · refine normalizeOrdersDf_ok.mpr (Or.inl ⟨hempty.imp_right fun hnil => ?_, rfl⟩)
      exact List.perm_nil.mp (hnil ▸ hperm)
    · rw [List.perm_nil.mp hperm]
      rfl
    · intro cols hcols a ha
      rcases hempty with hnil | hnil
      · rw [hnil] at hcols
        cases hcols
      · rw [hnil] at ha
        cases ha
  · rw [hread.rowsAgree_iff]
    exact ⟨hread.tied_of_ignoresOrder hcolumns hrows, hread.ignoresOrder hcolumns hrows⟩

end Normalize

/-! ### Two orders of one moment -/

/-- The language on texts of ASCII in upper case. -/
def plainEnvironment : Environment where
  upper := id
  str := fun _ => ""
  repr := fun _ => ""
  tupleRepr := fun names => ", ".intercalate names
  fromIsoformat := fun _ => .error (.valueError "")

/-- A row of a report: a time, a side and a quantity. -/
def orderRow (ts : ℤ) (side quantity : String) (column : String) : Cell :=
  if column = "ts_init" then .int ts
  else if column = "instrument_id" then .str "AAPL.NASDAQ"
  else if column = "order_side" then .str side
  else .str quantity

def ordersOf (rows : List (String → Cell)) : OrdersTable :=
  { columns := ["ts_init", "instrument_id", "order_side", "quantity"], rows := rows }

def twoMinutes : List (String → Cell) :=
  [orderRow 1700000060000000000 "SELL" "10", orderRow 1700000000000000000 "BUY" "10.50"]

def oneMoment : List (String → Cell) :=
  [orderRow 1700000000000000000 "SELL" "10", orderRow 1700000000000000000 "BUY" "10.50"]

/-- The columns of these tables. -/
def plainColumns : Columns :=
  { ts := "ts_init", instrument := "instrument_id", side := "order_side", quantity := "quantity" }

/-- The intent of a row. -/
def intentAt (ts : ℤ) (side : OrderSide) (qty : ℚ) : OrderIntent :=
  { decisionTimestamp := ts, instrumentId := "AAPL.NASDAQ", side := side, signedQty := .finite qty }

theorem rowsAgree_twoMinutes : RowsAgree plainEnvironment (ordersOf twoMinutes) := by
  intro cols hcols a ha b hb i j hi hj hts _
  obtain rfl : plainColumns = cols := by
    have hplain : resolveColumns plainEnvironment (ordersOf []).columns = .ok plainColumns := by
      decide +kernel
    exact Except.ok.inj (hplain.symm.trans hcols)
  have hsell : readRow plainEnvironment plainColumns (orderRow 1700000060000000000 "SELL" "10") =
      .ok (intentAt 1700000060000000000 .sell (-10)) := by decide +kernel
  have hbuy : readRow plainEnvironment plainColumns (orderRow 1700000000000000000 "BUY" "10.50") =
      .ok (intentAt 1700000000000000000 .buy (21 / 2)) := by decide +kernel
  have hcases : ∀ c ∈ (ordersOf twoMinutes).rows, ∀ k,
      readRow plainEnvironment plainColumns c = .ok k →
        k = intentAt 1700000060000000000 .sell (-10) ∨
          k = intentAt 1700000000000000000 .buy (21 / 2) := by
    intro c hc k hk
    rcases List.mem_cons.mp hc with rfl | hc
    · exact Or.inl (Except.ok.inj (hk.symm.trans hsell))
    · obtain rfl := List.mem_singleton.mp hc
      exact Or.inr (Except.ok.inj (hk.symm.trans hbuy))
  rcases hcases a ha i hi with rfl | rfl <;> rcases hcases b hb j hj with rfl | rfl
  · decide +kernel
  · cases hts
  · cases hts
  · decide +kernel

/-- The theorem at two orders of two minutes. -/
theorem normalize_ignores_order_iff_two : ∃ intents,
    normalizeOrdersDf plainEnvironment (ordersOf twoMinutes) = .ok intents ∧
      IgnoresOrder plainEnvironment (ordersOf twoMinutes) intents := by
  have hread : normalizeOrdersDf plainEnvironment (ordersOf twoMinutes) = .ok
      [intentAt 1700000000000000000 .buy (21 / 2),
        intentAt 1700000060000000000 .sell (-10)] := by decide +kernel
  exact ⟨_, hread, (normalize_ignores_order_iff hread).mpr rowsAgree_twoMinutes⟩

/-- Two orders of one moment, in either order. -/
theorem normalize_ignores_order_fails : ∃ intents,
    normalizeOrdersDf plainEnvironment (ordersOf oneMoment) = .ok intents ∧
      ¬ IgnoresOrder plainEnvironment (ordersOf oneMoment) intents := by
  have hread : normalizeOrdersDf plainEnvironment (ordersOf oneMoment) = .ok
      [intentAt 1700000000000000000 .sell (-10),
        intentAt 1700000000000000000 .buy (21 / 2)] := by decide +kernel
  have hreversed : normalizeOrdersDf plainEnvironment (ordersOf oneMoment.reverse) = .ok
      [intentAt 1700000000000000000 .buy (21 / 2),
        intentAt 1700000000000000000 .sell (-10)] := by decide +kernel
  refine ⟨_, hread, fun hignores => ?_⟩
  obtain ⟨intents', hnormalize, hcompare⟩ :=
    hignores.permuted oneMoment.reverse (List.reverse_perm _)
  obtain rfl := Except.ok.inj (hreversed.symm.trans hnormalize)
  exact absurd (compare_eq_nil.mp hcompare).2 (by decide)

end Msai.Parity
