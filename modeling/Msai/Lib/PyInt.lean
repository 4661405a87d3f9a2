import Mathlib.Data.List.DropRight
import Msai.Lib.JsonLoads

namespace Msai.Lib.PyInt

/-!
# `int` of a text

* `intText` — `int(text, base)` of a text that is the list of its code points;
* `intText_hexPadded` — a number in hexadecimal is read.

The decimal digits beyond ASCII are an argument.
-/

/-- The value of a digit. -/
def digitValue (base c : ℕ) : Option ℕ := (hexValue c).filter fun d => decide (d < base)

/-- The number behind a digit: a single underscore may stand between two of them. -/
def digitsFrom (base : ℕ) (n : ℕ) : List ℕ → Option ℕ
  | [] => some n
  | c :: cs =>
    match digitValue base c with
    | some d => digitsFrom base (base * n + d) cs
    | none =>
      if c ≠ 0x5f then none
      else
        match cs with
        | [] => none
        | c :: cs => (digitValue base c).bind fun d => digitsFrom base (base * n + d) cs

def digits (base : ℕ) : List ℕ → Option ℕ
  | [] => none
  | c :: cs => (digitValue base c).bind fun d => digitsFrom base d cs

/-- The white space beyond ASCII. -/
def isWideSpace (c : ℕ) : Bool :=
  c == 0x85 || c == 0xa0 || c == 0x1680 || decide (0x2000 ≤ c ∧ c ≤ 0x200a) || c == 0x2028 ||
    c == 0x2029 || c == 0x202f || c == 0x205f || c == 0x3000

def isNarrowSpace (c : ℕ) : Bool := decide (0x09 ≤ c ∧ c ≤ 0x0d) || c == 0x20

/-- White space and digits beyond ASCII become a blank and the digits of ASCII. -/
def toAscii (wideDigit : ℕ → Option ℕ) (c : ℕ) : ℕ :=
  if c < 0x80 then c
  else if isWideSpace c then 0x20
  else ((wideDigit c).map fun d => 0x30 + d).getD 0x3f

/-- A sign. -/
def sign : List ℕ → Bool × List ℕ
  | [] => (false, [])
  | c :: cs => if c = 0x2d then (true, cs) else if c = 0x2b then (false, cs) else (false, c :: cs)

/-- `0x` and an underscore. -/
def dropHexMark : List ℕ → List ℕ
  | a :: b :: cs =>
    if a = 0x30 ∧ (b = 0x78 ∨ b = 0x58) then if cs.head? = some 0x5f then cs.drop 1 else cs
    else a :: b :: cs
  | cs => cs

/-- `int(text, base)` to the base 10 or 16; `none` is `ValueError`. -/
def intText (wideDigit : ℕ → Option ℕ) (base : ℕ) (text : List ℕ) : Option ℤ :=
  let stripped := ((text.map (toAscii wideDigit)).dropWhile isNarrowSpace).rdropWhile isNarrowSpace
  let r := sign stripped
  (digits base (if base = 16 then dropHexMark r.2 else r.2)).map fun n => if r.1 then -n else n

example : intText (fun _ => none) 10 [0x20, 0x2d, 0x31, 0x5f, 0x32, 0x0a] = some (-12) ∧
    intText (fun _ => none) 10 [0x31, 0x5f, 0x5f, 0x32] = none := by decide

variable {wideDigit : ℕ → Option ℕ} {base n : ℕ} {cs : List ℕ}

/-- Digits without underscores. -/
theorem digitsFrom_hex (hcs : ∀ c ∈ cs, ∃ d, hexValue c = some d ∧ d < 16) :
    digitsFrom 16 n cs = cs.foldlM (fun n c => (hexValue c).map fun d => 16 * n + d) n := by
  induction cs generalizing n with
  | nil => rfl
  | cons c cs ih =>
    obtain ⟨⟨d, hd, hlt⟩, hcs⟩ := List.forall_mem_cons.mp hcs
    have hvalue : digitValue 16 c = some d := by
      rw [digitValue, hd, Option.filter_some, if_pos (decide_eq_true hlt)]
    rw [List.foldlM_cons, hd, digitsFrom.eq_def]
    simp only [hvalue, Option.map_some, Option.bind_eq_bind, Option.bind_some]
    exact ih hcs

/-- A character that means nothing but itself: no space, no sign and no mark of a base. -/
def IsPlain (c : ℕ) : Prop :=
  c < 0x80 ∧ isNarrowSpace c = false ∧ c ≠ 0x2d ∧ c ≠ 0x2b ∧ c ≠ 0x78 ∧ c ≠ 0x58

/-- A text of such characters is read as its digits. -/
theorem intText_plain (hplain : ∀ c ∈ cs, IsPlain c) :
    intText wideDigit base cs = (digits base cs).map fun n => (n : ℤ) := by
  have hmap : cs.map (toAscii wideDigit) = cs := by
    conv_rhs => rw [← List.map_id cs]
    exact List.map_congr_left fun c hc => if_pos (hplain c hc).1
  have hleft : cs.dropWhile isNarrowSpace = cs :=
    List.dropWhile_eq_self_iff.mpr fun hpos => by
      simp [(hplain _ (List.getElem_mem hpos)).2.1]
  have hright : cs.rdropWhile isNarrowSpace = cs :=
    List.rdropWhile_eq_self_iff.mpr fun hne => by
      simp [(hplain _ (List.getLast_mem hne)).2.1]
  have hsign : sign cs = (false, cs) := by
    cases cs with
    | nil => rfl
    | cons c cs =>
      obtain ⟨-, -, hminus, hplus, -⟩ := hplain c List.mem_cons_self
      rw [sign, if_neg hminus, if_neg hplus]
  have hmark : dropHexMark cs = cs := by
    rcases cs with _ | ⟨c, _ | ⟨x, cs⟩⟩
    · rfl
    · rfl
    · obtain ⟨-, -, -, -, hlower, hupper⟩ := hplain x (List.mem_cons_of_mem c List.mem_cons_self)
      exact if_neg fun h => h.2.elim hlower hupper
  simp only [intText, hmap, hleft, hright, hsign, hmark, ite_self, Bool.false_eq_true, if_false]

/-- Digits in hexadecimal are read as the number that they are. -/
theorem digits_hex (hne : cs ≠ []) (hcs : ∀ c ∈ cs, ∃ d, hexValue c = some d ∧ d < 16) :
    digits 16 cs = hexNumber cs := by
  obtain ⟨c, cs, rfl⟩ := List.exists_cons_of_ne_nil hne
  obtain ⟨d, hd, hlt⟩ := hcs c List.mem_cons_self
  have hvalue : digitValue 16 c = some d := by
    rw [digitValue, hd, Option.filter_some, if_pos (decide_eq_true hlt)]
  rw [hexNumber, ← digitsFrom_hex hcs, digits, digitsFrom.eq_def]
  simp only [hvalue, Option.bind_some, Nat.mul_zero, Nat.zero_add]

/-- **A number in hexadecimal is read.** -/
theorem intText_hexPadded {w : ℕ} (hw : 0 < w) (h : n < 16 ^ w) :
    intText wideDigit 16 (codes (hexPadded w n)) = some (n : ℤ) := by
  have hdigit : ∀ c ∈ codes (hexPadded w n), ∃ d < 16, c = (Nat.digitChar d).toNat := by
    intro c hc
    obtain ⟨c', hc', rfl⟩ := List.mem_map.mp hc
    obtain ⟨d, hd, rfl⟩ := mem_hexPadded hw h hc'
    exact ⟨d, hd, rfl⟩
  have hplain : ∀ c ∈ codes (hexPadded w n), IsPlain c := by
    intro c hc
    obtain ⟨d, hd, rfl⟩ := hdigit c hc
    unfold IsPlain
    interval_cases d <;> decide
  have hvalues : ∀ c ∈ codes (hexPadded w n), ∃ d, hexValue c = some d ∧ d < 16 := by
    intro c hc
    obtain ⟨d, hd, rfl⟩ := hdigit c hc
    exact ⟨d, hexValue_digitChar hd, hd⟩
  have hne : codes (hexPadded w n) ≠ [] := by
    intro heq
    have hlength := congrArg List.length heq
    rw [codes, List.length_map, length_hexPadded hw h] at hlength
    exact hw.ne' hlength
  rw [intText_plain hplain, digits_hex hne hvalues, hexNumber_hexPadded hw h]
  rfl

end Msai.Lib.PyInt
