import Mathlib.Data.List.DropRight

namespace Msai.Lib.PyText

/-!
# Texts as Python reads them

* `isSpace`, `strip`, `startsWith`, `contains` — `str.isspace`, `str.strip`, `str.startswith`, `in`;
* `decimalValue`, `isDecimal`, `isDigit` — `int`, `str.isdecimal` and `str.isdigit` of a character,
  by the tables of Unicode 15;
* `matchesLine` — a pattern between `^` and `$`;
* `stripChars_eq_self`, `stripChars_concat` — what `strip` leaves of a text without white space, and
  of one with a single white space at its end.
-/

/-- `str.isspace` of one character. -/
def isSpace (c : Char) : Bool :=
  let n := c.toNat
  decide (0x09 ≤ n ∧ n ≤ 0x0D) || decide (0x1C ≤ n ∧ n ≤ 0x20) || n == 0x85 || n == 0xA0 ||
    n == 0x1680 || decide (0x2000 ≤ n ∧ n ≤ 0x200A) || n == 0x2028 || n == 0x2029 ||
    n == 0x202F || n == 0x205F || n == 0x3000

/-- The zeros of the scripts; the digits up to nine follow each of them. -/
def zeros : List ℕ :=
  [0x30, 0x660, 0x6F0, 0x7C0, 0x966, 0x9E6, 0xA66, 0xAE6, 0xB66, 0xBE6, 0xC66, 0xCE6, 0xD66,
    0xDE6, 0xE50, 0xED0, 0xF20, 0x1040, 0x1090, 0x17E0, 0x1810, 0x1946, 0x19D0, 0x1A80, 0x1A90,
    0x1B50, 0x1BB0, 0x1C40, 0x1C50, 0xA620, 0xA8D0, 0xA900, 0xA9D0, 0xA9F0, 0xAA50, 0xABF0,
    0xFF10, 0x104A0, 0x10D30, 0x11066, 0x110F0, 0x11136, 0x111D0, 0x112F0, 0x11450, 0x114D0,
    0x11650, 0x116C0, 0x11730, 0x118E0, 0x11950, 0x11C50, 0x11D50, 0x11DA0, 0x11F50, 0x16A60,
    0x16AC0, 0x16B50, 0x1D7CE, 0x1D7D8, 0x1D7E2, 0x1D7EC, 0x1D7F6, 0x1E140, 0x1E2F0, 0x1E4F0,
    0x1E950, 0x1FBF0]

/-- `int(c)` of a decimal digit; `none` for a character that is none. -/
def decimalValue (c : Char) : Option ℕ :=
  (zeros.find? fun z => decide (z ≤ c.toNat ∧ c.toNat ≤ z + 9)).map fun z => c.toNat - z

/-- `str.isdecimal` of one character, and `\d`. -/
def isDecimal (c : Char) : Bool := (decimalValue c).isSome

/-- The digits that are not decimal: raised, lowered, circled and the like. -/
def otherDigits : List (ℕ × ℕ) :=
  [(0xB2, 0xB3), (0xB9, 0xB9), (0x1369, 0x1371), (0x19DA, 0x19DA), (0x2070, 0x2070),
    (0x2074, 0x2079), (0x2080, 0x2089), (0x2460, 0x2468), (0x2474, 0x247C), (0x2488, 0x2490),
    (0x24EA, 0x24EA), (0x24F5, 0x24FD), (0x24FF, 0x24FF), (0x2776, 0x277E), (0x2780, 0x2788),
    (0x278A, 0x2792), (0x10A40, 0x10A43), (0x10E60, 0x10E68), (0x11052, 0x1105A),
    (0x1F100, 0x1F10A)]

/-- `str.isdigit` of one character. -/
def isDigit (c : Char) : Bool :=
  isDecimal c || otherDigits.any fun r => decide (r.1 ≤ c.toNat ∧ c.toNat ≤ r.2)

/-- `s.strip()` on the characters of a text. -/
def stripChars (cs : List Char) : List Char := (cs.dropWhile isSpace).rdropWhile isSpace

/-- `s.strip()`. -/
def strip (s : String) : String := String.ofList (stripChars s.toList)

/-- `s.startswith(p)`. -/
def startsWith (s p : String) : Bool := p.toList.isPrefixOf s.toList

/-- `p in s`. -/
def contains (p : List Char) : List Char → Bool
  | [] => p.isEmpty
  | c :: cs => p.isPrefixOf (c :: cs) || contains p cs

/-- `re.match` with the pattern `^p$`: `$` also stands before a line feed at the end of the text. -/
def matchesLine (p : List Char → Bool) (cs : List Char) : Bool :=
  p cs || (cs.getLast? == some '\n' && p cs.dropLast)

variable {cs : List Char} {c : Char} {p : List Char → Bool}

/-- What a text contains are the pieces that it has. -/
theorem contains_iff {q : List Char} : contains q cs = true ↔ q <:+: cs := by
  induction cs with
  | nil => exact List.isEmpty_iff.trans List.infix_nil.symm
  | cons c cs ih =>
    rw [contains, Bool.or_eq_true, List.isPrefixOf_iff_prefix, ih]
    exact List.infix_cons_iff.symm

/-- A text that matches is matched by `p` without the line feed it may end in. -/
theorem matchesLine_cases (h : matchesLine p cs = true) :
    p cs = true ∨ ∃ body, cs = body ++ ['\n'] ∧ p body = true := by
  rcases Bool.or_eq_true_iff.mp h with h | h
  · exact Or.inl h
  · obtain ⟨hlast, hbody⟩ := Bool.and_eq_true_iff.mp h
    have hlast' : cs.getLast? = some '\n' := by simpa using hlast
    refine Or.inr ⟨cs.dropLast, ?_, hbody⟩
    exact (List.dropLast_append_getLast? '\n' hlast').symm

/-- An ASCII digit is the first of the table. -/
theorem decimalValue_digitChar {n : ℕ} (h : n < 10) :
    decimalValue n.digitChar = some n := by
  have hall : ∀ n < 10, decimalValue (Nat.digitChar n) = some n := by decide
  exact hall n h

/-- A text without white space is stripped of nothing. -/
theorem stripChars_eq_self (h : ∀ c ∈ cs, isSpace c = false) : stripChars cs = cs := by
  have hleft : cs.dropWhile isSpace = cs := by
    cases cs with
    | nil => rfl
    | cons c cs => rw [List.dropWhile_cons_of_neg (by simp [h c List.mem_cons_self])]
  rw [stripChars, hleft, List.rdropWhile_eq_self_iff]
  intro hne
  simp [h _ (List.getLast_mem hne)]

/-- A white space at the end is stripped. -/
theorem stripChars_concat (hcs : cs ≠ []) (h : ∀ c ∈ cs, isSpace c = false)
    (hc : isSpace c = true) : stripChars (cs ++ [c]) = cs := by
  have hleft : (cs ++ [c]).dropWhile isSpace = cs ++ [c] := by
    cases cs with
    | nil => exact absurd rfl hcs
    | cons d cs =>
      rw [List.cons_append, List.dropWhile_cons_of_neg (by simp [h d List.mem_cons_self])]
  rw [stripChars, hleft, List.rdropWhile_concat_pos _ _ _ hc, List.rdropWhile_eq_self_iff]
  intro hne
  simp [h _ (List.getLast_mem hne)]

end Msai.Lib.PyText
