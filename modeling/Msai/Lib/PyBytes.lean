import Mathlib.Algebra.Group.Nat.Defs
import Mathlib.Data.List.Basic

namespace Msai.Lib.PyBytes

/-!
# Bytes as a text of JSON

* `detectEncoding` — the encoding that `json.loads` takes bytes to be in, by their first ones;
* `decodeUtf8`, `decodeUtf16`, `decodeUtf32` — `bytes.decode(…, "surrogatepass")`;
* `decodeText` — both;
* `decodeText_ascii` — ASCII is its own text.

A byte is a number below 256, and a text is the list of its code points, with surrogates.
-/

/-! ### Surrogates -/

def isHighSurrogate (c : ℕ) : Bool := decide (0xd800 ≤ c ∧ c ≤ 0xdbff)

def isLowSurrogate (c : ℕ) : Bool := decide (0xdc00 ≤ c ∧ c ≤ 0xdfff)

/-- The code point of a pair. -/
def joinSurrogates (high low : ℕ) : ℕ := 0x10000 + (high - 0xd800) * 0x400 + (low - 0xdc00)

/-! ### Decoding -/

/-- `utf-8`. -/
def decodeUtf8 : List ℕ → Option (List ℕ)
  | [] => some []
  | a :: rest =>
    let tail (b : ℕ) : Bool := decide (0x80 ≤ b ∧ b ≤ 0xbf)
    if a < 0x80 then (decodeUtf8 rest).map fun text => a :: text
    else if a < 0xc2 then none
    else
      match rest with
      | [] => none
      | b :: rest =>
        if a < 0xe0 then
          if tail b then
            (decodeUtf8 rest).map fun text => ((a - 0xc0) * 0x40 + (b - 0x80)) :: text
          else none
        else
          match rest with
          | [] => none
          | c :: rest =>
            if a < 0xf0 then
              -- a shorter code exists below `0xa0`; surrogates pass
              if tail b && tail c && (a != 0xe0 || decide (0xa0 ≤ b)) then
                (decodeUtf8 rest).map fun text =>
                  ((a - 0xe0) * 0x1000 + (b - 0x80) * 0x40 + (c - 0x80)) :: text
              else none
            else
              match rest with
              | [] => none
              | d :: rest =>
                if decide (a < 0xf5) && tail b && tail c && tail d &&
                    (a != 0xf0 || decide (0x90 ≤ b)) && (a != 0xf4 || decide (b < 0x90)) then
                  (decodeUtf8 rest).map fun text =>
                    ((a - 0xf0) * 0x40000 + (b - 0x80) * 0x1000 + (c - 0x80) * 0x40
                      + (d - 0x80)) :: text
                else none

/-- The units of two bytes. -/
def units16 (big : Bool) : List ℕ → Option (List ℕ)
  | [] => some []
  | [_] => none
  | a :: b :: rest =>
    (units16 big rest).map fun units => (if big then a * 0x100 + b else b * 0x100 + a) :: units

/-- The pairs of surrogates among units. -/
def joinUnits : List ℕ → List ℕ
  | [] => []
  | [u] => [u]
  | u :: v :: rest =>
    if isHighSurrogate u && isLowSurrogate v then joinSurrogates u v :: joinUnits rest
    else u :: joinUnits (v :: rest)

/-- `utf-16`. -/
def decodeUtf16 (big : Bool) (bytes : List ℕ) : Option (List ℕ) :=
  (units16 big bytes).map joinUnits

/-- `utf-32`. -/
def decodeUtf32 (big : Bool) : List ℕ → Option (List ℕ)
  | [] => some []
  | a :: b :: c :: d :: rest =>
    let point :=
      if big then a * 0x1000000 + b * 0x10000 + c * 0x100 + d
      else d * 0x1000000 + c * 0x10000 + b * 0x100 + a
    if point < 0x110000 then (decodeUtf32 big rest).map fun text => point :: text else none
  | _ => none

/-! ### The encoding -/

inductive Encoding
  | utf8
  | utf16 (big : Bool)
  | utf32 (big : Bool)
deriving DecidableEq, Repr

/-- `detect_encoding`, without a byte order mark. -/
def detectPlain : List ℕ → Encoding
  | a :: b :: c :: d :: _ =>
    if a = 0 then if b = 0 then .utf32 true else .utf16 true
    else if b = 0 then if c = 0 ∧ d = 0 then .utf32 false else .utf16 false
    else .utf8
  | [a, b] => if a = 0 then .utf16 true else if b = 0 then .utf16 false else .utf8
  | _ => .utf8

/-- `detect_encoding`, and the bytes behind the byte order mark. -/
def detectEncoding (bytes : List ℕ) : Encoding × List ℕ :=
  if [0, 0, 0xfe, 0xff].isPrefixOf bytes then (.utf32 true, bytes.drop 4)
  else if [0xff, 0xfe, 0, 0].isPrefixOf bytes then (.utf32 false, bytes.drop 4)
  else if [0xfe, 0xff].isPrefixOf bytes then (.utf16 true, bytes.drop 2)
  else if [0xff, 0xfe].isPrefixOf bytes then (.utf16 false, bytes.drop 2)
  else if [0xef, 0xbb, 0xbf].isPrefixOf bytes then (.utf8, bytes.drop 3)
  else (detectPlain bytes, bytes)

/-- `b.decode(detect_encoding(b), "surrogatepass")`; `none` is `UnicodeDecodeError`. -/
def decodeText (bytes : List ℕ) : Option (List ℕ) :=
  match detectEncoding bytes with
  | (.utf8, rest) => decodeUtf8 rest
  | (.utf16 big, rest) => decodeUtf16 big rest
  | (.utf32 big, rest) => decodeUtf32 big rest

example : decodeText [0x41, 0xc3, 0xa9, 0xed, 0xa0, 0x80] = some [0x41, 0xe9, 0xd800] ∧
    decodeText [0x7b, 0, 0x7d, 0] = some [0x7b, 0x7d] ∧ decodeText [0x41, 0xc3] = none := by decide

/-! ### ASCII -/

variable {bytes : List ℕ}

theorem decodeUtf8_ascii (h : ∀ b ∈ bytes, b < 0x80) : decodeUtf8 bytes = some bytes := by
  induction bytes with
  | nil => rfl
  | cons a bytes ih =>
    obtain ⟨ha, hbytes⟩ := List.forall_mem_cons.mp h
    rw [decodeUtf8.eq_def]
    dsimp only
    rw [if_pos ha, ih hbytes]
    rfl

/-- **ASCII without the zero** is its own text. -/
theorem decodeText_ascii (h : ∀ b ∈ bytes, 0 < b ∧ b < 0x80) : decodeText bytes = some bytes := by
  have hmark : ∀ {m : ℕ} {marks : List ℕ}, (m = 0 ∨ 0x80 ≤ m) →
      (m :: marks).isPrefixOf bytes = false := by
    intro m marks hm
    rw [Bool.eq_false_iff]
    intro hstarts
    have hmem : m ∈ bytes := (List.isPrefixOf_iff_prefix.mp hstarts).subset List.mem_cons_self
    have := h m hmem
    omega
  have hplain : detectPlain bytes = .utf8 := by
    unfold detectPlain
    split
    · rename_i a b c d rest
      have ha := h a (by simp)
      have hb := h b (by simp)
      rw [if_neg (by omega), if_neg (by omega)]
    · rename_i a b
      have ha := h a (by simp)
      have hb := h b (by simp)
      rw [if_neg (by omega), if_neg (by omega)]
    · rfl
  have hdetect : detectEncoding bytes = (.utf8, bytes) := by
    unfold detectEncoding
    rw [hmark (by omega), hmark (by omega), hmark (by omega), hmark (by omega), hmark (by omega),
      hplain]
    rfl
  rw [decodeText, hdetect]
  exact decodeUtf8_ascii fun b hb => (h b hb).2

end Msai.Lib.PyBytes
