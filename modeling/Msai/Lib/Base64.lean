import Mathlib.Data.List.DropRight
import Mathlib.Tactic.IntervalCases

namespace Msai.Lib.Base64

/-!
# Base64 with the alphabet of URLs

* `encode` — `base64.urlsafe_b64encode`;
* `decode` — `base64.urlsafe_b64decode`, which skips what is not in the alphabet and stops at the
  padding;
* `unpadded`, `rstrip_encode` — what `rstrip("=")` leaves;
* `decode_pad` — **with its padding back, it is decoded** to the bytes that were encoded.

A byte is a number below 256.
-/

/-! ### The alphabet -/

/-- The character of six bits. -/
def digit (n : ℕ) : Char :=
  if n < 26 then Char.ofNat (65 + n)
  else if n < 52 then Char.ofNat (71 + n)
  else if n < 62 then Char.ofNat (n - 4)
  else if n = 62 then '-'
  else '_'

/-- The six bits of a character; `+` and `/` are those of the other alphabet. -/
def valueOf (c : Char) : Option ℕ :=
  let n := c.toNat
  if 65 ≤ n ∧ n ≤ 90 then some (n - 65)
  else if 97 ≤ n ∧ n ≤ 122 then some (n - 71)
  else if 48 ≤ n ∧ n ≤ 57 then some (n + 4)
  else if c = '-' ∨ c = '+' then some 62
  else if c = '_' ∨ c = '/' then some 63
  else none

theorem valueOf_digit {n : ℕ} (h : n < 64) : valueOf (digit n) = some n := by
  interval_cases n <;> rfl

theorem digit_ne_pad {n : ℕ} (h : n < 64) : digit n ≠ '=' := by
  interval_cases n <;> decide

/-- A character of the alphabet is a letter, a digit, a dash or an underscore. -/
theorem digit_range {n : ℕ} (h : n < 64) :
    (digit n).toNat < 128 ∧ digit n ≠ '.' := by
  interval_cases n <;> decide

/-! ### Encoding -/

/-- `urlsafe_b64encode`. -/
def encode : List ℕ → List Char
  | [] => []
  | [a] => [digit (a / 4), digit (a % 4 * 16), '=', '=']
  | [a, b] => [digit (a / 4), digit (a % 4 * 16 + b / 16), digit (b % 16 * 4), '=']
  | a :: b :: c :: rest =>
    digit (a / 4) :: digit (a % 4 * 16 + b / 16) :: digit (b % 16 * 4 + c / 64) :: digit (c % 64) ::
      encode rest

/-- The code without its padding. -/
def unpadded : List ℕ → List Char
  | [] => []
  | [a] => [digit (a / 4), digit (a % 4 * 16)]
  | [a, b] => [digit (a / 4), digit (a % 4 * 16 + b / 16), digit (b % 16 * 4)]
  | a :: b :: c :: rest =>
    digit (a / 4) :: digit (a % 4 * 16 + b / 16) :: digit (b % 16 * 4 + c / 64) :: digit (c % 64) ::
      unpadded rest

/-- As many `=` as a multiple of four is away. -/
def padding (cs : List Char) : List Char := List.replicate ((4 - cs.length % 4) % 4) '='

/-- `s.rstrip("=")`. -/
def rstrip (cs : List Char) : List Char := cs.rdropWhile (· == '=')

/-! ### Decoding -/

/-- `a2b_base64` behind `quad` characters of a group of four, with the bits that are left of them,
    and behind `pads` signs of padding. -/
def decodeFrom : ℕ → ℕ → ℕ → List Char → Option (List ℕ)
  | quad, _, _, [] => if quad = 0 then some [] else none
  | quad, left, pads, c :: cs =>
    if c = '=' then
      if 2 ≤ quad then
        if 4 ≤ quad + (pads + 1) then some [] else decodeFrom quad left (pads + 1) cs
      else decodeFrom quad left pads cs
    else
      match valueOf c with
      | none => decodeFrom quad left pads cs
      | some v =>
        match quad with
        | 0 => decodeFrom 1 v 0 cs
        | 1 => (decodeFrom 2 (v % 16) 0 cs).map fun bytes => (left * 4 + v / 16) :: bytes
        | 2 => (decodeFrom 3 (v % 4) 0 cs).map fun bytes => (left * 16 + v / 4) :: bytes
        | _ => (decodeFrom 0 0 0 cs).map fun bytes => (left * 64 + v) :: bytes

/-- `urlsafe_b64decode`; `none` is `binascii.Error`. -/
def decode (cs : List Char) : Option (List ℕ) := decodeFrom 0 0 0 cs

example : encode [1, 2, 255, 254] = "AQL__g==".toList ∧
    decode "AQ L/_g==".toList = some [1, 2, 255, 254] ∧ decode "AQL__".toList = none := by decide

/-! ### Back and forth -/

variable {bytes : List ℕ} {cs : List Char} {quad left pads v : ℕ}

/-- The padding is what the two codes differ by. -/
theorem encode_eq : encode bytes = unpadded bytes ++ padding (unpadded bytes) := by
  fun_induction encode bytes with
  | case1 => rfl
  | case2 a => rfl
  | case3 a b => rfl
  | case4 a b c rest ih =>
    have hpadding : padding (unpadded (a :: b :: c :: rest)) = padding (unpadded rest) := by
      simp only [padding, unpadded, List.length_cons]
      congr 1
      omega
    rw [hpadding, ih]
    rfl

/-- Every character of the code is one of the alphabet. -/
theorem mem_unpadded {c : Char} (hbytes : ∀ b ∈ bytes, b < 256) (hc : c ∈ unpadded bytes) :
    ∃ n < 64, c = digit n := by
  fun_induction unpadded bytes with
  | case1 => cases hc
  | case2 a =>
    have ha := hbytes a (by simp)
    simp only [List.mem_cons, List.not_mem_nil, or_false] at hc
    rcases hc with rfl | rfl
    · exact ⟨a / 4, by omega, rfl⟩
    · exact ⟨a % 4 * 16, by omega, rfl⟩
  | case3 a b =>
    have ha := hbytes a (by simp)
    have hb := hbytes b (by simp)
    simp only [List.mem_cons, List.not_mem_nil, or_false] at hc
    rcases hc with rfl | rfl | rfl
    · exact ⟨a / 4, by omega, rfl⟩
    · exact ⟨a % 4 * 16 + b / 16, by omega, rfl⟩
    · exact ⟨b % 16 * 4, by omega, rfl⟩
  | case4 a b c' rest ih =>
    have ha := hbytes a (by simp)
    have hb := hbytes b (by simp)
    have hc' := hbytes c' (by simp)
    simp only [List.mem_cons] at hc
    rcases hc with rfl | rfl | rfl | rfl | hc
    · exact ⟨a / 4, by omega, rfl⟩
    · exact ⟨a % 4 * 16 + b / 16, by omega, rfl⟩
    · exact ⟨b % 16 * 4 + c' / 64, by omega, rfl⟩
    · exact ⟨c' % 64, by omega, rfl⟩
    · exact ih (fun x hx => hbytes x (by simp [hx])) hc

/-- The padding, and nothing else, is stripped. -/
theorem rstrip_encode (hbytes : ∀ b ∈ bytes, b < 256) : rstrip (encode bytes) = unpadded bytes := by
  have hstrip : ∀ k, rstrip (unpadded bytes ++ List.replicate k '=') = unpadded bytes := by
    intro k
    induction k with
    | zero =>
      rw [List.replicate_zero, List.append_nil, rstrip, List.rdropWhile_eq_self_iff]
      intro hne
      obtain ⟨n, hn, hlast⟩ := mem_unpadded hbytes (List.getLast_mem hne)
      rw [hlast, beq_iff_eq]
      exact digit_ne_pad hn
    | succ k ih =>
      rw [List.replicate_succ', ← List.append_assoc, rstrip, List.rdropWhile_concat_pos _ _ _ rfl]
      exact ih
  rw [encode_eq]
  exact hstrip _

/-- What a character of the alphabet does, by its place in its group. -/
theorem decodeFrom_digit (hv : v < 64) :
    decodeFrom quad left pads (digit v :: cs) =
      match quad with
      | 0 => decodeFrom 1 v 0 cs
      | 1 => (decodeFrom 2 (v % 16) 0 cs).map fun bytes => (left * 4 + v / 16) :: bytes
      | 2 => (decodeFrom 3 (v % 4) 0 cs).map fun bytes => (left * 16 + v / 4) :: bytes
      | _ => (decodeFrom 0 0 0 cs).map fun bytes => (left * 64 + v) :: bytes := by
  rw [decodeFrom, if_neg (digit_ne_pad hv), valueOf_digit hv]

/-- The first character of a group. -/
theorem decodeFrom_first (hv : v < 64) :
    decodeFrom 0 left pads (digit v :: cs) = decodeFrom 1 v 0 cs :=
  decodeFrom_digit hv

/-- The second one makes a byte. -/
theorem decodeFrom_second (hv : v < 64) :
    decodeFrom 1 left pads (digit v :: cs) =
      (decodeFrom 2 (v % 16) 0 cs).map fun bytes => (left * 4 + v / 16) :: bytes :=
  decodeFrom_digit hv

/-- So does the third one. -/
theorem decodeFrom_third (hv : v < 64) :
    decodeFrom 2 left pads (digit v :: cs) =
      (decodeFrom 3 (v % 4) 0 cs).map fun bytes => (left * 16 + v / 4) :: bytes :=
  decodeFrom_digit hv

/-- And the last one. -/
theorem decodeFrom_last (hv : v < 64) :
    decodeFrom 3 left pads (digit v :: cs) =
      (decodeFrom 0 0 0 cs).map fun bytes => (left * 64 + v) :: bytes :=
  decodeFrom_digit hv

/-- **With its padding back, a code is decoded** to the bytes that were encoded. -/
theorem decode_pad (hbytes : ∀ b ∈ bytes, b < 256) :
    decode (unpadded bytes ++ padding (unpadded bytes)) = some bytes := by
  rw [← encode_eq, decode]
  fun_induction encode bytes with
  | case1 => rfl
  | case2 a =>
    have ha := hbytes a (by simp)
    have hbyte : a / 4 * 4 + a % 4 * 16 / 16 = a := by omega
    rw [decodeFrom_first (by omega), decodeFrom_second (by omega), hbyte]
    rfl
  | case3 a b =>
    have ha := hbytes a (by simp)
    have hb := hbytes b (by simp)
    have hfirst : a / 4 * 4 + (a % 4 * 16 + b / 16) / 16 = a := by omega
    have hsecond : (a % 4 * 16 + b / 16) % 16 * 16 + b % 16 * 4 / 4 = b := by omega
    rw [decodeFrom_first (by omega), decodeFrom_second (by omega), decodeFrom_third (by omega),
      hfirst, hsecond]
    rfl
  | case4 a b c rest ih =>
    have ha := hbytes a (by simp)
    have hb := hbytes b (by simp)
    have hc := hbytes c (by simp)
    have hfirst : a / 4 * 4 + (a % 4 * 16 + b / 16) / 16 = a := by omega
    have hsecond : (a % 4 * 16 + b / 16) % 16 * 16 + (b % 16 * 4 + c / 64) / 4 = b := by omega
    have hthird : (b % 16 * 4 + c / 64) % 4 * 64 + c % 64 = c := by omega
    rw [decodeFrom_first (by omega), decodeFrom_second (by omega), decodeFrom_third (by omega),
      decodeFrom_last (by omega), ih fun x hx => hbytes x (by simp [hx]), hfirst, hsecond, hthird]
    rfl

end Msai.Lib.Base64
