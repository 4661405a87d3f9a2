import Msai.Lib.Binary64
import Msai.Lib.Dict
import Msai.Lib.IndexedFold
import Msai.Lib.PyBytes
import Msai.Lib.PyJson
import Mathlib.Tactic.IntervalCases

namespace Msai.Lib

/-!
# `json.loads`

The scanner of Python's `json` module on the code points of a text.

* `JsonValue` — what a text is read as;
* `scanString`, `scanNumber`, `elements`, `scanOnce` — strings, numbers, the loop of a list or of an
  object, and a value; an object or a list is entered with one frame less;
* `loads` — bytes to a value;
* `elements_fuel` — the loop does not run out of fuel;
* `scanString_quoted`, `scanNumber_int`, `reads_object` — what `json.dumps` writes is read back.
-/

/-! ### Hexadecimal -/

/-- The value of a hexadecimal digit. -/
def hexValue (c : ℕ) : Option ℕ :=
  if 48 ≤ c ∧ c ≤ 57 then some (c - 48)
  else if 97 ≤ c ∧ c ≤ 102 then some (c - 87)
  else if 65 ≤ c ∧ c ≤ 70 then some (c - 55)
  else none

/-- The number of hexadecimal digits. -/
def hexNumber (cs : List ℕ) : Option ℕ :=
  cs.foldlM (fun n c => (hexValue c).map fun d => 16 * n + d) 0

/-- The code points of a text. -/
def codes (cs : List Char) : List ℕ := cs.map Char.toNat

theorem codes_append {s t : List Char} : codes (s ++ t) = codes s ++ codes t := List.map_append

theorem codes_cons {c : Char} {s : List Char} : codes (c :: s) = c.toNat :: codes s := rfl

theorem hexValue_digitChar {d : ℕ} (h : d < 16) : hexValue d.digitChar.toNat = some d := by
  interval_cases d <;> rfl

/-- The last digit of a number. -/
theorem hexPadded_succ {w n : ℕ} (hw : 0 < w) :
    hexPadded (w + 1) n = hexPadded w (n / 16) ++ [(n % 16).digitChar] := by
  obtain ⟨w, rfl⟩ := Nat.exists_eq_succ_of_ne_zero hw.ne'
  unfold hexPadded
  dsimp only
  by_cases hn : n < 16
  · have hdiv : n / 16 = 0 := Nat.div_eq_of_lt hn
    rw [Nat.toDigits_of_lt_base hn, hdiv, Nat.mod_eq_of_lt hn, Nat.toDigits_zero]
    show List.replicate (w + 1) '0' ++ [n.digitChar] =
      List.replicate w '0' ++ ['0'] ++ [n.digitChar]
    rw [List.replicate_succ']
  · rw [Nat.toDigits_of_base_le (by norm_num) (not_lt.mp hn), List.length_append,
      ← List.append_assoc]
    congr 3
    simp only [List.length_singleton]
    omega

theorem hexPadded_one {n : ℕ} (h : n < 16) : hexPadded 1 n = [n.digitChar] := by
  unfold hexPadded
  rw [Nat.toDigits_of_lt_base h]
  rfl

theorem length_hexPadded {w n : ℕ} (hw : 0 < w) (h : n < 16 ^ w) : (hexPadded w n).length = w := by
  have hdigits : (Nat.toDigits 16 n).length ≤ w :=
    (Nat.length_toDigits_le_iff (by norm_num) hw).mpr h
  simp only [hexPadded, List.length_append, List.length_replicate]
  omega

/-- Every digit is one of sixteen. -/
theorem mem_hexPadded {w n : ℕ} {c : Char} (hw : 0 < w) (h : n < 16 ^ w) (hc : c ∈ hexPadded w n) :
    ∃ d < 16, c = d.digitChar := by
  induction w, hw using Nat.le_induction generalizing n with
  | base =>
    rw [hexPadded_one (by simpa using h), List.mem_singleton] at hc
    exact ⟨n, by simpa using h, hc⟩
  | succ w hw ih =>
    rw [hexPadded_succ hw, List.mem_append, List.mem_singleton] at hc
    rcases hc with hc | hc
    · exact ih (Nat.div_lt_of_lt_mul (by rwa [pow_succ'] at h)) hc
    · exact ⟨n % 16, Nat.mod_lt n (by norm_num), hc⟩

/-- **A number in hexadecimal is read back.** -/
theorem hexNumber_hexPadded {w n : ℕ} (hw : 0 < w) (h : n < 16 ^ w) :
    hexNumber (codes (hexPadded w n)) = some n := by
  induction w, hw using Nat.le_induction generalizing n with
  | base =>
    have hn : n < 16 := by simpa using h
    rw [hexPadded_one hn]
    simp only [hexNumber, codes, List.map_singleton, List.foldlM_cons, List.foldlM_nil,
      hexValue_digitChar hn, Option.map_some, Nat.mul_zero, Nat.zero_add]
    rfl
  | succ w hw ih =>
    have hdiv : n / 16 < 16 ^ w := Nat.div_lt_of_lt_mul (by rwa [pow_succ'] at h)
    have hhead := ih hdiv
    unfold hexNumber at hhead ⊢
    rw [hexPadded_succ hw, codes, List.map_append, List.foldlM_append]
    rw [codes] at hhead
    rw [hhead]
    simp only [List.map_singleton, List.foldlM_cons, List.foldlM_nil, Option.bind_eq_bind,
      Option.bind_some, hexValue_digitChar (Nat.mod_lt n (by norm_num)), Option.map_some,
      Nat.div_add_mod]
    rfl

/-! ### Values -/

/-- A `float`. -/
inductive FloatValue
  | finite (negative : Bool) (magnitude : ℚ)
  | infinite (negative : Bool)
  | nan
deriving DecidableEq, Repr

/-- What a text is read as.  A string is the list of its code points, and an object has the value
    that was read last for a key. -/
inductive JsonValue
  | null
  | bool (b : Bool)
  | int (n : ℤ)
  | float (x : FloatValue)
  | str (s : List ℕ)
  | arr (items : List JsonValue)
  | obj (fields : List (List ℕ × JsonValue))

inductive LoadsError
  /-- A `ValueError`: `JSONDecodeError` or `UnicodeDecodeError`. -/
  | value
  /-- `RecursionError`. -/
  | recursion
deriving DecidableEq, Repr

namespace JsonLoads

open PyBytes

/-! ### Strings -/

/-- `\uXXXX` behind its `u`. -/
def fourHex (a b c d : ℕ) : Option ℕ := hexNumber [a, b, c, d]

/-- A character behind a backslash. -/
def simpleEscape (e : ℕ) : Option ℕ :=
  if e = 0x22 ∨ e = 0x5c ∨ e = 0x2f then some e
  else if e = 0x62 then some 0x08
  else if e = 0x66 then some 0x0c
  else if e = 0x6e then some 0x0a
  else if e = 0x72 then some 0x0d
  else if e = 0x74 then some 0x09
  else none

/-- The code points of a string behind its first quote, and the text behind its last one.  A code
    point that was written as `\uXXXX` is marked. -/
def scanUnits : List ℕ → Option (List (ℕ × Bool) × List ℕ)
  | [] => none
  | c :: cs =>
    if c = 0x22 then some ([], cs)
    else if c < 0x20 then none
    else if c ≠ 0x5c then (scanUnits cs).map fun r => ((c, false) :: r.1, r.2)
    else
      match cs with
      | [] => none
      | e :: cs =>
        if e ≠ 0x75 then
          (simpleEscape e).bind fun p => (scanUnits cs).map fun r => ((p, false) :: r.1, r.2)
        else
          match cs with
          | h :: i :: j :: k :: cs =>
            (fourHex h i j k).bind fun n => (scanUnits cs).map fun r => ((n, true) :: r.1, r.2)
          | _ => none

/-- Two escapes that are a pair of surrogates are one code point. -/
def joinEscapes : List (ℕ × Bool) → List ℕ
  | [] => []
  | [u] => [u.1]
  | u :: v :: rest =>
    if u.2 && v.2 && isHighSurrogate u.1 && isLowSurrogate v.1 then
      joinSurrogates u.1 v.1 :: joinEscapes rest
    else u.1 :: joinEscapes (v :: rest)

/-- `scanstring`. -/
def scanString (text : List ℕ) : Option (List ℕ × List ℕ) :=
  (scanUnits text).map fun r => (joinEscapes r.1, r.2)

/-! ### Numbers -/

def isDigit (c : ℕ) : Bool := decide (48 ≤ c ∧ c ≤ 57)

/-- The number of decimal digits. -/
def decimal (digits : List ℕ) : ℕ := digits.foldl (fun n c => 10 * n + (c - 48)) 0

/-- The digits before the point: no zero stands before another digit. -/
def scanInteger : List ℕ → Option (List ℕ × List ℕ)
  | [] => none
  | c :: cs =>
    if c = 48 then some ([c], cs)
    else if isDigit c then some (c :: cs.takeWhile isDigit, cs.dropWhile isDigit)
    else none

/-- The digits behind a point, if there are any. -/
def scanFraction : List ℕ → List ℕ × List ℕ
  | [] => ([], [])
  | c :: cs =>
    if c = 0x2e ∧ cs.takeWhile isDigit ≠ [] then (cs.takeWhile isDigit, cs.dropWhile isDigit)
    else ([], c :: cs)

/-- The sign of an exponent. -/
def scanSign : List ℕ → Bool × List ℕ
  | [] => (false, [])
  | c :: cs => if c = 0x2d then (true, cs) else if c = 0x2b then (false, cs) else (false, c :: cs)

/-- An exponent, if it has digits. -/
def scanExponent : List ℕ → Option ℤ × List ℕ
  | [] => (none, [])
  | c :: cs =>
    let r := scanSign cs
    let digits := r.2.takeWhile isDigit
    if (c = 0x65 ∨ c = 0x45) ∧ digits ≠ [] then
      (some (if r.1 then -decimal digits else decimal digits), r.2.dropWhile isDigit)
    else (none, c :: cs)

/-- `float(text)` of a decimal number. -/
def floatOf (negative : Bool) (x : ℚ) : FloatValue :=
  let magnitude := Binary64.roundMagnitude x
  if 2 ^ 1024 ≤ magnitude then .infinite negative else .finite negative magnitude

/-- `_match_number`. -/
def scanNumber (text : List ℕ) : Option (JsonValue × List ℕ) :=
  let r := scanSign text
  -- a plus is no sign of a number
  let negative := r.1
  (scanInteger (if negative then r.2 else text)).map fun integer =>
    let fraction := scanFraction integer.2
    let exponent := scanExponent fraction.2
    if fraction.1 = [] ∧ exponent.1 = none then
      (.int (if negative then -decimal integer.1 else decimal integer.1), exponent.2)
    else
      let power : ℤ := exponent.1.getD 0 - fraction.1.length
      (.float (floatOf negative (decimal (integer.1 ++ fraction.1) * 10 ^ power)), exponent.2)

/-! ### Values -/

def isSpace (c : ℕ) : Bool := c == 0x20 || c == 0x09 || c == 0x0a || c == 0x0d

def skipSpace (text : List ℕ) : List ℕ := text.dropWhile isSpace

/-- The loop of a list or of an object, from an item up to its last bracket.  A turn takes one unit
    of fuel. -/
def elements {α : Type} (close : ℕ) (item : List ℕ → Except LoadsError (α × List ℕ)) :
    ℕ → List ℕ → Except LoadsError (List α × List ℕ)
  | 0, _ => .error .value
  | fuel + 1, text =>
    (item text).bind fun r =>
      match skipSpace r.2 with
      | [] => .error .value
      | c :: rest =>
        if c = close then .ok ([r.1], rest)
        else if c = 0x2c then
          (elements close item fuel (skipSpace rest)).map fun more => (r.1 :: more.1, more.2)
        else .error .value

/-- What stands between two brackets. -/
def bracketed {α : Type} (close : ℕ) (item : List ℕ → Except LoadsError (α × List ℕ))
    (text : List ℕ) : Except LoadsError (List α × List ℕ) :=
  match skipSpace text with
  | [] => .error .value
  | c :: rest =>
    if c = close then .ok ([], rest) else elements close item (c :: rest).length (c :: rest)

/-- A key, a colon and a value. -/
def member (scan : List ℕ → Except LoadsError (JsonValue × List ℕ)) :
    List ℕ → Except LoadsError ((List ℕ × JsonValue) × List ℕ)
  | [] => .error .value
  | c :: cs =>
    if c ≠ 0x22 then .error .value
    else
      match scanString cs with
      | none => .error .value
      | some (key, rest) =>
        match skipSpace rest with
        | [] => .error .value
        | c :: rest =>
          if c ≠ 0x3a then .error .value
          else (scan (skipSpace rest)).map fun r => ((key, r.1), r.2)

/-- The constants. -/
def constants : List (List Char × JsonValue) :=
  [("null".toList, .null), ("true".toList, .bool true), ("false".toList, .bool false),
    ("NaN".toList, .float .nan), ("Infinity".toList, .float (.infinite false)),
    ("-Infinity".toList, .float (.infinite true))]

/-- A constant or a number. -/
def scanPlain (text : List ℕ) : Except LoadsError (JsonValue × List ℕ) :=
  match constants.find? fun p => (codes p.1).isPrefixOf text with
  | some p => .ok (p.2, text.drop p.1.length)
  | none =>
    match scanNumber text with
    | some r => .ok r
    | none => .error .value

/-- `scan_once`, with the frames that are left. -/
def scanOnce : ℕ → List ℕ → Except LoadsError (JsonValue × List ℕ)
  | _, [] => .error .value
  | frames, c :: cs =>
    if c = 0x22 then
      match scanString cs with
      | some r => .ok (.str r.1, r.2)
      | none => .error .value
    else if c = 0x7b then
      match frames with
      | 0 => .error .recursion
      | frames + 1 =>
        (bracketed 0x7d (member (scanOnce frames)) cs).map fun r =>
          (.obj (Dict.build some r.1), r.2)
    else if c = 0x5b then
      match frames with
      | 0 => .error .recursion
      | frames + 1 => (bracketed 0x5d (scanOnce frames) cs).map fun r => (.arr r.1, r.2)
    else scanPlain (c :: cs)

/-- `json.loads`, with the frames that are left. -/
def loads (frames : ℕ) (bytes : List ℕ) : Except LoadsError JsonValue :=
  match decodeText bytes with
  | none => .error .value
  | some text =>
    (scanOnce frames (skipSpace text)).bind fun r =>
      if skipSpace r.2 = [] then .ok r.1 else .error .value

/-! ### The loop does not run out of fuel -/

section Fuel

variable {α : Type} {close : ℕ} {text rest : List ℕ} {v : JsonValue} {frames : ℕ}

/-- A part of the scanner leaves less than it was given. -/
def Consumes (item : List ℕ → Except LoadsError (α × List ℕ)) : Prop :=
  ∀ text a rest, item text = .ok (a, rest) → rest.length < text.length

theorem skipSpace_length (text : List ℕ) : (skipSpace text).length ≤ text.length :=
  (List.dropWhile_sublist _).length_le

/-- **More fuel makes no difference** where an item consumes something. -/
theorem elements_fuel {item : List ℕ → Except LoadsError (α × List ℕ)} (hitem : Consumes item)
    {fuel fuel' : ℕ} (hpos : 0 < fuel) (hfuel : text.length ≤ fuel) (hpos' : 0 < fuel')
    (hfuel' : text.length ≤ fuel') :
    elements close item fuel text = elements close item fuel' text := by
  induction fuel generalizing fuel' text with
  | zero => exact absurd hpos (lt_irrefl 0)
  | succ fuel ih =>
    obtain ⟨fuel', rfl⟩ := Nat.exists_eq_succ_of_ne_zero hpos'.ne'
    unfold elements
    cases hread : item text with
    | error e => rfl
    | ok r =>
      have hlt := hitem text r.1 r.2 hread
      have hspace := skipSpace_length r.2
      show (match skipSpace r.2 with | [] => _ | c :: rest => _) =
        (match skipSpace r.2 with | [] => _ | c :: rest => _)
      cases hrest : skipSpace r.2 with
      | nil => rfl
      | cons c rest =>
        have hrest' := skipSpace_length rest
        rw [hrest, List.length_cons] at hspace
        have hmore : elements close item fuel (skipSpace rest) =
            elements close item fuel' (skipSpace rest) :=
          ih (by omega) (by omega) (by omega) (by omega)
        dsimp only
        rw [hmore]

/-- The loop consumes something as well. -/
theorem elements_consumes {item : List ℕ → Except LoadsError (α × List ℕ)} (hitem : Consumes item)
    {fuel : ℕ} : Consumes (elements close item fuel) := by
  induction fuel with
  | zero =>
    intro text a rest h
    cases h
  | succ fuel ih =>
    intro text as rest h
    obtain ⟨⟨a, t⟩, ha, hmore⟩ := except_bind_eq_ok h
    have hlt := hitem text a t ha
    have hspace := skipSpace_length t
    dsimp only at hmore
    split at hmore
    · cases hmore
    · rename_i c t' ht
      rw [ht, List.length_cons] at hspace
      split at hmore
      · obtain ⟨-, rfl⟩ := Prod.mk.inj (Except.ok.inj hmore)
        omega
      · split at hmore
        · obtain ⟨⟨bs, t''⟩, hbs, heq⟩ := except_map_eq_ok hmore
          obtain ⟨-, rfl⟩ := Prod.mk.inj heq
          have hrec := ih _ _ _ hbs
          have hspace' := skipSpace_length t'
          dsimp only
          omega
        · cases hmore

theorem bracketed_consumes {item : List ℕ → Except LoadsError (α × List ℕ)}
    (hitem : Consumes item) : Consumes (bracketed close item) := by
  intro text as rest h
  unfold bracketed at h
  have hspace := skipSpace_length text
  split at h
  · cases h
  · rename_i c t ht
    rw [ht, List.length_cons] at hspace
    split at h
    · obtain ⟨-, rfl⟩ := Prod.mk.inj (Except.ok.inj h)
      omega
    · have hlt := elements_consumes hitem _ _ _ h
      rw [List.length_cons] at hlt
      omega

/-- What is read is changed, and what is left is not. -/
theorem exists_of_map {β γ : Type} {x : Option (β × List ℕ)} {g : β × List ℕ → γ × List ℕ}
    {c : γ} (h : x.map g = some (c, rest)) (hg : ∀ r, (g r).2 = r.2) :
    ∃ b, x = some (b, rest) := by
  obtain ⟨⟨b, r⟩, hx, heq⟩ := Option.map_eq_some_iff.mp h
  have hrest : rest = r := (congrArg Prod.snd heq).symm.trans (hg (b, r))
  exact ⟨b, hrest ▸ hx⟩

/-- A string has a quote at its end. -/
theorem scanUnits_length {units : List (ℕ × Bool)} (h : scanUnits text = some (units, rest)) :
    rest.length < text.length := by
  fun_induction scanUnits text generalizing units rest with
  | case1 => cases h
  | case2 =>
    obtain ⟨-, rfl⟩ := Prod.mk.inj (Option.some.inj h)
    simp
  | case3 => cases h
  | case4 c cs _ _ _ ih =>
    obtain ⟨us, hr⟩ := exists_of_map h fun _ => rfl
    have hlt := ih hr
    rw [List.length_cons]
    omega
  | case5 => cases h
  | case6 c _ _ _ e cs _ ih =>
    obtain ⟨p, _, hp⟩ := Option.bind_eq_some_iff.mp h
    obtain ⟨us, hr⟩ := exists_of_map hp fun _ => rfl
    have hlt := ih hr
    simp only [List.length_cons]
    omega
  | case7 c _ _ _ e _ a b d f cs ih =>
    obtain ⟨p, _, hp⟩ := Option.bind_eq_some_iff.mp h
    obtain ⟨us, hr⟩ := exists_of_map hp fun _ => rfl
    have hlt := ih hr
    simp only [List.length_cons]
    omega
  | case8 => cases h

theorem scanString_length {s : List ℕ} (h : scanString text = some (s, rest)) :
    rest.length < text.length := by
  unfold scanString at h
  obtain ⟨us, hr⟩ := exists_of_map h fun _ => rfl
  exact scanUnits_length hr

theorem scanSign_length (text : List ℕ) : (scanSign text).2.length ≤ text.length := by
  cases text with
  | nil => exact le_rfl
  | cons c cs =>
    rw [scanSign]
    split
    · simp
    · split
      · simp
      · exact le_rfl

theorem scanInteger_length {digits : List ℕ} (h : scanInteger text = some (digits, rest)) :
    rest.length < text.length := by
  cases text with
  | nil => cases h
  | cons c cs =>
    have hdrop := (List.dropWhile_sublist isDigit (l := cs)).length_le
    rw [scanInteger] at h
    split at h
    · obtain ⟨-, rfl⟩ := Prod.mk.inj (Option.some.inj h)
      simp
    · split at h
      · obtain ⟨-, rfl⟩ := Prod.mk.inj (Option.some.inj h)
        rw [List.length_cons]
        omega
      · cases h

theorem scanFraction_length (text : List ℕ) : (scanFraction text).2.length ≤ text.length := by
  cases text with
  | nil => exact le_rfl
  | cons c cs =>
    have hdrop := (List.dropWhile_sublist isDigit (l := cs)).length_le
    rw [scanFraction]
    split
    · rw [List.length_cons]
      dsimp only
      omega
    · exact le_rfl

theorem scanExponent_length (text : List ℕ) : (scanExponent text).2.length ≤ text.length := by
  cases text with
  | nil => exact le_rfl
  | cons c cs =>
    have hsign := scanSign_length cs
    have hdrop := (List.dropWhile_sublist isDigit (l := (scanSign cs).2)).length_le
    rw [scanExponent]
    split
    · rw [List.length_cons]
      dsimp only
      omega
    · exact le_rfl

theorem scanNumber_length (h : scanNumber text = some (v, rest)) : rest.length < text.length := by
  obtain ⟨⟨digits, t⟩, ht, heq⟩ := Option.map_eq_some_iff.mp h
  have hsign := scanSign_length text
  have hinteger := scanInteger_length ht
  have hfraction := scanFraction_length t
  have hexponent := scanExponent_length (scanFraction t).2
  have hrest : rest = (scanExponent (scanFraction t).2).2 := by
    dsimp only at heq
    split at heq
    · exact (Prod.mk.inj heq).2.symm
    · exact (Prod.mk.inj heq).2.symm
  rw [hrest]
  split at hinteger
  · omega
  · omega

theorem scanPlain_consumes : Consumes scanPlain := by
  intro text v rest h
  unfold scanPlain at h
  split at h
  · rename_i p hp
    obtain ⟨-, rfl⟩ := Prod.mk.inj (Except.ok.inj h)
    have hfound : (codes p.1).isPrefixOf text = true :=
      List.find?_some (p := fun p : List Char × JsonValue => (codes p.1).isPrefixOf text) hp
    have hstarts := (List.isPrefixOf_iff_prefix.mp hfound).length_le
    have hpos : 0 < p.1.length := by
      have hmem := List.mem_of_find?_eq_some hp
      simp only [constants, List.mem_cons, List.not_mem_nil, or_false] at hmem
      rcases hmem with rfl | rfl | rfl | rfl | rfl | rfl <;> decide
    rw [codes, List.length_map] at hstarts
    rw [List.length_drop]
    omega
  · split at h
    · rename_i r hr
      obtain rfl := Except.ok.inj h
      exact scanNumber_length hr
    · cases h

theorem member_consumes {scan : List ℕ → Except LoadsError (JsonValue × List ℕ)}
    (hscan : Consumes scan) : Consumes (member scan) := by
  intro text kv rest h
  cases text with
  | nil => cases h
  | cons c cs =>
    rw [member] at h
    split at h
    · cases h
    · split at h
      · cases h
      · rename_i key t hkey
        have hlt := scanString_length hkey
        have hspace := skipSpace_length t
        split at h
        · cases h
        · rename_i c' t' ht'
          rw [ht', List.length_cons] at hspace
          split at h
          · cases h
          · obtain ⟨⟨v, t''⟩, hv, heq⟩ := except_map_eq_ok h
            obtain ⟨-, rfl⟩ := Prod.mk.inj heq
            have hvalue := hscan _ _ _ hv
            have hspace' := skipSpace_length t'
            rw [List.length_cons]
            dsimp only
            omega

/-- **A value is not empty**, so that no loop runs out of fuel. -/
theorem scanOnce_consumes : Consumes (scanOnce frames) := by
  induction frames with
  | zero =>
    intro text v rest h
    cases text with
    | nil => cases h
    | cons c cs =>
      rw [scanOnce] at h
      split at h
      · split at h
        · rename_i r hr
          obtain ⟨-, rfl⟩ := Prod.mk.inj (Except.ok.inj h)
          exact (scanString_length hr).trans (Nat.lt_succ_self _)
        · cases h
      · split at h
        · cases h
        · split at h
          · cases h
          · exact scanPlain_consumes _ _ _ h
  | succ frames ih =>
    intro text v rest h
    cases text with
    | nil => cases h
    | cons c cs =>
      rw [scanOnce] at h
      split at h
      · split at h
        · rename_i r hr
          obtain ⟨-, rfl⟩ := Prod.mk.inj (Except.ok.inj h)
          exact (scanString_length hr).trans (Nat.lt_succ_self _)
        · cases h
      · split at h
        · obtain ⟨⟨fields, t⟩, ht, heq⟩ := except_map_eq_ok h
          obtain ⟨-, rfl⟩ := Prod.mk.inj heq
          exact (bracketed_consumes (member_consumes ih) _ _ _ ht).trans (Nat.lt_succ_self _)
        · split at h
          · obtain ⟨⟨items, t⟩, ht, heq⟩ := except_map_eq_ok h
            obtain ⟨-, rfl⟩ := Prod.mk.inj heq
            exact (bracketed_consumes ih _ _ _ ht).trans (Nat.lt_succ_self _)
          · exact scanPlain_consumes _ _ _ h

end Fuel

/-! ### Strings are read back -/

section Strings

variable {c : Char} {s : List Char} {rest : List ℕ} {n : ℕ}

/-- What the escape of a character is read as. -/
def unitsOf (c : Char) : List (ℕ × Bool) :=
  if c ∈ ['\x22', '\x5c', '\n', '\r', '\t', '\x0c', '\x08'] then [(c.toNat, false)]
  else if 0x20 ≤ c.toNat ∧ c.toNat ≤ 0x7e then [(c.toNat, false)]
  else if c.toNat ≤ 0xffff then [(c.toNat, true)]
  else
    [(0xd800 + (c.toNat - 0x10000) / 0x400, true), (0xdc00 + (c.toNat - 0x10000) % 0x400, true)]

theorem scanUnits_quote : scanUnits (0x22 :: rest) = some ([], rest) := by
  rw [scanUnits.eq_def]
  rfl

theorem scanUnits_plain (hquote : n ≠ 0x22) (hcontrol : ¬ n < 0x20) (hslash : n ≠ 0x5c) :
    scanUnits (n :: rest) = (scanUnits rest).map fun r => ((n, false) :: r.1, r.2) := by
  rw [scanUnits.eq_def]
  dsimp only
  rw [if_neg hquote, if_neg hcontrol, if_pos hslash]

theorem scanUnits_simple {e : ℕ} (he : e ≠ 0x75) (hsimple : simpleEscape e = some n) :
    scanUnits (0x5c :: e :: rest) = (scanUnits rest).map fun r => ((n, false) :: r.1, r.2) := by
  rw [scanUnits.eq_def]
  dsimp only
  rw [if_neg (by norm_num), if_neg (by norm_num), if_neg (by norm_num), if_pos he, hsimple]
  rfl

theorem scanUnits_hex {i j k l : ℕ} (hfour : fourHex i j k l = some n) :
    scanUnits (0x5c :: 0x75 :: i :: j :: k :: l :: rest) =
      (scanUnits rest).map fun r => ((n, true) :: r.1, r.2) := by
  rw [scanUnits.eq_def]
  dsimp only
  rw [if_neg (by norm_num), if_neg (by norm_num), if_neg (by norm_num), if_neg (by norm_num), hfour]
  rfl

/-- `\uXXXX` is read. -/
theorem scanUnits_unicodeEscape (h : n < 0x10000) :
    scanUnits (codes (unicodeEscape n) ++ rest) =
      (scanUnits rest).map fun r => ((n, true) :: r.1, r.2) := by
  have hlength := length_hexPadded (w := 4) (n := n) (by norm_num) (by norm_num; omega)
  have hnumber := hexNumber_hexPadded (w := 4) (n := n) (by norm_num) (by norm_num; omega)
  match hdigits : hexPadded 4 n, hlength with
  | [i, j, k, l], _ =>
    rw [hdigits] at hnumber
    have hfour : fourHex i.toNat j.toNat k.toNat l.toNat = some n := hnumber
    rw [unicodeEscape, hdigits]
    exact scanUnits_hex hfour

/-- A character that is written as a backslash and a letter. -/
theorem escapeChar_simple (h : c ∈ ['\x22', '\x5c', '\n', '\r', '\t', '\x0c', '\x08']) :
    ∃ e, escapeChar c = ['\x5c', e] ∧ simpleEscape e.toNat = some c.toNat ∧ e.toNat ≠ 0x75 := by
  simp only [List.mem_cons, List.not_mem_nil, or_false] at h
  rcases h with rfl | rfl | rfl | rfl | rfl | rfl | rfl
  · exact ⟨'\x22', by decide, by decide, by decide⟩
  · exact ⟨'\x5c', by decide, by decide, by decide⟩
  · exact ⟨'n', by decide, by decide, by decide⟩
  · exact ⟨'r', by decide, by decide, by decide⟩
  · exact ⟨'t', by decide, by decide, by decide⟩
  · exact ⟨'f', by decide, by decide, by decide⟩
  · exact ⟨'b', by decide, by decide, by decide⟩

/-- One character is read. -/
theorem scanUnits_escapeChar :
    scanUnits (codes (escapeChar c) ++ rest) =
      (scanUnits rest).map fun r => (unitsOf c ++ r.1, r.2) := by
  by_cases hspecial : c ∈ ['\x22', '\x5c', '\n', '\r', '\t', '\x0c', '\x08']
  · obtain ⟨e, hescape, hsimple, he⟩ := escapeChar_simple hspecial
    rw [hescape, unitsOf, if_pos hspecial]
    exact scanUnits_simple he hsimple
  · unfold escapeChar
    have hother := hspecial
    simp only [List.mem_cons, List.not_mem_nil, or_false, not_or] at hspecial
    obtain ⟨h1, h2, h3, h4, h5, h6, h7⟩ := hspecial
    rw [if_neg h1, if_neg h2, if_neg h3, if_neg h4, if_neg h5, if_neg h6, if_neg h7, unitsOf,
      if_neg hother]
    by_cases hplain : 0x20 ≤ c.toNat ∧ c.toNat ≤ 0x7e
    · rw [if_pos hplain, if_pos hplain]
      have hquote : c.toNat ≠ 0x22 := fun heq => h1 (Char.ext (UInt32.toNat_inj.mp heq))
      have hslash : c.toNat ≠ 0x5c := fun heq => h2 (Char.ext (UInt32.toNat_inj.mp heq))
      exact scanUnits_plain hquote (by omega) hslash
    · rw [if_neg hplain, if_neg hplain]
      by_cases hbmp : c.toNat ≤ 0xffff
      · rw [if_pos hbmp, if_pos hbmp]
        exact scanUnits_unicodeEscape (by omega)
      · rw [if_neg hbmp, if_neg hbmp]
        have hmax : c.toNat < 0x110000 := by
          rcases c.valid with h | h
          · exact h.trans (by norm_num)
          · exact h.2
        rw [codes_append, List.append_assoc, scanUnits_unicodeEscape (by omega),
          scanUnits_unicodeEscape (by omega), Option.map_map]
        rfl

/-- A string is read up to its last quote. -/
theorem scanUnits_flatMap :
    scanUnits (codes (s.flatMap escapeChar) ++ 0x22 :: rest) = some (s.flatMap unitsOf, rest) := by
  induction s with
  | nil => exact scanUnits_quote
  | cons c s ih =>
    rw [List.flatMap_cons, codes_append, List.append_assoc, scanUnits_escapeChar, ih]
    rfl

/-- What is no high surrogate stands alone. -/
theorem joinEscapes_cons {u : ℕ × Bool} {units : List (ℕ × Bool)}
    (h : isHighSurrogate u.1 = false) : joinEscapes (u :: units) = u.1 :: joinEscapes units := by
  cases units with
  | nil => rfl
  | cons v units => simp [joinEscapes, h]

/-- The units of a character are joined to it again. -/
theorem joinEscapes_unitsOf {units : List (ℕ × Bool)} :
    joinEscapes (unitsOf c ++ units) = c.toNat :: joinEscapes units := by
  have hvalid : c.toNat < 0xd800 ∨ (0xdfff < c.toNat ∧ c.toNat < 0x110000) := c.valid
  have hself : isHighSurrogate c.toNat = false := by
    rw [isHighSurrogate, decide_eq_false_iff_not]
    omega
  unfold unitsOf
  split
  · exact joinEscapes_cons hself
  · split
    · exact joinEscapes_cons hself
    · split
      · exact joinEscapes_cons hself
      · rename_i hbig
        have hhigh : isHighSurrogate (0xd800 + (c.toNat - 0x10000) / 0x400) = true := by
          rw [isHighSurrogate, decide_eq_true_eq]
          omega
        have hlow : isLowSurrogate (0xdc00 + (c.toNat - 0x10000) % 0x400) = true := by
          rw [isLowSurrogate, decide_eq_true_eq]
          omega
        have hjoin : joinSurrogates (0xd800 + (c.toNat - 0x10000) / 0x400)
            (0xdc00 + (c.toNat - 0x10000) % 0x400) = c.toNat := by
          unfold joinSurrogates
          omega
        rw [List.cons_append, List.cons_append, List.nil_append, joinEscapes]
        simp only [hhigh, hlow, hjoin, Bool.and_self, if_true]

theorem joinEscapes_flatMap : joinEscapes (s.flatMap unitsOf) = codes s := by
  induction s with
  | nil => rfl
  | cons c s ih => rw [List.flatMap_cons, joinEscapes_unitsOf, ih, codes_cons]

/-- **A string is read back.** -/
theorem scanString_quoted (s : String) (rest : List ℕ) :
    codes (quoted s) ++ rest =
        0x22 :: (codes (s.toList.flatMap escapeChar) ++ 0x22 :: rest) ∧
      scanString (codes (s.toList.flatMap escapeChar) ++ 0x22 :: rest) =
        some (codes s.toList, rest) := by
  constructor
  · rw [quoted, codes_append, List.append_assoc]
    rfl
  · rw [scanString, scanUnits_flatMap, Option.map_some, joinEscapes_flatMap]

end Strings

/-! ### Numbers are read back -/

section Numbers

variable {c : Char} {n : ℕ} {rest : List ℕ}

/-- The text ends, or a comma or a bracket follows. -/
def Stops (rest : List ℕ) : Prop := ∀ c, rest.head? = some c → c = 0x2c ∨ c = 0x5d ∨ c = 0x7d

/-- The digits of a number. -/
theorem mem_toDigits (hc : c ∈ Nat.toDigits 10 n) : isDigit c.toNat = true := by
  induction n using Nat.strong_induction_on generalizing c with
  | _ n ih =>
    rw [Nat.toDigits_eq_if (by norm_num)] at hc
    have hdigit : ∀ d < 10, isDigit (Nat.digitChar d).toNat = true := by
      intro d hd
      interval_cases d <;> rfl
    split at hc
    · rename_i hlt
      rw [List.mem_singleton.mp hc]
      exact hdigit n hlt
    · rcases List.mem_append.mp hc with hc | hc
      · exact ih (n / 10) (by omega) hc
      · rw [List.mem_singleton.mp hc]
        exact hdigit (n % 10) (by omega)

/-- No zero stands before another digit. -/
theorem toDigits_cons (hn : 0 < n) : ∃ d ds, Nat.toDigits 10 n = d :: ds ∧ d.toNat ≠ 48 := by
  induction n using Nat.strong_induction_on with
  | _ n ih =>
    rw [Nat.toDigits_eq_if (by norm_num)]
    split
    · rename_i hlt
      refine ⟨n.digitChar, [], rfl, ?_⟩
      interval_cases n <;> decide
    · obtain ⟨d, ds, hds, hd⟩ := ih (n / 10) (by omega) (by omega)
      exact ⟨d, ds ++ [(n % 10).digitChar], by rw [hds]; rfl, hd⟩

theorem decimal_toDigits : decimal (codes (Nat.toDigits 10 n)) = n := by
  have hread := Nat.ofDigitChars_ten_toDigits (n := n)
  rw [Nat.ofDigitChars_eq_foldl] at hread
  rw [decimal, codes, List.foldl_map]
  exact hread

/-- Digits end where the text stops. -/
theorem takeWhile_digits (ds : List ℕ) (hds : ∀ d ∈ ds, isDigit d = true) (hstops : Stops rest) :
    (ds ++ rest).takeWhile isDigit = ds ∧ (ds ++ rest).dropWhile isDigit = rest := by
  have hrest : rest.takeWhile isDigit = [] ∧ rest.dropWhile isDigit = rest := by
    cases rest with
    | nil => exact ⟨rfl, rfl⟩
    | cons c rest =>
      have hc : isDigit c = false := by
        rcases hstops c rfl with rfl | rfl | rfl <;> rfl
      simp [hc]
  rw [List.takeWhile_append_of_pos hds, List.dropWhile_append_of_pos hds, hrest.1, hrest.2,
    List.append_nil]
  exact ⟨rfl, rfl⟩

theorem scanInteger_toDigits (hstops : Stops rest) :
    scanInteger (codes (Nat.toDigits 10 n) ++ rest) = some (codes (Nat.toDigits 10 n), rest) := by
  rcases Nat.eq_zero_or_pos n with rfl | hn
  · rfl
  · obtain ⟨d, ds, hds, hd⟩ := toDigits_cons hn
    have hall : ∀ c ∈ d :: ds, isDigit c.toNat = true := fun c hc => mem_toDigits (hds ▸ hc)
    obtain ⟨htake, hdrop⟩ := takeWhile_digits (codes ds) (by
      intro c hc
      obtain ⟨c', hc', rfl⟩ := List.mem_map.mp hc
      exact hall c' (List.mem_cons_of_mem _ hc')) hstops
    rw [hds, codes_cons, List.cons_append, scanInteger, if_neg hd, if_pos (hall d (by simp)), htake,
      hdrop]

/-- Behind the digits there is no fraction and no exponent. -/
theorem scanFraction_stops (hstops : Stops rest) :
    scanFraction rest = ([], rest) ∧ scanExponent rest = (none, rest) := by
  cases rest with
  | nil => exact ⟨rfl, rfl⟩
  | cons c rest =>
    have hc := hstops c rfl
    constructor
    · rw [scanFraction, if_neg (by omega)]
    · rw [scanExponent, if_neg (by omega)]

/-- The digits of an integer, behind its sign. -/
theorem toList_toString (z : ℤ) :
    (toString z).toList =
      (if z < 0 then ['-'] else []) ++ Nat.toDigits 10 z.natAbs := by
  cases z with
  | ofNat m =>
    have hnonneg : ¬ Int.ofNat m < 0 := Int.not_lt.mpr (Int.natCast_nonneg m)
    rw [if_neg hnonneg]
    show (Nat.repr m).toList = Nat.toDigits 10 m
    rw [Nat.toList_repr]
  | negSucc m =>
    rw [if_pos (Int.negSucc_lt_zero m)]
    show ("-" ++ Nat.repr (m + 1)).toList = '-' :: Nat.toDigits 10 (m + 1)
    rw [String.toList_append, Nat.toList_repr]
    rfl

/-- **An integer is read back.** -/
theorem scanNumber_int (z : ℤ) (hstops : Stops rest) :
    scanNumber (codes (toString z).toList ++ rest) = some (.int z, rest) := by
  have hinteger := scanInteger_toDigits (n := z.natAbs) hstops
  obtain ⟨hfraction, hexponent⟩ := scanFraction_stops hstops
  have habs := decimal_toDigits (n := z.natAbs)
  rw [toList_toString]
  by_cases hz : z < 0
  · rw [if_pos hz]
    have hsign : scanSign (codes (['-'] ++ Nat.toDigits 10 z.natAbs) ++ rest) =
        (true, codes (Nat.toDigits 10 z.natAbs) ++ rest) := rfl
    rw [scanNumber, hsign]
    simp only [if_true, hinteger, Option.map_some, hfraction, hexponent, and_self, habs]
    have hneg : -(z.natAbs : ℤ) = z := by omega
    rw [hneg]
  · rw [if_neg hz, List.nil_append]
    have hsign : scanSign (codes (Nat.toDigits 10 z.natAbs) ++ rest) =
        (false, codes (Nat.toDigits 10 z.natAbs) ++ rest) := by
      obtain ⟨d, ds, hds⟩ :=
        List.exists_cons_of_ne_nil (Nat.toDigits_ne_nil (n := z.natAbs) (b := 10))
      have hd : isDigit d.toNat = true := mem_toDigits (hds ▸ List.mem_cons_self)
      rw [isDigit, decide_eq_true_eq] at hd
      rw [hds, codes_cons, List.cons_append, scanSign, if_neg (by omega), if_neg (by omega)]
    rw [scanNumber, hsign]
    simp only [Bool.false_eq_true, if_false, hinteger, Option.map_some, hfraction, hexponent,
      and_self, if_true, habs]
    have hpos : (z.natAbs : ℤ) = z := by omega
    rw [hpos]

end Numbers

/-! ### Values are read back -/

section Values

variable {frames : ℕ} {rest : List ℕ}

/-- A text is read as a value, in front of a comma or of a bracket. -/
structure Reads (frames : ℕ) (text : List Char) (v : JsonValue) : Prop where
  start : ∃ c cs, text = c :: cs ∧ isSpace c.toNat = false
  scan : ∀ rest, Stops rest → scanOnce frames (codes text ++ rest) = .ok (v, rest)

theorem scanOnce_quote {cs : List ℕ} {r : List ℕ × List ℕ} (hscan : scanString cs = some r) :
    scanOnce frames (0x22 :: cs) = .ok (.str r.1, r.2) := by
  rw [scanOnce.eq_def]
  dsimp only
  rw [if_pos rfl, hscan]

theorem scanOnce_brace {cs : List ℕ} : scanOnce (frames + 1) (0x7b :: cs) =
    (bracketed 0x7d (member (scanOnce frames)) cs).map fun r =>
      (.obj (Dict.build some r.1), r.2) := by
  rw [scanOnce.eq_def]
  dsimp only
  rw [if_neg (by norm_num), if_pos rfl]

theorem scanOnce_plain {c : ℕ} {cs : List ℕ} (hquote : c ≠ 0x22) (hbrace : c ≠ 0x7b)
    (hbracket : c ≠ 0x5b) : scanOnce frames (c :: cs) = scanPlain (c :: cs) := by
  rw [scanOnce.eq_def]
  dsimp only
  rw [if_neg hquote, if_neg hbrace, if_neg hbracket]

theorem reads_quoted (s : String) : Reads frames (quoted s) (.str (codes s.toList)) where
  start := ⟨'\x22', s.toList.flatMap escapeChar ++ ['\x22'], rfl, rfl⟩
  scan := by
    intro rest _
    obtain ⟨htext, hscan⟩ := scanString_quoted s rest
    rw [htext, scanOnce_quote hscan]

/-- An integer is no constant. -/
theorem scanPlain_int (z : ℤ) (hstops : Stops rest) :
    scanPlain (codes (toString z).toList ++ rest) = .ok (.int z, rest) := by
  have hfind : constants.find? (fun p => (codes p.1).isPrefixOf (codes (toString z).toList ++ rest))
      = none := by
    obtain ⟨d, ds, hds⟩ :=
      List.exists_cons_of_ne_nil (Nat.toDigits_ne_nil (n := z.natAbs) (b := 10))
    have hd : isDigit d.toNat = true := mem_toDigits (hds ▸ List.mem_cons_self)
    rw [isDigit, decide_eq_true_eq] at hd
    rw [List.find?_eq_none]
    intro p hp
    rw [toList_toString, hds]
    simp only [constants, List.mem_cons, List.not_mem_nil, or_false] at hp
    rcases hp with rfl | rfl | rfl | rfl | rfl | rfl <;> split <;>
      simp [codes, List.isPrefixOf] <;> omega
  rw [scanPlain, hfind, scanNumber_int z hstops]

/-- It begins with a dash or with a digit. -/
theorem toString_cons (z : ℤ) : ∃ c cs, (toString z).toList = c :: cs ∧
    (c.toNat = 45 ∨ 48 ≤ c.toNat ∧ c.toNat ≤ 57) := by
  rw [toList_toString]
  split
  · exact ⟨'-', Nat.toDigits 10 z.natAbs, rfl, Or.inl rfl⟩
  · obtain ⟨d, ds, hds⟩ :=
      List.exists_cons_of_ne_nil (Nat.toDigits_ne_nil (n := z.natAbs) (b := 10))
    have hd : isDigit d.toNat = true := mem_toDigits (hds ▸ List.mem_cons_self)
    rw [isDigit, decide_eq_true_eq] at hd
    exact ⟨d, ds, hds, Or.inr hd⟩

theorem reads_int (z : ℤ) : Reads frames (toString z).toList (.int z) where
  start := by
    obtain ⟨c, cs, hcs, hc⟩ := toString_cons z
    refine ⟨c, cs, hcs, ?_⟩
    simp only [isSpace, Bool.or_eq_false_iff, beq_eq_false_iff_ne]
    omega
  scan := by
    intro rest hstops
    have hplain := scanPlain_int z hstops
    obtain ⟨c, cs, hcs, hc⟩ := toString_cons z
    rw [hcs, codes_cons, List.cons_append] at hplain ⊢
    rw [scanOnce_plain (by omega) (by omega) (by omega), hplain]

end Values

/-! ### Objects are read back -/

section Objects

variable {α : Type} {close : ℕ} {item : List ℕ → Except LoadsError (α × List ℕ)} {frames : ℕ}
  {rest : List ℕ} {k : String} {text : List Char} {v : JsonValue}

theorem skipSpace_cons {c : ℕ} {cs : List ℕ} (hc : isSpace c = false) :
    skipSpace (c :: cs) = c :: cs := List.dropWhile_cons_of_neg (by simp [hc])

/-- The last item. -/
theorem elements_close {a : α} {fuel : ℕ} {text : List ℕ} (hspace : isSpace close = false)
    (hitem : item text = .ok (a, close :: rest)) :
    elements close item (fuel + 1) text = .ok ([a], rest) := by
  simp only [elements, hitem, Except.bind, skipSpace_cons hspace, if_true]

/-- An item that another one follows. -/
theorem elements_comma {a : α} {fuel c : ℕ} {text : List ℕ} (hclose : close ≠ 0x2c)
    (hspace : isSpace c = false) (hitem : item text = .ok (a, 0x2c :: c :: rest)) :
    elements close item (fuel + 1) text =
      (elements close item fuel (c :: rest)).map fun more => (a :: more.1, more.2) := by
  have hcomma : skipSpace (0x2c :: c :: rest) = 0x2c :: c :: rest := skipSpace_cons rfl
  simp only [elements, hitem, Except.bind, hcomma, skipSpace_cons hspace, if_neg hclose.symm,
    if_true]

/-- The first character of parts that are joined. -/
theorem codes_intercalate_cons {q : List Char × α} {c : Char} {cs : List Char} (rest : List ℕ)
    (hq : q.1 = c :: cs) (parts : List (List Char × α)) :
    ∃ tail, codes (List.intercalate [','] ((q :: parts).map Prod.fst)) ++ rest =
      c.toNat :: tail := by
  obtain ⟨tail, htail⟩ := intercalate_cons [','] q.1 (parts.map Prod.fst)
  refine ⟨codes (cs ++ tail) ++ rest, ?_⟩
  rw [List.map_cons, htail, hq, List.cons_append, codes_cons, List.cons_append]

/-- **The loop reads** what is joined by commas, part by part. -/
theorem elements_intercalate {p : List Char × α} {parts : List (List Char × α)} {fuel : ℕ}
    (hclose : close ≠ 0x2c) (hspace : isSpace close = false)
    (hstart : ∀ q ∈ p :: parts, ∃ c cs, q.1 = c :: cs ∧ isSpace c.toNat = false)
    (hread : ∀ q ∈ p :: parts, ∀ rest, rest.head? = some 0x2c ∨ rest.head? = some close →
      item (codes q.1 ++ rest) = .ok (q.2, rest))
    (hfuel : parts.length < fuel) :
    elements close item fuel
        (codes (List.intercalate [','] ((p :: parts).map Prod.fst)) ++ close :: rest) =
      .ok ((p :: parts).map Prod.snd, rest) := by
  induction parts generalizing p fuel with
  | nil =>
    obtain ⟨fuel, rfl⟩ := Nat.exists_eq_succ_of_ne_zero (Nat.ne_zero_of_lt hfuel)
    have hp := hread p (by simp) (close :: rest) (Or.inr rfl)
    have htext : List.intercalate [','] ([p].map Prod.fst) = p.1 := by simp [List.intercalate]
    rw [htext]
    exact elements_close hspace hp
  | cons q parts ih =>
    obtain ⟨fuel, rfl⟩ := Nat.exists_eq_succ_of_ne_zero (Nat.ne_zero_of_lt hfuel)
    have hmore := ih (p := q) (fun x hx => hstart x (List.mem_cons_of_mem _ hx))
      (fun x hx => hread x (List.mem_cons_of_mem _ hx)) (by simpa using hfuel)
    obtain ⟨c, cs, hq, hc⟩ := hstart q (by simp)
    have htext : codes (List.intercalate [','] ((p :: q :: parts).map Prod.fst)) ++ close :: rest =
        codes p.1 ++ 0x2c ::
          (codes (List.intercalate [','] ((q :: parts).map Prod.fst)) ++ close :: rest) := by
      simp only [List.intercalate, List.map_cons, List.intersperse_cons_cons, List.flatten_cons,
        codes_append, List.append_assoc]
      rfl
    -- what follows the comma begins with the next part
    obtain ⟨tail, htail⟩ := codes_intercalate_cons (close :: rest) hq parts
    have hp := hread p (by simp) (0x2c :: c.toNat :: tail) (Or.inl rfl)
    rw [htail] at hmore htext
    rw [htext, elements_comma hclose hc hp, hmore]
    rfl

/-- **What is between brackets is read back**, part by part. -/
theorem bracketed_intercalate {parts : List (List Char × α)} (hitem : Consumes item)
    (hclose : close ≠ 0x2c) (hspace : isSpace close = false)
    (hstart : ∀ q ∈ parts, ∃ c cs, q.1 = c :: cs ∧ isSpace c.toNat = false ∧ c.toNat ≠ close)
    (hread : ∀ q ∈ parts, ∀ rest, rest.head? = some 0x2c ∨ rest.head? = some close →
      item (codes q.1 ++ rest) = .ok (q.2, rest)) :
    bracketed close item (codes (List.intercalate [','] (parts.map Prod.fst)) ++ close :: rest) =
      .ok (parts.map Prod.snd, rest) := by
  cases parts with
  | nil =>
    show bracketed close item (close :: rest) = _
    rw [bracketed, skipSpace_cons hspace]
    exact if_pos rfl
  | cons p parts =>
    obtain ⟨c, cs, hp, hc, hother⟩ := hstart p List.mem_cons_self
    obtain ⟨tail, htail⟩ := codes_intercalate_cons (close :: rest) hp parts
    have hstart' : ∀ q ∈ p :: parts, ∃ c cs, q.1 = c :: cs ∧ isSpace c.toNat = false := by
      intro q hq
      obtain ⟨c, cs, hq, hc, -⟩ := hstart q hq
      exact ⟨c, cs, hq, hc⟩
    -- the length of the text is fuel enough, so that a turn more for every part changes nothing
    have hfuel : elements close item (c.toNat :: tail).length (c.toNat :: tail) =
        elements close item ((c.toNat :: tail).length + parts.length) (c.toNat :: tail) :=
      elements_fuel hitem (by simp) le_rfl (by simp) (Nat.le_add_right _ _)
    have hmany : parts.length < (c.toNat :: tail).length + parts.length := by simp
    rw [bracketed, htail, skipSpace_cons hc]
    dsimp only
    rw [if_neg hother, hfuel]
    rw [← htail] at hmany ⊢
    exact elements_intercalate hclose hspace hstart' hread hmany

/-- A key and its value are read. -/
theorem member_quoted (hv : Reads frames text v) (hstops : Stops rest) :
    member (scanOnce frames) (codes (quoted k ++ [':'] ++ text) ++ rest) =
      .ok ((codes k.toList, v), rest) := by
  obtain ⟨htext, hscan⟩ := scanString_quoted k (0x3a :: (codes text ++ rest))
  obtain ⟨c, cs, hc, hspace⟩ := hv.start
  have hvalue := hv.scan rest hstops
  have hsplit : codes (quoted k ++ [':'] ++ text) ++ rest =
      codes (quoted k) ++ 0x3a :: (codes text ++ rest) := by
    simp only [codes_append, List.append_assoc]
    rfl
  rw [hc, codes_cons, List.cons_append] at hvalue
  rw [hsplit, htext, member, if_neg (by norm_num), hscan]
  dsimp only
  rw [skipSpace_cons rfl]
  dsimp only
  rw [if_neg (by norm_num), hc, codes_cons, List.cons_append, skipSpace_cons hspace, hvalue]
  rfl

/-- The members of an object, each as its text and what it is read as. -/
def members (fields : List (String × List Char × JsonValue)) :
    List (List Char × (List ℕ × JsonValue)) :=
  fields.map fun f => (quoted f.1 ++ [':'] ++ f.2.1, (codes f.1.toList, f.2.2))

/-- **An object is read back**, member by member. -/
theorem reads_object {fields : List (String × List Char × JsonValue)}
    (hfields : ∀ f ∈ fields, Reads frames f.2.1 f.2.2) :
    Reads (frames + 1)
      ('\x7b' :: List.intercalate [','] (fields.map fun f => quoted f.1 ++ [':'] ++ f.2.1)
        ++ ['\x7d'])
      (.obj (Dict.build some (fields.map fun f => (codes f.1.toList, f.2.2)))) where
  start := ⟨'\x7b', _, rfl, rfl⟩
  scan := by
    intro rest _
    have htexts : fields.map (fun f => quoted f.1 ++ [':'] ++ f.2.1) =
        (members fields).map Prod.fst := by
      rw [members, List.map_map]
      rfl
    have hvalues : fields.map (fun f => (codes f.1.toList, f.2.2)) =
        (members fields).map Prod.snd := by
      rw [members, List.map_map]
      rfl
    have hstart : ∀ q ∈ members fields,
        ∃ c cs, q.1 = c :: cs ∧ isSpace c.toNat = false ∧ c.toNat ≠ 0x7d := by
      intro q hq
      obtain ⟨g, _, rfl⟩ := List.mem_map.mp hq
      exact ⟨'\x22', _, rfl, rfl, by decide⟩
    have hread : ∀ q ∈ members fields, ∀ rest,
        rest.head? = some 0x2c ∨ rest.head? = some 0x7d →
          member (scanOnce frames) (codes q.1 ++ rest) = .ok (q.2, rest) := by
      intro q hq rest hrest
      obtain ⟨g, hg, rfl⟩ := List.mem_map.mp hq
      refine member_quoted (hfields g hg) fun c hc => ?_
      rcases hrest with h | h
      · exact Or.inl (Option.some.inj (hc.symm.trans h))
      · exact Or.inr (Or.inr (Option.some.inj (hc.symm.trans h)))
    have hloop : bracketed 0x7d (member (scanOnce frames))
        (codes (List.intercalate [','] ((members fields).map Prod.fst)) ++ 0x7d :: rest) =
          .ok ((members fields).map Prod.snd, rest) :=
      bracketed_intercalate (member_consumes scanOnce_consumes) (by norm_num) rfl hstart hread
    rw [htexts, hvalues]
    show scanOnce (frames + 1) (0x7b :: (codes (List.intercalate [','] _ ++ ['\x7d']) ++ rest)) = _
    rw [scanOnce_brace, codes_append, List.append_assoc]
    show (bracketed 0x7d (member (scanOnce frames)) (codes _ ++ 0x7d :: rest)).map _ = _
    rw [hloop]
    rfl

/-- **A text in ASCII is loaded** as what it is read as. -/
theorem loads_codes (hv : Reads frames text v)
    (hascii : ∀ c ∈ text, 0 < c.toNat ∧ c.toNat < 0x80) : loads frames (codes text) = .ok v := by
  have hdecode : PyBytes.decodeText (codes text) = some (codes text) := by
    refine PyBytes.decodeText_ascii fun b hb => ?_
    obtain ⟨c, hc, rfl⟩ := List.mem_map.mp hb
    exact hascii c hc
  have hscan := hv.scan [] (fun c hc => by cases hc)
  obtain ⟨c, cs, rfl, hc⟩ := hv.start
  rw [List.append_nil, codes_cons] at hscan
  rw [loads, hdecode]
  dsimp only
  rw [codes_cons, skipSpace_cons hc, hscan]
  rfl

theorem ascii_unicodeEscape {n : ℕ} {c : Char} (hn : n < 0x10000) (hc : c ∈ unicodeEscape n) :
    0 < c.toNat ∧ c.toNat < 0x80 := by
  rcases List.mem_cons.mp hc with rfl | hc
  · decide
  · rcases List.mem_cons.mp hc with rfl | hc
    · decide
    · obtain ⟨d, hd, rfl⟩ := mem_hexPadded (by norm_num) (by norm_num; omega) hc
      interval_cases d <;> decide

theorem ascii_escapeChar {x c : Char} (hc : c ∈ escapeChar x) :
    0 < c.toNat ∧ c.toNat < 0x80 := by
  have hmax : x.toNat < 0x110000 := by
    rcases x.valid with h | h
    · exact h.trans (by norm_num)
    · exact h.2
  by_cases hsimple : x ∈ ['\x22', '\x5c', '\n', '\r', '\t', '\x0c', '\x08']
  · simp only [List.mem_cons, List.not_mem_nil, or_false] at hsimple
    have hboth : (escapeChar x).all (fun e => decide (0 < e.toNat ∧ e.toNat < 0x80)) := by
      rcases hsimple with rfl | rfl | rfl | rfl | rfl | rfl | rfl <;> decide
    exact of_decide_eq_true (List.all_eq_true.mp hboth c hc)
  · simp only [List.mem_cons, List.not_mem_nil, or_false, not_or] at hsimple
    obtain ⟨h1, h2, h3, h4, h5, h6, h7⟩ := hsimple
    rw [escapeChar, if_neg h1, if_neg h2, if_neg h3, if_neg h4, if_neg h5, if_neg h6,
      if_neg h7] at hc
    split at hc
    · rw [List.mem_singleton.mp hc]
      omega
    · split at hc
      · exact ascii_unicodeEscape (by omega) hc
      · rcases List.mem_append.mp hc with hc | hc
        · exact ascii_unicodeEscape (by omega) hc
        · exact ascii_unicodeEscape (by omega) hc

/-- What `json.dumps` writes of a string is in ASCII. -/
theorem ascii_quoted {c : Char} (hc : c ∈ quoted k) : 0 < c.toNat ∧ c.toNat < 0x80 := by
  rcases List.mem_append.mp hc with hc | hc
  · rcases List.mem_cons.mp hc with rfl | hc
    · decide
    · obtain ⟨x, _, hx⟩ := List.mem_flatMap.mp hc
      exact ascii_escapeChar hx
  · rw [List.mem_singleton.mp hc]
    decide

end Objects

end JsonLoads

end Msai.Lib
