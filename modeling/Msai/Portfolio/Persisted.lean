import Mathlib.Data.List.TakeWhile
import Mathlib.Tactic.NormNum
import Mathlib.Tactic.Ring
import Msai.Portfolio.Identity

namespace Msai.Portfolio

open Msai.Lib

/-!
# The composition hash of stored members (`services/live/portfolio_composition.py`)

`compute_composition_hash` rounds a weight half to even; the column `Numeric(8, 6)`, into which it
is flushed, half away from zero.

* `readWeight` — a weight as the column gives it back;
* `AsMember`, `Rearranged` — the members in another order, the keys of their configurations too,
  with their weights as they are (`some`) or as they are read back (`readWeight`);
* `TiesToEven`, `NegativeZero` — the weights that change their text on the way;
* `formatF_normalize_inj` — a weight of six places is determined by its text;
* `canonicalText_eq_iff` — the hashed texts are equal if the weights have equal texts;
* `composition_hash_survives_iff` — the hash survives exactly if no weight is one of these.
-/

/-! ### Through the database -/

namespace Decimal

/-- A weight as `Numeric(8, 6)` gives it back, if it fits.  The column knows no negative zero. -/
def readWeight (d : Decimal) : Option Decimal :=
  let r := numericColumn d
  if r.coefficient < 10 ^ 8 then
    some { r with negative := d.negative && decide (r.coefficient ≠ 0) }
  else none

/-- The places behind the sixth. -/
def extraPlaces (d : Decimal) : ℕ := (-6 - d.exponent).toNat

/-- Exactly half of the sixth place is left over, and the sixth digit is even. -/
def TiesToEven (d : Decimal) : Prop :=
  d.exponent < -6 ∧ 2 * (d.coefficient % 10 ^ d.extraPlaces) = 10 ^ d.extraPlaces ∧
    d.coefficient / 10 ^ d.extraPlaces % 2 = 0

/-- A negative number less than half of the sixth place away from zero. -/
def NegativeZero (d : Decimal) : Prop :=
  d.negative = true ∧
    (d.coefficient = 0 ∨ d.exponent < -6 ∧ 2 * d.coefficient < 10 ^ d.extraPlaces)

instance (d : Decimal) : Decidable d.TiesToEven := inferInstanceAs (Decidable (_ ∧ _))

instance (d : Decimal) : Decidable d.NegativeZero := inferInstanceAs (Decidable (_ ∧ _))

end Decimal

/-- The row, its configuration with the keys in another order, and its weight as given. -/
structure AsMember (weight : Decimal → Option Decimal) (row row' : Member Uuid JsonObject) :
    Prop where
  strategyId : row'.strategyId = row.strategyId
  config : Reordered (.obj row.config) (.obj row'.config)
  instruments : row'.instruments = row.instruments
  weight : weight row.weight = some row'.weight
  orderIndex : row'.orderIndex = row.orderIndex

/-- The members in another order, each as `AsMember` says. -/
def Rearranged (weight : Decimal → Option Decimal)
    (members members' : List (Member Uuid JsonObject)) : Prop :=
  ∃ rows, List.Forall₂ (AsMember weight) members rows ∧ members'.Perm rows

/-! ### The two roundings -/

namespace Decimal

variable {d r : Decimal}

/-- Half away from zero. -/
theorem half_up (c k : ℕ) : (2 * c + 10 ^ k) / (2 * 10 ^ k) =
    if 2 * (c % 10 ^ k) < 10 ^ k then c / 10 ^ k else c / 10 ^ k + 1 := by
  have hpos : 0 < 10 ^ k := Nat.pow_pos (by norm_num)
  have hsplit : 10 ^ k * (c / 10 ^ k) + c % 10 ^ k = c := Nat.div_add_mod c (10 ^ k)
  have hrest : c % 10 ^ k < 10 ^ k := Nat.mod_lt _ hpos
  generalize c / 10 ^ k = q at *
  generalize c % 10 ^ k = m at *
  generalize 10 ^ k = p at *
  have hsum : 2 * c + p = 2 * p * q + (2 * m + p) := by
    rw [← hsplit]
    ring
  rw [hsum, Nat.mul_add_div (by omega)]
  split
  · rw [Nat.div_eq_of_lt (by omega), Nat.add_zero]
  · rw [Nat.div_eq_of_lt_le (k := 1) (by omega) (by omega)]

/-- **The two roundings** part on a tie to an even digit. -/
theorem divHalfEven_eq_iff (c k : ℕ) : divHalfEven c k = (2 * c + 10 ^ k) / (2 * 10 ^ k) ↔
    ¬ (2 * (c % 10 ^ k) = 10 ^ k ∧ c / 10 ^ k % 2 = 0) := by
  rw [half_up, divHalfEven]
  generalize c / 10 ^ k = q
  generalize c % 10 ^ k = m
  generalize 10 ^ k = p
  split
  · simp
    omega
  · split
    · simp
      omega
    · split <;> simp <;> omega

theorem quantizeWeight_coefficient :
    d.quantizeWeight.coefficient = (numericColumn d).coefficient ↔ ¬ d.TiesToEven := by
  simp only [quantizeWeight, numericColumn, TiesToEven, extraPlaces]
  by_cases hplaces : -6 ≤ d.exponent
  · simp only [if_pos hplaces, true_iff]
    omega
  · simp only [if_neg hplaces]
    rw [divHalfEven_eq_iff]
    simp only [not_le.mp hplaces, true_and]

/-- What the column keeps is zero. -/
theorem numericColumn_eq_zero : (numericColumn d).coefficient = 0 ↔
    d.coefficient = 0 ∨ d.exponent < -6 ∧ 2 * d.coefficient < 10 ^ d.extraPlaces := by
  simp only [numericColumn, extraPlaces]
  have hpos : ∀ k, 0 < 10 ^ k := fun k => Nat.pow_pos (by norm_num)
  by_cases hplaces : -6 ≤ d.exponent
  · simp only [if_pos hplaces, not_lt.mpr hplaces, false_and, or_false, Nat.mul_eq_zero,
      (hpos _).ne']
  · have hlt := not_le.mp hplaces
    simp only [if_neg hplaces, hlt, true_and]
    have hp := hpos (-6 - d.exponent).toNat
    rw [Nat.div_eq_zero_iff]
    constructor
    · rintro (hzero | hsmall)
      · omega
      · exact Or.inr (by omega)
    · rintro (hzero | hsmall)
      · exact Or.inr (by omega)
      · exact Or.inr (by omega)

/-- **What is hashed is what is read back** but for ties and negative zeros. -/
theorem quantizeWeight_eq_iff (hread : d.readWeight = some r) :
    d.quantizeWeight = r ↔ ¬ d.TiesToEven ∧ ¬ d.NegativeZero := by
  simp only [readWeight] at hread
  split at hread
  · obtain rfl := Option.some.inj hread
    rw [← quantizeWeight_coefficient, NegativeZero, ← numericColumn_eq_zero]
    constructor
    · intro heq
      have hcoefficient := congrArg coefficient heq
      have hnegative : d.negative = (d.negative && decide ((numericColumn d).coefficient ≠ 0)) :=
        congrArg negative heq
      refine ⟨hcoefficient, fun ⟨htrue, hzero⟩ => ?_⟩
      rw [htrue, hzero] at hnegative
      cases hnegative
    · rintro ⟨hcoefficient, hzero⟩
      have hnegative : d.negative = (d.negative && decide ((numericColumn d).coefficient ≠ 0)) := by
        cases hd : d.negative with
        | false => rfl
        | true =>
          have hne : (numericColumn d).coefficient ≠ 0 := fun h => hzero ⟨hd, h⟩
          rw [decide_eq_true hne]
          rfl
      rw [← hnegative, ← hcoefficient]
      rfl
  · cases hread

/-! ### The text of a weight -/

/-- The digits of `format(d, "f")`, without the sign. -/
def formatBody (c : ℕ) (e : ℤ) : List Char :=
  let digits := (toString c).toList
  if 0 ≤ e then digits ++ List.replicate e.toNat '0'
  else
    let scale := (-e).toNat
    let padded := List.replicate (scale + 1 - digits.length) '0' ++ digits
    padded.take (padded.length - scale) ++ '.' :: padded.drop (padded.length - scale)

theorem formatF_eq : d.formatF = String.ofList
    (if d.negative then '-' :: formatBody d.coefficient d.exponent
      else formatBody d.coefficient d.exponent) := rfl

/-- Six places of a text of digits, read as a number. -/
def micros (body : List Char) : ℕ :=
  let fraction := (body.dropWhile (· ≠ '.')).drop 1
  Nat.ofDigitChars 10 (body.takeWhile (· ≠ '.') ++ fraction) 0 * 10 ^ (6 - fraction.length)

theorem isDigit_toString {c : ℕ} {x : Char} (hx : x ∈ (toString c).toList) : x.isDigit = true := by
  rw [Nat.toString_eq_ofList_toDigits, String.toList_ofList] at hx
  exact Nat.isDigit_of_mem_toDigits (by norm_num) (by norm_num) hx

theorem ofDigitChars_toString {c : ℕ} : Nat.ofDigitChars 10 (toString c).toList 0 = c := by
  rw [Nat.toString_eq_ofList_toDigits, String.toList_ofList, Nat.ofDigitChars_ten_toDigits]

/-- The digits with zeros in front of them. -/
theorem isDigit_padded {k c : ℕ} {x : Char}
    (hx : x ∈ List.replicate k '0' ++ (toString c).toList) : x.isDigit = true := by
  rcases List.mem_append.mp hx with hx | hx
  · rw [List.eq_of_mem_replicate hx]
    rfl
  · exact isDigit_toString hx

theorem ne_point {ds : List Char} (hds : ∀ x ∈ ds, x.isDigit = true) :
    ∀ x ∈ ds, decide (x ≠ '.') = true := by
  intro x hx
  refine decide_eq_true fun heq => ?_
  have hdigit := hds x hx
  rw [heq] at hdigit
  cases hdigit

/-- A text of digits with a point in it. -/
theorem micros_point {ds fs : List Char} (hds : ∀ x ∈ ds, x.isDigit = true) :
    micros (ds ++ '.' :: fs) = Nat.ofDigitChars 10 (ds ++ fs) 0 * 10 ^ (6 - fs.length) := by
  have hne := ne_point hds
  rw [micros, List.takeWhile_append_of_pos hne, List.dropWhile_append_of_pos hne]
  simp

/-- A text of digits alone. -/
theorem micros_digits {ds : List Char} (hds : ∀ x ∈ ds, x.isDigit = true) :
    micros ds = Nat.ofDigitChars 10 ds 0 * 10 ^ 6 := by
  have hne := ne_point hds
  rw [micros, List.takeWhile_eq_self_iff.mpr hne, List.dropWhile_eq_nil_iff.mpr hne]
  simp

/-- **The text says the number.** -/
theorem micros_formatBody {c : ℕ} {e : ℤ} (he : -6 ≤ e) :
    micros (formatBody c e) = c * 10 ^ (e + 6).toNat := by
  simp only [formatBody]
  split
  · rename_i hnonneg
    have hdigits : ∀ x ∈ (toString c).toList ++ List.replicate e.toNat '0', x.isDigit = true := by
      intro x hx
      rcases List.mem_append.mp hx with hx | hx
      · exact isDigit_toString hx
      · rw [List.eq_of_mem_replicate hx]
        rfl
    have hplaces : (e + 6).toNat = e.toNat + 6 := by omega
    rw [micros_digits hdigits, Nat.ofDigitChars_append, Nat.ofDigitChars_replicate_zero,
      ofDigitChars_toString, hplaces]
    ring
  · rename_i hneg
    generalize hpadded : List.replicate ((-e).toNat + 1 - (toString c).toList.length) '0' ++
      (toString c).toList = padded
    have hdigits : ∀ x ∈ padded, x.isDigit = true := by
      intro x hx
      rw [← hpadded] at hx
      exact isDigit_padded hx
    have hlength : (-e).toNat + 1 ≤ padded.length := by
      rw [← hpadded, List.length_append, List.length_replicate]
      omega
    have hvalue : Nat.ofDigitChars 10 padded 0 = c := by
      rw [← hpadded, Nat.ofDigitChars_append, Nat.ofDigitChars_replicate_zero, Nat.mul_zero,
        ofDigitChars_toString]
    rw [micros_point fun x hx => hdigits x (List.mem_of_mem_take hx), List.take_append_drop, hvalue,
      List.length_drop]
    have hplaces : 6 - (padded.length - (padded.length - (-e).toNat)) = (e + 6).toNat := by omega
    rw [hplaces]

/-- The text has digits and a point. -/
theorem mem_formatBody {c : ℕ} {e : ℤ} {x : Char} (hx : x ∈ formatBody c e) :
    x.isDigit = true ∨ x = '.' := by
  simp only [formatBody] at hx
  split at hx
  · left
    rcases List.mem_append.mp hx with hx | hx
    · exact isDigit_toString hx
    · rw [List.eq_of_mem_replicate hx]
      rfl
  · rcases List.mem_append.mp hx with hx | hx
    · exact Or.inl (isDigit_padded (List.mem_of_mem_take hx))
    · rcases List.mem_cons.mp hx with rfl | hx
      · exact Or.inr rfl
      · exact Or.inl (isDigit_padded (List.mem_of_mem_drop hx))

/-- Zeros that are taken off stand in the exponent. -/
theorem stripZeros_spec (fuel c : ℕ) (e : ℤ) : ∃ n : ℕ,
    (stripZeros fuel c e).2 = e + n ∧ (stripZeros fuel c e).1 * 10 ^ n = c := by
  induction fuel generalizing c e with
  | zero => exact ⟨0, by simp [stripZeros], by simp [stripZeros]⟩
  | succ fuel ih =>
    rw [stripZeros]
    split
    · rename_i hzero
      obtain ⟨n, hexponent, hcoefficient⟩ := ih (c / 10) (e + 1)
      refine ⟨n + 1, ?_, ?_⟩
      · rw [hexponent]
        push_cast
        ring
      · rw [pow_succ, ← Nat.mul_assoc, hcoefficient]
        omega
    · exact ⟨0, by simp, by simp⟩

/-- What `normalize` keeps of a number of six places. -/
theorem normalize_spec (hexponent : d.exponent = -6) : d.normalize.negative = d.negative ∧
    -6 ≤ d.normalize.exponent ∧
    d.normalize.coefficient * 10 ^ (d.normalize.exponent + 6).toNat = d.coefficient := by
  rw [normalize]
  split
  · rename_i hzero
    refine ⟨rfl, by norm_num, ?_⟩
    rw [hzero, Nat.zero_mul]
  · obtain ⟨n, hn, hcoefficient⟩ :=
      stripZeros_spec (d.coefficient.log2 + 1) d.coefficient d.exponent
    have hplaces : (d.exponent + n + 6).toNat = n := by omega
    refine ⟨rfl, ?_, ?_⟩
    · dsimp only
      omega
    · dsimp only
      rw [hn, hplaces, hcoefficient]

/-- **A weight is determined by its text.** -/
theorem formatF_normalize_inj (hd : d.exponent = -6) (hr : r.exponent = -6) :
    d.normalize.formatF = r.normalize.formatF ↔ d = r := by
  refine ⟨fun heq => ?_, fun heq => heq ▸ rfl⟩
  obtain ⟨hdneg, hdplaces, hdvalue⟩ := normalize_spec hd
  obtain ⟨hrneg, hrplaces, hrvalue⟩ := normalize_spec hr
  have hsign : ∀ {c : ℕ} {e : ℤ} {t : List Char}, formatBody c e ≠ '-' :: t := by
    intro c e t ht
    have hmem : '-' ∈ formatBody c e := ht ▸ List.mem_cons_self
    rcases mem_formatBody hmem with h | h <;> cases h
  rw [formatF_eq, formatF_eq, String.ofList_inj, hdneg, hrneg] at heq
  have hbody : d.negative = r.negative ∧
      formatBody d.normalize.coefficient d.normalize.exponent =
        formatBody r.normalize.coefficient r.normalize.exponent := by
    cases hn : d.negative <;> cases hn' : r.negative <;> rw [hn, hn'] at heq
    · exact ⟨rfl, heq⟩
    · exact absurd heq hsign
    · exact absurd heq.symm hsign
    · exact ⟨rfl, (List.cons.inj heq).2⟩
  have hvalue := congrArg micros hbody.2
  rw [micros_formatBody hdplaces, micros_formatBody hrplaces, hdvalue, hrvalue] at hvalue
  cases d
  cases r
  simp only at hd hr hbody hvalue
  rw [hd, hr, hbody.1, hvalue]

/-- The characters of a weight. -/
theorem mem_formatF {x : Char} (hx : x ∈ d.formatF.toList) :
    x.isDigit = true ∨ x = '.' ∨ x = '-' := by
  rw [formatF_eq, String.toList_ofList] at hx
  split at hx
  · rcases List.mem_cons.mp hx with rfl | hx
    · exact Or.inr (Or.inr rfl)
    · exact (mem_formatBody hx).imp_right Or.inl
  · exact (mem_formatBody hx).imp_right Or.inl

end Decimal

/-! ### The text of the members -/

section Texts

variable {m m' : CanonicalMember JsonObject} {l l' : List (CanonicalMember JsonObject)}

/-- The weight is written as `format` writes it. -/
def PlainWeight (m : CanonicalMember JsonObject) : Prop :=
  ∃ d : Decimal, m.weight = d.formatF

/-- No character of a weight is escaped. -/
theorem quoted_weight (hm : PlainWeight m) :
    quoted m.weight = '\x22' :: m.weight.toList ++ ['\x22'] := by
  obtain ⟨d, hd⟩ := hm
  have hplain : ∀ x ∈ m.weight.toList, escapeChar x = [x] := by
    intro x hx
    rw [hd] at hx
    rcases Decimal.mem_formatF hx with hdigit | rfl | rfl
    · have hne : ∀ y : Char, y.isDigit = false → x ≠ y := by
        rintro y hy rfl
        rw [hy] at hdigit
        cases hdigit
      have hrange : 48 ≤ x.toNat ∧ x.toNat ≤ 57 := Char.isDigit_iff_toNat.mp hdigit
      rw [escapeChar, if_neg (hne _ rfl), if_neg (hne _ rfl), if_neg (hne _ rfl),
        if_neg (hne _ rfl), if_neg (hne _ rfl), if_neg (hne _ rfl), if_neg (hne _ rfl),
        if_pos ⟨by omega, by omega⟩]
    · rfl
    · rfl
  have hflat : m.weight.toList.flatMap escapeChar = m.weight.toList :=
    (List.flatMap_congr hplain).trans (List.flatMap_singleton' _)
  rw [quoted, hflat]

theorem quote_notMem_weight (hm : PlainWeight m) : '\x22' ∉ m.weight.toList := by
  obtain ⟨d, hd⟩ := hm
  intro hmem
  rw [hd] at hmem
  rcases Decimal.mem_formatF hmem with h | h | h <;> cases h

/-- What stands before the weight of a member. -/
def beforeWeight (m : CanonicalMember JsonObject) : List Char :=
  '\x7b' :: quoted "config" ++ [':'] ++ (Json.obj m.config).dumps .compact ++
    [','] ++ quoted "instruments" ++ [':'] ++ (Json.arr (m.instruments.map .str)).dumps .compact ++
    [','] ++ quoted "order_index" ++ [':'] ++ (toString m.orderIndex).toList ++
    [','] ++ quoted "strategy_id" ++ [':'] ++ quoted m.strategyId ++
    [','] ++ quoted "weight" ++ [':']

/-- The weight comes last. -/
theorem canonicalJson_dumps (hm : PlainWeight m) : (canonicalJson m).dumps .compact =
    beforeWeight m ++ '\x22' :: (m.weight.toList ++ ['\x22', '\x7d']) := by
  have hfields : (canonicalJson m).dumps .compact = dumpsObject .compact
      [("strategy_id", quoted m.strategyId), ("order_index", (toString m.orderIndex).toList),
        ("config", (Json.obj m.config).dumps .compact),
        ("instruments", (Json.arr (m.instruments.map .str)).dumps .compact),
        ("weight", quoted m.weight)] := by
    simp only [canonicalJson, Json.dumps, Json.dumpsFields]
  rw [hfields, dumpsObject, sorted_canonical, quoted_weight hm]
  unfold beforeWeight
  generalize (Json.obj m.config).dumps .compact = config
  generalize (Json.arr (m.instruments.map .str)).dumps .compact = instruments
  simp only [Separators.compact, List.map_cons, List.map_nil, List.intercalate_cons_cons,
    List.intercalate_singleton, List.append_assoc, List.cons_append, List.nil_append]

/-- The members agree in all but their weights. -/
structure SameBefore (m m' : CanonicalMember JsonObject) : Prop where
  before : beforeWeight m' = beforeWeight m
  plain : PlainWeight m
  plain' : PlainWeight m'

/-- The members behind the first one. -/
def laterMembers (l : List (CanonicalMember JsonObject)) : List Char :=
  (l.map fun m => ',' :: (canonicalJson m).dumps .compact).flatten ++ [']']

theorem canonicalText_cons : (canonicalText (m :: l)).toList =
    '[' :: ((canonicalJson m).dumps .compact ++ laterMembers l) := by
  have hjoin : ∀ (x : List Char) (xs : List (List Char)), List.intercalate [','] (x :: xs) =
      x ++ (xs.map fun y => ',' :: y).flatten := by
    intro x xs
    induction xs generalizing x with
    | nil => rw [List.intercalate_singleton]; simp
    | cons y ys ih => rw [List.intercalate_cons_cons, ih]; simp
  rw [canonicalText, String.toList_ofList, Json.dumps, Json.dumpsItems_eq_map, dumpsArray,
    List.map_cons, List.map_cons]
  simp only [Separators.compact]
  rw [hjoin, laterMembers, List.map_map, List.map_map, List.cons_append, List.append_assoc]
  rfl

theorem laterMembers_cons (hm : PlainWeight m) : laterMembers (m :: l) =
    ',' :: (beforeWeight m ++ '\x22' ::
      (m.weight.toList ++ '\x22' :: '\x7d' :: laterMembers l)) := by
  rw [laterMembers, List.map_cons, List.flatten_cons, canonicalJson_dumps hm, laterMembers]
  simp only [List.cons_append, List.append_assoc, List.nil_append]

/-- A text ends at the first quote behind it. -/
theorem append_quote_inj {w w' r r' : List Char} (hw : '\x22' ∉ w) (hw' : '\x22' ∉ w') :
    w' ++ '\x22' :: r' = w ++ '\x22' :: r ↔ w' = w ∧ r' = r := by
  refine ⟨fun heq => ?_, fun h => by rw [h.1, h.2]⟩
  have hplain : ∀ {v s : List Char}, '\x22' ∉ v →
      (v ++ '\x22' :: s).takeWhile (· ≠ '\x22') = v := by
    intro v s hv
    have hne : ∀ x ∈ v, decide (x ≠ '\x22') = true :=
      fun x hx => decide_eq_true fun h => hv (h ▸ hx)
    rw [List.takeWhile_append_of_pos hne]
    simp
  have hwords : w' = w := by
    rw [← hplain hw' (s := r'), heq, hplain hw]
  rw [hwords] at heq
  exact ⟨hwords, (List.cons.inj (List.append_cancel_left heq)).2⟩

/-- Behind the first comma the weights can be read off. -/
theorem laterMembers_eq_iff (h : List.Forall₂ SameBefore l l') :
    laterMembers l' = laterMembers l ↔ List.Forall₂ (fun m m' => m'.weight = m.weight) l l' := by
  induction h with
  | nil => exact ⟨fun _ => .nil, fun _ => rfl⟩
  | @cons m m' l l' hm _ ih =>
    rw [laterMembers_cons hm.plain, laterMembers_cons hm.plain', hm.before, List.cons.injEq,
      List.append_cancel_left_eq, List.cons.injEq,
      append_quote_inj (quote_notMem_weight hm.plain) (quote_notMem_weight hm.plain'),
      List.cons.injEq, ih, List.forall₂_cons, String.toList_inj]
    simp only [true_and]

/-- **The hashed texts** are equal if the weights have equal texts. -/
theorem canonicalText_eq_iff (h : List.Forall₂ SameBefore l l') :
    canonicalText l' = canonicalText l ↔
      List.Forall₂ (fun m m' => m'.weight = m.weight) l l' := by
  rw [← laterMembers_eq_iff h]
  cases h with
  | nil => exact ⟨fun _ => rfl, fun _ => rfl⟩
  | @cons m m' l l' hm hl =>
    have hcomma : ∀ (m : CanonicalMember JsonObject) (l), laterMembers (m :: l) =
        ',' :: ((canonicalJson m).dumps .compact ++ laterMembers l) := by
      intro m l
      rw [laterMembers, List.map_cons, List.flatten_cons, laterMembers]
      simp only [List.cons_append, List.append_assoc]
    rw [← String.toList_inj, canonicalText_cons, canonicalText_cons, hcomma, hcomma,
      List.cons.injEq, List.cons.injEq]
    simp only [true_and]

end Texts

/-! ### The members as they are read back -/

section Members

variable {weight : Decimal → Option Decimal} {members members' : List (Member Uuid JsonObject)}
  {row row' : Member Uuid JsonObject}

theorem indices_eq {rows : List (Member Uuid JsonObject)}
    (h : List.Forall₂ (AsMember weight) members rows) :
    rows.map (·.orderIndex) = members.map (·.orderIndex) := by
  induction h with
  | nil => rfl
  | cons hrow _ ih => rw [List.map_cons, List.map_cons, hrow.orderIndex, ih]

/-- The order of a list with distinct indices does not matter. -/
theorem Rearranged.sorted (h : Rearranged weight members members')
    (hindex : (members.map (·.orderIndex)).Nodup) :
    List.Forall₂ (AsMember weight) (sortMembers members) (sortMembers members') := by
  obtain ⟨rows, hrows, hperm⟩ := h
  have hindices : rows.map (·.orderIndex) = members.map (·.orderIndex) := indices_eq hrows
  have hsorted : sortMembers members' = sortMembers rows := by
    refine rankBy_eq_of_perm hperm fun a ha b hb hkey => ?_
    rw [← hindices] at hindex
    exact List.inj_on_of_nodup_map hindex ha hb hkey
  rw [hsorted]
  exact rankBy_forall₂ (fun _ _ h => h.orderIndex) hrows

/-- Of a member only the weight is hashed differently. -/
theorem AsMember.sameBefore {sha : String → String} (h : AsMember weight row row') :
    SameBefore (canonicalizeMember (.ofSha sha) row) (canonicalizeMember (.ofSha sha) row') where
  before := by
    unfold beforeWeight
    simp only [canonicalizeMember, h.strategyId, h.instruments, h.orderIndex, h.config.dumps_eq]
  plain := ⟨_, rfl⟩
  plain' := ⟨_, rfl⟩

/-- The texts that are hashed of a list and of the list rearranged. -/
theorem Rearranged.canonicalComposition_eq_iff (h : Rearranged weight members members')
    (hindex : (members.map (·.orderIndex)).Nodup) :
    canonicalComposition members' = canonicalComposition members ↔
      List.Forall₂ (fun row row' => row'.weight.quantizeWeight.normalize.formatF =
        row.weight.quantizeWeight.normalize.formatF) (sortMembers members)
        (sortMembers members') := by
  have hsame : List.Forall₂ SameBefore ((sortMembers members).map (canonicalizeMember (.ofSha id)))
      ((sortMembers members').map (canonicalizeMember (.ofSha id))) := by
    rw [List.forall₂_map_left_iff, List.forall₂_map_right_iff]
    exact (h.sorted hindex).imp fun _ _ hrow => hrow.sameBefore
  rw [canonicalComposition, canonicalComposition, canonicalText_eq_iff hsame,
    List.forall₂_map_left_iff, List.forall₂_map_right_iff]
  rfl

/-- A weight that was read back is not rounded again. -/
theorem Decimal.readWeight_quantized {d r : Decimal} (hread : d.readWeight = some r) :
    r.exponent = -6 ∧ r.quantizeWeight = r := by
  simp only [readWeight] at hread
  split at hread
  · obtain rfl := Option.some.inj hread
    refine ⟨rfl, ?_⟩
    simp [quantizeWeight, numericColumn]
  · cases hread

/-- **One member.** -/
theorem AsMember.weight_eq_iff (h : AsMember Decimal.readWeight row row') :
    row'.weight.quantizeWeight.normalize.formatF = row.weight.quantizeWeight.normalize.formatF ↔
      ¬ row.weight.TiesToEven ∧ ¬ row.weight.NegativeZero := by
  obtain ⟨hexponent, hquantized⟩ := Decimal.readWeight_quantized h.weight
  rw [hquantized, ← Decimal.quantizeWeight_eq_iff h.weight,
    Decimal.formatF_normalize_inj hexponent rfl]
  exact eq_comm

/-- All of them. -/
theorem weights_eq_iff {rows rows' : List (Member Uuid JsonObject)}
    (h : List.Forall₂ (AsMember Decimal.readWeight) rows rows') :
    List.Forall₂ (fun row row' => row'.weight.quantizeWeight.normalize.formatF =
        row.weight.quantizeWeight.normalize.formatF) rows rows' ↔
      ∀ row ∈ rows, ¬ row.weight.TiesToEven ∧ ¬ row.weight.NegativeZero := by
  induction h with
  | nil => simp
  | cons hrow _ ih => rw [List.forall₂_cons, List.forall_mem_cons, hrow.weight_eq_iff, ih]

/-- **The hash of what is read back.**  It is the hash of the members, whatever the digest, exactly
    if no weight is half of the sixth place away from an even one, and no negative weight becomes
    zero; without rounding the order of the members and of the keys is immaterial. -/
theorem composition_hash_survives_iff (hindex : (members.map (·.orderIndex)).Nodup) :
    (∀ stored, Rearranged Decimal.readWeight members stored →
      ((∀ sha, computeCompositionHash (.ofSha sha) stored
          = computeCompositionHash (.ofSha sha) members) ↔
        ∀ row ∈ members, ¬ row.weight.TiesToEven ∧ ¬ row.weight.NegativeZero)) ∧
    ∀ members', Rearranged some members members' → ∀ sha,
      computeCompositionHash (.ofSha sha) members'
        = computeCompositionHash (.ofSha sha) members := by
  refine ⟨fun stored h => ?_, fun members' h sha => ?_⟩
  · have htexts : (∀ sha, computeCompositionHash (.ofSha sha) stored
          = computeCompositionHash (.ofSha sha) members) ↔
        canonicalComposition stored = canonicalComposition members :=
      ⟨fun hall => hall id, fun heq sha => congrArg sha heq⟩
    have hmem : ∀ row, row ∈ sortMembers members ↔ row ∈ members :=
      fun row => List.mem_insertionSort _
    rw [htexts, h.canonicalComposition_eq_iff hindex, weights_eq_iff (h.sorted hindex)]
    simp only [hmem]
  · refine congrArg sha ((h.canonicalComposition_eq_iff hindex).mpr ?_)
    refine (h.sorted hindex).imp fun row row' hrow => ?_
    rw [Option.some.inj hrow.weight]

end Members

/-! ### Weights between two places -/

/-- Two strategies, the second with the given weight. -/
def twoMembers (weight : Decimal) : List (Member Uuid JsonObject) :=
  [{ strategyId := 1, config := [("fast", .num "10"), ("slow", .num "30")]
     instruments := ["AAPL.NASDAQ"]
     weight := { negative := false, coefficient := 5, exponent := -1 }, orderIndex := 0 },
    { strategyId := 2, config := [], instruments := ["MSFT.NASDAQ"], weight := weight
      orderIndex := 1 }]

/-- They are read back in the other order, and the keys of the configuration too. -/
def twoStored (weight : Decimal) : List (Member Uuid JsonObject) :=
  [{ strategyId := 2, config := [], instruments := ["MSFT.NASDAQ"], weight := weight
     orderIndex := 1 },
    { strategyId := 1, config := [("slow", .num "30"), ("fast", .num "10")]
      instruments := ["AAPL.NASDAQ"]
      weight := { negative := false, coefficient := 500000, exponent := -6 }, orderIndex := 0 }]

theorem rearranged_two {weight read : Decimal} (hread : weight.readWeight = some read) :
    Rearranged Decimal.readWeight (twoMembers weight) (twoStored read) := by
  refine ⟨(twoStored read).reverse, .cons ?_ (.cons ?_ .nil), .swap _ _ _⟩
  · have hfields : ReorderedFields [("fast", .num "10"), ("slow", .num "30")]
        [("fast", .num "10"), ("slow", .num "30")] :=
      .cons (.refl _) (.cons (.refl _) .nil)
    exact ⟨rfl, .obj hfields (by decide) (.swap _ _ _), rfl, rfl, rfl⟩
  · exact ⟨rfl, .refl _, rfl, hread, rfl⟩

/-- The theorem at `0.3333333`. -/
theorem composition_hash_survives_iff_thirds :
    Rearranged Decimal.readWeight (twoMembers ⟨false, 3333333, -7⟩)
        (twoStored ⟨false, 333333, -6⟩) ∧
      ∀ sha, computeCompositionHash (.ofSha sha) (twoStored ⟨false, 333333, -6⟩)
        = computeCompositionHash (.ofSha sha) (twoMembers ⟨false, 3333333, -7⟩) :=
  ⟨rearranged_two rfl,
    ((composition_hash_survives_iff (by decide)).1 _ (rearranged_two rfl)).mpr (by decide)⟩

/-- `0.1234565` is hashed as `0.123456` and read back as `0.123457`. -/
theorem composition_hash_fails :
    Rearranged Decimal.readWeight (twoMembers ⟨false, 1234565, -7⟩)
        (twoStored ⟨false, 123457, -6⟩) ∧
      computeCompositionHash (.ofSha id) (twoStored ⟨false, 123457, -6⟩)
        ≠ computeCompositionHash (.ofSha id) (twoMembers ⟨false, 1234565, -7⟩) := by
  have hread : Rearranged Decimal.readWeight (twoMembers ⟨false, 1234565, -7⟩)
      (twoStored ⟨false, 123457, -6⟩) := rearranged_two rfl
  have hindex : ((twoMembers ⟨false, 1234565, -7⟩).map (·.orderIndex)).Nodup := by decide
  refine ⟨hread, fun heq => ?_⟩
  have hweights := (weights_eq_iff (hread.sorted hindex)).mp
    ((hread.canonicalComposition_eq_iff hindex).mp heq)
  have hsecond := hweights _
    ((List.mem_insertionSort _).mpr (List.mem_cons_of_mem _ List.mem_cons_self))
  exact hsecond.1 (by decide)

end Msai.Portfolio
