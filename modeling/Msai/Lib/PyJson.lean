import Mathlib.Algebra.Group.Nat.Defs
import Mathlib.Data.List.Sort
import Mathlib.Data.String.Basic
import Msai.Lib.Ranking

namespace Msai.Lib

/-!
# The text of `json.dumps`

A JSON value and the text Python's `json.dumps(value, sort_keys=True)` writes for it, under either
pair of separators.  Texts are lists of characters.

* `eq_map_of_cons`, `eq_flatMap_of_cons` — a function that goes through the items of a list;
* `Json`, `Json.dumps` — the values and their text; the fields of an object are sorted by key;
* `Reordered`, `Reordered.dumps_eq` — objects with their fields in another order, at any depth, have
  the same text;
* `dumpsArray_prefix`, `spaced_ne_compact` — how a list of objects begins, and that it does so
  differently under the two pairs.
-/

/-! ### Characters -/

/-- `n` in hexadecimal, in at least `width` digits. -/
def hexPadded (width n : ℕ) : List Char :=
  let digits := Nat.toDigits 16 n
  List.replicate (width - digits.length) '0' ++ digits

/-- `\uXXXX`. -/
def unicodeEscape (n : ℕ) : List Char := '\x5c' :: 'u' :: hexPadded 4 n

/-- A character of a string, with `ensure_ascii=True`. -/
def escapeChar (c : Char) : List Char :=
  if c = '\x22' then ['\x5c', '\x22']
  else if c = '\x5c' then ['\x5c', '\x5c']
  else if c = '\n' then ['\x5c', 'n']
  else if c = '\r' then ['\x5c', 'r']
  else if c = '\t' then ['\x5c', 't']
  else if c = '\x0c' then ['\x5c', 'f']
  else if c = '\x08' then ['\x5c', 'b']
  else if 0x20 ≤ c.toNat ∧ c.toNat ≤ 0x7e then [c]
  else if c.toNat ≤ 0xffff then unicodeEscape c.toNat
  else
    -- a surrogate pair
    unicodeEscape (0xd800 + (c.toNat - 0x10000) / 0x400)
      ++ unicodeEscape (0xdc00 + (c.toNat - 0x10000) % 0x400)

/-- A string in quotes. -/
def quoted (s : String) : List Char := '\x22' :: s.toList.flatMap escapeChar ++ ['\x22']

/-! ### Functions that go through a list -/

section Lists

variable {α β : Type} {f : α → β} {g : α → List β} {F : List α → List β}

theorem eq_map_of_cons (hnil : F [] = []) (hcons : ∀ a l, F (a :: l) = f a :: F l)
    (l : List α) : F l = l.map f := by
  induction l with
  | nil => exact hnil
  | cons a l ih => rw [hcons, ih, List.map_cons]

theorem eq_flatMap_of_cons (hnil : F [] = []) (hcons : ∀ a l, F (a :: l) = g a ++ F l)
    (l : List α) : F l = l.flatMap g := by
  induction l with
  | nil => exact hnil
  | cons a l ih => rw [hcons, ih, List.flatMap_cons]

end Lists

/-! ### Values -/

/-- A JSON value; a number stands as `repr` writes it. -/
inductive Json
  | null
  | bool (b : Bool)
  | num (repr : String)
  | str (s : String)
  | arr (items : List Json)
  | obj (fields : List (String × Json))

/-- `separators`. -/
structure Separators where
  item : List Char
  key : List Char
deriving DecidableEq, Repr

/-- The default of `json.dumps`. -/
def Separators.spaced : Separators := { item := [',', ' '], key := [':', ' '] }

/-- `separators=(",", ":")`. -/
def Separators.compact : Separators := { item := [','], key := [':'] }

/-- The fields of an object, sorted by key, each with the text of its value. -/
def dumpsObject (sep : Separators) (fields : List (String × List Char)) : List Char :=
  '\x7b' :: List.intercalate sep.item
    ((fields.insertionSort fun p q => p.1 ≤ q.1).map fun p => quoted p.1 ++ sep.key ++ p.2)
    ++ ['\x7d']

/-- The items of a list, each as its text. -/
def dumpsArray (sep : Separators) (items : List (List Char)) : List Char :=
  '[' :: List.intercalate sep.item items ++ [']']

namespace Json

mutual

/-- `json.dumps(value, sort_keys=True)`. -/
def dumps (sep : Separators) : Json → List Char
  | .null => "null".toList
  | .bool true => "true".toList
  | .bool false => "false".toList
  | .num repr => repr.toList
  | .str s => quoted s
  | .arr items => dumpsArray sep (dumpsItems sep items)
  | .obj fields => dumpsObject sep (dumpsFields sep fields)

/-- The texts of the items of a list. -/
def dumpsItems (sep : Separators) : List Json → List (List Char)
  | [] => []
  | v :: vs => dumps sep v :: dumpsItems sep vs

/-- The fields of an object with the texts of their values. -/
def dumpsFields (sep : Separators) : List (String × Json) → List (String × List Char)
  | [] => []
  | (k, v) :: fs => (k, dumps sep v) :: dumpsFields sep fs

end

end Json

/-! ### The order of the fields -/

mutual

/-- The value with the fields of its objects in another order, at any depth. -/
inductive Reordered : Json → Json → Prop
  | refl (v : Json) : Reordered v v
  | arr {items items' : List Json} :
    ReorderedItems items items' → Reordered (.arr items) (.arr items')
  | obj {fields fields' fields'' : List (String × Json)} :
    ReorderedFields fields fields' → (fields.map Prod.fst).Nodup → fields''.Perm fields' →
      Reordered (.obj fields) (.obj fields'')

/-- The items of a list, each reordered. -/
inductive ReorderedItems : List Json → List Json → Prop
  | nil : ReorderedItems [] []
  | cons {v v' : Json} {vs vs' : List Json} :
    Reordered v v' → ReorderedItems vs vs' → ReorderedItems (v :: vs) (v' :: vs')

/-- The fields of an object, the value of each reordered. -/
inductive ReorderedFields : List (String × Json) → List (String × Json) → Prop
  | nil : ReorderedFields [] []
  | cons {k : String} {v v' : Json} {fs fs' : List (String × Json)} :
    Reordered v v' → ReorderedFields fs fs' → ReorderedFields ((k, v) :: fs) ((k, v') :: fs')

end

namespace Json

variable {sep : Separators}

theorem dumpsItems_eq_map (items : List Json) :
    dumpsItems sep items = items.map fun v => v.dumps sep :=
  eq_map_of_cons rfl (fun _ _ => rfl) items

theorem dumpsFields_eq_map (fields : List (String × Json)) :
    dumpsFields sep fields = fields.map fun p => (p.1, p.2.dumps sep) :=
  eq_map_of_cons rfl (fun _ _ => rfl) fields

/-- The fields are sorted by key. -/
theorem dumpsObject_eq_of_perm {fields fields' : List (String × List Char)}
    (hperm : fields'.Perm fields) (hkeys : (fields.map Prod.fst).Nodup) :
    dumpsObject sep fields' = dumpsObject sep fields := by
  have hranked : rankBy Prod.fst fields' = rankBy Prod.fst fields :=
    rankBy_eq_of_perm hperm fun p hp q hq hkey => List.inj_on_of_nodup_map hkeys hp hq hkey
  unfold rankBy at hranked
  rw [dumpsObject, dumpsObject, hranked]

end Json

open Json in
mutual

/-- **The order of the fields does not show in the text.** -/
theorem Reordered.dumps_eq {sep : Separators} {v v' : Json} :
    Reordered v v' → v'.dumps sep = v.dumps sep
  | .refl _ => rfl
  | .arr hitems => by rw [dumps, dumps, hitems.dumps_eq]
  | @Reordered.obj fields _ fields'' hfields hkeys hperm => by
    have hperm' : (dumpsFields sep fields'').Perm (dumpsFields sep fields) := by
      rw [← hfields.dumps_eq, dumpsFields_eq_map, dumpsFields_eq_map]
      exact hperm.map _
    rw [dumps, dumps]
    refine dumpsObject_eq_of_perm hperm' ?_
    rw [dumpsFields_eq_map, List.map_map]
    exact hkeys

theorem ReorderedItems.dumps_eq {sep : Separators} {vs vs' : List Json} :
    ReorderedItems vs vs' → dumpsItems sep vs' = dumpsItems sep vs
  | .nil => rfl
  | .cons hv hvs => by rw [dumpsItems, dumpsItems, hv.dumps_eq, hvs.dumps_eq]

theorem ReorderedFields.dumps_eq {sep : Separators} {fs fs' : List (String × Json)} :
    ReorderedFields fs fs' → dumpsFields sep fs' = dumpsFields sep fs
  | .nil => rfl
  | .cons hv hfs => by rw [dumpsFields, dumpsFields, hv.dumps_eq, hfs.dumps_eq]

end

/-! ### How a text begins -/

variable {sep : Separators} {k : String} {v : List Char} {fields rest : List (String × List Char)}
  {items : List (List Char)}

/-- The first of the texts that are joined. -/
theorem intercalate_cons {α : Type} (sep x : List α) (xs : List (List α)) :
    ∃ tail, List.intercalate sep (x :: xs) = x ++ tail := by
  cases xs with
  | nil => exact ⟨[], by simp [List.intercalate]⟩
  | cons y ys => exact ⟨sep ++ List.intercalate sep (y :: ys), by simp [List.intercalate]⟩

/-- An object begins with the least of its keys. -/
theorem dumpsObject_prefix
    (hsorted : (fields.insertionSort fun p q => p.1 ≤ q.1) = (k, v) :: rest) :
    ∃ tail, dumpsObject sep fields = '\x7b' :: quoted k ++ sep.key ++ v ++ tail := by
  obtain ⟨tail, htail⟩ := intercalate_cons sep.item (quoted k ++ sep.key ++ v)
    (rest.map fun p => quoted p.1 ++ sep.key ++ p.2)
  refine ⟨tail ++ ['\x7d'], ?_⟩
  rw [dumpsObject, hsorted, List.map_cons, htail]
  simp only [List.append_assoc, List.cons_append]

/-- A list of objects begins with the least key of the first one. -/
theorem dumpsArray_prefix
    (hsorted : (fields.insertionSort fun p q => p.1 ≤ q.1) = (k, v) :: rest) :
    ∃ tail, dumpsArray sep (dumpsObject sep fields :: items)
      = '[' :: '\x7b' :: quoted k ++ sep.key ++ v ++ tail := by
  obtain ⟨tail, htail⟩ := intercalate_cons sep.item (dumpsObject sep fields) items
  obtain ⟨tail', htail'⟩ :
      ∃ tail, dumpsObject sep fields = '\x7b' :: quoted k ++ sep.key ++ v ++ tail :=
    dumpsObject_prefix hsorted
  refine ⟨tail' ++ tail ++ [']'], ?_⟩
  rw [dumpsArray, htail, htail']
  simp only [List.append_assoc, List.cons_append]

/-- Behind the first key the two pairs of separators part, unless the value begins with a blank. -/
theorem spaced_ne_compact {v' tail tail' : List Char} (hv : v'.head? ≠ some ' ')
    (hne : v' ≠ []) :
    '[' :: '\x7b' :: quoted k ++ Separators.spaced.key ++ v ++ tail
      ≠ '[' :: '\x7b' :: quoted k ++ Separators.compact.key ++ v' ++ tail' := by
  intro heq
  obtain ⟨c, cs, rfl⟩ := List.exists_cons_of_ne_nil hne
  simp only [Separators.spaced, Separators.compact, List.append_assoc, List.cons_append,
    List.nil_append, List.cons.injEq, true_and, List.append_cancel_left_eq] at heq
  exact hv (by rw [← heq.1]; rfl)

example : String.ofList
      (Json.dumps .spaced (.arr [.obj [("b", .num "1.5"), ("a", .str "é")], .null]))
    = "[\x7b\"a\": \"\\u00e9\", \"b\": 1.5\x7d, null]" := by decide

end Msai.Lib
