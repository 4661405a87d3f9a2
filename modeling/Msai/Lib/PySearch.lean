import Mathlib.Data.List.Infix

namespace Msai.Lib.PySearch

/-!
# Patterns as `re` searches for them

A pattern is given by its match at the front of a text.

* `search`, `search_eq_none_iff` — `re.search`, and when it finds nothing;
* `after`, `upTo` — what a pattern takes off the front;
* `searchWord` — the words of a text between `\b`.
-/

variable {β : Type} {p : List Char → Option β} {cs : List Char} {c : Char}

/-- The first place of a text where a pattern matches. -/
def search (p : List Char → Option β) : List Char → Option β
  | [] => p []
  | c :: cs => (p (c :: cs)).or (search p cs)

/-- Nothing is found where the pattern matches at no place. -/
theorem search_eq_none_iff : search p cs = none ↔ ∀ t, t <:+ cs → p t = none := by
  induction cs with
  | nil =>
    constructor
    · intro h t ht
      rw [List.suffix_nil.mp ht]
      exact h
    · exact fun h => h [] List.suffix_rfl
  | cons c cs ih =>
    show (p (c :: cs)).or (search p cs) = none ↔ _
    rw [Option.or_eq_none_iff, ih]
    constructor
    · rintro ⟨hfirst, hrest⟩ t ht
      rcases List.suffix_cons_iff.mp ht with rfl | ht
      · exact hfirst
      · exact hrest t ht
    · exact fun h => ⟨h _ List.suffix_rfl, fun t ht => h t (ht.trans (List.suffix_cons c cs))⟩

/-- A pattern that starts with a character is not found in a text without it. -/
theorem search_eq_none (hp : ∀ t b, p t = some b → c ∈ t) (hc : c ∉ cs) :
    search p cs = none := by
  rw [search_eq_none_iff]
  intro t ht
  cases h : p t with
  | none => rfl
  | some b => exact absurd (ht.subset (hp t b h)) hc

/-- What follows `front` at the front of a text. -/
def after (front cs : List Char) : Option (List Char) := cs.dropPrefix? front

theorem after_eq_some {front rest : List Char} (h : after front cs = some rest) :
    cs = front ++ rest := by
  obtain ⟨front', rfl, heq⟩ := List.dropPrefix?_eq_some_iff.mp h
  rw [eq_of_beq heq]

/-- `[^c]+c` at the front of a text: what stands before `c`, and what behind it. -/
def upTo (c : Char) (cs : List Char) : Option (List Char × List Char) :=
  let body := cs.takeWhile (· != c)
  match cs.dropWhile (· != c) with
  | _ :: rest => if body = [] then none else some (body, rest)
  | [] => none

/-- `\b` between two neighbours. -/
def boundary (isWord : Char → Bool) (before after : Option Char) : Bool :=
  before.any isWord != after.any isWord

/-- `\bword\b` in a text, with the character in front of it. -/
def searchWord (isWord : Char → Bool) (word : List Char) : Option Char → List Char → Bool
  | _, [] => false
  | before, c :: cs =>
    (boundary isWord before (some c) && word.isPrefixOf (c :: cs) &&
        boundary isWord word.getLast? ((c :: cs).drop word.length).head?) ||
      searchWord isWord word (some c) cs

end Msai.Lib.PySearch
