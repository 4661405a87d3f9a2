import Msai.Lib.JsonLoads

namespace Msai.Lib

open JsonLoads (scanString_quoted scanNumber_int toList_toString mem_toDigits)

/-!
# A JSON text as a key

`json.dumps(value, sort_keys=True)` as the key of a table: two values have one text exactly if they
are equal once the fields of their objects are sorted.

* `Json.ind` — induction over the values in a value;
* `Json.sorted` — the fields sorted by key, at any depth;
* `sort_map`, `map_eq_map` — maps of a list that are sorted, or equal;
* `Parted`, `joined_cancel` — texts that end by themselves, one and many;
* `Json.dumps_eq_iff` — what the text determines.

The numbers of a value are to be written with the characters of numbers, which `repr` does.
-/

/-! ### Values in values -/

namespace Json

/-- Induction with the items of a list and the fields of an object. -/
@[elab_as_elim]
theorem ind {P : Json → Prop} (null : P .null) (bool : ∀ b, P (.bool b))
    (num : ∀ repr, P (.num repr)) (str : ∀ s, P (.str s))
    (arr : ∀ items, (∀ v ∈ items, P v) → P (.arr items))
    (obj : ∀ fields : List (String × Json), (∀ p ∈ fields, P p.2) → P (.obj fields)) (v : Json) :
    P v :=
  @Json.rec P (fun items => ∀ v ∈ items, P v) (fun fields => ∀ p ∈ fields, P p.2)
    (fun p => P p.2) null bool num str arr obj nofun
    (fun _ _ hv hitems => List.forall_mem_cons.mpr ⟨hv, hitems⟩) nofun
    (fun _ _ hp hfields => List.forall_mem_cons.mpr ⟨hp, hfields⟩) (fun _ _ hv => hv) v

mutual

/-- The fields of every object sorted by key. -/
def sorted : Json → Json
  | .null => .null
  | .bool b => .bool b
  | .num repr => .num repr
  | .str s => .str s
  | .arr items => .arr (sortedItems items)
  | .obj fields => .obj ((sortedFields fields).insertionSort fun p q => p.1 ≤ q.1)

def sortedItems : List Json → List Json
  | [] => []
  | v :: vs => v.sorted :: sortedItems vs

def sortedFields : List (String × Json) → List (String × Json)
  | [] => []
  | (k, v) :: fields => (k, v.sorted) :: sortedFields fields

end

mutual

/-- The numbers, as they are written. -/
def numbers : Json → List String
  | .null | .bool _ | .str _ => []
  | .num repr => [repr]
  | .arr items => numbersOfItems items
  | .obj fields => numbersOfFields fields

def numbersOfItems : List Json → List String
  | [] => []
  | v :: vs => v.numbers ++ numbersOfItems vs

def numbersOfFields : List (String × Json) → List String
  | [] => []
  | (_, v) :: fields => v.numbers ++ numbersOfFields fields

end

theorem sortedItems_eq_map (items : List Json) : sortedItems items = items.map sorted :=
  eq_map_of_cons rfl (fun _ _ => rfl) items

theorem sortedFields_eq_map (fields : List (String × Json)) :
    sortedFields fields = fields.map fun p => (p.1, p.2.sorted) :=
  eq_map_of_cons rfl (fun _ _ => rfl) fields

theorem numbersOfItems_eq (items : List Json) : numbersOfItems items = items.flatMap numbers :=
  eq_flatMap_of_cons rfl (fun _ _ => rfl) items

theorem numbersOfFields_eq (fields : List (String × Json)) :
    numbersOfFields fields = fields.flatMap fun p => p.2.numbers :=
  eq_flatMap_of_cons rfl (fun _ _ => rfl) fields

end Json

/-- The sort looks at the keys only. -/
theorem sort_map {γ δ : Type} (g : γ → δ) (l : List (String × γ)) :
    (l.map fun p => (p.1, g p.2)).insertionSort (fun p q => p.1 ≤ q.1) =
      (l.insertionSort fun p q => p.1 ≤ q.1).map fun p => (p.1, g p.2) :=
  (List.map_insertionSort _ _ (fun p => (p.1, g p.2)) l fun _ _ _ _ => Iff.rfl).symm

/-- Lists that one map makes equal, and another on equal values. -/
theorem map_eq_map {α β γ : Type} {f : α → β} {g : α → γ} {xs ys : List α}
    (h : ∀ x ∈ xs, ∀ y ∈ ys, f x = f y → g x = g y) (heq : xs.map f = ys.map f) :
    xs.map g = ys.map g := by
  induction xs generalizing ys with
  | nil =>
    cases ys with
    | nil => rfl
    | cons y ys => cases heq
  | cons x xs ih =>
    cases ys with
    | nil => cases heq
    | cons y ys =>
      obtain ⟨hhead, htail⟩ := List.cons.inj heq
      rw [List.map_cons, List.map_cons, h x List.mem_cons_self y List.mem_cons_self hhead,
        ih (fun x hx y hy => h x (List.mem_cons_of_mem _ hx) y (List.mem_cons_of_mem _ hy)) htail]

/-! ### Texts that end by themselves -/

/-- A text goes on with a comma or a closing bracket, if it goes on. -/
def Ends (rest : List Char) : Prop := ∀ c, rest.head? = some c → c = ',' ∨ c = ']' ∨ c = '\x7d'

section Texts

variable {α β : Type} {enc : α → List Char} {key : α → β} {xs ys : List α} {sep r r' : List Char}
  {close : Char}

/-- Whatever follows two texts, they are told apart. -/
def Parted (enc : α → List Char) (key : α → β) (x y : α) : Prop :=
  ∀ r r', Ends r → Ends r' → enc x ++ r = enc y ++ r' → key x = key y ∧ r = r'

/-- What follows the first of the texts that are joined. -/
theorem intercalate_cons_append (sep : List Char) (x : List Char) (xs : List (List Char))
    (r : List Char) :
    List.intercalate sep (x :: xs) ++ r =
      x ++ (if xs = [] then r else sep ++ (List.intercalate sep xs ++ r)) := by
  cases xs with
  | nil => rw [List.intercalate_singleton, if_pos rfl]
  | cons y ys =>
    rw [List.intercalate_cons_cons, if_neg (List.cons_ne_nil _ _)]
    simp only [List.append_assoc]

/-- Joined texts are told apart one by one. -/
theorem joined_cancel (hsep : ∃ tail, sep = ',' :: tail) (hclose : close = ']' ∨ close = '\x7d')
    (hx : ∀ x ∈ xs, ∃ c tail, enc x = c :: tail ∧ c ≠ close)
    (hy : ∀ y ∈ ys, ∃ c tail, enc y = c :: tail ∧ c ≠ close)
    (hparted : ∀ x ∈ xs, ∀ y ∈ ys, Parted enc key x y)
    (h : List.intercalate sep (xs.map enc) ++ close :: r =
      List.intercalate sep (ys.map enc) ++ close :: r') :
    xs.map key = ys.map key ∧ r = r' := by
  have hcomma : close ≠ ',' := by
    rcases hclose with rfl | rfl
    · decide
    · decide
  have hends : ∀ (zs : List α) (r : List Char), Ends (if zs.map enc = [] then close :: r
      else sep ++ (List.intercalate sep (zs.map enc) ++ close :: r)) := by
    intro zs r c hc
    obtain ⟨tail, rfl⟩ := hsep
    split at hc
    · cases hc
      exact Or.inr hclose
    · cases hc
      exact Or.inl rfl
  induction xs generalizing ys with
  | nil =>
    cases ys with
    | nil => exact ⟨rfl, (List.cons.inj h).2⟩
    | cons y ys =>
      obtain ⟨c, tail, hc, hne⟩ := hy y List.mem_cons_self
      rw [List.map_cons, intercalate_cons_append, hc] at h
      exact absurd (List.cons.inj h).1.symm hne
  | cons x xs ih =>
    cases ys with
    | nil =>
      obtain ⟨c, tail, hc, hne⟩ := hx x List.mem_cons_self
      rw [List.map_cons, intercalate_cons_append, hc] at h
      exact absurd (List.cons.inj h).1 hne
    | cons y ys =>
      rw [List.map_cons, List.map_cons, intercalate_cons_append, intercalate_cons_append] at h
      obtain ⟨hkey, hrest⟩ := hparted x List.mem_cons_self y List.mem_cons_self _ _ (hends xs r)
        (hends ys r') h
      obtain ⟨tail, rfl⟩ := hsep
      rw [List.map_cons, List.map_cons, hkey]
      cases xs with
      | nil =>
        cases ys with
        | nil => exact ⟨rfl, (List.cons.inj hrest).2⟩
        | cons y' ys => exact absurd (List.cons.inj hrest).1 hcomma
      | cons x' xs =>
        cases ys with
        | nil => exact absurd (List.cons.inj hrest).1.symm hcomma
        | cons y' ys =>
          rw [if_neg (by simp), if_neg (by simp), List.append_cancel_left_eq] at hrest
          obtain ⟨hkeys, hr⟩ := ih (fun x hmem => hx x (List.mem_cons_of_mem _ hmem))
            (fun y hmem => hy y (List.mem_cons_of_mem _ hmem))
            (fun x hmem y hmem' =>
              hparted x (List.mem_cons_of_mem _ hmem) y (List.mem_cons_of_mem _ hmem')) hrest
          exact ⟨congrArg _ hkeys, hr⟩

/-- A string in quotes ends with its quote. -/
theorem quoted_cancel {s s' : String} (h : quoted s ++ r = quoted s' ++ r') : s = s' ∧ r = r' := by
  have hcodes : codes (quoted s) ++ codes r = codes (quoted s') ++ codes r' := by
    rw [← codes_append, ← codes_append, h]
  obtain ⟨hstart, hscan⟩ := scanString_quoted s (codes r)
  obtain ⟨hstart', hscan'⟩ := scanString_quoted s' (codes r')
  rw [hstart, hstart'] at hcodes
  rw [(List.cons.inj hcodes).2, hscan'] at hscan
  obtain ⟨hs, hr⟩ := Prod.mk.inj (Option.some.inj hscan)
  have hinj : Function.Injective codes := 
    List.map_injective_iff.mpr fun _ _ => Char.toNat_inj.mp
  exact ⟨String.toList_injective (hinj hs).symm, (hinj hr).symm⟩

end Texts

/-! ### Numbers -/

/-- A character of what `repr` writes for a number. -/
def isNumberChar (c : Char) : Bool :=
  c.isDigit || c == '.' || c == 'e' || c == '+' || c == '-'

def isNumberText (s : String) : Bool := !s.toList.isEmpty && s.toList.all isNumberChar

section Numbers

variable {s s' : String} {r r' : List Char} {c : Char}

theorem isNumberText_iff : isNumberText s = true ↔
    s.toList ≠ [] ∧ ∀ c ∈ s.toList, isNumberChar c = true := by
  rw [isNumberText, Bool.and_eq_true, List.all_eq_true, Bool.not_eq_true', List.isEmpty_eq_false_iff]

/-- A number ends before what goes on. -/
theorem takeWhile_number (hs : isNumberText s = true) (hr : Ends r) :
    (s.toList ++ r).takeWhile isNumberChar = s.toList := by
  rw [List.takeWhile_append_of_pos (isNumberText_iff.mp hs).2]
  cases r with
  | nil => exact List.append_nil _
  | cons c r =>
    have hc : isNumberChar c = false := by
      rcases hr c rfl with rfl | rfl | rfl <;> decide
    rw [List.takeWhile_cons_of_neg (by simp [hc]), List.append_nil]

theorem number_cancel (hs : isNumberText s = true) (hs' : isNumberText s' = true) (hr : Ends r)
    (hr' : Ends r') (h : s.toList ++ r = s'.toList ++ r') : s = s' ∧ r = r' := by
  have hsame : s.toList = s'.toList := by
    rw [← takeWhile_number hs hr, h, takeWhile_number hs' hr']
  rw [hsame, List.append_cancel_left_eq] at h
  exact ⟨String.toList_injective hsame, h⟩

/-- What `repr` writes for an integer. -/
theorem mem_toString_int {n : ℤ} (h : c ∈ (toString n).toList) : c = '-' ∨ c.isDigit = true := by
  rw [toList_toString] at h
  rcases List.mem_append.mp h with h | h
  · split at h
    · exact Or.inl (List.mem_singleton.mp h)
    · cases h
  · have hrange := of_decide_eq_true (mem_toDigits h)
    rw [Char.isDigit, Bool.and_eq_true, decide_eq_true_eq, decide_eq_true_eq]
    exact Or.inr ⟨UInt32.le_iff_toNat_le.mpr hrange.1, UInt32.le_iff_toNat_le.mpr hrange.2⟩

theorem isNumberText_int (n : ℤ) : isNumberText (toString n) = true := by
  rw [isNumberText_iff]
  refine ⟨?_, fun c hc => ?_⟩
  · rw [toList_toString]
    exact List.append_ne_nil_of_right_ne_nil _ Nat.toDigits_ne_nil
  · rcases mem_toString_int hc with rfl | hdigit
    · decide
    · rw [isNumberChar, hdigit]
      rfl

/-- Two integers are written differently: they are read back. -/
theorem toString_int_inj {n m : ℤ} : toString n = toString m ↔ n = m := by
  refine ⟨fun h => ?_, congrArg _⟩
  have hstops : JsonLoads.Stops [] := fun _ h => nomatch h
  have hread := scanNumber_int n hstops
  rw [h, scanNumber_int m hstops] at hread
  exact (JsonValue.int.inj (Prod.mk.inj (Option.some.inj hread)).1).symm

end Numbers

/-! ### The text determines the value -/

namespace Json

/-- The numbers are written as numbers. -/
def NumbersOk (v : Json) : Prop := ∀ s ∈ v.numbers, isNumberText s = true

/-- The first character of the text; of a number, a zero. -/
def opening : Json → Char
  | .null => 'n'
  | .bool true => 't'
  | .bool false => 'f'
  | .num _ => '0'
  | .str _ => '\x22'
  | .arr _ => '['
  | .obj _ => '\x7b'

/-- Two values of one kind. -/
inductive SameKind : Json → Json → Prop
  | null : SameKind .null .null
  | bool (b : Bool) : SameKind (.bool b) (.bool b)
  | num (repr repr' : String) : SameKind (.num repr) (.num repr')
  | str (s s' : String) : SameKind (.str s) (.str s')
  | arr (items items' : List Json) : SameKind (.arr items) (.arr items')
  | obj (fields fields' : List (String × Json)) : SameKind (.obj fields) (.obj fields')

section Texts

variable {sep : Separators} {v w : Json} {items : List Json} {fields : List (String × Json)}
  {r r' : List Char}

theorem NumbersOk.item (h : NumbersOk (.arr items)) (hv : v ∈ items) : v.NumbersOk := by
  intro s hs
  refine h s ?_
  rw [numbers, numbersOfItems_eq]
  exact List.mem_flatMap.mpr ⟨v, hv, hs⟩

theorem NumbersOk.field (h : NumbersOk (.obj fields)) {p : String × Json} (hp : p ∈ fields) :
    p.2.NumbersOk := by
  intro s hs
  refine h s ?_
  rw [numbers, numbersOfFields_eq]
  exact List.mem_flatMap.mpr ⟨p, hp, hs⟩

theorem dumps_opening (sep : Separators) (h : v.NumbersOk) : ∃ c tail, v.dumps sep = c :: tail ∧
    (if isNumberChar c then '0' else c) = v.opening := by
  cases v with
  | null => exact ⟨_, _, rfl, by decide⟩
  | bool b =>
    cases b with
    | false => exact ⟨_, _, rfl, by decide⟩
    | true => exact ⟨_, _, rfl, by decide⟩
  | num repr =>
    have hrepr : isNumberText repr = true := h repr (by rw [numbers]; exact List.mem_cons_self)
    obtain ⟨hne, hall⟩ := isNumberText_iff.mp hrepr
    obtain ⟨c, tail, hc⟩ := List.exists_cons_of_ne_nil hne
    refine ⟨c, tail, by rw [dumps, hc], if_pos (hall c ?_)⟩
    rw [hc]
    exact List.mem_cons_self
  | str s => exact ⟨'\x22', _, rfl, rfl⟩
  | arr items => exact ⟨'[', _, rfl, rfl⟩
  | obj fields => exact ⟨'\x7b', _, rfl, rfl⟩

theorem sameKind_of_opening (h : v.opening = w.opening) : SameKind v w := by
  cases v with
  | null =>
    cases w with
    | null => exact .null
    | bool b => cases b <;> exact absurd h (by decide)
    | _ => exact absurd h (by simp [opening])
  | bool b =>
    cases w with
    | bool b' =>
      cases b <;> cases b'
      · exact .bool false
      · exact absurd h (by decide)
      · exact absurd h (by decide)
      · exact .bool true
    | _ => cases b <;> exact absurd h (by simp [opening])
  | num repr =>
    cases w with
    | num repr' => exact .num repr repr'
    | bool b => cases b <;> exact absurd h (by simp [opening])
    | _ => exact absurd h (by simp [opening])
  | str s =>
    cases w with
    | str s' => exact .str s s'
    | bool b => cases b <;> exact absurd h (by simp [opening])
    | _ => exact absurd h (by simp [opening])
  | arr items =>
    cases w with
    | arr items' => exact .arr items items'
    | bool b => cases b <;> exact absurd h (by simp [opening])
    | _ => exact absurd h (by simp [opening])
  | obj fields =>
    cases w with
    | obj fields' => exact .obj fields fields'
    | bool b => cases b <;> exact absurd h (by simp [opening])
    | _ => exact absurd h (by simp [opening])

theorem opening_ne_bracket : v.opening ≠ ']' := by
  cases v with
  | bool b => cases b <;> decide
  | _ => simp [opening]

/-- The texts of values of different kinds begin differently. -/
theorem sameKind_of_dumps (hv : v.NumbersOk) (hw : w.NumbersOk)
    (h : v.dumps sep ++ r = w.dumps sep ++ r') : SameKind v w := by
  obtain ⟨c, tail, hc, hopen⟩ := dumps_opening sep hv
  obtain ⟨c', tail', hc', hopen'⟩ := dumps_opening sep hw
  rw [hc, hc'] at h
  refine sameKind_of_opening ?_
  rw [← hopen, ← hopen', (List.cons.inj h).1]

/-- No item of a list begins with the closing bracket. -/
theorem dumps_item_start (h : NumbersOk (.arr items)) :
    ∀ v ∈ items, ∃ c tail, dumps sep v = c :: tail ∧ c ≠ ']' := by
  intro v hv
  obtain ⟨c, tail, hc, hopen⟩ := dumps_opening sep (h.item hv)
  refine ⟨c, tail, hc, ?_⟩
  rintro rfl
  exact opening_ne_bracket hopen.symm

/-- The text of a field. -/
def fieldText (sep : Separators) (p : String × Json) : List Char :=
  quoted p.1 ++ sep.key ++ p.2.dumps sep

theorem dumps_arr : dumps sep (.arr items) =
    '[' :: (List.intercalate sep.item (items.map (dumps sep)) ++ [']']) := by
  rw [dumps, dumpsArray, dumpsItems_eq_map]
  rfl

theorem dumps_obj : dumps sep (.obj fields) =
    '\x7b' :: (List.intercalate sep.item
      ((fields.insertionSort fun p q => p.1 ≤ q.1).map (fieldText sep)) ++ ['\x7d']) := by
  rw [dumps, dumpsObject, dumpsFields_eq_map, sort_map (dumps sep), List.map_map]
  rfl

theorem sorted_arr : sorted (.arr items) = .arr (items.map sorted) := by
  rw [sorted, sortedItems_eq_map]

theorem sorted_obj : sorted (.obj fields) =
    .obj ((fields.insertionSort fun p q => p.1 ≤ q.1).map fun p => (p.1, p.2.sorted)) := by
  rw [sorted, sortedFields_eq_map, sort_map sorted]

/-- The fields of an object are told apart by their keys, and by their values. -/
theorem parted_field {p q : String × Json} (h : Parted (dumps sep) sorted p.2 q.2) :
    Parted (fieldText sep) (fun p => (p.1, p.2.sorted)) p q := by
  intro r r' hr hr' heq
  simp only [fieldText, List.append_assoc] at heq
  obtain ⟨hkey, hrest⟩ := quoted_cancel heq
  obtain ⟨hvalue, hrest⟩ := h r r' hr hr' (List.append_cancel_left hrest)
  exact ⟨Prod.ext hkey hvalue, hrest⟩

theorem fieldText_start : ∀ p ∈ fields, ∃ c tail, fieldText sep p = c :: tail ∧ c ≠ '\x7d' :=
  fun _ _ => ⟨'\x22', _, rfl, by decide⟩

/-- **The text and what goes on determine the value**, by induction on the first of the two. -/
theorem parted_dumps (hsep : ∃ tail, sep.item = ',' :: tail) (hv : v.NumbersOk)
    (hw : w.NumbersOk) : Parted (dumps sep) sorted v w := by
  induction v using Json.ind generalizing w with
  | null =>
    intro r r' hr hr' h
    cases sameKind_of_dumps hv hw h
    exact ⟨rfl, List.append_cancel_left h⟩
  | bool b =>
    intro r r' hr hr' h
    cases sameKind_of_dumps hv hw h
    exact ⟨rfl, List.append_cancel_left h⟩
  | num repr =>
    intro r r' hr hr' h
    cases sameKind_of_dumps hv hw h with
    | num _ repr' =>
      obtain ⟨rfl, hrest⟩ := number_cancel (hv repr (by simp [numbers]))
        (hw repr' (by simp [numbers])) hr hr' h
      exact ⟨rfl, hrest⟩
  | str s =>
    intro r r' hr hr' h
    cases sameKind_of_dumps hv hw h with
    | str _ s' =>
      obtain ⟨rfl, hrest⟩ := quoted_cancel h
      exact ⟨rfl, hrest⟩
  | arr items ih =>
    intro r r' hr hr' h
    cases sameKind_of_dumps hv hw h with
    | arr _ items' =>
      rw [dumps_arr, dumps_arr] at h
      simp only [List.cons_append, List.append_assoc, List.nil_append, List.cons.injEq,
        true_and] at h
      obtain ⟨hitems, hrest⟩ := joined_cancel hsep (Or.inl rfl) (dumps_item_start hv)
        (dumps_item_start hw) (fun v hmem w hmem' => ih v hmem (hv.item hmem) (hw.item hmem')) h
      rw [sorted_arr, sorted_arr, hitems]
      exact ⟨rfl, hrest⟩
  | obj fields ih =>
    intro r r' hr hr' h
    cases sameKind_of_dumps hv hw h with
    | obj _ fields' =>
      rw [dumps_obj, dumps_obj] at h
      simp only [List.cons_append, List.append_assoc, List.nil_append, List.cons.injEq,
        true_and] at h
      have hfield : ∀ p ∈ fields.insertionSort fun p q => p.1 ≤ q.1,
          ∀ q ∈ fields'.insertionSort fun p q => p.1 ≤ q.1,
            Parted (fieldText sep) (fun p => (p.1, p.2.sorted)) p q := by
        intro p hp q hq
        have hp := (List.mem_insertionSort _).mp hp
        have hq := (List.mem_insertionSort _).mp hq
        exact parted_field (ih p hp (hv.field hp) (hw.field hq))
      obtain ⟨hfields, hrest⟩ :=
        joined_cancel hsep (Or.inr rfl) fieldText_start fieldText_start hfield h
      rw [sorted_obj, sorted_obj, hfields]
      exact ⟨rfl, hrest⟩

/-- Sorted fields have the same text. -/
theorem dumps_sorted : v.sorted.dumps sep = v.dumps sep := by
  induction v using Json.ind with
  | null => rfl
  | bool b => rfl
  | num repr => rfl
  | str s => rfl
  | arr items ih =>
    have hitems : (items.map sorted).map (dumps sep) = items.map (dumps sep) := by
      rw [List.map_map]
      exact List.map_congr_left ih
    rw [sorted_arr, dumps_arr, dumps_arr, hitems]
  | obj fields ih =>
    have hsorted := List.pairwise_insertionSort (fun p q : String × Json => p.1 ≤ q.1) fields
    have hfields : ((fields.insertionSort fun p q => p.1 ≤ q.1).map
        fun p => (p.1, p.2.sorted)).map (fieldText sep) =
          (fields.insertionSort fun p q => p.1 ≤ q.1).map (fieldText sep) := by
      rw [List.map_map]
      refine List.map_congr_left fun p hp => ?_
      rw [Function.comp_apply, fieldText, ih p ((List.mem_insertionSort _).mp hp)]
      rfl
    rw [sorted_obj, dumps_obj, dumps_obj, sort_map sorted, hsorted.insertionSort_eq, hfields]

/-- **The text is a key**: two values have one text exactly if they are equal once sorted. -/
theorem dumps_eq_iff (hsep : ∃ tail, sep.item = ',' :: tail) (hv : v.NumbersOk)
    (hw : w.NumbersOk) : v.dumps sep = w.dumps sep ↔ v.sorted = w.sorted := by
  constructor
  · intro h
    have hends : Ends [] := nofun
    refine (parted_dumps hsep hv hw [] [] hends hends ?_).1
    rw [h]
  · intro h
    rw [← dumps_sorted, h, dumps_sorted]

end Texts

end Json

end Msai.Lib
