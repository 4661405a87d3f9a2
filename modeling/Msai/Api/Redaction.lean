import Msai.Lib.PyJson
import Msai.Lib.PyText

namespace Msai.Api.Redaction

open Msai.Lib

/-!
# The input of a validation error (`main.py`)

A 422 response has the input of each error of the request, with the credentials masked.

* `isSensitiveKey`, `redact`, `maskedValidationHandler` — the two functions and the handler;
* `Twins` — two bodies that differ only in what is stored under sensitive keys;
* `redact_twins` — an input above the sensitive keys is the same for both;
* `masked_input_iff` — when the handler conceals the difference, and when it changes a body without
  sensitive keys.

`str.lower` and `str.isalnum` beyond ASCII are arguments.
-/

/-! ### Keys -/

/-- The texts that are not in ASCII. -/
structure TextEnv where
  lower : String → String
  isAlnum : Char → Bool

/-- `_SENSITIVE_VALIDATION_FIELDS`. -/
def sensitiveValidationFields : List String := ["tws_password", "tws_userid"]

/-- `_SENSITIVE_KEY_TOKENS`. -/
def sensitiveKeyTokens : List String := ["password", "passwd", "pwd", "secret", "user"]

/-- `_REDACTED`. -/
def redacted : Json := .str "***"

/-- A part of a location. -/
inductive LocPart
  | key (name : String)
  | index (i : ℕ)
deriving DecidableEq, Repr

section Keys

variable (env : TextEnv)

def isAsciiText (s : String) : Bool := s.toList.all fun c => decide (c.toNat < 0x80)

/-- `name.lower()`. -/
def lowered (name : String) : List Char :=
  if isAsciiText name then name.toList.map Char.toLower else (env.lower name).toList

/-- `ch.isalnum()`. -/
def isAlnum (c : Char) : Bool := if c.toNat < 0x80 then c.isAlphanum else env.isAlnum c

/-- `_is_sensitive_key` of a text. -/
def isSensitiveKey (name : String) : Bool :=
  decide (name ∈ sensitiveValidationFields) ||
    sensitiveKeyTokens.any fun tok =>
      PyText.contains tok.toList ((lowered env name).filter (isAlnum env))

/-- `_is_sensitive_key` of a part of a location. -/
def LocPart.isSensitive : LocPart → Bool
  | .key name => isSensitiveKey env name
  | .index _ => false

/-- `any(_is_sensitive_key(part) for part in loc)`. -/
def locIsSensitive (loc : List LocPart) : Bool := loc.any (LocPart.isSensitive env)

/-! ### Masking -/

mutual

/-- `_redact_validation_input`. -/
def redact (loc : List LocPart) : Json → Json
  | .obj fields => .obj (redactFields loc fields)
  | .arr items => .arr (redactItems loc items)
  | .null => if locIsSensitive env loc then redacted else .null
  | .bool b => if locIsSensitive env loc then redacted else .bool b
  | .num repr => if locIsSensitive env loc then redacted else .num repr
  | .str s => if locIsSensitive env loc then redacted else .str s

def redactItems (loc : List LocPart) : List Json → List Json
  | [] => []
  | v :: items => redact loc v :: redactItems loc items

def redactFields (loc : List LocPart) : List (String × Json) → List (String × Json)
  | [] => []
  | (k, v) :: fields =>
    (k, if isSensitiveKey env k then redacted else redact loc v) :: redactFields loc fields

end

/-- An error of `exc.errors()`, with its other entries. -/
structure ErrorItem where
  loc : List LocPart
  input : Option Json
  others : List (String × Json)

/-- `_masked_validation_handler`: the list under `detail`. -/
def maskedValidationHandler (errors : List ErrorItem) : List ErrorItem :=
  errors.map fun item => { item with input := item.input.map (redact env item.loc) }

end Keys

/-! ### Bodies -/

/-- The value at a path of a body. -/
def valueAt : List LocPart → Json → Option Json
  | [], v => some v
  | .key k :: path, .obj fields => (fields.lookup k).bind (valueAt path)
  | .index i :: path, .arr items => items[i]?.bind (valueAt path)
  | _ :: _, _ => none

/-- A body as it reaches the handler. -/
inductive Body
  | parsed (v : Json)
  | raw (text : String)

/-- An error of a parsed body.  Its input is the value at a path, and its location has the keys of
    the path: the location of a field that is missing has one more. -/
structure Site where
  loc : List LocPart
  path : List LocPart
  others : List (String × Json)
  named : ∀ k, .key k ∈ path → .key k ∈ loc

/-- The errors of a body; that of a text is at `("body",)`. -/
def errorsOf (sites : List Site) : Body → List ErrorItem
  | .parsed v => sites.map fun s => { loc := s.loc, input := valueAt s.path v, others := s.others }
  | .raw text => [{ loc := [.key "body"], input := some (.str text), others := [] }]

/-- The inputs that are echoed. -/
def echoed (env : TextEnv) (sites : List Site) (body : Body) : List (Option Json) :=
  (maskedValidationHandler env (errorsOf sites body)).map ErrorItem.input

/-- A value that has no parts. -/
def isScalar : Json → Bool
  | .obj _ | .arr _ => false
  | _ => true

section Relations

variable (env : TextEnv)

mutual

/-- **Twins**: the keys are the same, and so are the values that are under no sensitive key. -/
inductive Twins : Json → Json → Prop
  | scalar (v : Json) (h : isScalar v = true) : Twins v v
  | arr {a b : List Json} (h : TwinItems a b) : Twins (.arr a) (.arr b)
  | obj {f g : List (String × Json)} (h : TwinFields f g) : Twins (.obj f) (.obj g)

inductive TwinItems : List Json → List Json → Prop
  | nil : TwinItems [] []
  | cons {v w : Json} {a b : List Json} (h : Twins v w) (hrest : TwinItems a b) :
      TwinItems (v :: a) (w :: b)

inductive TwinFields : List (String × Json) → List (String × Json) → Prop
  | nil : TwinFields [] []
  | hidden {k : String} {v w : Json} {f g : List (String × Json)}
      (hk : isSensitiveKey env k = true) (hrest : TwinFields f g) :
      TwinFields ((k, v) :: f) ((k, w) :: g)
  | shown {k : String} {v w : Json} {f g : List (String × Json)}
      (hk : isSensitiveKey env k = false) (h : Twins v w) (hrest : TwinFields f g) :
      TwinFields ((k, v) :: f) ((k, w) :: g)

end

mutual

/-- The same keys, and lists of the same lengths, where no sensitive key stands above. -/
inductive SameShape : Json → Json → Prop
  | scalar {v w : Json} (hv : isScalar v = true) (hw : isScalar w = true) : SameShape v w
  | arr {a b : List Json} (h : SameItems a b) : SameShape (.arr a) (.arr b)
  | obj {f g : List (String × Json)} (h : SameFields f g) : SameShape (.obj f) (.obj g)

inductive SameItems : List Json → List Json → Prop
  | nil : SameItems [] []
  | cons {v w : Json} {a b : List Json} (h : SameShape v w) (hrest : SameItems a b) :
      SameItems (v :: a) (w :: b)

inductive SameFields : List (String × Json) → List (String × Json) → Prop
  | nil : SameFields [] []
  | hidden {k : String} {v w : Json} {f g : List (String × Json)}
      (hk : isSensitiveKey env k = true) (hrest : SameFields f g) :
      SameFields ((k, v) :: f) ((k, w) :: g)
  | shown {k : String} {v w : Json} {f g : List (String × Json)}
      (hk : isSensitiveKey env k = false) (h : SameShape v w) (hrest : SameFields f g) :
      SameFields ((k, v) :: f) ((k, w) :: g)

end

end Relations

mutual

/-- The keys of a value. -/
def keys : Json → List String
  | .obj fields => fieldKeys fields
  | .arr items => itemKeys items
  | _ => []

def itemKeys : List Json → List String
  | [] => []
  | v :: items => keys v ++ itemKeys items

def fieldKeys : List (String × Json) → List String
  | [] => []
  | (k, v) :: fields => k :: keys v ++ fieldKeys fields

end

mutual

/-- The parts of a value that have no parts. -/
def scalars : Json → List Json
  | .obj fields => fieldScalars fields
  | .arr items => itemScalars items
  | .null => [.null]
  | .bool b => [.bool b]
  | .num repr => [.num repr]
  | .str s => [.str s]

def itemScalars : List Json → List Json
  | [] => []
  | v :: items => scalars v ++ itemScalars items

def fieldScalars : List (String × Json) → List Json
  | [] => []
  | (_, v) :: fields => scalars v ++ fieldScalars fields

end

/-! ### What is masked -/

section Masking

variable {env : TextEnv} {loc : List LocPart}

theorem redact_scalar {v : Json} (hv : isScalar v = true) :
    redact env loc v = if locIsSensitive env loc then redacted else v := by
  cases v with
  | obj fields => cases hv
  | arr items => cases hv
  | null => rw [redact]
  | bool b => rw [redact]
  | num repr => rw [redact]
  | str s => rw [redact]

mutual

/-- **Twins are echoed alike.** -/
theorem redact_twins : ∀ {v w : Json}, Twins env v w → redact env loc v = redact env loc w
  | _, _, .scalar _ _ => rfl
  | _, _, .arr h => by rw [redact, redact, redactItems_twins h]
  | _, _, .obj h => by rw [redact, redact, redactFields_twins h]

theorem redactItems_twins : ∀ {a b : List Json}, TwinItems env a b →
    redactItems env loc a = redactItems env loc b
  | _, _, .nil => rfl
  | _, _, .cons h hrest => by rw [redactItems, redactItems, redact_twins h, redactItems_twins hrest]

theorem redactFields_twins : ∀ {f g : List (String × Json)}, TwinFields env f g →
    redactFields env loc f = redactFields env loc g
  | _, _, .nil => rfl
  | _, _, .hidden hk hrest => by
    rw [redactFields, redactFields, if_pos hk, if_pos hk, redactFields_twins hrest]
  | _, _, .shown hk h hrest => by
    rw [redactFields, redactFields, redact_twins h, redactFields_twins hrest]

end

mutual

/-- Under a sensitive location the shape is left of a value. -/
theorem redact_sameShape (hloc : locIsSensitive env loc = true) :
    ∀ {v w : Json}, SameShape env v w → redact env loc v = redact env loc w
  | _, _, .scalar hv hw => by rw [redact_scalar hv, redact_scalar hw, if_pos hloc, if_pos hloc]
  | _, _, .arr h => by rw [redact, redact, redactItems_sameShape hloc h]
  | _, _, .obj h => by rw [redact, redact, redactFields_sameShape hloc h]

theorem redactItems_sameShape (hloc : locIsSensitive env loc = true) :
    ∀ {a b : List Json}, SameItems env a b → redactItems env loc a = redactItems env loc b
  | _, _, .nil => rfl
  | _, _, .cons h hrest => by
    rw [redactItems, redactItems, redact_sameShape hloc h, redactItems_sameShape hloc hrest]

theorem redactFields_sameShape (hloc : locIsSensitive env loc = true) :
    ∀ {f g : List (String × Json)}, SameFields env f g →
      redactFields env loc f = redactFields env loc g
  | _, _, .nil => rfl
  | _, _, .hidden hk hrest => by
    rw [redactFields, redactFields, if_pos hk, if_pos hk, redactFields_sameShape hloc hrest]
  | _, _, .shown hk h hrest => by
    rw [redactFields, redactFields, redact_sameShape hloc h, redactFields_sameShape hloc hrest]

end

theorem redact_scalar_sensitive {v : Json} (hloc : locIsSensitive env loc = true)
    (hv : isScalar v = true) : redact env loc v = redacted := by
  rw [redact_scalar hv, if_pos hloc]

/-- What is masked as a scalar is a scalar. -/
theorem isScalar_of_redact {v : Json} (h : redact env loc v = redacted) : isScalar v = true := by
  cases v with
  | obj fields =>
    rw [redact] at h
    cases h
  | arr items =>
    rw [redact] at h
    cases h
  | null => rfl
  | bool b => rfl
  | num repr => rfl
  | str s => rfl

mutual

/-- And the shape is all that is left. -/
theorem sameShape_of_redact (hloc : locIsSensitive env loc = true) :
    ∀ {v w : Json}, redact env loc v = redact env loc w → SameShape env v w := by
  intro v w h
  by_cases hscalar : isScalar v = true
  · rw [redact_scalar_sensitive hloc hscalar] at h
    exact .scalar hscalar (isScalar_of_redact h.symm)
  · by_cases hscalar' : isScalar w = true
    · rw [redact_scalar_sensitive hloc hscalar'] at h
      exact absurd (isScalar_of_redact h) hscalar
    · match v, w, h with
      | .arr a, .arr b, h =>
        rw [redact, redact, Json.arr.injEq] at h
        exact .arr (sameItems_of_redact hloc h)
      | .obj f, .obj g, h =>
        rw [redact, redact, Json.obj.injEq] at h
        exact .obj (sameFields_of_redact hloc h)
      | .arr a, .obj g, h =>
        rw [redact, redact] at h
        cases h
      | .obj f, .arr b, h =>
        rw [redact, redact] at h
        cases h

theorem sameItems_of_redact (hloc : locIsSensitive env loc = true) :
    ∀ {a b : List Json}, redactItems env loc a = redactItems env loc b → SameItems env a b
  | [], [], _ => .nil
  | [], _ :: _, h => by
    rw [redactItems, redactItems] at h
    cases h
  | _ :: _, [], h => by
    rw [redactItems, redactItems] at h
    cases h
  | v :: a, w :: b, h => by
    rw [redactItems, redactItems, List.cons.injEq] at h
    exact .cons (sameShape_of_redact hloc h.1) (sameItems_of_redact hloc h.2)

theorem sameFields_of_redact (hloc : locIsSensitive env loc = true) :
    ∀ {f g : List (String × Json)}, redactFields env loc f = redactFields env loc g →
      SameFields env f g
  | [], [], _ => .nil
  | [], _ :: _, h => by
    rw [redactFields, redactFields] at h
    cases h
  | _ :: _, [], h => by
    rw [redactFields, redactFields] at h
    cases h
  | (k, v) :: f, (k', w) :: g, h => by
    rw [redactFields, redactFields, List.cons.injEq, Prod.mk.injEq] at h
    obtain ⟨⟨rfl, hvalue⟩, hrest⟩ := h
    cases hk : isSensitiveKey env k with
    | true => exact .hidden hk (sameFields_of_redact hloc hrest)
    | false =>
      simp only [hk, Bool.false_eq_true, if_false] at hvalue
      exact .shown hk (sameShape_of_redact hloc hvalue) (sameFields_of_redact hloc hrest)

end

/-! ### Bodies without sensitive keys -/

mutual

/-- Elsewhere such a value is left alone. -/
theorem redact_eq_self (hloc : locIsSensitive env loc = false) :
    ∀ {v : Json}, (∀ k ∈ keys v, isSensitiveKey env k = false) → redact env loc v = v
  | .obj fields, h => by rw [redact, redactFields_eq_self hloc h]
  | .arr items, h => by rw [redact, redactItems_eq_self hloc h]
  | .null, _ => by rw [redact, hloc, if_neg (by simp)]
  | .bool b, _ => by rw [redact, hloc, if_neg (by simp)]
  | .num repr, _ => by rw [redact, hloc, if_neg (by simp)]
  | .str s, _ => by rw [redact, hloc, if_neg (by simp)]

theorem redactItems_eq_self (hloc : locIsSensitive env loc = false) :
    ∀ {items : List Json}, (∀ k ∈ itemKeys items, isSensitiveKey env k = false) →
      redactItems env loc items = items
  | [], _ => rfl
  | v :: items, h => by
    obtain ⟨hv, hitems⟩ := List.forall_mem_append.mp h
    rw [redactItems, redact_eq_self hloc hv, redactItems_eq_self hloc hitems]

theorem redactFields_eq_self (hloc : locIsSensitive env loc = false) :
    ∀ {fields : List (String × Json)}, (∀ k ∈ fieldKeys fields, isSensitiveKey env k = false) →
      redactFields env loc fields = fields
  | [], _ => rfl
  | (k, v) :: fields, h => by
    obtain ⟨hk, h⟩ := List.forall_mem_cons.mp h
    obtain ⟨hv, hfields⟩ := List.forall_mem_append.mp h
    rw [redactFields, hk, redact_eq_self hloc hv, redactFields_eq_self hloc hfields]
    rfl

end

mutual

/-- Under a sensitive location it is left alone where its scalars are masked already. -/
theorem redact_eq_self_iff (hloc : locIsSensitive env loc = true) :
    ∀ {v : Json}, (∀ k ∈ keys v, isSensitiveKey env k = false) →
      (redact env loc v = v ↔ ∀ s ∈ scalars v, s = redacted)
  | .obj fields, h => by
    rw [redact, Json.obj.injEq, redactFields_eq_self_iff hloc h, scalars]
  | .arr items, h => by
    rw [redact, Json.arr.injEq, redactItems_eq_self_iff hloc h, scalars]
  | .null, _ => by rw [redact, if_pos hloc, scalars, List.forall_mem_singleton, eq_comm]
  | .bool b, _ => by rw [redact, if_pos hloc, scalars, List.forall_mem_singleton, eq_comm]
  | .num repr, _ => by rw [redact, if_pos hloc, scalars, List.forall_mem_singleton, eq_comm]
  | .str s, _ => by rw [redact, if_pos hloc, scalars, List.forall_mem_singleton, eq_comm]

theorem redactItems_eq_self_iff (hloc : locIsSensitive env loc = true) :
    ∀ {items : List Json}, (∀ k ∈ itemKeys items, isSensitiveKey env k = false) →
      (redactItems env loc items = items ↔ ∀ s ∈ itemScalars items, s = redacted)
  | [], _ => by simp [redactItems, itemScalars]
  | v :: items, h => by
    obtain ⟨hv, hitems⟩ := List.forall_mem_append.mp h
    rw [redactItems, List.cons.injEq, redact_eq_self_iff hloc hv,
      redactItems_eq_self_iff hloc hitems, itemScalars, List.forall_mem_append]

theorem redactFields_eq_self_iff (hloc : locIsSensitive env loc = true) :
    ∀ {fields : List (String × Json)}, (∀ k ∈ fieldKeys fields, isSensitiveKey env k = false) →
      (redactFields env loc fields = fields ↔ ∀ s ∈ fieldScalars fields, s = redacted)
  | [], _ => by simp [redactFields, fieldScalars]
  | (k, v) :: fields, h => by
    obtain ⟨hk, h⟩ := List.forall_mem_cons.mp h
    obtain ⟨hv, hfields⟩ := List.forall_mem_append.mp h
    have hvalue : (if isSensitiveKey env k then redacted else redact env loc v) =
        redact env loc v :=
      if_neg (by simp [hk])
    rw [redactFields, hvalue, List.cons.injEq, Prod.mk.injEq, redact_eq_self_iff hloc hv,
      redactFields_eq_self_iff hloc hfields, fieldScalars, List.forall_mem_append]
    exact and_congr_left fun _ => and_iff_right rfl

end

end Masking

/-! ### The handler -/

section Handler

variable {env : TextEnv} {loc path : List LocPart} {b b' x x' : Json}

/-- The fields of twins: what is found under a key is a twin, unless the key is sensitive. -/
theorem lookup_twins {f g : List (String × Json)} {k : String} (h : TwinFields env f g)
    (hk : isSensitiveKey env k = false) (hx : f.lookup k = some x) (hx' : g.lookup k = some x') :
    Twins env x x' := by
  induction f generalizing g with
  | nil => cases hx
  | cons p f ih =>
    cases h with
    | @hidden k' v w _ g hk' hrest =>
      have hne : (k == k') = false := by
        rw [beq_eq_false_iff_ne]
        rintro rfl
        exact absurd (hk.symm.trans hk') (by simp)
      rw [List.lookup_cons, hne] at hx hx'
      exact ih hrest hx hx'
    | @shown k' v w _ g hk' htwins hrest =>
      rw [List.lookup_cons] at hx hx'
      cases heq : k == k' with
      | true =>
        rw [heq] at hx hx'
        obtain rfl := Option.some.inj hx
        obtain rfl := Option.some.inj hx'
        exact htwins
      | false =>
        rw [heq] at hx hx'
        exact ih hrest hx hx'

theorem getElem_twins {a a' : List Json} {i : ℕ} (h : TwinItems env a a') (hx : a[i]? = some x)
    (hx' : a'[i]? = some x') : Twins env x x' := by
  induction a generalizing a' i with
  | nil => cases hx
  | cons v a ih =>
    cases h with
    | cons htwins hrest =>
      cases i with
      | zero =>
        obtain rfl := Option.some.inj hx
        obtain rfl := Option.some.inj hx'
        exact htwins
      | succ i => exact ih hrest hx hx'

/-- A scalar has no parts. -/
theorem valueAt_scalar {part : LocPart} (h : isScalar b = true) :
    valueAt (part :: path) b = none := by
  cases b with
  | obj fields => cases h
  | arr items => cases h
  | null => cases part <;> rfl
  | bool b => cases part <;> rfl
  | num repr => cases part <;> rfl
  | str s => cases part <;> rfl

/-- **Above the sensitive keys** the parts of twins are twins. -/
theorem valueAt_twins (h : Twins env b b')
    (hpath : ∀ k, .key k ∈ path → isSensitiveKey env k = false)
    (hx : valueAt path b = some x) (hx' : valueAt path b' = some x') : Twins env x x' := by
  induction path generalizing b b' with
  | nil =>
    obtain rfl := Option.some.inj hx
    obtain rfl := Option.some.inj hx'
    exact h
  | cons part path ih =>
    have hrest : ∀ k, .key k ∈ path → isSensitiveKey env k = false :=
      fun k hk => hpath k (List.mem_cons_of_mem _ hk)
    cases part with
    | key k =>
      cases h with
      | scalar v hv =>
        rw [valueAt_scalar hv] at hx
        cases hx
      | arr h => cases hx
      | obj h =>
        obtain ⟨y, hy, hx⟩ := Option.bind_eq_some_iff.mp hx
        obtain ⟨y', hy', hx'⟩ := Option.bind_eq_some_iff.mp hx'
        exact ih (lookup_twins h (hpath k List.mem_cons_self) hy hy') hrest hx hx'
    | index i =>
      cases h with
      | scalar v hv =>
        rw [valueAt_scalar hv] at hx
        cases hx
      | obj h => cases hx
      | arr h =>
        obtain ⟨y, hy, hx⟩ := Option.bind_eq_some_iff.mp hx
        obtain ⟨y', hy', hx'⟩ := Option.bind_eq_some_iff.mp hx'
        exact ih (getElem_twins h hy hy') hrest hx hx'

/-- The name of the body is not sensitive. -/
theorem locIsSensitive_body : locIsSensitive env [.key "body"] = false := by
  have hlower : lowered env "body" = "body".toList := by
    rw [lowered, if_pos (by decide)]
    decide
  have hfilter : "body".toList.filter (isAlnum env) = "body".toList := by
    refine List.filter_eq_self.mpr fun c hc => ?_
    have hplain : "body".toList.all (fun c => decide (c.toNat < 0x80 ∧ c.isAlphanum = true)) := by
      decide
    obtain ⟨hascii, halnum⟩ := of_decide_eq_true (List.all_eq_true.mp hplain c hc)
    rw [isAlnum, if_pos hascii]
    exact halnum
  have hkey : isSensitiveKey env "body" = false := by
    rw [isSensitiveKey, hlower, hfilter]
    decide
  simp [locIsSensitive, LocPart.isSensitive, hkey]

/-- A text is echoed as it is. -/
theorem echoed_raw {sites : List Site} {text : String} :
    echoed env sites (.raw text) = [some (.str text)] := by
  show [some (redact env [.key "body"] (.str text))] = _
  rw [redact, locIsSensitive_body, if_neg (by simp)]

/-- The input of one error, at a path that both bodies have. -/
theorem redact_site_iff {s : Site} (h : Twins env b b') (hx : valueAt s.path b = some x)
    (hx' : valueAt s.path b' = some x') :
    redact env s.loc x = redact env s.loc x' ↔
      (∀ k, .key k ∈ s.path → isSensitiveKey env k = false) ∨ SameShape env x x' := by
  by_cases hpath : ∀ k, .key k ∈ s.path → isSensitiveKey env k = false
  · exact iff_of_true (redact_twins (valueAt_twins h hpath hx hx')) (Or.inl hpath)
  · have hloc : locIsSensitive env s.loc = true := by
      simp only [not_forall, Bool.not_eq_false] at hpath
      obtain ⟨k, hk, hsensitive⟩ := hpath
      exact List.any_eq_true.mpr ⟨.key k, s.named k hk, hsensitive⟩
    rw [or_iff_right hpath]
    exact ⟨sameShape_of_redact hloc, redact_sameShape hloc⟩

/-- **What a validation error reveals.**  For parsed bodies the inputs are the same where no error
    is below a sensitive key or the values there have one shape; for texts they are the same where
    the texts are; and a body without sensitive keys is echoed as it is unless the location has such a
    key, and a scalar is not masked already. -/
theorem masked_input_iff (env : TextEnv) :
    (∀ b b', Twins env b b' → ∀ sites : List Site,
      (∀ s ∈ sites, (valueAt s.path b).isSome = true ∧ (valueAt s.path b').isSome = true) →
        (echoed env sites (.parsed b) = echoed env sites (.parsed b') ↔
          ∀ s ∈ sites, (∀ k, .key k ∈ s.path → isSensitiveKey env k = false) ∨
            ∀ x x', valueAt s.path b = some x → valueAt s.path b' = some x' →
              SameShape env x x')) ∧
      (∀ (text text' : String) (sites : List Site),
        echoed env sites (.raw text) = echoed env sites (.raw text') ↔ text = text') ∧
      ∀ v, (∀ k ∈ keys v, isSensitiveKey env k = false) → ∀ loc,
        (redact env loc v = v ↔
          locIsSensitive env loc = false ∨ ∀ s ∈ scalars v, s = redacted) := by
  refine ⟨fun b b' h sites hsites => ?_, fun text text' sites => ?_, fun v hv loc => ?_⟩
  · simp only [echoed, maskedValidationHandler, errorsOf, List.map_map, List.map_inj_left]
    refine forall₂_congr fun s hs => ?_
    obtain ⟨hsome, hsome'⟩ := hsites s hs
    obtain ⟨x, hx⟩ := Option.isSome_iff_exists.mp hsome
    obtain ⟨x', hx'⟩ := Option.isSome_iff_exists.mp hsome'
    show ((valueAt s.path b).map (redact env s.loc) =
      (valueAt s.path b').map (redact env s.loc)) ↔ _
    rw [hx, hx', Option.map_some, Option.map_some, Option.some.injEq, redact_site_iff h hx hx']
    refine or_congr_right ⟨fun hshape y y' hy hy' => ?_, fun hall => hall x x' rfl rfl⟩
    obtain rfl := Option.some.inj hy
    obtain rfl := Option.some.inj hy'
    exact hshape
  · rw [echoed_raw, echoed_raw, List.cons.injEq, Option.some.injEq, Json.str.injEq]
    exact and_iff_left rfl
  · cases hloc : locIsSensitive env loc with
    | false => exact iff_of_true (redact_eq_self hloc hv) (Or.inl rfl)
    | true =>
      rw [redact_eq_self_iff hloc hv]
      exact (or_iff_right (by simp)).symm

/-- `str.lower` and `str.isalnum` of texts in ASCII. -/
def asciiEnv : TextEnv := { lower := id, isAlnum := fun _ => false }

/-- A request with a password. -/
def passwordBody (password : String) : Json :=
  .obj [("ib_login_key", .str "lvp"), ("tws_password", .str password)]

theorem twins_password (p q : String) : Twins asciiEnv (passwordBody p) (passwordBody q) :=
  .obj (.shown (by decide) (.scalar _ rfl) (.hidden (by decide) .nil))

/-- An error of the whole body. -/
def bodySite : Site where
  loc := [.key "body"]
  path := []
  others := []
  named := fun _ h => absurd h List.not_mem_nil

/-- Two passwords, and a body without one. -/
theorem masked_input_iff_password :
    echoed asciiEnv [bodySite] (.parsed (passwordBody "hunter2")) =
        echoed asciiEnv [bodySite] (.parsed (passwordBody "swordfish")) ∧
      redact asciiEnv [.key "body"] (.obj [("ib_login_key", .str "lvp")]) =
        .obj [("ib_login_key", .str "lvp")] := by
  obtain ⟨hparsed, -, hplain⟩ := masked_input_iff asciiEnv
  constructor
  · refine (hparsed _ _ (twins_password "hunter2" "swordfish") [bodySite] ?_).mpr ?_
    · intro s hs
      rw [List.mem_singleton.mp hs]
      exact ⟨rfl, rfl⟩
    · intro s hs
      rw [List.mem_singleton.mp hs]
      exact Or.inl fun k hk => absurd hk List.not_mem_nil
  · refine (hplain _ ?_ _).mpr (Or.inl (by decide))
    intro k hk
    simp only [keys, fieldKeys, List.append_nil, List.mem_singleton] at hk
    rw [hk]
    decide

/-- The texts of two bodies that differ in the password only: the echo has the password. -/
theorem masked_input_fails :
    Twins asciiEnv (passwordBody "hunter2") (passwordBody "swordfish") ∧
      echoed asciiEnv [] (.raw (String.ofList (Json.dumps .spaced (passwordBody "hunter2")))) =
        [some (.str "\x7b\"ib_login_key\": \"lvp\", \"tws_password\": \"hunter2\"\x7d")] ∧
      echoed asciiEnv [] (.raw (String.ofList (Json.dumps .spaced (passwordBody "hunter2")))) ≠
        echoed asciiEnv []
          (.raw (String.ofList (Json.dumps .spaced (passwordBody "swordfish")))) := by
  have htext : String.ofList (Json.dumps .spaced (passwordBody "hunter2")) =
      "\x7b\"ib_login_key\": \"lvp\", \"tws_password\": \"hunter2\"\x7d" := by decide
  refine ⟨twins_password _ _, by rw [echoed_raw, htext], ?_⟩
  rw [echoed_raw, echoed_raw]
  intro h
  rw [List.cons.injEq, Option.some.injEq, Json.str.injEq] at h
  exact absurd h.1 (by decide)

end Handler

end Msai.Api.Redaction
