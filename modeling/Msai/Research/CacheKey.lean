import Msai.Lib.JsonKey

namespace Msai.Research

open Msai.Lib

/-!
# The key of a configuration (`services/research_engine.py`)

The search keeps the results of its trials under the JSON text of the configuration, and runs the
configuration itself.

* `ConfigValue`, `toJsonable`, `configCacheKey` — the values, their conversion, the key;
* `runnerConfig`, `SameConfig` — what the runner makes of a configuration, for its own conversion of
  the values;
* `WrittenAlike`, `toJsonable_eq_iff` — the values that the key takes for one;
* `cache_key_separates` — what two configurations with one key have in common.

Texts have no lone surrogates, and the keys of a dictionary are texts, as in the JSON of a request.
The values here have the texts of their numbers and of their dates, which the key is made of; those
of a sweep (`PyValue`) have the numbers themselves.
-/

/-! ### Values -/

inductive NonFinite
  | nan
  | inf
  | negInf
deriving DecidableEq, Repr

/-- A finite float, as `repr` writes it and no other number. -/
structure FiniteFloat where
  repr : String
  is_number : isNumberText repr = true
  is_float : '.' ∈ repr.toList ∨ 'e' ∈ repr.toList
deriving DecidableEq

/-- A value without items. A `Decimal` and a `Path` stand as their `str`, a `date` and a `datetime`
    as their `isoformat`. -/
inductive Scalar
  | none
  | bool (b : Bool)
  | int (n : ℤ)
  | float (x : FiniteFloat)
  | nonFinite (x : NonFinite)
  | str (s : String)
  | decimal (text : String)
  | date (text : String)
  | datetime (text : String)
  | path (text : String)
deriving DecidableEq

inductive SequenceKind
  | list
  | tuple
deriving DecidableEq, Repr

inductive ConfigValue
  | scalar (x : Scalar)
  | sequence (kind : SequenceKind) (items : List ConfigValue)
  | dict (fields : List (String × ConfigValue))

/-- The items of a `dict[str, Any]`. -/
abbrev Config := List (String × ConfigValue)

/-- `to_jsonable` of such a value, as `json.dumps` takes it. -/
def Scalar.toJsonable : Scalar → Json
  | .none => .null
  | .bool b => .bool b
  | .int n => .num (toString n)
  | .float x => .num x.repr
  | .nonFinite _ => .null
  | .str s => .str s
  | .decimal text => .str text
  | .date text => .str text
  | .datetime text => .str text
  | .path text => .str text

namespace ConfigValue

mutual

/-- `to_jsonable`. -/
def toJsonable : ConfigValue → Json
  | .scalar x => x.toJsonable
  | .sequence _ items => .arr (itemsToJsonable items)
  | .dict fields => .obj (fieldsToJsonable fields)

def itemsToJsonable : List ConfigValue → List Json
  | [] => []
  | v :: vs => v.toJsonable :: itemsToJsonable vs

def fieldsToJsonable : List (String × ConfigValue) → List (String × Json)
  | [] => []
  | (k, v) :: fields => (k, v.toJsonable) :: fieldsToJsonable fields

end

end ConfigValue

/-- `config_cache_key`. -/
def configCacheKey (config : Config) : String :=
  String.ofList ((ConfigValue.dict config).toJsonable.dumps .spaced)

/-! ### The runner -/

section Runner

variable (convert : Scalar → Json)

mutual

/-- The JSON that the runner makes of a value, where `convert` is its own conversion. -/
def runnerConfig : ConfigValue → Json
  | .scalar x => convert x
  | .sequence _ items => .arr (runnerItems items)
  | .dict fields => .obj (runnerFields fields)

def runnerItems : List ConfigValue → List Json
  | [] => []
  | v :: vs => runnerConfig v :: runnerItems vs

def runnerFields : List (String × ConfigValue) → List (String × Json)
  | [] => []
  | (k, v) :: fields => (k, runnerConfig v) :: runnerFields fields

end

/-- One strategy configuration: the order of the fields does not matter. -/
def SameConfig (a b : Config) : Prop :=
  (runnerConfig convert (.dict a)).sorted = (runnerConfig convert (.dict b)).sorted

end Runner

namespace ConfigValue

mutual

/-- The values in a value. -/
def scalars : ConfigValue → List Scalar
  | .scalar x => [x]
  | .sequence _ items => scalarsOfItems items
  | .dict fields => scalarsOfFields fields

def scalarsOfItems : List ConfigValue → List Scalar
  | [] => []
  | v :: vs => v.scalars ++ scalarsOfItems vs

def scalarsOfFields : List (String × ConfigValue) → List Scalar
  | [] => []
  | (_, v) :: fields => v.scalars ++ scalarsOfFields fields

end

mutual

/-- The fields of every dictionary sorted by key. -/
def sorted : ConfigValue → ConfigValue
  | .scalar x => .scalar x
  | .sequence kind items => .sequence kind (sortedItems items)
  | .dict fields => .dict ((sortedFields fields).insertionSort fun p q => p.1 ≤ q.1)

def sortedItems : List ConfigValue → List ConfigValue
  | [] => []
  | v :: vs => v.sorted :: sortedItems vs

def sortedFields : List (String × ConfigValue) → List (String × ConfigValue)
  | [] => []
  | (k, v) :: fields => (k, v.sorted) :: sortedFields fields

end

end ConfigValue

/-! ### Values that are written alike -/

namespace Scalar

/-- What is written as `null`. -/
def IsNull : Scalar → Prop
  | .none | .nonFinite _ => True
  | _ => False

/-- What is written as a string. -/
def text : Scalar → Option String
  | .str s | .decimal s | .date s | .datetime s | .path s => some s
  | _ => Option.none

/-- Two values that the key takes for one. -/
def WrittenAlike (x y : Scalar) : Prop :=
  x.IsNull ∧ y.IsNull ∨ ∃ s, x.text = some s ∧ y.text = some s

/-- No integer is written as a float is. -/
theorem toString_ne_repr (n : ℤ) (x : FiniteFloat) : toString n ≠ x.repr := by
  intro h
  rcases x.is_float with hmark | hmark
  · rw [← h] at hmark
    rcases mem_toString_int hmark with hc | hc
    · exact absurd hc (by decide)
    · exact absurd hc (by decide)
  · rw [← h] at hmark
    rcases mem_toString_int hmark with hc | hc
    · exact absurd hc (by decide)
    · exact absurd hc (by decide)

variable {x y : Scalar}

theorem isNull_iff : x.IsNull ↔ x.toJsonable = .null := by
  cases x <;> simp [IsNull, toJsonable]

theorem text_eq_some_iff {s : String} : x.text = some s ↔ x.toJsonable = .str s := by
  cases x <;> simp [text, toJsonable]

theorem eq_bool_of_toJsonable {b : Bool} (h : x.toJsonable = .bool b) : x = .bool b := by
  cases x with
  | bool b' => rw [Json.bool.inj h]
  | _ => exact nomatch h

theorem eq_int_of_toJsonable {n : ℤ} (h : x.toJsonable = .num (toString n)) : x = .int n := by
  cases x with
  | int m => rw [toString_int_inj.mp (Json.num.inj h)]
  | float f => exact absurd (Json.num.inj h).symm (toString_ne_repr n f)
  | _ => exact nomatch h

theorem eq_float_of_toJsonable {f : FiniteFloat} (h : x.toJsonable = .num f.repr) :
    x = .float f := by
  cases x with
  | int m => exact absurd (Json.num.inj h) (toString_ne_repr m f)
  | float g =>
    have hrepr := Json.num.inj h
    cases f
    cases g
    cases hrepr
    rfl
  | _ => exact nomatch h

/-- Other values are kept apart. -/
theorem toJsonable_eq_iff : x.toJsonable = y.toJsonable ↔ x = y ∨ WrittenAlike x y := by
  constructor
  · intro h
    have hnull : x.IsNull → x = y ∨ WrittenAlike x y := fun hx =>
      Or.inr (Or.inl ⟨hx, isNull_iff.mpr (h.symm.trans (isNull_iff.mp hx))⟩)
    have htext : ∀ s, x.text = some s → x = y ∨ WrittenAlike x y := fun s hx =>
      Or.inr (Or.inr ⟨s, hx, text_eq_some_iff.mpr (h.symm.trans (text_eq_some_iff.mp hx))⟩)
    cases x with
    | none => exact hnull trivial
    | nonFinite x => exact hnull trivial
    | bool b => exact Or.inl (eq_bool_of_toJsonable h.symm).symm
    | int n => exact Or.inl (eq_int_of_toJsonable h.symm).symm
    | float f => exact Or.inl (eq_float_of_toJsonable h.symm).symm
    | str s => exact htext s rfl
    | decimal s => exact htext s rfl
    | date s => exact htext s rfl
    | datetime s => exact htext s rfl
    | path s => exact htext s rfl
  · rintro (rfl | ⟨hx, hy⟩ | ⟨s, hx, hy⟩)
    · rfl
    · rw [isNull_iff.mp hx, isNull_iff.mp hy]
    · rw [text_eq_some_iff.mp hx, text_eq_some_iff.mp hy]

/-- The numbers are written as numbers, and nothing is sorted in a value without items. -/
theorem numbersOk_toJsonable (x : Scalar) : x.toJsonable.NumbersOk := by
  intro s hs
  cases x with
  | int n =>
    rw [List.mem_singleton.mp hs]
    exact isNumberText_int n
  | float f =>
    rw [List.mem_singleton.mp hs]
    exact f.is_number
  | _ => cases hs

theorem sorted_toJsonable (x : Scalar) : x.toJsonable.sorted = x.toJsonable := by
  cases x <;> rfl

end Scalar

/-! ### The JSON of a configuration -/

namespace ConfigValue

variable {convert : Scalar → Json} {v w : ConfigValue} {x : Scalar} {kind : SequenceKind}
  {items : List ConfigValue} {fields : List (String × ConfigValue)}

/-- Induction with the items of a list and the fields of a dictionary. -/
@[elab_as_elim]
theorem ind {P : ConfigValue → Prop} (scalar : ∀ x, P (.scalar x))
    (sequence : ∀ kind items, (∀ v ∈ items, P v) → P (.sequence kind items))
    (dict : ∀ fields : List (String × ConfigValue), (∀ p ∈ fields, P p.2) → P (.dict fields))
    (v : ConfigValue) : P v :=
  @ConfigValue.rec P (fun items => ∀ v ∈ items, P v) (fun fields => ∀ p ∈ fields, P p.2)
    (fun p => P p.2) scalar sequence dict nofun
    (fun _ _ hv hitems => List.forall_mem_cons.mpr ⟨hv, hitems⟩) nofun
    (fun _ _ hp hfields => List.forall_mem_cons.mpr ⟨hp, hfields⟩) (fun _ _ hv => hv) v

theorem runnerItems_eq_map : runnerItems convert items = items.map (runnerConfig convert) :=
  eq_map_of_cons rfl (fun _ _ => rfl) items

theorem runnerFields_eq_map :
    runnerFields convert fields = fields.map fun p => (p.1, runnerConfig convert p.2) :=
  eq_map_of_cons rfl (fun _ _ => rfl) fields

theorem itemsToJsonable_eq_map : itemsToJsonable items = items.map toJsonable :=
  eq_map_of_cons rfl (fun _ _ => rfl) items

theorem fieldsToJsonable_eq_map :
    fieldsToJsonable fields = fields.map fun p => (p.1, p.2.toJsonable) :=
  eq_map_of_cons rfl (fun _ _ => rfl) fields

theorem sortedItems_eq_map : sortedItems items = items.map sorted :=
  eq_map_of_cons rfl (fun _ _ => rfl) items

theorem sortedFields_eq_map : sortedFields fields = fields.map fun p => (p.1, p.2.sorted) :=
  eq_map_of_cons rfl (fun _ _ => rfl) fields

theorem scalarsOfItems_eq : scalarsOfItems items = items.flatMap scalars :=
  eq_flatMap_of_cons rfl (fun _ _ => rfl) items

theorem scalarsOfFields_eq : scalarsOfFields fields = fields.flatMap fun p => p.2.scalars :=
  eq_flatMap_of_cons rfl (fun _ _ => rfl) fields

theorem mem_scalars_sequence :
    x ∈ (ConfigValue.sequence kind items).scalars ↔ ∃ v ∈ items, x ∈ v.scalars := by
  rw [scalars, scalarsOfItems_eq, List.mem_flatMap]

theorem mem_scalars_dict :
    x ∈ (ConfigValue.dict fields).scalars ↔ ∃ p ∈ fields, x ∈ p.2.scalars := by
  rw [scalars, scalarsOfFields_eq, List.mem_flatMap]

theorem sorted_dict : sorted (.dict fields) =
    .dict ((fields.insertionSort fun p q => p.1 ≤ q.1).map fun p => (p.1, p.2.sorted)) := by
  rw [sorted, sortedFields_eq_map, sort_map sorted]

/-- The key's conversion is one that a runner might have. -/
theorem runnerConfig_toJsonable : runnerConfig Scalar.toJsonable v = v.toJsonable := by
  induction v using ConfigValue.ind with
  | scalar x => rfl
  | sequence kind items ih =>
    rw [runnerConfig, toJsonable, runnerItems_eq_map, itemsToJsonable_eq_map]
    exact congrArg _ (List.map_congr_left ih)
  | dict fields ih =>
    rw [runnerConfig, toJsonable, runnerFields_eq_map, fieldsToJsonable_eq_map]
    exact congrArg _ (List.map_congr_left fun p hp => congrArg (Prod.mk p.1) (ih p hp))

/-- The fields may be sorted before the conversion. -/
theorem sorted_runnerConfig : (runnerConfig convert v).sorted =
    runnerConfig (fun x => (convert x).sorted) v.sorted := by
  induction v using ConfigValue.ind with
  | scalar x => rfl
  | sequence kind items ih =>
    rw [runnerConfig, Json.sorted_arr, sorted, runnerConfig, runnerItems_eq_map,
      runnerItems_eq_map, sortedItems_eq_map, List.map_map, List.map_map]
    exact congrArg _ (List.map_congr_left ih)
  | dict fields ih =>
    rw [runnerConfig, Json.sorted_obj, sorted_dict, runnerConfig, runnerFields_eq_map,
      runnerFields_eq_map, sort_map (runnerConfig convert), List.map_map, List.map_map]
    refine congrArg _ (List.map_congr_left fun p hp => ?_)
    exact congrArg (Prod.mk p.1) (ih p ((List.mem_insertionSort _).mp hp))

theorem mem_scalars_sorted : x ∈ v.sorted.scalars ↔ x ∈ v.scalars := by
  induction v using ConfigValue.ind with
  | scalar y => rfl
  | sequence kind items ih =>
    rw [sorted, mem_scalars_sequence, mem_scalars_sequence, sortedItems_eq_map]
    simp only [List.mem_map, exists_exists_and_eq_and]
    exact exists_congr fun v => and_congr_right fun hv => ih v hv
  | dict fields ih =>
    rw [sorted_dict, mem_scalars_dict, mem_scalars_dict]
    simp only [List.mem_map, List.mem_insertionSort, exists_exists_and_eq_and]
    exact exists_congr fun p => and_congr_right fun hp => ih p hp

theorem toJsonable_scalar_ne_arr {values : List Json} : x.toJsonable ≠ .arr values := by
  cases x <;> exact fun h => nomatch h

theorem toJsonable_scalar_ne_obj {values : List (String × Json)} : x.toJsonable ≠ .obj values := by
  cases x <;> exact fun h => nomatch h

/-- **One JSON, one configuration of the runner**, if it converts alike what is written alike; by
    induction on the first of the two. -/
theorem runnerConfig_congr (hspecial : ∀ x ∈ v.scalars, ∀ y ∈ w.scalars,
      x.toJsonable = y.toJsonable → convert x = convert y)
    (h : runnerConfig Scalar.toJsonable v = runnerConfig Scalar.toJsonable w) :
    runnerConfig convert v = runnerConfig convert w := by
  induction v using ConfigValue.ind generalizing w with
  | scalar x =>
    cases w with
    | scalar y => exact hspecial x List.mem_cons_self y List.mem_cons_self h
    | sequence kind items => exact absurd h toJsonable_scalar_ne_arr
    | dict fields => exact absurd h toJsonable_scalar_ne_obj
  | sequence kind items ih =>
    cases w with
    | scalar y => exact absurd h.symm toJsonable_scalar_ne_arr
    | dict fields => cases h
    | sequence kind' items' =>
      have hitems := Json.arr.inj h
      rw [runnerItems_eq_map, runnerItems_eq_map] at hitems
      rw [runnerConfig, runnerConfig, runnerItems_eq_map, runnerItems_eq_map]
      refine congrArg _ (map_eq_map (fun v hv w hw heq => ih v hv (fun x hx y hy => ?_) heq) hitems)
      exact hspecial x (mem_scalars_sequence.mpr ⟨v, hv, hx⟩) y
        (mem_scalars_sequence.mpr ⟨w, hw, hy⟩)
  | dict fields ih =>
    cases w with
    | scalar y => exact absurd h.symm toJsonable_scalar_ne_obj
    | sequence kind items => cases h
    | dict fields' =>
      have hfields := Json.obj.inj h
      rw [runnerFields_eq_map, runnerFields_eq_map] at hfields
      rw [runnerConfig, runnerConfig, runnerFields_eq_map, runnerFields_eq_map]
      refine congrArg _ (map_eq_map (fun p hp q hq heq => ?_) hfields)
      obtain ⟨hkey, hvalue⟩ := Prod.mk.inj heq
      refine Prod.ext hkey (ih p hp (fun x hx y hy => ?_) hvalue)
      exact hspecial x (mem_scalars_dict.mpr ⟨p, hp, hx⟩) y (mem_scalars_dict.mpr ⟨q, hq, hy⟩)

theorem numbersOk_toJsonable : v.toJsonable.NumbersOk := by
  induction v using ConfigValue.ind with
  | scalar x => exact x.numbersOk_toJsonable
  | sequence kind items ih =>
    intro s hs
    rw [toJsonable, Json.numbers, Json.numbersOfItems_eq, itemsToJsonable_eq_map,
      List.mem_flatMap] at hs
    obtain ⟨_, hmem, hs⟩ := hs
    obtain ⟨v, hv, rfl⟩ := List.mem_map.mp hmem
    exact ih v hv s hs
  | dict fields ih =>
    intro s hs
    rw [toJsonable, Json.numbers, Json.numbersOfFields_eq, fieldsToJsonable_eq_map,
      List.mem_flatMap] at hs
    obtain ⟨_, hmem, hs⟩ := hs
    obtain ⟨p, hp, rfl⟩ := List.mem_map.mp hmem
    exact ih p hp s hs

end ConfigValue

/-! ### What a key says -/

section Key

variable {convert : Scalar → Json} {a b : Config}

/-- The key is that of the JSON form. -/
theorem configCacheKey_eq_iff : configCacheKey a = configCacheKey b ↔
    SameConfig Scalar.toJsonable a b := by
  have hsep : ∃ tail, Separators.spaced.item = ',' :: tail := ⟨[' '], rfl⟩
  rw [SameConfig, ConfigValue.runnerConfig_toJsonable, ConfigValue.runnerConfig_toJsonable,
    ← Json.dumps_eq_iff hsep ConfigValue.numbersOk_toJsonable ConfigValue.numbersOk_toJsonable]
  refine ⟨fun h => ?_, congrArg _⟩
  rw [← String.toList_ofList (l := (ConfigValue.dict a).toJsonable.dumps .spaced)]
  exact (congrArg String.toList h).trans String.toList_ofList

theorem sameConfig_congr
    (hspecial : ∀ x ∈ (ConfigValue.dict a).scalars, ∀ y ∈ (ConfigValue.dict b).scalars,
      x.WrittenAlike y → convert x = convert y)
    (h : SameConfig Scalar.toJsonable a b) : SameConfig convert a b := by
  unfold SameConfig at h ⊢
  rw [ConfigValue.sorted_runnerConfig, ConfigValue.sorted_runnerConfig] at h ⊢
  simp only [Scalar.sorted_toJsonable] at h
  refine ConfigValue.runnerConfig_congr (fun x hx y hy heq => ?_) h
  rcases Scalar.toJsonable_eq_iff.mp heq with rfl | halike
  · rfl
  · rw [hspecial x (ConfigValue.mem_scalars_sorted.mp hx) y (ConfigValue.mem_scalars_sorted.mp hy)
      halike]

end Key

/-- **Two configurations have one key exactly if they have one JSON form**, with non-finite floats
    as null and decimals, dates and paths as texts. Then they are one to the runner, unless it tells
    apart two of their values that are written alike. -/
theorem cache_key_separates (convert : Scalar → Json) (a b : Config) :
    (configCacheKey a = configCacheKey b ↔ SameConfig Scalar.toJsonable a b) ∧
    ((∀ x ∈ (ConfigValue.dict a).scalars, ∀ y ∈ (ConfigValue.dict b).scalars,
      x.WrittenAlike y → convert x = convert y) →
        configCacheKey a = configCacheKey b → SameConfig convert a b) :=
  ⟨configCacheKey_eq_iff, fun hspecial hkey =>
    sameConfig_congr hspecial (configCacheKey_eq_iff.mp hkey)⟩

/-- A conversion that keeps the non-finite floats apart, under the names that `json` has for
    them. -/
def Scalar.keptApart : Scalar → Json
  | .nonFinite .nan => .num "NaN"
  | .nonFinite .inf => .num "Infinity"
  | .nonFinite .negInf => .num "-Infinity"
  | x => x.toJsonable

def nanConfig : Config := [("threshold", .scalar (.nonFinite .nan))]

def noneConfig : Config := [("threshold", .scalar .none)]

/-- NaN and None have one key. -/
theorem cache_key_takes_nan_for_none : configCacheKey nanConfig = configCacheKey noneConfig ∧
    ¬ SameConfig Scalar.keptApart nanConfig noneConfig := by
  refine ⟨by decide, fun h => ?_⟩
  have hjson : Json.obj [("threshold", .num "NaN")] = .obj [("threshold", .null)] := h
  injection hjson with hfields
  cases hfields

def fastSlow : Config := [("fast", .scalar (.int 10)), ("slow", .scalar (.str "x"))]

def slowFast : Config := [("slow", .scalar (.str "x")), ("fast", .scalar (.int 10))]

theorem cache_key_separates_fast_slow : SameConfig Scalar.keptApart fastSlow slowFast := by
  refine (cache_key_separates Scalar.keptApart fastSlow slowFast).2 (fun x hx y hy h => ?_)
    (by decide)
  have hx' : x.keptApart = x.toJsonable := by
    rcases List.mem_pair.mp hx with rfl | rfl
    · rfl
    · rfl
  have hy' : y.keptApart = y.toJsonable := by
    rcases List.mem_pair.mp hy with rfl | rfl
    · rfl
    · rfl
  rw [hx', hy', Scalar.toJsonable_eq_iff.mpr (Or.inr h)]

example : configCacheKey fastSlow = "\x7b\"fast\": 10, \"slow\": \"x\"\x7d" := by decide

end Msai.Research
