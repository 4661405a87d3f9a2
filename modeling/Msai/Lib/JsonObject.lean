import Msai.Lib.Dict
import Msai.Lib.JsonKey

namespace Msai.Lib.Json

/-!
# The text of an object

* `dumps_obj_eq_iff_get` — two objects without double keys have one text exactly if they have the
  same keys with the same values, where values count as the same up to the order of their own
  fields;
* `dumps_obj_cancel` — the text of an object ends by itself, whatever follows.
-/

variable {sep : Separators} {fields fields' : List (String × Json)} {r r' : List Char}

/-- The fields with sorted values. -/
def sortedValues (fields : List (String × Json)) : List (String × Json) :=
  fields.map fun p => (p.1, p.2.sorted)

theorem keys_sortedValues : Dict.keys (sortedValues fields) = Dict.keys fields := by
  rw [Dict.keys, sortedValues, List.map_map]
  rfl

theorem get_sortedValues (k : String) :
    Dict.get (sortedValues fields) k = (Dict.get fields k).map sorted :=
  Dict.get_map

/-- Lists without double keys that have the same values are permutations of one another. -/
theorem perm_of_get {d d' : List (String × Json)} (hd : (Dict.keys d).Nodup)
    (hd' : (Dict.keys d').Nodup) (h : ∀ k, Dict.get d k = Dict.get d' k) : d.Perm d' := by
  refine (List.perm_ext_iff_of_nodup hd.of_map hd'.of_map).mpr ?_
  rintro ⟨k, v⟩
  rw [Dict.mem_iff_get hd, Dict.mem_iff_get hd', h]

theorem get_of_perm {d d' : List (String × Json)} (hd : (Dict.keys d).Nodup) (h : d.Perm d')
    (k : String) : Dict.get d k = Dict.get d' k := by
  have hd' : (Dict.keys d').Nodup := (h.map Prod.fst).nodup_iff.mp hd
  refine Option.ext fun v => ?_
  rw [← Dict.mem_iff_get hd, ← Dict.mem_iff_get hd', h.mem_iff]

/-- **The text of an object is that of its dictionary.** -/
theorem dumps_obj_eq_iff_get (hsep : ∃ tail, sep.item = ',' :: tail)
    (hv : (Json.obj fields).NumbersOk) (hw : (Json.obj fields').NumbersOk)
    (hkeys : (Dict.keys fields).Nodup) (hkeys' : (Dict.keys fields').Nodup) :
    (Json.obj fields).dumps sep = (Json.obj fields').dumps sep ↔
      ∀ k, (Dict.get fields k).map sorted = (Dict.get fields' k).map sorted := by
  have hnodup : (Dict.keys (sortedValues fields)).Nodup := by
    rwa [keys_sortedValues]
  have hnodup' : (Dict.keys (sortedValues fields')).Nodup := by
    rwa [keys_sortedValues]
  rw [dumps_eq_iff hsep hv hw, sorted_obj, sorted_obj, ← sort_map sorted, ← sort_map sorted]
  constructor
  · intro h k
    injection h with hsorted
    have hperm : (sortedValues fields).Perm (sortedValues fields') := by
      calc (sortedValues fields).Perm _ := (List.perm_insertionSort _ _).symm
        _ = (sortedValues fields').insertionSort fun p q => p.1 ≤ q.1 := hsorted
        List.Perm _ (sortedValues fields') := List.perm_insertionSort _ _
    rw [← get_sortedValues, ← get_sortedValues, get_of_perm hnodup hperm]
  · intro h
    have hperm : (sortedValues fields).Perm (sortedValues fields') := by
      refine perm_of_get hnodup hnodup' fun k => ?_
      rw [get_sortedValues, get_sortedValues, h]
    have hranked : rankBy Prod.fst (sortedValues fields) =
        rankBy Prod.fst (sortedValues fields') :=
      rankBy_eq_of_perm hperm fun p hp q hq hkey => List.inj_on_of_nodup_map hnodup' hp hq hkey
    exact congrArg Json.obj hranked

/-- **The text of an object ends by itself.** -/
theorem dumps_obj_cancel (hsep : ∃ tail, sep.item = ',' :: tail)
    (hv : (Json.obj fields).NumbersOk) (hw : (Json.obj fields').NumbersOk)
    (h : (Json.obj fields).dumps sep ++ r = (Json.obj fields').dumps sep ++ r') :
    (Json.obj fields).dumps sep = (Json.obj fields').dumps sep ∧ r = r' := by
  have htext := h
  rw [dumps_obj, dumps_obj] at h
  simp only [List.cons_append, List.append_assoc, List.nil_append, List.cons.injEq,
    true_and] at h
  have hfield : ∀ p ∈ fields.insertionSort fun p q => p.1 ≤ q.1,
      ∀ q ∈ fields'.insertionSort fun p q => p.1 ≤ q.1,
        Parted (fieldText sep) (fun p => (p.1, p.2.sorted)) p q := by
    intro p hp q hq
    have hp := (List.mem_insertionSort _).mp hp
    have hq := (List.mem_insertionSort _).mp hq
    exact parted_field (parted_dumps hsep (hv.field hp) (hw.field hq))
  obtain ⟨_, hrest⟩ := joined_cancel hsep (Or.inr rfl) fieldText_start fieldText_start hfield h
  rw [hrest] at htext
  exact ⟨List.append_cancel_right htext, hrest⟩

end Msai.Lib.Json
