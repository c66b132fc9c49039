import Mathlib.Data.List.Nodup
import FiveSpot.Model.Json

/-! # JSON merge patches

A patch that is an object is merged field by field, a `null` removes its field, and anything else
replaces what is there.
-/

namespace FiveSpot.Json

set_option autoImplicit false

abbrev Fields := List (String × Json)

def removeField (name : String) (fields : Fields) : Fields := fields.filter fun field => field.1 != name

def putField (name : String) (value : Json) (fields : Fields) : Fields := (name, value) :: removeField name fields

mutual

def mergePatch (target : Json) : Json → Json
  | .obj fields => .obj (mergeFields (target.asObject.getD []) fields)
  | .null => .null
  | .bool b => .bool b
  | .num n => .num n
  | .str s => .str s
  | .arr items => .arr items

def mergeFields (base : Fields) : Fields → Fields
  | [] => base
  | (name, value) :: rest =>
    if value.isNull then mergeFields (removeField name base) rest
    else mergeFields (putField name (mergePatch (((Json.obj base).get name).getD .null) value) base) rest

end

section

variable {name other : String} {value : Json} {base fields : Fields}

theorem get_cons (field : String × Json) (base : Fields) :
    (Json.obj (field :: base)).get name = if field.1 = name then some field.2 else (Json.obj base).get name := by
  by_cases h : field.1 = name <;> simp [get, h]

theorem get_removeField_of_ne (h : name ≠ other) : (Json.obj (removeField other base)).get name = (Json.obj base).get name := by
  induction base with
  | nil => rfl
  | cons field base ih =>
    rw [get_cons, removeField, List.filter_cons]
    by_cases hother : field.1 = other
    · have hname : field.1 ≠ name := fun heq => h (heq.symm.trans hother)
      rw [if_neg hname, if_neg (by simp [hother])]
      exact ih
    · rw [if_pos (by simp [hother]), get_cons]
      exact if_congr Iff.rfl rfl ih

theorem get_removeField_self : (Json.obj (removeField name base)).get name = none := by
  simp [get, removeField]

theorem get_putField_self : (Json.obj (putField name value base)).get name = some value := by
  rw [putField, get_cons, if_pos rfl]

theorem get_putField_of_ne (h : name ≠ other) :
    (Json.obj (putField other value base)).get name = (Json.obj base).get name := by
  rw [putField, get_cons, if_neg (Ne.symm h), get_removeField_of_ne h]

theorem get_mergeFields_of_not_mem (h : name ∉ fields.map Prod.fst) :
    (Json.obj (mergeFields base fields)).get name = (Json.obj base).get name := by
  induction fields generalizing base with
  | nil => rw [mergeFields]
  | cons field fields ih =>
    obtain ⟨other, value⟩ := field
    simp only [List.map_cons, List.mem_cons, not_or] at h
    rw [mergeFields]
    split
    · rw [ih h.2, get_removeField_of_ne h.1]
    · rw [ih h.2, get_putField_of_ne h.1]

theorem get_mergeFields_of_mem (hmem : (name, value) ∈ fields) (hnodup : (fields.map Prod.fst).Nodup)
    (hvalue : value.isNull = false) : (Json.obj (mergeFields base fields)).get name =
      some (mergePatch (((Json.obj base).get name).getD .null) value) := by
  induction fields generalizing base with
  | nil => cases hmem
  | cons field fields ih =>
    obtain ⟨other, value'⟩ := field
    simp only [List.map_cons, List.nodup_cons] at hnodup
    rw [mergeFields]
    rcases List.mem_cons.mp hmem with heq | hrest
    · cases heq
      rw [hvalue, if_neg Bool.false_ne_true, get_mergeFields_of_not_mem hnodup.1, get_putField_self]
    · have hne : name ≠ other := by
        rintro rfl
        exact hnodup.1 (List.mem_map_of_mem hrest)
      split
      · rw [ih hrest hnodup.2, get_removeField_of_ne hne]
      · rw [ih hrest hnodup.2, get_putField_of_ne hne]

theorem get_mergeFields_of_null (hmem : (name, .null) ∈ fields) (hnodup : (fields.map Prod.fst).Nodup) :
    (Json.obj (mergeFields base fields)).get name = none := by
  induction fields generalizing base with
  | nil => cases hmem
  | cons field fields ih =>
    obtain ⟨other, value⟩ := field
    simp only [List.map_cons, List.nodup_cons] at hnodup
    rw [mergeFields]
    rcases List.mem_cons.mp hmem with heq | hrest
    · cases heq
      rw [isNull, if_pos rfl, get_mergeFields_of_not_mem hnodup.1, get_removeField_self]
    · split
      · exact ih hrest hnodup.2
      · exact ih hrest hnodup.2

theorem get_mergeFields_congr {base' : Fields} (h : (Json.obj base).get name = (Json.obj base').get name) :
    (Json.obj (mergeFields base fields)).get name = (Json.obj (mergeFields base' fields)).get name := by
  induction fields generalizing base base' with
  | nil =>
    rw [mergeFields, mergeFields]
    exact h
  | cons field fields ih =>
    obtain ⟨other, value⟩ := field
    rw [mergeFields, mergeFields]
    by_cases hname : name = other
    · subst hname
      split
      · apply ih
        rw [get_removeField_self, get_removeField_self]
      · apply ih
        rw [get_putField_self, get_putField_self, h]
    · split
      · apply ih
        rw [get_removeField_of_ne hname, get_removeField_of_ne hname, h]
      · apply ih
        rw [get_putField_of_ne hname, get_putField_of_ne hname, h]

end

/-! ## Patches that are objects -/

section

variable {name : String} {doc doc' patch : Json}

def names (patch : Json) : List String := (patch.asObject.getD []).map Prod.fst

theorem get_asObject (doc : Json) (name : String) : (Json.obj (doc.asObject.getD [])).get name = doc.get name := by
  cases doc <;> rfl

theorem mergePatch_obj (doc : Json) (fields : Fields) :
    mergePatch doc (.obj fields) = .obj (mergeFields (doc.asObject.getD []) fields) := by
  rw [mergePatch]

theorem get_mergePatch_of_not_mem (hpatch : patch.asObject.isSome) (h : name ∉ patch.names) :
    (mergePatch doc patch).get name = doc.get name := by
  cases patch with
  | obj fields =>
    have hname : name ∉ fields.map Prod.fst := h
    rw [mergePatch_obj, get_mergeFields_of_not_mem hname, get_asObject]
  | _ => cases hpatch

theorem get_mergePatch_congr (hpatch : patch.asObject.isSome) (h : doc.get name = doc'.get name) :
    (mergePatch doc patch).get name = (mergePatch doc' patch).get name := by
  cases patch with
  | obj fields =>
    rw [mergePatch_obj, mergePatch_obj]
    apply get_mergeFields_congr
    rw [get_asObject, get_asObject, h]
  | _ => cases hpatch

theorem get_mergePatch_comm {other : Json} (hpatch : patch.asObject.isSome) (hother : other.asObject.isSome)
    (hdisjoint : List.Disjoint patch.names other.names) :
    (mergePatch (mergePatch doc patch) other).get name = (mergePatch (mergePatch doc other) patch).get name := by
  by_cases hname : name ∈ patch.names
  · have hfree : name ∉ other.names := hdisjoint hname
    rw [get_mergePatch_of_not_mem hother hfree]
    apply get_mergePatch_congr hpatch
    rw [get_mergePatch_of_not_mem hother hfree]
  · rw [get_mergePatch_of_not_mem hpatch hname]
    apply get_mergePatch_congr hother
    rw [get_mergePatch_of_not_mem hpatch hname]

/-- Among many patches only those that mention a field decide what becomes of it. -/
theorem get_foldl_mergePatch {α : Type} (f : α → Json) {items : List α} {keep : α → Bool}
    (hitems : ∀ x ∈ items, (f x).asObject.isSome) (hkeep : ∀ x ∈ items, keep x = false → name ∉ (f x).names)
    (h : doc.get name = doc'.get name) : ((items.map f).foldl mergePatch doc).get name =
      (((items.filter keep).map f).foldl mergePatch doc').get name := by
  induction items generalizing doc doc' with
  | nil => exact h
  | cons x items ih =>
    have hobj := hitems x (List.mem_cons_self ..)
    have hitems_rest : ∀ y ∈ items, (f y).asObject.isSome := fun y hy => hitems y (List.mem_cons_of_mem _ hy)
    have hkeep_rest : ∀ y ∈ items, keep y = false → name ∉ (f y).names :=
      fun y hy => hkeep y (List.mem_cons_of_mem _ hy)
    cases hk : keep x with
    | true =>
      rw [List.filter_cons_of_pos hk]
      exact ih hitems_rest hkeep_rest (get_mergePatch_congr hobj h)
    | false =>
      rw [List.filter_cons_of_neg (by simp [hk])]
      apply ih hitems_rest hkeep_rest
      rw [get_mergePatch_of_not_mem hobj (hkeep x (List.mem_cons_self ..) hk), h]

end

/-! ## Records

A struct is written as an object; a field that is `none` is skipped. -/

section

variable {name : String} {value : Option Json} {doc : Json} {fields : List (String × Option Json)}

def recordFields (fields : List (String × Option Json)) : Fields :=
  fields.filterMap fun field => field.2.map fun value => (field.1, value)

def record (fields : List (String × Option Json)) : Json := .obj (recordFields fields)

theorem mem_recordFields {v : Json} : (name, v) ∈ recordFields fields ↔ (name, some v) ∈ fields := by
  simp only [recordFields, List.mem_filterMap, Option.map_eq_some_iff, Prod.mk.injEq]
  constructor
  · rintro ⟨⟨n, value⟩, hfield, w, hw, rfl, rfl⟩
    exact hw ▸ hfield
  · intro h
    exact ⟨(name, some v), h, v, rfl, rfl, rfl⟩

theorem recordFields_sublist : ((recordFields fields).map Prod.fst).Sublist (fields.map Prod.fst) := by
  induction fields with
  | nil => exact .refl _
  | cons field fields ih =>
    obtain ⟨n, value⟩ := field
    cases value with
    | none => exact ih.cons n
    | some v => exact ih.cons_cons n

theorem get_mergePatch_record (hnodup : (fields.map Prod.fst).Nodup) (hmem : (name, value) ∈ fields)
    (hnull : ∀ v, value = some v → v.isNull = false) : (mergePatch doc (record fields)).get name =
      (value.map (mergePatch ((doc.get name).getD .null))).or (doc.get name) := by
  rw [record, mergePatch_obj]
  cases value with
  | some v =>
    rw [get_mergeFields_of_mem (mem_recordFields.mpr hmem) (recordFields_sublist.nodup hnodup) (hnull v rfl),
      get_asObject]
    rfl
  | none =>
    have hfree : name ∉ (recordFields fields).map Prod.fst := by
      intro h
      obtain ⟨⟨n, v⟩, hfield, rfl⟩ := List.mem_map.mp h
      have heq := List.inj_on_of_nodup_map hnodup (mem_recordFields.mp hfield) hmem rfl
      cases heq
    rw [get_mergeFields_of_not_mem hfree, get_asObject]
    rfl

theorem mergePatch_of_asObject_eq_none {v : Json} (h : v.asObject = none) : mergePatch doc v = v := by
  cases v with
  | obj fields => cases h
  | _ => rw [mergePatch]

theorem get_mergePatch_record_flat (hnodup : (fields.map Prod.fst).Nodup) (hmem : (name, value) ∈ fields)
    (hnull : ∀ v, value = some v → v.isNull = false) (hflat : ∀ v, value = some v → v.asObject = none) :
    (mergePatch doc (record fields)).get name = value.or (doc.get name) := by
  rw [get_mergePatch_record hnodup hmem hnull]
  cases value with
  | some v =>
    have hv : mergePatch ((doc.get name).getD .null) v = v := mergePatch_of_asObject_eq_none (hflat v rfl)
    rw [Option.map_some, hv, Option.some_or]
  | none => rfl

end

end FiveSpot.Json
