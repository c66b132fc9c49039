import FiveSpot.Model.MergePatch
import FiveSpot.Model.Patterns

/-! # Structural schemas

What an API server does with an object before it stores it: unknown fields are dropped, defaults are filled in, and the
result has to be accepted. A value that may not be null counts as missing when it is.
-/

namespace FiveSpot

set_option autoImplicit false

open Json (Fields record recordFields)

inductive Presence where
  | required
  | optional
  | nullable
  | default (value : Json)

def Presence.isRequired : Presence → Bool
  | .required => true
  | _ => false

def Presence.allowsNull : Presence → Bool
  | .nullable => true
  | _ => false

def Presence.fallback : Presence → Option Json
  | .default value => some value
  | _ => none

inductive Schema where
  | boolean
  | integer (least greatest : Int)
  | string (least : Nat) (greatest : Option Nat) (pattern : Option (RegularExpression Char))
  | enum (values : List String)
  | array (greatest : Option Nat) (items : Schema)
  | map (values : Schema)
  /-- Unknown fields are kept if `preserve` is set. -/
  | object (preserve : Bool) (properties : List (String × Presence × Schema))

namespace Schema

abbrev Property := String × Presence × Schema

mutual

def accepts : Schema → Json → Bool
  | .boolean, .bool _ => true
  | .integer least greatest, .num n => decide (least ≤ n) && decide (n ≤ greatest)
  | .string least greatest pattern, .str s =>
    decide (least ≤ s.length) && greatest.all (fun n => decide (s.length ≤ n)) && pattern.all (·.rmatch s.toList)
  | .enum values, .str s => values.contains s
  | .array greatest items, .arr vs => greatest.all (fun n => decide (vs.length ≤ n)) && vs.all (accepts items)
  | .map values, .obj fields => fields.all fun field => accepts values field.2
  | .object preserve properties, .obj fields =>
    (preserve || fields.all fun field => (properties.map Prod.fst).contains field.1) && acceptsAll properties (.obj fields)
  | _, _ => false

def acceptsAll : List Property → Json → Bool
  | [], _ => true
  | (name, presence, schema) :: rest, v =>
    (match v.get name with
      | none => !presence.isRequired
      | some value => presence.allowsNull && value.isNull || accepts schema value) && acceptsAll rest v

end

/-- The defaults of properties that are missing or null. -/
def defaults (properties : List Property) (v : Json) : Fields :=
  properties.filterMap fun property =>
    if (v.get property.1).all Json.isNull then property.2.1.fallback.map (property.1, ·) else none

mutual

def complete : Schema → Json → Json
  | .array _ items, .arr vs => .arr (vs.map (complete items))
  | .map values, .obj fields =>
    .obj (fields.filterMap fun field => if field.2.isNull then none else some (field.1, complete values field.2))
  | .object preserve properties, .obj fields =>
    .obj ((fields.filterMap fun field => (completeField properties preserve field.1 field.2).map (field.1, ·)) ++
      defaults properties (.obj fields))
  | _, v => v

def completeField : List Property → Bool → String → Json → Option Json
  | [], preserve, _, v => if preserve then some v else none
  | (other, presence, schema) :: rest, preserve, name, v =>
    if other = name then (if v.isNull && !presence.allowsNull then none else some (complete schema v))
    else completeField rest preserve name v

end

theorem accepts_null (schema : Schema) : schema.accepts .null = false := by
  cases schema <;> rfl

theorem complete_null (schema : Schema) : schema.complete .null = .null := by
  cases schema <;> rfl

theorem isNull_complete {schema : Schema} {v : Json} (h : v.isNull = false) : (schema.complete v).isNull = false := by
  cases v with
  | null => cases h
  | _ => cases schema <;> rfl

end Schema

/-! ## One property -/

namespace Presence

variable (presence : Presence) (schema : Schema)

def admits : Option Json → Bool
  | none => !presence.isRequired
  | some value => presence.allowsNull && value.isNull || schema.accepts value

def complete : Option Json → Option Json
  | none => presence.fallback
  | some value => if value.isNull && !presence.allowsNull then presence.fallback else some (schema.complete value)

end Presence

namespace Schema

section

variable {preserve : Bool} {properties : List Property} {fields : Fields} {name : String} {presence : Presence} {schema : Schema}

theorem acceptsAll_iff {v : Json} : acceptsAll properties v = true ↔
    ∀ property ∈ properties, property.2.1.admits property.2.2 (v.get property.1) = true := by
  induction properties with
  | nil => simp [acceptsAll]
  | cons property properties ih =>
    obtain ⟨name, presence, schema⟩ := property
    rw [acceptsAll, Bool.and_eq_true, ih, List.forall_mem_cons]
    refine and_congr_left fun _ => ?_
    cases v.get name <;> rfl

theorem accepts_object_iff : (Schema.object preserve properties).accepts (.obj fields) = true ↔
    (preserve = true ∨ ∀ field ∈ fields, field.1 ∈ properties.map Prod.fst) ∧
      ∀ property ∈ properties, property.2.1.admits property.2.2 ((Json.obj fields).get property.1) = true := by
  simp only [accepts, Bool.and_eq_true, Bool.or_eq_true, List.all_eq_true, List.contains_iff_mem, acceptsAll_iff]

theorem admits_of_accepts {v : Json} (h : (Schema.object preserve properties).accepts v = true)
    (hmem : (name, presence, schema) ∈ properties) : presence.admits schema (v.get name) = true := by
  cases v with
  | obj fields => exact (accepts_object_iff.mp h).2 _ hmem
  | _ => cases h

theorem completeField_of_mem (hnodup : (properties.map Prod.fst).Nodup) (hmem : (name, presence, schema) ∈ properties)
    (v : Json) : completeField properties preserve name v =
      if v.isNull && !presence.allowsNull then none else some (schema.complete v) := by
  induction properties with
  | nil => cases hmem
  | cons property properties ih =>
    obtain ⟨other, otherPresence, otherSchema⟩ := property
    obtain ⟨hfresh, hnodup⟩ := List.nodup_cons.mp hnodup
    rw [completeField]
    rcases List.mem_cons.mp hmem with heq | hrest
    · cases heq
      rw [if_pos rfl]
    · rw [if_neg, ih hnodup hrest]
      rintro rfl
      exact hfresh (List.mem_map.mpr ⟨_, hrest, rfl⟩)

theorem completeField_of_not_mem (h : name ∉ properties.map Prod.fst) (v : Json) :
    completeField properties preserve name v = if preserve then some v else none := by
  induction properties with
  | nil => rfl
  | cons property properties ih =>
    obtain ⟨other, presence, schema⟩ := property
    obtain ⟨hne, hrest⟩ := not_or.mp (mt List.mem_cons.mpr h)
    rw [completeField, if_neg (Ne.symm hne), ih hrest]

theorem get_append (fields more : Fields) (name : String) :
    (Json.obj (fields ++ more)).get name = ((Json.obj fields).get name).or ((Json.obj more).get name) := by
  rw [Json.get, Json.get, Json.get, List.find?_append]
  cases fields.find? fun field => field.1 == name <;> rfl

theorem get_eq_none_of_not_mem (h : name ∉ fields.map Prod.fst) : (Json.obj fields).get name = none := by
  rw [Json.get, Option.map_eq_none_iff, List.find?_eq_none]
  intro field hfield heq
  exact h (List.mem_map.mpr ⟨field, hfield, eq_of_beq heq⟩)

theorem mem_of_get_eq_some {value : Json} (h : (Json.obj fields).get name = some value) : (name, value) ∈ fields := by
  obtain ⟨field, hfield, rfl⟩ := Option.map_eq_some_iff.mp h
  have hname : field.1 = name := eq_of_beq (List.find?_some (p := fun field : String × Json => field.1 == name) hfield)
  exact hname ▸ List.mem_of_find?_eq_some hfield

theorem get_eq_some_of_mem (hnodup : (fields.map Prod.fst).Nodup) {value : Json} (hmem : (name, value) ∈ fields) :
    (Json.obj fields).get name = some value := by
  cases hget : (Json.obj fields).get name with
  | none =>
    rw [Json.get, Option.map_eq_none_iff, List.find?_eq_none] at hget
    exact absurd (beq_self_eq_true name) (hget _ hmem)
  | some other =>
    have heq := List.inj_on_of_nodup_map hnodup (mem_of_get_eq_some hget) hmem rfl
    cases heq
    rfl

theorem names_filterMap_sublist {α β : Type} {f : String × α → Option (String × β)}
    (hf : ∀ entry, ∀ kept ∈ f entry, kept.1 = entry.1) (entries : List (String × α)) :
    ((entries.filterMap f).map Prod.fst).Sublist (entries.map Prod.fst) := by
  induction entries with
  | nil => exact .refl _
  | cons entry entries ih =>
    rw [List.filterMap_cons]
    split
    · exact ih.cons _
    · rename_i kept hkept
      rw [List.map_cons, List.map_cons, hf entry kept hkept]
      exact ih.cons_cons _

theorem mem_defaults_iff {v value : Json} : (name, value) ∈ defaults properties v ↔
    ∃ property ∈ properties, property.1 = name ∧ (v.get name).all Json.isNull = true ∧ property.2.1.fallback = some value := by
  simp only [defaults, List.mem_filterMap, Option.ite_none_right_eq_some, Option.map_eq_some_iff, Prod.mk.injEq]
  constructor
  · rintro ⟨property, hmem, hnull, value, hvalue, rfl, rfl⟩
    exact ⟨property, hmem, rfl, hnull, hvalue⟩
  · rintro ⟨property, hmem, rfl, hnull, hvalue⟩
    exact ⟨property, hmem, hnull, value, hvalue, rfl, rfl⟩

theorem nodup_defaults (hnodup : (properties.map Prod.fst).Nodup) (v : Json) : ((defaults properties v).map Prod.fst).Nodup := by
  refine (names_filterMap_sublist (fun property kept hkept => ?_) properties).nodup hnodup
  obtain ⟨-, hkept⟩ := Option.ite_none_right_eq_some.mp hkept
  obtain ⟨_, -, rfl⟩ := Option.map_eq_some_iff.mp hkept
  rfl

theorem get_defaults (hnodup : (properties.map Prod.fst).Nodup) (hmem : (name, presence, schema) ∈ properties) (v : Json) :
    (Json.obj (defaults properties v)).get name = if (v.get name).all Json.isNull then presence.fallback else none := by
  have honly : ∀ value, (name, value) ∈ defaults properties v →
      (v.get name).all Json.isNull = true ∧ presence.fallback = some value := by
    intro value h
    obtain ⟨property, hproperty, hname, hnull, hvalue⟩ := mem_defaults_iff.mp h
    have heq := List.inj_on_of_nodup_map hnodup hproperty hmem hname
    rw [heq] at hvalue
    exact ⟨hnull, hvalue⟩
  cases hget : (Json.obj (defaults properties v)).get name with
  | some value =>
    obtain ⟨hnull, hvalue⟩ := honly value (mem_of_get_eq_some hget)
    rw [if_pos hnull, hvalue]
  | none =>
    split
    · rename_i hnull
      cases hfallback : presence.fallback with
      | none => rfl
      | some value =>
        have hvalue : (name, value) ∈ defaults properties v := mem_defaults_iff.mpr ⟨_, hmem, rfl, hnull, hfallback⟩
        rw [get_eq_some_of_mem (nodup_defaults hnodup v) hvalue] at hget
        cases hget
    · rfl

/-- The fields of an object that are kept, each on its own. -/
theorem get_kept (hfields : (fields.map Prod.fst).Nodup) (name : String) :
    (Json.obj (fields.filterMap fun field => (completeField properties preserve field.1 field.2).map (field.1, ·))).get name =
      ((Json.obj fields).get name).bind (completeField properties preserve name) := by
  have hsub : ((fields.filterMap fun field =>
      (completeField properties preserve field.1 field.2).map (field.1, ·)).map Prod.fst).Sublist (fields.map Prod.fst) := by
    refine names_filterMap_sublist (fun field kept hkept => ?_) fields
    obtain ⟨_, -, rfl⟩ := Option.map_eq_some_iff.mp hkept
    rfl
  cases hget : (Json.obj fields).get name with
  | none =>
    refine get_eq_none_of_not_mem fun h => ?_
    obtain ⟨⟨_, v⟩, hfield, rfl⟩ := List.mem_map.mp (hsub.subset h)
    rw [get_eq_some_of_mem hfields hfield] at hget
    cases hget
  | some v =>
    rw [Option.bind_some]
    cases hkeep : completeField properties preserve name v with
    | some kept =>
      refine get_eq_some_of_mem (hsub.nodup hfields) (List.mem_filterMap.mpr ⟨_, mem_of_get_eq_some hget, ?_⟩)
      rw [hkeep, Option.map_some]
    | none =>
      cases hother : (Json.obj (fields.filterMap fun field =>
          (completeField properties preserve field.1 field.2).map (field.1, ·))).get name with
      | none => rfl
      | some kept =>
        obtain ⟨⟨other, w⟩, hfield, hmap⟩ := List.mem_filterMap.mp (mem_of_get_eq_some hother)
        obtain ⟨x, hx, hpair⟩ := Option.map_eq_some_iff.mp hmap
        cases hpair
        cases List.inj_on_of_nodup_map hfields hfield (mem_of_get_eq_some hget) rfl
        rw [hkeep] at hx
        cases hx

/-- A completed object has of each property what the property makes of it. -/
theorem get_complete (hnodup : (properties.map Prod.fst).Nodup) (hfields : (fields.map Prod.fst).Nodup)
    (hmem : (name, presence, schema) ∈ properties) :
    ((Schema.object preserve properties).complete (.obj fields)).get name =
      presence.complete schema ((Json.obj fields).get name) := by
  rw [complete, get_append, get_kept hfields, get_defaults hnodup hmem]
  cases (Json.obj fields).get name with
  | none => rfl
  | some v =>
    rw [Option.bind_some, Option.all_some, Presence.complete, completeField_of_mem hnodup hmem]
    cases hnull : v.isNull with
    | false => rfl
    | true => cases presence <;> rfl

theorem get_complete_of_not_mem (hfields : (fields.map Prod.fst).Nodup) (hname : name ∉ properties.map Prod.fst) :
    ((Schema.object true properties).complete (.obj fields)).get name = (Json.obj fields).get name := by
  have hdefaults : (Json.obj (defaults properties (.obj fields))).get name = none := by
    refine get_eq_none_of_not_mem fun h => ?_
    obtain ⟨⟨_, value⟩, hfield, rfl⟩ := List.mem_map.mp h
    obtain ⟨property, hproperty, heq, -⟩ := mem_defaults_iff.mp hfield
    exact hname (List.mem_map.mpr ⟨property, hproperty, heq⟩)
  rw [complete, get_append, get_kept hfields, hdefaults, Option.or_none]
  cases (Json.obj fields).get name with
  | none => rfl
  | some v => rw [Option.bind_some, completeField_of_not_mem hname, if_pos rfl]

end

end Schema

end FiveSpot
