import FiveSpot.Model.Format

/-! # Merge patches under a schema

What is stored is merged with a patch, completed and checked. A patch whose fields the schema lets in is never turned down,
and completing adds defaults for what is still missing and nothing else.
-/

namespace FiveSpot

set_option autoImplicit false

open Json (Fields)

/-- A value the schema lets in, with every field named once. -/
structure Schema.Valid (schema : Schema) (v : Json) : Prop where
  accepted : schema.accepts v = true
  distinct : v.distinct = true

section

variable {schema : Schema} {properties : List Schema.Property} {base fields : Fields} {name : String} {v value : Json}

/-! ## Merging -/

theorem Json.nodup_mergeFields (h : (base.map Prod.fst).Nodup) : ((mergeFields base fields).map Prod.fst).Nodup := by
  induction fields generalizing base with
  | nil =>
    rw [mergeFields]
    exact h
  | cons field fields ih =>
    obtain ⟨other, value⟩ := field
    have hremoved : ((removeField other base).map Prod.fst).Nodup := (List.filter_sublist.map Prod.fst).nodup h
    rw [mergeFields]
    split
    · exact ih hremoved
    · refine ih (List.nodup_cons.mpr ⟨?_, hremoved⟩)
      intro hmem
      obtain ⟨field, hfield, hname⟩ := List.mem_map.mp hmem
      have hne := (List.mem_filter.mp hfield).2
      rw [hname, bne_self_eq_false] at hne
      cases hne

/-- A field of the merged object comes from the patch, merged with what stood there, or was there before. -/
theorem Json.mem_mergeFields (hbase : (base.map Prod.fst).Nodup) (hfields : (fields.map Prod.fst).Nodup)
    (hnull : ∀ field ∈ fields, field.2.isNull = false) (hmem : (name, value) ∈ mergeFields base fields) :
    (∃ v, (name, v) ∈ fields ∧ value = mergePatch (((Json.obj base).get name).getD .null) v) ∨ (name, value) ∈ base := by
  have hget := Schema.get_eq_some_of_mem (nodup_mergeFields hbase) hmem
  by_cases hname : name ∈ fields.map Prod.fst
  · obtain ⟨⟨_, v⟩, hfield, rfl⟩ := List.mem_map.mp hname
    rw [get_mergeFields_of_mem hfield hfields (hnull _ hfield), Option.some.injEq] at hget
    exact .inl ⟨v, hfield, hget.symm⟩
  · rw [get_mergeFields_of_not_mem hname] at hget
    exact .inr (Schema.mem_of_get_eq_some hget)

/-- A field of a patch that, merged with what stands there, is a value the property lets in. -/
def Schema.Merges (properties : List Property) (old : Json) (field : String × Json) : Prop :=
  ∃ presence schema, (field.1, presence, schema) ∈ properties ∧ field.2.isNull = false ∧
    schema.Valid (((old.get field.1).getD .null).mergePatch field.2)

theorem Schema.Valid.mergePatch (hnodup : (properties.map Prod.fst).Nodup) (hfields : (fields.map Prod.fst).Nodup) {old : Json}
    (hold : old = .null ∨ (Schema.object false properties).Valid old)
    (hmerges : ∀ field ∈ fields, Schema.Merges properties old field)
    (hrequired : old = .null → ∀ property ∈ properties, property.2.1.isRequired = true → property.1 ∈ fields.map Prod.fst) :
    (Schema.object false properties).Valid (old.mergePatch (.obj fields)) := by
  have hbase : ∃ base, (old = .obj base ∨ old = .null ∧ base = []) ∧ old.asObject.getD [] = base ∧
      (base.map Prod.fst).Nodup ∧ (∀ field ∈ base, field.2.distinct = true ∧ field.1 ∈ properties.map Prod.fst) := by
    rcases hold with rfl | hvalid
    · exact ⟨[], .inr ⟨rfl, rfl⟩, rfl, List.nodup_nil, nofun⟩
    · obtain ⟨haccepted, hdistinct⟩ := hvalid
      cases old with
      | obj base =>
        rw [Json.distinct, Bool.and_eq_true, decide_eq_true_eq, Json.distinctFields_iff] at hdistinct
        obtain ⟨hpreserve | hknown, -⟩ := Schema.accepts_object_iff.mp haccepted
        · cases hpreserve
        · exact ⟨base, .inl rfl, rfl, hdistinct.1, fun field hfield => ⟨hdistinct.2 field hfield, hknown field hfield⟩⟩
      | _ => cases haccepted
  obtain ⟨base, hcases, hobject, hnames, hall⟩ := hbase
  have hget : ∀ name, (Json.obj base).get name = old.get name := by
    intro name
    rw [← hobject, Json.get_asObject]
  have hnull : ∀ field ∈ fields, field.2.isNull = false := by
    intro field hfield
    obtain ⟨-, -, -, hnull, -⟩ := hmerges field hfield
    exact hnull
  rw [Json.mergePatch_obj, hobject]
  refine ⟨Schema.accepts_object_iff.mpr ⟨.inr ?_, ?_⟩, ?_⟩
  · rintro ⟨name, value⟩ hmem
    rcases Json.mem_mergeFields hnames hfields hnull hmem with ⟨v, hfield, -⟩ | hkept
    · obtain ⟨_, _, hproperty, -⟩ := hmerges _ hfield
      exact List.mem_map.mpr ⟨_, hproperty, rfl⟩
    · exact (hall _ hkept).2
  · rintro ⟨name, presence, schema⟩ hproperty
    by_cases hname : name ∈ fields.map Prod.fst
    · obtain ⟨⟨_, v⟩, hfield, rfl⟩ := List.mem_map.mp hname
      obtain ⟨presence', schema', hother, -, hvalid⟩ := hmerges _ hfield
      cases List.inj_on_of_nodup_map hnodup hproperty hother rfl
      rw [Json.get_mergeFields_of_mem hfield hfields (hnull _ hfield), hget]
      exact admits_some_of_accepts hvalid.accepted
    · rw [Json.get_mergeFields_of_not_mem hname]
      rcases hcases with rfl | ⟨rfl, rfl⟩
      · rcases hold with hold | hvalid
        · cases hold
        · exact Schema.admits_of_accepts hvalid.accepted hproperty
      · cases hrequires : presence.isRequired with
        | true => exact absurd (hrequired rfl _ hproperty hrequires) hname
        | false => exact congrArg (!·) hrequires
  · rw [Json.distinct, Bool.and_eq_true, decide_eq_true_eq, Json.distinctFields_iff]
    refine ⟨Json.nodup_mergeFields hnames, ?_⟩
    rintro ⟨name, value⟩ hmem
    rcases Json.mem_mergeFields hnames hfields hnull hmem with ⟨v, hfield, rfl⟩ | hkept
    · obtain ⟨_, _, -, -, hvalid⟩ := hmerges _ hfield
      rw [hget]
      exact hvalid.distinct
    · exact (hall _ hkept).1

/-- A value that is no object replaces what stands there. -/
theorem Schema.Merges.flat {old : Json} (hmem : ∃ presence, (name, presence, schema) ∈ properties)
    (hvalid : schema.Valid v) (hflat : v.asObject = none) : Schema.Merges properties old (name, v) := by
  obtain ⟨presence, hmem⟩ := hmem
  refine ⟨presence, schema, hmem, ?_, ?_⟩
  · cases v with
    | null =>
      have haccepted := hvalid.accepted
      rw [Schema.accepts_null] at haccepted
      cases haccepted
    | _ => rfl
  · rw [Json.mergePatch_of_asObject_eq_none hflat]
    exact hvalid

/-- The fields a record is written with, one by one. -/
theorem Json.forall_recordFields_cons {P : String × Json → Prop} {x : Option Json} {rest : List (String × Option Json)} :
    (∀ field ∈ recordFields ((name, x) :: rest), P field) ↔ (∀ v ∈ x, P (name, v)) ∧ ∀ field ∈ recordFields rest, P field := by
  cases x with
  | none => simp [recordFields]
  | some v => simp [recordFields]

/-! ## Completing -/

theorem stable_boolean : Schema.boolean.Stable := by
  intro v _ _
  cases v <;> rfl

theorem stable_integer (least greatest : Int) : (Schema.integer least greatest).Stable := by
  intro v _ _
  cases v <;> rfl

theorem stable_enum (values : List String) : (Schema.enum values).Stable := by
  intro v _ _
  cases v <;> rfl

theorem stable_array (h : schema.Stable) (greatest : Option Nat) : (Schema.array greatest schema).Stable := by
  intro v hdistinct haccepts
  cases v with
  | arr vs =>
    rw [Json.distinct, Json.distinctItems_iff] at hdistinct
    rw [Schema.accepts, Bool.and_eq_true, List.all_eq_true] at haccepts
    rw [Schema.complete]
    refine congrArg Json.arr ((List.map_congr_left fun v hv => ?_).trans (List.map_id vs))
    exact h v (hdistinct v hv) (haccepts.2 v hv)
  | _ => cases haccepts

theorem Presence.complete_of_admits {presence : Presence} {x : Option Json} (h : schema.Stable)
    (hadmits : presence.admits schema x = true) (hdistinct : ∀ v ∈ x, v.distinct = true) :
    presence.complete schema x = x.or presence.fallback := by
  cases x with
  | none => rfl
  | some v =>
    rw [Presence.admits] at hadmits
    rw [Presence.complete, Option.some_or]
    cases hnull : v.isNull with
    | true =>
      rw [eq_null_of_isNull hnull, Schema.accepts_null, Bool.or_false] at hadmits
      obtain ⟨hnullable, -⟩ := Bool.and_eq_true_iff.mp hadmits
      rw [hnullable, eq_null_of_isNull hnull, Schema.complete_null]
      rfl
    | false =>
      rw [hnull, Bool.and_false, Bool.false_or] at hadmits
      rw [h v (hdistinct v rfl) hadmits]
      rfl

/-- An object schema whose properties are stable and whose defaults are let in. -/
structure Schema.Sound (properties : List Property) : Prop where
  nodup : (properties.map Prod.fst).Nodup
  stable : ∀ property ∈ properties, property.2.2.Stable
  fallback : ∀ property ∈ properties, ∀ value ∈ property.2.1.fallback, property.2.2.Valid value

theorem Schema.Valid.get_complete (hsound : Schema.Sound properties) (h : (Schema.object false properties).Valid v)
    {presence : Presence} (hmem : (name, presence, schema) ∈ properties) :
    ((Schema.object false properties).complete v).get name = (v.get name).or presence.fallback := by
  have hadmits := Schema.admits_of_accepts h.accepted hmem
  have hdistinct := h.distinct
  cases v with
  | obj fields =>
    rw [Json.distinct, Bool.and_eq_true, decide_eq_true_eq] at hdistinct
    rw [Schema.get_complete hsound.nodup hdistinct.1 hmem]
    exact Presence.complete_of_admits (hsound.stable _ hmem) hadmits fun v hv => Json.distinct_get h.distinct hv
  | _ => cases h.accepted

theorem Schema.Valid.complete (hsound : Schema.Sound properties) (h : (Schema.object false properties).Valid v) :
    (Schema.object false properties).Valid ((Schema.object false properties).complete v) := by
  have hvalid := h
  obtain ⟨haccepted, hdistinct⟩ := h
  cases v with
  | obj fields =>
    have hkept := kept_of_accepts hsound.nodup hsound.stable hdistinct haccepted
    have hcomplete : (Schema.object false properties).complete (.obj fields) =
        .obj (fields ++ Schema.defaults properties (.obj fields)) := by
      rw [Schema.complete, hkept]
    obtain ⟨hknown, hadmits⟩ := Schema.accepts_object_iff.mp haccepted
    have hnames := hdistinct
    rw [Json.distinct, Bool.and_eq_true, decide_eq_true_eq, Json.distinctFields_iff] at hnames
    rw [hcomplete]
    refine ⟨Schema.accepts_object_iff.mpr ⟨.inr ?_, ?_⟩, ?_⟩
    · intro field hfield
      rcases List.mem_append.mp hfield with hold | hnew
      · rcases hknown with hpreserve | hknown
        · cases hpreserve
        · exact hknown field hold
      · obtain ⟨property, hproperty, hname, -⟩ := Schema.mem_defaults_iff.mp hnew
        exact List.mem_map.mpr ⟨property, hproperty, hname⟩
    · rintro ⟨name, presence, schema⟩ hproperty
      rw [← hcomplete, hvalid.get_complete hsound hproperty]
      have hadmit := hadmits _ hproperty
      dsimp only at hadmit
      cases hvalue : (Json.obj fields).get name with
      | some w => rwa [hvalue] at hadmit
      | none =>
        cases hfallback : presence.fallback with
        | none => rwa [hvalue] at hadmit
        | some value => exact admits_some_of_accepts (hsound.fallback _ hproperty value hfallback).accepted
    · have hdefault : ∀ field ∈ Schema.defaults properties (.obj fields),
          field.2.distinct = true ∧ field.1 ∉ fields.map Prod.fst := by
        rintro ⟨name, value⟩ hfield
        obtain ⟨⟨_, presence, schema⟩, hproperty, rfl, hnull, hvalue⟩ := Schema.mem_defaults_iff.mp hfield
        refine ⟨(hsound.fallback _ hproperty value hvalue).distinct, fun hmem => ?_⟩
        obtain ⟨⟨_, w⟩, hw, rfl⟩ := List.mem_map.mp hmem
        have hadmit := hadmits _ hproperty
        dsimp only at hadmit hvalue
        rw [Schema.get_eq_some_of_mem hnames.1 hw] at hadmit hnull
        rw [Presence.admits, eq_null_of_isNull hnull, Schema.accepts_null, Bool.or_false] at hadmit
        obtain ⟨hnullable, -⟩ := Bool.and_eq_true_iff.mp hadmit
        cases presence with
        | nullable => cases hvalue
        | _ => cases hnullable
      rw [Json.distinct, Bool.and_eq_true, decide_eq_true_eq, Json.distinctFields_iff, List.map_append]
      refine ⟨List.nodup_append.mpr ⟨hnames.1, Schema.nodup_defaults hsound.nodup _, ?_⟩, fun field hfield => ?_⟩
      · rintro name hold _ hnew rfl
        obtain ⟨field, hfield, rfl⟩ := List.mem_map.mp hnew
        exact (hdefault field hfield).2 hold
      · rcases List.mem_append.mp hfield with hold | hnew
        · exact hnames.2 field hold
        · exact (hdefault field hnew).1
  | _ => cases haccepted

end

end FiveSpot
