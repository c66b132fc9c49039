import Mathlib.Data.String.Basic
import Mathlib.Logic.Equiv.Defs
import FiveSpot.Model.Schema

/-! # Formats

The values of a type travel as JSON: a schema says what is let in, a reader makes a value of it, and a writer puts a value
into it. In a format the three agree about the values that fit.
-/

namespace FiveSpot

set_option autoImplicit false

open Json (Fields record recordFields)

mutual

/-- No object names a field twice. -/
def Json.distinct : Json → Bool
  | .arr items => distinctItems items
  | .obj fields => decide (fields.map Prod.fst).Nodup && distinctFields fields
  | _ => true

def Json.distinctItems : List Json → Bool
  | [] => true
  | v :: rest => v.distinct && distinctItems rest

def Json.distinctFields : List (String × Json) → Bool
  | [] => true
  | (_, v) :: rest => v.distinct && distinctFields rest

end

theorem Json.distinctItems_iff {items : List Json} : distinctItems items = true ↔ ∀ v ∈ items, v.distinct = true := by
  induction items with
  | nil => simp [distinctItems]
  | cons v rest ih => rw [distinctItems, Bool.and_eq_true, ih, List.forall_mem_cons]

theorem Json.distinctFields_iff {fields : Fields} :
    distinctFields fields = true ↔ ∀ field ∈ fields, field.2.distinct = true := by
  induction fields with
  | nil => simp [distinctFields]
  | cons field rest ih =>
    obtain ⟨name, v⟩ := field
    rw [distinctFields, Bool.and_eq_true, ih, List.forall_mem_cons]

theorem Json.distinct_get {v w : Json} {name : String} (h : v.distinct = true) (hw : v.get name = some w) :
    w.distinct = true := by
  cases v with
  | obj fields =>
    rw [distinct, Bool.and_eq_true, distinctFields_iff] at h
    exact h.2 _ (Schema.mem_of_get_eq_some hw)
  | _ => cases hw

/-- What the server stores: a value that it accepts after it has completed it. -/
structure Schema.Stores (schema : Schema) (v : Json) : Prop where
  sent : ∃ sent, schema.complete sent = v
  distinct : v.distinct = true
  accepted : schema.accepts v = true

abbrev Reader (α : Type) := Json → Option α

/-- `read` and `write` speak the language of the schema. The schema lets in what is read as a value that fits, and such a
value is written so that it is let in, stored as it is and read again. Completing a text changes what it is read as by
`settle` only. -/
structure Format {α : Type} (schema : Schema) (read : Reader α) (write : α → Json) (Fits : α → Prop) (settle : α → α) :
    Prop where
  reads : ∀ v, v.distinct = true → schema.accepts v = true → ∃ a, read v = some a ∧ Fits a
  distinct : ∀ a, Fits a → (write a).distinct = true
  accepts : ∀ a, Fits a → schema.accepts (write a) = true
  complete : ∀ a, Fits a → schema.complete (write a) = write a
  back : ∀ a, Fits a → read (write a) = some a
  settles : ∀ v a, v.distinct = true → schema.accepts (schema.complete v) = true → read v = some a →
    read (schema.complete v) = some (settle a)

section

variable {α β : Type} {schema : Schema} {read : Reader α} {write : α → Json} {Fits : α → Prop} {settle : α → α}

theorem Format.readable (h : Format schema read write Fits settle) {v : Json} (hv : schema.Stores v) : ∃ a, read v = some a := by
  obtain ⟨a, ha, -⟩ := h.reads v hv.distinct hv.accepted
  exact ⟨a, ha⟩

/-! ## Schemas that leave alone what they accept -/

def Schema.Stable (schema : Schema) : Prop := ∀ v : Json, v.distinct = true → schema.accepts v = true → schema.complete v = v

theorem stable_string (least : Nat) (greatest : Option Nat) (pattern : Option (RegularExpression Char)) :
    (Schema.string least greatest pattern).Stable := by
  intro v _ _
  cases v <;> rfl

theorem stable_map (h : schema.Stable) : (Schema.map schema).Stable := by
  intro v hdistinct haccepts
  cases v with
  | obj fields =>
    rw [Json.distinct, Bool.and_eq_true, Json.distinctFields_iff] at hdistinct
    have hkept : ∀ field ∈ fields, (if field.2.isNull then none else some (field.1, schema.complete field.2)) = some field := by
      intro field hfield
      have haccepted := List.all_eq_true.mp haccepts field hfield
      have hnull : field.2.isNull = false := by
        cases hvalue : field.2 with
        | null =>
          rw [hvalue, Schema.accepts_null] at haccepted
          cases haccepted
        | _ => rfl
      rw [hnull, if_neg Bool.false_ne_true, h field.2 (hdistinct.2 field hfield) haccepted]
    rw [Schema.complete, List.filterMap_congr hkept, List.filterMap_some]
  | _ => cases haccepts

/-- What an object schema with stable properties lets in keeps all its fields. -/
theorem kept_of_accepts {preserve : Bool} {properties : List Schema.Property} {fields : Fields}
    (hnodup : (properties.map Prod.fst).Nodup) (h : ∀ property ∈ properties, property.2.2.Stable)
    (hdistinct : (Json.obj fields).distinct = true) (haccepts : (Schema.object preserve properties).accepts (.obj fields) = true) :
    (fields.filterMap fun field => (Schema.completeField properties preserve field.1 field.2).map (field.1, ·)) = fields := by
  rw [Json.distinct, Bool.and_eq_true, decide_eq_true_eq, Json.distinctFields_iff] at hdistinct
  obtain ⟨hknown, hadmits⟩ := Schema.accepts_object_iff.mp haccepts
  have hkept : ∀ field ∈ fields,
      (Schema.completeField properties preserve field.1 field.2).map (field.1, ·) = some field := by
    intro field hfield
    by_cases hname : field.1 ∈ properties.map Prod.fst
    · obtain ⟨⟨name, presence, schema⟩, hmem, rfl⟩ := List.mem_map.mp hname
      have hadmit := hadmits _ hmem
      rw [Schema.get_eq_some_of_mem hdistinct.1 hfield, Presence.admits] at hadmit
      rw [Schema.completeField_of_mem hnodup hmem]
      cases hnull : field.2.isNull with
      | true =>
        cases hvalue : field.2 with
        | null =>
          rw [hvalue, Schema.accepts_null, Bool.or_false] at hadmit
          obtain ⟨hnullable, -⟩ := Bool.and_eq_true_iff.mp hadmit
          rw [hnullable, Schema.complete_null, ← hvalue]
          rfl
        | _ => rw [hvalue] at hnull; cases hnull
      | false =>
        rw [hnull, Bool.and_false, Bool.false_or] at hadmit
        rw [h _ hmem field.2 (hdistinct.2 field hfield) hadmit]
        rfl
    · rw [Schema.completeField_of_not_mem hname]
      rcases hknown with hpreserve | hnames
      · rw [hpreserve]
        rfl
      · exact absurd (hnames field hfield) hname
  rw [List.filterMap_congr hkept, List.filterMap_some]

/-- An object whose properties have no defaults and are stable themselves. -/
theorem stable_object {preserve : Bool} {properties : List Schema.Property} (hnodup : (properties.map Prod.fst).Nodup)
    (hfallback : ∀ property ∈ properties, property.2.1.fallback = none)
    (h : ∀ property ∈ properties, property.2.2.Stable) : (Schema.object preserve properties).Stable := by
  intro v hdistinct haccepts
  cases v with
  | obj fields =>
    have hdefaults : Schema.defaults properties (.obj fields) = [] := by
      refine List.filterMap_eq_nil_iff.mpr fun property hproperty => ?_
      rw [hfallback property hproperty]
      split <;> rfl
    rw [Schema.complete, kept_of_accepts hnodup h hdistinct haccepts, hdefaults, List.append_nil]
  | _ => cases haccepts

/-! ## Single values -/

theorem format_boolean : Format .boolean Json.asBool .bool (fun _ => True) id where
  reads v hdistinct hv := by
    cases v with
    | bool b => exact ⟨b, rfl, trivial⟩
    | _ => cases hv
  distinct _ _ := rfl
  accepts _ _ := rfl
  complete _ _ := rfl
  back _ _ := rfl
  settles v a _ _ hread := by
    cases v with
    | bool b => exact hread
    | _ => cases hread

/-- Texts of a bounded length that match a pattern in full. -/
def fitsText (least : Nat) (greatest : Option Nat) (pattern : Option (RegularExpression Char)) (s : String) : Prop :=
  least ≤ s.length ∧ (∀ n ∈ greatest, s.length ≤ n) ∧ ∀ p ∈ pattern, p.rmatch s.toList = true

theorem accepts_string_iff {least : Nat} {greatest : Option Nat} {pattern : Option (RegularExpression Char)} {s : String} :
    (Schema.string least greatest pattern).accepts (.str s) = true ↔ fitsText least greatest pattern s := by
  simp only [Schema.accepts, Bool.and_eq_true, decide_eq_true_eq, Option.all_eq_true, fitsText, and_assoc, Option.mem_def]

theorem format_string (least : Nat) (greatest : Option Nat) (pattern : Option (RegularExpression Char)) :
    Format (.string least greatest pattern) Json.asStr .str (fitsText least greatest pattern) id where
  reads v hdistinct hv := by
    cases v with
    | str s => exact ⟨s, rfl, accepts_string_iff.mp hv⟩
    | _ => cases hv
  distinct _ _ := rfl
  accepts _ h := accepts_string_iff.mpr h
  complete _ _ := rfl
  back _ _ := rfl
  settles v a _ _ hread := by
    cases v with
    | str s => exact hread
    | _ => cases hread

/-- A number of one byte. -/
def readByte : Reader UInt8
  | .num n => if 0 ≤ n ∧ n < 256 then some (UInt8.ofNat n.toNat) else none
  | _ => none

theorem format_byte : Format (.integer 0 255) readByte (fun b => .num b.toNat) (fun _ => True) id where
  reads v hdistinct hv := by
    cases v with
    | num n =>
      obtain ⟨hleast, hgreatest⟩ := Bool.and_eq_true_iff.mp hv
      have hleast := of_decide_eq_true hleast
      have hgreatest := of_decide_eq_true hgreatest
      exact ⟨_, if_pos ⟨hleast, by omega⟩, trivial⟩
    | _ => cases hv
  distinct _ _ := rfl
  accepts b _ := by
    have hlt : b.toNat < 256 := b.toNat_lt
    have h : (0 : Int) ≤ b.toNat ∧ (b.toNat : Int) ≤ 255 := by omega
    simp only [Schema.accepts, h, decide_true, Bool.and_self]
  complete _ _ := rfl
  back b _ := by
    have hlt : b.toNat < 256 := b.toNat_lt
    rw [readByte, if_pos ⟨by omega, by omega⟩, Int.toNat_natCast, UInt8.ofNat_toNat]
  settles v a _ _ hread := by
    cases v with
    | num n => exact hread
    | _ => cases hread

/-- An enumeration travels as the names of its values. -/
def readName (names : List (String × α)) : Reader α
  | .str s => (names.find? fun entry => entry.1 == s).map Prod.snd
  | _ => none

theorem format_enum {names : List (String × α)} {name : α → String} (hname : ∀ a, (name a, a) ∈ names)
    (hnodup : (names.map Prod.fst).Nodup) :
    Format (.enum (names.map Prod.fst)) (readName names) (fun a => .str (name a)) (fun _ => True) id where
  reads v hdistinct hv := by
    cases v with
    | str s =>
      obtain ⟨entry, hentry, rfl⟩ := List.mem_map.mp (List.contains_iff_mem.mp hv)
      cases hfind : names.find? fun other => other.1 == entry.1 with
      | none => exact absurd (beq_self_eq_true entry.1) (List.find?_eq_none.mp hfind entry hentry)
      | some found => exact ⟨found.2, by rw [readName, hfind, Option.map_some], trivial⟩
    | _ => cases hv
  distinct _ _ := rfl
  accepts a _ := List.contains_iff_mem.mpr (List.mem_map.mpr ⟨_, hname a, rfl⟩)
  complete _ _ := rfl
  back a _ := by
    rw [readName]
    cases hfind : names.find? fun other => other.1 == name a with
    | none => exact absurd (beq_self_eq_true (name a)) (List.find?_eq_none.mp hfind _ (hname a))
    | some found =>
      have hsame : found.1 = name a := eq_of_beq (List.find?_some (p := fun other : String × α => other.1 == name a) hfind)
      cases List.inj_on_of_nodup_map hnodup (List.mem_of_find?_eq_some hfind) (hname a) hsame
      rfl
  settles v a _ _ hread := by
    cases v with
    | str s => exact hread
    | _ => cases hread

/-! ## Lists -/

def readList (read : Reader α) : Reader (List α)
  | .arr vs => vs.mapM read
  | _ => none

theorem mapM_eq_some_iff {f : β → Option α} {vs : List β} {as : List α} :
    vs.mapM f = some as ↔ List.Forall₂ (fun v a => f v = some a) vs as := by
  induction vs generalizing as with
  | nil => simp [eq_comm]
  | cons v vs ih =>
    rw [List.mapM_cons]
    constructor
    · intro h
      obtain ⟨a, ha, h⟩ := Option.bind_eq_some_iff.mp h
      obtain ⟨as', has, h⟩ := Option.bind_eq_some_iff.mp h
      cases h
      exact .cons ha (ih.mp has)
    · rintro (_ | ⟨ha, has⟩)
      simp only [ha, ih.mpr has, Option.bind_eq_bind, Option.bind_some, Option.pure_def]

theorem format_list (h : Format schema read write Fits settle) (greatest : Option Nat) :
    Format (.array greatest schema) (readList read) (fun as => .arr (as.map write))
      (fun as => (∀ n ∈ greatest, as.length ≤ n) ∧ ∀ a ∈ as, Fits a) (List.map settle) where
  reads v hdistinct hv := by
    cases v with
    | arr vs =>
      simp only [Schema.accepts, Bool.and_eq_true, List.all_eq_true, Option.all_eq_true, decide_eq_true_eq] at hv
      obtain ⟨hlength, hitems⟩ := hv
      replace hdistinct := Json.distinctItems_iff.mp hdistinct
      have hread : ∃ as, vs.mapM read = some as ∧ ∀ a ∈ as, Fits a := by
        clear hlength
        induction vs with
        | nil => exact ⟨[], rfl, by simp⟩
        | cons v vs ih =>
          obtain ⟨a, ha, hfits⟩ := h.reads v (hdistinct v List.mem_cons_self) (hitems v List.mem_cons_self)
          obtain ⟨as, has, hall⟩ := ih (fun w hw => hitems w (List.mem_cons_of_mem v hw))
            fun w hw => hdistinct w (List.mem_cons_of_mem v hw)
          exact ⟨a :: as, mapM_eq_some_iff.mpr (.cons ha (mapM_eq_some_iff.mp has)), List.forall_mem_cons.mpr ⟨hfits, hall⟩⟩
      obtain ⟨as, has, hall⟩ := hread
      refine ⟨as, has, fun n hn => ?_, hall⟩
      rw [← (mapM_eq_some_iff.mp has).length_eq]
      exact hlength n hn
    | _ => cases hv
  distinct as hfits := by
    refine Json.distinctItems_iff.mpr fun v hv => ?_
    obtain ⟨a, ha, rfl⟩ := List.mem_map.mp hv
    exact h.distinct a (hfits.2 a ha)
  accepts as hfits := by
    simp only [Schema.accepts, Bool.and_eq_true, List.all_eq_true, Option.all_eq_true, decide_eq_true_eq, List.length_map]
    refine ⟨hfits.1, fun v hv => ?_⟩
    obtain ⟨a, ha, rfl⟩ := List.mem_map.mp hv
    exact h.accepts a (hfits.2 a ha)
  complete as hfits := by
    rw [Schema.complete, List.map_map]
    refine congrArg Json.arr (List.map_congr_left fun a ha => ?_)
    exact h.complete a (hfits.2 a ha)
  back as hfits := by
    refine mapM_eq_some_iff.mpr (List.forall₂_map_left_iff.mpr (List.forall₂_same.mpr fun a ha => ?_))
    exact h.back a (hfits.2 a ha)
  settles v as hdistinct haccepts hread := by
    cases v with
    | arr vs =>
      simp only [Schema.complete, Schema.accepts, Bool.and_eq_true, List.all_eq_true, List.mem_map, forall_exists_index,
        and_imp, forall_apply_eq_imp_iff₂] at haccepts
      replace hdistinct := Json.distinctItems_iff.mp hdistinct
      replace haccepts := haccepts.2
      refine mapM_eq_some_iff.mpr (List.forall₂_map_left_iff.mpr (List.forall₂_map_right_iff.mpr ?_))
      replace hread := mapM_eq_some_iff.mp hread
      induction hread with
      | nil => exact .nil
      | cons ha _ ih =>
        refine .cons (h.settles _ _ (hdistinct _ List.mem_cons_self) (haccepts _ List.mem_cons_self) ha) (ih ?_ ?_)
        · exact fun w hw => hdistinct w (List.mem_cons_of_mem _ hw)
        · exact fun w hw => haccepts w (List.mem_cons_of_mem _ hw)
    | _ => cases hread

/-! ## String maps -/

def StringMap.Ordered (m : StringMap) : Prop := m.Pairwise fun a b => a.1 < b.1

theorem StringMap.ordered_insert {m : StringMap} (h : m.Ordered) (key value : String) : (m.insert key value).Ordered := by
  induction m with
  | nil => exact List.pairwise_singleton _ _
  | cons entry rest ih =>
    obtain ⟨k, v⟩ := entry
    obtain ⟨hhead, hrest⟩ := List.pairwise_cons.mp h
    rw [insert]
    split
    · rename_i hk
      subst hk
      exact List.pairwise_cons.mpr ⟨hhead, hrest⟩
    · rename_i hne
      split
      · rename_i hlt
        refine List.pairwise_cons.mpr ⟨fun other hother => ?_, h⟩
        rcases List.mem_cons.mp hother with rfl | hother
        · exact hlt
        · exact lt_trans hlt (hhead other hother)
      · rename_i hnot
        refine List.pairwise_cons.mpr ⟨fun other hother => ?_, ih hrest⟩
        rcases mem_of_mem_insert hother with rfl | hother
        · exact lt_of_le_of_ne (le_of_not_gt hnot) hne
        · exact hhead other hother

theorem StringMap.insert_of_last {m : StringMap} {key : String} (h : ∀ entry ∈ m, entry.1 < key) (value : String) :
    m.insert key value = m ++ [(key, value)] := by
  induction m with
  | nil => rfl
  | cons entry rest ih =>
    obtain ⟨k, v⟩ := entry
    have hlt : k < key := h (k, v) List.mem_cons_self
    rw [insert, if_neg hlt.ne, if_neg (lt_asymm hlt), ih fun other hother => h other (List.mem_cons_of_mem _ hother)]
    rfl

def collectMap (entries : List (String × String)) : StringMap :=
  entries.foldl (fun m entry => StringMap.insert entry.1 entry.2 m) []

theorem ordered_collectMap (entries : List (String × String)) : (collectMap entries).Ordered := by
  have h : ∀ m : StringMap, m.Ordered →
      (entries.foldl (fun m entry => StringMap.insert entry.1 entry.2 m) m).Ordered := by
    induction entries with
    | nil => exact fun m hm => hm
    | cons entry rest ih => exact fun m hm => ih _ (StringMap.ordered_insert hm _ _)
  exact h [] List.Pairwise.nil

theorem collectMap_of_ordered {m : StringMap} (h : m.Ordered) : collectMap m = m := by
  have hfold : ∀ front rest : StringMap, (front ++ rest).Ordered →
      rest.foldl (fun m entry => StringMap.insert entry.1 entry.2 m) front = front ++ rest := by
    intro front rest
    induction rest generalizing front with
    | nil => exact fun _ => (List.append_nil front).symm
    | cons entry rest ih =>
      intro hordered
      have hlast : ∀ other ∈ front, other.1 < entry.1 :=
        fun other hother => (List.pairwise_append.mp hordered).2.2 other hother entry List.mem_cons_self
      rw [List.foldl_cons, StringMap.insert_of_last hlast, ih, List.append_assoc]
      · rfl
      · rw [List.append_assoc]
        exact hordered
  exact hfold [] m h

/-- A map keeps the last value of a key. -/
def readMap : Reader StringMap := fun v => (StringMap.ofJson v).map collectMap

theorem ofJson_obj_of_accepts {fields : Fields} (h : ∀ field ∈ fields, field.2.asStr.isSome) :
    ∃ entries, StringMap.ofJson (.obj fields) = some entries := by
  induction fields with
  | nil => exact ⟨[], rfl⟩
  | cons field fields ih =>
    obtain ⟨entries, hentries⟩ := ih fun other hother => h other (List.mem_cons_of_mem _ hother)
    obtain ⟨s, hs⟩ := Option.isSome_iff_exists.mp (h field List.mem_cons_self)
    refine ⟨(field.1, s) :: entries, ?_⟩
    simp only [StringMap.ofJson] at hentries ⊢
    rw [List.mapM_cons, hs, hentries]
    rfl

theorem complete_of_ofJson {fields : Fields} {entries : StringMap} (h : StringMap.ofJson (.obj fields) = some entries) :
    (Schema.map (.string 0 none none)).complete (.obj fields) = .obj fields := by
  rw [Schema.complete]
  refine congrArg Json.obj ?_
  rw [StringMap.ofJson] at h
  have hread := mapM_eq_some_iff.mp h
  clear h
  induction hread with
  | nil => rfl
  | @cons field entry _ _ hfield _ ih =>
    obtain ⟨name, v⟩ := field
    cases v with
    | str s =>
      rw [List.filterMap_cons, ih]
      rfl
    | _ => cases hfield

theorem format_map : Format (.map (.string 0 none none)) readMap StringMap.toJson StringMap.Ordered id where
  reads v hdistinct hv := by
    cases v with
    | obj fields =>
      have htexts : ∀ field ∈ fields, field.2.asStr.isSome := by
        intro field hfield
        have h := List.all_eq_true.mp hv field hfield
        generalize field.2 = v at h ⊢
        cases v with
        | str s => rfl
        | _ => cases h
      obtain ⟨entries, hentries⟩ := ofJson_obj_of_accepts htexts
      exact ⟨collectMap entries, by rw [readMap, hentries, Option.map_some], ordered_collectMap entries⟩
    | _ => cases hv
  distinct m h := by
    rw [StringMap.toJson, Json.distinct, Bool.and_eq_true, decide_eq_true_eq, Json.distinctFields_iff, List.map_map]
    refine ⟨List.nodup_iff_pairwise_ne.mpr (List.pairwise_map.mpr (h.imp fun hlt => hlt.ne)), fun field hfield => ?_⟩
    obtain ⟨entry, -, rfl⟩ := List.mem_map.mp hfield
    rfl
  accepts m _ := by
    refine List.all_eq_true.mpr fun field hfield => ?_
    obtain ⟨entry, -, rfl⟩ := List.mem_map.mp hfield
    rfl
  complete m _ := complete_of_ofJson (StringMap.ofJson_toJson m)
  back m h := by rw [readMap, StringMap.ofJson_toJson, Option.map_some, collectMap_of_ordered h]
  settles v m _ _ hread := by
    cases v with
    | obj fields =>
      obtain ⟨entries, hentries, -⟩ := Option.map_eq_some_iff.mp hread
      rw [complete_of_ofJson hentries]
      exact hread
    | _ => cases hread

/-! ## Fields of a record -/

/-- What `Format` says of a value, for a field that may be missing. -/
structure FieldFormat {α : Type} (presence : Presence) (schema : Schema) (read : Option Json → Option α)
    (write : α → Option Json) (Fits : α → Prop) (settle : α → α) : Prop where
  reads : ∀ x, (∀ v ∈ x, v.distinct = true) → presence.admits schema x = true → ∃ a, read x = some a ∧ Fits a
  distinct : ∀ a, Fits a → ∀ v ∈ write a, v.distinct = true
  admits : ∀ a, Fits a → presence.admits schema (write a) = true
  complete : ∀ a, Fits a → presence.complete schema (write a) = write a
  back : ∀ a, Fits a → read (write a) = some a
  settles : ∀ x a, (∀ v ∈ x, v.distinct = true) → presence.admits schema (presence.complete schema x) = true →
    read x = some a → read (presence.complete schema x) = some (settle a)

/-- A field that has to be there. -/
def Reader.required (read : Reader α) (x : Option Json) : Option α := x.bind read

/-- A field with a default. -/
def Reader.orElse (read : Reader α) (fallback : α) : Option Json → Option α
  | none => some fallback
  | some v => read v

/-- A field of an optional value. -/
def Reader.optional (read : Reader α) : Option Json → Option (Option α)
  | none => some none
  | some v => if v.isNull then some none else (read v).map some

theorem eq_null_of_isNull {v : Json} (h : v.isNull = true) : v = .null := by
  cases v with
  | null => rfl
  | _ => cases h

variable {presence : Presence}

theorem isNull_of_accepts {v : Json} (h : schema.accepts v = true) : v.isNull = false := by
  cases hnull : v.isNull with
  | false => rfl
  | true =>
    rw [eq_null_of_isNull hnull, Schema.accepts_null] at h
    cases h

theorem admits_some_of_accepts {v : Json} (h : schema.accepts v = true) : presence.admits schema (some v) = true := by
  rw [Presence.admits, h, Bool.or_true]

theorem accepts_of_admits {v : Json} (hstrict : presence.allowsNull = false) (h : presence.admits schema (some v) = true) :
    schema.accepts v = true := by
  rwa [Presence.admits, hstrict, Bool.false_and, Bool.false_or] at h

theorem complete_some {v : Json} (h : v.isNull = false) : presence.complete schema (some v) = some (schema.complete v) := by
  rw [Presence.complete, h, Bool.false_and, if_neg Bool.false_ne_true]

theorem Format.complete_write (h : Format schema read write Fits settle) {a : α} (ha : Fits a) :
    presence.complete schema (some (write a)) = some (write a) := by
  rw [complete_some (isNull_of_accepts (h.accepts a ha)), h.complete a ha]

theorem FieldFormat.required (h : Format schema read write Fits settle) :
    FieldFormat .required schema read.required (fun a => some (write a)) Fits settle where
  reads x hdistinct hx := by
    cases x with
    | none => cases hx
    | some v => exact h.reads v (hdistinct v rfl) (accepts_of_admits rfl hx)
  distinct a ha := by
    rintro _ ⟨⟩
    exact h.distinct a ha
  admits a ha := admits_some_of_accepts (h.accepts a ha)
  complete a ha := h.complete_write ha
  back a ha := h.back a ha
  settles x a hdistinct hx hread := by
    cases x with
    | none => cases hread
    | some v =>
      cases hnull : v.isNull with
      | true =>
        rw [eq_null_of_isNull hnull] at hx
        cases hx
      | false =>
        rw [complete_some hnull] at hx ⊢
        exact h.settles v a (hdistinct v rfl) (accepts_of_admits rfl hx) hread

/-- The default of the schema is what the reader takes for a missing field. -/
theorem FieldFormat.orElse (h : Format schema read write Fits settle) {fallback : α} (hfits : Fits fallback)
    (hsettle : settle fallback = fallback) (hnull : read .null = none) :
    FieldFormat (.default (write fallback)) schema (read.orElse fallback) (fun a => some (write a)) Fits settle where
  reads x hdistinct hx := by
    cases x with
    | none => exact ⟨fallback, rfl, hfits⟩
    | some v => exact h.reads v (hdistinct v rfl) (accepts_of_admits rfl hx)
  distinct a ha := by
    rintro _ ⟨⟩
    exact h.distinct a ha
  admits a ha := admits_some_of_accepts (h.accepts a ha)
  complete a ha := h.complete_write ha
  back a ha := h.back a ha
  settles x a hdistinct hx hread := by
    cases x with
    | none =>
      cases hread
      rw [hsettle]
      exact h.back fallback hfits
    | some v =>
      cases hv : v.isNull with
      | true =>
        rw [Reader.orElse, eq_null_of_isNull hv, hnull] at hread
        cases hread
      | false =>
        rw [complete_some hv] at hx ⊢
        exact h.settles v a (hdistinct v rfl) (accepts_of_admits rfl hx) hread

theorem FieldFormat.optional (h : Format schema read write Fits settle) (hrequired : presence.isRequired = false)
    (hfallback : presence.fallback = none) :
    FieldFormat presence schema read.optional (Option.map write) (fun x => ∀ a ∈ x, Fits a) (Option.map settle) where
  reads x hdistinct hx := by
    cases x with
    | none => exact ⟨none, rfl, by simp⟩
    | some v =>
      cases hnull : v.isNull with
      | true => exact ⟨none, by rw [Reader.optional, hnull, if_pos rfl], by simp⟩
      | false =>
        rw [Presence.admits, hnull, Bool.and_false, Bool.false_or] at hx
        obtain ⟨a, ha, hfits⟩ := h.reads v (hdistinct v rfl) hx
        refine ⟨some a, ?_, by simpa using hfits⟩
        rw [Reader.optional, hnull, if_neg Bool.false_ne_true, ha, Option.map_some]
  distinct x hx := by
    cases x with
    | none =>
      intro _ hv
      cases hv
    | some a =>
      rintro _ ⟨⟩
      exact h.distinct a (hx a rfl)
  admits x hx := by
    cases x with
    | none => rw [Option.map_none, Presence.admits, hrequired, Bool.not_false]
    | some a => exact admits_some_of_accepts (h.accepts a (hx a rfl))
  complete x hx := by
    cases x with
    | none => exact hfallback
    | some a => exact h.complete_write (hx a rfl)
  back x hx := by
    cases x with
    | none => rfl
    | some a =>
      rw [Option.map_some, Reader.optional, isNull_of_accepts (h.accepts a (hx a rfl)), if_neg Bool.false_ne_true,
        h.back a (hx a rfl), Option.map_some]
  settles x a hdistinct hx hread := by
    cases x with
    | none =>
      cases hread
      rw [Presence.complete, hfallback]
      rfl
    | some v =>
      cases hnull : v.isNull with
      | true =>
        rw [Reader.optional, hnull, if_pos rfl] at hread
        cases hread
        rw [Presence.complete, eq_null_of_isNull hnull, Schema.complete_null, hfallback]
        split <;> rfl
      | false =>
        rw [complete_some hnull] at hx ⊢
        rw [Reader.optional, hnull, if_neg Bool.false_ne_true] at hread
        obtain ⟨b, hb, rfl⟩ := Option.map_eq_some_iff.mp hread
        have haccepts : schema.accepts (schema.complete v) = true := by
          rwa [Presence.admits, Schema.isNull_complete hnull, Bool.and_false, Bool.false_or] at hx
        rw [Reader.optional, isNull_of_accepts haccepts, if_neg Bool.false_ne_true,
          h.settles v b (hdistinct v rfl) haccepts hb, Option.map_some, Option.map_some]

/-- A field that is not written when it has the value a missing one is read as. -/
theorem FieldFormat.skipped (h : Format schema read write Fits settle) {fallback : α} {skip : α → Bool} (hfits : Fits fallback)
    (hskip : ∀ a, skip a = true → a = fallback) (hsettle : settle fallback = fallback) (hnull : read .null = none) :
    FieldFormat .optional schema (read.orElse fallback) (fun a => if skip a then none else some (write a)) Fits settle where
  reads x hdistinct hx := by
    cases x with
    | none => exact ⟨fallback, rfl, hfits⟩
    | some v => exact h.reads v (hdistinct v rfl) (accepts_of_admits rfl hx)
  distinct a ha := by
    split
    · nofun
    · rintro _ ⟨⟩
      exact h.distinct a ha
  admits a ha := by
    split
    · rfl
    · exact admits_some_of_accepts (h.accepts a ha)
  complete a ha := by
    split
    · rfl
    · exact h.complete_write ha
  back a ha := by
    split
    · rename_i ha'
      rw [hskip a ha']
      rfl
    · exact h.back a ha
  settles x a hdistinct hx hread := by
    cases x with
    | none =>
      cases hread
      rw [hsettle]
      rfl
    | some v =>
      cases hv : v.isNull with
      | true =>
        rw [Reader.orElse, eq_null_of_isNull hv, hnull] at hread
        cases hread
      | false =>
        rw [complete_some hv] at hx ⊢
        exact h.settles v a (hdistinct v rfl) (accepts_of_admits rfl hx) hread

/-! ## Records -/

theorem get_record {fields : List (String × Option Json)} {name : String} {x : Option Json}
    (hnodup : (fields.map Prod.fst).Nodup) (hmem : (name, x) ∈ fields) : (record fields).get name = x := by
  have hkept := Json.recordFields_sublist.nodup hnodup
  cases x with
  | some v => exact Schema.get_eq_some_of_mem hkept (Json.mem_recordFields.mpr hmem)
  | none =>
    refine Schema.get_eq_none_of_not_mem fun h => ?_
    obtain ⟨⟨_, v⟩, hfield, rfl⟩ := List.mem_map.mp h
    cases List.inj_on_of_nodup_map hnodup (Json.mem_recordFields.mp hfield) hmem rfl

/-- A written field that the server lets in and leaves as it is. -/
structure Agrees (property : Schema.Property) (field : String × Option Json) : Prop where
  name : field.1 = property.1
  admits : property.2.1.admits property.2.2 field.2 = true
  complete : property.2.1.complete property.2.2 field.2 = field.2
  distinct : ∀ v ∈ field.2, v.distinct = true

variable {properties : List Schema.Property} {fields : List (String × Option Json)}

theorem names_of_agree (h : List.Forall₂ Agrees properties fields) : fields.map Prod.fst = properties.map Prod.fst := by
  induction h with
  | nil => rfl
  | cons hfield _ ih => rw [List.map_cons, List.map_cons, hfield.name, ih]

theorem exists_agreeing (h : List.Forall₂ Agrees properties fields) {field : String × Option Json} (hfield : field ∈ fields) :
    ∃ property ∈ properties, Agrees property field := by
  induction h with
  | nil => cases hfield
  | cons hagree _ ih =>
    rcases List.mem_cons.mp hfield with rfl | hrest
    · exact ⟨_, List.mem_cons_self, hagree⟩
    · obtain ⟨property, hmem, hagree⟩ := ih hrest
      exact ⟨property, List.mem_cons_of_mem _ hmem, hagree⟩

theorem exists_agreed (h : List.Forall₂ Agrees properties fields) {property : Schema.Property}
    (hproperty : property ∈ properties) : ∃ field ∈ fields, Agrees property field := by
  induction h with
  | nil => cases hproperty
  | cons hagree _ ih =>
    rcases List.mem_cons.mp hproperty with rfl | hrest
    · exact ⟨_, List.mem_cons_self, hagree⟩
    · obtain ⟨field, hmem, hagree⟩ := ih hrest
      exact ⟨field, List.mem_cons_of_mem _ hmem, hagree⟩

section

variable (hnodup : (properties.map Prod.fst).Nodup) (h : List.Forall₂ Agrees properties fields)
include hnodup h

theorem distinct_record : (record fields).distinct = true := by
  rw [record, Json.distinct, Bool.and_eq_true, decide_eq_true_eq, Json.distinctFields_iff]
  refine ⟨Json.recordFields_sublist.nodup (by rw [names_of_agree h]; exact hnodup), fun field hfield => ?_⟩
  obtain ⟨_, -, hagree⟩ := exists_agreeing h (Json.mem_recordFields.mp hfield)
  exact hagree.distinct field.2 rfl

theorem accepts_record : (Schema.object false properties).accepts (record fields) = true := by
  refine Schema.accepts_object_iff.mpr ⟨.inr fun field hfield => ?_, fun property hproperty => ?_⟩
  · rw [← names_of_agree h]
    exact List.mem_map.mpr ⟨_, Json.mem_recordFields.mp hfield, rfl⟩
  · obtain ⟨field, hfield, hagree⟩ := exists_agreed h hproperty
    have hget : (record fields).get property.1 = field.2 := by
      rw [← hagree.name]
      exact get_record (by rw [names_of_agree h]; exact hnodup) hfield
    rw [record] at hget
    rw [hget]
    exact hagree.admits

theorem complete_record : (Schema.object false properties).complete (record fields) = record fields := by
  have hkept : ∀ field ∈ recordFields fields,
      (Schema.completeField properties false field.1 field.2).map (field.1, ·) = some field := by
    intro field hfield
    obtain ⟨property, hmem, hagree⟩ := exists_agreeing h (Json.mem_recordFields.mp hfield)
    obtain ⟨name, presence, schema⟩ := property
    have hname : field.1 = name := hagree.name
    have hadmits : presence.admits schema (some field.2) = true := hagree.admits
    have hcomplete : presence.complete schema (some field.2) = some field.2 := hagree.complete
    rw [hname, Schema.completeField_of_mem hnodup hmem]
    cases hnull : field.2.isNull && !presence.allowsNull with
    | true =>
      obtain ⟨hnull, hstrict⟩ := Bool.and_eq_true_iff.mp hnull
      rw [Presence.admits, eq_null_of_isNull hnull, Schema.accepts_null, Bool.not_eq_true' _ |>.mp hstrict] at hadmits
      cases hadmits
    | false =>
      rw [Presence.complete, hnull, if_neg Bool.false_ne_true, Option.some.injEq] at hcomplete
      rw [if_neg Bool.false_ne_true, hcomplete, Option.map_some, ← hname]
  have hdefaults : Schema.defaults properties (record fields) = [] := by
    refine List.filterMap_eq_nil_iff.mpr fun property hproperty => ?_
    obtain ⟨field, hfield, hagree⟩ := exists_agreed h hproperty
    have hget : (record fields).get property.1 = field.2 := by
      rw [← hagree.name]
      exact get_record (by rw [names_of_agree h]; exact hnodup) hfield
    have hadmits := hagree.admits
    have hcomplete := hagree.complete
    rw [hget]
    generalize field.2 = x at hadmits hcomplete ⊢
    cases x with
    | none =>
      rw [Presence.complete] at hcomplete
      rw [hcomplete]
      rfl
    | some v =>
      split
      · rename_i hnull
        rw [Presence.admits, eq_null_of_isNull hnull, Schema.accepts_null, Bool.or_false] at hadmits
        obtain ⟨hnullable, -⟩ := Bool.and_eq_true_iff.mp hadmits
        cases hpresence : property.2.1 with
        | nullable => rfl
        | _ => rw [hpresence] at hnullable; cases hnullable
      · rfl
  rw [record, Schema.complete, List.filterMap_congr hkept, List.filterMap_some]
  rw [record] at hdefaults
  rw [hdefaults, List.append_nil]

end

/-- What `Format` says of a value, for the fields of a struct taken together. `read` looks them up by name. -/
structure RecordFormat {α : Type} (properties : List Schema.Property) (read : (String → Option Json) → Option α)
    (fields : α → List (String × Option Json)) (Fits : α → Prop) (settle : α → α) : Prop where
  reads : ∀ get, (∀ property ∈ properties, (∀ v ∈ get property.1, v.distinct = true) ∧
    property.2.1.admits property.2.2 (get property.1) = true) → ∃ a, read get = some a ∧ Fits a
  agrees : ∀ a, Fits a → List.Forall₂ Agrees properties (fields a)
  back : ∀ a, Fits a → ∀ get, (∀ field ∈ fields a, get field.1 = field.2) → read get = some a
  settles : ∀ get get' a, (∀ property ∈ properties, (∀ v ∈ get property.1, v.distinct = true) ∧
    property.2.1.admits property.2.2 (get' property.1) = true ∧
      get' property.1 = property.2.1.complete property.2.2 (get property.1)) → read get = some a → read get' = some (settle a)

theorem recordFormat_nil : RecordFormat [] (fun _ => some ()) (fun _ => []) (fun _ => True) id where
  reads _ _ := ⟨(), rfl, trivial⟩
  agrees _ _ := .nil
  back _ _ _ _ := rfl
  settles _ _ _ _ _ := rfl

section

variable {readAll : (String → Option Json) → Option β} {fieldsOf : β → List (String × Option Json)} {FitAll : β → Prop}
  {settleAll : β → β} {readField : Option Json → Option α} {writeField : α → Option Json} {name : String}

theorem RecordFormat.cons (h : RecordFormat properties readAll fieldsOf FitAll settleAll)
    (hfield : FieldFormat presence schema readField writeField Fits settle) :
    RecordFormat ((name, presence, schema) :: properties)
      (fun get => (readField (get name)).bind fun a => (readAll get).map fun b => (a, b))
      (fun x => (name, writeField x.1) :: fieldsOf x.2) (fun x => Fits x.1 ∧ FitAll x.2) (Prod.map settle settleAll) where
  reads get hget := by
    obtain ⟨⟨hdistinct, hadmits⟩, hrest⟩ := List.forall_mem_cons.mp hget
    obtain ⟨a, ha, hfits⟩ := hfield.reads _ hdistinct hadmits
    obtain ⟨b, hb, hfit⟩ := h.reads get hrest
    exact ⟨(a, b), by simp only [ha, hb, Option.bind_some, Option.map_some], hfits, hfit⟩
  agrees x hx := .cons ⟨rfl, hfield.admits x.1 hx.1, hfield.complete x.1 hx.1, hfield.distinct x.1 hx.1⟩ (h.agrees x.2 hx.2)
  back x hx get hget := by
    obtain ⟨hfirst, hrest⟩ := List.forall_mem_cons.mp hget
    dsimp only at hfirst
    rw [hfirst, hfield.back x.1 hx.1, h.back x.2 hx.2 get hrest]
    rfl
  settles get get' x hget hread := by
    obtain ⟨⟨hdistinct, hadmits, hsame⟩, hrest⟩ := List.forall_mem_cons.mp hget
    obtain ⟨a, ha, hread⟩ := Option.bind_eq_some_iff.mp hread
    obtain ⟨b, hb, rfl⟩ := Option.map_eq_some_iff.mp hread
    dsimp only at hdistinct hadmits hsame
    rw [hsame] at hadmits ⊢
    rw [hfield.settles _ a hdistinct hadmits ha, h.settles get get' b hrest hb]
    rfl

/-- Reading a struct in one pass is reading its first field, then the rest. -/
theorem bind_eq_map_pair {γ : Type} {x : Option α} {f : α → Option γ} {rest : Option β} {e : α × β → γ}
    (h : ∀ a, f a = rest.map fun b => e (a, b)) : x.bind f = (x.bind fun a => rest.map fun b => (a, b)).map e := by
  cases x with
  | none => rfl
  | some a => rw [Option.bind_some, Option.bind_some, Option.map_map, h a]; rfl

/-- A struct is its fields in another form. -/
theorem RecordFormat.of_equiv {read : (String → Option Json) → Option α} {fields : α → List (String × Option Json)}
    (h : RecordFormat properties readAll fieldsOf FitAll settleAll) (e : β ≃ α)
    (hread : ∀ get, read get = (readAll get).map e) (hfields : ∀ a, fields a = fieldsOf (e.symm a))
    (hfits : ∀ a, Fits a ↔ FitAll (e.symm a)) (hsettle : ∀ a, settle a = e (settleAll (e.symm a))) :
    RecordFormat properties read fields Fits settle where
  reads get hget := by
    obtain ⟨b, hb, hfit⟩ := h.reads get hget
    exact ⟨e b, by rw [hread, hb, Option.map_some], (hfits _).mpr (by rwa [e.symm_apply_apply])⟩
  agrees a ha := by
    rw [hfields]
    exact h.agrees _ ((hfits a).mp ha)
  back a ha get hget := by
    rw [hread, h.back _ ((hfits a).mp ha) get (by rwa [← hfields]), Option.map_some, e.apply_symm_apply]
  settles get get' a hget hgets := by
    rw [hread] at hgets ⊢
    obtain ⟨b, hb, rfl⟩ := Option.map_eq_some_iff.mp hgets
    rw [h.settles get get' b hget hb, Option.map_some, hsettle, e.symm_apply_apply]

end

/-- A struct that may deny fields other than its own. -/
def Reader.struct (deny : Option (List String)) (read : (String → Option Json) → Option α) : Reader α
  | .obj fields =>
    if deny.all fun names => fields.all fun field => names.contains field.1 then read fun name => (Json.obj fields).get name
    else none
  | _ => none

theorem format_record {deny : Option (List String)} {read : (String → Option Json) → Option α}
    {fields : α → List (String × Option Json)} (h : RecordFormat properties read fields Fits settle)
    (hnodup : (properties.map Prod.fst).Nodup) (hdeny : ∀ names ∈ deny, names = properties.map Prod.fst) :
    Format (.object false properties) (.struct deny read) (fun a => record (fields a)) Fits settle := by
  have hknown : ∀ kept : Fields, (Schema.object false properties).accepts (.obj kept) = true →
      Reader.struct deny read (.obj kept) = read fun name => (Json.obj kept).get name := by
    intro kept hkept
    obtain ⟨hpreserve | hnames, -⟩ := Schema.accepts_object_iff.mp hkept
    · cases hpreserve
    · rw [Reader.struct, if_pos]
      refine (Option.all_eq_true _ _).mpr fun names hdenied => List.all_eq_true.mpr fun field hfield => ?_
      rw [hdeny names hdenied]
      exact List.contains_iff_mem.mpr (hnames field hfield)
  refine ⟨fun v hdistinct hv => ?_, fun a ha => distinct_record hnodup (h.agrees a ha),
    fun a ha => accepts_record hnodup (h.agrees a ha), fun a ha => complete_record hnodup (h.agrees a ha), fun a ha => ?_,
    fun v a hdistinct haccepts hread => ?_⟩
  · cases v with
    | obj kept =>
      rw [hknown kept hv]
      refine h.reads _ fun property hproperty => ⟨fun v hv => Json.distinct_get hdistinct hv, ?_⟩
      exact (Schema.accepts_object_iff.mp hv).2 property hproperty
    | _ => cases hv
  · have hagrees := h.agrees a ha
    rw [record, hknown _ (accepts_record hnodup hagrees)]
    refine h.back a ha _ fun field hfield => ?_
    exact get_record (by rw [names_of_agree hagrees]; exact hnodup) hfield
  · cases v with
    | obj kept =>
      have hobject : ∃ stored, (Schema.object false properties).complete (.obj kept) = .obj stored := by
        rw [Schema.complete]
        exact ⟨_, rfl⟩
      obtain ⟨stored, hstored⟩ := hobject
      have hcomplete : ∀ property ∈ properties, (Json.obj stored).get property.1 =
          property.2.1.complete property.2.2 ((Json.obj kept).get property.1) := by
        intro property hproperty
        rw [← hstored]
        rw [Json.distinct, Bool.and_eq_true, decide_eq_true_eq] at hdistinct
        exact Schema.get_complete hnodup hdistinct.1 hproperty
      rw [hstored] at haccepts ⊢
      rw [hknown stored haccepts]
      rw [Reader.struct] at hread
      split at hread
      · refine h.settles _ _ a (fun property hproperty => ⟨fun v hv => ?_, ?_, hcomplete property hproperty⟩) hread
        · exact Json.distinct_get hdistinct hv
        · exact (Schema.accepts_object_iff.mp haccepts).2 property hproperty
      · cases hread
    | _ => cases hread

end

end FiveSpot
