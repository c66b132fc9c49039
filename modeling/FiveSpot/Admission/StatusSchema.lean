import FiveSpot.Admission.CrdSchema
import FiveSpot.Cluster.StatusDocument
import FiveSpot.Model.SchemaPatch

/-! # The schema of the status (`src/crd.rs`)

Properties stand in the order of the Rust fields. Times are plain texts.
-/

namespace FiveSpot

set_option autoImplicit false

open Json (record recordFields)

def conditionStatuses : List String := ["True", "False", "Unknown"]

/-- `format: int64` -/
def longSchema : Schema := .integer (-2 ^ 63) (2 ^ 63 - 1)

def Condition.properties : List Schema.Property :=
  [("type", .required, plainTextSchema), ("status", .required, .enum conditionStatuses),
    ("lastTransitionTime", .required, plainTextSchema), ("reason", .required, plainTextSchema),
    ("message", .required, plainTextSchema)]

def ObjectReference.properties : List Schema.Property :=
  [("apiVersion", .required, plainTextSchema), ("kind", .required, plainTextSchema), ("name", .required, plainTextSchema),
    ("namespace", .nullable, plainTextSchema)]

def NodeRef.properties : List Schema.Property :=
  [("apiVersion", .required, plainTextSchema), ("kind", .required, plainTextSchema), ("name", .required, plainTextSchema),
    ("uid", .nullable, plainTextSchema)]

def SpotScheduleStatus.properties : List Schema.Property :=
  [("resolved", .required, .boolean), ("active", .nullable, .boolean), ("reason", .nullable, plainTextSchema),
    ("message", .nullable, plainTextSchema), ("providerGeneration", .nullable, longSchema),
    ("lastTransitionTime", .nullable, plainTextSchema)]

def FullStatus.properties : List Schema.Property :=
  [("phase", .nullable, plainTextSchema), ("message", .nullable, plainTextSchema),
    ("lastScheduledTime", .nullable, plainTextSchema), ("machineRef", .nullable, .object false ObjectReference.properties),
    ("bootstrapRef", .nullable, .object false ObjectReference.properties),
    ("infrastructureRef", .nullable, .object false ObjectReference.properties),
    ("nodeRef", .nullable, .object false NodeRef.properties), ("providerID", .nullable, plainTextSchema),
    ("conditions", .default (.arr []), .array none (.object false Condition.properties)),
    ("observedGeneration", .nullable, longSchema), ("inSchedule", .default (.bool false), .boolean),
    ("ready", .default (.bool false), .boolean), ("nextActivation", .nullable, plainTextSchema),
    ("nextCleanup", .nullable, plainTextSchema),
    ("appliedNodeTaints", .optional, .array none (.object false NodeTaint.properties)),
    ("spotSchedule", .nullable, .object false SpotScheduleStatus.properties)]

def FullStatus.schema : Schema := .object false FullStatus.properties

/-! ## The schema is sound -/

theorem stable_plainText : plainTextSchema.Stable := stable_string 0 none none

theorem stable_long : longSchema.Stable := stable_integer _ _

theorem stable_references : (Schema.object false ObjectReference.properties).Stable := by
  refine stable_object (by decide) ?_ ?_
  · simp [ObjectReference.properties, Presence.fallback]
  · simp [ObjectReference.properties, stable_plainText]

theorem stable_nodeRef : (Schema.object false NodeRef.properties).Stable := by
  refine stable_object (by decide) ?_ ?_
  · simp [NodeRef.properties, Presence.fallback]
  · simp [NodeRef.properties, stable_plainText]

theorem stable_spotSchedule : (Schema.object false SpotScheduleStatus.properties).Stable := by
  refine stable_object (by decide) ?_ ?_
  · simp [SpotScheduleStatus.properties, Presence.fallback]
  · simp [SpotScheduleStatus.properties, stable_plainText, stable_boolean, stable_long]

theorem stable_condition : (Schema.object false Condition.properties).Stable := by
  refine stable_object (by decide) ?_ ?_
  · simp [Condition.properties, Presence.fallback]
  · simp [Condition.properties, stable_plainText, stable_enum]

theorem stable_nodeTaint : (Schema.object false NodeTaint.properties).Stable := by
  refine stable_object (by decide) ?_ ?_
  · simp [NodeTaint.properties, Presence.fallback]
  · simp [NodeTaint.properties, stable_plainText, stable_enum]

theorem FullStatus.sound : Schema.Sound FullStatus.properties where
  nodup := by decide
  stable := by
    simp [FullStatus.properties, stable_plainText, stable_boolean, stable_long, stable_references, stable_nodeRef,
      stable_spotSchedule, stable_array stable_condition, stable_array stable_nodeTaint]
  fallback := by
    simp only [FullStatus.properties, List.forall_mem_cons, Presence.fallback, Option.mem_def, reduceCtorEq, false_implies,
      implies_true, true_and, Option.some.injEq, forall_eq']
    exact ⟨⟨rfl, rfl⟩, ⟨rfl, rfl⟩, ⟨rfl, rfl⟩, List.forall_mem_nil _⟩

/-! ## What the controller writes -/

section

variable {rfc3339 : Time → String} {doc : Json}

theorem valid_text (s : String) : plainTextSchema.Valid (.str s) := ⟨lets_plainText s, rfl⟩

theorem valid_boolean (b : Bool) : Schema.boolean.Valid (.bool b) := ⟨rfl, rfl⟩

/-- A patch the schema has room for: conditions have one of the known statuses, and numbers 64 bits. -/
def StatusPatch.Fits : StatusPatch → Prop
  | .phase _ _ conditions _ _ => ∀ c ∈ conditions, c.status ∈ conditionStatuses
  | .spotSchedule s => ∀ n ∈ s.providerGeneration, longSchema.accepts (.num n) = true
  | _ => True

theorem Agrees.text (name s : String) : Agrees (name, .required, plainTextSchema) (name, some (.str s)) where
  name := rfl
  admits := lets_plainText s
  complete := rfl
  distinct := by
    rintro _ ⟨⟩
    rfl

theorem Condition.valid {c : Condition} (h : c.status ∈ conditionStatuses) :
    (Schema.object false Condition.properties).Valid (c.toJson rfc3339) := by
  have hstatus : Agrees ("status", .required, .enum conditionStatuses) ("status", some (.str c.status)) := by
    refine ⟨rfl, List.contains_iff_mem.mpr h, rfl, ?_⟩
    rintro _ ⟨⟩
    rfl
  have hagrees : List.Forall₂ Agrees Condition.properties [("type", some (.str c.type)), ("status", some (.str c.status)),
      ("lastTransitionTime", some (.str (c.lastTransitionTime.text rfc3339))), ("reason", some (.str c.reason)),
      ("message", some (.str c.message))] :=
    .cons (.text _ _) (.cons hstatus (.cons (.text _ _) (.cons (.text _ _) (.cons (.text _ _) .nil))))
  exact ⟨accepts_record (by decide) hagrees, distinct_record (by decide) hagrees⟩

theorem NodeTaint.valid (t : NodeTaint) : (Schema.object false NodeTaint.properties).Valid t.toJson :=
  ⟨NodeTaint.format.accepts t trivial, NodeTaint.format.distinct t trivial⟩

theorem valid_array {schema : Schema} {α : Type} {write : α → Json} {items : List α} (h : ∀ a ∈ items, schema.Valid (write a)) :
    (Schema.array none schema).Valid (.arr (items.map write)) := by
  constructor
  · rw [Schema.accepts, Option.all_none, Bool.true_and, List.all_eq_true]
    intro v hv
    obtain ⟨a, ha, rfl⟩ := List.mem_map.mp hv
    exact (h a ha).accepted
  · rw [Json.distinct, Json.distinctItems_iff]
    intro v hv
    obtain ⟨a, ha, rfl⟩ := List.mem_map.mp hv
    exact (h a ha).distinct

/-- What stands under a property is absent, null or valid. -/
theorem Schema.Valid.getD {properties : List Schema.Property} {name : String} {presence : Presence} {schema : Schema}
    (h : doc = .null ∨ (Schema.object false properties).Valid doc) (hmem : (name, presence, schema) ∈ properties) :
    (doc.get name).getD .null = .null ∨ schema.Valid ((doc.get name).getD .null) := by
  rcases h with rfl | hvalid
  · exact .inl rfl
  · have hadmits := Schema.admits_of_accepts hvalid.accepted hmem
    cases hget : doc.get name with
    | none => exact .inl rfl
    | some v =>
      rw [hget, Presence.admits] at hadmits
      cases hnull : v.isNull with
      | true => exact .inl (eq_null_of_isNull hnull)
      | false =>
        rw [hnull, Bool.and_false, Bool.false_or] at hadmits
        exact .inr ⟨hadmits, Json.distinct_get hvalid.distinct hget⟩

/-- Values of an optional field that are no objects. -/
theorem merges_option {properties : List Schema.Property} {name : String} {schema : Schema} {α : Type} {x : Option α}
    {write : α → Json} (hmem : ∃ presence, (name, presence, schema) ∈ properties) (hvalid : ∀ a ∈ x, schema.Valid (write a))
    (hflat : ∀ a, (write a).asObject = none) : ∀ v ∈ x.map write, Schema.Merges properties doc (name, v) := by
  intro v hv
  obtain ⟨a, ha, rfl⟩ := Option.map_eq_some_iff.mp hv
  exact .flat hmem (hvalid a ha) (hflat a)

theorem SpotScheduleStatus.merges (h : doc = .null ∨ FullStatus.schema.Valid doc) {s : SpotScheduleStatus}
    (hfits : ∀ n ∈ s.providerGeneration, longSchema.accepts (.num n) = true) :
    Schema.Merges FullStatus.properties doc ("spotSchedule", record (s.fields rfc3339)) := by
  have hmem : ("spotSchedule", Presence.nullable, Schema.object false SpotScheduleStatus.properties) ∈ FullStatus.properties := by
    simp [FullStatus.properties]
  refine ⟨_, _, hmem, rfl, ?_⟩
  refine Schema.Valid.mergePatch (by decide) (Json.recordFields_sublist.nodup s.nodup_fields) (Schema.Valid.getD h hmem) ?_ ?_
  · simp only [SpotScheduleStatus.fields, Json.forall_recordFields_cons, Option.mem_def, Option.some.injEq, forall_eq']
    refine ⟨.flat (by simp [properties]) (valid_boolean s.resolved) rfl, ?_, ?_, ?_, ?_, ?_, List.forall_mem_nil _⟩
    · exact merges_option (by simp [properties]) (fun b _ => valid_boolean b) fun _ => rfl
    · exact merges_option (by simp [properties]) (fun s _ => valid_text s) fun _ => rfl
    · exact merges_option (by simp [properties]) (fun s _ => valid_text s) fun _ => rfl
    · exact merges_option (by simp [properties]) (fun n hn => ⟨hfits n hn, rfl⟩) fun _ => rfl
    · exact merges_option (by simp [properties]) (fun t _ => valid_text (t.text rfc3339)) fun _ => rfl
  · intro _ property hproperty hrequired
    have hnames : ∀ property ∈ properties, property.2.1.isRequired = true → property.1 = "resolved" := by
      simp [properties, Presence.isRequired]
    rw [hnames property hproperty hrequired]
    simp [SpotScheduleStatus.fields, Json.recordFields]

theorem NodeRef.merges (h : doc = .null ∨ FullStatus.schema.Valid doc) (r : NodeRef) :
    Schema.Merges FullStatus.properties doc ("nodeRef", record r.fields) := by
  have hmem : ("nodeRef", Presence.nullable, Schema.object false NodeRef.properties) ∈ FullStatus.properties := by
    simp [FullStatus.properties]
  refine ⟨_, _, hmem, rfl, ?_⟩
  refine Schema.Valid.mergePatch (by decide) (Json.recordFields_sublist.nodup r.nodup_fields) (Schema.Valid.getD h hmem) ?_ ?_
  · simp only [NodeRef.fields, Json.forall_recordFields_cons, Option.mem_def, Option.some.injEq, forall_eq']
    refine ⟨.flat (by simp [properties]) (valid_text _) rfl, .flat (by simp [properties]) (valid_text _) rfl,
      .flat (by simp [properties]) (valid_text _) rfl, ?_, List.forall_mem_nil _⟩
    exact merges_option (by simp [properties]) (fun s _ => valid_text s) fun _ => rfl
  · intro _ property hproperty hrequired
    have hnames : ∀ property ∈ properties, property.2.1.isRequired = true → property.1 ∈ ["apiVersion", "kind", "name"] := by
      simp [properties, Presence.isRequired]
    have hname := hnames property hproperty hrequired
    simp only [List.mem_cons, List.not_mem_nil, or_false] at hname
    rcases hname with hname | hname | hname <;> simp [NodeRef.fields, Json.recordFields, hname]

/-- Every field of a patch that fits merges into a value the schema lets in. -/
theorem StatusPatch.merges (h : doc = .null ∨ FullStatus.schema.Valid doc) {body : StatusPatch} (hfits : body.Fits) :
    ∀ field ∈ recordFields (body.fields rfc3339), Schema.Merges FullStatus.properties doc field := by
  cases body with
  | phase target message conditions inSchedule ready =>
    simp only [StatusPatch.fields, FullStatus.fields, FullStatus.default, ScheduledMachineStatus.blank,
      Json.forall_recordFields_cons, Option.mem_def, Option.map_some, Option.map_none, Option.some.injEq, forall_eq',
      reduceCtorEq, false_implies, implies_true, true_and, List.isEmpty_nil, if_true]
    refine ⟨?_, ?_, ?_, ?_, ?_, List.forall_mem_nil _⟩
    · exact .flat (by simp [FullStatus.properties]) (valid_text _) rfl
    · exact .flat (by simp [FullStatus.properties]) (valid_text _) rfl
    · exact .flat (by simp [FullStatus.properties]) (valid_array fun c hc => Condition.valid (hfits c hc)) rfl
    · exact .flat (by simp [FullStatus.properties]) (valid_boolean _) rfl
    · exact .flat (by simp [FullStatus.properties]) (valid_boolean _) rfl
  | spotSchedule s =>
    simp only [StatusPatch.fields, Json.forall_recordFields_cons, Option.mem_def, Option.some.injEq, forall_eq']
    exact ⟨SpotScheduleStatus.merges h hfits, List.forall_mem_nil _⟩
  | machineRefs providerId nodeRef =>
    simp only [StatusPatch.fields, Json.forall_recordFields_cons]
    refine ⟨?_, ?_, List.forall_mem_nil _⟩
    · exact merges_option (by simp [FullStatus.properties]) (fun s _ => valid_text s) fun _ => rfl
    · intro v hv
      obtain ⟨r, -, rfl⟩ := Option.map_eq_some_iff.mp hv
      exact r.merges h
  | appliedNodeTaints applied =>
    simp only [StatusPatch.fields, Json.forall_recordFields_cons, Option.mem_def, Option.some.injEq, forall_eq']
    refine ⟨?_, List.forall_mem_nil _⟩
    exact .flat (by simp [FullStatus.properties]) (valid_array fun t _ => t.valid) rfl

end

end FiveSpot
