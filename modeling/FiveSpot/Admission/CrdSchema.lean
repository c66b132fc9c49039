import FiveSpot.Admission.Policy
import FiveSpot.Helpers.Agents
import FiveSpot.Model.Format
import FiveSpot.Model.StatusJson

/-! # The schema of a `ScheduledMachine` (`src/crd.rs`)

The schema of the spec as the CRD publishes it, beside what serde reads and writes. Properties stand in the order of the
Rust fields. The CEL rule on `schedule.apiVersion` follows from its pattern and is left out.
-/

namespace FiveSpot

set_option autoImplicit false

open RegularExpression Pattern
open Json (record)

/-! ## Patterns -/

/-- `[a-z0-9]([-a-z0-9]*[a-z0-9])?(\.[a-z0-9]([-a-z0-9]*[a-z0-9])?)*` -/
def subdomainPattern : RegularExpression Char := separated '.' Admission.labelPattern

/-- `spotschedules\.5spot\.finos\.org/[A-Za-z0-9][A-Za-z0-9.-]*` -/
def spotScheduleApiVersionPattern : RegularExpression Char :=
  literal "spotschedules.5spot.finos.org/".toList * (oneOf alphanumeric * star (oneOf (alphanumeric ++ ['.', '-'])))

/-- `[A-Z][A-Za-z0-9]*` -/
def kindPattern : RegularExpression Char := oneOf upper * star (oneOf alphanumeric)

/-- `[A-Za-z0-9._-]+` -/
def dataKeyPattern : RegularExpression Char := oneOrMore (oneOf (alphanumeric ++ ['.', '_', '-']))

/-- `[A-Za-z0-9@._-]+\.service` -/
def servicePattern : RegularExpression Char :=
  oneOrMore (oneOf (alphanumeric ++ ['@', '.', '_', '-'])) * literal ".service".toList

/-! ## Schemas of texts -/

def plainTextSchema : Schema := .string 0 none none

def spotScheduleApiVersionSchema : Schema := .string 1 (some 253) (some spotScheduleApiVersionPattern)

def spotScheduleKindSchema : Schema := .string 1 (some 63) (some kindPattern)

def spotScheduleNameSchema : Schema := .string 1 (some 253) (some subdomainPattern)

def clusterNameSchema : Schema := .string 1 (some 63) (some Admission.clusterNamePattern)

def killIfCommandsSchema : Schema := .array (some 100) (.string 1 (some 256) none)

def kubeconfigSecretNameSchema : Schema := .string 1 (some 253) (some subdomainPattern)

def kubeconfigSecretKeySchema : Schema := .string 1 (some 253) (some dataKeyPattern)

def kataConfigNameSchema : Schema := .string 1 (some 253) (some subdomainPattern)

def kataConfigKeySchema : Schema := .string 1 (some 253) (some dataKeyPattern)

def kataConfigRestartServiceSchema : Schema := .string 1 (some 255) (some servicePattern)

def kataConfigNamespaceSchema : Schema := .string 1 (some 63) (some Admission.labelPattern)

theorem mem_of_all {s cs : List Char} (h : s.all cs.contains = true) : ∀ c ∈ s, c ∈ cs :=
  fun c hc => List.contains_iff_mem.mp (List.all_eq_true.mp h c hc)

/-- The texts a schema of texts lets in. -/
def Schema.Lets (schema : Schema) (s : String) : Prop := schema.accepts (.str s) = true

theorem format_text (least : Nat) (greatest : Option Nat) (pattern : Option (RegularExpression Char)) :
    Format (.string least greatest pattern) Json.asStr .str (Schema.string least greatest pattern).Lets id := by
  have h := format_string least greatest pattern
  rwa [show fitsText least greatest pattern = (Schema.string least greatest pattern).Lets from
    funext fun s => propext accepts_string_iff.symm] at h

theorem lets_of_matches {least greatest : Nat} {pattern : RegularExpression Char} {s : String} (hleast : least ≤ s.length)
    (hgreatest : s.length ≤ greatest) (h : s.toList ∈ pattern.matches') :
    (Schema.string least (some greatest) (some pattern)).Lets s := by
  rw [Schema.Lets, accepts_string_iff]
  refine ⟨hleast, ?_, ?_⟩
  · rintro _ ⟨⟩
    exact hgreatest
  · rintro _ ⟨⟩
    exact (rmatch_iff_matches' pattern _).mpr h

theorem lets_plainText (s : String) : plainTextSchema.Lets s := by
  rw [Schema.Lets, plainTextSchema, accepts_string_iff]
  exact ⟨Nat.zero_le _, nofun, nofun⟩

/-! ## References -/

section

variable (get : String → Option Json)

namespace SpotScheduleRef

def properties : List Schema.Property :=
  [("apiVersion", .required, spotScheduleApiVersionSchema), ("kind", .required, spotScheduleKindSchema),
    ("name", .required, spotScheduleNameSchema)]

def readFields : Option SpotScheduleRef := do
  let apiVersion ← Reader.required Json.asStr (get "apiVersion")
  let kind ← Reader.required Json.asStr (get "kind")
  let name ← Reader.required Json.asStr (get "name")
  return ⟨apiVersion, kind, name⟩

def fields (r : SpotScheduleRef) : List (String × Option Json) :=
  [("apiVersion", some (.str r.apiVersion)), ("kind", some (.str r.kind)), ("name", some (.str r.name))]

/-- Unknown fields are denied. -/
def read : Reader SpotScheduleRef := .struct (some ["apiVersion", "kind", "name"]) readFields

structure Fits (r : SpotScheduleRef) : Prop where
  apiVersion : spotScheduleApiVersionSchema.Lets r.apiVersion
  kind : spotScheduleKindSchema.Lets r.kind
  name : spotScheduleNameSchema.Lets r.name

def equivFields : String × String × String × Unit ≃ SpotScheduleRef where
  toFun x := ⟨x.1, x.2.1, x.2.2.1⟩
  invFun r := (r.apiVersion, r.kind, r.name, ())
  left_inv _ := rfl
  right_inv _ := rfl

theorem recordFormat : RecordFormat properties readFields fields Fits id := by
  refine (((recordFormat_nil.cons (.required (format_text ..))).cons (.required (format_text ..))).cons
    (.required (format_text ..))).of_equiv equivFields (fun get => ?_) (fun _ => rfl) (fun r => ?_) fun _ => rfl
  · iterate 3 refine bind_eq_map_pair fun _ => ?_
    rfl
  · exact ⟨fun h => ⟨h.apiVersion, h.kind, h.name, trivial⟩, fun h => ⟨h.1, h.2.1, h.2.2.1⟩⟩

theorem format : Format (.object false properties) read (fun r => record r.fields) Fits id :=
  format_record recordFormat (by decide) fun _ h => by cases h; rfl

end SpotScheduleRef

namespace KubeconfigSecretRef

def properties : List Schema.Property :=
  [("name", .required, kubeconfigSecretNameSchema),
    ("key", .default (.str Constants.defaultKubeconfigSecretKey), kubeconfigSecretKeySchema)]

def readFields : Option KubeconfigSecretRef := do
  let name ← Reader.required Json.asStr (get "name")
  let key ← Reader.orElse Json.asStr Constants.defaultKubeconfigSecretKey (get "key")
  return ⟨name, key⟩

def fields (r : KubeconfigSecretRef) : List (String × Option Json) :=
  [("name", some (.str r.name)), ("key", some (.str r.key))]

def read : Reader KubeconfigSecretRef := .struct (some ["name", "key"]) readFields

structure Fits (r : KubeconfigSecretRef) : Prop where
  name : kubeconfigSecretNameSchema.Lets r.name
  key : kubeconfigSecretKeySchema.Lets r.key

def equivFields : String × String × Unit ≃ KubeconfigSecretRef where
  toFun x := ⟨x.1, x.2.1⟩
  invFun r := (r.name, r.key, ())
  left_inv _ := rfl
  right_inv _ := rfl

theorem lets_defaultKey : kubeconfigSecretKeySchema.Lets Constants.defaultKubeconfigSecretKey :=
  lets_of_matches (by decide) (by decide) (mem_oneOrMore_oneOf.mpr ⟨by decide, mem_of_all (by decide)⟩)

theorem recordFormat : RecordFormat properties readFields fields Fits id := by
  refine ((recordFormat_nil.cons (.orElse (format_text ..) lets_defaultKey rfl rfl)).cons
    (.required (format_text ..))).of_equiv equivFields (fun get => ?_) (fun _ => rfl) (fun r => ?_) fun _ => rfl
  · iterate 2 refine bind_eq_map_pair fun _ => ?_
    rfl
  · exact ⟨fun h => ⟨h.name, h.key, trivial⟩, fun h => ⟨h.1, h.2.1⟩⟩

theorem format : Format (.object false properties) read (fun r => record r.fields) Fits id :=
  format_record recordFormat (by decide) fun _ h => by cases h; rfl

end KubeconfigSecretRef

namespace KataConfig

def kinds : List (String × KataConfigSourceKind) := [("ConfigMap", .configMap), ("Secret", .secret)]

def defaultNamespace : String := "5spot-system"

def defaultKey : String := "kata-containers.toml"

def defaultRestartService : String := "k0sworker.service"

def properties : List Schema.Property :=
  [("kind", .required, .enum (kinds.map Prod.fst)), ("name", .required, kataConfigNameSchema),
    ("namespace", .default (.str defaultNamespace), kataConfigNamespaceSchema),
    ("key", .default (.str defaultKey), kataConfigKeySchema),
    ("restartService", .default (.str defaultRestartService), kataConfigRestartServiceSchema)]

def readFields : Option KataConfig := do
  let kind ← Reader.required (readName kinds) (get "kind")
  let name ← Reader.required Json.asStr (get "name")
  let ns ← Reader.orElse Json.asStr defaultNamespace (get "namespace")
  let key ← Reader.orElse Json.asStr defaultKey (get "key")
  let restartService ← Reader.orElse Json.asStr defaultRestartService (get "restartService")
  return ⟨kind, name, ns, key, restartService⟩

def fields (kata : KataConfig) : List (String × Option Json) :=
  [("kind", some (.str kata.kind.text)), ("name", some (.str kata.name)), ("namespace", some (.str kata.ns)),
    ("key", some (.str kata.key)), ("restartService", some (.str kata.restartService))]

def read : Reader KataConfig := .struct (some ["kind", "name", "namespace", "key", "restartService"]) readFields

structure Fits (kata : KataConfig) : Prop where
  name : kataConfigNameSchema.Lets kata.name
  ns : kataConfigNamespaceSchema.Lets kata.ns
  key : kataConfigKeySchema.Lets kata.key
  restartService : kataConfigRestartServiceSchema.Lets kata.restartService

def equivFields : KataConfigSourceKind × String × String × String × String × Unit ≃ KataConfig where
  toFun x := ⟨x.1, x.2.1, x.2.2.1, x.2.2.2.1, x.2.2.2.2.1⟩
  invFun kata := (kata.kind, kata.name, kata.ns, kata.key, kata.restartService, ())
  left_inv _ := rfl
  right_inv _ := rfl

theorem lets_defaultNamespace : kataConfigNamespaceSchema.Lets defaultNamespace := by
  refine lets_of_matches (by decide) (by decide) ((mem_framed (mem_of_all (by decide))).mpr ?_)
  exact ⟨⟨'5', by decide, rfl⟩, ⟨'m', by decide, rfl⟩, mem_of_all (by decide)⟩

theorem lets_defaultKey : kataConfigKeySchema.Lets defaultKey :=
  lets_of_matches (by decide) (by decide) (mem_oneOrMore_oneOf.mpr ⟨by decide, mem_of_all (by decide)⟩)

theorem lets_defaultRestartService : kataConfigRestartServiceSchema.Lets defaultRestartService := by
  refine lets_of_matches (by decide) (by decide) ?_
  exact ⟨"k0sworker".toList, mem_oneOrMore_oneOf.mpr ⟨by decide, mem_of_all (by decide)⟩, _, mem_literal.mpr rfl, by decide⟩

theorem recordFormat : RecordFormat properties readFields fields Fits id := by
  have hkinds : ∀ kind : KataConfigSourceKind, (kind.text, kind) ∈ kinds := by
    rintro (_ | _) <;> decide
  refine (((((recordFormat_nil.cons (.orElse (format_text ..) lets_defaultRestartService rfl rfl)).cons
    (.orElse (format_text ..) lets_defaultKey rfl rfl)).cons (.orElse (format_text ..) lets_defaultNamespace rfl rfl)).cons
      (.required (format_text ..))).cons (.required (format_enum hkinds (by decide)))).of_equiv
        equivFields (fun get => ?_) (fun _ => rfl) (fun kata => ?_) fun _ => rfl
  · iterate 5 refine bind_eq_map_pair fun _ => ?_
    rfl
  · exact ⟨fun h => ⟨trivial, h.name, h.ns, h.key, h.restartService, trivial⟩,
      fun h => ⟨h.2.1, h.2.2.1, h.2.2.2.1, h.2.2.2.2.1⟩⟩

theorem format : Format (.object false properties) read (fun kata => record kata.fields) Fits id :=
  format_record recordFormat (by decide) fun _ h => by cases h; rfl

end KataConfig

namespace NodeTaint

def effects : List (String × TaintEffect) :=
  [("NoSchedule", .noSchedule), ("PreferNoSchedule", .preferNoSchedule), ("NoExecute", .noExecute)]

def properties : List Schema.Property :=
  [("key", .required, plainTextSchema), ("value", .nullable, plainTextSchema),
    ("effect", .required, .enum (effects.map Prod.fst))]

def readFields : Option NodeTaint := do
  let key ← Reader.required Json.asStr (get "key")
  let value ← Reader.optional Json.asStr (get "value")
  let effect ← Reader.required (readName effects) (get "effect")
  return ⟨key, value, effect⟩

/-- The fields of `NodeTaint.toJson`. -/
def fields (t : NodeTaint) : List (String × Option Json) :=
  [("key", some (.str t.key)), ("value", t.value.map .str), ("effect", some (.str t.effect.text))]

def read : Reader NodeTaint := .struct none readFields

def equivFields : String × Option String × TaintEffect × Unit ≃ NodeTaint where
  toFun x := ⟨x.1, x.2.1, x.2.2.1⟩
  invFun t := (t.key, t.value, t.effect, ())
  left_inv _ := rfl
  right_inv _ := rfl

theorem recordFormat : RecordFormat properties readFields fields (fun _ => True) id := by
  have heffects : ∀ effect : TaintEffect, (effect.text, effect) ∈ effects := by
    rintro (_ | _ | _) <;> decide
  refine (((recordFormat_nil.cons (.required (format_enum heffects (by decide)))).cons
    (.optional (format_text ..) rfl rfl)).cons (.required (format_text ..))).of_equiv equivFields
      (fun get => ?_) (fun _ => rfl) (fun t => ?_) fun t => ?_
  · iterate 3 refine bind_eq_map_pair fun _ => ?_
    rfl
  · exact iff_of_true trivial ⟨lets_plainText _, fun s _ => lets_plainText s, trivial, trivial⟩
  · obtain ⟨key, value, effect⟩ := t
    cases value <;> rfl

theorem format : Format (.object false properties) read NodeTaint.toJson (fun _ => True) id :=
  format_record recordFormat (by decide) nofun

end NodeTaint

namespace MachineTemplateSpec

def properties : List Schema.Property :=
  [("labels", .default (.obj []), .map plainTextSchema), ("annotations", .default (.obj []), .map plainTextSchema)]

def readFields : Option MachineTemplateSpec := do
  let labels ← Reader.orElse readMap [] (get "labels")
  let annotations ← Reader.orElse readMap [] (get "annotations")
  return ⟨labels, annotations⟩

def fields (m : MachineTemplateSpec) : List (String × Option Json) :=
  [("labels", some m.labels.toJson), ("annotations", some m.annotations.toJson)]

def read : Reader MachineTemplateSpec := .struct none readFields

structure Fits (m : MachineTemplateSpec) : Prop where
  labels : m.labels.Ordered
  annotations : m.annotations.Ordered

def equivFields : StringMap × StringMap × Unit ≃ MachineTemplateSpec where
  toFun x := ⟨x.1, x.2.1⟩
  invFun m := (m.labels, m.annotations, ())
  left_inv _ := rfl
  right_inv _ := rfl

theorem recordFormat : RecordFormat properties readFields fields Fits id := by
  refine ((recordFormat_nil.cons (.orElse format_map List.Pairwise.nil rfl rfl)).cons
    (.orElse format_map List.Pairwise.nil rfl rfl)).of_equiv equivFields (fun get => ?_) (fun _ => rfl)
      (fun m => ?_) fun _ => rfl
  · iterate 2 refine bind_eq_map_pair fun _ => ?_
    rfl
  · exact ⟨fun h => ⟨h.labels, h.annotations, trivial⟩, fun h => ⟨h.1, h.2.1⟩⟩

theorem format : Format (.object false properties) read (fun m => record m.fields) Fits id :=
  format_record recordFormat (by decide) nofun

end MachineTemplateSpec

/-! ## Embedded resources -/

namespace EmbeddedResource

def metadataProperties : List Schema.Property :=
  [("labels", .optional, .map plainTextSchema), ("annotations", .optional, .map plainTextSchema)]

def properties : List Schema.Property :=
  [("apiVersion", .required, plainTextSchema), ("kind", .required, plainTextSchema),
    ("metadata", .optional, .object true metadataProperties), ("spec", .required, .object true [])]

def schema : Schema := .object false properties

/-- Any value is read as it is. -/
def read : Reader EmbeddedResource := fun v => some ⟨v⟩

structure Fits (e : EmbeddedResource) : Prop where
  accepted : schema.accepts e.value = true
  distinct : e.value.distinct = true

/-- Unknown fields are dropped. -/
def settled (e : EmbeddedResource) : EmbeddedResource := ⟨schema.complete e.value⟩

theorem stable_schema : schema.Stable := by
  have hmetadata : (Schema.object true metadataProperties).Stable := by
    refine stable_object (by decide) ?_ ?_
    · simp [metadataProperties, Presence.fallback]
    · simp only [metadataProperties, List.forall_mem_cons]
      exact ⟨stable_map (stable_string _ _ _), stable_map (stable_string _ _ _), nofun⟩
  refine stable_object (by decide) ?_ ?_
  · simp [properties, Presence.fallback]
  · simp only [properties, List.forall_mem_cons]
    exact ⟨stable_string _ _ _, stable_string _ _ _, hmetadata, stable_object (by decide) nofun nofun, nofun⟩

theorem format : Format schema read EmbeddedResource.value Fits settled where
  reads v hdistinct hv := ⟨⟨v⟩, rfl, hv, hdistinct⟩
  distinct _ h := h.distinct
  accepts _ h := h.accepted
  complete _ h := stable_schema _ h.distinct h.accepted
  back _ _ := rfl
  settles _ _ _ _ hread := by
    cases hread
    rfl

/-- What the controller looks at in an embedded resource is the same. -/
structure SameView (e e' : EmbeddedResource) : Prop where
  apiVersion : e.apiVersion = e'.apiVersion
  kind : e.kind = e'.kind
  spec : e.spec = e'.spec
  metadataNamespace : e.metadataNamespace = e'.metadataNamespace
  metadataName : e.metadataName = e'.metadataName
  metadataLabels : e.metadataLabels = e'.metadataLabels
  metadataAnnotations : e.metadataAnnotations = e'.metadataAnnotations

theorem complete_plainText (v : Json) : plainTextSchema.complete v = v := by
  cases v <;> rfl

theorem complete_free (v : Json) : (Schema.object true []).complete v = v := by
  cases v with
  | obj fields =>
    rw [Schema.complete, Schema.defaults, List.filterMap_nil, List.append_nil]
    exact congrArg Json.obj (List.filterMap_some)
  | _ => rfl

/-- Entries without a value were none to begin with. -/
theorem embeddedStringMap_complete (x : Option Json) :
    embeddedStringMap (Presence.optional.complete (.map plainTextSchema) x) = embeddedStringMap x := by
  cases x with
  | none => rfl
  | some v =>
    cases v with
    | obj fields =>
      have hcomplete : Presence.optional.complete (.map plainTextSchema) (some (.obj fields)) =
          some (.obj (fields.filter fun field => !field.2.isNull)) := by
        rw [Presence.complete, Schema.complete, ← List.filterMap_eq_filter]
        refine congrArg (fun kept => some (Json.obj kept)) (List.filterMap_congr fun field _ => ?_)
        rw [complete_plainText, Option.guard]
        cases field.2.isNull <;> rfl
      have hkept : (fields.filter fun field => !field.2.isNull).filterMap
          (fun field => field.2.asStr.map fun s => (field.1, s)) =
            fields.filterMap fun field => field.2.asStr.map fun s => (field.1, s) := by
        rw [List.filterMap_filter]
        refine List.filterMap_congr fun field _ => ?_
        cases field.2 <;> rfl
      rw [hcomplete, embeddedStringMap, embeddedStringMap, Option.bind_some, Option.bind_some, Json.asObject, Json.asObject]
      dsimp only
      rw [hkept]
    | _ => rfl

theorem asStr_complete (x : Option Json) : (Presence.required.complete plainTextSchema x).bind Json.asStr = x.bind Json.asStr := by
  cases x with
  | none => rfl
  | some v => cases v <;> rfl

section

variable {x : Option Json} (hdistinct : ∀ v ∈ x, v.distinct = true)
include hdistinct

/-- The known maps of the metadata lose their nulls. -/
theorem metadata_complete {name : String} (hname : name ∈ metadataProperties.map Prod.fst) :
    (Presence.optional.complete (.object true metadataProperties) x).bind (Json.get name) =
      Presence.optional.complete (.map plainTextSchema) (x.bind (Json.get name)) := by
  have hmem : (name, Presence.optional, Schema.map plainTextSchema) ∈ metadataProperties := by
    simp only [metadataProperties, List.map_cons, List.map_nil, List.mem_cons, List.not_mem_nil, or_false] at hname
    rcases hname with rfl | rfl
    · exact List.mem_cons_self
    · exact List.mem_cons_of_mem _ List.mem_cons_self
  cases x with
  | none => rfl
  | some v =>
    cases v with
    | obj fields =>
      have hobject := hdistinct _ rfl
      rw [Json.distinct, Bool.and_eq_true, decide_eq_true_eq] at hobject
      exact Schema.get_complete (by decide) hobject.1 hmem
    | _ => rfl

theorem metadata_complete_of_not_mem {name : String} (hname : name ∉ metadataProperties.map Prod.fst) :
    (Presence.optional.complete (.object true metadataProperties) x).bind (Json.get name) = x.bind (Json.get name) := by
  cases x with
  | none => rfl
  | some v =>
    cases v with
    | obj fields =>
      have hobject := hdistinct _ rfl
      rw [Json.distinct, Bool.and_eq_true, decide_eq_true_eq] at hobject
      exact Schema.get_complete_of_not_mem hobject.1 hname
    | _ => rfl

end

theorem settled_sameView {e : EmbeddedResource} (hdistinct : e.value.distinct = true)
    (haccepts : schema.accepts (schema.complete e.value) = true) : SameView e.settled e := by
  obtain ⟨v⟩ := e
  cases v with
  | obj fields =>
    have hnames := hdistinct
    rw [Json.distinct, Bool.and_eq_true, decide_eq_true_eq] at hnames
    have hget : ∀ name presence inner, (name, presence, inner) ∈ properties →
        (schema.complete (.obj fields)).get name = presence.complete inner ((Json.obj fields).get name) :=
      fun _ _ _ => Schema.get_complete (by decide) hnames.1
    have hapiVersion := hget "apiVersion" .required plainTextSchema (by simp [properties])
    have hkind := hget "kind" .required plainTextSchema (by simp [properties])
    have hmetadata := hget "metadata" .optional (.object true metadataProperties) (by simp [properties])
    have hspec := hget "spec" .required (.object true []) (by simp [properties])
    have hinner : ∀ v ∈ (Json.obj fields).get "metadata", v.distinct = true := fun v hv => Json.distinct_get hdistinct hv
    refine ⟨?_, ?_, ?_, ?_, ?_, ?_, ?_⟩
    · rw [apiVersion, apiVersion, settled, hapiVersion, asStr_complete]
    · rw [kind, kind, settled, hkind, asStr_complete]
    · have hadmits : Presence.required.admits (.object true []) ((schema.complete (.obj fields)).get "spec") = true :=
        Schema.admits_of_accepts haccepts (by simp [properties])
      rw [hspec] at hadmits
      rw [spec, spec, settled, hspec]
      dsimp only
      cases hvalue : (Json.obj fields).get "spec" with
      | none => rfl
      | some w =>
        rw [hvalue, Presence.complete] at hadmits
        rw [Presence.complete]
        cases hnull : w.isNull with
        | true =>
          rw [hnull] at hadmits
          cases hadmits
        | false => exact congrArg some (complete_free w)
    · rw [metadataNamespace, metadataNamespace, metadata, metadata, settled, hmetadata,
        metadata_complete_of_not_mem hinner (by decide)]
    · rw [metadataName, metadataName, metadata, metadata, settled, hmetadata,
        metadata_complete_of_not_mem hinner (by decide)]
    · rw [metadataLabels, metadataLabels, metadata, metadata, settled, hmetadata, metadata_complete hinner (by decide),
        embeddedStringMap_complete]
    · rw [metadataAnnotations, metadataAnnotations, metadata, metadata, settled, hmetadata,
        metadata_complete hinner (by decide), embeddedStringMap_complete]
  | _ => cases haccepts

theorem asStr_isSome_iff {v : Json} : v.asStr.isSome = plainTextSchema.accepts v := by
  cases v <;> rfl

theorem asObject_isSome_iff {v : Json} : v.asObject.isSome = (Schema.object true []).accepts v := by
  cases v <;> rfl

theorem stringMapSchema_eq {v : Json} : Admission.stringMapSchema v = (Schema.map plainTextSchema).accepts v := by
  cases v with
  | obj fields =>
    rw [Admission.stringMapSchema, Schema.accepts]
    exact congrArg _ (funext fun field => asStr_isSome_iff)
  | _ => rfl

theorem metadataSchema_eq {v : Json} : Admission.metadataSchema v = (Schema.object true metadataProperties).accepts v := by
  cases v with
  | obj fields =>
    rw [Admission.metadataSchema, Schema.accepts, metadataProperties]
    simp only [Schema.acceptsAll, Bool.true_or, Bool.true_and, Bool.and_true]
    refine congrArg₂ _ ?_ ?_
    · cases (Json.obj fields).get "labels" with
      | none => rfl
      | some v => exact stringMapSchema_eq
    · cases (Json.obj fields).get "annotations" with
      | none => rfl
      | some v => exact stringMapSchema_eq
  | _ => rfl

/-- The policy takes for granted what this schema lets in. -/
theorem embeddedResourceSchema_eq {v : Json} : Admission.embeddedResourceSchema v = schema.accepts v := by
  cases v with
  | obj fields =>
    rw [Admission.embeddedResourceSchema, schema, Schema.accepts, properties]
    simp only [Schema.acceptsAll, Bool.false_or, Bool.and_true, Bool.and_assoc]
    refine congrArg₂ _ rfl (congrArg₂ _ ?_ (congrArg₂ _ ?_ ?_))
    · cases (Json.obj fields).get "apiVersion" with
      | none => rfl
      | some v => exact asStr_isSome_iff
    · cases (Json.obj fields).get "kind" with
      | none => rfl
      | some v => exact asStr_isSome_iff
    rw [Bool.and_comm]
    refine congrArg₂ _ ?_ ?_
    · cases (Json.obj fields).get "metadata" with
      | none => rfl
      | some v => exact metadataSchema_eq
    · cases (Json.obj fields).get "spec" with
      | none => rfl
      | some v => exact asObject_isSome_iff
  | _ => rfl

end EmbeddedResource

/-! ## The spec -/

namespace ScheduledMachineSpec

def defaultPriority : UInt8 := 50

def defaultGracefulShutdownTimeout : String := "5m"

def defaultNodeDrainTimeout : String := "5m"

def properties : List Schema.Property :=
  [("schedule", .required, .object false SpotScheduleRef.properties), ("enabled", .default (.bool true), .boolean),
    ("clusterName", .required, clusterNameSchema), ("bootstrapSpec", .required, EmbeddedResource.schema),
    ("infrastructureSpec", .required, EmbeddedResource.schema),
    ("machineTemplate", .nullable, .object false MachineTemplateSpec.properties),
    ("priority", .default (.num defaultPriority.toNat), .integer 0 255),
    ("gracefulShutdownTimeout", .default (.str defaultGracefulShutdownTimeout), plainTextSchema),
    ("nodeDrainTimeout", .default (.str defaultNodeDrainTimeout), plainTextSchema),
    ("killSwitch", .default (.bool false), .boolean),
    ("nodeTaints", .optional, .array none (.object false NodeTaint.properties)),
    ("killIfCommands", .optional, killIfCommandsSchema),
    ("kubeconfigSecretRef", .nullable, .object false KubeconfigSecretRef.properties),
    ("kata", .nullable, .object false KataConfig.properties)]

def schema : Schema := .object false properties

def readFields : Option ScheduledMachineSpec := do
  let schedule ← Reader.required SpotScheduleRef.read (get "schedule")
  let enabled ← Reader.orElse Json.asBool true (get "enabled")
  let clusterName ← Reader.required Json.asStr (get "clusterName")
  let bootstrapSpec ← Reader.required EmbeddedResource.read (get "bootstrapSpec")
  let infrastructureSpec ← Reader.required EmbeddedResource.read (get "infrastructureSpec")
  let machineTemplate ← Reader.optional MachineTemplateSpec.read (get "machineTemplate")
  let priority ← Reader.orElse readByte defaultPriority (get "priority")
  let gracefulShutdownTimeout ← Reader.orElse Json.asStr defaultGracefulShutdownTimeout (get "gracefulShutdownTimeout")
  let nodeDrainTimeout ← Reader.orElse Json.asStr defaultNodeDrainTimeout (get "nodeDrainTimeout")
  let killSwitch ← Reader.orElse Json.asBool false (get "killSwitch")
  let nodeTaints ← Reader.orElse (readList NodeTaint.read) [] (get "nodeTaints")
  let killIfCommands ← Reader.optional (readList Json.asStr) (get "killIfCommands")
  let kubeconfigSecretRef ← Reader.optional KubeconfigSecretRef.read (get "kubeconfigSecretRef")
  let kata ← Reader.optional KataConfig.read (get "kata")
  return ⟨schedule, enabled, clusterName, bootstrapSpec, infrastructureSpec, machineTemplate, priority,
    gracefulShutdownTimeout, nodeDrainTimeout, killSwitch, nodeTaints, killIfCommands, kubeconfigSecretRef, kata⟩

def fields (spec : ScheduledMachineSpec) : List (String × Option Json) :=
  [("schedule", some (record spec.schedule.fields)), ("enabled", some (.bool spec.enabled)),
    ("clusterName", some (.str spec.clusterName)), ("bootstrapSpec", some spec.bootstrapSpec.value),
    ("infrastructureSpec", some spec.infrastructureSpec.value),
    ("machineTemplate", spec.machineTemplate.map fun m => record m.fields), ("priority", some (.num spec.priority.toNat)),
    ("gracefulShutdownTimeout", some (.str spec.gracefulShutdownTimeout)),
    ("nodeDrainTimeout", some (.str spec.nodeDrainTimeout)), ("killSwitch", some (.bool spec.killSwitch)),
    ("nodeTaints", if spec.nodeTaints.isEmpty then none else some (.arr (spec.nodeTaints.map NodeTaint.toJson))),
    ("killIfCommands", spec.killIfCommands.map fun commands => .arr (commands.map .str)),
    ("kubeconfigSecretRef", spec.kubeconfigSecretRef.map fun r => record r.fields),
    ("kata", spec.kata.map fun kata => record kata.fields)]

def read : Reader ScheduledMachineSpec := .struct none readFields

def write (spec : ScheduledMachineSpec) : Json := record spec.fields

/-- What the schema promises of a spec. -/
structure Fits (spec : ScheduledMachineSpec) : Prop where
  schedule : spec.schedule.Fits
  clusterName : clusterNameSchema.Lets spec.clusterName
  bootstrapSpec : spec.bootstrapSpec.Fits
  infrastructureSpec : spec.infrastructureSpec.Fits
  machineTemplate : ∀ m ∈ spec.machineTemplate, m.Fits
  killIfCommands : ∀ commands ∈ spec.killIfCommands, commands.length ≤ 100 ∧
    ∀ command ∈ commands, (Schema.string 1 (some 256) none).Lets command
  kubeconfigSecretRef : ∀ r ∈ spec.kubeconfigSecretRef, r.Fits
  kata : ∀ kata ∈ spec.kata, kata.Fits

def settled (spec : ScheduledMachineSpec) : ScheduledMachineSpec :=
  { spec with bootstrapSpec := spec.bootstrapSpec.settled, infrastructureSpec := spec.infrastructureSpec.settled }

def equivFields : SpotScheduleRef × Bool × String × EmbeddedResource × EmbeddedResource × Option MachineTemplateSpec × UInt8 ×
    String × String × Bool × List NodeTaint × Option (List String) × Option KubeconfigSecretRef × Option KataConfig × Unit ≃
      ScheduledMachineSpec where
  toFun := fun (schedule, enabled, clusterName, bootstrapSpec, infrastructureSpec, machineTemplate, priority,
      gracefulShutdownTimeout, nodeDrainTimeout, killSwitch, nodeTaints, killIfCommands, kubeconfigSecretRef, kata, _) =>
    ⟨schedule, enabled, clusterName, bootstrapSpec, infrastructureSpec, machineTemplate, priority,
      gracefulShutdownTimeout, nodeDrainTimeout, killSwitch, nodeTaints, killIfCommands, kubeconfigSecretRef, kata⟩
  invFun spec := (spec.schedule, spec.enabled, spec.clusterName, spec.bootstrapSpec, spec.infrastructureSpec,
    spec.machineTemplate, spec.priority, spec.gracefulShutdownTimeout, spec.nodeDrainTimeout, spec.killSwitch,
    spec.nodeTaints, spec.killIfCommands, spec.kubeconfigSecretRef, spec.kata, ())
  left_inv _ := rfl
  right_inv _ := rfl

theorem recordFormat : RecordFormat properties readFields fields Fits settled := by
  have htaints : FieldFormat .optional (.array none (.object false NodeTaint.properties))
      (Reader.orElse (readList NodeTaint.read) [])
      (fun taints => if taints.isEmpty then none else some (.arr (taints.map NodeTaint.toJson)))
      (fun taints => (∀ n ∈ (none : Option Nat), taints.length ≤ n) ∧ ∀ t ∈ taints, True) (List.map id) :=
    .skipped (format_list NodeTaint.format none) ⟨nofun, nofun⟩ (fun _ => List.isEmpty_iff.mp) rfl rfl
  have hcommands : FieldFormat .optional killIfCommandsSchema (Reader.optional (readList Json.asStr))
      (Option.map fun commands => .arr (commands.map .str)) _ (Option.map (List.map id)) :=
    .optional (format_list (format_text 1 (some 256) none) (some 100)) rfl rfl
  refine ((((((((((((((recordFormat_nil.cons (.optional KataConfig.format rfl rfl)).cons
    (.optional KubeconfigSecretRef.format rfl rfl)).cons hcommands).cons htaints).cons
      (.orElse format_boolean trivial rfl rfl)).cons (.orElse (format_text ..) (lets_plainText _) rfl rfl)).cons
        (.orElse (format_text ..) (lets_plainText _) rfl rfl)).cons (.orElse format_byte trivial rfl rfl)).cons
          (.optional MachineTemplateSpec.format rfl rfl)).cons (.required EmbeddedResource.format)).cons
            (.required EmbeddedResource.format)).cons (.required (format_text ..))).cons
              (.orElse format_boolean trivial rfl rfl)).cons (.required SpotScheduleRef.format)).of_equiv equivFields
                (fun get => ?_) (fun _ => rfl) (fun spec => ?_) fun spec => ?_
  · iterate 14 refine bind_eq_map_pair fun _ => ?_
    rfl
  · constructor
    · intro h
      exact ⟨h.schedule, trivial, h.clusterName, h.bootstrapSpec, h.infrastructureSpec, h.machineTemplate, trivial,
        lets_plainText _, lets_plainText _, trivial, ⟨nofun, fun _ _ => trivial⟩,
        fun commands hcommands => ⟨fun _ hn => by cases hn; exact (h.killIfCommands commands hcommands).1,
          (h.killIfCommands commands hcommands).2⟩, h.kubeconfigSecretRef, h.kata, trivial⟩
    · rintro ⟨hschedule, -, hcluster, hbootstrap, hinfra, htemplate, -, -, -, -, -, hcommands, hsecret, hkata, -⟩
      exact ⟨hschedule, hcluster, hbootstrap, hinfra, htemplate,
        fun commands hmem => ⟨(hcommands commands hmem).1 100 rfl, (hcommands commands hmem).2⟩, hsecret, hkata⟩
  · simp only [settled, equivFields, Equiv.coe_fn_mk, Equiv.coe_fn_symm_mk, Prod.map, id,
      List.map_id, List.map_id_fun, Option.map_id_fun]

theorem format : Format schema read write Fits settled := format_record recordFormat (by decide) nofun

end ScheduledMachineSpec

end

end FiveSpot
