import FiveSpot.Safety.Provisioning

/-! # Created objects

What a spec can put into the objects that are created for it, and what it cannot.
-/

namespace FiveSpot

set_option autoImplicit false

open Interaction

/-! ## Reading an object -/

/-- The value at a path of field names. -/
def Json.at (path : List String) (value : Json) : Option Json := path.foldlM (fun value name => value.get name) value

def Create.field (c : Create) (path : List String) : Option Json := c.body.at path

def Create.map (c : Create) (path : List String) : Option StringMap := (c.field path).bind StringMap.ofJson

/-- The reference names the object that `c` creates, and its type as `c` gives it. -/
structure Designates (ref : Json) (c : Create) : Prop where
  apiVersion : ref.get "apiVersion" = c.field ["apiVersion"]
  kind : ref.get "kind" = c.field ["kind"]
  name : ref.get "name" = some (.str c.name)
  ns : ref.get "namespace" = some (.str c.ns)

/-- The object says what it was posted as. -/
structure PostedAs (ctx : Context) (c : Create) (apiVersion kind : String) : Prop where
  bodyApiVersion : c.field ["apiVersion"] = some (.str apiVersion)
  bodyKind : c.field ["kind"] = some (.str kind)
  ar : c.ar = dynamicResource ctx apiVersion kind

/-- The controller's two labels have the controller's values, and no other key is reserved. -/
structure OwnedLabels (sm : ScheduledMachine) (labels : StringMap) : Prop where
  scheduledMachine : labels.lookup Constants.scheduledMachineLabel = some sm.metadata.name
  clusterName : labels.lookup Constants.capiClusterNameLabel = some sm.spec.clusterName
  others : ∀ entry ∈ labels, (reservedPrefixOf entry.1).isSome →
    entry = (Constants.scheduledMachineLabel, sm.metadata.name) ∨
      entry = (Constants.capiClusterNameLabel, sm.spec.clusterName)

def Unreserved (annotations : StringMap) : Prop := ∀ entry ∈ annotations, reservedPrefixOf entry.1 = none

/-- An object the resource owns, of one of the groups its role allows, and reviewed as it is posted. -/
structure Owned (ctx : Context) (sm : ScheduledMachine) (trace : List (Sigma Resp)) (groups : List String)
    (c : Create) : Prop where
  name : c.name = sm.metadata.name
  ns : sm.metadata.ns = some c.ns
  bodyName : c.field ["metadata", "name"] = some (.str c.name)
  bodyNamespace : c.field ["metadata", "namespace"] = some (.str c.ns)
  type : ∃ apiVersion kind, PostedAs ctx c apiVersion kind
  group : c.ar.group ∈ groups
  labels : ∃ labels, c.map ["metadata", "labels"] = some labels ∧ OwnedLabels sm labels
  annotations : ∃ annotations, c.map ["metadata", "annotations"] = some annotations ∧ Unreserved annotations
  approved : Approved trace c

/-- The three objects of a machine, in the order in which they are created. -/
structure Genuine (ctx : Context) (sm : ScheduledMachine) (trace : List (Sigma Resp)) (b i m : Create) : Prop where
  made : (creates trace).map Prod.fst <+: [b, i, m]
  bootstrap : Owned ctx sm trace Constants.allowedBootstrapApiGroups b
  infra : Owned ctx sm trace Constants.allowedInfrastructureApiGroups i
  machine : Owned ctx sm trace [Constants.capiGroup] m
  configRef : ∃ ref, m.field ["spec", "bootstrap", "configRef"] = some ref ∧ Designates ref b
  infrastructureRef : ∃ ref, m.field ["spec", "infrastructureRef"] = some ref ∧ Designates ref i

/-! ## Labels and annotations -/

section

variable {sm : ScheduledMachine} {uid : String}

theorem unreserved_of_validateLabels {labels : StringMap} {field : String} (h : validateLabels labels field = .ok ()) :
    Unreserved labels := by
  induction labels with
  | nil => exact nofun
  | cons entry rest ih =>
    unfold validateLabels at h
    split at h
    · cases h
    · rename_i hkey
      rintro entry' (_ | ⟨_, hrest⟩)
      · exact hkey
      · exact ih h entry' hrest

theorem ownedLabels_mergeOwnedLabels {labels : StringMap} (h : Unreserved labels) :
    OwnedLabels sm (mergeOwnedLabels labels sm.metadata.name sm.spec.clusterName) where
  scheduledMachine := by
    rw [mergeOwnedLabels, StringMap.lookup_insert_of_ne (by decide), StringMap.lookup_insert_self]
  clusterName := StringMap.lookup_insert_self ..
  others := by
    intro entry hentry hreserved
    rcases StringMap.mem_of_mem_insert hentry with hcluster | hentry
    · exact .inr hcluster
    rcases StringMap.mem_of_mem_insert hentry with hmachine | hentry
    · exact .inl hmachine
    rw [h entry hentry] at hreserved
    cases hreserved

/-- Every map that reaches an object has been looked through. -/
structure CheckedMaps (sm : ScheduledMachine) : Prop where
  templateLabels : Unreserved (sm.spec.machineTemplate.getD ⟨[], []⟩).labels
  templateAnnotations : Unreserved (sm.spec.machineTemplate.getD ⟨[], []⟩).annotations
  bootstrapLabels : Unreserved sm.spec.bootstrapSpec.metadataLabels
  bootstrapAnnotations : Unreserved sm.spec.bootstrapSpec.metadataAnnotations
  infraLabels : Unreserved sm.spec.infrastructureSpec.metadataLabels
  infraAnnotations : Unreserved sm.spec.infrastructureSpec.metadataAnnotations

theorem unreserved_of_validateEmbeddedMetadata {embedded : EmbeddedResource} {field : String}
    (h : validateEmbeddedMetadata embedded field = .ok ()) :
    Unreserved embedded.metadataLabels ∧ Unreserved embedded.metadataAnnotations := by
  unfold validateEmbeddedMetadata at h
  split at h
  · cases h
  · split at h
    · cases h
    · obtain ⟨_, hlabels, hannotations⟩ := except_bind_eq_ok_iff.mp h
      exact ⟨unreserved_of_validateLabels hlabels, unreserved_of_validateLabels hannotations⟩

theorem checkedMaps_of_validateCapiMetadata (h : validateCapiMetadata sm = .ok uid) : CheckedMaps sm := by
  obtain ⟨htemplate, hembedded⟩ : (Unreserved (sm.spec.machineTemplate.getD ⟨[], []⟩).labels ∧
      Unreserved (sm.spec.machineTemplate.getD ⟨[], []⟩).annotations) ∧ (do
        validateEmbeddedMetadata sm.spec.bootstrapSpec "spec.bootstrapSpec"
        validateEmbeddedMetadata sm.spec.infrastructureSpec "spec.infrastructureSpec"
        requireField sm.metadata.uid "Resource UID not set") = .ok uid := by
    unfold validateCapiMetadata at h
    cases hcase : sm.spec.machineTemplate with
    | none =>
      rw [hcase] at h
      exact ⟨⟨nofun, nofun⟩, h⟩
    | some template =>
      rw [hcase] at h
      obtain ⟨_, hlabels, h⟩ := except_bind_eq_ok_iff.mp h
      obtain ⟨_, hannotations, h⟩ := except_bind_eq_ok_iff.mp h
      exact ⟨⟨unreserved_of_validateLabels hlabels, unreserved_of_validateLabels hannotations⟩, h⟩
  obtain ⟨_, hbootstrap, hembedded⟩ := except_bind_eq_ok_iff.mp hembedded
  obtain ⟨_, hinfra, -⟩ := except_bind_eq_ok_iff.mp hembedded
  obtain ⟨hbootstrapLabels, hbootstrapAnnotations⟩ := unreserved_of_validateEmbeddedMetadata hbootstrap
  obtain ⟨hinfraLabels, hinfraAnnotations⟩ := unreserved_of_validateEmbeddedMetadata hinfra
  exact ⟨htemplate.1, htemplate.2, hbootstrapLabels, hbootstrapAnnotations, hinfraLabels, hinfraAnnotations⟩

end

/-! ## The three objects -/

section

variable {ctx : Context} {sm : ScheduledMachine} {ns uid : String} {plan : CapiPlan} {trace : List (Sigma Resp)}

theorem owned_embeddedCreate {embedded : EmbeddedResource} {apiVersion kind : String} {groups : List String}
    (hns : sm.metadata.ns = some ns) (hgroup : (parseApiVersion apiVersion).1 ∈ groups)
    (hlabels : Unreserved embedded.metadataLabels) (hannotations : Unreserved embedded.metadataAnnotations)
    (happroved : Approved trace (embeddedCreate ctx sm ns embedded apiVersion kind)) :
    Owned ctx sm trace groups (embeddedCreate ctx sm ns embedded apiVersion kind) where
  name := rfl
  ns := hns
  bodyName := rfl
  bodyNamespace := rfl
  type := ⟨apiVersion, kind, rfl, rfl, rfl⟩
  group := hgroup
  labels := ⟨_, StringMap.ofJson_toJson _, ownedLabels_mergeOwnedLabels hlabels⟩
  annotations := ⟨_, StringMap.ofJson_toJson _, hannotations⟩
  approved := happroved

theorem owned_machineCreate (hns : sm.metadata.ns = some ns) (hmaps : CheckedMaps sm)
    (happroved : Approved trace (machineCreate ctx sm ns uid plan)) :
    Owned ctx sm trace [Constants.capiGroup] (machineCreate ctx sm ns uid plan) where
  name := rfl
  ns := hns
  bodyName := rfl
  bodyNamespace := rfl
  type := ⟨plan.machineApiVersion ctx, "Machine", rfl, rfl, rfl⟩
  group := by
    have hkey := dynamicResource_machine_key ctx sm.spec plan ns sm.metadata.name
    exact List.mem_singleton.mpr (congrArg ObjKey.group hkey)
  labels := ⟨_, StringMap.ofJson_toJson _, ownedLabels_mergeOwnedLabels hmaps.templateLabels⟩
  annotations := ⟨_, StringMap.ofJson_toJson _, hmaps.templateAnnotations⟩
  approved := happroved

/-- Whatever the spec holds, the creates of a trace are among three genuine objects. -/
theorem created_objects_genuine {x : Except ReconcilerError Unit} (hns : sm.metadata.ns = some ns)
    (h : (addMachineToCluster ctx sm ns).Yields trace x) :
    creates trace = [] ∨ ∃ b i m, Genuine ctx sm trace b i m := by
  rcases yields_addMachineToCluster h with ⟨hnone, -⟩ | ⟨plan, uid, hchecked, hcarried, -⟩
  · exact .inl hnone
  have hmaps := checkedMaps_of_validateCapiMetadata hchecked.valid
  obtain ⟨hbootstrap, hinfra⟩ := groups_of_planCapi hchecked.planned
  obtain ⟨hb, hi, hm⟩ : Approved trace (embeddedCreate ctx sm ns sm.spec.bootstrapSpec _ _) ∧
      Approved trace (embeddedCreate ctx sm ns sm.spec.infrastructureSpec _ _) ∧ Approved trace (machineCreate ..) := by
    simpa [plannedCreates] using hchecked.approved
  refine .inr ⟨_, _, _, ⟨hcarried.isPrefix, ?_, ?_, ?_, ?_, ?_⟩⟩
  · exact owned_embeddedCreate hns hbootstrap hmaps.bootstrapLabels hmaps.bootstrapAnnotations hb
  · exact owned_embeddedCreate hns hinfra hmaps.infraLabels hmaps.infraAnnotations hi
  · exact owned_machineCreate hns hmaps hm
  · exact ⟨_, rfl, rfl, rfl, rfl, rfl⟩
  · exact ⟨_, rfl, rfl, rfl, rfl, rfl⟩

theorem demoMachine_genuine : creates (provisionedTrace demoCreates) = [] ∨
    ∃ b i m, Genuine demoContext demoMachine (provisionedTrace demoCreates) b i m :=
  created_objects_genuine rfl yields_demoMachine

end

end FiveSpot
