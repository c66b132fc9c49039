import FiveSpot.Model.Constants
import FiveSpot.Model.Json

/-! # The `ScheduledMachine` resource (`src/crd.rs`)

Fields nobody below reads or writes are left out (`lastScheduledTime`, `machineRef`,
`observedGeneration` and the like). Wall-clock times are nanoseconds since the epoch.
-/

namespace FiveSpot

set_option autoImplicit false

abbrev Time := Int

/-- An RFC-3339 text, up to what the parser makes of it. -/
inductive Rfc3339 where
  | valid (t : Time)
  | malformed (text : String)
  deriving DecidableEq

def phaseNames : List String :=
  ["Pending", "Active", "ShuttingDown", "Inactive", "Disabled", "Terminated", "Error", "EmergencyRemove"]

/-- `status.phase` is free text in the CRD; a text that names no phase is kept as it is. -/
inductive Phase where
  | pending
  | active
  | shuttingDown
  | inactive
  | disabled
  | terminated
  | error
  | emergencyRemove
  | unknown (text : String) (unnamed : text ∉ phaseNames)
  deriving DecidableEq

def Phase.text : Phase → String
  | .pending => "Pending"
  | .active => "Active"
  | .shuttingDown => "ShuttingDown"
  | .inactive => "Inactive"
  | .disabled => "Disabled"
  | .terminated => "Terminated"
  | .error => "Error"
  | .emergencyRemove => "EmergencyRemove"
  | .unknown text _ => text

structure Condition where
  type : String
  status : String
  lastTransitionTime : Rfc3339
  reason : String
  message : String
  deriving DecidableEq

/-- `Condition::new`, with the clock value it stamps. -/
def Condition.new (now : Time) (conditionType status reason message : String) : Condition :=
  ⟨conditionType, status, .valid now, reason, message⟩

inductive TaintEffect where
  | noSchedule
  | preferNoSchedule
  | noExecute
  deriving DecidableEq

structure NodeTaint where
  key : String
  value : Option String
  effect : TaintEffect
  deriving DecidableEq

structure NodeRef where
  apiVersion : String
  kind : String
  name : String
  uid : Option String
  deriving DecidableEq

structure SpotScheduleStatus where
  resolved : Bool
  active : Option Bool
  reason : Option String
  message : Option String
  providerGeneration : Option Int
  lastTransitionTime : Option Rfc3339
  deriving DecidableEq

structure SpotScheduleRef where
  apiVersion : String
  kind : String
  name : String
  deriving DecidableEq

def SpotScheduleRef.group (r : SpotScheduleRef) : String :=
  match Text.splitOnce '/' r.apiVersion with
  | some (group, _) => group
  | none => r.apiVersion

def SpotScheduleRef.isSpotScheduleGroup (r : SpotScheduleRef) : Bool :=
  r.group == Constants.spotScheduleApiGroup

structure EmbeddedResource where
  value : Json
  deriving DecidableEq

/-- Keep the string-valued entries of an object; anything else is the empty map. -/
def embeddedStringMap (value : Option Json) : StringMap :=
  match value.bind Json.asObject with
  | some fields => (fields.filterMap fun field => field.2.asStr.map fun s => (field.1, s)).foldl
      (fun m entry => StringMap.insert entry.1 entry.2 m) []
  | none => []

namespace EmbeddedResource

def apiVersion (e : EmbeddedResource) : Option String := (e.value.get "apiVersion").bind Json.asStr
def kind (e : EmbeddedResource) : Option String := (e.value.get "kind").bind Json.asStr
def spec (e : EmbeddedResource) : Option Json := e.value.get "spec"
def metadata (e : EmbeddedResource) (name : String) : Option Json :=
  (e.value.get "metadata").bind (Json.get name)
def metadataNamespace (e : EmbeddedResource) : Option String := (e.metadata "namespace").bind Json.asStr
def metadataName (e : EmbeddedResource) : Option String := (e.metadata "name").bind Json.asStr
def metadataLabels (e : EmbeddedResource) : StringMap := embeddedStringMap (e.metadata "labels")
def metadataAnnotations (e : EmbeddedResource) : StringMap := embeddedStringMap (e.metadata "annotations")

end EmbeddedResource

structure MachineTemplateSpec where
  labels : StringMap
  annotations : StringMap
  deriving DecidableEq

structure KubeconfigSecretRef where
  name : String
  key : String
  deriving DecidableEq

inductive KataConfigSourceKind where
  | configMap
  | secret
  deriving DecidableEq

structure KataConfig where
  kind : KataConfigSourceKind
  name : String
  ns : String
  key : String
  restartService : String
  deriving DecidableEq

structure ScheduledMachineSpec where
  schedule : SpotScheduleRef
  enabled : Bool
  clusterName : String
  bootstrapSpec : EmbeddedResource
  infrastructureSpec : EmbeddedResource
  machineTemplate : Option MachineTemplateSpec
  priority : UInt8
  gracefulShutdownTimeout : String
  nodeDrainTimeout : String
  killSwitch : Bool
  nodeTaints : List NodeTaint
  killIfCommands : Option (List String)
  kubeconfigSecretRef : Option KubeconfigSecretRef
  kata : Option KataConfig
  deriving DecidableEq

structure ScheduledMachineStatus where
  phase : Option Phase
  message : Option String
  nodeRef : Option NodeRef
  providerId : Option String
  conditions : List Condition
  inSchedule : Bool
  ready : Bool
  appliedNodeTaints : List NodeTaint
  spotSchedule : Option SpotScheduleStatus
  deriving DecidableEq

/-- What the API server holds before any status was written. -/
def ScheduledMachineStatus.blank : ScheduledMachineStatus :=
  ⟨none, none, none, none, [], false, false, [], none⟩

structure ObjectMeta where
  name : String
  ns : Option String
  uid : Option String
  deletionTimestamp : Option Time
  finalizers : Option (List String)
  deriving DecidableEq

structure ScheduledMachine where
  metadata : ObjectMeta
  spec : ScheduledMachineSpec
  status : Option ScheduledMachineStatus
  deriving DecidableEq

namespace ScheduledMachine

def phase (sm : ScheduledMachine) : Option Phase := sm.status.bind (·.phase)
def nodeRef (sm : ScheduledMachine) : Option NodeRef := sm.status.bind (·.nodeRef)
def deleting (sm : ScheduledMachine) : Bool := sm.metadata.deletionTimestamp.isSome
def lastKnownSpotActive (sm : ScheduledMachine) : Option Bool :=
  (sm.status.bind (·.spotSchedule)).bind (·.active)
def appliedNodeTaints (sm : ScheduledMachine) : List NodeTaint :=
  match sm.status with
  | some status => status.appliedNodeTaints
  | none => []

end ScheduledMachine

/-! Node and Pod objects of core/v1, as far as the controller looks at them. -/

structure Taint where
  key : String
  value : Option String
  effect : String
  timeAdded : Option Rfc3339
  deriving DecidableEq

/-- What makes two taints the same to a reader: key, value and effect. -/
def Taint.content (t : Taint) : String × Option String × String := (t.key, t.value, t.effect)

def DistinctTaints (taints : List Taint) : Prop := (taints.map fun t => (t.key, t.effect)).Nodup

instance (taints : List Taint) : Decidable (DistinctTaints taints) :=
  inferInstanceAs (Decidable (taints.map fun t => (t.key, t.effect)).Nodup)

theorem distinctTaints_nil : DistinctTaints [] := List.nodup_nil

/-- An empty value is left out. -/
def Taint.stored (t : Taint) : Taint := { t with value := t.value.filter fun value => value != "" }

def Taint.isStored (t : Taint) : Bool := t.value != some ""

theorem isStored_nil : ∀ t ∈ ([] : List Taint), t.isStored = true := by
  rintro t ⟨⟩

theorem Taint.stored_eq {t : Taint} (h : t.isStored = true) : t.stored = t := by
  obtain ⟨key, value, effect, timeAdded⟩ := t
  cases value with
  | none => rfl
  | some value =>
    have hvalue : (value != "") = true := by simpa [Taint.isStored] using h
    simp [Taint.stored, Option.filter, hvalue]

theorem Taint.isStored_stored (t : Taint) : t.stored.isStored = true := by
  obtain ⟨key, value, effect, timeAdded⟩ := t
  cases value with
  | none => rfl
  | some value => by_cases hvalue : value = "" <;> simp [Taint.stored, Taint.isStored, Option.filter, hvalue]

theorem DistinctTaints.stored {taints : List Taint} (h : DistinctTaints taints) :
    DistinctTaints (taints.map Taint.stored) := by
  simpa [DistinctTaints, List.map_map, Function.comp_def, Taint.stored] using h

/-- The API server keeps key and effect of a Node's taints unique. -/
structure Node where
  labels : StringMap
  annotations : Option StringMap
  unschedulable : Bool
  taints : List Taint
  /-- `status.conditions`, as pairs of type and status. -/
  conditions : Option (List (String × String))
  distinct : DistinctTaints taints
  stored : ∀ t ∈ taints, t.isStored = true
  deriving DecidableEq

structure Pod where
  name : Option String
  ns : Option String
  phase : Option String
  /-- Kinds of `metadata.ownerReferences`. -/
  ownerKinds : Option (List String)
  deriving DecidableEq

end FiveSpot
