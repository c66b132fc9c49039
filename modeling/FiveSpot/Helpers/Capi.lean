import FiveSpot.Helpers.Status

/-! # CAPI objects: creation, deletion and the Machine's references

Three objects are created per machine, in the order bootstrap, infrastructure, Machine,
and deleted in the order Machine, bootstrap, infrastructure. All three carry the name of
the `ScheduledMachine`; only the Machine has an owner reference.
-/

namespace FiveSpot

set_option autoImplicit false

open Interaction

/-- Pre-flight access review: may the controller create this resource type at all? -/
def ensureCanCreate (ctx : Context) (ns apiVersion kind resourceLabel : String) : Ctl Unit := do
  let ar := dynamicResource ctx apiVersion kind
  let answer ← api .management (.accessReview
    ⟨Constants.rbacVerbCreate, ar.group, ar.version, ar.plural, ns⟩)
  let result ← orKubeError answer
  let status := result.getD ⟨false, none⟩
  if status.allowed then .pure ()
  else
    let reason := (status.reason.filter (· != "")).getD "no reason provided by the API server"
    .fail (.permissionDenied ("controller service account is not permitted to create " ++ resourceLabel ++
      " resource '" ++ ar.plural ++ "' in API group '" ++ ar.group ++ "' (namespace '" ++ ns ++ "'): " ++ reason))

/-- A create whose object is already there counts as done. -/
def createDynamicResource (ctx : Context) (ns apiVersion kind name : String) (body : Json)
    (context : String) : Ctl Unit := do
  match ← api .management (.create (dynamicResource ctx apiVersion kind) ns name body) with
  | .ok _ => .pure ()
  | .error e =>
    if e.isAlreadyExists then .pure ()
    else .fail (.capiError (context ++ e.text))

def requireField (value : Option String) (text : String) : Except ReconcilerError String :=
  match value with
  | some s => .ok s
  | none => .error (.invalidConfig text)

/-- Everything `add_machine_to_cluster` needs from the spec once it has been checked. -/
structure CapiPlan where
  bootstrapApiVersion : String
  bootstrapKind : String
  infraApiVersion : String
  infraKind : String

def CapiPlan.machineApiVersion (ctx : Context) (plan : CapiPlan) : String :=
  Constants.capiGroup ++ "/" ++ machineApiVersionFor ctx (some plan.bootstrapApiVersion)

def planCapi (spec : ScheduledMachineSpec) : Except ReconcilerError CapiPlan := do
  let bootstrapApiVersion ← requireField spec.bootstrapSpec.apiVersion
    "bootstrapSpec missing required field 'apiVersion'"
  let bootstrapKind ← requireField spec.bootstrapSpec.kind "bootstrapSpec missing required field 'kind'"
  let infraApiVersion ← requireField spec.infrastructureSpec.apiVersion
    "infrastructureSpec missing required field 'apiVersion'"
  let infraKind ← requireField spec.infrastructureSpec.kind
    "infrastructureSpec missing required field 'kind'"
  validateClusterName spec.clusterName
  validateKillIfCommands spec.killIfCommands
  validateApiGroup bootstrapApiVersion Constants.allowedBootstrapApiGroups "bootstrap"
  validateApiGroup infraApiVersion Constants.allowedInfrastructureApiGroups "infrastructure"
  return ⟨bootstrapApiVersion, bootstrapKind, infraApiVersion, infraKind⟩

def validateCapiMetadata (sm : ScheduledMachine) : Except ReconcilerError String := do
  match sm.spec.machineTemplate with
  | some template =>
    validateLabels template.labels "machineTemplate.labels"
    validateLabels template.annotations "machineTemplate.annotations"
  | none => pure ()
  validateEmbeddedMetadata sm.spec.bootstrapSpec "spec.bootstrapSpec"
  validateEmbeddedMetadata sm.spec.infrastructureSpec "spec.infrastructureSpec"
  requireField sm.metadata.uid "Resource UID not set"

def embeddedBody (sm : ScheduledMachine) (ns : String) (embedded : EmbeddedResource)
    (apiVersion kind : String) : Json :=
  .obj [("apiVersion", .str apiVersion), ("kind", .str kind),
    ("metadata", .obj [("name", .str sm.metadata.name), ("namespace", .str ns),
      ("labels", (mergeOwnedLabels embedded.metadataLabels sm.metadata.name sm.spec.clusterName).toJson),
      ("annotations", embedded.metadataAnnotations.toJson)]),
    ("spec", embedded.spec.getD .null)]

def objectRefBody (apiVersion kind name ns : String) : Json :=
  .obj [("apiVersion", .str apiVersion), ("kind", .str kind), ("name", .str name), ("namespace", .str ns)]

def machineBody (ctx : Context) (sm : ScheduledMachine) (ns uid : String) (plan : CapiPlan) : Json :=
  let name := sm.metadata.name
  let template := sm.spec.machineTemplate.getD ⟨[], []⟩
  .obj [("apiVersion", .str (plan.machineApiVersion ctx)), ("kind", .str "Machine"),
    ("metadata", .obj [("name", .str name), ("namespace", .str ns),
      ("labels", (mergeOwnedLabels template.labels name sm.spec.clusterName).toJson),
      ("annotations", template.annotations.toJson),
      ("ownerReferences", .arr [.obj [("apiVersion", .str Constants.apiVersionFull),
        ("kind", .str "ScheduledMachine"), ("name", .str name), ("uid", .str uid),
        ("controller", .bool true), ("blockOwnerDeletion", .bool true)]])]),
    ("spec", .obj [("clusterName", .str sm.spec.clusterName),
      ("bootstrap", .obj [("configRef",
        objectRefBody plan.bootstrapApiVersion plan.bootstrapKind name ns)]),
      ("infrastructureRef", objectRefBody plan.infraApiVersion plan.infraKind name ns)])]

def addMachineToCluster (ctx : Context) (sm : ScheduledMachine) (ns : String) : Ctl Unit := do
  let plan ← Prog.ofExcept (planCapi sm.spec)
  ensureCanCreate ctx ns plan.bootstrapApiVersion plan.bootstrapKind "bootstrap"
  ensureCanCreate ctx ns plan.infraApiVersion plan.infraKind "infrastructure"
  ensureCanCreate ctx ns (plan.machineApiVersion ctx) "Machine" "machine"
  let uid ← Prog.ofExcept (validateCapiMetadata sm)
  createDynamicResource ctx ns plan.bootstrapApiVersion plan.bootstrapKind sm.metadata.name
    (embeddedBody sm ns sm.spec.bootstrapSpec plan.bootstrapApiVersion plan.bootstrapKind)
    "Failed to create bootstrap resource: "
  createDynamicResource ctx ns plan.infraApiVersion plan.infraKind sm.metadata.name
    (embeddedBody sm ns sm.spec.infrastructureSpec plan.infraApiVersion plan.infraKind)
    "Failed to create infrastructure resource: "
  createDynamicResource ctx ns (plan.machineApiVersion ctx) "Machine" sm.metadata.name
    (machineBody ctx sm ns uid plan) "Failed to create Machine: "

/-- A delete of an object that is not there counts as done. -/
def deleteResource (ar : ApiResource) (ns name context : String) : Ctl Unit := do
  match ← api .management (.delete ar ns name) with
  | .ok _ => .pure ()
  | .error e =>
    if e.isNotFound then .pure ()
    else .fail (.capiError (context ++ ": " ++ e.text))

def deleteDynamicResource (ctx : Context) (ns apiVersion kind name : String) : Ctl Unit :=
  deleteResource (dynamicResource ctx apiVersion kind) ns name s!"Failed to delete {kind} {name}"

/-- The embedded resource as far as a delete can name it. -/
def deleteEmbedded (ctx : Context) (ns name : String) (embedded : EmbeddedResource) : Ctl Unit :=
  match embedded.apiVersion, embedded.kind with
  | some apiVersion, some kind => deleteDynamicResource ctx ns apiVersion kind name
  | _, _ => .pure ()

def machineResource (ctx : Context) (spec : ScheduledMachineSpec) : ApiResource :=
  ⟨Constants.capiGroup, machineApiVersionFor ctx spec.bootstrapSpec.apiVersion,
    Constants.capiResourceMachines⟩

def removeMachineFromCluster (ctx : Context) (sm : ScheduledMachine) (ns : String) : Ctl Unit := do
  deleteResource (machineResource ctx sm.spec) ns sm.metadata.name
    s!"Failed to delete Machine {sm.metadata.name}"
  deleteEmbedded ctx ns sm.metadata.name sm.spec.bootstrapSpec
  deleteEmbedded ctx ns sm.metadata.name sm.spec.infrastructureSpec

/-! ## The Machine's status -/

def nodeRefOf (value : Json) : Option NodeRef :=
  ((value.get "name").bind Json.asStr).map fun name =>
    { apiVersion := ((value.get "apiVersion").bind Json.asStr).getD "v1"
      kind := ((value.get "kind").bind Json.asStr).getD "Node"
      name := name
      uid := (value.get "uid").bind Json.asStr }

/-- `(providerID, nodeRef)` of a Machine; only the node's name is required. -/
def extractMachineRefs (machine : Json) : Option String × Option NodeRef :=
  (((machine.get "spec").bind (Json.get "providerID")).bind Json.asStr,
    ((machine.get "status").bind (Json.get "nodeRef")).bind nodeRefOf)

def fetchCapiMachine (ctx : Context) (ns name : String) : Ctl (Option Json) := do
  match ← api .management (.get
      ⟨Constants.capiGroup, ctx.capiMachineApiVersion, Constants.capiResourceMachines⟩ ns name) with
  | .ok machine => .pure (some machine)
  | .error e =>
    if e.isNotFound then .pure none
    else .fail (.capiError s!"Failed to get Machine {name}: {e.text}")

def getNodeFromMachine (ctx : Context) (ns name : String) : Ctl (Option String) := do
  match ← fetchCapiMachine ctx ns name with
  | none => .pure none
  | some machine => .pure ((extractMachineRefs machine).2.map (·.name))

end FiveSpot
