import FiveSpot.Helpers.Validation

/-! # Projections for the node agents

Two DaemonSets are steered by a label on the Node: the reclaim agent, which also gets one
ConfigMap per Node, and the kata-config agent, which reads a reference annotation. The label of
the latter is never taken back by the controller.
-/

namespace FiveSpot

set_option autoImplicit false

open Interaction

/-! ## Reclaim agent -/

/-- The table behind `reclaim.toml`; the argv list stays empty and the interval is fixed. -/
def renderReclaimToml (commands : List String) : ReclaimToml :=
  ⟨commands, [], Constants.defaultPollIntervalMs⟩

def perNodeConfigmapName (nodeName : String) : String := Constants.reclaimAgentConfigmapStem ++ nodeName

def buildReclaimAgentLabelPatch (enable : Bool) : NodePatch where
  labels := [(Constants.reclaimAgentLabel, if enable then some Constants.reclaimAgentLabelEnabled else none)]
  annotations := []
  unschedulable := none

def reconcileReclaimAgentProvision (client : Client) (nodeName : String) (commands : List String) :
    Ctl Unit := do
  let labelled ← api client (.patchNode nodeName (buildReclaimAgentLabelPatch (!commands.isEmpty)))
  orKubeError labelled
  if commands.isEmpty then do
    match ← api client (.deleteConfigMap Constants.reclaimAgentNamespace (perNodeConfigmapName nodeName)) with
    | .ok _ => .pure ()
    | .error e => if e.isNotFound then .pure () else .fail (.kubeError e)
  else do
    let applied ← api client (.applyConfigMap Constants.reclaimAgentNamespace
      (perNodeConfigmapName nodeName) (renderReclaimToml commands))
    orKubeError applied

/-! ## Kata configuration -/

inductive KataDeliveryOutcome where
  | disabled
  | ready
  | sourceNotFound
  | targetNamespaceMissing
  deriving DecidableEq

def KataConfigSourceKind.text : KataConfigSourceKind → String
  | .configMap => "ConfigMap"
  | .secret => "Secret"

/-- The compact JSON reference, keys in alphabetical order. -/
def kataRefText (kata : KataConfig) : String :=
  "\x7b\"key\":" ++ Text.jsonString kata.key ++ ",\"kind\":" ++ Text.jsonString kata.kind.text ++
    ",\"name\":" ++ Text.jsonString kata.name ++ ",\"namespace\":" ++ Text.jsonString kata.ns ++
    ",\"restartService\":" ++ Text.jsonString kata.restartService ++ "\x7d"

def buildKataConfigRefAnnotationPatch (kata : Option KataConfig) : NodePatch where
  labels := []
  annotations := [(Constants.kataConfigRefAnnotation, kata.map kataRefText)]
  unschedulable := none

def buildKataConfigLabelPatch (enable : Bool) : NodePatch where
  labels := [(Constants.kataConfigLabel, if enable then some Constants.kataConfigLabelEnabled else none)]
  annotations := []
  unschedulable := none

/-- Label and reference annotation in one patch. -/
def kataDeliverPatch (kata : KataConfig) : NodePatch where
  labels := (buildKataConfigLabelPatch true).labels
  annotations := (buildKataConfigRefAnnotationPatch (some kata)).annotations
  unschedulable := none

def kataSourcePresent (client : Client) (kata : KataConfig) : Ctl Bool :=
  match kata.kind with
  | .configMap => (api client (.configMapExists kata.ns kata.name)).bind orKubeError
  | .secret => (api client (.secretExists kata.ns kata.name)).bind orKubeError

def reconcileKataConfigDelivery (client : Client) (nodeName : String) (kata : Option KataConfig) :
    Ctl KataDeliveryOutcome :=
  match kata with
  | none => do
    let cleared ← api client (.patchNode nodeName (buildKataConfigRefAnnotationPatch none))
    orKubeError cleared
    return .disabled
  | some kata => do
    let present ← kataSourcePresent client kata
    if present then do
      let stamped ← api client (.patchNode nodeName (kataDeliverPatch kata))
      orKubeError stamped
      return .ready
    else do
      let found ← api client (.namespaceExists kata.ns)
      let namespacePresent ← orKubeError found
      let cleared ← api client (.patchNode nodeName (buildKataConfigRefAnnotationPatch none))
      orKubeError cleared
      return if namespacePresent then .sourceNotFound else .targetNamespaceMissing

end FiveSpot
