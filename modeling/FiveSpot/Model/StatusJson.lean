import FiveSpot.Model.Api
import FiveSpot.Model.MergePatch

/-! # Status documents

What serde writes for a status and for the bodies of the status patches. Here a status has all its fields,
also those the reconciler never looks at. `rfc3339` is the text chrono prints for a time.
-/

namespace FiveSpot

set_option autoImplicit false

/-- The fields of an object; `none` is one that is skipped. -/
abbrev Fields := List (String × Option Json)

structure ObjectReference where
  apiVersion : String
  kind : String
  name : String
  ns : Option String
  deriving DecidableEq

/-- All of `ScheduledMachineStatus`. -/
structure FullStatus extends ScheduledMachineStatus where
  lastScheduledTime : Option String
  machineRef : Option ObjectReference
  bootstrapRef : Option ObjectReference
  infrastructureRef : Option ObjectReference
  observedGeneration : Option Int
  nextActivation : Option String
  nextCleanup : Option String
  deriving DecidableEq

def FullStatus.default : FullStatus where
  toScheduledMachineStatus := .blank
  lastScheduledTime := none
  machineRef := none
  bootstrapRef := none
  infrastructureRef := none
  observedGeneration := none
  nextActivation := none
  nextCleanup := none

def TaintEffect.text : TaintEffect → String
  | .noSchedule => "NoSchedule"
  | .preferNoSchedule => "PreferNoSchedule"
  | .noExecute => "NoExecute"

def NodeTaint.toJson (t : NodeTaint) : Json :=
  .record [("key", some (.str t.key)), ("value", t.value.map .str), ("effect", some (.str t.effect.text))]

def ObjectReference.toJson (r : ObjectReference) : Json :=
  .record [("apiVersion", some (.str r.apiVersion)), ("kind", some (.str r.kind)), ("name", some (.str r.name)),
    ("namespace", r.ns.map .str)]

def NodeRef.fields (r : NodeRef) : Fields :=
  [("apiVersion", some (.str r.apiVersion)), ("kind", some (.str r.kind)), ("name", some (.str r.name)),
    ("uid", r.uid.map .str)]

section

variable (rfc3339 : Time → String)

def Rfc3339.text : Rfc3339 → String
  | .valid t => rfc3339 t
  | .malformed text => text

def Condition.toJson (c : Condition) : Json :=
  .record [("type", some (.str c.type)), ("status", some (.str c.status)),
    ("lastTransitionTime", some (.str (c.lastTransitionTime.text rfc3339))), ("reason", some (.str c.reason)),
    ("message", some (.str c.message))]

def SpotScheduleStatus.fields (s : SpotScheduleStatus) : Fields :=
  [("resolved", some (.bool s.resolved)), ("active", s.active.map .bool), ("reason", s.reason.map .str),
    ("message", s.message.map .str), ("providerGeneration", s.providerGeneration.map .num),
    ("lastTransitionTime", s.lastTransitionTime.map fun t => .str (t.text rfc3339))]

/-- `conditions`, `inSchedule` and `ready` are written always, an empty list of taints is not. -/
def FullStatus.fields (s : FullStatus) : Fields :=
  [("phase", s.phase.map fun phase => .str phase.text), ("message", s.message.map .str),
    ("lastScheduledTime", s.lastScheduledTime.map .str), ("machineRef", s.machineRef.map ObjectReference.toJson),
    ("bootstrapRef", s.bootstrapRef.map ObjectReference.toJson),
    ("infrastructureRef", s.infrastructureRef.map ObjectReference.toJson),
    ("nodeRef", s.nodeRef.map fun r => .record r.fields), ("providerID", s.providerId.map .str),
    ("conditions", some (.arr (s.conditions.map (Condition.toJson rfc3339)))),
    ("observedGeneration", s.observedGeneration.map .num), ("inSchedule", some (.bool s.inSchedule)),
    ("ready", some (.bool s.ready)), ("nextActivation", s.nextActivation.map .str),
    ("nextCleanup", s.nextCleanup.map .str),
    ("appliedNodeTaints", if s.appliedNodeTaints.isEmpty then none
      else some (.arr (s.appliedNodeTaints.map NodeTaint.toJson))),
    ("spotSchedule", s.spotSchedule.map fun s => .record (s.fields rfc3339))]

/-- The phase writers send a whole status with defaults, the other writers an object of their own. -/
def StatusPatch.fields : StatusPatch → Fields
  | .phase target message conditions inSchedule ready =>
    { FullStatus.default with
      phase := some target, message := some message, conditions := conditions, inSchedule := inSchedule,
      ready := ready : FullStatus }.fields rfc3339
  | .spotSchedule s => [("spotSchedule", some (.record (s.fields rfc3339)))]
  | .machineRefs providerId nodeRef =>
    [("providerID", providerId.map .str), ("nodeRef", nodeRef.map fun r => .record r.fields)]
  | .appliedNodeTaints applied => [("appliedNodeTaints", some (.arr (applied.map NodeTaint.toJson)))]

def StatusPatch.toJson (body : StatusPatch) : Json := .record (body.fields rfc3339)

end

end FiveSpot
