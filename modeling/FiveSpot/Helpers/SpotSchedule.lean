import FiveSpot.Helpers.Status

/-! # Spot schedule providers (`src/reconcilers/spot_schedule.rs`)

The provider named by `spec.schedule` decides whether the machine should be active. While it
cannot be resolved the last known value is held; a machine that was never resolved stays
inactive.
-/

namespace FiveSpot

set_option autoImplicit false

open Interaction

inductive SpotScheduleVerdict where
  | active (providerGeneration : Option Int)
  | inactive (providerGeneration : Option Int)
  | unresolved (reason message : String)
  deriving DecidableEq

namespace SpotScheduleVerdict

def isResolved : SpotScheduleVerdict → Bool
  | .unresolved _ _ => false
  | _ => true

def active? : SpotScheduleVerdict → Option Bool
  | .active _ => some true
  | .inactive _ => some false
  | .unresolved _ _ => none

def providerGeneration : SpotScheduleVerdict → Option Int
  | .active generation | .inactive generation => generation
  | .unresolved _ _ => none

def reason : SpotScheduleVerdict → String
  | .unresolved reason _ => reason
  | _ => Constants.reasonSpotScheduleResolved

def message : SpotScheduleVerdict → Option String
  | .unresolved _ message => some message
  | _ => none

end SpotScheduleVerdict

def isReadyCondition (condition : Json) : Bool :=
  (condition.get "type").bind Json.asStr == some Constants.conditionTypeReady

/-- Whether the first `Ready` condition is anything but `True`. No such condition blocks nothing. -/
def readyConditionBlocks (status : Json) : Bool :=
  match (status.get "conditions").bind Json.asArray with
  | none => false
  | some conditions => match conditions.find? isReadyCondition with
    | none => false
    | some ready => (ready.get "status").bind Json.asStr != some Constants.conditionStatusTrue

def verdictFromStatus (status : Option Json) : SpotScheduleVerdict :=
  match status with
  | none => .unresolved Constants.reasonSpotScheduleStatusActiveMissing "provider status is absent"
  | some status => match (status.get "active").bind Json.asBool with
    | none => .unresolved Constants.reasonSpotScheduleStatusActiveMissing
        "provider status.active is absent or not a boolean"
    | some active =>
      if readyConditionBlocks status then
        .unresolved Constants.reasonSpotScheduleProviderNotReady "provider Ready condition is not True"
      else
        let generation := (status.get "observedGeneration").bind Json.asI64
        if active then .active generation else .inactive generation

/-- `split_once('/')`, with an empty group when there is no slash. -/
def scheduleGroupVersion (reference : SpotScheduleRef) : String × String :=
  (Text.splitOnce '/' reference.apiVersion).getD ("", reference.apiVersion)

/-- Any discovery failure means that the kind is not installed; a provider that is not there is a
verdict too. Only other failures of the read are errors. -/
def resolveSpotSchedule (ns : String) (reference : SpotScheduleRef) : Ctl SpotScheduleVerdict := do
  let (group, version) := scheduleGroupVersion reference
  match ← api .management (.pinnedKind group version reference.kind) with
  | .error e => .pure (.unresolved Constants.reasonSpotScheduleProviderCrdNotInstalled
      s!"no CRD for {group}/{version} kind {reference.kind} is installed: {e.text}")
  | .ok ar => do
    match ← api .management (.get ar ns reference.name) with
    | .ok object => .pure (verdictFromStatus (object.get "status"))
    | .error e =>
      if e.isNotFound then .pure (.unresolved Constants.reasonSpotScheduleProviderNotFound
        s!"provider {reference.kind} {ns}/{reference.name} not found")
      else .fail (.kubeError e)

def composeShouldBeActive (verdict : SpotScheduleVerdict) (lastKnownSpotActive : Option Bool) : Bool :=
  match verdict with
  | .active _ => true
  | .inactive _ => false
  | .unresolved _ _ => lastKnownSpotActive.getD false

def spotTransitioned (verdict : SpotScheduleVerdict) (previousActive : Option Bool) : Bool :=
  match verdict.active?, previousActive with
  | some now, some before => now != before
  | some _, none => true
  | none, _ => false

def spotScheduleStatus (verdict : SpotScheduleVerdict) (previousActive : Option Bool)
    (lastTransitionTime : Option Rfc3339) : SpotScheduleStatus where
  resolved := verdict.isResolved
  active := verdict.active?.or previousActive
  reason := some verdict.reason
  message := verdict.message
  providerGeneration := verdict.providerGeneration
  lastTransitionTime := lastTransitionTime

/-- The clock is only read for a transition. -/
def spotTransitionTime (verdict : SpotScheduleVerdict) (previousActive : Option Bool) :
    Ctl (Option Rfc3339) :=
  if spotTransitioned verdict previousActive then
    (local_ .utcNow).bind fun now => .pure (some (.valid now))
  else .pure none

def persistSpotScheduleStatus (ns name : String) (verdict : SpotScheduleVerdict)
    (previousActive : Option Bool) : Ctl Unit := do
  let time ← spotTransitionTime verdict previousActive
  let answer ← api .management
    (.patchStatus ns name (.spotSchedule (spotScheduleStatus verdict previousActive time)))
  orKubeError answer

end FiveSpot
