import FiveSpot.Helpers.Capi
import FiveSpot.Helpers.ChildClient
import FiveSpot.Helpers.Drain

/-! # Finalizer, kill switch and emergency reclaim

The flows that run before the phase is looked at. Deletion and kill switch decide from the
recorded phase whether there is a machine to remove.
-/

namespace FiveSpot

set_option autoImplicit false

open Interaction

/-! ## Finalizer -/

def withFinalizer (finalizers : List String) : List String :=
  if finalizers.contains Constants.finalizerScheduledMachine then finalizers
  else finalizers ++ [Constants.finalizerScheduledMachine]

def withoutFinalizer (finalizers : List String) : List String :=
  finalizers.filter (· != Constants.finalizerScheduledMachine)

def patchFinalizers (ns name : String) (finalizers : List String) : Ctl Unit :=
  (api .management (.patchFinalizers ns name finalizers)).bind orKubeError

def addFinalizer (sm : ScheduledMachine) : Ctl Action := do
  let ns ← Prog.ofExcept (requireNamespace sm)
  patchFinalizers ns sm.metadata.name (withFinalizer (sm.metadata.finalizers.getD []))
  return .requeue 0

inductive CleanupOutcome where
  | completed
  | failed (e : ReconcilerError)
  | timedOut

def runCleanupWithTimeout (seconds : Nat) (cleanup : Ctl Unit) : Ctl CleanupOutcome :=
  (cleanup.orTimeout (Req.timer seconds) id).bind fun outcome => .pure (match outcome with
    | some (.ok _) => .completed
    | some (.error e) => .failed e
    | none => .timedOut)

def buildFinalizerTimeoutEvent (timeoutSecs : Nat) : KubeEvent where
  type := .warning
  reason := "FinalizerCleanupTimedOut"
  note := s!"Finalizer cleanup exceeded {timeoutSecs}s timeout. The finalizer was force-removed to unblock namespace deletion. Operators MUST manually verify that the CAPI Machine and its bootstrap/infrastructure resources have been cleaned up — orphan resources are possible. See the troubleshooting docs ('Orphan resources after finalizer timeout') for the runbook."
  action := "FinalizerCleanupTimedOut"

/-- The phases in which deletion and kill switch take the machine to be running. -/
def runningPhase (phase : Option Phase) : Bool :=
  phase == some .active || phase == some .shuttingDown

/-- The cleanup part of `handle_deletion`; returns when the finalizer may go. -/
def finalizerCleanup (ctx : Context) (sm : ScheduledMachine) (ns : String) : Ctl Unit :=
  if runningPhase sm.phase then do
    match ← runCleanupWithTimeout Constants.finalizerCleanupTimeoutSecs
        (removeMachineFromCluster ctx sm ns) with
    | .completed => .pure ()
    | .failed e => .fail e
    | .timedOut => do
      publishBestEffort (buildFinalizerTimeoutEvent Constants.finalizerCleanupTimeoutSecs)
      if ctx.forceFinalizerOnTimeout then .pure ()
      else .fail (.timeoutError
        s!"Finalizer cleanup timed out after {Constants.finalizerCleanupTimeoutSecs}s for {sm.metadata.name}")
  else .pure ()

def handleDeletion (ctx : Context) (sm : ScheduledMachine) : Ctl Action := do
  let ns ← Prog.ofExcept (requireNamespace sm)
  finalizerCleanup ctx sm ns
  patchFinalizers ns sm.metadata.name (withoutFinalizer (sm.metadata.finalizers.getD []))
  return .awaitChange

/-! ## Kill switch -/

def removeIfRunning (ctx : Context) (sm : ScheduledMachine) (ns : String) : Ctl Unit :=
  if runningPhase sm.phase then removeMachineFromCluster ctx sm ns else .pure ()

def handleKillSwitch (ctx : Context) (sm : ScheduledMachine) : Ctl Action := do
  let ns ← Prog.ofExcept (requireNamespace sm)
  removeIfRunning ctx sm ns
  updatePhase ns sm.metadata.name sm.phase .terminated (some Constants.reasonKillSwitch)
    (some "Machine terminated due to kill switch") false
  return .requeue Constants.timerRequeueSecs

/-! ## Emergency reclaim -/

structure ReclaimRequest where
  reason : Option String
  requestedAt : Option String
  deriving DecidableEq

/-- Only the literal value `true` of the trigger annotation is a request. -/
def nodeReclaimRequest (node : Node) : Option ReclaimRequest :=
  node.annotations.bind fun annotations =>
    if annotations.lookup Constants.reclaimRequestedAnnotation = some Constants.reclaimRequestedValue then
      some ⟨annotations.lookup Constants.reclaimReasonAnnotation,
        annotations.lookup Constants.reclaimRequestedAtAnnotation⟩
    else none

def buildClearReclaimPatch : NodePatch where
  labels := []
  annotations := [(Constants.reclaimRequestedAnnotation, none), (Constants.reclaimReasonAnnotation, none),
    (Constants.reclaimRequestedAtAnnotation, none)]
  unschedulable := none

/-- An optional text, unless it is blank. -/
def nonBlank (text : Option String) : Option String := text.filter fun s => Text.trim s != ""

def buildEmergencyReclaimEvent (request : ReclaimRequest) : KubeEvent where
  type := .warning
  reason := Constants.reasonEmergencyReclaim
  note := match nonBlank request.requestedAt with
    | some at_ => s!"Emergency reclaim requested ({at_}): " ++
        (nonBlank request.reason).getD "reclaim trigger on Node"
    | none => "Emergency reclaim requested: " ++ (nonBlank request.reason).getD "reclaim trigger on Node"
  action := "EmergencyReclaim"

def buildEmergencyDisableScheduleEvent : KubeEvent where
  type := .warning
  reason := Constants.reasonEmergencyReclaimDisabledSchedule
  note := "spec.enabled flipped to false to break the eject→re-add→re-eject loop. Re-enable is a user action."
  action := "EmergencyReclaimDisableSchedule"

def buildRapidReReclaimEvent (name : String) : KubeEvent where
  type := .warning
  reason := Constants.reasonRapidReReclaim
  note := s!"ScheduledMachine {name} has been emergency-reclaimed {Constants.rapidReReclaimThreshold} or more times within {Constants.rapidReReclaimWindowSecs} seconds. The conflicting process is likely still running on the node — stop it before re-enabling spec.enabled, or the agent will fire again on the next reconcile."
  action := "RapidReReclaim"

def emergencyReclaimMessage (nodeName : String) (request : ReclaimRequest) : String :=
  s!"Emergency reclaim on node {nodeName}" ++
    ((nonBlank request.requestedAt).map (" at " ++ ·)).getD "" ++
    ((nonBlank request.reason).map (": " ++ ·)).getD ""

def patchDisableSchedule (ns name : String) : Ctl Unit :=
  (api .management (.patchEnabled ns name false)).bind orKubeError

def clearReclaimAnnotationsBestEffort (client : Client) (nodeName : String) : Ctl Unit :=
  (api client (.patchNode nodeName buildClearReclaimPatch)).bind fun _ => .pure ()

def recordReclaim (ns name : String) : Ctl Unit := do
  local_ (.recordEmergencyReclaim ns name)
  let now ← local_ .utcNow
  let breach ← local_ (.recordEmergencyReclaimEvent s!"{ns}/{name}" now)
  if breach then publishBestEffort (buildRapidReReclaimEvent name) else .pure ()

def finishEmergencyRemove (ns name : String) : Ctl Unit :=
  updatePhase ns name (some .emergencyRemove) .disabled (some Constants.reasonScheduleDisabled)
    (some "Schedule disabled by emergency reclaim; re-enable is a user action") false

def handleEmergencyRemove (ctx : Context) (sm : ScheduledMachine) (nodeName : String)
    (request : ReclaimRequest) : Ctl Action := do
  let ns ← Prog.ofExcept (requireNamespace sm)
  publishBestEffort (buildEmergencyReclaimEvent request)
  updatePhase ns sm.metadata.name sm.phase .emergencyRemove (some Constants.reasonEmergencyReclaim)
    (some (emergencyReclaimMessage nodeName request)) false
  recordReclaim ns sm.metadata.name
  let childForNode ← resolve sm
  bestEffort (drainNodeWithTimeout childForNode.client nodeName Constants.emergencyDrainTimeoutSecs)
  removeMachineFromCluster ctx sm ns
  patchDisableSchedule ns sm.metadata.name
  publishBestEffort buildEmergencyDisableScheduleEvent
  clearReclaimAnnotationsBestEffort childForNode.client nodeName
  finishEmergencyRemove ns sm.metadata.name
  return .requeue Constants.timerRequeueSecs

end FiveSpot
