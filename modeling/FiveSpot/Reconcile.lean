import FiveSpot.Helpers.Agents
import FiveSpot.Helpers.Lifecycle
import FiveSpot.Helpers.SpotSchedule
import FiveSpot.Helpers.Taints

/-! # The reconciler (`src/reconcilers/scheduled_machine.rs`)

One handler per phase, and the dispatch in front of them: leader and instance guards,
deletion, finalizer, validation, kill switch, emergency reclaim, schedule, phase.
-/

namespace FiveSpot

set_option autoImplicit false

open Interaction

/-! ## Emergency reclaim -/

/-- The Node a reclaim is looked for on: a non-empty name in `status.nodeRef`. -/
def reclaimNode (sm : ScheduledMachine) : Option String :=
  match sm.nodeRef with
  | none => none
  | some nodeRef => if nodeRef.name = "" then none else some nodeRef.name

def checkEmergencyReclaim (ctx : Context) (sm : ScheduledMachine) : Ctl (Option Action) :=
  match reclaimNode sm with
  | none => .pure none
  | some nodeName => do
    match ← api .management (.getNode nodeName) with
    | .error e => if e.isNotFound then .pure none else .fail (.kubeError e)
    | .ok node => match nodeReclaimRequest node with
      | none => .pure none
      | some request => do
        let action ← handleEmergencyRemove ctx sm nodeName request
        return some action

/-- Finishes a reclaim whose last step was lost. -/
def handleEmergencyRemovePhase (sm : ScheduledMachine) : Ctl Action := do
  let ns ← Prog.ofExcept (requireNamespace sm)
  finishEmergencyRemove ns sm.metadata.name
  return .requeue Constants.timerRequeueSecs

/-! ## Pending -/

def handlePendingPhase (ctx : Context) (sm : ScheduledMachine) (shouldBeActive : Bool) : Ctl Action := do
  let ns ← Prog.ofExcept (requireNamespace sm)
  if !sm.spec.enabled then do
    updatePhase ns sm.metadata.name (some .pending) .disabled (some Constants.reasonScheduleDisabled)
      (some "Schedule is disabled") false
    return .requeue Constants.timerRequeueSecs
  else if !shouldBeActive then do
    updatePhase ns sm.metadata.name (some .pending) .inactive (some Constants.reasonScheduleInactive)
      (some "Outside scheduled time window") false
    return .requeue Constants.timerRequeueSecs
  else do
    match ← (addMachineToCluster ctx sm ns).attempt with
    | .error e => do
      updatePhase ns sm.metadata.name (some .pending) .error (some "MachineCreationFailed")
        (some ("Failed to create CAPI Machine: " ++ e.display)) true
      return .requeue Constants.errorRequeueSecs
    | .ok _ => do
      updatePhase ns sm.metadata.name (some .pending) .active (some Constants.reasonMachineCreated)
        (some "CAPI Machine created successfully") true
      return .requeue Constants.timerRequeueSecs

/-! ## Active -/

/-- A best-effort projection onto the bound Node: nothing happens without a node name, and a
client that cannot be resolved skips it. -/
def withNode (sm : ScheduledMachine) (nodeRef : Option NodeRef) (body : Client → String → Ctl Unit) : Ctl Unit :=
  match nodeRef with
  | none => .pure ()
  | some nodeRef =>
    if nodeRef.name = "" then .pure ()
    else do
      match ← (resolve sm).attempt with
      | .error _ => .pure ()
      | .ok resolved => bestEffort (body resolved.client nodeRef.name)

def provisionReclaimAgentBestEffort (sm : ScheduledMachine) (nodeRef : Option NodeRef) : Ctl Unit :=
  withNode sm nodeRef fun client nodeName =>
    reconcileReclaimAgentProvision client nodeName (sm.spec.killIfCommands.getD [])

def provisionKataConfigBestEffort (sm : ScheduledMachine) (nodeRef : Option NodeRef) : Ctl Unit :=
  withNode sm nodeRef fun client nodeName =>
    (reconcileKataConfigDelivery client nodeName sm.spec.kata).bind fun _ => .pure ()

/-- The recorded list is replaced only when it differs from the desired one just applied. -/
def recordAppliedTaints (sm : ScheduledMachine) : NodeTaintReconcileOutcome → Ctl Unit
  | .noNodeYet => .pure ()
  | .nodeNotReady => .pure ()
  | .conflict _ => .pure ()
  | .applied applied =>
    if applied = sm.appliedNodeTaints then .pure ()
    else match sm.metadata.ns with
      | none => .pure ()
      | some ns => patchAppliedNodeTaintsStatus ns sm.metadata.name applied

def reconcileNodeTaintsBestEffort (sm : ScheduledMachine) (nodeRef : Option NodeRef) : Ctl Unit :=
  if sm.deleting then .pure ()
  else if sm.spec.killSwitch then .pure ()
  else if sm.spec.nodeTaints.isEmpty && sm.appliedNodeTaints.isEmpty then .pure ()
  else withNode sm nodeRef fun client nodeName =>
    (reconcileNodeTaints client nodeName sm.spec.nodeTaints sm.appliedNodeTaints).bind
      (recordAppliedTaints sm)

/-- What an active machine inside its window gets on every reconcile. Nothing here can fail the
reconcile. -/
def enrichActive (ctx : Context) (sm : ScheduledMachine) (ns : String) : Ctl Unit := do
  match ← (fetchCapiMachine ctx ns sm.metadata.name).attempt with
  | .error _ => .pure ()
  | .ok none => .pure ()
  | .ok (some machine) => do
    bestEffort (patchMachineRefsStatus ns sm.metadata.name (extractMachineRefs machine).1
      (extractMachineRefs machine).2)
    provisionReclaimAgentBestEffort sm (extractMachineRefs machine).2
    reconcileNodeTaintsBestEffort sm (extractMachineRefs machine).2
    provisionKataConfigBestEffort sm (extractMachineRefs machine).2

def handleActivePhase (ctx : Context) (sm : ScheduledMachine) (shouldBeActive : Bool) : Ctl Action := do
  let ns ← Prog.ofExcept (requireNamespace sm)
  if !sm.spec.enabled then do
    updatePhaseWithGracePeriod ns sm.metadata.name (some .active) .shuttingDown
      (some Constants.reasonScheduleDisabled) (some "Schedule disabled - starting graceful shutdown") false
    return .requeue Constants.timerRequeueSecs
  else if !shouldBeActive then do
    updatePhaseWithGracePeriod ns sm.metadata.name (some .active) .shuttingDown
      (some Constants.reasonGracePeriod) (some "Outside schedule - starting graceful shutdown") false
    return .requeue Constants.timerRequeueSecs
  else do
    enrichActive ctx sm ns
    return .requeue Constants.timerRequeueSecs

/-! ## ShuttingDown -/

/-- Drain the Node the Machine is bound to, if any. A failed drain does not stop the shutdown; a
Machine that cannot be read, a bad timeout or an unresolvable client does. -/
def drainBoundNode (ctx : Context) (sm : ScheduledMachine) (ns : String) : Ctl Unit := do
  match ← getNodeFromMachine ctx ns sm.metadata.name with
  | none => .pure ()
  | some nodeName => do
    let drainTimeout ← Prog.ofExcept (parseDuration sm.spec.nodeDrainTimeout)
    let drainClient ← resolve sm
    bestEffort (drainNodeWithTimeout drainClient.client nodeName drainTimeout)

def handleShuttingDownPhase (ctx : Context) (sm : ScheduledMachine) : Ctl Action := do
  let ns ← Prog.ofExcept (requireNamespace sm)
  let elapsed ← checkGracePeriodElapsed sm
  if elapsed then do
    drainBoundNode ctx sm ns
    match ← (removeMachineFromCluster ctx sm ns).attempt with
    | .error e => do
      updatePhase ns sm.metadata.name (some .shuttingDown) .error (some "MachineDeletionFailed")
        (some ("Failed to delete CAPI Machine: " ++ e.display)) false
      return .requeue Constants.errorRequeueSecs
    | .ok _ => do
      updatePhase ns sm.metadata.name (some .shuttingDown) .inactive (some Constants.reasonMachineDeleted)
        (some "Machine removed from cluster") false
      return .requeue Constants.timerRequeueSecs
  else return .requeue Constants.timerRequeueSecs

/-! ## Waiting phases -/

def handleInactivePhase (sm : ScheduledMachine) (shouldBeActive : Bool) : Ctl Action := do
  let ns ← Prog.ofExcept (requireNamespace sm)
  if !sm.spec.enabled then return .requeue Constants.timerRequeueSecs
  else if !shouldBeActive then return .requeue Constants.timerRequeueSecs
  else do
    updatePhase ns sm.metadata.name (some .inactive) .pending (some Constants.reasonScheduleActive)
      (some "Schedule became active - initiating machine creation") true
    return .requeue Constants.timerRequeueSecs

def handleDisabledPhase (sm : ScheduledMachine) : Ctl Action := do
  let ns ← Prog.ofExcept (requireNamespace sm)
  if sm.spec.enabled then do
    updatePhase ns sm.metadata.name (some .disabled) .pending (some Constants.reasonScheduleActive)
      (some "Schedule re-enabled") false
    return .requeue Constants.timerRequeueSecs
  else return .requeue Constants.timerRequeueSecs

def handleTerminatedPhase : Ctl Action := .pure (.requeue Constants.timerRequeueSecs)

def handleErrorPhase (sm : ScheduledMachine) : Ctl Action := do
  let _ ← Prog.ofExcept (requireNamespace sm)
  return .requeue Constants.errorRequeueSecs

/-! ## Dispatch -/

/-- A missing phase and a text that names no phase are handled like `Pending`. -/
def dispatchPhase (ctx : Context) (sm : ScheduledMachine) (shouldBeActive : Bool) : Ctl Action :=
  match sm.phase with
  | some .active => handleActivePhase ctx sm shouldBeActive
  | some .shuttingDown => handleShuttingDownPhase ctx sm
  | some .inactive => handleInactivePhase sm shouldBeActive
  | some .disabled => handleDisabledPhase sm
  | some .terminated => handleTerminatedPhase
  | some .emergencyRemove => handleEmergencyRemovePhase sm
  | some .error => handleErrorPhase sm
  | some .pending => handlePendingPhase ctx sm shouldBeActive
  | some (.unknown _ _) => handlePendingPhase ctx sm shouldBeActive
  | none => handlePendingPhase ctx sm shouldBeActive

/-- Schedule evaluation and phase dispatch, reached when nothing more urgent came first. -/
def reconcileSchedule (ctx : Context) (sm : ScheduledMachine) (ns : String) : Ctl Action := do
  let verdict ← resolveSpotSchedule ns sm.spec.schedule
  persistSpotScheduleStatus ns sm.metadata.name verdict sm.lastKnownSpotActive
  dispatchPhase ctx sm (composeShouldBeActive verdict sm.lastKnownSpotActive)

def reconcileInner (ctx : Context) (sm : ScheduledMachine) : Ctl Action := do
  let ns ← Prog.ofExcept (requireNamespace sm)
  Prog.ofExcept (validateSpec sm.spec)
  if sm.spec.killSwitch then handleKillSwitch ctx sm
  else do
    match ← checkEmergencyReclaim ctx sm with
    | some action => .pure action
    | none => reconcileSchedule ctx sm ns

def reconcileGuarded (ctx : Context) (sm : ScheduledMachine) (ns : String) : Ctl Action :=
  if !ctx.isLeader then .pure .awaitChange
  else if !shouldProcessResource ctx sm.metadata.name ns sm.spec.priority then .pure .awaitChange
  else if sm.deleting then handleDeletion ctx sm
  else if !hasFinalizer sm then addFinalizer sm
  else reconcileInner ctx sm

def reconcileScheduledMachine (ctx : Context) (sm : ScheduledMachine) : Ctl Action := do
  let ns ← Prog.ofExcept (requireNamespace sm)
  reconcileGuarded ctx sm ns

end FiveSpot
