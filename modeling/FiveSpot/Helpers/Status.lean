import FiveSpot.Helpers.Validation

/-! # Status writes and events

`update_phase` replaces phase, message, conditions, `inSchedule` and `ready` in one merge
patch. Everything else in the status is left alone by it.
-/

namespace FiveSpot

set_option autoImplicit false

open Interaction

def buildPhaseTransitionEvent (fromPhase : Option Phase) (target : Phase) (reason message : String) :
    KubeEvent where
  type := if target = .error ∨ target = .terminated then .warning else .normal
  reason := reason
  note := ((fromPhase.map Phase.text).getD "Unknown") ++ " -> " ++ target.text ++ ": " ++ message
  action := "PhaseTransitionTo" ++ target.text

/-- Events are best effort: a failure to publish is only logged. -/
def publishBestEffort (event : KubeEvent) : Ctl Unit :=
  (api .management (.publishEvent event)).bind fun _ => .pure ()

/-- The shared body of the phase writers. They differ in the defaults of the reason and
the message only. -/
def writePhase (ns name : String) (fromPhase : Option Phase) (target : Phase)
    (reason message : String) (inSchedule : Bool) : Ctl Unit := do
  publishBestEffort (buildPhaseTransitionEvent fromPhase target reason message)
  let now ← local_ .utcNow
  let condition := Condition.new now Constants.conditionTypeReady Constants.conditionStatusTrue
    reason message
  let answer ← api .management (.patchStatus ns name
    (.phase target message [condition] inSchedule (target == .active)))
  orKubeError answer

def updatePhase (ns name : String) (fromPhase : Option Phase) (target : Phase)
    (reason message : Option String) (inSchedule : Bool) : Ctl Unit :=
  writePhase ns name fromPhase target (reason.getD Constants.reasonReconcileSucceeded)
    (message.getD "Phase transition completed") inSchedule

def updatePhaseWithGracePeriod (ns name : String) (fromPhase : Option Phase) (target : Phase)
    (reason message : Option String) (inSchedule : Bool) : Ctl Unit :=
  writePhase ns name fromPhase target (reason.getD Constants.reasonGracePeriod)
    (message.getD "Grace period started") inSchedule

def patchMachineRefsStatus (ns name : String) (providerId : Option String)
    (nodeRef : Option NodeRef) : Ctl Unit :=
  if providerId.isNone && nodeRef.isNone then .pure ()
  else do
    let answer ← api .management (.patchStatus ns name (.machineRefs providerId nodeRef))
    orKubeError answer

def patchAppliedNodeTaintsStatus (ns name : String) (applied : List NodeTaint) : Ctl Unit := do
  let answer ← api .management (.patchStatus ns name (.appliedNodeTaints applied))
  orKubeError answer

/-- `check_grace_period_elapsed`. Without a recorded start the period counts as over. -/
def checkGracePeriodElapsed (sm : ScheduledMachine) : Ctl Bool :=
  match sm.status with
  | none => .fail (.invalidConfig "Resource has no status")
  | some status => match graceStart status with
    | none => .pure true
    | some (.malformed text) => .fail (.invalidConfig s!"Invalid timestamp: {text}")
    | some (.valid start) => do
      let timeout ← Prog.ofExcept (parseDuration sm.spec.gracefulShutdownTimeout)
      let now ← local_ .utcNow
      return graceOver start now timeout

end FiveSpot
