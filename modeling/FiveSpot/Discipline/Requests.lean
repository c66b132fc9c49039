import FiveSpot.Discipline.Effects

/-! # What the helpers ask for

Where a helper sends its requests does not depend on the rule it is watched by. For each helper: its
requests satisfy `R` as long as `R` permits requests of the kinds it makes.
-/

namespace FiveSpot

set_option autoImplicit false

open Interaction

def LocalOp.tracks : LocalOp → Bool
  | .recordEmergencyReclaim _ _ | .recordEmergencyReclaimEvent _ _ => true
  | _ => false

def Condition.isReadyTrue (c : Condition) : Bool :=
  c.type == Constants.conditionTypeReady && c.status == Constants.conditionStatusTrue

/-- A phase write comes with a condition that is ready, and with `ready` for the active phase only. -/
def ApiCall.signals : ApiCall → Bool
  | .patchStatus _ _ (.phase target _ conditions _ ready) =>
    conditions.any Condition.isReadyTrue && ready == (target == .active)
  | _ => true

/-- Calls without effect that concern neither Nodes nor Pods, clocks and the client cache. -/
structure PermitsReads (R : Req → Prop) : Prop where
  call : ∀ client call, effectOfCall client call = none → call.isNodeOrPod = false → R (.api client call)
  loc : ∀ op, op.tracks = false → R (.loc op)

/-- Besides, every call that concerns neither Nodes nor Pods, and timers. -/
structure PermitsOffnode (R : Req → Prop) : Prop extends PermitsReads R where
  write : ∀ client call, call.isNodeOrPod = false → call.signals = true → R (.api client call)
  timer : ∀ seconds, R (.timer seconds)

/-- Besides, calls on Nodes and Pods of any cluster. -/
structure PermitsPhases (R : Req → Prop) : Prop extends PermitsOffnode R where
  node : ∀ client call, call.isNodeOrPod = true → R (.api client call)

section

variable {R : Req → Prop} {α : Type}

theorem Issues.bestEffort {p : Ctl α} (hp : p.Issues R) : (bestEffort p).Issues R :=
  hp.attempt.bind fun _ => trivial

theorem issues_orKubeError (x : Except KubeError α) : (orKubeError x).Issues R := by
  cases x <;> trivial

theorem issues_orError (f : KubeError → ReconcilerError) (x : Except KubeError α) :
    (orError f x).Issues R := by
  cases x <;> trivial

theorem issues_api {client : Client} {call : ApiCall} (h : R (.api client call)) :
    (api client call).Issues R := by
  simpa [api] using h

theorem issues_local {op : LocalOp} (h : R (.loc op)) : (local_ op).Issues R := by
  simpa [local_] using h

theorem issues_ensureCanCreate (hR : ∀ attributes, R (.api .management (.accessReview attributes))) (ctx : Context)
    (ns apiVersion kind label : String) : (ensureCanCreate ctx ns apiVersion kind label).Issues R := by
  refine (issues_api (hR _)).bind fun answer => (issues_orKubeError _).bind fun result => ?_
  dsimp only
  split <;> trivial

theorem issues_createDynamicResource {ctx : Context} {ns apiVersion kind name context : String} {body : Json}
    (h : R (.api .management (.create (dynamicResource ctx apiVersion kind) ns name body))) :
    (createDynamicResource ctx ns apiVersion kind name body context).Issues R := by
  refine (issues_api h).bind fun answer => ?_
  split
  · trivial
  · split <;> trivial

theorem issues_deleteResource {ar : ApiResource} {ns name context : String}
    (h : R (.api .management (.delete ar ns name))) : (deleteResource ar ns name context).Issues R := by
  refine (issues_api h).bind fun answer => ?_
  split
  · trivial
  · split <;> trivial

theorem issues_deleteEmbedded {ns name : String} (h : ∀ ar, R (.api .management (.delete ar ns name))) (ctx : Context)
    (embedded : EmbeddedResource) : (deleteEmbedded ctx ns name embedded).Issues R := by
  unfold deleteEmbedded
  split
  · exact issues_deleteResource (h _)
  · trivial

theorem issues_removeMachineFromCluster {sm : ScheduledMachine} {ns : String}
    (h : ∀ ar, R (.api .management (.delete ar ns sm.metadata.name))) (ctx : Context) :
    (removeMachineFromCluster ctx sm ns).Issues R :=
  (issues_deleteResource (h _)).bind fun _ => (issues_deleteEmbedded h ..).bind fun _ => issues_deleteEmbedded h ..

theorem issues_finalizerCleanup {sm : ScheduledMachine} {ns : String}
    (hdelete : ∀ ar, R (.api .management (.delete ar ns sm.metadata.name)))
    (hevent : ∀ event, R (.api .management (.publishEvent event))) (htimer : ∀ seconds, R (.timer seconds)) (ctx : Context) :
    (finalizerCleanup ctx sm ns).Issues R := by
  unfold finalizerCleanup
  split
  · refine Prog.Issues.bind
      (Prog.Issues.bind (.orTimeout (htimer _) (issues_removeMachineFromCluster hdelete _)) fun _ => trivial)
      fun outcome => ?_
    split
    · trivial
    · trivial
    · refine Prog.Issues.bind ((issues_api (hevent _)).bind fun _ => trivial) fun _ => ?_
      split <;> trivial
  · trivial

/-! ## Reads -/

section

variable (hR : PermitsReads R)
include hR

theorem issues_publishBestEffort (event : KubeEvent) : (publishBestEffort event).Issues R :=
  (issues_api (hR.call _ _ rfl rfl)).bind fun _ => trivial

theorem issues_hookEvicted (key : Option CacheKey) : (hookEvicted key).Issues R := by
  cases key
  · trivial
  · exact issues_local (hR.loc _ rfl)

theorem issues_buildChildClient (ns secretName key : String) (secret : Secret) :
    (buildChildClient ns secretName key secret).Issues R := by
  unfold buildChildClient
  split
  · trivial
  · trivial
  · refine (issues_local (hR.loc _ rfl)).bind fun failure => ?_
    split
    · trivial
    · exact (issues_local (hR.loc _ rfl)).bind fun inserted => (issues_hookEvicted hR _).bind fun _ =>
        (issues_hookEvicted hR _).bind fun _ => (issues_local (hR.loc _ rfl)).bind fun _ => trivial

theorem issues_buildOrGetCached (ns secretName key : String) (explicit : Bool) :
    (buildOrGetCached ns secretName key explicit).Issues R := by
  refine (issues_api (hR.call _ _ rfl rfl)).bind fun answer => (issues_orError _ _).bind fun secret =>
    (issues_local (hR.loc _ rfl)).bind fun cached => ?_
  split
  · trivial
  · exact issues_buildChildClient hR _ _ _ _

theorem issues_resolve (sm : ScheduledMachine) : (resolve sm).Issues R := by
  unfold resolve
  split
  · trivial
  · split
    · exact issues_buildOrGetCached hR _ _ _ _
    · refine (issues_buildOrGetCached hR _ _ _ _).attempt.bind fun outcome => ?_
      split <;> trivial

theorem issues_resolveSpotSchedule (ns : String) (reference : SpotScheduleRef) :
    (resolveSpotSchedule ns reference).Issues R := by
  refine (issues_api (hR.call _ _ rfl rfl)).bind fun answer => ?_
  split
  · trivial
  · refine (issues_api (hR.call _ _ rfl rfl)).bind fun answer => ?_
    split
    · trivial
    · split <;> trivial

theorem issues_patchMachineRefsStatus (ns name : String) (providerId : Option String)
    (nodeRef : Option NodeRef) : (patchMachineRefsStatus ns name providerId nodeRef).Issues R := by
  unfold patchMachineRefsStatus
  split
  · trivial
  · exact (issues_api (hR.call _ _ rfl rfl)).bind fun _ => issues_orKubeError _

theorem issues_fetchCapiMachine (ctx : Context) (ns name : String) :
    (fetchCapiMachine ctx ns name).Issues R := by
  refine (issues_api (hR.call _ _ rfl rfl)).bind fun answer => ?_
  split
  · trivial
  · split <;> trivial

theorem issues_getNodeFromMachine (ctx : Context) (ns name : String) : (getNodeFromMachine ctx ns name).Issues R := by
  refine (issues_fetchCapiMachine hR _ _ _).bind fun machine => ?_
  split <;> trivial

theorem issues_checkGracePeriodElapsed (sm : ScheduledMachine) : (checkGracePeriodElapsed sm).Issues R := by
  unfold checkGracePeriodElapsed
  split
  · trivial
  · split
    · trivial
    · trivial
    · generalize parseDuration sm.spec.gracefulShutdownTimeout = timeout
      exact (Prog.issues_ofExcept _ _).bind fun _ => (issues_local (hR.loc _ rfl)).bind fun _ => trivial

theorem issues_recordReclaim (htracks : ∀ op, R (.loc op)) (ns name : String) : (recordReclaim ns name).Issues R := by
  refine (issues_local (htracks _)).bind fun _ => (issues_local (htracks _)).bind fun now =>
    (issues_local (htracks _)).bind fun breach => ?_
  split
  · exact issues_publishBestEffort hR _
  · trivial

end

/-! ## Helpers and handlers that touch no Node -/

theorem issues_handleErrorPhase (sm : ScheduledMachine) : (handleErrorPhase sm).Issues R :=
  (Prog.issues_ofExcept _ _).bind fun _ => trivial

section

variable (hR : PermitsOffnode R)
include hR

theorem issues_writePhase (ns name : String) (fromPhase : Option Phase) (target : Phase) (reason message : String)
    (inSchedule : Bool) : (writePhase ns name fromPhase target reason message inSchedule).Issues R :=
  (issues_publishBestEffort hR.toPermitsReads _).bind fun _ => (issues_local (hR.loc _ rfl)).bind fun _ =>
    (issues_api (hR.write _ _ rfl (by simp [ApiCall.signals, Condition.new, Condition.isReadyTrue]))).bind fun _ =>
      issues_orKubeError _

theorem issues_persistSpotScheduleStatus (ns name : String) (verdict : SpotScheduleVerdict)
    (previousActive : Option Bool) : (persistSpotScheduleStatus ns name verdict previousActive).Issues R := by
  refine Prog.Issues.bind ?_ fun time => (issues_api (hR.write _ _ rfl rfl)).bind fun _ => issues_orKubeError _
  unfold spotTransitionTime
  split
  · exact (issues_local (hR.loc _ rfl)).bind fun _ => trivial
  · trivial

theorem issues_recordAppliedTaints (sm : ScheduledMachine) (outcome : NodeTaintReconcileOutcome) :
    (recordAppliedTaints sm outcome).Issues R := by
  cases outcome with
  | applied applied =>
    simp only [recordAppliedTaints]
    split
    · trivial
    split
    · trivial
    · exact (issues_api (hR.write _ _ rfl rfl)).bind fun _ => issues_orKubeError _
  | _ => trivial

theorem issues_addMachineToCluster (ctx : Context) (sm : ScheduledMachine) (ns : String) :
    (addMachineToCluster ctx sm ns).Issues R :=
  have hreview : ∀ attributes, R (.api .management (.accessReview attributes)) := fun _ => hR.write _ _ rfl rfl
  (Prog.issues_ofExcept _ _).bind fun _ => (issues_ensureCanCreate hreview ..).bind fun _ =>
    (issues_ensureCanCreate hreview ..).bind fun _ => (issues_ensureCanCreate hreview ..).bind fun _ =>
      (Prog.issues_ofExcept _ _).bind fun _ => (issues_createDynamicResource (hR.write _ _ rfl rfl)).bind fun _ =>
        (issues_createDynamicResource (hR.write _ _ rfl rfl)).bind fun _ =>
          issues_createDynamicResource (hR.write _ _ rfl rfl)

theorem issues_patchDisableSchedule (ns name : String) : (patchDisableSchedule ns name).Issues R :=
  (issues_api (hR.write _ _ rfl rfl)).bind fun _ => issues_orKubeError _

theorem issues_handleDeletion (ctx : Context) (sm : ScheduledMachine) : (handleDeletion ctx sm).Issues R :=
  (Prog.issues_ofExcept _ _).bind fun _ =>
    (issues_finalizerCleanup (fun _ => hR.write _ _ rfl rfl) (fun _ => hR.call _ _ rfl rfl) hR.timer _).bind fun _ =>
    ((issues_api (hR.write _ _ rfl rfl)).bind fun _ => issues_orKubeError _).bind fun _ => trivial

theorem issues_addFinalizer (sm : ScheduledMachine) : (addFinalizer sm).Issues R :=
  (Prog.issues_ofExcept _ _).bind fun _ =>
    ((issues_api (hR.write _ _ rfl rfl)).bind fun _ => issues_orKubeError _).bind fun _ => trivial

theorem issues_handleKillSwitch (ctx : Context) (sm : ScheduledMachine) : (handleKillSwitch ctx sm).Issues R := by
  refine (Prog.issues_ofExcept _ _).bind fun _ => Prog.Issues.bind ?_ fun _ =>
    (issues_writePhase hR ..).bind fun _ => trivial
  unfold removeIfRunning
  split
  · exact issues_removeMachineFromCluster (fun _ => hR.write _ _ rfl rfl) _
  · trivial

theorem issues_handleEmergencyRemovePhase (sm : ScheduledMachine) : (handleEmergencyRemovePhase sm).Issues R :=
  (Prog.issues_ofExcept _ _).bind fun _ => (issues_writePhase hR ..).bind fun _ => trivial

theorem issues_handlePendingPhase (ctx : Context) (sm : ScheduledMachine) (shouldBeActive : Bool) :
    (handlePendingPhase ctx sm shouldBeActive).Issues R := by
  refine (Prog.issues_ofExcept _ _).bind fun _ => ?_
  split
  · exact (issues_writePhase hR ..).bind fun _ => trivial
  · split
    · exact (issues_writePhase hR ..).bind fun _ => trivial
    · refine (issues_addMachineToCluster hR ..).attempt.bind fun outcome => ?_
      split
      · exact (issues_writePhase hR ..).bind fun _ => trivial
      · exact (issues_writePhase hR ..).bind fun _ => trivial

theorem issues_handleInactivePhase (sm : ScheduledMachine) (shouldBeActive : Bool) :
    (handleInactivePhase sm shouldBeActive).Issues R := by
  refine (Prog.issues_ofExcept _ _).bind fun _ => ?_
  split
  · trivial
  · split
    · trivial
    · exact (issues_writePhase hR ..).bind fun _ => trivial

theorem issues_handleDisabledPhase (sm : ScheduledMachine) : (handleDisabledPhase sm).Issues R := by
  refine (Prog.issues_ofExcept _ _).bind fun _ => ?_
  split
  · exact (issues_writePhase hR ..).bind fun _ => trivial
  · trivial

end

/-! ## Helpers on one Node -/

section

variable {client : Client}

theorem issues_reconcileReclaimAgentProvision (hR : ∀ call, effectOfCall client call = none → R (.api client call))
    (nodeName : String) (commands : List String) :
    (reconcileReclaimAgentProvision client nodeName commands).Issues R := by
  refine (issues_api (hR _ ?_)).bind fun _ => (issues_orKubeError _).bind fun _ => ?_
  · simp [effectOfCall, buildReclaimAgentLabelPatch, cordonPatch, buildClearReclaimPatch]
  split
  · refine (issues_api (hR _ rfl)).bind fun answer => ?_
    split
    · trivial
    · split <;> trivial
  · exact (issues_api (hR _ rfl)).bind fun _ => issues_orKubeError _

theorem effectOfCall_kataRef (client : Client) (nodeName : String) (kata : Option KataConfig) :
    effectOfCall client (.patchNode nodeName (buildKataConfigRefAnnotationPatch kata)) = none := by
  simp [effectOfCall, buildKataConfigRefAnnotationPatch, cordonPatch, buildClearReclaimPatch]

theorem effectOfCall_kataDeliver (client : Client) (nodeName : String) (kata : KataConfig) :
    effectOfCall client (.patchNode nodeName (kataDeliverPatch kata)) = none := by
  simp [effectOfCall, kataDeliverPatch, buildKataConfigLabelPatch, cordonPatch, buildClearReclaimPatch]

theorem issues_kataSourcePresent (hR : ∀ call, effectOfCall client call = none → R (.api client call))
    (kata : KataConfig) : (kataSourcePresent client kata).Issues R := by
  unfold kataSourcePresent
  split
  · exact (issues_api (hR _ rfl)).bind fun _ => issues_orKubeError _
  · exact (issues_api (hR _ rfl)).bind fun _ => issues_orKubeError _

theorem issues_reconcileKataConfigDelivery (hR : ∀ call, effectOfCall client call = none → R (.api client call))
    (nodeName : String) (kata : Option KataConfig) :
    (reconcileKataConfigDelivery client nodeName kata).Issues R := by
  unfold reconcileKataConfigDelivery
  split
  · exact (issues_api (hR _ (effectOfCall_kataRef ..))).bind fun _ =>
      (issues_orKubeError _).bind fun _ => trivial
  · refine (issues_kataSourcePresent hR _).bind fun present => ?_
    split
    · exact (issues_api (hR _ (effectOfCall_kataDeliver ..))).bind fun _ =>
        (issues_orKubeError _).bind fun _ => trivial
    · exact (issues_api (hR _ rfl)).bind fun _ => (issues_orKubeError _).bind fun _ =>
        (issues_api (hR _ (effectOfCall_kataRef ..))).bind fun _ =>
          (issues_orKubeError _).bind fun _ => trivial

theorem issues_evictPods (hR : PermitsReads R) (hnode : ∀ call, call.isNodeOrPod = true → R (.api client call)) (nodeName : String)
    (timeoutSecs start : Nat) (pods : List Pod) : (evictPods client nodeName timeoutSecs start pods).Issues R := by
  induction pods with
  | nil => trivial
  | cons pod rest ih =>
    refine (issues_local (hR.loc _ rfl)).bind fun now => ?_
    split
    · trivial
    · refine Prog.Issues.bind ((issues_api (hnode _ rfl)).bind fun answer => ?_) fun _ => ih
      split
      · trivial
      · split
        · trivial
        · split <;> trivial

theorem issues_drainNodeWithTimeout (hR : PermitsReads R) (hnode : ∀ call, call.isNodeOrPod = true → R (.api client call)) (nodeName : String)
    (timeoutSecs : Nat) : (drainNodeWithTimeout client nodeName timeoutSecs).Issues R := by
  refine Prog.Issues.bind ((issues_api (hnode _ rfl)).bind fun _ => issues_orError _ _) fun _ =>
    (issues_api (hnode _ rfl)).bind fun _ => (issues_orError _ _).bind fun pods => ?_
  split
  · trivial
  · exact (issues_local (hR.loc _ rfl)).bind fun _ => issues_evictPods hR hnode _ _ _ _

theorem issues_reconcileNodeTaints (hnode : ∀ call, call.isNodeOrPod = true → R (.api client call)) (nodeName : String)
    (desired previouslyApplied : List NodeTaint) :
    (reconcileNodeTaints client nodeName desired previouslyApplied).Issues R := by
  refine (issues_api (hnode _ rfl)).bind fun answer => ?_
  split
  · split <;> trivial
  · split
    · trivial
    · dsimp only
      split
      · trivial
      · refine Prog.Issues.bind ?_ fun _ => trivial
        unfold applyNodeTaints
        split
        · trivial
        · exact (issues_api (hnode _ rfl)).bind fun _ => (issues_orKubeError _).bind fun _ =>
            (issues_api (hnode _ rfl)).bind fun _ => issues_orKubeError _

theorem issues_clearReclaimAnnotationsBestEffort (hnode : ∀ call, call.isNodeOrPod = true → R (.api client call)) (nodeName : String) :
    (clearReclaimAnnotationsBestEffort client nodeName).Issues R :=
  (issues_api (hnode _ rfl)).bind fun _ => trivial

theorem issues_withNode (hR : PermitsReads R) (sm : ScheduledMachine) (nodeRef : Option NodeRef)
    {body : Client → String → Ctl Unit} (hbody : ∀ client nodeName, (body client nodeName).Issues R) :
    (withNode sm nodeRef body).Issues R := by
  unfold withNode
  split
  · trivial
  · split
    · trivial
    · refine (issues_resolve hR sm).attempt.bind fun outcome => ?_
      split
      · trivial
      · exact Issues.bestEffort (hbody _ _)

end

/-! ## Phases -/

theorem signals_of_effectOfCall_eq_none {client : Client} {call : ApiCall} (h : effectOfCall client call = none) :
    call.signals = true := by
  cases call with
  | patchStatus ns name body =>
    cases body with
    | phase => cases h
    | _ => rfl
  | _ => rfl

section

variable (hR : PermitsPhases R)
include hR

theorem PermitsPhases.api (client : Client) (call : ApiCall) (h : call.signals = true) : R (.api client call) := by
  cases hnode : call.isNodeOrPod with
  | true => exact hR.node client call hnode
  | false => exact hR.write client call hnode h

theorem PermitsPhases.harmless (client : Client) (call : ApiCall) (h : effectOfCall client call = none) :
    R (.api client call) := hR.api client call (signals_of_effectOfCall_eq_none h)

theorem issues_reconcileNodeTaintsBestEffort (sm : ScheduledMachine) (nodeRef : Option NodeRef) :
    (reconcileNodeTaintsBestEffort sm nodeRef).Issues R := by
  unfold reconcileNodeTaintsBestEffort
  split
  · trivial
  split
  · trivial
  split
  · trivial
  · apply issues_withNode hR.toPermitsReads
    intro client nodeName
    apply (issues_reconcileNodeTaints (hR.node client) _ _ _).bind
    exact issues_recordAppliedTaints hR.toPermitsOffnode sm

theorem issues_enrichActive (ctx : Context) (sm : ScheduledMachine) (ns : String) : (enrichActive ctx sm ns).Issues R := by
  have hreads := hR.toPermitsReads
  apply (issues_fetchCapiMachine hreads _ _ _).attempt.bind
  intro outcome
  split
  · trivial
  · trivial
  · apply Prog.Issues.bind (Issues.bestEffort (issues_patchMachineRefsStatus hreads ..))
    intro _
    apply Prog.Issues.bind
    · exact issues_withNode hreads _ _ fun client _ => issues_reconcileReclaimAgentProvision (hR.harmless client) _ _
    · intro _
      apply (issues_reconcileNodeTaintsBestEffort hR _ _).bind
      intro _
      apply issues_withNode hreads
      intro client nodeName
      exact (issues_reconcileKataConfigDelivery (hR.harmless client) _ _).bind fun _ => trivial

theorem issues_drainBoundNode (ctx : Context) (sm : ScheduledMachine) (ns : String) :
    (drainBoundNode ctx sm ns).Issues R := by
  have hreads := hR.toPermitsReads
  apply (issues_getNodeFromMachine hreads _ _ _).bind
  intro found
  split
  · trivial
  · generalize parseDuration sm.spec.nodeDrainTimeout = timeout
    apply (Prog.issues_ofExcept _ timeout).bind
    intro seconds
    apply (issues_resolve hreads sm).bind
    intro client
    exact Issues.bestEffort (issues_drainNodeWithTimeout hreads (hR.node _) _ _)

theorem issues_handleActivePhase (ctx : Context) (sm : ScheduledMachine) (shouldBeActive : Bool) :
    (handleActivePhase ctx sm shouldBeActive).Issues R := by
  apply (Prog.issues_ofExcept _ _).bind
  intro ns
  split
  · exact (issues_writePhase hR.toPermitsOffnode ..).bind fun _ => trivial
  · split
    · exact (issues_writePhase hR.toPermitsOffnode ..).bind fun _ => trivial
    · exact (issues_enrichActive hR ..).bind fun _ => trivial

theorem issues_handleShuttingDownPhase (ctx : Context) (sm : ScheduledMachine) :
    (handleShuttingDownPhase ctx sm).Issues R := by
  apply (Prog.issues_ofExcept _ _).bind
  intro ns
  apply (issues_checkGracePeriodElapsed hR.toPermitsReads sm).bind
  intro elapsed
  split
  · apply (issues_drainBoundNode hR ..).bind
    intro _
    apply (issues_removeMachineFromCluster (fun _ => hR.write _ _ rfl rfl) _).attempt.bind
    intro outcome
    split
    · exact (issues_writePhase hR.toPermitsOffnode ..).bind fun _ => trivial
    · exact (issues_writePhase hR.toPermitsOffnode ..).bind fun _ => trivial
  · trivial

theorem issues_dispatchPhase (ctx : Context) (sm : ScheduledMachine) (shouldBeActive : Bool) :
    (dispatchPhase ctx sm shouldBeActive).Issues R := by
  have hoff := hR.toPermitsOffnode
  unfold dispatchPhase
  split
  · exact issues_handleActivePhase hR ..
  · exact issues_handleShuttingDownPhase hR ..
  · exact issues_handleInactivePhase hoff ..
  · exact issues_handleDisabledPhase hoff _
  · trivial
  · exact issues_handleEmergencyRemovePhase hoff _
  · exact issues_handleErrorPhase _
  · exact issues_handlePendingPhase hoff ..
  · exact issues_handlePendingPhase hoff ..
  · exact issues_handlePendingPhase hoff ..

theorem issues_reconcileSchedule (ctx : Context) (sm : ScheduledMachine) (ns : String) :
    (reconcileSchedule ctx sm ns).Issues R := by
  apply (issues_resolveSpotSchedule hR.toPermitsReads _ _).bind
  intro verdict
  apply (issues_persistSpotScheduleStatus hR.toPermitsOffnode ..).bind
  intro _
  exact issues_dispatchPhase hR ..

/-! ## The whole reconcile -/

theorem issues_handleEmergencyRemove (htracks : ∀ op, R (.loc op)) (ctx : Context) (sm : ScheduledMachine)
    (nodeName : String) (request : ReclaimRequest) : (handleEmergencyRemove ctx sm nodeName request).Issues R := by
  have hoff := hR.toPermitsOffnode
  have hreads := hR.toPermitsReads
  apply (Prog.issues_ofExcept _ _).bind
  intro ns
  apply (issues_publishBestEffort hreads _).bind
  intro _
  apply (issues_writePhase hoff ..).bind
  intro _
  apply (issues_recordReclaim hreads htracks _ _).bind
  intro _
  apply (issues_resolve hreads sm).bind
  intro child
  apply Prog.Issues.bind (Issues.bestEffort (issues_drainNodeWithTimeout hreads (hR.node _) _ _))
  intro _
  apply (issues_removeMachineFromCluster (fun _ => hR.write _ _ rfl rfl) _).bind
  intro _
  apply (issues_patchDisableSchedule hoff _ _).bind
  intro _
  apply (issues_publishBestEffort hreads _).bind
  intro _
  apply (issues_clearReclaimAnnotationsBestEffort (hR.node _) _).bind
  intro _
  exact (issues_writePhase hoff ..).bind fun _ => trivial

theorem issues_checkEmergencyReclaim (htracks : ∀ op, R (.loc op)) (ctx : Context) (sm : ScheduledMachine) :
    (checkEmergencyReclaim ctx sm).Issues R := by
  unfold checkEmergencyReclaim
  split
  · trivial
  · apply (issues_api (hR.node _ _ rfl)).bind
    intro answer
    split
    · split <;> trivial
    · split
      · trivial
      · exact (issues_handleEmergencyRemove hR htracks ..).bind fun _ => trivial

theorem issues_reconcileScheduledMachine (htracks : ∀ op, R (.loc op)) (ctx : Context) (sm : ScheduledMachine) :
    (reconcileScheduledMachine ctx sm).Issues R := by
  have hoff := hR.toPermitsOffnode
  apply (Prog.issues_ofExcept _ _).bind
  intro ns
  unfold reconcileGuarded
  split
  · trivial
  split
  · trivial
  split
  · exact issues_handleDeletion hoff ..
  split
  · exact issues_addFinalizer hoff _
  · apply (Prog.issues_ofExcept _ _).bind
    intro ns
    apply (Prog.issues_ofExcept _ _).bind
    intro _
    split
    · exact issues_handleKillSwitch hoff ..
    · apply (issues_checkEmergencyReclaim hR htracks ..).bind
      intro outcome
      split
      · trivial
      · exact issues_reconcileSchedule hR ..

end

end

end FiveSpot
