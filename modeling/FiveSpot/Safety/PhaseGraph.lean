import FiveSpot.Cluster.LogInvariant

/-! # The phase graph

A phase is recorded for one reason only, and from few phases. Apart from the mark of an emergency reclaim, the write of
a phase is the last request of a reconcile.
-/

namespace FiveSpot

set_option autoImplicit false

open Interaction

/-- The moves of the recorded phase, each with the reason its condition gives. -/
inductive PhaseEdge : Option Phase → Phase → String → Prop
  | kill (recorded : Option Phase) : PhaseEdge recorded .terminated Constants.reasonKillSwitch
  | reclaim (recorded : Option Phase) : PhaseEdge recorded .emergencyRemove Constants.reasonEmergencyReclaim
  | reclaimed : PhaseEdge (some .emergencyRemove) .disabled Constants.reasonScheduleDisabled
  | disable {recorded : Option Phase} : pendingLike recorded = true →
      PhaseEdge recorded .disabled Constants.reasonScheduleDisabled
  | wait {recorded : Option Phase} : pendingLike recorded = true →
      PhaseEdge recorded .inactive Constants.reasonScheduleInactive
  | create {recorded : Option Phase} : pendingLike recorded = true →
      PhaseEdge recorded .active Constants.reasonMachineCreated
  | createFails {recorded : Option Phase} : pendingLike recorded = true →
      PhaseEdge recorded .error "MachineCreationFailed"
  | close : PhaseEdge (some .active) .shuttingDown Constants.reasonGracePeriod
  | closeDisabled : PhaseEdge (some .active) .shuttingDown Constants.reasonScheduleDisabled
  | remove : PhaseEdge (some .shuttingDown) .inactive Constants.reasonMachineDeleted
  | removeFails : PhaseEdge (some .shuttingDown) .error "MachineDeletionFailed"
  | reopen : PhaseEdge (some .inactive) .pending Constants.reasonScheduleActive
  | enable : PhaseEdge (some .disabled) .pending Constants.reasonScheduleActive

/-- The conditions of a phase write give the reason of an edge. -/
def FollowsEdge (recorded : Option Phase) (target : Phase) (conditions : List Condition) : Prop :=
  ∃ reason now message, PhaseEdge recorded target reason ∧
    conditions = [.new now Constants.conditionTypeReady Constants.conditionStatusTrue reason message]

/-! ## Within a reconcile -/

/-- The phase on record, and whether the reconcile has asked for its last phase write. -/
structure PhaseStage where
  recorded : Option Phase
  closed : Bool

def PhaseStage.observe (stage : PhaseStage) : Obs → PhaseStage
  | .phase target done =>
    if target = .emergencyRemove ∧ done = true then ⟨some .emergencyRemove, false⟩ else { stage with closed := true }
  | _ => stage

/-- Phase writes follow the edges, and nothing is asked for after the last one. -/
def phaseStages : Monitor Resp PhaseStage where
  allowed stage r := stage.closed = false ∧
    ∀ target conditions, effectOf r = some (.phase target conditions) → FollowsEdge stage.recorded target conditions
  observe stage r answer := ((obsOf r answer).map stage.observe).getD stage

def Unphased (r : Req) : Prop := ∀ target conditions, effectOf r ≠ some (.phase target conditions)

theorem unphased_call {client : Client} {call : ApiCall} (h : call.isPhaseWrite = false) : Unphased (.api client call) := by
  intro target conditions heffect
  cases call with
  | patchStatus ns name body => cases body <;> cases heffect <;> cases h
  | patchNode node body =>
    simp only [effectOf, effectOfCall] at heffect
    split at heffect
    · cases heffect
    · split at heffect <;> cases heffect
  | _ => cases heffect

theorem obsOfCall_ne_phase {client : Client} {call : ApiCall} {answer : Except KubeError call.Answer}
    (h : call.isPhaseWrite = false) (target : Phase) (done : Bool) : obsOfCall client call answer ≠ .phase target done := by
  intro heq
  cases call with
  | patchStatus ns name body => cases body <;> cases heq <;> cases h
  | create | delete | getNode =>
    cases answer with
    | ok => cases heq
    | error e =>
      simp only [obsOfCall] at heq
      split at heq <;> cases heq
  | get | listPods | pinnedKind => cases answer <;> cases heq
  | _ => cases heq

theorem isPhaseWrite_of_unphased {client : Client} {call : ApiCall} (h : Unphased (.api client call)) :
    call.isPhaseWrite = false := by
  rcases isPhaseWrite_cases call with hcall | ⟨ns, name, target, message, conditions, inSchedule, ready, rfl⟩
  · exact hcall
  · exact absurd rfl (h target conditions)

theorem observe_unphased {stage : PhaseStage} {r : Req} (h : Unphased r) (answer : Resp r) :
    phaseStages.observe stage r answer = stage := by
  cases r with
  | api client call =>
    have hnot : ∀ target done, obsOfCall client call answer ≠ .phase target done :=
      obsOfCall_ne_phase (isPhaseWrite_of_unphased h)
    simp only [phaseStages, obsOf, Option.map_some, Option.getD_some]
    generalize obsOfCall client call answer = o at hnot ⊢
    cases o with
    | phase target done => exact absurd rfl (hnot target done)
    | _ => rfl
  | loc op => cases op <;> rfl
  | timer seconds =>
    simp only [phaseStages, obsOf]
    split <;> rfl

section

variable {α : Type} {stage : PhaseStage}

theorem staged_of_unphased {p : Ctl α} {Q : Except ReconcilerError α → PhaseStage → Prop} (hp : p.Issues Unphased)
    (hopen : stage.closed = false) (hQ : ∀ x, Q x stage) : Conforms phaseStages p Q stage := by
  refine conforms_of_issues (L := fun t u => u = t) (fun _ => rfl) (fun h h' => h'.trans h) ?_ hp ?_
  · rintro r hr u rfl
    refine ⟨⟨hopen, fun target conditions heffect => absurd heffect (hr target conditions)⟩, fun answer => ?_⟩
    exact observe_unphased hr answer
  · rintro x u rfl
    exact hQ x

theorem staged_bind {β : Type} {p : Ctl α} {f : α → Ctl β} {Q : Except ReconcilerError β → PhaseStage → Prop}
    (hp : p.Issues Unphased) (hopen : stage.closed = false) (herror : ∀ e, Q (.error e) stage)
    (hf : ∀ a, Conforms phaseStages (f a) Q stage) : Conforms phaseStages (p.bind f) Q stage := by
  rw [conforms_bind]
  refine staged_of_unphased hp hopen fun x => ?_
  cases x with
  | ok a => exact hf a
  | error e => exact herror e

theorem staged_ofExcept {β : Type} {x : Except ReconcilerError α} {f : α → Ctl β}
    {Q : Except ReconcilerError β → PhaseStage → Prop} (herror : ∀ e, Q (.error e) stage)
    (hf : ∀ a, x = .ok a → Conforms phaseStages (f a) Q stage) :
    Conforms phaseStages ((Prog.ofExcept x).bind f) Q stage := by
  rw [conforms_bind, conforms_ofExcept]
  cases x with
  | ok a => exact hf a rfl
  | error e => exact herror e

/-- The write of a phase, after which nothing else is asked for unless it is the mark of a reclaim. -/
theorem staged_writePhase {ns name reason message : String} {fromPhase : Option Phase} {target : Phase} {inSchedule : Bool}
    {Q : Except ReconcilerError Unit → PhaseStage → Prop} (hopen : stage.closed = false)
    (hedge : PhaseEdge stage.recorded target reason) (hok : Q (.ok ()) (stage.observe (.phase target true)))
    (herror : ∀ e, Q (.error e) (stage.observe (.phase target false))) :
    Conforms phaseStages (writePhase ns name fromPhase target reason message inSchedule) Q stage := by
  have hquiet : ∀ r, Unphased r → phaseStages.allowed stage r :=
    fun r hr => ⟨hopen, fun target conditions heffect => absurd heffect (hr target conditions)⟩
  have hevent : ∀ event, Unphased (.api .management (.publishEvent event)) := fun _ => unphased_call rfl
  have hclock : Unphased (.loc .utcNow) := fun _ _ h => (nomatch h)
  simp only [writePhase, Prog.bind_def, publishBestEffort, conforms_bind, api, local_, conforms_request, continue_ok,
    conforms_pure, observe_unphased (hevent _), observe_unphased hclock]
  refine ⟨hquiet _ (hevent _), fun _ => ⟨hquiet _ hclock, fun now => ⟨⟨hopen, ?_⟩, fun answer => ?_⟩⟩⟩
  · rintro _ _ ⟨⟩
    exact ⟨reason, now, message, hedge, rfl⟩
  · cases answer with
    | ok => exact hok
    | error e => exact herror _

/-- A phase write that ends the reconcile. -/
theorem staged_lastPhase {ns name reason message : String} {fromPhase : Option Phase} {target : Phase} {inSchedule : Bool}
    {action : Action} (hopen : stage.closed = false) (hedge : PhaseEdge stage.recorded target reason) :
    Conforms phaseStages
      ((writePhase ns name fromPhase target reason message inSchedule).bind fun _ => .pure action) (fun _ _ => True) stage := by
  rw [conforms_bind]
  exact staged_writePhase hopen hedge trivial fun _ => trivial

end

/-! ## What asks for no phase -/

section

variable {ctx : Context} {sm : ScheduledMachine} {ns : String}

theorem permitsReads_unphased : PermitsReads Unphased where
  call client call h _ := by
    intro target conditions heffect
    rw [show effectOf (.api client call) = effectOfCall client call from rfl, h] at heffect
    cases heffect
  loc _ _ _ _ h := nomatch h

theorem unphased_harmless (client : Client) (call : ApiCall) (h : effectOfCall client call = none) :
    Unphased (.api client call) := by
  intro target conditions heffect
  rw [show effectOf (.api client call) = effectOfCall client call from rfl, h] at heffect
  cases heffect

theorem unphased_node (client : Client) (call : ApiCall) (h : call.isNodeOrPod = true) : Unphased (.api client call) := by
  refine unphased_call ?_
  cases call with
  | patchStatus => cases h
  | _ => rfl

theorem unphased_loc (op : LocalOp) : Unphased (.loc op) := fun _ _ h => (nomatch h)

theorem unphased_timer (seconds : Nat) : Unphased (.timer seconds) := fun _ _ h => (nomatch h)

theorem addMachineToCluster_unphased : (addMachineToCluster ctx sm ns).Issues Unphased := by
  have hreview : ∀ attributes, Unphased (.api .management (.accessReview attributes)) := fun _ => unphased_call rfl
  apply (Prog.issues_ofExcept _ _).bind
  intro plan
  apply (issues_ensureCanCreate hreview ..).bind
  intro _
  apply (issues_ensureCanCreate hreview ..).bind
  intro _
  apply (issues_ensureCanCreate hreview ..).bind
  intro _
  apply (Prog.issues_ofExcept _ _).bind
  intro uid
  apply (issues_createDynamicResource (unphased_call rfl)).bind
  intro _
  apply (issues_createDynamicResource (unphased_call rfl)).bind
  intro _
  exact issues_createDynamicResource (unphased_call rfl)

theorem removeMachineFromCluster_unphased : (removeMachineFromCluster ctx sm ns).Issues Unphased :=
  issues_removeMachineFromCluster (fun _ => unphased_call rfl) ctx

theorem persistSpotScheduleStatus_unphased (name : String) (verdict : SpotScheduleVerdict) (previousActive : Option Bool) :
    (persistSpotScheduleStatus ns name verdict previousActive).Issues Unphased := by
  refine Prog.Issues.bind ?_ fun time => (issues_api (unphased_call rfl)).bind fun _ => issues_orKubeError _
  unfold spotTransitionTime
  split
  · exact (issues_local (unphased_loc _)).bind fun _ => trivial
  · trivial

theorem recordAppliedTaints_unphased (outcome : NodeTaintReconcileOutcome) :
    (recordAppliedTaints sm outcome).Issues Unphased := by
  cases outcome with
  | applied applied =>
    simp only [recordAppliedTaints]
    split
    · trivial
    split
    · trivial
    · exact (issues_api (unphased_call rfl)).bind fun _ => issues_orKubeError _
  | _ => trivial

theorem reconcileNodeTaintsBestEffort_unphased (nodeRef : Option NodeRef) :
    (reconcileNodeTaintsBestEffort sm nodeRef).Issues Unphased := by
  unfold reconcileNodeTaintsBestEffort
  split
  · trivial
  split
  · trivial
  split
  · trivial
  · apply issues_withNode permitsReads_unphased
    intro client nodeName
    exact (issues_reconcileNodeTaints (unphased_node client) ..).bind fun _ => recordAppliedTaints_unphased _

theorem enrichActive_unphased : (enrichActive ctx sm ns).Issues Unphased := by
  have hreads := permitsReads_unphased
  apply (issues_fetchCapiMachine hreads _ _ _).attempt.bind
  intro outcome
  split
  · trivial
  · trivial
  · apply Prog.Issues.bind (Issues.bestEffort (issues_patchMachineRefsStatus hreads ..))
    intro _
    apply Prog.Issues.bind
    · exact issues_withNode hreads _ _ fun client _ => issues_reconcileReclaimAgentProvision (unphased_harmless client) _ _
    · intro _
      apply (reconcileNodeTaintsBestEffort_unphased _).bind
      intro _
      apply issues_withNode hreads
      intro client nodeName
      exact (issues_reconcileKataConfigDelivery (unphased_harmless client) _ _).bind fun _ => trivial

theorem drainBoundNode_unphased : (drainBoundNode ctx sm ns).Issues Unphased := by
  have hreads := permitsReads_unphased
  apply (issues_getNodeFromMachine hreads _ _ _).bind
  intro found
  split
  · trivial
  · generalize parseDuration sm.spec.nodeDrainTimeout = timeout
    apply (Prog.issues_ofExcept _ timeout).bind
    intro seconds
    apply (issues_resolve hreads sm).bind
    intro client
    exact Issues.bestEffort (issues_drainNodeWithTimeout hreads (unphased_node _) _ _)

end

/-! ## Handlers -/

section

variable {ctx : Context} {sm : ScheduledMachine} {ns : String}

/-- The stage in which a reconcile begins. -/
def PhaseStage.opening (sm : ScheduledMachine) : PhaseStage := ⟨sm.phase, false⟩

theorem staged_handlePendingPhase (shouldBeActive : Bool) (hphase : pendingLike sm.phase = true) :
    Conforms phaseStages (handlePendingPhase ctx sm shouldBeActive) (fun _ _ => True) (.opening sm) := by
  refine staged_ofExcept (fun _ => trivial) fun ns _ => ?_
  split
  · exact staged_lastPhase rfl (.disable hphase)
  · split
    · exact staged_lastPhase rfl (.wait hphase)
    · refine staged_bind addMachineToCluster_unphased.attempt rfl (fun _ => trivial) fun outcome => ?_
      cases outcome with
      | error e => exact staged_lastPhase rfl (.createFails hphase)
      | ok => exact staged_lastPhase rfl (.create hphase)

theorem staged_handleActivePhase (shouldBeActive : Bool) (hphase : sm.phase = some .active) :
    Conforms phaseStages (handleActivePhase ctx sm shouldBeActive) (fun _ _ => True) (.opening sm) := by
  have hopening : PhaseStage.opening sm = ⟨some .active, false⟩ := by rw [PhaseStage.opening, hphase]
  rw [hopening]
  refine staged_ofExcept (fun _ => trivial) fun ns _ => ?_
  split
  · exact staged_lastPhase rfl .closeDisabled
  · split
    · exact staged_lastPhase rfl .close
    · exact staged_bind enrichActive_unphased rfl (fun _ => trivial) fun _ => trivial

theorem staged_handleShuttingDownPhase (hphase : sm.phase = some .shuttingDown) :
    Conforms phaseStages (handleShuttingDownPhase ctx sm) (fun _ _ => True) (.opening sm) := by
  have hopening : PhaseStage.opening sm = ⟨some .shuttingDown, false⟩ := by rw [PhaseStage.opening, hphase]
  rw [hopening]
  refine staged_ofExcept (fun _ => trivial) fun ns _ => ?_
  refine staged_bind (issues_checkGracePeriodElapsed permitsReads_unphased sm) rfl (fun _ => trivial) fun elapsed => ?_
  split
  · refine staged_bind drainBoundNode_unphased rfl (fun _ => trivial) fun _ => ?_
    refine staged_bind removeMachineFromCluster_unphased.attempt rfl (fun _ => trivial) fun outcome => ?_
    cases outcome with
    | error e => exact staged_lastPhase rfl .removeFails
    | ok => exact staged_lastPhase rfl .remove
  · trivial

theorem staged_dispatchPhase (shouldBeActive : Bool) :
    Conforms phaseStages (dispatchPhase ctx sm shouldBeActive) (fun _ _ => True) (.opening sm) := by
  unfold dispatchPhase
  split
  · rename_i hphase
    exact staged_handleActivePhase shouldBeActive hphase
  · rename_i hphase
    exact staged_handleShuttingDownPhase hphase
  · rename_i hphase
    refine staged_ofExcept (fun _ => trivial) fun ns _ => ?_
    split
    · trivial
    · split
      · trivial
      · refine staged_lastPhase rfl ?_
        rw [PhaseStage.opening, hphase]
        exact .reopen
  · rename_i hphase
    refine staged_ofExcept (fun _ => trivial) fun ns _ => ?_
    split
    · refine staged_lastPhase rfl ?_
      rw [PhaseStage.opening, hphase]
      exact .enable
    · trivial
  · trivial
  · rename_i hphase
    refine staged_ofExcept (fun _ => trivial) fun ns _ => staged_lastPhase rfl ?_
    rw [PhaseStage.opening, hphase]
    exact .reclaimed
  · exact staged_ofExcept (fun _ => trivial) fun _ _ => trivial
  · rename_i hphase
    exact staged_handlePendingPhase shouldBeActive (by rw [hphase]; rfl)
  · rename_i hphase
    exact staged_handlePendingPhase shouldBeActive (by rw [hphase]; rfl)
  · rename_i hphase
    exact staged_handlePendingPhase shouldBeActive (by rw [hphase]; rfl)

theorem staged_reconcileSchedule :
    Conforms phaseStages (reconcileSchedule ctx sm ns) (fun _ _ => True) (.opening sm) := by
  refine staged_bind (issues_resolveSpotSchedule permitsReads_unphased _ _) rfl (fun _ => trivial) fun verdict => ?_
  refine staged_bind (persistSpotScheduleStatus_unphased ..) rfl (fun _ => trivial) fun _ => ?_
  exact staged_dispatchPhase _

theorem staged_handleKillSwitch :
    Conforms phaseStages (handleKillSwitch ctx sm) (fun _ _ => True) (.opening sm) := by
  refine staged_ofExcept (fun _ => trivial) fun ns _ => ?_
  refine staged_bind ?_ rfl (fun _ => trivial) fun _ => staged_lastPhase rfl (.kill _)
  unfold removeIfRunning
  split
  · exact removeMachineFromCluster_unphased
  · trivial

/-- Once the mark is written the resource is in `EmergencyRemove`, and leaves it for `Disabled` only. -/
theorem staged_handleEmergencyRemove (nodeName : String) (request : ReclaimRequest) :
    Conforms phaseStages (handleEmergencyRemove ctx sm nodeName request) (fun _ _ => True) (.opening sm) := by
  have hreads := permitsReads_unphased
  refine staged_ofExcept (fun _ => trivial) fun ns _ => ?_
  refine staged_bind (issues_publishBestEffort hreads _) rfl (fun _ => trivial) fun _ => ?_
  rw [Prog.bind_def, conforms_bind]
  refine staged_writePhase rfl (.reclaim _) ?_ fun _ => trivial
  rw [PhaseStage.observe, if_pos ⟨rfl, rfl⟩, continue_ok]
  refine staged_bind (issues_recordReclaim hreads unphased_loc _ _) rfl (fun _ => trivial) fun _ => ?_
  refine staged_bind (issues_resolve hreads sm) rfl (fun _ => trivial) fun child => ?_
  refine staged_bind (Issues.bestEffort (issues_drainNodeWithTimeout hreads (unphased_node _) _ _)) rfl
    (fun _ => trivial) fun _ => ?_
  refine staged_bind removeMachineFromCluster_unphased rfl (fun _ => trivial) fun _ => ?_
  refine staged_bind ((issues_api (unphased_call rfl)).bind fun _ => issues_orKubeError _) rfl (fun _ => trivial) fun _ => ?_
  refine staged_bind (issues_publishBestEffort hreads _) rfl (fun _ => trivial) fun _ => ?_
  refine staged_bind (issues_clearReclaimAnnotationsBestEffort (unphased_node _) _) rfl (fun _ => trivial) fun _ => ?_
  exact staged_lastPhase rfl .reclaimed

theorem staged_reconcileInner :
    Conforms phaseStages (reconcileInner ctx sm) (fun _ _ => True) (.opening sm) := by
  refine staged_ofExcept (fun _ => trivial) fun ns _ => staged_ofExcept (fun _ => trivial) fun _ _ => ?_
  split
  · exact staged_handleKillSwitch
  · unfold checkEmergencyReclaim
    split
    · exact staged_reconcileSchedule
    · rw [Prog.bind_def, conforms_bind]
      refine staged_bind (issues_api (unphased_node _ _ rfl)) rfl (fun _ => trivial) fun answer => ?_
      split
      · split
        · exact staged_reconcileSchedule
        · trivial
      · split
        · exact staged_reconcileSchedule
        · rw [Prog.bind_def, conforms_bind]
          refine (staged_handleEmergencyRemove _ _).mono fun x _ _ => ?_
          cases x <;> trivial

theorem staged_reconcileScheduledMachine (ctx : Context) (sm : ScheduledMachine) :
    Conforms phaseStages (reconcileScheduledMachine ctx sm) (fun _ _ => True) (.opening sm) := by
  refine staged_ofExcept (fun _ => trivial) fun ns _ => ?_
  unfold reconcileGuarded
  split
  · trivial
  split
  · trivial
  split
  · refine staged_of_unphased ?_ rfl fun _ => trivial
    refine (Prog.issues_ofExcept _ _).bind fun _ => ?_
    refine (issues_finalizerCleanup (fun _ => unphased_call rfl) (fun _ => unphased_call rfl) unphased_timer ctx).bind
      fun _ => ?_
    exact ((issues_api (unphased_call rfl)).bind fun _ => issues_orKubeError _).bind fun _ => trivial
  split
  · refine staged_of_unphased ?_ rfl fun _ => trivial
    exact (Prog.issues_ofExcept _ _).bind fun _ =>
      ((issues_api (unphased_call rfl)).bind fun _ => issues_orKubeError _).bind fun _ => trivial
  · exact staged_reconcileInner

end

/-! ## Along a run -/

def PhaseLaw (e : Event) (earlier : List Event) : Prop :=
  ∀ record, e.phaseWrite = some record → FollowsEdge (phaseOf earlier) record.target record.conditions

theorem phaseLaw_of_none {e : Event} {earlier : List Event} (h : e.phaseWrite = none) : PhaseLaw e earlier := by
  intro record hrecord
  rw [h] at hrecord
  cases hrecord

theorem noted_phaseWrite {e : Interference} {w : World} : ∀ event ∈ noted e w, event.phaseWrite = none := by
  intro event hevent
  cases e with
  | editSpec | requestDeletion =>
    simp only [noted] at hevent
    split at hevent
    · rw [List.mem_singleton.mp hevent]
      rfl
    · cases hevent
  | _ => cases hevent

theorem Always.append {P : Event → List Event → Prop} {events log : List Event} (h : Always P log)
    (he : ∀ event ∈ events, ∀ earlier, P event earlier) : Always P (events ++ log) := by
  induction events with
  | nil => exact h
  | cons event events ih =>
    refine (ih fun event hevent => he event (List.mem_cons_of_mem _ hevent)).cons ?_
    exact he event List.mem_cons_self _

theorem phaseOf_append_of_none {events log : List Event} (he : ∀ event ∈ events, event.phaseWrite = none) :
    phaseOf (events ++ log) = phaseOf log := by
  induction events with
  | nil => rfl
  | cons event events ih =>
    rw [List.cons_append, phaseOf_cons_of_none (he event List.mem_cons_self)]
    exact ih fun event hevent => he event (List.mem_cons_of_mem _ hevent)

def stageOf (snap : Snapshot) (trace : List (Sigma Resp)) : PhaseStage := phaseStages.after (.opening snap.sm) trace

/-- As long as the pass may write another phase, it knows the phase on record. -/
structure GraphInvariant (w : World) (pass : Option (Snapshot × List (Sigma Resp))) : Prop where
  law : Always PhaseLaw w.log
  stage : ∀ snap trace, pass = some (snap, trace) → (stageOf snap trace).closed = false →
    (stageOf snap trace).recorded = phaseOf w.log

theorem GraphInvariant.append {w w' : World} {pass : Option (Snapshot × List (Sigma Resp))} {events : List Event}
    (h : GraphInvariant w pass) (hlog : w'.log = events ++ w.log) (he : ∀ event ∈ events, event.phaseWrite = none) :
    GraphInvariant w' pass := by
  refine ⟨?_, fun snap trace hpass hopen => ?_⟩
  · rw [hlog]
    exact h.law.append fun event hevent _ => phaseLaw_of_none (he event hevent)
  · rw [hlog, phaseOf_append_of_none he]
    exact h.stage snap trace hpass hopen

theorem GraphInvariant.unphased {w w' : World} {snap : Snapshot} {r : Req} {trace : List (Sigma Resp)} {answer : Resp r}
    (events : List Event) (h : GraphInvariant w (some (snap, trace))) (hr : Unphased r) (hlog : w'.log = events ++ w.log)
    (he : ∀ event ∈ events, event.phaseWrite = none) : GraphInvariant w' (some (snap, ⟨r, answer⟩ :: trace)) := by
  obtain ⟨hlaw, hstage⟩ := h.append hlog he
  refine ⟨hlaw, fun snap' trace' hpass hopen => ?_⟩
  cases hpass
  rw [stageOf, Monitor.after_cons, observe_unphased hr] at hopen ⊢
  exact hstage snap trace rfl hopen

/-- The write of a phase is recorded with its edge, if it is recorded at all. -/
theorem GraphInvariant.phase {w : World} {snap : Snapshot} {client : Client} {call : ApiCall} {trace : List (Sigma Resp)}
    {target : Phase} {conditions : List Condition} {fate : Fate} (h : GraphInvariant w (some (snap, trace)))
    (hcall : effectOfCall client call = some (.phase target conditions))
    (hallowed : phaseStages.allowed (stageOf snap trace) (.api client call)) :
    GraphInvariant (serve w (.api client call) fate).2
      (some (snap, ⟨.api client call, (serve w (.api client call) fate).1⟩ :: trace)) := by
  obtain ⟨hopen, hedges⟩ := hallowed
  obtain ⟨applied, error, ha⟩ := exists_answered w client call fate
  have hwrite : ∀ record, (Event.called w.now w.bound client call applied error).phaseWrite = some record →
      applied = true ∧ record.target = target ∧ record.conditions = conditions := by
    intro record hrecord
    cases call with
    | patchStatus ns name body =>
      cases body with
      | phase =>
        cases hcall
        cases applied with
        | true =>
          cases hrecord
          exact ⟨rfl, rfl, rfl⟩
        | false => cases hrecord
      | _ => cases hrecord
    | _ => cases hrecord
  refine ⟨?_, fun snap' trace' hpass hstill => ?_⟩
  · rw [ha.log]
    refine h.law.cons fun record hrecord => ?_
    obtain ⟨-, htarget, hconditions⟩ := hwrite record hrecord
    rw [htarget, hconditions, ← h.stage snap trace rfl hopen]
    exact hedges target conditions hcall
  · cases hpass
    rw [stageOf, Monitor.after_cons] at hstill ⊢
    generalize hanswer : (serve w (.api client call) fate).1 = answer at ha hstill ⊢
    cases call with
    | patchStatus ns name body =>
      cases body with
      | phase target' message conditions' inSchedule ready =>
        cases hcall
        simp only [phaseStages, obsOf, obsOfCall, Option.map_some, Option.getD_some, PhaseStage.observe] at hstill ⊢
        split at hstill
        · rename_i hmark
          rw [if_pos hmark, ha.log, phaseOf, lastPhase_cons]
          simp [Event.phaseWrite, ha.ok hmark.2, hmark.1]
        · cases hstill
      | _ => cases hcall
    | patchNode node body =>
      simp only [effectOfCall] at hcall
      split at hcall
      · cases hcall
      · split at hcall <;> cases hcall
    | _ => cases hcall

theorem graph_keeps (ctx : Context) (ok : RunState → RunAct → Prop) :
    (system ctx).Keeps (fun _ => phaseStages) (fun snap => .opening snap.sm) Fresh ok Base GraphInvariant where
  base w hw := by
    refine ⟨?_, fun _ _ h => (nomatch h)⟩
    rw [hw.log]
    exact always_nil
  interfere w pass e _ h _ _ := h.append (interfere_log e w) noted_phaseWrite
  start w snap hbase h hsnap _ := by
    obtain ⟨sm, hsm, rfl⟩ := Option.map_eq_some_iff.mp hsnap
    refine ⟨h.law.cons (phaseLaw_of_none rfl), fun snap trace hpass _ => ?_⟩
    cases hpass
    exact (hbase.recorded sm hsm).phase
  answer w snap r k trace fate _ h hallowed _ := by
    cases r with
    | api client call =>
      rcases isPhaseWrite_cases call with hcall | ⟨ns, name, target, message, conditions, inSchedule, ready, rfl⟩
      · obtain ⟨applied, error, ha⟩ := exists_answered w client call fate
        refine h.unphased [_] (unphased_call hcall) ha.log ?_
        intro event hevent
        rw [List.mem_singleton.mp hevent]
        exact phaseWrite_called (.inl hcall)
      · exact h.phase rfl hallowed
    | loc op =>
      obtain ⟨-, -, hlog, -⟩ := performLocal_frame w op
      exact h.unphased [] (unphased_loc op) hlog (fun _ hevent => (nomatch hevent))
    | timer seconds =>
      obtain ⟨-, -, ⟨-, hlog⟩ | ⟨-, hlog⟩⟩ := serve_timer_frame w seconds fate
      · refine h.unphased [.timedOut] (unphased_timer seconds) hlog ?_
        intro event hevent
        rw [List.mem_singleton.mp hevent]
        rfl
      · exact h.unphased [] (unphased_timer seconds) hlog (fun _ hevent => (nomatch hevent))
  finish _ _ _ h := ⟨h.law, fun _ _ h => (nomatch h)⟩
  kill w _ _ h := ⟨h.law.cons (phaseLaw_of_none rfl), fun _ _ h => (nomatch h)⟩

/-! ## Back to Active -/

/-- The phase an event puts on record. -/
def Event.enters (e : Event) : Option Phase := e.phaseWrite.map PhaseRecord.target

theorem PhaseEdge.pendingLike_of_active {recorded : Option Phase} {reason : String}
    (h : PhaseEdge recorded .active reason) : pendingLike recorded = true := by
  cases h
  assumption

theorem PhaseEdge.pending_of_pendingLike {recorded : Option Phase} {target : Phase} {reason : String}
    (h : PhaseEdge recorded target reason) (htarget : pendingLike (some target) = true) : target = .pending := by
  cases h <;> first | rfl | cases htarget

/-- A resource that has been active and is to be created again has become `Pending` since. -/
theorem pending_since {rest earlier : List Event} {e' : Event} (he' : e'.enters = some .active)
    (hlaw : Always PhaseLaw (rest ++ e' :: earlier)) (hlike : pendingLike (phaseOf (rest ++ e' :: earlier)) = true) :
    ∃ x ∈ rest, x.enters = some .pending := by
  induction rest with
  | nil =>
    obtain ⟨record', hrecord', htarget'⟩ := Option.map_eq_some_iff.mp he'
    rw [List.nil_append, phaseOf, lastPhase_cons, hrecord', Option.some_or, Option.map_some, htarget'] at hlike
    cases hlike
  | cons x rest ih =>
    rw [List.cons_append] at hlaw hlike
    cases hwrite : x.phaseWrite with
    | none =>
      rw [phaseOf_cons_of_none hwrite] at hlike
      obtain ⟨y, hy, hpending⟩ := ih hlaw.tail hlike
      exact ⟨y, List.mem_cons_of_mem _ hy, hpending⟩
    | some record =>
      rw [phaseOf, lastPhase_cons, hwrite, Option.some_or, Option.map_some] at hlike
      obtain ⟨reason, -, -, hedge, -⟩ := hlaw x _ List.suffix_rfl record hwrite
      refine ⟨x, List.mem_cons_self, ?_⟩
      rw [Event.enters, hwrite, Option.map_some, hedge.pending_of_pendingLike hlike]

/-- Between two entries into `Active` the resource has been `Pending`. -/
theorem pending_between {log later middle earlier : List Event} {e e' : Event} (h : Always PhaseLaw log)
    (hlog : log = later ++ e :: (middle ++ e' :: earlier)) (he : e.enters = some .active) (he' : e'.enters = some .active) :
    ∃ x ∈ middle, x.enters = some .pending := by
  obtain ⟨record, hrecord, htarget⟩ := Option.map_eq_some_iff.mp he
  have hsuffix : e :: (middle ++ e' :: earlier) <:+ log := ⟨later, hlog.symm⟩
  obtain ⟨reason, -, -, hedge, -⟩ := h e _ hsuffix record hrecord
  rw [htarget] at hedge
  exact pending_since he' (h.suffix ((List.suffix_cons _ _).trans hsuffix)) hedge.pendingLike_of_active

/-- In every run, with whatever failures, crashes and edits: the resource carries the phase that was recorded last, each
phase is recorded along an edge and for the reason of that edge, and only by way of `Pending` does a resource become
active again. -/
theorem phase_graph {ctx : Context} {ok : RunState → RunAct → Prop} {s : RunState} (hs : (system ctx).Reach Fresh ok s) :
    (∀ sm, s.world.sm = some sm → sm.phase = phaseOf s.world.log) ∧ Always PhaseLaw s.world.log ∧
      ∀ later e middle e' earlier, s.world.log = later ++ e :: (middle ++ e' :: earlier) → e.enters = some .active →
        e'.enters = some .active → ∃ x ∈ middle, x.enters = some .pending := by
  have hgraph := System.Reach.invariant _ (fun snap => staged_reconcileScheduledMachine (ctx.led snap.leader) snap.sm)
    (fun _ h => base_of_reach h) (graph_keeps ctx ok) hs
  refine ⟨fun sm hsm => ((base_of_reach hs).recorded sm hsm).phase, hgraph.law, ?_⟩
  intro later e middle e' earlier hlog he he'
  exact pending_between hgraph.law hlog he he'

theorem phase_graph_of_creation : ∃ s, (system demoContext).Reach Fresh (fun _ _ => True) s ∧
    phaseOf s.world.log = some .active ∧ Always PhaseLaw s.world.log := by
  obtain ⟨s, hs, hactive⟩ := System.Reach.exists_of_runWith (system demoContext) (fun _ _ => true)
    (fun s => decide (phaseOf s.world.log = some .active)) (.start :: answers 13 ++ [.finish]) demoWorld_fresh
    (by decide +kernel)
  have hreach : (system demoContext).Reach Fresh (fun _ _ => True) s := hs.mono _ fun _ _ _ => trivial
  exact ⟨s, hreach, of_decide_eq_true hactive, (phase_graph hreach).2.1⟩

end FiveSpot
