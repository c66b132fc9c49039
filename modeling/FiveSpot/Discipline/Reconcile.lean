import FiveSpot.Discipline.Writers

/-! # The reconciler keeps the rules

Handler by handler, then the dispatch. What comes out is the one fact about the program that
everything about runs rests on: every effect of every reconcile is legal.
-/

namespace FiveSpot

set_option autoImplicit false

open Interaction

variable {ctx : Context} {sm : ScheduledMachine} {t : List Obs} {ns : String}

abbrev anything {α : Type} : Except ReconcilerError α → List Obs → Prop := fun _ _ => True

/-! ## Phase writes as the last step -/

theorem conforms_phase_then {name reason message : String} {fromPhase : Option Phase} {target : Phase}
    {inSchedule : Bool} {action : Action}
    (hlegal : ∀ u conditions, Read t u → Stamped u conditions reason →
      Legal ctx sm u (.phase target conditions)) :
    Conforms (discipline ctx sm)
      ((writePhase ns name fromPhase target reason message inSchedule).bind fun _ => .pure action) anything t := by
  rw [conforms_bind]
  exact conforms_writePhase hlegal (fun _ _ => trivial) fun _ _ _ => trivial

/-! ## Before the phase dispatch -/

theorem conforms_addFinalizer (hpath : Entered ctx sm ns) (halive : sm.deleting = false) :
    Conforms (discipline ctx sm) (addFinalizer sm) anything t := by
  refine conforms_bind_ofExcept (fun ns' _ => ?_) fun _ _ => trivial
  simp only [patchFinalizers, Prog.bind_def, conforms_bind]
  refine conforms_api ?_ fun answer => ?_
  · intro effect heffect
    cases heffect
    exact .addFinalizer hpath halive
  · cases answer <;> trivial

theorem conforms_finalizerCleanup {Q : Except ReconcilerError Unit → List Obs → Prop}
    (hpath : Deleted ctx sm ns)
    (hok : ∀ u, (runningPhase sm.phase = true → Removed ctx sm u ∨ .timedOut ∈ u) → Q (.ok ()) u)
    (herror : ∀ e u, Q (.error e) u) :
    Conforms (discipline ctx sm) (finalizerCleanup ctx sm ns) Q t := by
  unfold finalizerCleanup
  split
  · rename_i hrunning
    simp only [runCleanupWithTimeout, Prog.bind_def, conforms_bind]
    refine conforms_orTimeout (by rintro _ _ ⟨⟩) ?_ ?_ ?_
    · intro u state hstate
      cases state
      · rfl
      · cases hstate
    · intro u state hstate
      cases state
      · cases hstate
      simp only [continue_ok, conforms_pure, conforms_bind, conforms_publishBestEffort]
      split
      · exact hok _ fun _ => .inr (List.mem_cons_of_mem _ List.mem_cons_self)
      · exact herror _ _
    · refine conforms_removeMachineFromCluster hpath.namespaced ?_ ?_ ?_
      · intro u key _ howned
        exact .deletionDelete hpath hrunning howned
      · intro u _ hremoved
        exact hok u fun _ => .inl hremoved
      · intro u e _
        exact herror e u
  · rename_i hrunning
    exact hok t fun h => absurd h hrunning

theorem conforms_handleDeletion (hpath : Deleted ctx sm ns) :
    Conforms (discipline ctx sm) (handleDeletion ctx sm) anything t := by
  refine conforms_bind_ofExcept (fun ns' hns' => ?_) fun _ _ => trivial
  cases hpath.namespaced.symm.trans (requireNamespace_eq_ok hns')
  rw [Prog.bind_def, conforms_bind]
  refine conforms_finalizerCleanup hpath (fun u hu => ?_) fun _ _ => trivial
  simp only [continue_ok, patchFinalizers, Prog.bind_def, conforms_bind]
  refine conforms_api ?_ fun answer => ?_
  · intro effect heffect
    cases heffect
    exact .deletionRelease hpath hu
  · cases answer <;> trivial

theorem conforms_handleKillSwitch (hpath : Killed ctx sm ns) (ht : Untouched t) :
    Conforms (discipline ctx sm) (handleKillSwitch ctx sm)
      (fun x u => succeeded x = true → .phase .terminated true ∈ u) t := by
  refine conforms_bind_ofExcept (fun ns' hns' => ?_) fun _ _ h => (nomatch h)
  cases hpath.namespaced.symm.trans (requireNamespace_eq_ok hns')
  have hwrite : ∀ u, Unmarked u → (runningPhase sm.phase = true → Removed ctx sm u) →
      Conforms (discipline ctx sm) ((updatePhase ns sm.metadata.name sm.phase .terminated
        (some Constants.reasonKillSwitch) (some "Machine terminated due to kill switch") false).bind
          fun _ => .pure (Action.requeue Constants.timerRequeueSecs))
        (fun x u => succeeded x = true → .phase .terminated true ∈ u) u := by
    intro u hu hdone
    rw [conforms_bind]
    refine conforms_writePhase (fun v conditions hv hstamp => ?_) ?_ fun _ _ _ h => (nomatch h)
    · exact .killTerminated hpath (hu.deleting hv.deleting) (fun h => (hdone h).seen hv) hstamp
    · intro v _ _
      exact List.mem_cons_self
  rw [Prog.bind_def, conforms_bind, removeIfRunning]
  split
  · rename_i hrunning
    refine conforms_removeMachineFromCluster hpath.namespaced ?_ ?_ fun _ _ _ h => (nomatch h)
    · intro u key hu howned
      exact .killDelete hpath (ht.unmarked.deleting hu) hrunning howned
    · intro u hu hremoved
      exact hwrite u (ht.unmarked.deleting hu) fun _ => hremoved
  · rename_i hrunning
    exact hwrite t ht.unmarked fun h => absurd h hrunning

/-! ## Emergency reclaim -/

theorem conforms_disableAndFinish {node : String} {client : Client} (hpath : Reclaimed ctx sm ns node t)
    (hmarked : .phase .emergencyRemove true ∈ t) (hremoved : Removed ctx sm t) :
    Conforms (discipline ctx sm) (do
      patchDisableSchedule ns sm.metadata.name
      publishBestEffort buildEmergencyDisableScheduleEvent
      clearReclaimAnnotationsBestEffort client node
      finishEmergencyRemove ns sm.metadata.name
      return Action.requeue Constants.timerRequeueSecs : Ctl Action) anything t := by
  simp only [patchDisableSchedule, clearReclaimAnnotationsBestEffort, Prog.bind_def, conforms_bind]
  refine conforms_api ?_ fun answer => ?_
  · intro effect heffect
    cases heffect
    exact .reclaimDisable hpath hmarked hremoved
  cases answer with
  | error e => trivial
  | ok _ =>
    have hseen : Seen (fun _ => True) t (.enabled false true :: t) := Seen.cons trivial t
    have hpath' := hpath.seen hseen
    have hmarked' := hseen.mem hmarked
    have hremoved' := hremoved.seen hseen
    have hdisabled : .enabled false true ∈ .enabled false true :: t := List.mem_cons_self
    have hpublished : Read (.enabled false true :: t) (.other :: .enabled false true :: t) := Read.cons rfl _
    simp only [continue_ok, conforms_orKubeError_ok, conforms_bind, conforms_publishBestEffort]
    refine conforms_api ?_ fun answer => ?_
    · intro effect heffect
      cases heffect
      exact .reclaimClear (hpath'.seen hpublished) (hpublished.mem hmarked') (hremoved'.seen hpublished)
        (hpublished.mem hdisabled)
    · simp only [continue_ok, conforms_pure]
      have hcleared : Read (.enabled false true :: t)
          (obsOfCall client (.patchNode node buildClearReclaimPatch) answer ::
            .other :: .enabled false true :: t) := by
        cases answer <;> exact hpublished.trans (Read.cons rfl _)
      refine conforms_phase_then fun u conditions hu hstamp => ?_
      have hread := hcleared.trans hu
      exact .reclaimDone (hpath'.seen hread) (hread.mem hmarked') (hremoved'.seen hread)
        (hread.mem hdisabled) hstamp

theorem conforms_handleEmergencyRemove {node : String} {request : ReclaimRequest}
    (hpath : Reclaimed ctx sm ns node t) (ht : Untouched t) :
    Conforms (discipline ctx sm) (handleEmergencyRemove ctx sm node request) anything t := by
  refine conforms_bind_ofExcept (fun ns' hns' => ?_) fun _ _ => trivial
  cases hpath.namespaced.symm.trans (requireNamespace_eq_ok hns')
  simp only [Prog.bind_def, conforms_bind, conforms_publishBestEffort, continue_ok]
  have hpublished : Read t (.other :: t) := Read.cons rfl t
  refine conforms_writePhase (fun u conditions hu hstamp => ?_) (fun u hu => ?_) fun _ _ _ => trivial
  · have hread := hpublished.trans hu
    exact .reclaimMark (hpath.seen hread) (ht.read hread) hstamp
  -- everything below happens after the mark has been written
  have hmark : Seen (fun _ => True) t (.phase .emergencyRemove true :: u) :=
    ((hpublished.trans hu).mono fun _ _ => trivial).trans (Seen.cons trivial u)
  rw [continue_ok]
  refine conforms_bind_harmless (harmless_recordReclaim _ _) (fun _ u₁ hu₁ => ?_) fun _ _ _ => trivial
  refine conforms_bind_harmless (issues_resolve permits_harmless sm) (fun child u₂ hu₂ => ?_) fun _ _ _ => trivial
  have hread := hu₁.trans hu₂
  have hpath₂ := (hpath.seen hmark).seen hread
  have hmarked : .phase .emergencyRemove true ∈ u₂ := hread.mem List.mem_cons_self
  rw [conforms_bind, conforms_bestEffort]
  refine conforms_drainNodeWithTimeout (fun v hv => .reclaimDrain (hpath₂.seen hv) (hv.mem hmarked)) ?_
    fun _ u₃ hu₃ => ?_
  · intro v hv hpods
    exact .reclaimEvict (hpath₂.seen hv) (hv.mem hmarked) hpods
  have hpath₃ := hpath₂.seen hu₃
  rw [continue_ok, conforms_bind]
  refine conforms_removeMachineFromCluster hpath.namespaced ?_ ?_ fun _ _ _ => trivial
  · intro v key hv howned
    exact .reclaimDelete (hpath₃.seen hv) (hv.mem (hu₃.mem hmarked)) howned
  · intro v hv hremoved
    exact conforms_disableAndFinish (hpath₃.seen hv) (hv.mem (hu₃.mem hmarked)) hremoved

theorem conforms_checkEmergencyReclaim {Q : Except ReconcilerError (Option Action) → List Obs → Prop}
    (hpath : Ordinary ctx sm ns) (hkill : sm.spec.killSwitch = false) (ht : Untouched t)
    (hcalm : ∀ u, Read t u → Scheduled ctx sm ns u → Q (.ok none) u)
    (hdone : ∀ action u, Q (.ok (some action)) u) (herror : ∀ e u, Q (.error e) u) :
    Conforms (discipline ctx sm) (checkEmergencyReclaim ctx sm) Q t := by
  unfold checkEmergencyReclaim
  split
  · rename_i hnode
    refine hcalm t (.refl t) { hpath with kill := hkill, calm := fun node h => ?_ }
    rw [hnode] at h
    cases h
  · rename_i node hnode
    rw [Prog.bind_def, conforms_bind]
    refine conforms_api (fun effect heffect => (nomatch heffect)) fun answer => ?_
    rw [continue_ok]
    have hscheduled : ∀ found, found.bind nodeReclaimRequest = none →
        Scheduled ctx sm ns (.node .management node found :: t) := by
      intro found hfound
      refine { hpath with kill := hkill, calm := fun name h => ?_ }
      cases hnode.symm.trans h
      exact ⟨found, List.mem_cons_self, hfound⟩
    cases answer with
    | error e =>
      dsimp only
      split
      · rename_i he
        have hobs : obsOfCall .management (.getNode node) (.error e) = .node .management node none := by
          simp [obsOfCall, he]
        rw [hobs]
        exact hcalm _ (Read.cons rfl t) (hscheduled none rfl)
      · exact herror _ _
    | ok found =>
      have hread : Read t (.node .management node (some found) :: t) := Read.cons rfl t
      dsimp only
      split
      · rename_i hrequest
        exact hcalm _ hread (hscheduled (some found) hrequest)
      · rename_i request hrequest
        rw [Prog.bind_def, conforms_bind]
        have hreclaimed : Reclaimed ctx sm ns node (.node .management node (some found) :: t) :=
          { hpath with
            kill := hkill
            named := hnode
            requested := ⟨found, List.mem_cons_self, by rw [hrequest]; rfl⟩ }
        refine (conforms_handleEmergencyRemove hreclaimed (ht.read hread)).mono fun x u _ => ?_
        cases x with
        | ok action => exact hdone action u
        | error e => exact herror e u

/-! ## Phase handlers -/

theorem conforms_bind_requireNamespace {α : Type} {f : String → Ctl α} (hns : sm.metadata.ns = some ns)
    (hf : Conforms (discipline ctx sm) (f ns) anything t) :
    Conforms (discipline ctx sm) ((Prog.ofExcept (requireNamespace sm)).bind f) anything t := by
  refine conforms_bind_ofExcept (fun ns' hns' => ?_) fun _ _ => trivial
  cases hns.symm.trans (requireNamespace_eq_ok hns')
  exact hf

theorem conforms_handleEmergencyRemovePhase (hpath : Scheduled ctx sm ns t) (ht : Untouched t)
    (hphase : sm.phase = some .emergencyRemove) :
    Conforms (discipline ctx sm) (handleEmergencyRemovePhase sm) anything t := by
  refine conforms_bind_requireNamespace hpath.namespaced ?_
  exact conforms_phase_then fun u conditions hu hstamp =>
    .recover (hpath.seen hu) hphase (ht.read hu) hstamp

theorem conforms_handlePendingPhase (shouldBeActive : Bool) (hpath : Scheduled ctx sm ns t)
    (ht : Untouched t) (hphase : pendingLike sm.phase = true) :
    Conforms (discipline ctx sm) (handlePendingPhase ctx sm shouldBeActive) anything t := by
  refine conforms_bind_requireNamespace hpath.namespaced ?_
  split
  · rename_i henabled
    exact conforms_phase_then fun u conditions hu hstamp =>
      .pendingDisabled (hpath.seen hu) hphase (by simpa using henabled) (ht.read hu) hstamp
  rename_i henabled
  split
  · exact conforms_phase_then fun u conditions hu hstamp =>
      .pendingInactive (hpath.seen hu) hphase (ht.read hu) hstamp
  · rw [Prog.bind_def, conforms_bind, conforms_attempt]
    refine conforms_addMachineToCluster hpath.namespaced ?_ ?_ ?_
    · intro u key hu howned
      exact .pendingCreate (hpath.seen hu) hphase (by simpa using henabled) (ht.creating hu) howned
    · intro u hu hnamed hcreated
      exact conforms_phase_then fun v conditions hv hstamp =>
        .pendingActive ((hpath.seen hu).seen hv) hphase ((ht.creating hu).read hv) hnamed
          (fun key hkey => hv.mem (hcreated key hkey)) hstamp
    · intro u e hu
      exact conforms_phase_then fun v conditions hv hstamp =>
        .pendingError ((hpath.seen hu).seen hv) hphase ((ht.creating hu).read hv) hstamp

theorem conforms_reconcileNodeTaintsBestEffort {nodeRef : Option NodeRef}
    {Q : Except ReconcilerError Unit → List Obs → Prop} (hpath : Scheduled ctx sm ns t)
    (hphase : sm.phase = some .active) (ht : Untouched t)
    (hmachine : ∀ name, nodeRef.map (·.name) = some name → MachineOn sm name t) (hQ : ∀ x u, Q x u) :
    Conforms (discipline ctx sm) (reconcileNodeTaintsBestEffort sm nodeRef) Q t := by
  unfold reconcileNodeTaintsBestEffort
  split
  · exact hQ _ t
  split
  · exact hQ _ t
  split
  · exact hQ _ t
  unfold withNode
  split
  · exact hQ _ t
  rename_i node
  split
  · exact hQ _ t
  refine conforms_bind_harmless (issues_resolve permits_harmless sm).attempt (fun outcome u hu => ?_)
    fun e u _ => hQ _ u
  split
  · exact hQ _ u
  · have hbound : MachineOn sm node.name u := (hmachine node.name rfl).seen hu
    rw [conforms_bestEffort, conforms_bind]
    refine conforms_reconcileNodeTaints (ht.read hu) hbound ?_ ?_ fun x v hx => ?_
    · intro v taints hv hwritten
      have htv := hu.trans hv
      exact .activeTaints (hpath.seen htv) hphase (ht.read htv) hwritten
    · intro v hv happlied
      rw [continue_ok]
      have hclean := (ht.read hu).tainted hv
      exact conforms_recordAppliedTaints (.activeRecord ((hpath.seen hu).seen hv) hphase hclean happlied)
        fun _ _ => hQ _ _
    · cases x with
      | error e => exact hQ _ v
      | ok outcome =>
        cases outcome with
        | applied applied => exact absurd rfl (hx applied)
        | _ => exact hQ _ v

theorem conforms_enrichActive (hpath : Scheduled ctx sm ns t) (hphase : sm.phase = some .active)
    (ht : Untouched t) : Conforms (discipline ctx sm) (enrichActive ctx sm ns) anything t := by
  simp only [enrichActive, fetchCapiMachine, Prog.bind_def]
  rw [conforms_bind, conforms_attempt, conforms_bind]
  refine conforms_api (fun effect heffect => (nomatch heffect)) fun answer => ?_
  rw [continue_ok]
  cases answer with
  | error e =>
    dsimp only
    split <;> trivial
  | ok machine =>
    have hu : Read t (.object ⟨Constants.capiGroup, Constants.capiResourceMachines, ns, sm.metadata.name⟩ machine :: t) :=
      Read.cons rfl t
    have hmachine : ∀ name, (extractMachineRefs machine).2.map (·.name) = some name → MachineOn sm name
        (.object ⟨Constants.capiGroup, Constants.capiResourceMachines, ns, sm.metadata.name⟩ machine :: t) := by
      intro name hname
      refine ⟨machine, ?_, hname⟩
      rw [hpath.namespaced]
      exact List.mem_cons_self
    dsimp only
    rw [conforms_pure, continue_ok]
    refine conforms_bind_harmless (Issues.bestEffort (issues_patchMachineRefsStatus permits_harmless ..)) (fun _ u₁ hu₁ => ?_)
      fun _ _ _ => trivial
    refine conforms_bind_harmless (harmless_provisionReclaimAgentBestEffort ..) (fun _ u₂ hu₂ => ?_)
      fun _ _ _ => trivial
    have hread := (hu.trans hu₁).trans hu₂
    rw [conforms_bind]
    refine conforms_reconcileNodeTaintsBestEffort (hpath.seen hread) hphase (ht.read hread)
      (fun name hname => (hmachine name hname).seen (hu₁.trans hu₂)) ?_
    intro x v
    cases x with
    | error e => trivial
    | ok _ => exact conforms_of_harmless (harmless_provisionKataConfigBestEffort ..) fun _ _ _ => trivial

theorem conforms_handleActivePhase (shouldBeActive : Bool) (hpath : Scheduled ctx sm ns t)
    (ht : Untouched t) (hphase : sm.phase = some .active) :
    Conforms (discipline ctx sm) (handleActivePhase ctx sm shouldBeActive) anything t := by
  refine conforms_bind_requireNamespace hpath.namespaced ?_
  split
  · rename_i henabled
    refine conforms_phase_then fun u conditions hu hstamp => ?_
    exact .activeShutdown (hpath.seen hu) hphase (ht.read hu) (by simp_all) hstamp
  rename_i henabled
  split
  · refine conforms_phase_then fun u conditions hu hstamp => ?_
    exact .activeShutdown (hpath.seen hu) hphase (ht.read hu) (by simp_all) hstamp
  · rw [Prog.bind_def, conforms_bind]
    refine (conforms_enrichActive hpath hphase ht).mono fun x u _ => ?_
    cases x <;> trivial

theorem conforms_drainBoundNode {Q : Except ReconcilerError Unit → List Obs → Prop}
    (hpath : ShutDown ctx sm ns t) (ht : Untouched t) (hok : ∀ u, Read t u → Q (.ok ()) u)
    (herror : ∀ e u, Q (.error e) u) : Conforms (discipline ctx sm) (drainBoundNode ctx sm ns) Q t := by
  simp only [drainBoundNode, getNodeFromMachine, fetchCapiMachine, Prog.bind_def, conforms_bind]
  refine conforms_api (by rintro effect ⟨⟩) fun answer => ?_
  rw [continue_ok]
  cases answer with
  | error e =>
    dsimp only
    split
    · exact hok _ (read_call _ rfl t)
    · exact herror _ _
  | ok machine =>
    dsimp only
    rw [conforms_pure, continue_ok]
    dsimp only
    rw [conforms_pure, continue_ok]
    have hread : Read t (.object ⟨Constants.capiGroup, Constants.capiResourceMachines, ns,
      sm.metadata.name⟩ machine :: t) := Read.cons rfl t
    split
    · exact hok _ hread
    · rename_i node hnode
      generalize parseDuration sm.spec.nodeDrainTimeout = duration
      refine conforms_bind_ofExcept (fun drainTimeout _ => ?_) fun e _ => herror e _
      refine conforms_bind_harmless (issues_resolve permits_harmless sm) (fun client u hu => ?_) fun e u _ => herror e u
      have hmachine : MachineOn sm node u := by
        refine ⟨machine, hu.mem ?_, hnode⟩
        rw [hpath.namespaced]
        exact List.mem_cons_self
      have htu := hread.trans hu
      rw [conforms_bestEffort]
      refine conforms_drainNodeWithTimeout (fun v hv => ?_) ?_ fun _ v hv => hok v (htu.trans hv)
      · exact .shutdownDrain ((hpath.seen htu).seen hv) ((ht.read htu).read hv) (hmachine.seen hv)
      intro v hv hpods
      exact .shutdownEvict ((hpath.seen htu).seen hv) ((ht.read htu).read hv) (hmachine.seen hv) hpods

theorem conforms_handleShuttingDownPhase (hpath : Scheduled ctx sm ns t) (ht : Untouched t)
    (hphase : sm.phase = some .shuttingDown) :
    Conforms (discipline ctx sm) (handleShuttingDownPhase ctx sm) anything t := by
  refine conforms_bind_requireNamespace hpath.namespaced ?_
  rw [Prog.bind_def, conforms_bind]
  refine conforms_checkGracePeriodElapsed (fun u elapsed hu hover => ?_) fun _ => trivial
  rw [continue_ok]
  split
  · rename_i helapsed
    have hshut : ShutDown ctx sm ns u :=
      { hpath.seen hu with phase := hphase, elapsed := hover helapsed }
    rw [Prog.bind_def, conforms_bind]
    refine conforms_drainBoundNode hshut (ht.read hu) (fun v hv => ?_) fun _ _ => trivial
    have hmarks := ((ht.read hu).read hv).unmarked
    rw [continue_ok, Prog.bind_def, conforms_bind, conforms_attempt]
    refine conforms_removeMachineFromCluster hpath.namespaced ?_ ?_ ?_
    · intro w key hw howned
      exact .shutdownDelete ((hshut.seen hv).seen hw) (hmarks.deleting hw) howned
    · intro w hw hremoved
      exact conforms_phase_then fun w' conditions hw' hstamp =>
        .shutdownInactive (((hshut.seen hv).seen hw).seen hw')
          ((hmarks.deleting hw).deleting hw'.deleting) (hremoved.seen hw') hstamp
    · intro w e hw
      exact conforms_phase_then fun w' conditions hw' hstamp =>
        .shutdownError (((hshut.seen hv).seen hw).seen hw')
          ((hmarks.deleting hw).deleting hw'.deleting) hstamp
  · trivial

theorem conforms_handleInactivePhase (shouldBeActive : Bool) (hpath : Scheduled ctx sm ns t)
    (ht : Untouched t) (hphase : sm.phase = some .inactive) :
    Conforms (discipline ctx sm) (handleInactivePhase sm shouldBeActive) anything t := by
  refine conforms_bind_requireNamespace hpath.namespaced ?_
  split
  · trivial
  rename_i henabled
  split
  · trivial
  · exact conforms_phase_then fun u conditions hu hstamp =>
      .inactivePending (hpath.seen hu) hphase (by simpa using henabled) (ht.read hu) hstamp

theorem conforms_handleDisabledPhase (hpath : Scheduled ctx sm ns t) (ht : Untouched t)
    (hphase : sm.phase = some .disabled) :
    Conforms (discipline ctx sm) (handleDisabledPhase sm) anything t := by
  refine conforms_bind_requireNamespace hpath.namespaced ?_
  split
  · rename_i henabled
    exact conforms_phase_then fun u conditions hu hstamp =>
      .disabledPending (hpath.seen hu) hphase henabled (ht.read hu) hstamp
  · trivial

/-! ## Dispatch -/

theorem conforms_dispatchPhase (shouldBeActive : Bool) (hpath : Scheduled ctx sm ns t)
    (ht : Untouched t) : Conforms (discipline ctx sm) (dispatchPhase ctx sm shouldBeActive) anything t := by
  unfold dispatchPhase
  split
  · rename_i hphase
    exact conforms_handleActivePhase _ hpath ht hphase
  · rename_i hphase
    exact conforms_handleShuttingDownPhase hpath ht hphase
  · rename_i hphase
    exact conforms_handleInactivePhase _ hpath ht hphase
  · rename_i hphase
    exact conforms_handleDisabledPhase hpath ht hphase
  · trivial
  · rename_i hphase
    exact conforms_handleEmergencyRemovePhase hpath ht hphase
  · exact conforms_bind_requireNamespace hpath.namespaced trivial
  · rename_i hphase
    exact conforms_handlePendingPhase _ hpath ht (by rw [hphase]; rfl)
  · rename_i hphase
    exact conforms_handlePendingPhase _ hpath ht (by rw [hphase]; rfl)
  · rename_i hphase
    exact conforms_handlePendingPhase _ hpath ht (by rw [hphase]; rfl)

theorem conforms_reconcileSchedule (hpath : Scheduled ctx sm ns t) (ht : Untouched t) (hfirst : .scheduled ∉ t) :
    Conforms (discipline ctx sm) (reconcileSchedule ctx sm ns) anything t := by
  rw [reconcileSchedule, Prog.bind_def, conforms_bind]
  refine conforms_resolveSpotSchedule (fun verdict u hu hverdict => ?_) fun _ _ => trivial
  rw [continue_ok, Prog.bind_def, conforms_bind]
  refine conforms_persistSpotScheduleStatus hverdict (fun v time hv hread => ?_) fun x v hv => ?_
  · have htv := hu.trans hv
    exact .spotStatus (hpath.seen htv) (ht.read htv) (htv.unscheduled hfirst) hread
  · cases x with
    | error e => trivial
    | ok _ => exact conforms_dispatchPhase _ ((hpath.seen hu).seen hv) ((ht.read hu).creating hv)

/-- What a finished reconcile promises: a kill switch that returned normally has recorded its phase. -/
def Outcome (ctx : Context) (sm : ScheduledMachine) (x : Except ReconcilerError Action)
    (t : List Obs) : Prop :=
  ∀ ns, Killed ctx sm ns → succeeded x = true → .phase .terminated true ∈ t

theorem Outcome.of_not_killed {x : Except ReconcilerError Action} (h : ∀ ns, ¬Killed ctx sm ns) :
    Outcome ctx sm x t := fun ns hkilled => absurd hkilled (h ns)

theorem conforms_reconcileInner (hpath : Entered ctx sm ns) (halive : sm.deleting = false)
    (hfinalizer : hasFinalizer sm = true) (ht : Untouched t) (hfirst : .scheduled ∉ t) :
    Conforms (discipline ctx sm) (reconcileInner ctx sm) (Outcome ctx sm) t := by
  refine conforms_bind_ofExcept (fun ns' hns' => ?_) fun e _ _ _ h => (nomatch h)
  cases hpath.namespaced.symm.trans (requireNamespace_eq_ok hns')
  refine conforms_bind_ofExcept (fun _ hvalid => ?_) fun e _ _ _ h => (nomatch h)
  have hordinary : Ordinary ctx sm ns :=
    { hpath with alive := halive, finalizer := hfinalizer, valid := hvalid }
  split
  · rename_i hkill
    refine (conforms_handleKillSwitch { hordinary with kill := hkill } ht).mono ?_
    exact fun x u h _ _ => h
  · rename_i hkill
    have hkill : sm.spec.killSwitch = false := by simpa using hkill
    have hnot : ∀ ns, ¬Killed ctx sm ns := fun _ hkilled => by simp [hkilled.kill] at hkill
    rw [Prog.bind_def, conforms_bind]
    refine conforms_checkEmergencyReclaim hordinary hkill ht (fun u hu hscheduled => ?_) ?_ ?_
    · refine (conforms_reconcileSchedule hscheduled (ht.read hu) (hu.unscheduled hfirst)).mono fun _ _ _ => ?_
      exact .of_not_killed hnot
    · exact fun _ _ => .of_not_killed hnot
    · exact fun _ _ => .of_not_killed hnot

theorem conforms_reconcileGuarded (hns : sm.metadata.ns = some ns) (ht : Untouched t) (hfirst : .scheduled ∉ t) :
    Conforms (discipline ctx sm) (reconcileGuarded ctx sm ns) (Outcome ctx sm) t := by
  unfold reconcileGuarded
  split
  · rename_i hleader
    exact Outcome.of_not_killed fun _ hkilled => by simp [hkilled.leader] at hleader
  rename_i hleader
  split
  · rename_i hassigned
    refine Outcome.of_not_killed fun ns' hkilled => ?_
    cases hns.symm.trans hkilled.namespaced
    simp [hkilled.assigned] at hassigned
  rename_i hassigned
  have hentered : Entered ctx sm ns := ⟨hns, by simpa using hleader, by simpa using hassigned⟩
  split
  · rename_i hdeleting
    refine (conforms_handleDeletion { hentered with deleting := hdeleting }).mono fun _ _ _ => ?_
    exact .of_not_killed fun _ hkilled => by simp [hkilled.alive] at hdeleting
  rename_i hdeleting
  have halive : sm.deleting = false := by simpa using hdeleting
  split
  · rename_i hfinalizer
    refine (conforms_addFinalizer hentered halive).mono fun _ _ _ => ?_
    exact .of_not_killed fun _ hkilled => by simp [hkilled.finalizer] at hfinalizer
  · rename_i hfinalizer
    exact conforms_reconcileInner hentered halive (by simpa using hfinalizer) ht hfirst

/-- Every effect of every reconcile is legal. -/
theorem conforms_reconcileScheduledMachine (ctx : Context) (sm : ScheduledMachine) :
    Conforms (discipline ctx sm) (reconcileScheduledMachine ctx sm) (Outcome ctx sm) [] := by
  refine conforms_bind_ofExcept (fun ns hns => ?_) fun e _ _ _ h => (nomatch h)
  exact conforms_reconcileGuarded (requireNamespace_eq_ok hns) (fun _ h => absurd h List.not_mem_nil)
    List.not_mem_nil

end FiveSpot
