import FiveSpot.Liveness.Convergence
import FiveSpot.Safety.FinalizerEdits

/-! # What is urgent

Deletion, kill switch and reclaim come before the schedule, in this order. Whatever state a resource is in, one reconcile that
gets its calls answered is enough for any of them, and it stays done.
-/

namespace FiveSpot

set_option autoImplicit false

open Interaction

/-! ## Urgencies -/

inductive Urgency where
  | deletion
  | killed
  | reclaimed

/-- What comes first for a resource. Whether its Node is to be reclaimed is only seen later. -/
def presses (sm : ScheduledMachine) : Urgency → Bool
  | .deletion => sm.deleting
  | .killed => !sm.deleting && hasFinalizer sm && succeeded (validateSpec sm.spec) && sm.spec.killSwitch
  | .reclaimed => !sm.deleting && hasFinalizer sm && succeeded (validateSpec sm.spec) && !sm.spec.killSwitch &&
      (reclaimNode sm).isSome

/-- The part of a resource that urgent reconciles are after. -/
structure Standing where
  phase : Option Phase
  enabled : Bool
  guarded : Bool

def ScheduledMachine.standing (sm : ScheduledMachine) : Standing := ⟨sm.phase, sm.spec.enabled, hasFinalizer sm⟩

namespace Standing

def Settles (t : Standing) : Urgency → Prop
  | .deletion => t.guarded = false
  | .killed => t.phase = some .terminated
  | .reclaimed => t.phase = some .disabled ∧ t.enabled = false

def after (t : Standing) : Req → Standing
  | .api _ (.patchStatus _ _ (.phase target _ _ _ _)) => { t with phase := some target }
  | .api _ (.patchEnabled _ _ enabled) => { t with enabled := enabled }
  | .api _ (.patchFinalizers _ _ finalizers) =>
    { t with guarded := finalizers.contains Constants.finalizerScheduledMachine }
  | _ => t

/-- The other one has got no further than this one. -/
structure Covers (t u : Standing) : Prop where
  phase : u.phase = t.phase
  enabled : u.enabled = true → t.enabled = true
  guarded : u.guarded = true → t.guarded = true

theorem Covers.refl (t : Standing) : Covers t t := ⟨rfl, id, id⟩

theorem Covers.trans {t u v : Standing} (h : Covers t u) (h' : Covers u v) : Covers t v :=
  ⟨h'.phase.trans h.phase, h.enabled ∘ h'.enabled, h.guarded ∘ h'.guarded⟩

theorem Settles.of_covers {t u : Standing} {urgency : Urgency} (h : t.Settles urgency) (hcovers : Covers t u) :
    u.Settles urgency := by
  have hlower : ∀ {a b : Bool}, (b = true → a = true) → a = false → b = false := by
    intro a b hab ha
    rw [ha] at hab
    exact Bool.eq_false_iff.mpr fun hb => nomatch hab hb
  cases urgency with
  | deletion => exact hlower hcovers.guarded h
  | killed => exact hcovers.phase.trans h
  | reclaimed => exact ⟨hcovers.phase.trans h.1, hlower hcovers.enabled h.2⟩

theorem Covers.after {t u : Standing} (h : Covers t u) (r : Req) : Covers (t.after r) (u.after r) := by
  cases r with
  | api client call =>
    cases call with
    | patchStatus ns name body => cases body <;> first | exact h | exact ⟨rfl, h.enabled, h.guarded⟩
    | patchEnabled ns name enabled => exact ⟨h.phase, id, h.guarded⟩
    | patchFinalizers ns name finalizers => exact ⟨h.phase, h.enabled, id⟩
    | _ => exact h
  | loc op => exact h
  | timer seconds => exact h

end Standing

/-! ## Calls that do what they should -/

/-- Nothing urgent waits for a grace period. -/
def unphased (sm : ScheduledMachine) : ScheduledMachine := { sm with status := none }

/-- As for a step along the lifecycle. The Node asked about is to be reclaimed, and a cleanup that takes too long is forced. -/
def urgentAnswer (ctx : Context) (sm : ScheduledMachine) : (r : Req) → Resp r → Bool
  | .api _ (.getNode _), .ok node => (nodeReclaimRequest node).isSome
  | .api _ (.getNode _), .error _ => false
  | .api _ (.patchFinalizers _ _ _), answer => succeeded answer
  | .api _ (.patchEnabled _ _ _), answer => succeeded answer
  | .timer _, fired => !fired || ctx.forceFinalizerOnTimeout
  | r, answer => smoothAnswer false (unphased sm) r answer

/-- Others neither enable the resource nor put the finalizer of the controller on it. -/
def Interference.yields (w : World) : Interference → Bool
  | .editSpec spec => w.sm.all fun sm => !spec.enabled || sm.spec.enabled
  | .editFinalizers finalizers =>
    w.sm.all fun sm => !finalizers.contains Constants.finalizerScheduledMachine || hasFinalizer sm
  | _ => true

/-- Each reconcile is this replica's, finds a resource with this urgency, and has its calls answered as they should be. -/
def pressed (ctx : Context) (urgency : Urgency) (s : RunState) : RunAct → Bool
  | .start => s.world.sm.all fun sm => assigned (ctx.led s.world.leader) sm && sm.metadata.ns.isSome && presses sm urgency
  | .answer fate => s.pass.all fun pass => match pass.rest with
    | .call r _ => urgentAnswer (ctx.led pass.snap.leader) pass.snap.sm r (serve s.world r fate).1
    | _ => true
  | .interfere e => e.yields s.world
  | .kill => false
  | .finish => true

/-! ## What comes back -/

section

variable {α β : Type}

abbrev Urgently (ctx : Context) (sm : ScheduledMachine) (p : Ctl α) (Q : Except ReconcilerError α → Standing → Prop)
    (t : Standing) : Prop :=
  Ends (fun r answer => urgentAnswer ctx sm r answer = true) (fun (t : Standing) r _ => t.after r) p Q t

abbrev Spares (ctx : Context) (sm : ScheduledMachine) (p : Ctl α) (P : α → Prop) : Prop :=
  Yields (fun r answer => urgentAnswer ctx sm r answer = true) (fun (t : Standing) r _ => t.after r) p P

/-- Answered as in any reconcile, and of no effect on what urgent reconciles are after. -/
def Shared (ctx : Context) (sm : ScheduledMachine) (r : Req) : Prop :=
  (∀ answer, urgentAnswer ctx sm r answer = true → smoothAnswer false (unphased sm) r answer = true) ∧
    ∀ t : Standing, t.after r = t

variable {ctx : Context} {sm : ScheduledMachine} {ns : String}

theorem Yields.spares {p : Ctl α} {P : α → Prop} (hp : Gives false (unphased sm) p P) (hissues : p.Issues (Shared ctx sm)) :
    Spares ctx sm p P :=
  Yields.transfer none hp hissues (fun _ hr => hr.1) fun _ hr t _ => hr.2 t

theorem after_of_effect {client : Client} {call : ApiCall} (h : effectOfCall client call = none) (t : Standing) :
    t.after (.api client call) = t := by
  cases call with
  | patchStatus ns name body =>
    cases body with
    | phase => cases h
    | _ => rfl
  | patchEnabled => cases h
  | patchFinalizers => cases h
  | _ => rfl

theorem permitsReads_shared : PermitsReads (Shared ctx sm) where
  call client call heffect hnode := by
    refine ⟨fun answer hanswer => ?_, after_of_effect heffect⟩
    cases call with
    | patchEnabled => cases heffect
    | patchFinalizers => cases heffect
    | getNode => cases hnode
    | _ => exact hanswer
  loc _ _ := ⟨fun _ h => h, fun _ => rfl⟩

/-- Requests whose answers do not matter here. -/
def Beside (r : Req) : Prop := ∀ t : Standing, t.after r = t

theorem permitsReads_beside : PermitsReads Beside where
  call _ _ heffect _ := after_of_effect heffect
  loc _ _ _ := rfl

theorem beside_node (client : Client) (call : ApiCall) (h : call.isNodeOrPod = true) : Beside (.api client call) := by
  cases call with
  | getNode | patchNode | applyNodeTaints | listPods | deletePod => exact fun _ => rfl
  | _ => cases h

/-! ## Helpers -/

theorem spares_requireNamespace (hns : sm.metadata.ns = some ns) :
    Spares ctx sm (Prog.ofExcept (requireNamespace sm)) fun ns' => ns' = ns := by
  rw [requireNamespace, hns]
  exact yields_pure rfl

theorem spares_publish (event : KubeEvent) : Spares ctx sm (publishBestEffort event) fun _ => True :=
  (yields_request fun _ _ => rfl).bind fun _ _ => yields_pure trivial

theorem spares_remove : Spares ctx sm (removeMachineFromCluster ctx sm ns) fun _ => True := by
  have hgives : Gives false (unphased sm) (removeMachineFromCluster ctx (unphased sm) ns) fun _ => True :=
    gives_removeMachineFromCluster
  exact Yields.spares hgives (issues_removeMachineFromCluster (fun _ => ⟨fun _ h => h, fun _ => rfl⟩) ctx)

theorem spares_resolve (hns : sm.metadata.ns = some ns) : Spares ctx sm (resolve sm) fun _ => True := by
  have hgives : Gives false (unphased sm) (resolve (unphased sm)) fun _ => True := gives_resolve hns
  exact Yields.spares hgives (issues_resolve permitsReads_shared sm)

theorem spares_bestEffort {p : Ctl α} (hp : p.Issues Beside) : Spares ctx sm (bestEffort p) fun _ => True := by
  refine ⟨fun t => Ends.bind (Ends.attempt (ends_of_issues (fun r hr _ => hr t) hp fun x => ?_))⟩
  exact ⟨x, rfl, rfl, (), rfl, trivial⟩

theorem spares_recordReclaim (ns name : String) : Spares ctx sm (recordReclaim ns name) fun _ => True := by
  refine (yields_request fun _ _ => rfl).bind fun _ _ => (yields_request fun _ _ => rfl).bind fun _ _ =>
    (yields_request fun _ _ => rfl).bind fun breach _ => ?_
  split
  · exact spares_publish _
  · exact yields_pure trivial

/-- A cleanup within its time removes the machine; beyond it the operator has to have agreed to go on without. -/
theorem spares_finalizerCleanup : Spares ctx sm (finalizerCleanup ctx sm ns) fun _ => True := by
  unfold finalizerCleanup
  split
  · have hcleanup : Spares ctx sm
        (runCleanupWithTimeout Constants.finalizerCleanupTimeoutSecs (removeMachineFromCluster ctx sm ns)) fun outcome =>
          outcome = .completed ∨ outcome = .timedOut ∧ ctx.forceFinalizerOnTimeout = true := by
      refine ⟨fun t => Ends.bind (Ends.timeout (P := fun x => x = .ok ()) ?_ ?_ (fun _ => rfl) ?_ ?_)⟩
      · exact (spares_remove.ends t).mono fun x t' ⟨_, a, ha, _⟩ => ha
      · exact issues_removeMachineFromCluster (fun _ _ => rfl) ctx
      · rintro _ rfl
        exact ⟨_, rfl, rfl, _, rfl, .inl rfl⟩
      · intro state hstate hfired
        have hforce : ctx.forceFinalizerOnTimeout = true := by
          cases (hfired : state = true)
          exact hstate
        exact ⟨_, rfl, rfl, _, rfl, .inr ⟨rfl, hforce⟩⟩
    refine hcleanup.bind fun outcome houtcome => ?_
    rcases houtcome with rfl | ⟨rfl, hforce⟩
    · exact yields_pure trivial
    · refine (spares_publish _).bind fun _ _ => ?_
      rw [if_pos hforce]
      exact yields_pure trivial
  · exact yields_pure trivial

theorem urgently_patchFinalizers {name : String} {finalizers : List String} {f : Unit → Ctl β}
    {Q : Except ReconcilerError β → Standing → Prop} {t : Standing}
    (h : Urgently ctx sm (f ()) Q { t with guarded := finalizers.contains Constants.finalizerScheduledMachine }) :
    Urgently ctx sm ((patchFinalizers ns name finalizers).bind f) Q t := by
  intro answer hanswer
  cases answer with
  | ok => exact h
  | error e => cases hanswer

theorem urgently_patchDisableSchedule {name : String} {f : Unit → Ctl β} {Q : Except ReconcilerError β → Standing → Prop}
    {t : Standing} (h : Urgently ctx sm (f ()) Q { t with enabled := false }) :
    Urgently ctx sm ((patchDisableSchedule ns name).bind f) Q t := by
  intro answer hanswer
  cases answer with
  | ok => exact h
  | error e => cases hanswer

theorem urgently_writePhase {name reason message : String} {fromPhase : Option Phase} {target : Phase} {inSchedule : Bool}
    {f : Unit → Ctl β} {Q : Except ReconcilerError β → Standing → Prop} {t : Standing}
    (h : Urgently ctx sm (f ()) Q { t with phase := some target }) :
    Urgently ctx sm ((writePhase ns name fromPhase target reason message inSchedule).bind f) Q t := by
  refine Ends.bind ((spares_publish _).then fun _ _ => (yields_request fun _ _ => rfl).then fun now _ => ?_)
  intro answer hanswer
  cases answer with
  | ok => exact ⟨(), rfl, h⟩
  | error e => cases hanswer

/-! ## One reconcile -/

abbrev Discharges (ctx : Context) (sm : ScheduledMachine) (p : Ctl Action) (urgency : Urgency) (t : Standing) : Prop :=
  Urgently ctx sm p (fun x t' => (∃ action, x = .ok action) ∧ t'.Settles urgency) t

variable {t : Standing}

theorem settled_handleDeletion (hns : sm.metadata.ns = some ns) : Discharges ctx sm (handleDeletion ctx sm) .deletion t := by
  refine Yields.then (spares_requireNamespace hns) fun _ _ => Yields.then spares_finalizerCleanup fun _ _ => ?_
  refine urgently_patchFinalizers ?_
  exact ⟨⟨_, rfl⟩, Bool.eq_false_iff.mpr fun h => not_mem_withoutFinalizer _ (List.contains_iff_mem.mp h)⟩

theorem settled_handleKillSwitch (hns : sm.metadata.ns = some ns) : Discharges ctx sm (handleKillSwitch ctx sm) .killed t := by
  have hremove : ∀ ns, Spares ctx sm (removeIfRunning ctx sm ns) fun _ => True := by
    intro ns
    unfold removeIfRunning
    split
    · exact spares_remove
    · exact yields_pure trivial
  refine Yields.then (spares_requireNamespace hns) fun ns' _ => Yields.then (hremove ns') fun _ _ => ?_
  exact urgently_writePhase ⟨⟨_, rfl⟩, rfl⟩

theorem settled_handleEmergencyRemove (hns : sm.metadata.ns = some ns) (nodeName : String) (request : ReclaimRequest) :
    Discharges ctx sm (handleEmergencyRemove ctx sm nodeName request) .reclaimed t := by
  refine Yields.then (spares_requireNamespace hns) fun _ _ => ?_
  refine Yields.then (spares_publish _) fun _ _ => urgently_writePhase (Yields.then (spares_recordReclaim _ _) fun _ _ => ?_)
  refine Yields.then (spares_resolve hns) fun child _ => ?_
  have hdrain : (drainNodeWithTimeout child.client nodeName Constants.emergencyDrainTimeoutSecs).Issues Beside :=
    issues_drainNodeWithTimeout permitsReads_beside (beside_node _) _ _
  refine Yields.then (spares_bestEffort hdrain) fun _ _ => Yields.then spares_remove fun _ _ => ?_
  refine urgently_patchDisableSchedule (Yields.then (spares_publish _) fun _ _ => ?_)
  have hclear : Spares ctx sm (clearReclaimAnnotationsBestEffort child.client nodeName) fun _ => True :=
    (yields_request fun _ _ => rfl).bind fun _ _ => yields_pure trivial
  refine Yields.then hclear fun _ _ => urgently_writePhase ?_
  exact ⟨⟨_, rfl⟩, rfl, rfl⟩

theorem spares_ofExcept {x : Except ReconcilerError α} (h : succeeded x = true) :
    Spares ctx sm (Prog.ofExcept x) fun _ => True := by
  cases x with
  | ok a => exact yields_pure trivial
  | error e => cases h

theorem settled_checkEmergencyReclaim (hns : sm.metadata.ns = some ns) (hnode : (reclaimNode sm).isSome = true)
    {f : Option Action → Ctl Action} (hf : ∀ action, f (some action) = .pure action) :
    Discharges ctx sm ((checkEmergencyReclaim ctx sm).bind f) .reclaimed t := by
  obtain ⟨nodeName, hname⟩ := Option.isSome_iff_exists.mp hnode
  have hread : Spares ctx sm (api .management (.getNode nodeName)) fun answer =>
      urgentAnswer ctx sm (.api .management (.getNode nodeName)) answer = true := yields_request fun _ _ => rfl
  rw [checkEmergencyReclaim, hname]
  refine Ends.bind (Yields.then hread fun answer hanswer => ?_)
  cases answer with
  | error e => cases hanswer
  | ok node =>
    obtain ⟨request, hrequest⟩ := Option.isSome_iff_exists.mp (hanswer : (nodeReclaimRequest node).isSome = true)
    simp only [hrequest]
    refine Ends.bind ((settled_handleEmergencyRemove hns nodeName request).mono fun x t' h => ?_)
    obtain ⟨⟨action, rfl⟩, hsettles⟩ := h
    refine ⟨action, rfl, some action, rfl, ?_⟩
    rw [hf]
    exact ⟨⟨action, rfl⟩, hsettles⟩

/-- A reconcile deals with what presses most. -/
theorem settled_reconcileScheduledMachine {urgency : Urgency} (hassigned : assigned ctx sm = true)
    (hsome : sm.metadata.ns.isSome = true) (h : presses sm urgency = true) :
    Discharges ctx sm (reconcileScheduledMachine ctx sm) urgency t := by
  obtain ⟨ns, hns⟩ := Option.isSome_iff_exists.mp hsome
  have hrequire : requireNamespace sm = .ok ns := by rw [requireNamespace, hns]
  obtain ⟨hleader, hmine⟩ := Bool.and_eq_true_iff.mp hassigned
  rw [hns, Option.getD_some] at hmine
  simp only [reconcileScheduledMachine, hrequire, Prog.ofExcept, Prog.bind_def, Prog.pure_bind, reconcileGuarded, hleader, hmine,
    Bool.not_true, if_false, Bool.false_eq_true]
  cases urgency with
  | deletion =>
    rw [presses] at h
    rw [if_pos h]
    exact settled_handleDeletion hns
  | killed =>
    simp only [presses, Bool.and_eq_true, Bool.not_eq_true'] at h
    obtain ⟨⟨⟨halive, hfinalizer⟩, hvalid⟩, hkill⟩ := h
    simp only [halive, hfinalizer, Bool.not_true, if_false, Bool.false_eq_true, reconcileInner]
    refine Yields.then (spares_requireNamespace hns) fun _ _ => Yields.then (spares_ofExcept hvalid) fun _ _ => ?_
    rw [if_pos hkill]
    exact settled_handleKillSwitch hns
  | reclaimed =>
    simp only [presses, Bool.and_eq_true, Bool.not_eq_true'] at h
    obtain ⟨⟨⟨⟨halive, hfinalizer⟩, hvalid⟩, hkill⟩, hnode⟩ := h
    simp only [halive, hfinalizer, Bool.not_true, if_false, Bool.false_eq_true, reconcileInner]
    refine Yields.then (spares_requireNamespace hns) fun _ _ => Yields.then (spares_ofExcept hvalid) fun _ _ => ?_
    rw [hkill, if_neg Bool.false_ne_true]
    exact settled_checkEmergencyReclaim hns hnode fun _ => rfl

end

/-! ## Runs -/

theorem standing_onSm {client : Client} {call : ApiCall} {sm sm' : ScheduledMachine} (h : call.onSm sm = some sm') :
    sm'.standing = sm.standing.after (.api client call) := by
  cases call with
  | patchStatus ns name body =>
    cases h
    have hfinalizer : hasFinalizer (sm.patchStatus body) = hasFinalizer sm := rfl
    cases body with
    | phase => rfl
    | _ =>
      simp only [ScheduledMachine.standing, Standing.after, hfinalizer, Standing.mk.injEq, and_true]
      refine ⟨?_, rfl⟩
      cases hs : sm.status <;>
        simp [ScheduledMachine.phase, ScheduledMachine.patchStatus, StatusPatch.apply, hs, ScheduledMachineStatus.blank]
  | patchFinalizers ns name finalizers =>
    rw [ApiCall.onSm, ScheduledMachine.setFinalizers, Option.ite_none_left_eq_some] at h
    cases h.2
    rfl
  | _ =>
    cases h
    rfl

/-- The resource has got no further than `t` says. -/
def Bounded (t : Standing) (w : World) : Prop := ∀ sm, w.sm = some sm → t.Covers sm.standing

theorem bounded_serve {ctx : Context} {sm : ScheduledMachine} {t : Standing} {w : World} {r : Req} {fate : Fate}
    (hgood : urgentAnswer ctx sm r (serve w r fate).1 = true) (h : Bounded t w) : Bounded (t.after r) (serve w r fate).2 := by
  intro sm' hsm'
  cases r with
  | api client call =>
    obtain ⟨applied, error, ha⟩ := exists_answered w client call fate
    rw [ha.sm] at hsm'
    cases applied with
    | true =>
      obtain ⟨before, hbefore, hon⟩ := Option.bind_eq_some_iff.mp hsm'
      rw [standing_onSm hon]
      exact (h before hbefore).after _
    | false =>
      have hrefused : t.after (.api client call) = t := by
        cases call with
        | patchStatus ns name body =>
          cases body with
          | phase => exact absurd (ha.ok hgood) Bool.false_ne_true
          | _ => rfl
        | patchEnabled => exact absurd (ha.ok hgood) Bool.false_ne_true
        | patchFinalizers => exact absurd (ha.ok hgood) Bool.false_ne_true
        | _ => rfl
      rw [hrefused]
      exact h sm' hsm'
  | loc op =>
    obtain ⟨hsame, -⟩ := performLocal_frame w op
    exact h sm' (hsame ▸ hsm')
  | timer seconds =>
    obtain ⟨hsame, -⟩ := serve_timer_frame w seconds fate
    exact h sm' (hsame ▸ hsm')

theorem covers_interfere {e : Interference} {w : World} {sm' : ScheduledMachine} (he : e.yields w = true)
    (hsm' : (interfere e w).sm = some sm') : ∃ sm, w.sm = some sm ∧ sm.standing.Covers sm'.standing := by
  have himp : ∀ {a b : Bool}, (!a || b) = true → a = true → b = true := by decide
  obtain ⟨sm, hsm, hcore, -⟩ := (interfere_frame e w).2 sm' hsm'
  refine ⟨sm, hsm, ?_⟩
  cases e with
  | editSpec spec =>
    simp only [interfere, hsm, World.record, World.setSm, Option.some.injEq] at hsm'
    simp only [Interference.yields, hsm, Option.all_some] at he
    subst hsm'
    exact ⟨hcore.phase, himp he, id⟩
  | editFinalizers finalizers =>
    simp only [interfere, hsm, World.setSm, Option.bind_some, ScheduledMachine.setFinalizers,
      Option.ite_none_left_eq_some, Option.some.injEq] at hsm'
    simp only [Interference.yields, hsm, Option.all_some] at he
    cases hsm'.2
    exact ⟨hcore.phase, id, himp he⟩
  | requestDeletion =>
    simp only [interfere, hsm, World.record, World.setSm, ScheduledMachine.requestDeletion] at hsm'
    split at hsm'
    · cases hsm'
      exact .refl _
    · split at hsm'
      · cases hsm'
      · cases hsm'
        exact .refl _
  | forgeNodeRef nodeRef =>
    obtain ⟨sm₀, hsm₀, rfl⟩ := Option.map_eq_some_iff.mp hsm'
    cases hsm.symm.trans hsm₀
    exact ⟨hcore.phase, id, id⟩
  | _ =>
    cases hsm.symm.trans hsm'
    exact .refl _

theorem bounded_interfere {e : Interference} {t : Standing} {w : World} (he : e.yields w = true) (h : Bounded t w) :
    Bounded t (interfere e w) := by
  intro sm' hsm'
  obtain ⟨sm, hsm, hcovers⟩ := covers_interfere he hsm'
  exact (h sm hsm).trans hcovers

/-- Once a reconcile is over, the urgency is dealt with; the one in progress has left the resource as `t`. -/
def Pressing (urgency : Urgency) (n : Nat) (w : World) : Option (Snapshot × Standing) → Prop
  | none => n ≠ 0 → ∀ sm, w.sm = some sm → sm.standing.Settles urgency
  | some (_, t) => Bounded t w

theorem pressing_advances (ctx : Context) (urgency : Urgency) (init : World → Prop) :
    (system ctx).Advances (fun snap r answer => urgentAnswer (ctx.led snap.leader) snap.sm r answer = true)
      (fun (t : Standing) r _ => t.after r) (fun snap => snap.sm.standing)
      (fun _ x t => (∃ action, x = .ok action) ∧ t.Settles urgency) init
      (fun s a => pressed ctx urgency s a = true) (Pressing urgency) where
  base w _ := fun h => absurd rfl h
  interfere n w pass now e h hok := by
    cases now with
    | none =>
      intro hn sm' hsm'
      obtain ⟨sm, hsm, hcovers⟩ := covers_interfere hok hsm'
      exact (h hn sm hsm).of_covers hcovers
    | some now => exact bounded_interfere hok h
  start n w snap _ _ hsnap hok := by
    obtain ⟨sm, hsm, rfl⟩ := Option.map_eq_some_iff.mp hsnap
    simp only [pressed, hsm, Option.all_some, Bool.and_eq_true] at hok
    refine ⟨fun sm' hsm' => ?_, settled_reconcileScheduledMachine hok.1.1 hok.1.2 hok.2⟩
    cases hsm.symm.trans hsm'
    exact .refl _
  answer n w snap r k trace t fate h hok := by
    have hgood : urgentAnswer (ctx.led snap.leader) snap.sm r (serve w r fate).1 = true := hok
    exact ⟨hgood, bounded_serve hgood h⟩
  finish n w snap x t h hx := by
    intro _ sm hsm
    exact hx.2.of_covers (h sm hsm)
  alive s := nofun

/-- Another controller holds on to it. -/
def leavingMachine : ScheduledMachine where
  metadata := ⟨"spot", some "team", some "uid-1", some 0, some [Constants.finalizerScheduledMachine, "example.com/backup"]⟩
  spec := demoSpec
  status := some { ScheduledMachineStatus.blank with phase := some .active }

def leavingWorld : World := { demoWorld with sm := some leavingMachine }

end FiveSpot
