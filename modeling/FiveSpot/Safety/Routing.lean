import FiveSpot.Cluster.Run
import FiveSpot.Discipline.Helpers

/-! # Which cluster a Node is looked up on

Nodes and Pods of a machine live on the cluster its client was resolved for. One call goes elsewhere:
the read that looks for a reclaim request always asks the management cluster.
-/

namespace FiveSpot

set_option autoImplicit false

open Interaction

/-! ## The monitor -/

/-- What resolving clients has led to so far in a reconcile: whether it fell back to the management
cluster, and the child clusters it came up with. -/
structure Route where
  fallback : Bool
  children : List String

def Route.start : Route := ⟨false, []⟩

/-- A missing auto-discovered Secret is the only way back to the management cluster. -/
def Route.learn (sm : ScheduledMachine) (t : Route) : (r : Req) → Resp r → Route
  | .api _ (.getSecret _ _), .error e =>
    if e.isNotFound && sm.spec.kubeconfigSecretRef.isNone then { t with fallback := true } else t
  | .loc (.cacheGet _ _), some kubeconfig => { t with children := kubeconfig :: t.children }
  | .loc (.cacheInsert _ kubeconfig _), _ => { t with children := kubeconfig :: t.children }
  | _, _ => t

/-- `client` is one that was resolved. -/
def Route.Resolved (t : Route) (client : Client) : Prop :=
  t.fallback = true ∨ ∃ kubeconfig ∈ t.children, client = .child kubeconfig

/-- Nodes and Pods are addressed through resolved clients only, `exempt` requests apart. As long as
nothing falls back, that means through child clients. -/
def routing (sm : ScheduledMachine) (exempt : Req → Prop) : Monitor Resp Route where
  allowed t r := exempt r ∨ ∀ client, nodeClient r = some client → t.Resolved client
  observe := Route.learn sm

structure Route.Extends (t u : Route) : Prop where
  fallback : t.fallback = true → u.fallback = true
  children : ∀ kubeconfig ∈ t.children, kubeconfig ∈ u.children

theorem Route.Extends.refl (t : Route) : t.Extends t := ⟨id, fun _ h => h⟩

theorem Route.Extends.trans {t u v : Route} (h : t.Extends u) (h' : u.Extends v) : t.Extends v :=
  ⟨fun hf => h'.fallback (h.fallback hf), fun kubeconfig hk => h'.children kubeconfig (h.children kubeconfig hk)⟩

theorem Route.Resolved.extends {t u : Route} {client : Client} (h : t.Resolved client) (hu : t.Extends u) :
    u.Resolved client := by
  rcases h with hfallback | ⟨kubeconfig, hmem, rfl⟩
  · exact .inl (hu.fallback hfallback)
  · exact .inr ⟨kubeconfig, hu.children kubeconfig hmem, rfl⟩

theorem Route.extends_learn (sm : ScheduledMachine) (t : Route) (r : Req) (answer : Resp r) :
    t.Extends (t.learn sm r answer) := by
  unfold Route.learn
  split
  · split
    · exact ⟨fun _ => rfl, fun _ h => h⟩
    · exact .refl t
  · exact ⟨id, fun _ h => List.mem_cons_of_mem _ h⟩
  · exact ⟨id, fun _ h => List.mem_cons_of_mem _ h⟩
  · exact .refl t

variable {ctx : Context} {sm : ScheduledMachine} {exempt : Req → Prop} {t : Route} {α : Type}

/-! ## Programs on one cluster -/

abbrev Offnode (p : Ctl α) : Prop := p.Issues fun r => nodeClient r = none

abbrev RoutesTo (client : Client) (p : Ctl α) : Prop :=
  p.Issues fun r => ∀ c, nodeClient r = some c → c = client

theorem permits_offnode : PermitsOffnode fun r => nodeClient r = none where
  call _ _ _ hnode := by simp [nodeClient, hnode]
  loc _ _ := rfl
  write _ _ hnode _ := by simp [nodeClient, hnode]
  timer _ := rfl

theorem nodeClient_api {client c : Client} {call : ApiCall} (h : nodeClient (.api client call) = some c) : c = client := by
  simp only [nodeClient, Option.ite_none_right_eq_some, Option.some.injEq] at h
  exact h.2.symm

theorem permits_routesTo (client : Client) : PermitsOffnode fun r => ∀ c, nodeClient r = some c → c = client where
  call client call _ hnode c hc := by simp [nodeClient, hnode] at hc
  loc _ _ _ hc := nomatch hc
  write client call hnode _ c hc := by simp [nodeClient, hnode] at hc
  timer _ _ hc := nomatch hc

theorem routed_of_routesTo {client : Client} {p : Ctl α} {Q : Except ReconcilerError α → Route → Prop}
    (hp : RoutesTo client p) (ht : t.Resolved client) (hQ : ∀ x u, t.Extends u → Q x u) :
    Conforms (routing sm exempt) p Q t := by
  refine conforms_of_issues Route.Extends.refl Route.Extends.trans (fun r hr u hu => ⟨.inr ?_, ?_⟩) hp hQ
  · intro c hc
    rw [hr c hc]
    exact ht.extends hu
  · exact Route.extends_learn sm u r

theorem routed_of_offnode {p : Ctl α} {Q : Except ReconcilerError α → Route → Prop} (hp : Offnode p)
    (hQ : ∀ x u, t.Extends u → Q x u) : Conforms (routing sm exempt) p Q t := by
  refine conforms_of_issues Route.Extends.refl Route.Extends.trans (fun r hr u _ => ⟨.inr ?_, ?_⟩) hp hQ
  · intro c hc
    rw [hr] at hc
    cases hc
  · exact Route.extends_learn sm u r

def someRoute {β : Type} : Except ReconcilerError β → Route → Prop := fun _ _ => True

theorem routed_bind_offnode {β : Type} {p : Ctl α} {f : α → Ctl β} (hp : Offnode p)
    (hf : ∀ a u, t.Extends u → Conforms (routing sm exempt) (f a) someRoute u) :
    Conforms (routing sm exempt) (p.bind f) someRoute t := by
  rw [conforms_bind]
  refine routed_of_offnode hp fun x u hu => ?_
  cases x with
  | ok a => exact hf a u hu
  | error e => trivial

/-! ## Resolving a client -/

theorem routed_hookEvicted {key : Option CacheKey} {Q : Except ReconcilerError Unit → Route → Prop}
    (hQ : ∀ u, t.Extends u → Q (.ok ()) u) : Conforms (routing sm exempt) (hookEvicted key) Q t := by
  cases key with
  | none => exact hQ t (.refl t)
  | some key => exact ⟨.inr fun _ h => (nomatch h), fun answer => hQ _ (Route.extends_learn sm t _ answer)⟩

theorem routed_buildChildClient {ns secretName key : String} {secret : Secret}
    {Q : Except ReconcilerError ResolvedClient → Route → Prop}
    (hok : ∀ resolved u, t.Extends u → u.Resolved resolved.client → Q (.ok resolved) u)
    (herror : ∀ e u, t.Extends u → (∀ text, e ≠ .notFound text) → Q (.error e) u) :
    Conforms (routing sm exempt) (buildChildClient ns secretName key secret) Q t := by
  unfold buildChildClient
  split
  · exact herror _ t (.refl t) nofun
  · exact herror _ t (.refl t) nofun
  · rename_i kubeconfig _
    refine ⟨.inr fun _ h => (nomatch h), fun failure => ?_⟩
    cases failure with
    | some reason => exact herror _ t (.refl t) nofun
    | none =>
      refine ⟨.inr fun _ h => (nomatch h), fun inserted => ?_⟩
      have hlearned : t.Extends { t with children := kubeconfig :: t.children } :=
        ⟨id, fun _ h => List.mem_cons_of_mem _ h⟩
      change Conforms (routing sm exempt) ((hookEvicted inserted.2).bind _) Q
        { t with children := kubeconfig :: t.children }
      rw [conforms_bind]
      refine routed_hookEvicted fun u hu => ?_
      rw [continue_ok, Prog.bind_def, conforms_bind]
      refine routed_hookEvicted fun v hv => ?_
      refine ⟨.inr fun _ h => (nomatch h), fun answer => ?_⟩
      have hlast := (hu.trans hv).trans (Route.extends_learn sm v _ answer)
      exact hok _ _ (hlearned.trans hlast) (.inr ⟨kubeconfig, hlast.children kubeconfig List.mem_cons_self, rfl⟩)

theorem routed_buildOrGetCached {ns secretName key : String} {explicit : Bool}
    {Q : Except ReconcilerError ResolvedClient → Route → Prop}
    (hexplicit : explicit = sm.spec.kubeconfigSecretRef.isSome)
    (hok : ∀ resolved u, t.Extends u → u.Resolved resolved.client → Q (.ok resolved) u)
    (hmissing : ∀ text u, t.Extends u → u.fallback = true → Q (.error (.notFound text)) u)
    (herror : ∀ e u, t.Extends u → (∀ text, e ≠ .notFound text) → Q (.error e) u) :
    Conforms (routing sm exempt) (buildOrGetCached ns secretName key explicit) Q t := by
  refine ⟨.inr fun _ h => (nomatch h), fun answer => ?_⟩
  have hlearned := Route.extends_learn sm t (.api .management (.getSecret ns secretName)) answer
  cases answer with
  | error e =>
    change Q (.error (secretFailure ns secretName explicit e)) _
    unfold secretFailure
    split
    · rename_i hmiss
      split
      · exact herror _ _ hlearned nofun
      · rename_i hauto
        refine hmissing _ _ hlearned ?_
        have hnone : sm.spec.kubeconfigSecretRef.isNone = true := by
          rw [hexplicit] at hauto
          simpa using hauto
        change (Route.learn sm t (.api .management (.getSecret ns secretName)) (.error e)).fallback = true
        simp [Route.learn, hmiss, hnone]
    · split
      · exact herror _ _ hlearned nofun
      · exact herror _ _ hlearned nofun
  | ok secret =>
    refine ⟨.inr fun _ h => (nomatch h), fun cached => ?_⟩
    cases cached with
    | some kubeconfig =>
      refine hok _ _ ⟨id, fun _ h => List.mem_cons_of_mem _ h⟩ ?_
      exact .inr ⟨kubeconfig, List.mem_cons_self, rfl⟩
    | none => exact routed_buildChildClient hok herror

theorem routed_resolve {Q : Except ReconcilerError ResolvedClient → Route → Prop}
    (hok : ∀ resolved u, t.Extends u → u.Resolved resolved.client → Q (.ok resolved) u)
    (herror : ∀ e u, t.Extends u → Q (.error e) u) : Conforms (routing sm exempt) (resolve sm) Q t := by
  unfold resolve
  split
  · exact herror _ t (.refl t)
  · split
    · rename_i ref href
      exact routed_buildOrGetCached (by rw [href]; rfl) hok (fun _ u hu _ => herror _ u hu)
        fun e u hu _ => herror e u hu
    · rename_i href
      rw [Prog.bind_def, conforms_bind, conforms_attempt]
      refine routed_buildOrGetCached (by rw [href]; rfl) hok (fun text u hu hfallback => ?_) fun e u hu hne => ?_
      · exact hok .management u hu (.inl hfallback)
      · cases e with
        | notFound text => exact absurd rfl (hne text)
        | _ => exact herror _ u hu

/-! ## Handlers -/

theorem routed_withNode {nodeRef : Option NodeRef} {body : Client → String → Ctl Unit}
    {Q : Except ReconcilerError Unit → Route → Prop} (hbody : ∀ client name, RoutesTo client (body client name))
    (hQ : ∀ u, t.Extends u → Q (.ok ()) u) : Conforms (routing sm exempt) (withNode sm nodeRef body) Q t := by
  unfold withNode
  split
  · exact hQ t (.refl t)
  · split
    · exact hQ t (.refl t)
    · rw [Prog.bind_def, conforms_bind, conforms_attempt]
      refine routed_resolve (fun resolved u hu hresolved => ?_) fun e u hu => hQ u hu
      change Conforms (routing sm exempt) (bestEffort (body resolved.client _)) Q u
      rw [bestEffort, conforms_bind, conforms_attempt]
      exact routed_of_routesTo (hbody _ _) hresolved fun _ v hv => hQ v (hu.trans hv)

theorem routed_enrichActive {ns : String} :
    Conforms (routing sm exempt) (enrichActive ctx sm ns) someRoute t := by
  refine routed_bind_offnode (issues_fetchCapiMachine permits_offnode.toPermitsReads _ _ _).attempt fun outcome u _ => ?_
  split
  · trivial
  · trivial
  · refine routed_bind_offnode (Issues.bestEffort (issues_patchMachineRefsStatus permits_offnode.toPermitsReads ..))
      fun _ u₁ _ => ?_
    rw [Prog.bind_def, conforms_bind]
    refine routed_withNode (fun _ _ => issues_reconcileReclaimAgentProvision (fun _ _ _ => nodeClient_api) _ _) fun u₂ _ => ?_
    rw [continue_ok, Prog.bind_def, conforms_bind, reconcileNodeTaintsBestEffort]
    have hkata : ∀ nodeRef u, Conforms (routing sm exempt) (provisionKataConfigBestEffort sm nodeRef) someRoute u :=
      fun nodeRef u => routed_withNode
        (fun _ _ => (issues_reconcileKataConfigDelivery (fun _ _ _ => nodeClient_api) _ _).bind fun _ => trivial)
        fun _ _ => trivial
    split
    · exact hkata _ u₂
    · split
      · exact hkata _ u₂
      · split
        · exact hkata _ u₂
        · refine routed_withNode (fun _ _ => ?_) fun u₃ _ => hkata _ u₃
          exact (issues_reconcileNodeTaints (fun _ _ _ => nodeClient_api) _ _ _).bind fun outcome =>
            issues_recordAppliedTaints (permits_routesTo _) sm outcome

theorem routed_drainBoundNode {ns : String} {Q : Except ReconcilerError Unit → Route → Prop}
    (hQ : ∀ x u, t.Extends u → Q x u) : Conforms (routing sm exempt) (drainBoundNode ctx sm ns) Q t := by
  rw [drainBoundNode, Prog.bind_def, conforms_bind]
  refine routed_of_offnode (issues_getNodeFromMachine permits_offnode.toPermitsReads _ _ _) fun found u hu => ?_
  cases found with
  | error e => exact hQ _ u hu
  | ok found =>
    cases found with
    | none => exact hQ _ u hu
    | some nodeName =>
      rw [continue_ok]
      dsimp only
      generalize parseDuration sm.spec.nodeDrainTimeout = timeout
      rw [Prog.bind_def, conforms_bind, conforms_ofExcept]
      cases timeout with
      | error e => exact hQ _ u hu
      | ok timeout =>
        rw [continue_ok, Prog.bind_def, conforms_bind]
        refine routed_resolve (fun resolved v hv hresolved => ?_) fun e v hv => hQ _ v (hu.trans hv)
        rw [continue_ok, bestEffort, conforms_bind, conforms_attempt]
        exact routed_of_routesTo (issues_drainNodeWithTimeout (permits_routesTo _).toPermitsReads
          (fun _ _ _ => nodeClient_api) _ _) hresolved
          fun _ x hx => hQ _ x ((hu.trans hv).trans hx)

theorem routed_handleActivePhase (shouldBeActive : Bool) :
    Conforms (routing sm exempt) (handleActivePhase ctx sm shouldBeActive) someRoute t := by
  refine routed_bind_offnode (Prog.issues_ofExcept _ _) fun ns u _ => ?_
  split
  · exact routed_of_offnode ((issues_writePhase permits_offnode ..).bind fun _ => trivial) fun _ _ _ => trivial
  · split
    · exact routed_of_offnode ((issues_writePhase permits_offnode ..).bind fun _ => trivial) fun _ _ _ => trivial
    · rw [Prog.bind_def, conforms_bind]
      refine routed_enrichActive.mono fun x v _ => ?_
      cases x <;> trivial

theorem routed_handleShuttingDownPhase :
    Conforms (routing sm exempt) (handleShuttingDownPhase ctx sm) someRoute t := by
  refine routed_bind_offnode (Prog.issues_ofExcept _ _) fun ns u _ => ?_
  refine routed_bind_offnode (issues_checkGracePeriodElapsed permits_offnode.toPermitsReads sm) fun elapsed v _ => ?_
  split
  · rw [Prog.bind_def, conforms_bind]
    refine routed_drainBoundNode fun x w _ => ?_
    cases x with
    | error e => trivial
    | ok _ =>
      refine routed_bind_offnode (issues_removeMachineFromCluster (fun _ => rfl) _).attempt fun outcome _ _ => ?_
      split
      · exact routed_of_offnode ((issues_writePhase permits_offnode ..).bind fun _ => trivial) fun _ _ _ => trivial
      · exact routed_of_offnode ((issues_writePhase permits_offnode ..).bind fun _ => trivial) fun _ _ _ => trivial
  · trivial

theorem routed_dispatchPhase (shouldBeActive : Bool) :
    Conforms (routing sm exempt) (dispatchPhase ctx sm shouldBeActive) someRoute t := by
  have hoff : ∀ p : Ctl Action, Offnode p → Conforms (routing sm exempt) p someRoute t :=
    fun p hp => routed_of_offnode hp fun _ _ _ => trivial
  unfold dispatchPhase
  split
  · exact routed_handleActivePhase shouldBeActive
  · exact routed_handleShuttingDownPhase
  · exact hoff _ (issues_handleInactivePhase permits_offnode _ _)
  · exact hoff _ (issues_handleDisabledPhase permits_offnode _)
  · trivial
  · exact hoff _ (issues_handleEmergencyRemovePhase permits_offnode _)
  · exact hoff _ (issues_handleErrorPhase _)
  · exact hoff _ (issues_handlePendingPhase permits_offnode _ _ _)
  · exact hoff _ (issues_handlePendingPhase permits_offnode _ _ _)
  · exact hoff _ (issues_handlePendingPhase permits_offnode _ _ _)

theorem routed_reconcileSchedule {ns : String} :
    Conforms (routing sm exempt) (reconcileSchedule ctx sm ns) someRoute t :=
  routed_bind_offnode (issues_resolveSpotSchedule permits_offnode.toPermitsReads _ _) fun _ _ _ =>
    routed_bind_offnode (issues_persistSpotScheduleStatus permits_offnode ..) fun _ _ _ =>
      routed_dispatchPhase _

theorem routed_handleEmergencyRemove {nodeName : String} {request : ReclaimRequest} :
    Conforms (routing sm exempt) (handleEmergencyRemove ctx sm nodeName request) someRoute t := by
  refine routed_bind_offnode (Prog.issues_ofExcept _ _) fun ns u₁ _ => ?_
  refine routed_bind_offnode (issues_publishBestEffort permits_offnode.toPermitsReads _) fun _ u₂ _ => ?_
  refine routed_bind_offnode (issues_writePhase permits_offnode ..) fun _ u₃ _ => ?_
  refine routed_bind_offnode (issues_recordReclaim permits_offnode.toPermitsReads (fun _ => rfl) _ _) fun _ u₄ _ => ?_
  rw [Prog.bind_def, conforms_bind]
  refine routed_resolve (fun resolved u₅ _ hresolved => ?_) fun _ _ _ => trivial
  refine routed_of_routesTo ?_ hresolved fun _ _ _ => trivial
  refine Prog.Issues.bind (Issues.bestEffort (issues_drainNodeWithTimeout (permits_routesTo _).toPermitsReads
    (fun _ _ _ => nodeClient_api) _ _)) fun _ => ?_
  refine (issues_removeMachineFromCluster (fun _ _ hc => nomatch hc) _).bind fun _ => ?_
  refine (issues_patchDisableSchedule (permits_routesTo _) ..).bind fun _ => ?_
  refine (issues_publishBestEffort (permits_routesTo _).toPermitsReads _).bind fun _ => ?_
  refine Prog.Issues.bind (issues_clearReclaimAnnotationsBestEffort (fun _ _ _ => nodeClient_api) _) fun _ => ?_
  exact (issues_writePhase (permits_routesTo _) ..).bind fun _ => trivial

theorem routed_reconcileInner {ns : String} (hpath : Entered ctx sm ns) (halive : sm.deleting = false)
    (hfinalizer : hasFinalizer sm = true)
    (hexempt : ∀ nodeName, looksForReclaim ctx sm = true → reclaimNode sm = some nodeName →
      exempt (.api .management (.getNode nodeName))) :
    Conforms (routing sm exempt) (reconcileInner ctx sm) someRoute t := by
  refine routed_bind_offnode (Prog.issues_ofExcept _ _) fun ns' u _ => ?_
  rw [Prog.bind_def, conforms_bind, conforms_ofExcept]
  cases hvalid : validateSpec sm.spec with
  | error e => trivial
  | ok _ =>
    rw [continue_ok]
    split
    · exact routed_of_offnode (issues_handleKillSwitch permits_offnode _ _) fun _ _ _ => trivial
    · rename_i hkill
      have hordinary : Ordinary ctx sm ns :=
        { hpath with alive := halive, finalizer := hfinalizer, valid := hvalid }
      have hlooks : looksForReclaim ctx sm = true := by
        simpa [looksForReclaim, isOrdinary_iff.mpr ⟨ns, hordinary⟩] using hkill
      unfold checkEmergencyReclaim
      split
      · exact routed_reconcileSchedule
      · rename_i nodeName hnode
        refine ⟨.inl (hexempt nodeName hlooks hnode), fun answer => ?_⟩
        cases answer with
        | error e =>
          change Conforms (routing sm exempt) (Prog.bind (if e.isNotFound then _ else _) _) someRoute _
          split
          · exact routed_reconcileSchedule
          · trivial
        | ok node =>
          simp only [Prog.pure_bind]
          cases nodeReclaimRequest node with
          | none => exact routed_reconcileSchedule
          | some request =>
            rw [conforms_bind]
            change Conforms (routing sm exempt) ((handleEmergencyRemove ctx sm nodeName request).bind _) _ _
            rw [conforms_bind]
            refine routed_handleEmergencyRemove.mono fun x u _ => ?_
            cases x <;> trivial

theorem routed_reconcile
    (hexempt : ∀ nodeName, looksForReclaim ctx sm = true → reclaimNode sm = some nodeName →
      exempt (.api .management (.getNode nodeName))) :
    Conforms (routing sm exempt) (reconcileScheduledMachine ctx sm) someRoute t := by
  rw [reconcileScheduledMachine, Prog.bind_def, conforms_bind, conforms_ofExcept]
  cases hns : requireNamespace sm with
  | error e => trivial
  | ok ns =>
    rw [continue_ok, reconcileGuarded]
    split
    · trivial
    rename_i hleader
    split
    · trivial
    rename_i hassigned
    split
    · exact routed_of_offnode (issues_handleDeletion permits_offnode _ _) fun _ _ _ => trivial
    rename_i hdeleting
    split
    · exact routed_of_offnode (issues_addFinalizer permits_offnode _) fun _ _ _ => trivial
    rename_i hfinalizer
    have hpath : Entered ctx sm ns := ⟨requireNamespace_eq_ok hns, by simpa using hleader, by simpa using hassigned⟩
    refine routed_reconcileInner hpath ?_ ?_ hexempt
    · simpa using hdeleting
    · simpa using hfinalizer

theorem not_routed_reconcile {nodeName : String} (hlooks : looksForReclaim ctx sm = true)
    (hnode : reclaimNode sm = some nodeName) :
    ¬Conforms (routing sm fun _ => False) (reconcileScheduledMachine ctx sm) someRoute .start := by
  obtain ⟨hordinary, hkill⟩ := Bool.and_eq_true_iff.mp hlooks
  obtain ⟨ns, hns⟩ := isOrdinary_iff.mp hordinary
  have hkill : sm.spec.killSwitch = false := by simpa using hkill
  intro h
  rw [reconcileScheduledMachine, requireNamespace, hns.namespaced] at h
  simp only [Prog.ofExcept, Prog.bind_def, Prog.pure_bind, reconcileGuarded, hns.leader, hns.assigned, hns.alive,
    hns.finalizer, reconcileInner, requireNamespace, hns.namespaced, hns.valid, hkill, checkEmergencyReclaim, hnode,
    Bool.not_true, Bool.false_eq_true, if_false] at h
  rcases h.1 with hfalse | hresolved
  · exact hfalse
  · rcases hresolved .management rfl with hfallback | ⟨_, hmem, _⟩
    · cases hfallback
    · cases hmem

def isReclaimRead (sm : ScheduledMachine) (r : Req) : Prop :=
  ∃ nodeName, reclaimNode sm = some nodeName ∧ r = .api .management (.getNode nodeName)

/-- Every Node and Pod request of every reconcile goes to a resolved cluster if and only if the reconcile
does not get as far as looking for a reclaim request on a recorded Node; and that look is the only
request that goes elsewhere. -/
theorem node_requests_routed (ctx : Context) (sm : ScheduledMachine) :
    (Conforms (routing sm fun _ => False) (reconcileScheduledMachine ctx sm) someRoute .start ↔
        ¬(looksForReclaim ctx sm = true ∧ (reclaimNode sm).isSome = true)) ∧
      Conforms (routing sm (isReclaimRead sm)) (reconcileScheduledMachine ctx sm) someRoute .start := by
  refine ⟨⟨?_, fun hnot => routed_reconcile fun nodeName hlooks hnode => hnot ⟨hlooks, ?_⟩⟩, ?_⟩
  · rintro hrouted ⟨hlooks, hnode⟩
    obtain ⟨nodeName, hnode⟩ := Option.isSome_iff_exists.mp hnode
    exact not_routed_reconcile hlooks hnode hrouted
  · rw [hnode]
    rfl
  · exact routed_reconcile fun nodeName _ hnode => ⟨nodeName, hnode, rfl⟩

def childSpec : ScheduledMachineSpec := { demoSpec with kubeconfigSecretRef := some ⟨"edge-kubeconfig", "value"⟩ }

/-- An active machine on `node-1` of a cluster with a kubeconfig of its own. -/
def childMachine : ScheduledMachine where
  metadata := ⟨"spot", some "team", some "uid-1", none, some [Constants.finalizerScheduledMachine]⟩
  spec := childSpec
  status := some { ScheduledMachineStatus.blank with
    phase := some .active
    nodeRef := some ⟨"v1", "Node", "node-1", none⟩ }

theorem reclaim_read_misrouted : ¬∀ (ctx : Context) (sm : ScheduledMachine),
    Conforms (routing sm fun _ => False) (reconcileScheduledMachine ctx sm) someRoute .start := by
  intro hrouted
  exact not_routed_reconcile (by decide +kernel) rfl (hrouted demoContext childMachine)

end FiveSpot
