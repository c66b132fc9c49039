import FiveSpot.Discipline.Helpers

/-! # Writers under the rules

The helpers that have effects: phase writes, creation and deletion of the owned objects, drains
and taint writes.
-/

namespace FiveSpot

set_option autoImplicit false

open Interaction

variable {ctx : Context} {sm : ScheduledMachine} {t : List Obs} {ns : String}

theorem conforms_api {client : Client} {call : ApiCall}
    {Q : Except ReconcilerError (Except KubeError call.Answer) → List Obs → Prop}
    (hlegal : ∀ effect, effectOfCall client call = some effect → Legal ctx sm t effect)
    (hQ : ∀ answer, Q (.ok answer) (obsOfCall client call answer :: t)) :
    Conforms (discipline ctx sm) (api client call) Q t := ⟨hlegal, hQ⟩

theorem conforms_local {op : LocalOp} {Q : Except ReconcilerError op.Answer → List Obs → Prop}
    (hQ : ∀ answer, Q (.ok answer) ((obsOf (.loc op) answer).toList ++ t)) :
    Conforms (discipline ctx sm) (local_ op) Q t :=
  ⟨fun _ heffect => (nomatch heffect), hQ⟩

section

variable {α : Type} {Q : Except ReconcilerError α → List Obs → Prop} {a : α} {e : KubeError}

@[simp] theorem conforms_orKubeError_ok :
    Conforms (discipline ctx sm) (orKubeError (.ok a)) Q t ↔ Q (.ok a) t := Iff.rfl

@[simp] theorem conforms_orKubeError_error :
    Conforms (discipline ctx sm) (orKubeError (.error e : Except KubeError α)) Q t ↔
      Q (.error (.kubeError e)) t := Iff.rfl

@[simp] theorem conforms_orError_ok {f : KubeError → ReconcilerError} :
    Conforms (discipline ctx sm) (orError f (.ok a)) Q t ↔ Q (.ok a) t := Iff.rfl

@[simp] theorem conforms_orError_error {f : KubeError → ReconcilerError} :
    Conforms (discipline ctx sm) (orError f (.error e : Except KubeError α)) Q t ↔ Q (.error (f e)) t :=
  Iff.rfl

end

theorem read_call {client : Client} {call : ApiCall} (answer : Except KubeError call.Answer)
    (hcall : effectOfCall client call = none) (t : List Obs) : Read t (obsOfCall client call answer :: t) :=
  Read.cons (obsOfCall_isRead answer hcall) t

@[simp] theorem conforms_publishBestEffort {event : KubeEvent}
    {Q : Except ReconcilerError Unit → List Obs → Prop} :
    Conforms (discipline ctx sm) (publishBestEffort event) Q t ↔ Q (.ok ()) (.other :: t) := by
  constructor
  · intro h
    exact h.2 (.ok ())
  · intro h
    refine ⟨fun _ heffect => (nomatch heffect), fun answer => ?_⟩
    cases answer <;> exact h

/-! ## Phase writes -/

theorem conforms_writePhase {name reason message : String} {fromPhase : Option Phase} {target : Phase}
    {inSchedule : Bool} {Q : Except ReconcilerError Unit → List Obs → Prop}
    (hlegal : ∀ u conditions, Read t u → Stamped u conditions reason →
      Legal ctx sm u (.phase target conditions))
    (hok : ∀ u, Read t u → Q (.ok ()) (.phase target true :: u))
    (herror : ∀ u e, Read t u → Q (.error e) (.phase target false :: u)) :
    Conforms (discipline ctx sm) (writePhase ns name fromPhase target reason message inSchedule) Q t := by
  simp only [writePhase, Prog.bind_def, conforms_bind, conforms_publishBestEffort, continue_ok]
  refine conforms_local fun now => ?_
  have hread : Read t (.clock now :: .other :: t) := (Read.cons rfl t).trans (Read.cons rfl _)
  rw [continue_ok, conforms_bind]
  refine conforms_api ?_ ?_
  · intro effect heffect
    cases heffect
    exact hlegal _ _ hread ⟨now, _, message, rfl, rfl⟩
  · intro answer
    cases answer with
    | ok _ => exact hok _ hread
    | error e => exact herror _ _ hread

/-! ## Deletion -/

theorem conforms_deleteResource {ar : ApiResource} {name context : String}
    {Q : Except ReconcilerError Unit → List Obs → Prop}
    (hlegal : Legal ctx sm t (.delete (ar.key ns name)))
    (hok : Q (.ok ()) (.cleared (ar.key ns name) :: t)) (herror : ∀ e, Q (.error e) (.other :: t)) :
    Conforms (discipline ctx sm) (deleteResource ar ns name context) Q t := by
  rw [deleteResource, Prog.bind_def, conforms_bind]
  refine conforms_api ?_ ?_
  · intro effect heffect
    cases heffect
    exact hlegal
  · intro answer
    rw [continue_ok]
    cases answer with
    | ok _ => exact hok
    | error e =>
      dsimp only
      by_cases he : e.isNotFound = true
      · simpa [obsOfCall, he] using hok
      · simpa [obsOfCall, he] using herror _

theorem conforms_deleteEmbedded {embedded : EmbeddedResource}
    {Q : Except ReconcilerError Unit → List Obs → Prop} (hns : sm.metadata.ns = some ns)
    (hlegal : ∀ key ∈ (embeddedKey ctx sm embedded), Legal ctx sm t (.delete key))
    (hok : ∀ u, Deleting t u → (∀ key ∈ embeddedKey ctx sm embedded, .cleared key ∈ u) → Q (.ok ()) u)
    (herror : ∀ e, Q (.error e) (.other :: t)) :
    Conforms (discipline ctx sm) (deleteEmbedded ctx ns sm.metadata.name embedded) Q t := by
  unfold deleteEmbedded
  split
  · rename_i apiVersion kind hapi hkind
    have hkey : embeddedKey ctx sm embedded =
        some ((dynamicResource ctx apiVersion kind).key ns sm.metadata.name) := by
      simp [embeddedKey, hapi, hkind, hns]
    refine conforms_deleteResource (hlegal _ hkey) (hok _ (Seen.cons (fun _ => ⟨_, rfl⟩) t) ?_) herror
    intro key hmem
    rw [Option.mem_def, hkey, Option.some.injEq] at hmem
    rw [hmem]
    exact List.mem_cons_self
  · rename_i hnone
    refine hok t (.refl t) fun key hkey => ?_
    unfold embeddedKey at hkey
    split at hkey
    · rename_i apiVersion kind hapi hkind
      exact absurd hkind (hnone apiVersion kind hapi)
    · cases hkey

/-- Deleting the owned objects: each one is legal to delete after any of the others, and a normal
return means that all are gone. -/
theorem conforms_removeMachineFromCluster {Q : Except ReconcilerError Unit → List Obs → Prop}
    (hns : sm.metadata.ns = some ns)
    (hlegal : ∀ u key, Deleting t u → key ∈ ownedKeys ctx sm → Legal ctx sm u (.delete key))
    (hok : ∀ u, Deleting t u → Removed ctx sm u → Q (.ok ()) u)
    (herror : ∀ u e, Deleting t u → Q (.error e) u) :
    Conforms (discipline ctx sm) (removeMachineFromCluster ctx sm ns) Q t := by
  have hmachine : (machineResource ctx sm.spec).key ns sm.metadata.name ∈ ownedKeys ctx sm := by
    simp [ownedKeys, hns]
  have hbootstrap : ∀ key ∈ embeddedKey ctx sm sm.spec.bootstrapSpec, key ∈ ownedKeys ctx sm := by
    intro key hkey
    simp [ownedKeys, Option.mem_def.mp hkey]
  have hinfra : ∀ key ∈ embeddedKey ctx sm sm.spec.infrastructureSpec, key ∈ ownedKeys ctx sm := by
    intro key hkey
    simp [ownedKeys, Option.mem_def.mp hkey]
  simp only [removeMachineFromCluster, Prog.bind_def, conforms_bind]
  have hfirst : Deleting t (.cleared ((machineResource ctx sm.spec).key ns sm.metadata.name) :: t) :=
    Seen.cons (fun _ => ⟨_, rfl⟩) t
  have hother : ∀ u, Deleting u (.other :: u) := fun u => (Read.cons rfl u).deleting
  refine conforms_deleteResource (hlegal t _ (.refl t) hmachine) ?_ fun e => herror _ e (hother t)
  rw [continue_ok, conforms_bind]
  refine conforms_deleteEmbedded hns (fun key hkey => hlegal _ _ hfirst (hbootstrap key hkey))
    (fun u hu hcleared => ?_) fun e => herror _ e (hfirst.trans (hother _))
  rw [continue_ok]
  refine conforms_deleteEmbedded hns
    (fun key hkey => hlegal _ _ (hfirst.trans hu) (hinfra key hkey))
    (fun v hv hclearedInfra => hok v ((hfirst.trans hu).trans hv) ?_)
    fun e => herror _ e ((hfirst.trans hu).trans (hother _))
  intro key hkey
  simp only [ownedKeys, hns, Option.getD_some, List.mem_cons, List.mem_append, Option.mem_toList] at hkey
  rcases hkey with rfl | hkey | hkey
  · exact hv.mem (hu.mem List.mem_cons_self)
  · exact hv.mem (hcleared key hkey)
  · exact hclearedInfra key hkey

/-! ## Creation -/

theorem conforms_createDynamicResource {apiVersion kind name context : String} {body : Json}
    {Q : Except ReconcilerError Unit → List Obs → Prop}
    (hlegal : Legal ctx sm t (.create ((dynamicResource ctx apiVersion kind).key ns name)))
    (hok : Q (.ok ()) (.created ((dynamicResource ctx apiVersion kind).key ns name) :: t))
    (herror : ∀ e, Q (.error e) (.other :: t)) :
    Conforms (discipline ctx sm) (createDynamicResource ctx ns apiVersion kind name body context) Q t := by
  rw [createDynamicResource, Prog.bind_def, conforms_bind]
  refine conforms_api ?_ ?_
  · intro effect heffect
    cases heffect
    exact hlegal
  · intro answer
    rw [continue_ok]
    cases answer with
    | ok _ => exact hok
    | error e =>
      dsimp only
      by_cases he : e.isAlreadyExists = true
      · simpa [obsOfCall, he] using hok
      · simpa [obsOfCall, he] using herror _

theorem machineApiVersionFor_plain (ctx : Context) (bootstrapApiVersion : Option String) :
    '/' ∉ (machineApiVersionFor ctx bootstrapApiVersion).toList := by
  unfold machineApiVersionFor
  split
  · rename_i version hversion
    split
    · exact ctx.capiMachineApiVersion_plain
    · obtain ⟨⟨group, v⟩, hsplit, rfl⟩ := Option.map_eq_some_iff.mp hversion
      obtain ⟨apiVersion, -, hsplit⟩ := Option.bind_eq_some_iff.mp hsplit
      exact Text.not_mem_of_rsplitOnce hsplit
  · exact ctx.capiMachineApiVersion_plain

/-- Created as a dynamic resource and deleted by its fixed plural, the Machine is one object. -/
theorem dynamicResource_machine_key (ctx : Context) (spec : ScheduledMachineSpec) (plan : CapiPlan)
    (ns name : String) :
    (dynamicResource ctx (plan.machineApiVersion ctx) "Machine").key ns name =
      (machineResource ctx spec).key ns name := by
  have hparse : parseApiVersion (plan.machineApiVersion ctx) =
      (Constants.capiGroup, machineApiVersionFor ctx (some plan.bootstrapApiVersion)) := by
    have hsplit := Text.rsplitOnce_append (g := Constants.capiGroup)
      (machineApiVersionFor_plain ctx (some plan.bootstrapApiVersion))
    have htext : Char.toString '/' = "/" := rfl
    rw [htext] at hsplit
    rw [parseApiVersion, CapiPlan.machineApiVersion, hsplit]
    rfl
  have hplural : resourcePlural ctx "Machine" = Constants.capiResourceMachines := by
    rw [resourcePlural, ctx.lowercase.ascii "Machine" (by decide)]
    decide
  simp [dynamicResource, ApiResource.key, machineResource, hparse, hplural]

theorem requireField_eq_ok {value : Option String} {text s : String}
    (h : requireField value text = .ok s) : value = some s := by
  cases value with
  | none => cases h
  | some v => cases h; rfl

theorem planCapi_eq_ok {spec : ScheduledMachineSpec} {plan : CapiPlan} (h : planCapi spec = .ok plan) :
    (spec.bootstrapSpec.apiVersion = some plan.bootstrapApiVersion ∧
      spec.bootstrapSpec.kind = some plan.bootstrapKind ∧
      spec.infrastructureSpec.apiVersion = some plan.infraApiVersion ∧
      spec.infrastructureSpec.kind = some plan.infraKind) ∧
    validateApiGroup plan.bootstrapApiVersion Constants.allowedBootstrapApiGroups "bootstrap" = .ok () ∧
      validateApiGroup plan.infraApiVersion Constants.allowedInfrastructureApiGroups "infrastructure" = .ok () := by
  obtain ⟨bootstrapApiVersion, hba, h⟩ := except_bind_eq_ok_iff.mp h
  obtain ⟨bootstrapKind, hbk, h⟩ := except_bind_eq_ok_iff.mp h
  obtain ⟨infraApiVersion, hia, h⟩ := except_bind_eq_ok_iff.mp h
  obtain ⟨infraKind, hik, h⟩ := except_bind_eq_ok_iff.mp h
  obtain ⟨_, -, h⟩ := except_bind_eq_ok_iff.mp h
  obtain ⟨_, -, h⟩ := except_bind_eq_ok_iff.mp h
  obtain ⟨_, hbootstrap, h⟩ := except_bind_eq_ok_iff.mp h
  obtain ⟨_, hinfra, h⟩ := except_bind_eq_ok_iff.mp h
  cases h
  refine ⟨⟨requireField_eq_ok hba, requireField_eq_ok hbk, requireField_eq_ok hia, requireField_eq_ok hik⟩, ?_⟩
  exact ⟨hbootstrap, hinfra⟩

/-- Creating the owned objects: each one is legal to create after any of the others, and a normal
return means that all are there. -/
theorem conforms_addMachineToCluster {Q : Except ReconcilerError Unit → List Obs → Prop}
    (hns : sm.metadata.ns = some ns)
    (hlegal : ∀ u key, Creating t u → key ∈ ownedKeys ctx sm → Legal ctx sm u (.create key))
    (hok : ∀ u, Creating t u → FullyNamed ctx sm → (∀ key ∈ ownedKeys ctx sm, .created key ∈ u) → Q (.ok ()) u)
    (herror : ∀ u e, Creating t u → Q (.error e) u) :
    Conforms (discipline ctx sm) (addMachineToCluster ctx sm ns) Q t := by
  unfold addMachineToCluster
  refine conforms_bind_ofExcept (fun plan hplan => ?_) fun e _ => herror t e (.refl t)
  obtain ⟨⟨hba, hbk, hia, hik⟩, -⟩ := planCapi_eq_ok hplan
  refine conforms_bind_harmless (issues_ensureCanCreate (fun _ => rfl) ..) (fun _ u₁ hu₁ => ?_)
    fun e u hu => herror u e hu.creating
  refine conforms_bind_harmless (issues_ensureCanCreate (fun _ => rfl) ..) (fun _ u₂ hu₂ => ?_)
    fun e u hu => herror u e (hu₁.trans hu).creating
  refine conforms_bind_harmless (issues_ensureCanCreate (fun _ => rfl) ..) (fun _ u₃ hu₃ => ?_)
    fun e u hu => herror u e ((hu₁.trans hu₂).trans hu).creating
  have hread : Creating t u₃ := ((hu₁.trans hu₂).trans hu₃).creating
  refine conforms_bind_ofExcept (fun uid _ => ?_) fun e _ => herror u₃ e hread
  have hcreated : ∀ (u : List Obs) (key : ObjKey), Creating u (.created key :: u) :=
    fun u key => Seen.cons (fun _ => ⟨key, rfl⟩) u
  have hbootstrap : embeddedKey ctx sm sm.spec.bootstrapSpec =
      some ((dynamicResource ctx plan.bootstrapApiVersion plan.bootstrapKind).key ns sm.metadata.name) := by
    simp [embeddedKey, hba, hbk, hns]
  have hinfra : embeddedKey ctx sm sm.spec.infrastructureSpec =
      some ((dynamicResource ctx plan.infraApiVersion plan.infraKind).key ns sm.metadata.name) := by
    simp [embeddedKey, hia, hik, hns]
  have hmachine := dynamicResource_machine_key ctx sm.spec plan ns sm.metadata.name
  rw [Prog.bind_def, conforms_bind]
  have hother : ∀ u, Creating u (.other :: u) := fun u => (Read.cons rfl u).creating
  refine conforms_createDynamicResource (hlegal _ _ hread ?_) ?_ fun e => herror _ e (hread.trans (hother _))
  · simp [ownedKeys, hbootstrap]
  have hfirst := hread.trans (hcreated u₃
    ((dynamicResource ctx plan.bootstrapApiVersion plan.bootstrapKind).key ns sm.metadata.name))
  rw [continue_ok, Prog.bind_def, conforms_bind]
  refine conforms_createDynamicResource (hlegal _ _ hfirst ?_) ?_ fun e => herror _ e (hfirst.trans (hother _))
  · simp [ownedKeys, hinfra]
  have hsecond := hfirst.trans (hcreated _
    ((dynamicResource ctx plan.infraApiVersion plan.infraKind).key ns sm.metadata.name))
  rw [continue_ok]
  refine conforms_createDynamicResource (hlegal _ _ hsecond ?_) ?_ fun e => herror _ e (hsecond.trans (hother _))
  · simp [ownedKeys, hmachine, hns]
  have hnamed : FullyNamed ctx sm := by simp [FullyNamed, hbootstrap, hinfra]
  refine hok _ (hsecond.trans (hcreated _ _)) hnamed fun key hkey => ?_
  simp only [ownedKeys, hbootstrap, hinfra, hns, ← hmachine, Option.getD_some, Option.toList_some,
    List.mem_cons, List.mem_append, List.not_mem_nil, or_false] at hkey
  rcases hkey with rfl | rfl | rfl <;> simp

/-! ## Draining -/

theorem conforms_evictPods {client : Client} {nodeName : String} {timeoutSecs start : Nat}
    {Q : Except ReconcilerError Unit → List Obs → Prop} (pods : List Pod)
    (hlegal : ∀ u, Read t u → Legal ctx sm u (.evict client)) (hQ : ∀ x u, Read t u → Q x u) :
    Conforms (discipline ctx sm) (evictPods client nodeName timeoutSecs start pods) Q t := by
  induction pods generalizing t with
  | nil => exact hQ _ _ (.refl t)
  | cons pod rest ih =>
    unfold evictPods
    refine conforms_bind_harmless (harmless_local _) (fun now u hu => ?_) fun e u hu => hQ _ u hu
    split
    · exact hQ _ u hu
    · simp only [evictPod, Prog.bind_def, conforms_bind]
      refine conforms_api ?_ fun answer => ?_
      · intro effect heffect
        cases heffect
        exact hlegal u hu
      · have hread : Read t (.other :: u) := hu.trans (Read.cons rfl u)
        have hrest := ih (fun v hv => hlegal v (hread.trans hv)) fun x v hv => hQ x v (hread.trans hv)
        rw [continue_ok]
        cases answer with
        | ok _ => exact hrest
        | error e =>
          dsimp only
          split
          · exact hrest
          · split
            · exact hQ _ _ hread
            · exact hQ _ _ hread

theorem conforms_drainNodeWithTimeout {client : Client} {nodeName : String} {timeoutSecs : Nat}
    {Q : Except ReconcilerError Unit → List Obs → Prop}
    (hdrain : ∀ u, Read t u → Legal ctx sm u (.drain client nodeName))
    (hevict : ∀ u, Read t u → .pods client nodeName ∈ u → Legal ctx sm u (.evict client))
    (hQ : ∀ x u, Read t u → Q x u) :
    Conforms (discipline ctx sm) (drainNodeWithTimeout client nodeName timeoutSecs) Q t := by
  simp only [drainNodeWithTimeout, cordonNode, Prog.bind_def, conforms_bind]
  refine conforms_api ?_ fun answer => ?_
  · intro effect heffect
    cases heffect
    exact hdrain t (.refl t)
  have hcordoned : Read t (.other :: t) := Read.cons rfl t
  cases answer with
  | error e => exact hQ _ _ hcordoned
  | ok _ =>
    simp only [continue_ok, conforms_orError_ok, conforms_bind]
    refine conforms_api ?_ fun answer => ?_
    · intro effect heffect
      cases heffect
      exact hdrain _ hcordoned
    cases answer with
    | error e => exact hQ _ _ (hcordoned.trans (Read.cons rfl _))
    | ok pods =>
      have hlisted : Read t (.pods client nodeName :: .other :: t) := hcordoned.trans (Read.cons rfl _)
      simp only [continue_ok, conforms_bind, conforms_orError_ok]
      split
      · exact hQ _ _ hlisted
      · refine conforms_bind_harmless (harmless_local _) (fun start u hu => ?_)
          fun e u hu => hQ _ u (hlisted.trans hu)
        refine conforms_evictPods _ (fun v hv => hevict v ((hlisted.trans hu).trans hv) ?_)
          fun x v hv => hQ x v ((hlisted.trans hu).trans hv)
        exact hv.mem (hu.mem List.mem_cons_self)

/-! ## Grace period -/

theorem conforms_checkGracePeriodElapsed {Q : Except ReconcilerError Bool → List Obs → Prop}
    (hok : ∀ u elapsed, Read t u → (elapsed = true → GraceOver sm u) → Q (.ok elapsed) u)
    (herror : ∀ e, Q (.error e) t) : Conforms (discipline ctx sm) (checkGracePeriodElapsed sm) Q t := by
  unfold checkGracePeriodElapsed
  split
  · exact herror _
  · rename_i status hstatus
    split
    · rename_i hstart
      exact hok t true (.refl t) fun _ => ⟨status, hstatus, .inl hstart⟩
    · exact herror _
    · rename_i start hstart
      generalize htimeout : parseDuration sm.spec.gracefulShutdownTimeout = duration
      refine conforms_bind_ofExcept (fun timeout hduration => ?_) fun e _ => herror e
      rw [Prog.bind_def, conforms_bind]
      refine conforms_local fun now => ?_
      rw [continue_ok, Prog.pure_def, conforms_pure]
      refine hok (.clock now :: t) (graceOver start now timeout) (Read.cons rfl t) fun hover => ?_
      exact ⟨status, hstatus, .inr ⟨start, timeout, now, hstart, htimeout.trans hduration, List.mem_cons_self, hover⟩⟩

/-! ## Schedule -/

theorem conforms_resolveSpotSchedule {reference : SpotScheduleRef}
    {Q : Except ReconcilerError SpotScheduleVerdict → List Obs → Prop}
    (hok : ∀ verdict u, Read t u → (verdict.isResolved = true → ProviderRead verdict u) → Q (.ok verdict) u)
    (herror : ∀ e u, Q (.error e) u) : Conforms (discipline ctx sm) (resolveSpotSchedule ns reference) Q t := by
  unfold resolveSpotSchedule
  dsimp only
  rw [Prog.bind_def, conforms_bind]
  refine conforms_api (fun _ heffect => (nomatch heffect)) fun answer => ?_
  rw [continue_ok]
  cases answer with
  | error e => exact hok _ _ (read_call _ rfl t) fun hresolved => (nomatch hresolved)
  | ok ar =>
    have hpinned : Read t (.pinned :: t) := Read.cons rfl t
    dsimp only
    rw [Prog.bind_def, conforms_bind]
    refine conforms_api (fun _ heffect => (nomatch heffect)) fun answer => ?_
    rw [continue_ok]
    cases answer with
    | ok provider => exact hok _ _ (hpinned.trans (Read.cons rfl _)) fun _ => ⟨_, provider, t, rfl, rfl⟩
    | error e =>
      dsimp only
      split
      · exact hok _ _ (hpinned.trans (Read.cons rfl _)) fun hresolved => (nomatch hresolved)
      · exact herror _ _

theorem conforms_persistSpotScheduleStatus {name : String} {verdict : SpotScheduleVerdict}
    {Q : Except ReconcilerError Unit → List Obs → Prop}
    (hread : verdict.isResolved = true → ProviderRead verdict t)
    (hlegal : ∀ u time, Read t u → (verdict.isResolved = true → VerdictRead verdict u) →
      Legal ctx sm u (.schedule (spotScheduleStatus verdict sm.lastKnownSpotActive time)))
    (hQ : ∀ x u, Creating t u → Q x u) :
    Conforms (discipline ctx sm) (persistSpotScheduleStatus ns name verdict sm.lastKnownSpotActive) Q t := by
  have hpatch : ∀ u time, Read t u → (verdict.isResolved = true → VerdictRead verdict u) →
      Conforms (discipline ctx sm) ((api .management (.patchStatus ns name
        (.spotSchedule (spotScheduleStatus verdict sm.lastKnownSpotActive time)))).bind orKubeError) Q u := by
    intro u time hu hverdict
    rw [conforms_bind]
    refine conforms_api ?_ fun answer => ?_
    · intro effect heffect
      cases heffect
      exact hlegal u time hu hverdict
    · have hscheduled : Creating u (.scheduled :: u) := Seen.cons (fun hw => (nomatch hw)) u
      cases answer with
      | ok _ => exact hQ _ _ (hu.creating.trans hscheduled)
      | error e => exact hQ _ _ (hu.creating.trans hscheduled)
  simp only [persistSpotScheduleStatus, spotTransitionTime, Prog.bind_def]
  split
  · rw [conforms_bind, conforms_bind]
    refine conforms_local fun now => ?_
    rw [continue_ok, conforms_pure, continue_ok]
    exact hpatch _ _ (Read.cons rfl t) fun hresolved => .inr ⟨now, t, rfl, hread hresolved⟩
  · exact hpatch t none (.refl t) fun hresolved => .inl (hread hresolved)

/-! ## Taints -/

theorem conforms_reconcileNodeTaints {client : Client} {nodeName : String}
    {Q : Except ReconcilerError NodeTaintReconcileOutcome → List Obs → Prop} (ht : Untouched t)
    (hmachine : MachineOn sm nodeName t)
    (hlegal : ∀ u taints, Read t u → TaintWrite sm client nodeName taints u →
      Legal ctx sm u (.taints client nodeName taints))
    (happlied : ∀ u, Tainting t u → TaintsApplied sm u → Q (.ok (.applied sm.spec.nodeTaints)) u)
    (hother : ∀ x u, (∀ applied, x ≠ .ok (.applied applied)) → Q x u) :
    Conforms (discipline ctx sm)
      (reconcileNodeTaints client nodeName sm.spec.nodeTaints sm.appliedNodeTaints) Q t := by
  rw [reconcileNodeTaints, Prog.bind_def, conforms_bind]
  refine conforms_api (fun effect heffect => (nomatch heffect)) fun answer => ?_
  rw [continue_ok]
  cases answer with
  | error e =>
    dsimp only
    split
    · exact hother _ _ nofun
    · exact hother _ _ nofun
  | ok first =>
    have hfirst : Read t (.node client nodeName (some first) :: t) := Read.cons rfl t
    have hread : NodeRead sm client nodeName first (.node client nodeName (some first) :: t) := NodeRead.cons hmachine
    dsimp only
    split
    · exact hother _ _ nofun
    split
    · exact hother _ _ nofun
    rename_i hconflicts
    have hconflicts : (taintPlan sm first).conflicts = [] := by simpa [taintPlan] using hconflicts
    rw [Prog.bind_def, conforms_bind, applyNodeTaints]
    split
    · rename_i hnoop
      exact happlied _ hfirst.tainting
        ⟨client, nodeName, first, hread, hconflicts, .inl ⟨hnoop, ht.read hfirst⟩⟩
    · simp only [Prog.bind_def, conforms_bind]
      refine conforms_api (fun effect heffect => (nomatch heffect)) fun answer => ?_
      rw [continue_ok]
      cases answer with
      | error e => exact hother _ _ nofun
      | ok second =>
        have hsecond : Read t (.node client nodeName (some second) ::
          .node client nodeName (some first) :: t) := hfirst.trans (Read.cons rfl _)
        simp only [conforms_bind, conforms_orKubeError_ok, continue_ok]
        refine conforms_api ?_ fun answer => ?_
        · intro effect heffect
          cases heffect
          exact hlegal _ _ hsecond ⟨first, second, t, rfl, hmachine, hconflicts, rfl⟩
        · cases answer with
          | ok _ =>
            have hwritten : Tainting t (.tainted client nodeName true ::
                .node client nodeName (some second) :: .node client nodeName (some first) :: t) :=
              hsecond.tainting.trans (Seen.cons (fun _ => ⟨client, nodeName, true, rfl⟩) _)
            refine happlied _ hwritten ⟨client, nodeName, first, ?_, hconflicts, .inr List.mem_cons_self⟩
            exact hread.seen ((Seen.cons trivial _).trans (Seen.cons (P := fun _ => True) trivial _))
          | error e => exact hother _ _ nofun

theorem conforms_recordAppliedTaints {Q : Except ReconcilerError Unit → List Obs → Prop}
    (hlegal : Legal ctx sm t (.record sm.spec.nodeTaints)) (hQ : ∀ x u, Q x u) :
    Conforms (discipline ctx sm) (recordAppliedTaints sm (.applied sm.spec.nodeTaints)) Q t := by
  simp only [recordAppliedTaints]
  split
  · exact hQ _ t
  split
  · exact hQ _ t
  · simp only [patchAppliedNodeTaintsStatus, Prog.bind_def, conforms_bind]
    refine conforms_api ?_ fun answer => ?_
    · intro effect heffect
      cases heffect
      exact hlegal
    · cases answer with
      | ok _ => exact hQ _ _
      | error e => exact hQ _ _

end FiveSpot
