import FiveSpot.Cluster.History
import FiveSpot.Interaction.Execution

/-! # Removal under an edited spec

`remove_machine_from_cluster` derives what it deletes from the spec of the day, and takes any 404 for a
deletion. It undoes what was created under an earlier spec exactly if the new spec still names the same
objects through endpoints that are served.
-/

namespace FiveSpot

set_option autoImplicit false

open Interaction

def othersAct (w w' : World) : Prop := ∃ e, w' = interfere e w ∧ w'.env.serves = w.env.serves

/-- Others act, and the controller makes any further calls. -/
def Later : World → World → Prop :=
  Relation.ReflTransGen fun w w' => othersAct w w' ∨ ∃ r f, w' = (serve w r f).2

def ScheduledMachine.withSpec (sm : ScheduledMachine) (spec : ScheduledMachineSpec) : ScheduledMachine :=
  { sm with spec := spec }

@[simp] theorem ScheduledMachine.withSpec_spec (sm : ScheduledMachine) (spec : ScheduledMachineSpec) :
    (sm.withSpec spec).spec = spec := rfl

@[simp] theorem ScheduledMachine.withSpec_metadata (sm : ScheduledMachine) (spec : ScheduledMachineSpec) :
    (sm.withSpec spec).metadata = sm.metadata := rfl

def embeddedResource (ctx : Context) (embedded : EmbeddedResource) : Option ApiResource :=
  match embedded.apiVersion, embedded.kind with
  | some apiVersion, some kind => some (dynamicResource ctx apiVersion kind)
  | _, _ => none

def removalTargets (ctx : Context) (spec : ScheduledMachineSpec) : List ApiResource :=
  machineResource ctx spec ::
    ((embeddedResource ctx spec.bootstrapSpec).toList ++ (embeddedResource ctx spec.infrastructureSpec).toList)

section

variable (ctx : Context) (sm : ScheduledMachine) (served : ApiResource → Bool) (created removed : ScheduledMachineSpec)

/-- After a creation under one spec, a removal under the other that returns normally leaves nothing
undeleted, whatever happens in between and on the way. -/
def Undoes : Prop :=
  ∀ w₀ w₁ w₂ w₃ : World, w₀.env.serves = served →
    Runs serve othersAct w₀ (addMachineToCluster ctx (sm.withSpec created) (sm.metadata.ns.getD "")) (.ok ()) w₁ →
    Later w₁ w₂ →
    Runs serve othersAct w₂ (removeMachineFromCluster ctx (sm.withSpec removed) (sm.metadata.ns.getD "")) (.ok ()) w₃ →
    ∀ key ∈ ownedKeys ctx (sm.withSpec created), w₃.owns key = false

/-- The spec passes every check of `add_machine_to_cluster`, and its endpoints are served. -/
def Provisionable : Prop :=
  ∃ plan uid, planCapi created = .ok plan ∧ validateCapiMetadata (sm.withSpec created) = .ok uid ∧
    served (dynamicResource ctx plan.bootstrapApiVersion plan.bootstrapKind) = true ∧
    served (dynamicResource ctx plan.infraApiVersion plan.infraKind) = true ∧
    served (dynamicResource ctx (plan.machineApiVersion ctx) "Machine") = true

/-- Every object created under the first spec is named by the second through a served endpoint. -/
def Covers : Prop :=
  ∀ key ∈ ownedKeys ctx (sm.withSpec created), ∃ ar ∈ removalTargets ctx removed,
    ar.key (sm.metadata.ns.getD "") sm.metadata.name = key ∧ served ar = true

end

/-! ## What is served stays served -/

theorem serve_serves (w : World) (r : Req) (f : Fate) : (serve w r f).2.env.serves = w.env.serves := by
  cases r with
  | api client call =>
    exact serveApi_keeps (P := fun w' => w'.env.serves = w.env.serves) (fun _ _ h => h) rfl
      (fun _ _ h => (perform_static h).1) f
  | loc op => cases op <;> rfl
  | timer seconds => cases f <;> rfl

theorem Later.serves {w w' : World} (h : Later w w') : w'.env.serves = w.env.serves := by
  induction h with
  | refl => rfl
  | tail _ hstep ih =>
    rcases hstep with ⟨_, _, hserves⟩ | ⟨r, f, rfl⟩
    · exact hserves.trans ih
    · exact (serve_serves _ r f).trans ih

theorem serves_of_runs {ε α : Type} {p : Prog Resp ε α} {x : Except ε α} {w w' : World} {served : ApiResource → Bool}
    (h : Runs serve othersAct w p x w') (hw : w.env.serves = served) : w'.env.serves = served := by
  induction h with
  | pure => exact hw
  | fail => exact hw
  | call f _ ih => exact ih ((serve_serves _ _ f).trans hw)
  | act hact _ ih =>
    obtain ⟨_, -, hserves⟩ := hact
    exact ih (hserves.trans hw)

theorem serves_of_othersAct {w w' : World} (h : Relation.ReflTransGen othersAct w w') :
    w'.env.serves = w.env.serves := by
  induction h with
  | refl => rfl
  | tail _ hact ih =>
    obtain ⟨_, -, hserves⟩ := hact
    exact hserves.trans ih

/-! ## Deleted objects stay deleted -/

theorem owns_interfere {e : Interference} {w : World} {key : ObjKey} (h : (interfere e w).owns key = true) :
    w.owns key = true := by
  cases e with
  | replace env keep =>
    simp only [interfere, World.owns, World.live, Bool.and_eq_true, Bool.or_eq_true, Bool.not_eq_true'] at h ⊢
    obtain ⟨⟨⟨⟨⟨hmade, -⟩, hobject⟩, -⟩, hterminating⟩, -, hlive⟩ := h
    refine ⟨hmade, hobject, ?_⟩
    rcases hterminating with hno | hyes
    · exact hno
    · rw [hyes] at hlive
      cases hlive
  | editSpec spec => cases hsm : w.sm <;> simp [interfere, hsm, World.record, World.setSm] at h <;> exact h
  | requestDeletion => cases hsm : w.sm <;> simp [interfere, hsm, World.record, World.setSm] at h <;> exact h
  | _ => exact h

theorem not_owns_othersAct {w w' : World} {key : ObjKey} (hact : othersAct w w') (h : w.owns key = false) :
    w'.owns key = false := by
  obtain ⟨e, rfl, -⟩ := hact
  by_contra hyes
  rw [owns_interfere (Bool.of_not_eq_false hyes)] at h
  cases h

def isDelete : Req → Prop
  | .api .management (.delete _ _ _) => True
  | _ => False

theorem owns_terminate {w : World} {key key' : ObjKey} :
    (w.terminate key').owns key = (w.owns key && !decide (key = key')) := by
  by_cases hkey : key = key' <;> simp [World.terminate, World.owns, World.live, hkey]

theorem not_owns_serve {w : World} {r : Req} {f : Fate} {key : ObjKey} (hr : isDelete r) (h : w.owns key = false) :
    (serve w r f).2.owns key = false := by
  cases r with
  | loc op => exact hr.elim
  | timer seconds => exact hr.elim
  | api client call =>
    cases call with
    | delete ar ns name =>
      refine serveApi_keeps (P := fun w' => w'.owns key = false) (fun _ _ h => h) h ?_ f
      intro answer after hperform
      obtain ⟨_, _, heq⟩ := orNotFound_eq_ok hperform
      cases heq
      rw [owns_terminate, h, Bool.false_and]
    | _ => cases client <;> exact hr.elim

theorem not_owns_of_runs {p : Ctl Unit} {x : Except ReconcilerError Unit} {w w' : World} {key : ObjKey}
    (h : Runs serve othersAct w p x w') (hp : p.Issues isDelete) (hw : w.owns key = false) : w'.owns key = false :=
  h.keeps (J := fun w => w.owns key = false) (fun _ _ _ => not_owns_serve) (fun _ _ => not_owns_othersAct) hp hw

theorem not_owns_of_deleteResource {ar : ApiResource} {ns name context : String} {w w' : World}
    (h : Runs serve othersAct w (deleteResource ar ns name context) (.ok ()) w')
    (hserves : w.env.serves ar = true) : w'.owns (ar.key ns name) = false := by
  obtain ⟨w₁, f, hacts, hrest⟩ := Runs.of_call (r := Req.api .management (.delete ar ns name)) h
  have hserves₁ : w₁.env.serves ar = true := by rw [serves_of_othersAct hacts, hserves]
  have hserved : Served w₁ .management (.delete ar ns name) (serve w₁ (.api .management (.delete ar ns name)) f).1
      (serve w₁ (.api .management (.delete ar ns name)) f).2 := served w₁ .management (.delete ar ns name) f
  rw [Prog.pure_bind] at hrest
  generalize (serve w₁ (.api .management (.delete ar ns name)) f).1 = answer at hserved hrest
  generalize (serve w₁ (.api .management (.delete ar ns name)) f).2 = after at hserved hrest
  have hfault : ∀ fault : Fault, ¬Runs serve othersAct after
      (if fault.error.isNotFound then .pure () else .fail (.capiError (context ++ ": " ++ fault.error.text)) : Ctl Unit)
      (.ok ()) w' := by
    intro fault hrun
    rw [fault.unspecific.1] at hrun
    have hfail := Runs.of_ofExcept (y := .error (ReconcilerError.capiError (context ++ ": " ++ fault.error.text))) hrun
    cases hfail
  cases hserved with
  | done hdone =>
    refine not_owns_of_runs hrest trivial ?_
    obtain ⟨_, _, heq⟩ := orNotFound_eq_ok hdone
    cases heq
    have hgone : (w₁.terminate (ar.key ns name)).owns (ar.key ns name) = false := by simp [owns_terminate]
    exact hgone
  | refused hrefused =>
    have hissues : ∀ e : KubeError, ((if e.isNotFound then .pure () else
        .fail (.capiError (context ++ ": " ++ e.text)) : Ctl Unit)).Issues isDelete := by
      intro e
      split <;> trivial
    refine not_owns_of_runs hrest (hissues _) ?_
    cases hobject : w₁.env.object (ar.key ns name) with
    | none => simp [World.recordCall, World.record, World.owns, World.live, hobject]
    | some object => simp [perform, orNotFound, World.stored, hserves₁, hobject] at hrefused
  | failed fault => exact absurd hrest (hfault fault)
  | lost fault _ => exact absurd hrest (hfault fault)

theorem mem_ownedKeys {ctx : Context} {sm : ScheduledMachine} {key : ObjKey} :
    key ∈ ownedKeys ctx sm ↔
      ∃ ar ∈ removalTargets ctx sm.spec, ar.key (sm.metadata.ns.getD "") sm.metadata.name = key := by
  have hembedded : ∀ embedded, embeddedKey ctx sm embedded =
      (embeddedResource ctx embedded).map fun ar => ar.key (sm.metadata.ns.getD "") sm.metadata.name := by
    intro embedded
    simp only [embeddedKey, embeddedResource]
    cases embedded.apiVersion <;> cases embedded.kind <;> rfl
  simp only [ownedKeys, removalTargets, hembedded, List.mem_cons, List.mem_append, Option.mem_toList,
    Option.map_eq_some_iff, or_and_right, exists_or, exists_eq_left]
  exact or_congr eq_comm Iff.rfl

/-- A normal return leaves nothing undeleted that the spec names through a served endpoint. -/
theorem not_owns_of_remove {ctx : Context} {sm : ScheduledMachine} {ns : String} {w w' : World}
    (h : Runs serve othersAct w (removeMachineFromCluster ctx sm ns) (.ok ()) w') {ar : ApiResource}
    (har : ar ∈ removalTargets ctx sm.spec) (hserves : w.env.serves ar = true) :
    w'.owns (ar.key ns sm.metadata.name) = false := by
  obtain ⟨_, w₁, hmachine, h⟩ := Runs.of_bind_ok h
  obtain ⟨_, w₂, hbootstrap, hinfra⟩ := Runs.of_bind_ok h
  have hrest : ∀ {embedded v v'}, Runs serve othersAct v (deleteEmbedded ctx ns sm.metadata.name embedded) (.ok ()) v' →
      ar ∈ embeddedResource ctx embedded → v.env.serves ar = true → v'.owns (ar.key ns sm.metadata.name) = false := by
    intro embedded v v' hrun hmem hserves
    simp only [embeddedResource] at hmem
    simp only [deleteEmbedded] at hrun
    cases hapi : embedded.apiVersion with
    | none => simp [hapi] at hmem
    | some apiVersion =>
      cases hkind : embedded.kind with
      | none => simp [hapi, hkind] at hmem
      | some kind =>
        simp only [hapi, hkind] at hmem hrun
        cases hmem
        exact not_owns_of_deleteResource hrun hserves
  have hserves₁ : w₁.env.serves ar = true := by rw [serves_of_runs hmachine rfl, hserves]
  have hserves₂ : w₂.env.serves ar = true := by rw [serves_of_runs hbootstrap rfl, hserves₁]
  simp only [removalTargets, List.mem_cons, List.mem_append, Option.mem_toList] at har
  rcases har with rfl | har | har
  · have hgone := not_owns_of_deleteResource hmachine hserves
    have hgone₂ := not_owns_of_runs hbootstrap (issues_deleteEmbedded (fun _ => trivial) ..) hgone
    exact not_owns_of_runs hinfra (issues_deleteEmbedded (fun _ => trivial) ..) hgone₂
  · exact not_owns_of_runs hinfra (issues_deleteEmbedded (fun _ => trivial) ..) (hrest hbootstrap har hserves₁)
  · exact hrest hinfra har hserves₂

/-! ## What a creation needs -/

theorem served_of_createDynamicResource {ctx : Context} {ns apiVersion kind name context : String} {body : Json}
    {w w' : World} (h : Runs serve othersAct w (createDynamicResource ctx ns apiVersion kind name body context) (.ok ()) w') :
    w.env.serves (dynamicResource ctx apiVersion kind) = true := by
  obtain ⟨w₁, f, hacts, hrest⟩ := Runs.of_call (r := Req.api .management
    (.create (dynamicResource ctx apiVersion kind) ns name body)) h
  rw [← serves_of_othersAct hacts]
  by_contra hunserved
  have hfail : ∀ e : KubeError, e.isAlreadyExists = false →
      ¬Runs serve othersAct (serve w₁ (.api .management (.create (dynamicResource ctx apiVersion kind) ns name body)) f).2
        (if e.isAlreadyExists then .pure () else .fail (.capiError (context ++ e.text)) : Ctl Unit) (.ok ()) w' := by
    intro e he hrun
    rw [he] at hrun
    have hfail := Runs.of_ofExcept (y := .error (ReconcilerError.capiError (context ++ e.text))) hrun
    cases hfail
  have hperform : perform w₁ .management (.create (dynamicResource ctx apiVersion kind) ns name body) =
      .error notFoundError := by
    simp [perform, hunserved]
  rw [Prog.pure_bind] at hrest
  cases f with
  | ok =>
    simp only [serve, serveApi, hperform] at hrest hfail
    exact hfail notFoundError (by decide) hrest
  | fail fault =>
    simp only [serve, serveApi] at hrest hfail
    exact hfail fault.error fault.unspecific.2 hrest
  | lost fault =>
    simp only [serve, serveApi, hperform] at hrest hfail
    exact hfail fault.error fault.unspecific.2 hrest

theorem provisionable_of_runs {ctx : Context} {sm : ScheduledMachine} {spec : ScheduledMachineSpec} {ns : String}
    {w w' : World} (h : Runs serve othersAct w (addMachineToCluster ctx (sm.withSpec spec) ns) (.ok ()) w') :
    Provisionable ctx sm w.env.serves spec := by
  obtain ⟨plan, w₁, hplan, h⟩ := Runs.of_bind_ok h
  obtain ⟨_, w₂, hcan₁, h⟩ := Runs.of_bind_ok h
  obtain ⟨_, w₃, hcan₂, h⟩ := Runs.of_bind_ok h
  obtain ⟨_, w₄, hcan₃, h⟩ := Runs.of_bind_ok h
  obtain ⟨uid, w₅, hmetadata, h⟩ := Runs.of_bind_ok h
  obtain ⟨_, w₆, hbootstrap, h⟩ := Runs.of_bind_ok h
  obtain ⟨_, w₇, hinfra, hmachine⟩ := Runs.of_bind_ok h
  have hserves₅ : w₅.env.serves = w.env.serves :=
    serves_of_runs hmetadata (serves_of_runs hcan₃ (serves_of_runs hcan₂ (serves_of_runs hcan₁ (serves_of_runs hplan rfl))))
  have hserves₆ : w₆.env.serves = w.env.serves := serves_of_runs hbootstrap hserves₅
  have hserves₇ : w₇.env.serves = w.env.serves := serves_of_runs hinfra hserves₆
  refine ⟨plan, uid, (Runs.of_ofExcept hplan).symm, (Runs.of_ofExcept hmetadata).symm, ?_, ?_, ?_⟩
  · exact hserves₅ ▸ served_of_createDynamicResource hbootstrap
  · exact hserves₆ ▸ served_of_createDynamicResource hinfra
  · exact hserves₇ ▸ served_of_createDynamicResource hmachine

/-! ## A removal that misses -/

/-- Nothing stands in the way of a creation, and whatever exists is the controller's. -/
structure Fertile (served : ApiResource → Bool) (w : World) : Prop where
  serves : w.env.serves = served
  review : ∀ attributes, w.env.review attributes = some ⟨true, none⟩
  owned : ∀ key, (w.env.object key).isSome = true → w.owns key = true

/-- The program returns, and what the controller owns it still owns. -/
def Grows (served : ApiResource → Bool) (p : Ctl Unit) (w w' : World) : Prop :=
  p.exec serve .ok w = (.ok (), w') ∧ Fertile served w' ∧ ∀ key, w.owns key = true → w'.owns key = true

theorem exec_ensureCanCreate {served : ApiResource → Bool} {w : World} (h : Fertile served w) (ctx : Context)
    (ns apiVersion kind label : String) : ∃ w', Grows served (ensureCanCreate ctx ns apiVersion kind label) w w' := by
  refine ⟨w.recordCall .management (.accessReview ⟨Constants.rbacVerbCreate, (dynamicResource ctx apiVersion kind).group,
    (dynamicResource ctx apiVersion kind).version, (dynamicResource ctx apiVersion kind).plural, ns⟩) true none w, ?_,
    ⟨h.serves, h.review, h.owned⟩, fun _ hkey => hkey⟩
  simp [ensureCanCreate, api, Prog.request, Prog.exec, Prog.bind, serve, serveApi, perform, h.review, orKubeError]

theorem owns_addObject {w : World} {key key' : ObjKey} {value : Json} :
    (w.addObject key' value).owns key = (w.owns key || decide (key = key')) := by
  by_cases hkey : key = key' <;> simp [World.addObject, World.owns, World.live, hkey]

theorem exec_createDynamicResource {served : ApiResource → Bool} {w : World} (h : Fertile served w) {ctx : Context}
    {apiVersion kind : String} (hserved : served (dynamicResource ctx apiVersion kind) = true)
    (ns name context : String) (body : Json) :
    ∃ w', Grows served (createDynamicResource ctx ns apiVersion kind name body context) w w' ∧
      w'.owns ((dynamicResource ctx apiVersion kind).key ns name) = true := by
  have hserves : w.env.serves (dynamicResource ctx apiVersion kind) = true := h.serves ▸ hserved
  cases hobject : w.env.object ((dynamicResource ctx apiVersion kind).key ns name) with
  | some object =>
    have howned := h.owned ((dynamicResource ctx apiVersion kind).key ns name) (by rw [hobject]; rfl)
    refine ⟨w.recordCall .management (.create (dynamicResource ctx apiVersion kind) ns name body) false
      (some alreadyExistsError) w, ⟨?_, ⟨h.serves, h.review, h.owned⟩, fun _ hkey => hkey⟩, howned⟩
    have hexists : alreadyExistsError.isAlreadyExists = true := by decide
    simp [createDynamicResource, api, Prog.request, Prog.exec, Prog.bind, serve, serveApi, perform, hserves, hobject,
      hexists]
  | none =>
    refine ⟨w.recordCall .management (.create (dynamicResource ctx apiVersion kind) ns name body) true none
      (w.addObject ((dynamicResource ctx apiVersion kind).key ns name) body), ⟨?_, ⟨h.serves, h.review, ?_⟩, ?_⟩, ?_⟩
    · simp [createDynamicResource, api, Prog.request, Prog.exec, Prog.bind, serve, serveApi, perform, hserves, hobject]
    · intro key hkey
      change (w.addObject ((dynamicResource ctx apiVersion kind).key ns name) body).owns key = true
      rw [owns_addObject]
      by_cases hnew : key = (dynamicResource ctx apiVersion kind).key ns name
      · simp [hnew]
      · simp only [World.recordCall, World.record, World.addObject, if_neg hnew] at hkey
        rw [h.owned key hkey, Bool.true_or]
    · intro key hkey
      change (w.addObject ((dynamicResource ctx apiVersion kind).key ns name) body).owns key = true
      rw [owns_addObject, hkey, Bool.true_or]
    · change (w.addObject ((dynamicResource ctx apiVersion kind).key ns name) body).owns _ = true
      simp [owns_addObject]

/-- In a fertile world a provisionable spec is provisioned, and all its objects are then the controller's. -/
theorem exec_addMachineToCluster {served : ApiResource → Bool} {w : World} (h : Fertile served w) {ctx : Context}
    {sm : ScheduledMachine} {spec : ScheduledMachineSpec} (hspec : Provisionable ctx sm served spec) :
    ∃ w', (addMachineToCluster ctx (sm.withSpec spec) (sm.metadata.ns.getD "")).exec serve .ok w = (.ok (), w') ∧
      Fertile served w' ∧ ∀ key ∈ ownedKeys ctx (sm.withSpec spec), w'.owns key = true := by
  obtain ⟨plan, uid, hplan, hmetadata, hbootstrap, hinfra, hmachine⟩ := hspec
  obtain ⟨w₁, hexec₁, h₁, -⟩ := exec_ensureCanCreate h ctx (sm.metadata.ns.getD "") plan.bootstrapApiVersion
    plan.bootstrapKind "bootstrap"
  obtain ⟨w₂, hexec₂, h₂, -⟩ := exec_ensureCanCreate h₁ ctx (sm.metadata.ns.getD "") plan.infraApiVersion
    plan.infraKind "infrastructure"
  obtain ⟨w₃, hexec₃, h₃, -⟩ := exec_ensureCanCreate h₂ ctx (sm.metadata.ns.getD "") (plan.machineApiVersion ctx)
    "Machine" "machine"
  obtain ⟨w₄, ⟨hexec₄, h₄, -⟩, hown₄⟩ := exec_createDynamicResource h₃ hbootstrap (sm.metadata.ns.getD "")
    sm.metadata.name "Failed to create bootstrap resource: " (embeddedBody (sm.withSpec spec) (sm.metadata.ns.getD "")
      spec.bootstrapSpec plan.bootstrapApiVersion plan.bootstrapKind)
  obtain ⟨w₅, ⟨hexec₅, h₅, hkeep₅⟩, hown₅⟩ := exec_createDynamicResource h₄ hinfra (sm.metadata.ns.getD "")
    sm.metadata.name "Failed to create infrastructure resource: " (embeddedBody (sm.withSpec spec)
      (sm.metadata.ns.getD "") spec.infrastructureSpec plan.infraApiVersion plan.infraKind)
  obtain ⟨w₆, ⟨hexec₆, h₆, hkeep₆⟩, hown₆⟩ := exec_createDynamicResource h₅ hmachine (sm.metadata.ns.getD "")
    sm.metadata.name "Failed to create Machine: " (machineBody ctx (sm.withSpec spec) (sm.metadata.ns.getD "") uid plan)
  refine ⟨w₆, ?_, h₆, ?_⟩
  · simp only [addMachineToCluster, Prog.bind_def, ScheduledMachine.withSpec_spec, ScheduledMachine.withSpec_metadata,
      hplan, Prog.ofExcept, Prog.pure_bind]
    rw [Prog.exec_bind_ok hexec₁, Prog.exec_bind_ok hexec₂, Prog.exec_bind_ok hexec₃]
    simp only [hmetadata, Prog.pure_bind]
    rw [Prog.exec_bind_ok hexec₄, Prog.exec_bind_ok hexec₅]
    exact hexec₆
  · obtain ⟨⟨hba, hbk, hia, hik⟩, -⟩ := planCapi_eq_ok hplan
    intro key hkey
    simp only [mem_ownedKeys, removalTargets, ScheduledMachine.withSpec_spec, embeddedResource, hba, hbk, hia, hik,
      Option.toList_some, List.mem_cons, List.mem_append, List.not_mem_nil, or_false] at hkey
    obtain ⟨ar, rfl | rfl | rfl, rfl⟩ := hkey
    · rw [← dynamicResource_machine_key ctx spec plan]
      exact hown₆
    · exact hkeep₆ _ (hkeep₅ _ hown₄)
    · exact hkeep₆ _ hown₅

theorem exec_deleteResource (w : World) (ar : ApiResource) (ns name context : String) :
    ∃ w', (deleteResource ar ns name context).exec serve .ok w = (.ok (), w') ∧ w'.env.serves = w.env.serves ∧
      ∀ key, ¬(ar.key ns name = key ∧ w.env.serves ar = true) → w.owns key = true → w'.owns key = true := by
  cases hstored : w.stored ar ns name with
  | none =>
    refine ⟨w.recordCall .management (.delete ar ns name) false (some notFoundError) w, ?_, rfl, fun _ _ hkey => hkey⟩
    have hnotFound : notFoundError.isNotFound = true := by decide
    simp [deleteResource, api, Prog.request, Prog.exec, Prog.bind, serve, serveApi, perform, orNotFound, hstored,
      hnotFound]
  | some object =>
    refine ⟨w.recordCall .management (.delete ar ns name) true none (w.terminate (ar.key ns name)), ?_, rfl, ?_⟩
    · simp [deleteResource, api, Prog.request, Prog.exec, Prog.bind, serve, serveApi, perform, orNotFound, hstored]
    · intro key hother hkey
      have hne : key ≠ ar.key ns name := fun heq => hother ⟨heq.symm, (object_of_stored hstored).1⟩
      change (w.terminate (ar.key ns name)).owns key = true
      simp [owns_terminate, hkey, hne]

theorem exec_deleteEmbedded (w : World) (ctx : Context) (ns name : String) (embedded : EmbeddedResource) :
    ∃ w', (deleteEmbedded ctx ns name embedded).exec serve .ok w = (.ok (), w') ∧ w'.env.serves = w.env.serves ∧
      ∀ key, (∀ ar ∈ embeddedResource ctx embedded, ¬(ar.key ns name = key ∧ w.env.serves ar = true)) →
        w.owns key = true → w'.owns key = true := by
  simp only [deleteEmbedded, embeddedResource]
  cases embedded.apiVersion with
  | none => exact ⟨w, rfl, rfl, fun _ _ hkey => hkey⟩
  | some apiVersion =>
    cases embedded.kind with
    | none => exact ⟨w, rfl, rfl, fun _ _ hkey => hkey⟩
    | some kind =>
      obtain ⟨w', hexec, hserves, hkeep⟩ := exec_deleteResource w (dynamicResource ctx apiVersion kind) ns name
        s!"Failed to delete {kind} {name}"
      exact ⟨w', hexec, hserves, fun key hother => hkeep key (hother _ rfl)⟩

/-- An undisturbed removal returns, and leaves what the spec does not name through a served endpoint. -/
theorem exec_removeMachineFromCluster (w : World) (ctx : Context) (sm : ScheduledMachine) (ns : String) :
    ∃ w', (removeMachineFromCluster ctx sm ns).exec serve .ok w = (.ok (), w') ∧
      ∀ key, (∀ ar ∈ removalTargets ctx sm.spec, ¬(ar.key ns sm.metadata.name = key ∧ w.env.serves ar = true)) →
        w.owns key = true → w'.owns key = true := by
  obtain ⟨w₁, hexec₁, hserves₁, hkeep₁⟩ := exec_deleteResource w (machineResource ctx sm.spec) ns sm.metadata.name
    s!"Failed to delete Machine {sm.metadata.name}"
  obtain ⟨w₂, hexec₂, hserves₂, hkeep₂⟩ := exec_deleteEmbedded w₁ ctx ns sm.metadata.name sm.spec.bootstrapSpec
  obtain ⟨w₃, hexec₃, -, hkeep₃⟩ := exec_deleteEmbedded w₂ ctx ns sm.metadata.name sm.spec.infrastructureSpec
  refine ⟨w₃, ?_, fun key hother hkey => ?_⟩
  · simp only [removeMachineFromCluster, Prog.bind_def]
    rw [Prog.exec_bind_ok hexec₁, Prog.exec_bind_ok hexec₂]
    exact hexec₃
  · simp only [removalTargets, List.mem_cons, List.mem_append, Option.mem_toList] at hother
    have hfirst := hkeep₁ key (hother _ (.inl rfl)) hkey
    have hsecond := hkeep₂ key (fun ar har => hserves₁ ▸ hother ar (.inr (.inl har))) hfirst
    refine hkeep₃ key (fun ar har => ?_) hsecond
    rw [hserves₂, hserves₁]
    exact hother ar (.inr (.inr har))

def emptyWorld (served : ApiResource → Bool) : World :=
  { demoWorld with env := { demoEnv with object := fun _ => none, serves := served } }

theorem emptyWorld_fertile (served : ApiResource → Bool) : Fertile served (emptyWorld served) :=
  ⟨rfl, fun _ => rfl, fun _ hkey => (nomatch hkey)⟩

theorem covers_of_undoes {ctx : Context} {sm : ScheduledMachine} {served : ApiResource → Bool}
    {created removed : ScheduledMachineSpec} (h : Undoes ctx sm served created removed)
    (hcreated : Provisionable ctx sm served created) : Covers ctx sm served created removed := by
  obtain ⟨w₁, hadd, hfertile, howned⟩ := exec_addMachineToCluster (emptyWorld_fertile served) hcreated
  obtain ⟨w₂, hremove, hkeep⟩ := exec_removeMachineFromCluster w₁ ctx (sm.withSpec removed) (sm.metadata.ns.getD "")
  have hrun₁ := Runs.of_exec serve othersAct .ok
    (addMachineToCluster ctx (sm.withSpec created) (sm.metadata.ns.getD "")) (emptyWorld served)
  have hrun₂ := Runs.of_exec serve othersAct .ok
    (removeMachineFromCluster ctx (sm.withSpec removed) (sm.metadata.ns.getD "")) w₁
  rw [hadd] at hrun₁
  rw [hremove] at hrun₂
  intro key hkey
  by_contra hmissed
  have hleft : w₂.owns key = true := by
    refine hkeep key (fun ar har hcovered => hmissed ⟨ar, har, hcovered.1, ?_⟩) (howned key hkey)
    rw [← hfertile.serves]
    exact hcovered.2
  rw [h _ _ _ _ rfl hrun₁ .refl hrun₂ key hkey] at hleft
  cases hleft

/-- For every two specs: removal under the second undoes creation under the first if and only if the
first cannot be provisioned, or the second still names all its objects through served endpoints. -/
theorem removal_undoes_creation (ctx : Context) (sm : ScheduledMachine) (served : ApiResource → Bool)
    (created removed : ScheduledMachineSpec) : Undoes ctx sm served created removed ↔
      (Provisionable ctx sm served created → Covers ctx sm served created removed) := by
  constructor
  · exact covers_of_undoes
  · intro h w₀ w₁ w₂ w₃ hserves hadd hlater hremove key hkey
    have hcreated := provisionable_of_runs hadd
    rw [hserves] at hcreated
    obtain ⟨ar, har, rfl, hserved⟩ := h hcreated key hkey
    refine not_owns_of_remove hremove har ?_
    rw [hlater.serves, serves_of_runs hadd hserves]
    exact hserved

/-! ## A kind that was edited -/

/-- Another infrastructure kind of the same provider. -/
def editedSpec : ScheduledMachineSpec :=
  { demoSpec with infrastructureSpec :=
      ⟨.obj [("apiVersion", .str "infrastructure.cluster.x-k8s.io/v1beta1"), ("kind", .str "PooledMachine")]⟩ }

/-- After the edit the removal returns normally, with the old infrastructure object left behind. -/
theorem removal_misses_edited_kind : ¬∀ created removed : ScheduledMachineSpec,
    validateSpec created = .ok () → validateSpec removed = .ok () →
      Undoes demoContext demoMachine (fun _ => true) created removed := by
  intro hundoes
  have hcovers := covers_of_undoes (hundoes demoSpec editedSpec rfl rfl)
    ⟨⟨"bootstrap.cluster.x-k8s.io/v1beta1", "K0sWorkerConfig", "infrastructure.cluster.x-k8s.io/v1beta1", "RemoteMachine"⟩,
      "uid-1", rfl, rfl, rfl, rfl, rfl⟩
  obtain ⟨ar, har, hkey, -⟩ := hcovers ⟨"infrastructure.cluster.x-k8s.io", "remotemachines", "team", "spot"⟩
    (by decide +kernel)
  have hplural : ar.plural = "remotemachines" := congrArg ObjKey.plural hkey
  have hother : ∀ target ∈ removalTargets demoContext editedSpec, target.plural ≠ "remotemachines" := by decide +kernel
  exact hother ar har hplural

end FiveSpot
