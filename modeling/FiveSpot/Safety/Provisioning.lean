import FiveSpot.Safety.Labels
import FiveSpot.Interaction.Trace

/-! # Provisioning

`add_machine_to_cluster` checks everything before it creates anything, and creates three objects in order.
-/

namespace FiveSpot

set_option autoImplicit false

open Interaction

/-! ## Creates and reviews of a trace -/

structure Create where
  ar : ApiResource
  ns : String
  name : String
  body : Json

/-- The object is there after the call. -/
def createDone : Except KubeError Unit → Bool
  | .ok _ => true
  | .error e => e.isAlreadyExists

def createOf : Sigma Resp → Option (Create × Bool)
  | ⟨.api _ (.create ar ns name body), answer⟩ => some (⟨ar, ns, name, body⟩, createDone answer)
  | _ => none

/-- The creates of a trace, and which of them leave the object there. -/
def creates (trace : List (Sigma Resp)) : List (Create × Bool) := trace.filterMap createOf

theorem creates_append (first second : List (Sigma Resp)) :
    creates (first ++ second) = creates first ++ creates second := List.filterMap_append

/-- What is reviewed before objects of a type are created. -/
def createAttributes (ar : ApiResource) (ns : String) : ResourceAttributes :=
  ⟨Constants.rbacVerbCreate, ar.group, ar.version, ar.plural, ns⟩

def Create.attributes (c : Create) : ResourceAttributes := createAttributes c.ar c.ns

def allows : Except KubeError (Option SubjectAccessReviewStatus) → Bool
  | .ok (some status) => status.allowed
  | _ => false

/-- A review of exactly this create came back positive. -/
def Approved (trace : List (Sigma Resp)) (c : Create) : Prop :=
  ∃ answer, ⟨.api .management (.accessReview c.attributes), answer⟩ ∈ trace ∧ allows answer = true

/-- The errors of the checks. -/
def ReconcilerError.isRejection : ReconcilerError → Bool
  | .invalidConfig _ | .validationError _ | .permissionDenied _ | .kubeError _ => true
  | _ => false

/-! ## What is planned -/

def embeddedCreate (ctx : Context) (sm : ScheduledMachine) (ns : String) (embedded : EmbeddedResource)
    (apiVersion kind : String) : Create :=
  ⟨dynamicResource ctx apiVersion kind, ns, sm.metadata.name, embeddedBody sm ns embedded apiVersion kind⟩

def machineCreate (ctx : Context) (sm : ScheduledMachine) (ns uid : String) (plan : CapiPlan) : Create :=
  ⟨dynamicResource ctx (plan.machineApiVersion ctx) "Machine", ns, sm.metadata.name, machineBody ctx sm ns uid plan⟩

def plannedCreates (ctx : Context) (sm : ScheduledMachine) (ns uid : String) (plan : CapiPlan) : List Create :=
  [embeddedCreate ctx sm ns sm.spec.bootstrapSpec plan.bootstrapApiVersion plan.bootstrapKind,
    embeddedCreate ctx sm ns sm.spec.infrastructureSpec plan.infraApiVersion plan.infraKind,
    machineCreate ctx sm ns uid plan]

/-- The planned creates are made one after the other, up to the first that fails. -/
def Carried : List Create → List (Create × Bool) → Prop
  | [], made => made = []
  | c :: rest, made => made = [(c, false)] ∨ ∃ later, made = (c, true) :: later ∧ Carried rest later

section

variable {planned : List Create} {made : List (Create × Bool)}

theorem Carried.isPrefix (h : Carried planned made) : made.map Prod.fst <+: planned := by
  induction planned generalizing made with
  | nil =>
    rw [h]
    exact List.nil_prefix
  | cons c rest ih =>
    rcases h with rfl | ⟨later, rfl, hlater⟩
    · exact ⟨rest, rfl⟩
    · exact List.prefix_cons_inj c |>.mpr (ih hlater)

/-- If none fails, all are made. -/
theorem Carried.complete (h : Carried planned made) (hdone : ∀ entry ∈ made, entry.2 = true) :
    made = planned.map fun c => (c, true) := by
  induction planned generalizing made with
  | nil => exact h
  | cons c rest ih =>
    rcases h with rfl | ⟨later, rfl, hlater⟩
    · cases hdone _ List.mem_cons_self
    · rw [List.map_cons, ih hlater fun entry hentry => hdone entry (List.mem_cons_of_mem _ hentry)]

end

/-! ## Errors of the checks -/

/-- A check passes or rejects. -/
def Rejects {α : Type} (x : Except ReconcilerError α) : Prop := ∀ e, x = .error e → e.isRejection = true

section

variable {α β : Type}

theorem rejects_ok {a : α} : Rejects (.ok a) := nofun

theorem rejects_error {e : ReconcilerError} (h : e.isRejection = true) : Rejects (.error e : Except ReconcilerError α) := by
  rintro e' ⟨⟩
  exact h

theorem Rejects.bind {x : Except ReconcilerError α} {f : α → Except ReconcilerError β} (hx : Rejects x)
    (hf : ∀ a, Rejects (f a)) : Rejects (x >>= f) := by
  cases x with
  | ok a => exact hf a
  | error e => exact rejects_error (hx e rfl)

theorem rejects_requireField (value : Option String) (text : String) : Rejects (requireField value text) := by
  cases value with
  | none => exact rejects_error rfl
  | some s => exact rejects_ok

theorem rejects_validateClusterName (clusterName : String) : Rejects (validateClusterName clusterName) := by
  unfold validateClusterName
  split
  · exact rejects_error rfl
  · split
    · exact rejects_error rfl
    · split
      · exact rejects_ok
      · exact rejects_error rfl

theorem rejects_validateCommandsFrom (index : Nat) (commands : List String) :
    Rejects (validateCommandsFrom index commands) := by
  induction commands generalizing index with
  | nil => exact rejects_ok
  | cons command rest ih =>
    unfold validateCommandsFrom
    split
    · exact rejects_error rfl
    · split
      · exact rejects_error rfl
      · exact ih (index + 1)

theorem rejects_validateKillIfCommands (commands : Option (List String)) :
    Rejects (validateKillIfCommands commands) := by
  cases commands with
  | none => exact rejects_ok
  | some commands =>
    unfold validateKillIfCommands
    dsimp only
    split
    · exact rejects_error rfl
    · exact rejects_validateCommandsFrom 0 commands

theorem rejects_validateApiGroup (apiVersion : String) (allowed : List String) (resourceType : String) :
    Rejects (validateApiGroup apiVersion allowed resourceType) := by
  unfold validateApiGroup
  split
  · exact rejects_error rfl
  · split
    · exact rejects_ok
    · exact rejects_error rfl

theorem rejects_validateLabels (labels : StringMap) (field : String) : Rejects (validateLabels labels field) := by
  induction labels with
  | nil => exact rejects_ok
  | cons entry rest ih =>
    unfold validateLabels
    split
    · exact rejects_error rfl
    · exact ih

theorem rejects_validateEmbeddedMetadata (embedded : EmbeddedResource) (field : String) :
    Rejects (validateEmbeddedMetadata embedded field) := by
  unfold validateEmbeddedMetadata
  split
  · exact rejects_error rfl
  · split
    · exact rejects_error rfl
    · exact (rejects_validateLabels _ _).bind fun _ => rejects_validateLabels _ _

theorem rejects_planCapi (spec : ScheduledMachineSpec) : Rejects (planCapi spec) := by
  refine (rejects_requireField _ _).bind fun _ => (rejects_requireField _ _).bind fun _ => ?_
  refine (rejects_requireField _ _).bind fun _ => (rejects_requireField _ _).bind fun _ => ?_
  refine (rejects_validateClusterName _).bind fun _ => (rejects_validateKillIfCommands _).bind fun _ => ?_
  exact (rejects_validateApiGroup _ _ _).bind fun _ => (rejects_validateApiGroup _ _ _).bind fun _ => rejects_ok

theorem rejects_validateCapiMetadata (sm : ScheduledMachine) : Rejects (validateCapiMetadata sm) := by
  have hembedded : Rejects (do
      validateEmbeddedMetadata sm.spec.bootstrapSpec "spec.bootstrapSpec"
      validateEmbeddedMetadata sm.spec.infrastructureSpec "spec.infrastructureSpec"
      requireField sm.metadata.uid "Resource UID not set") :=
    (rejects_validateEmbeddedMetadata _ _).bind fun _ => (rejects_validateEmbeddedMetadata _ _).bind fun _ =>
      rejects_requireField _ _
  unfold validateCapiMetadata
  cases sm.spec.machineTemplate with
  | none => exact hembedded
  | some template => exact (rejects_validateLabels _ _).bind fun _ => (rejects_validateLabels _ _).bind fun _ => hembedded

end

/-! ## Traces of the parts -/

section

variable {ctx : Context} {sm : ScheduledMachine} {ns : String} {trace : List (Sigma Resp)} {x : Except ReconcilerError Unit}

/-- Ended by a check, with nothing created. -/
def Rejected (trace : List (Sigma Resp)) (x : Except ReconcilerError Unit) : Prop :=
  creates trace = [] ∧ ∃ e, x = .error e ∧ e.isRejection = true

def reviewed (attributes : ResourceAttributes) (answer : Except KubeError (Option SubjectAccessReviewStatus)) :
    Sigma Resp := ⟨.api .management (.accessReview attributes), answer⟩

theorem creates_reviewed (attributes : ResourceAttributes) (answer : Except KubeError (Option SubjectAccessReviewStatus))
    (later : List (Sigma Resp)) : creates (reviewed attributes answer :: later) = creates later := rfl

theorem yields_ensureCanCreate {apiVersion kind label : String}
    (h : (ensureCanCreate ctx ns apiVersion kind label).Yields trace x) :
    ∃ answer, trace = [reviewed (createAttributes (dynamicResource ctx apiVersion kind) ns) answer] ∧
      (x = .ok () ∧ allows answer = true ∨ ∃ e, x = .error e ∧ e.isRejection = true) := by
  obtain ⟨answer, later, rfl, hlater⟩ := Prog.yields_call_iff.mp h
  cases answer with
  | error e =>
    obtain ⟨rfl, rfl⟩ := Prog.yields_fail_iff.mp hlater
    exact ⟨.error e, rfl, .inr ⟨_, rfl, rfl⟩⟩
  | ok status =>
    by_cases hallowed : (status.getD ⟨false, none⟩).allowed = true
    · simp only [orKubeError, Prog.bind_def, Prog.pure_bind, hallowed, if_true, Prog.yields_pure_iff] at hlater
      obtain ⟨rfl, rfl⟩ := hlater
      refine ⟨.ok status, rfl, .inl ⟨rfl, ?_⟩⟩
      cases status with
      | none => cases hallowed
      | some status => exact hallowed
    · simp only [orKubeError, Prog.bind_def, Prog.pure_bind, hallowed, Bool.false_eq_true, if_false,
        Prog.yields_fail_iff] at hlater
      obtain ⟨rfl, rfl⟩ := hlater
      exact ⟨.ok status, rfl, .inr ⟨_, rfl, rfl⟩⟩

theorem yields_ensureCanCreate_bind {apiVersion kind label : String} {p : Ctl Unit}
    (h : ((ensureCanCreate ctx ns apiVersion kind label).bind fun _ => p).Yields trace x) :
    Rejected trace x ∨ ∃ answer later, allows answer = true ∧ p.Yields later x ∧
      trace = reviewed (createAttributes (dynamicResource ctx apiVersion kind) ns) answer :: later := by
  rcases Prog.yields_bind_iff.mp h with ⟨e, hreview, rfl⟩ | ⟨_, first, later, hreview, hlater, rfl⟩
  · obtain ⟨answer, rfl, ⟨hok, -⟩ | ⟨_, ⟨⟩, hrejection⟩⟩ := yields_ensureCanCreate hreview
    · cases hok
    · exact .inl ⟨rfl, e, rfl, hrejection⟩
  · obtain ⟨answer, rfl, ⟨-, hallows⟩ | ⟨_, ⟨⟩, -⟩⟩ := yields_ensureCanCreate hreview
    exact .inr ⟨answer, later, hallows, hlater, rfl⟩

theorem yields_createDynamicResource {apiVersion kind name context : String} {body : Json}
    (h : (createDynamicResource ctx ns apiVersion kind name body context).Yields trace x) :
    ∃ made, creates trace = [(⟨dynamicResource ctx apiVersion kind, ns, name, body⟩, made)] ∧
      (x = .ok () ∧ made = true ∨ (∃ text, x = .error (.capiError text)) ∧ made = false) := by
  obtain ⟨answer, later, rfl, hlater⟩ := Prog.yields_call_iff.mp h
  cases answer with
  | ok _ =>
    obtain ⟨rfl, rfl⟩ := Prog.yields_pure_iff.mp hlater
    exact ⟨true, rfl, .inl ⟨rfl, rfl⟩⟩
  | error e =>
    by_cases hexists : e.isAlreadyExists = true
    · simp only [Prog.pure_bind, hexists, if_true, Prog.yields_pure_iff] at hlater
      obtain ⟨rfl, rfl⟩ := hlater
      refine ⟨true, ?_, .inl ⟨rfl, rfl⟩⟩
      simp [creates, createOf, createDone, hexists]
    · simp only [Prog.pure_bind, hexists, Bool.false_eq_true, if_false, Prog.yields_fail_iff] at hlater
      obtain ⟨rfl, rfl⟩ := hlater
      refine ⟨false, ?_, .inr ⟨⟨_, rfl⟩, rfl⟩⟩
      simp [creates, createOf, createDone, hexists]

/-- Made in the planned order; a failure is a failed create. -/
def Builds (planned : List Create) (p : Ctl Unit) : Prop :=
  ∀ trace x, p.Yields trace x → Carried planned (creates trace) ∧ ∀ e, x = .error e → e.isRejection = false

theorem builds_createDynamicResource {apiVersion kind name context : String} {body : Json} :
    Builds [⟨dynamicResource ctx apiVersion kind, ns, name, body⟩]
      (createDynamicResource ctx ns apiVersion kind name body context) := by
  intro trace x h
  obtain ⟨made, hcreates, ⟨rfl, rfl⟩ | ⟨⟨text, rfl⟩, rfl⟩⟩ := yields_createDynamicResource h
  · exact ⟨.inr ⟨[], hcreates, rfl⟩, nofun⟩
  · refine ⟨.inl hcreates, ?_⟩
    rintro _ ⟨⟩
    rfl

theorem builds_createDynamicResource_bind {apiVersion kind name context : String} {body : Json}
    {planned : List Create} {p : Ctl Unit} (hp : Builds planned p) :
    Builds (⟨dynamicResource ctx apiVersion kind, ns, name, body⟩ :: planned)
      ((createDynamicResource ctx ns apiVersion kind name body context).bind fun _ => p) := by
  intro trace x h
  rcases Prog.yields_bind_iff.mp h with ⟨e, hcreate, rfl⟩ | ⟨_, first, later, hcreate, hlater, rfl⟩
  · obtain ⟨made, hcreates, ⟨hok, -⟩ | ⟨⟨text, ⟨⟩⟩, rfl⟩⟩ := yields_createDynamicResource hcreate
    · cases hok
    · refine ⟨.inl hcreates, ?_⟩
      rintro _ ⟨⟩
      rfl
  · obtain ⟨made, hcreates, ⟨-, rfl⟩ | ⟨⟨text, ⟨⟩⟩, -⟩⟩ := yields_createDynamicResource hcreate
    obtain ⟨hcarried, herror⟩ := hp later x hlater
    refine ⟨.inr ⟨creates later, ?_, hcarried⟩, herror⟩
    rw [creates_append, hcreates]
    rfl

/-! ## The whole -/

/-- Everything that is checked before the first create. -/
structure Checked (ctx : Context) (sm : ScheduledMachine) (ns : String) (trace : List (Sigma Resp)) (plan : CapiPlan)
    (uid : String) : Prop where
  planned : planCapi sm.spec = .ok plan
  valid : validateCapiMetadata sm = .ok uid
  approved : ∀ c ∈ plannedCreates ctx sm ns uid plan, Approved trace c

theorem yields_addMachineToCluster (h : (addMachineToCluster ctx sm ns).Yields trace x) : Rejected trace x ∨
    ∃ plan uid, Checked ctx sm ns trace plan uid ∧ Carried (plannedCreates ctx sm ns uid plan) (creates trace) ∧
      ∀ e, x = .error e → e.isRejection = false := by
  unfold addMachineToCluster at h
  cases hplan : planCapi sm.spec with
  | error e =>
    rw [hplan] at h
    obtain ⟨rfl, rfl⟩ := Prog.yields_fail_iff.mp h
    exact .inl ⟨rfl, e, rfl, rejects_planCapi sm.spec e hplan⟩
  | ok plan =>
    rw [hplan] at h
    rcases yields_ensureCanCreate_bind h with hrejected | ⟨b, afterB, hb, hafterB, rfl⟩
    · exact .inl hrejected
    rcases yields_ensureCanCreate_bind hafterB with ⟨hnone, hrejected⟩ | ⟨i, afterI, hi, hafterI, rfl⟩
    · exact .inl ⟨hnone, hrejected⟩
    rcases yields_ensureCanCreate_bind hafterI with ⟨hnone, hrejected⟩ | ⟨m, later, hm, hlater, rfl⟩
    · exact .inl ⟨hnone, hrejected⟩
    rw [creates_reviewed, creates_reviewed, creates_reviewed]
    cases hvalid : validateCapiMetadata sm with
    | error e =>
      rw [hvalid] at hlater
      obtain ⟨rfl, rfl⟩ := Prog.yields_fail_iff.mp hlater
      exact .inl ⟨rfl, e, rfl, rejects_validateCapiMetadata sm e hvalid⟩
    | ok uid =>
      rw [hvalid] at hlater
      have hbuilds := builds_createDynamicResource_bind (builds_createDynamicResource_bind
        builds_createDynamicResource) later x hlater
      refine .inr ⟨plan, uid, ⟨hplan, hvalid, ?_⟩, hbuilds⟩
      simp only [plannedCreates, List.forall_mem_cons, List.not_mem_nil]
      refine ⟨⟨b, ?_, hb⟩, ⟨i, ?_, hi⟩, ⟨m, ?_, hm⟩, nofun⟩
      · exact List.mem_cons_self
      · exact List.mem_cons_of_mem _ List.mem_cons_self
      · exact List.mem_cons_of_mem _ (List.mem_cons_of_mem _ List.mem_cons_self)

/-- A review approves only what is permitted. -/
def Accurate (permits : ResourceAttributes → Bool) (trace : List (Sigma Resp)) : Prop :=
  ∀ attributes answer, reviewed attributes answer ∈ trace → allows answer = true → permits attributes = true

/-- A create fails only for lack of permission. -/
def FailsUnpermitted (permits : ResourceAttributes → Bool) (trace : List (Sigma Resp)) : Prop :=
  ∀ c, (c, false) ∈ creates trace → permits c.attributes = false

theorem Checked.complete {plan : CapiPlan} {uid : String} {permits : ResourceAttributes → Bool}
    (h : Checked ctx sm ns trace plan uid) (hcarried : Carried (plannedCreates ctx sm ns uid plan) (creates trace))
    (haccurate : Accurate permits trace) (hfails : FailsUnpermitted permits trace) :
    creates trace = (plannedCreates ctx sm ns uid plan).map fun c => (c, true) := by
  refine hcarried.complete fun entry hentry => ?_
  obtain ⟨c, made⟩ := entry
  cases made with
  | true => rfl
  | false =>
    have hmem : c ∈ plannedCreates ctx sm ns uid plan := hcarried.isPrefix.subset (List.mem_map_of_mem hentry)
    obtain ⟨answer, hreview, hallows⟩ := h.approved c hmem
    have hpermits := haccurate _ answer hreview hallows
    rw [hfails c hentry] at hpermits
    cases hpermits

/-- With any answers: a rejection has created nothing; what is created are the planned objects in their order,
each after the one before is there; and with accurate reviews it is all of them or none. -/
theorem provisioning_all_or_none (h : (addMachineToCluster ctx sm ns).Yields trace x) :
    (∀ e, x = .error e → e.isRejection = true → creates trace = []) ∧
    (creates trace = [] ∨ ∃ plan uid, planCapi sm.spec = .ok plan ∧ validateCapiMetadata sm = .ok uid ∧
      Carried (plannedCreates ctx sm ns uid plan) (creates trace)) ∧
    ∀ permits, Accurate permits trace → FailsUnpermitted permits trace →
      creates trace = [] ∨ ∃ plan uid, planCapi sm.spec = .ok plan ∧ validateCapiMetadata sm = .ok uid ∧
        creates trace = (plannedCreates ctx sm ns uid plan).map fun c => (c, true) := by
  rcases yields_addMachineToCluster h with ⟨hnone, -⟩ | ⟨plan, uid, hchecked, hcarried, herror⟩
  · exact ⟨fun _ _ _ => hnone, .inl hnone, fun _ _ _ => .inl hnone⟩
  · refine ⟨?_, .inr ⟨plan, uid, hchecked.planned, hchecked.valid, hcarried⟩, ?_⟩
    · intro e hx hrejection
      rw [herror e hx] at hrejection
      cases hrejection
    · intro permits haccurate hfails
      exact .inr ⟨plan, uid, hchecked.planned, hchecked.valid, hchecked.complete hcarried haccurate hfails⟩

end

/-! ## A machine that is provisioned -/

def approval : Except KubeError (Option SubjectAccessReviewStatus) := .ok (some ⟨true, none⟩)

def createdEvent (c : Create) : Sigma Resp := ⟨.api .management (.create c.ar c.ns c.name c.body), .ok ()⟩

/-- All reviews approve and all creates succeed. -/
def provisionedTrace (planned : List Create) : List (Sigma Resp) :=
  (planned.map fun c => reviewed c.attributes approval) ++ planned.map createdEvent

def demoCreates : List Create := plannedCreates demoContext demoMachine "team" "uid-1" demoPlan

theorem yields_demoMachine :
    (addMachineToCluster demoContext demoMachine "team").Yields (provisionedTrace demoCreates) (.ok ()) :=
  .call (.call (.call (.call (.call (.call (.pure ()))))))

theorem demoMachine_provisioned : creates (provisionedTrace demoCreates) = [] ∨ ∃ plan uid,
    planCapi demoMachine.spec = .ok plan ∧ validateCapiMetadata demoMachine = .ok uid ∧
      creates (provisionedTrace demoCreates) =
        (plannedCreates demoContext demoMachine "team" uid plan).map fun c => (c, true) := by
  refine (provisioning_all_or_none yields_demoMachine).2.2 (fun _ => true) ?_ ?_
  · exact fun _ _ _ _ => rfl
  · intro c hc
    have hmade : creates (provisionedTrace demoCreates) = demoCreates.map fun c => (c, true) := rfl
    rw [hmade] at hc
    obtain ⟨c', -, heq⟩ := List.mem_map.mp hc
    cases heq

end FiveSpot
