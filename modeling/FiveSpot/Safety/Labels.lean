import FiveSpot.Cluster.Run
import FiveSpot.Discipline.Writers
import FiveSpot.Helpers.Mappers

/-! # From a Machine back to its resource

The Machine is labelled with one key and looked up by another, which users may set themselves.
-/

namespace FiveSpot

set_option autoImplicit false

open Interaction

section

variable (ctx : Context) (sm : ScheduledMachine) (ns : String)

def CreatesMachine (machine : Json) : Prop :=
  ∃ ar : ApiResource, ar.group = Constants.capiGroup ∧ ar.plural = Constants.capiResourceMachines ∧
    (addMachineToCluster ctx sm ns).Asks (.api .management (.create ar ns sm.metadata.name machine))

end

def withStatus (status : Json) : Json → Json
  | .obj fields => .obj (fields ++ [("status", status)])
  | value => value

/-- Events of the Machine, and of a Node that only this Machine is bound to, reach exactly `ref`. -/
structure LeadsTo (machine : Json) (ref : ObjectRef) : Prop where
  byMachine : ∀ status, (DynamicObject.ofJson (withStatus status machine)).map machineToScheduledMachine = some [ref]
  byNode : ∀ status nodeName object before after,
    DynamicObject.ofJson (withStatus status machine) = some object → onNode nodeName object = true →
    (∀ other ∈ before ++ after, onNode nodeName other = false) →
    nodeToScheduledMachinesViaMachine (some nodeName) (before ++ object :: after) = [ref]

/-- The user labels the Machine with the name of the resource under the key that is read. -/
def NamesItself (sm : ScheduledMachine) : Prop :=
  sm.metadata.name ≠ "" ∧ ∃ value, (sm.spec.machineTemplate.getD ⟨[], []⟩).labels.lookup
    Constants.labelScheduledMachine = some value ∧ Text.trim value = sm.metadata.name

/-! ## The Machine that is created -/

theorem group_of_validateApiGroup {apiVersion resourceType : String} {allowed : List String}
    (h : validateApiGroup apiVersion allowed resourceType = .ok ()) : (parseApiVersion apiVersion).1 ∈ allowed := by
  unfold validateApiGroup at h
  split at h
  · cases h
  · rename_i group version hsplit
    split at h
    · rename_i hgroup
      rw [parseApiVersion, hsplit]
      exact hgroup
    · cases h

theorem groups_of_planCapi {spec : ScheduledMachineSpec} {plan : CapiPlan} (h : planCapi spec = .ok plan) :
    (parseApiVersion plan.bootstrapApiVersion).1 ∈ Constants.allowedBootstrapApiGroups ∧
      (parseApiVersion plan.infraApiVersion).1 ∈ Constants.allowedInfrastructureApiGroups := by
  obtain ⟨-, hbootstrap, hinfra⟩ := planCapi_eq_ok h
  exact ⟨group_of_validateApiGroup hbootstrap, group_of_validateApiGroup hinfra⟩

theorem body_of_createsMachine {ctx : Context} {sm : ScheduledMachine} {ns : String} {machine : Json}
    (h : CreatesMachine ctx sm ns machine) : ∃ plan uid, machine = machineBody ctx sm ns uid plan := by
  obtain ⟨ar, hgroup, -, hasks⟩ := h
  have hissues : (addMachineToCluster ctx sm ns).Issues fun r => ∀ ar name body,
      r = .api .management (.create ar ns name body) → ar.group = Constants.capiGroup →
        ∃ plan uid, body = machineBody ctx sm ns uid plan := by
    cases hplan : planCapi sm.spec with
    | error e => simp [addMachineToCluster, hplan, Prog.ofExcept]
    | ok plan =>
      obtain ⟨hbootstrap, hinfra⟩ := groups_of_planCapi hplan
      have hforeign : ∀ {apiVersion kind : String} {allowed : List String}, (parseApiVersion apiVersion).1 ∈ allowed →
          Constants.capiGroup ∉ allowed → (dynamicResource ctx apiVersion kind).group ≠ Constants.capiGroup := by
        rintro apiVersion kind allowed hmem hnot heq
        exact hnot (heq ▸ hmem)
      simp only [addMachineToCluster, Prog.bind_def, hplan, Prog.ofExcept, Prog.pure_bind]
      refine Prog.Issues.bind (issues_ensureCanCreate (by rintro _ _ _ _ ⟨⟩) ..) fun _ => ?_
      refine Prog.Issues.bind (issues_ensureCanCreate (by rintro _ _ _ _ ⟨⟩) ..) fun _ => ?_
      refine Prog.Issues.bind (issues_ensureCanCreate (by rintro _ _ _ _ ⟨⟩) ..) fun _ => ?_
      refine Prog.Issues.bind (Prog.issues_ofExcept _ _) fun uid => ?_
      refine Prog.Issues.bind (issues_createDynamicResource ?_) fun _ => ?_
      · rintro ar name body heq hcapi
        cases heq
        exact absurd hcapi (hforeign hbootstrap (by decide))
      refine Prog.Issues.bind (issues_createDynamicResource ?_) fun _ => ?_
      · rintro ar name body heq hcapi
        cases heq
        exact absurd hcapi (hforeign hinfra (by decide))
      refine issues_createDynamicResource ?_
      rintro ar name body heq -
      cases heq
      exact ⟨plan, uid, rfl⟩
  exact hissues.of_asks hasks ar _ machine rfl hgroup

/-! ## Reading it back -/

theorem ofJson_machineBody (ctx : Context) (sm : ScheduledMachine) (ns uid : String) (plan : CapiPlan) (status : Json) :
    DynamicObject.ofJson (withStatus status (machineBody ctx sm ns uid plan)) = some ⟨some ns,
      some (mergeOwnedLabels (sm.spec.machineTemplate.getD ⟨[], []⟩).labels sm.metadata.name sm.spec.clusterName),
      withStatus status (machineBody ctx sm ns uid plan)⟩ := by
  have hlabels := StringMap.ofJson_toJson
    (mergeOwnedLabels (sm.spec.machineTemplate.getD ⟨[], []⟩).labels sm.metadata.name sm.spec.clusterName)
  simp only [DynamicObject.ofJson, withStatus, machineBody, Json.get, List.cons_append, List.find?]
  simp [optionalField, Json.get, Json.asStr, StringMap.toJson] at hlabels ⊢
  rw [hlabels]
  rfl

theorem lookup_mergeOwnedLabels (labels : StringMap) (smName clusterName : String) :
    (mergeOwnedLabels labels smName clusterName).lookup Constants.labelScheduledMachine =
      labels.lookup Constants.labelScheduledMachine := by
  rw [mergeOwnedLabels, StringMap.lookup_insert_of_ne (by decide), StringMap.lookup_insert_of_ne (by decide)]

theorem labelledScheduledMachine_machineBody {ctx : Context} {sm : ScheduledMachine} {ns uid : String} {plan : CapiPlan}
    {status : Json} {object : DynamicObject}
    (h : DynamicObject.ofJson (withStatus status (machineBody ctx sm ns uid plan)) = some object) :
    labelledScheduledMachine object = some ⟨sm.metadata.name, ns⟩ ↔ NamesItself sm := by
  rw [ofJson_machineBody] at h
  cases h
  simp only [labelledScheduledMachine, Option.bind_eq_bind, Option.bind_some, lookup_mergeOwnedLabels, NamesItself]
  cases (sm.spec.machineTemplate.getD ⟨[], []⟩).labels.lookup Constants.labelScheduledMachine with
  | none => simp
  | some value =>
    simp only [Option.bind_some, Option.some.injEq, exists_eq_left']
    by_cases hempty : Text.trim value = ""
    · rw [if_pos hempty, hempty]
      constructor
      · intro hnone
        cases hnone
      · rintro ⟨hname, hvalue⟩
        exact absurd hvalue.symm hname
    · rw [if_neg hempty]
      constructor
      · intro heq
        have hname : Text.trim value = sm.metadata.name := congrArg ObjectRef.name (Option.some.inj heq)
        exact ⟨hname ▸ hempty, hname⟩
      · rintro ⟨-, hvalue⟩
        rw [hvalue]
        rfl

/-- For every Machine that is created: its events reach the resource, and only that, if and only if the
user has set the label that is read, to the name of the resource. -/
theorem machine_leads_to_its_resource {ctx : Context} {sm : ScheduledMachine} {ns : String} {machine : Json}
    (h : CreatesMachine ctx sm ns machine) : LeadsTo machine ⟨sm.metadata.name, ns⟩ ↔ NamesItself sm := by
  obtain ⟨plan, uid, rfl⟩ := body_of_createsMachine h
  constructor
  · intro hleads
    have hmachine := hleads.byMachine .null
    have hobject := ofJson_machineBody ctx sm ns uid plan .null
    refine (labelledScheduledMachine_machineBody hobject).mp ?_
    rw [hobject, Option.map_some, Option.some.injEq, machineToScheduledMachine] at hmachine
    rw [Option.toList_eq_singleton_iff] at hmachine
    exact hmachine
  · intro hnames
    refine ⟨fun status => ?_, fun status nodeName object before after hobject hon hothers => ?_⟩
    · have hobject := ofJson_machineBody ctx sm ns uid plan status
      rw [hobject, Option.map_some, machineToScheduledMachine, (labelledScheduledMachine_machineBody hobject).mpr hnames]
      rfl
    · have hskip : ∀ others : List DynamicObject, (∀ other ∈ others, onNode nodeName other = false) →
          others.filterMap (fun machine => if onNode nodeName machine then labelledScheduledMachine machine else none) =
            [] := by
        intro others hnone
        refine List.filterMap_eq_nil_iff.mpr fun other hmem => ?_
        rw [hnone other hmem]
        rfl
      have hbefore := hskip before fun other hmem => hothers other (List.mem_append_left _ hmem)
      have hafter := hskip after fun other hmem => hothers other (List.mem_append_right _ hmem)
      simp only [nodeToScheduledMachinesViaMachine, List.filterMap_append, List.filterMap_cons, hbefore, hafter, hon,
        if_true, (labelledScheduledMachine_machineBody hobject).mpr hnames, List.nil_append]

/-! ## With and without the label -/

def demoPlan : CapiPlan :=
  ⟨"bootstrap.cluster.x-k8s.io/v1beta1", "K0sWorkerConfig", "infrastructure.cluster.x-k8s.io/v1beta1", "RemoteMachine"⟩

def labelled (labels : StringMap) : ScheduledMachine :=
  { demoMachine with spec := { demoSpec with machineTemplate := some ⟨labels, []⟩ } }

theorem labelled_createsMachine {labels : StringMap} (h : validateLabels labels "machineTemplate.labels" = .ok ()) :
    CreatesMachine demoContext (labelled labels) "team"
      (machineBody demoContext (labelled labels) "team" "uid-1" demoPlan) := by
  have hmetadata : validateCapiMetadata (labelled labels) = .ok "uid-1" := by
    simp only [validateCapiMetadata, labelled, h]
    rfl
  refine ⟨dynamicResource demoContext (demoPlan.machineApiVersion demoContext) "Machine", by decide, by decide, ?_⟩
  have hplan : planCapi (labelled labels).spec = .ok demoPlan := by
    have hdemo : planCapi demoSpec = .ok demoPlan := rfl
    exact hdemo
  simp only [addMachineToCluster, Prog.bind_def, hplan, hmetadata, Prog.ofExcept, Prog.pure_bind]
  refine .inr ⟨.ok (some ⟨true, none⟩), .inr ⟨.ok (some ⟨true, none⟩), .inr ⟨.ok (some ⟨true, none⟩), ?_⟩⟩⟩
  exact .inr ⟨.ok (), .inr ⟨.ok (), .inl rfl⟩⟩

theorem machine_leads_back_with_label : LeadsTo (machineBody demoContext
    (labelled [(Constants.labelScheduledMachine, "spot")]) "team" "uid-1" demoPlan) ⟨"spot", "team"⟩ :=
  (machine_leads_to_its_resource (labelled_createsMachine rfl)).mpr ⟨by decide, "spot", by decide, by decide⟩

/-- A user's label sends the events to another resource. -/
theorem machine_leads_elsewhere : ¬∀ (ctx : Context) (sm : ScheduledMachine) (ns : String) (machine : Json),
    sm.metadata.ns = some ns → CreatesMachine ctx sm ns machine → LeadsTo machine ⟨sm.metadata.name, ns⟩ := by
  intro hleads
  have hmachine := (hleads demoContext (labelled [(Constants.labelScheduledMachine, "other")]) "team" _ rfl
    (labelled_createsMachine rfl)).byMachine .null
  revert hmachine
  decide

end FiveSpot
