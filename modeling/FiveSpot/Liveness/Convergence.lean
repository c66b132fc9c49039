import Mathlib.Logic.Function.Iterate
import FiveSpot.Interaction.Expected
import FiveSpot.Safety.PhaseGraph
import FiveSpot.Safety.Revisits
import FiveSpot.Safety.Shutdown

/-! # Convergence

What the phases are for: a resource follows what its owner and its provider want. `lifecycle` is the machine of the
phases on its own. As long as calls do what they should, every reconcile takes the recorded phase one step along it, and
three steps are enough to come to rest.
-/

namespace FiveSpot

set_option autoImplicit false

open Interaction

/-! ## The phases on their own -/

section

variable (enabled wanted : Bool)

/-- The phase that follows, for an owner who has the resource `enabled` and a provider that wants the machine or not. -/
def lifecycle : Option Phase → Option Phase
  | some .active => if enabled && wanted then some .active else some .shuttingDown
  | some .shuttingDown => some .inactive
  | some .inactive => if enabled && wanted then some .pending else some .inactive
  | some .disabled => if enabled then some .pending else some .disabled
  | some .emergencyRemove => some .disabled
  | some .terminated => some .terminated
  | some .error => some .error
  | _ => if !enabled then some .disabled else if !wanted then some .inactive else some .active

/-- Where the resource is to stay. A machine that was running when its resource was disabled stays `Inactive`. -/
def AtRest (phase : Option Phase) : Prop :=
  if enabled && wanted then phase = some .active
  else if enabled then phase = some .inactive
  else phase = some .disabled ∨ phase = some .inactive

def Stuck (phase : Option Phase) : Prop := phase = some .terminated ∨ phase = some .error

variable {enabled wanted}

theorem lifecycle_of_atRest {phase : Option Phase} (h : AtRest enabled wanted phase) :
    lifecycle enabled wanted phase = phase := by
  cases enabled <;> cases wanted
  · rcases h with rfl | rfl <;> rfl
  · rcases h with rfl | rfl <;> rfl
  · cases h
    rfl
  · cases h
    rfl

theorem atRest_three_steps {phase : Option Phase} (h : ¬Stuck phase) :
    AtRest enabled wanted (lifecycle enabled wanted (lifecycle enabled wanted (lifecycle enabled wanted phase))) := by
  rcases phase with _ | phase
  · cases enabled <;> cases wanted <;> first | rfl | exact .inl rfl
  cases phase with
  | terminated => exact absurd (.inl rfl) h
  | error => exact absurd (.inr rfl) h
  | active | shuttingDown | inactive =>
    cases enabled <;> cases wanted <;> first | rfl | exact .inr rfl
  | pending | disabled | emergencyRemove | unknown =>
    cases enabled <;> cases wanted <;> first | rfl | exact .inl rfl

theorem atRest_iterate {phase : Option Phase} (h : ¬Stuck phase) {n : Nat} (hn : 3 ≤ n) :
    AtRest enabled wanted ((lifecycle enabled wanted)^[n] phase) := by
  induction hn with
  | refl => exact atRest_three_steps h
  | step _ ih =>
    rw [Function.iterate_succ_apply', lifecycle_of_atRest ih]
    exact ih

end

/-! ## Calls that do what they should -/

def keyOfSecret (sm : ScheduledMachine) : String :=
  (sm.spec.kubeconfigSecretRef.map (·.key)).getD Constants.defaultKubeconfigSecretKey

def foundOrMissing {α : Type} : Except KubeError α → Bool
  | .ok _ => true
  | .error e => e.isNotFound

section

variable (wanted : Bool) (sm : ScheduledMachine)

/-- Writes are carried out, reviews are granted, the provider has the verdict `wanted`, the Node of the resource is not to
be reclaimed, and the kubeconfig can be used if there is one. Nothing is asked of anything else. -/
def smoothCall (client : Client) : (call : ApiCall) → Except KubeError call.Answer → Bool
  | .patchStatus _ _ _, answer => succeeded answer
  | .accessReview _, .ok status => (status.map (·.allowed)).getD false
  | .accessReview _, .error _ => false
  | .create _ _ _ _, .ok _ => true
  | .create _ _ _ _, .error e => e.isAlreadyExists
  | .delete _ _ _, answer => foundOrMissing answer
  | .pinnedKind _ _ _, .ok ar => ar.group != Constants.capiGroup
  | .pinnedKind _ _ _, .error _ => false
  | .get ar _ _, answer =>
    if ar.group = Constants.capiGroup then foundOrMissing answer
    else match answer with
      | .ok object => (verdictFromStatus (object.get "status")).active? == some wanted
      | .error _ => false
  | .getNode _, .ok node => client != .management || (nodeReclaimRequest node).isNone
  | .getNode _, .error e => client != .management || e.isNotFound
  | .getSecret _ _, .ok secret =>
    ((secret.data.bind fun data => data.find? fun entry => entry.1 == keyOfSecret sm).map Prod.snd).any succeeded
  | .getSecret _ _, .error e => e.isNotFound && sm.spec.kubeconfigSecretRef.isNone
  | _, _ => true

/-- A resource that is shutting down finds its grace period over. -/
def graceEnded (now : Time) : Bool :=
  match sm.status.bind graceStart, parseDuration sm.spec.gracefulShutdownTimeout with
  | some (.valid start), .ok timeout => graceOver start now timeout
  | _, _ => true

def smoothAnswer : (r : Req) → Resp r → Bool
  | .api client call, answer => smoothCall wanted sm client call answer
  | .loc .utcNow, now => sm.phase != some .shuttingDown || graceEnded sm now
  | .loc (.buildClient _), problem => problem.isNone
  | .loc _, _ => true
  | .timer _, _ => true

/-- The reconcile is this replica's, the owner wants the resource `enabled`, and the spec has what the next step needs. -/
def intended (ctx : Context) (enabled : Bool) : Bool :=
  assigned ctx sm && sm.metadata.ns.isSome && !sm.deleting && hasFinalizer sm && succeeded (validateSpec sm.spec) &&
    !sm.spec.killSwitch && sm.spec.enabled == enabled &&
    (!(enabled && wanted) || succeeded (planCapi sm.spec) && succeeded (validateCapiMetadata sm)) &&
    (sm.phase != some .shuttingDown || succeeded (parseDuration sm.spec.gracefulShutdownTimeout) &&
      succeeded (parseDuration sm.spec.nodeDrainTimeout))

end

/-- Others may do what they like, as long as each reconcile finds a resource that is `intended` and has its calls
answered as they should be. -/
def smooth (ctx : Context) (enabled wanted : Bool) (s : RunState) : RunAct → Bool
  | .start => s.world.sm.all fun sm => intended wanted sm (ctx.led s.world.leader) enabled
  | .answer fate => s.pass.all fun pass => match pass.rest with
    | .call r _ => smoothAnswer wanted pass.snap.sm r (serve s.world r fate).1
    | _ => true
  | .kill => false
  | _ => true

/-! ## What comes back -/

/-- The phase on record after a request that is carried out. -/
def phaseAfter (phase : Option Phase) (r : Req) : Option Phase :=
  match r with
  | .api _ (.patchStatus _ _ (.phase target _ _ _ _)) => some target
  | _ => phase

theorem phaseAfter_call {client : Client} {call : ApiCall} (h : call.isPhaseWrite = false) (phase : Option Phase) :
    phaseAfter phase (.api client call) = phase := by
  cases call with
  | patchStatus ns name body => cases body <;> first | rfl | cases h
  | _ => rfl

theorem phaseAfter_unphased {r : Req} (h : Unphased r) (phase : Option Phase) : phaseAfter phase r = phase := by
  cases r with
  | api client call => exact phaseAfter_call (isPhaseWrite_of_unphased h) phase
  | loc op => rfl
  | timer seconds => rfl

section

variable {wanted : Bool} {sm : ScheduledMachine} {α β : Type}

abbrev Smoothly (wanted : Bool) (sm : ScheduledMachine) (p : Ctl α) (Q : Except ReconcilerError α → Option Phase → Prop)
    (phase : Option Phase) : Prop :=
  Ends (fun r answer => smoothAnswer wanted sm r answer = true) (fun phase r _ => phaseAfter phase r) p Q phase

/-- Answered as it should be, the program returns a value within `P` and writes no phase. -/
abbrev Gives (wanted : Bool) (sm : ScheduledMachine) (p : Ctl α) (P : α → Prop) : Prop :=
  Yields (fun r answer => smoothAnswer wanted sm r answer = true) (fun phase r _ => phaseAfter phase r) p P

theorem gives_ofExcept {x : Except ReconcilerError α} (h : succeeded x = true) :
    Gives wanted sm (Prog.ofExcept x) fun a => x = .ok a := by
  cases x with
  | ok a => exact yields_pure rfl
  | error e => cases h

theorem gives_api {client : Client} {call : ApiCall} (h : call.isPhaseWrite = false) :
    Gives wanted sm (api client call) fun answer => smoothCall wanted sm client call answer = true :=
  yields_request fun phase _ => phaseAfter_call h phase

theorem gives_local {op : LocalOp} : Gives wanted sm (local_ op) fun answer => smoothAnswer wanted sm (.loc op) answer = true :=
  yields_request fun _ _ => rfl

theorem gives_orKubeError {x : Except KubeError α} (h : succeeded x = true) :
    Gives wanted sm (orKubeError x) fun a => x = .ok a := by
  cases x with
  | ok a => exact yields_pure rfl
  | error e => cases h

/-- Whatever becomes of it, a best effort returns. -/
theorem gives_bestEffort {p : Ctl α} (hp : p.Issues Unphased) : Gives wanted sm (bestEffort p) fun _ => True := by
  refine ⟨fun phase => ?_⟩
  refine Ends.bind (Ends.attempt (ends_of_issues (fun r hr _ => phaseAfter_unphased hr phase) hp fun x => ?_))
  exact ⟨x, rfl, rfl, (), rfl, trivial⟩

/-! ## Helpers -/

variable {ctx : Context} {ns : String}

theorem gives_requireNamespace (hns : sm.metadata.ns = some ns) :
    Gives wanted sm (Prog.ofExcept (requireNamespace sm)) fun ns' => ns' = ns := by
  rw [requireNamespace, hns]
  exact yields_pure rfl

theorem gives_ensureCanCreate (apiVersion kind label : String) :
    Gives wanted sm (ensureCanCreate ctx ns apiVersion kind label) fun _ => True := by
  refine (gives_api rfl).bind fun answer hanswer => ?_
  cases answer with
  | error e => cases hanswer
  | ok status =>
    cases status with
    | none => cases hanswer
    | some status =>
      refine (gives_orKubeError rfl).bind fun result hresult => ?_
      cases hresult
      have hallowed : status.allowed = true := hanswer
      simp only [Option.getD_some, hallowed, if_true]
      exact yields_pure trivial

theorem gives_createDynamicResource (apiVersion kind name : String) (body : Json) (context : String) :
    Gives wanted sm (createDynamicResource ctx ns apiVersion kind name body context) fun _ => True := by
  refine (gives_api rfl).bind fun answer hanswer => ?_
  cases answer with
  | ok => exact yields_pure trivial
  | error e =>
    have hexists : e.isAlreadyExists = true := hanswer
    simp only [hexists, if_true]
    exact yields_pure trivial

theorem gives_addMachineToCluster (hplan : succeeded (planCapi sm.spec) = true)
    (hmetadata : succeeded (validateCapiMetadata sm) = true) : Gives wanted sm (addMachineToCluster ctx sm ns) fun _ => True := by
  refine (gives_ofExcept hplan).bind fun plan _ => ?_
  refine (gives_ensureCanCreate ..).bind fun _ _ => (gives_ensureCanCreate ..).bind fun _ _ =>
    (gives_ensureCanCreate ..).bind fun _ _ => ?_
  refine (gives_ofExcept hmetadata).bind fun uid _ => ?_
  exact (gives_createDynamicResource ..).bind fun _ _ => (gives_createDynamicResource ..).bind fun _ _ =>
    gives_createDynamicResource ..

theorem gives_deleteResource (ar : ApiResource) (name context : String) :
    Gives wanted sm (deleteResource ar ns name context) fun _ => True := by
  refine (gives_api rfl).bind fun answer hanswer => ?_
  cases answer with
  | ok => exact yields_pure trivial
  | error e =>
    have hmissing : e.isNotFound = true := hanswer
    simp only [hmissing, if_true]
    exact yields_pure trivial

theorem gives_deleteEmbedded (name : String) (embedded : EmbeddedResource) :
    Gives wanted sm (deleteEmbedded ctx ns name embedded) fun _ => True := by
  unfold deleteEmbedded
  split
  · exact gives_deleteResource ..
  · exact yields_pure trivial

theorem gives_removeMachineFromCluster : Gives wanted sm (removeMachineFromCluster ctx sm ns) fun _ => True :=
  (gives_deleteResource ..).bind fun _ _ => (gives_deleteEmbedded ..).bind fun _ _ => gives_deleteEmbedded ..

theorem gives_fetchCapiMachine (name : String) : Gives wanted sm (fetchCapiMachine ctx ns name) fun _ => True := by
  refine (gives_api rfl).bind fun answer hanswer => ?_
  cases answer with
  | ok => exact yields_pure trivial
  | error e =>
    have hmissing : e.isNotFound = true := by simpa [smoothCall, foundOrMissing] using hanswer
    simp only [hmissing, if_true]
    exact yields_pure trivial

theorem gives_hookEvicted (key : Option CacheKey) : Gives wanted sm (hookEvicted key) fun _ => True := by
  cases key with
  | none => exact yields_pure trivial
  | some key => exact gives_local.bind fun _ _ => yields_pure trivial

theorem gives_buildChildClient (secretName : String) {key : String} {secret : Secret}
    (h : ((secret.data.bind fun data => data.find? fun entry => entry.1 == key).map Prod.snd).any succeeded = true) :
    Gives wanted sm (buildChildClient ns secretName key secret) fun _ => True := by
  unfold buildChildClient
  generalize (secret.data.bind fun data => data.find? fun entry => entry.1 == key).map Prod.snd = found at h
  rcases found with _ | _ | kubeconfig
  · cases h
  · cases h
  · refine gives_local.bind fun problem hproblem => ?_
    cases problem with
    | some reason => cases hproblem
    | none =>
      refine gives_local.bind fun inserted _ => ?_
      refine (gives_hookEvicted _).bind fun _ _ => (gives_hookEvicted _).bind fun _ _ => ?_
      exact gives_local.bind fun _ _ => yields_pure trivial

/-- A Secret that is there can be used; one that is not there is no error unless the spec names it. -/
theorem ends_buildOrGetCached (secretName : String) {Q : Except ReconcilerError ResolvedClient → Option Phase → Prop}
    {phase : Option Phase} (hok : ∀ client, Q (.ok client) phase)
    (hmissing : sm.spec.kubeconfigSecretRef = none → ∀ text, Q (.error (.notFound text)) phase) :
    Smoothly wanted sm
      (buildOrGetCached ns secretName (keyOfSecret sm) sm.spec.kubeconfigSecretRef.isSome) Q phase := by
  refine Yields.then (gives_api rfl) fun answer hanswer => ?_
  cases answer with
  | error e =>
    obtain ⟨hnotFound, hnone⟩ := Bool.and_eq_true_iff.mp hanswer
    have hfailure : ∀ secretName, secretFailure ns secretName sm.spec.kubeconfigSecretRef.isSome e =
        .notFound s!"{ns}/{secretName}" := by
      intro secretName
      rw [Option.isNone_iff_eq_none.mp hnone, secretFailure, if_pos hnotFound]
      rfl
    change Q (.error (secretFailure ns secretName sm.spec.kubeconfigSecretRef.isSome e)) phase
    rw [hfailure]
    exact hmissing (Option.isNone_iff_eq_none.mp hnone) _
  | ok secret =>
    refine Yields.then (P := fun a => a = secret) (yields_pure rfl) fun a ha => ?_
    subst ha
    refine Yields.then gives_local fun cached _ => ?_
    cases cached with
    | some kubeconfig => exact hok _
    | none =>
      refine ((gives_buildChildClient secretName hanswer).ends phase).mono fun x phase' h => ?_
      obtain ⟨rfl, client, rfl, -⟩ := h
      exact hok client

theorem gives_resolve (hns : sm.metadata.ns = some ns) : Gives wanted sm (resolve sm) fun _ => True := by
  refine ⟨fun phase => ?_⟩
  unfold resolve
  rw [hns]
  cases href : sm.spec.kubeconfigSecretRef with
  | some ref =>
    have hkey : keyOfSecret sm = ref.key := by rw [keyOfSecret, href]; rfl
    have h : Smoothly wanted sm (buildOrGetCached ns ref.name (keyOfSecret sm) sm.spec.kubeconfigSecretRef.isSome)
        (fun x phase' => phase' = phase ∧ ∃ a, x = .ok a ∧ True) phase :=
      ends_buildOrGetCached ref.name (fun client => ⟨rfl, client, rfl, trivial⟩) fun hnone => by
        rw [href] at hnone
        cases hnone
    rw [hkey, href] at h
    exact h
  | none =>
    have hkey : keyOfSecret sm = Constants.defaultKubeconfigSecretKey := by rw [keyOfSecret, href]; rfl
    have h : Smoothly wanted sm
        (buildOrGetCached ns (autoSecretName sm) Constants.defaultKubeconfigSecretKey false)
        (fun x phase' => phase' = phase ∧ ((∃ a, x = .ok a) ∨ ∃ text, x = .error (.notFound text))) phase := by
      have h : Smoothly wanted sm
          (buildOrGetCached ns (autoSecretName sm) (keyOfSecret sm) sm.spec.kubeconfigSecretRef.isSome)
          (fun x phase' => phase' = phase ∧ ((∃ a, x = .ok a) ∨ ∃ text, x = .error (.notFound text))) phase :=
        ends_buildOrGetCached (autoSecretName sm) (fun client => ⟨rfl, .inl ⟨client, rfl⟩⟩) fun _ text =>
          ⟨rfl, .inr ⟨text, rfl⟩⟩
      rw [hkey, href] at h
      exact h
    refine Ends.bind (Ends.attempt (h.mono fun x phase' hx => ?_))
    obtain ⟨rfl, ⟨client, rfl⟩ | ⟨text, rfl⟩⟩ := hx
    · exact ⟨_, rfl, rfl, client, rfl, trivial⟩
    · exact ⟨_, rfl, rfl, .management, rfl, trivial⟩

theorem graceOver_of_smooth {start now : Time} {timeout : Nat} {status : ScheduledMachineStatus}
    (hphase : sm.phase = some .shuttingDown) (hstatus : sm.status = some status) (hstart : graceStart status = some (.valid start))
    (htimeout : parseDuration sm.spec.gracefulShutdownTimeout = .ok timeout)
    (h : smoothAnswer wanted sm (.loc .utcNow) now = true) : graceOver start now timeout = true := by
  simpa [smoothAnswer, hphase, graceEnded, hstatus, hstart, htimeout] using h

theorem gives_checkGracePeriodElapsed (h : ShuttingDown sm)
    (hparse : succeeded (parseDuration sm.spec.gracefulShutdownTimeout) = true) :
    Gives wanted sm (checkGracePeriodElapsed sm) fun elapsed => elapsed = true := by
  obtain ⟨status, hstatus, hstart⟩ := graceStart_of_shuttingDown h
  rcases hstart with hnone | ⟨start, hvalid⟩
  · simp only [checkGracePeriodElapsed, hstatus, hnone]
    exact yields_pure rfl
  · simp only [checkGracePeriodElapsed, hstatus, hvalid]
    refine (gives_ofExcept hparse).bind fun timeout htimeout => gives_local.bind fun now hnow => yields_pure ?_
    exact graceOver_of_smooth h.phase hstatus hvalid htimeout hnow

theorem gives_drainBoundNode (hns : sm.metadata.ns = some ns)
    (hparse : succeeded (parseDuration sm.spec.nodeDrainTimeout) = true) :
    Gives wanted sm (drainBoundNode ctx sm ns) fun _ => True := by
  have hbound : Gives wanted sm (getNodeFromMachine ctx ns sm.metadata.name) fun _ => True := by
    refine (gives_fetchCapiMachine _).bind fun machine _ => ?_
    cases machine <;> exact yields_pure trivial
  refine hbound.bind fun bound _ => ?_
  cases bound with
  | none => exact yields_pure trivial
  | some nodeName =>
    refine (gives_ofExcept hparse).bind fun timeout _ => (gives_resolve hns).bind fun child _ => ?_
    exact gives_bestEffort (issues_drainNodeWithTimeout permitsReads_unphased (unphased_node _) _ _)

theorem gives_resolveSpotSchedule (reference : SpotScheduleRef) :
    Gives wanted sm (resolveSpotSchedule ns reference) fun verdict => verdict.active? = some wanted := by
  refine (gives_api rfl).bind fun answer hanswer => ?_
  cases answer with
  | error e => cases hanswer
  | ok ar =>
    have houtside : ar.group ≠ Constants.capiGroup := by simpa [smoothCall] using hanswer
    refine (gives_api rfl).bind fun answer hanswer => ?_
    simp only [smoothCall, if_neg houtside] at hanswer
    cases answer with
    | error e => cases hanswer
    | ok object => exact yields_pure (eq_of_beq hanswer)

theorem composeShouldBeActive_of_active {verdict : SpotScheduleVerdict} (h : verdict.active? = some wanted)
    (lastKnownSpotActive : Option Bool) : composeShouldBeActive verdict lastKnownSpotActive = wanted := by
  cases verdict <;> cases h <;> rfl

theorem gives_persistSpotScheduleStatus (name : String) (verdict : SpotScheduleVerdict) (previousActive : Option Bool) :
    Gives wanted sm (persistSpotScheduleStatus ns name verdict previousActive) fun _ => True := by
  have htime : Gives wanted sm (spotTransitionTime verdict previousActive) fun _ => True := by
    unfold spotTransitionTime
    split
    · exact gives_local.bind fun _ _ => yields_pure trivial
    · exact yields_pure trivial
  refine htime.bind fun time _ => (gives_api rfl).bind fun answer hanswer => ?_
  exact ⟨fun phase => ((gives_orKubeError hanswer).ends phase).mono fun x phase' ⟨hphase, a, ha, _⟩ => ⟨hphase, a, ha, trivial⟩⟩

theorem gives_checkEmergencyReclaim : Gives wanted sm (checkEmergencyReclaim ctx sm) fun action => action = none := by
  unfold checkEmergencyReclaim
  split
  · exact yields_pure rfl
  · refine (gives_api rfl).bind fun answer hanswer => ?_
    cases answer with
    | error e =>
      have hmissing : e.isNotFound = true := by simpa [smoothCall] using hanswer
      simp only [hmissing, if_true]
      exact yields_pure rfl
    | ok node =>
      have hcalm : nodeReclaimRequest node = none := by simpa [smoothCall] using hanswer
      simp only [hcalm]
      exact yields_pure rfl

/-! ## One reconcile -/

theorem ends_writePhase {ns name reason message : String} {fromPhase : Option Phase} {target : Phase} {inSchedule : Bool}
    {action : Action} {phase : Option Phase} :
    Smoothly wanted sm
      ((writePhase ns name fromPhase target reason message inSchedule).bind fun _ => .pure action)
      (fun _ phase' => phase' = some target) phase := by
  have hevent : Gives wanted sm (publishBestEffort (buildPhaseTransitionEvent fromPhase target reason message)) fun _ => True :=
    (gives_api rfl).bind fun _ _ => yields_pure trivial
  refine Ends.bind (hevent.then fun _ _ => gives_local.then fun now _ => ?_)
  intro answer hanswer
  cases answer with
  | ok => exact ⟨(), rfl, rfl⟩
  | error e => cases hanswer

variable {enabled : Bool} {phase : Option Phase}

/-- What one reconcile makes of a phase. -/
abbrev Moves (wanted : Bool) (sm : ScheduledMachine) (p : Ctl Action) (target : Option Phase) : Prop :=
  Smoothly wanted sm p (fun _ phase' => phase' = target) sm.phase

theorem moves_handlePendingPhase (hns : sm.metadata.ns = some ns) (henabled : sm.spec.enabled = enabled)
    (hspec : (enabled && wanted) = true → succeeded (planCapi sm.spec) = true ∧ succeeded (validateCapiMetadata sm) = true) :
    Moves wanted sm (handlePendingPhase ctx sm wanted)
      (if !enabled then some .disabled else if !wanted then some .inactive else some .active) := by
  refine Yields.then (gives_requireNamespace hns) fun _ _ => ?_
  rw [henabled]
  cases enabled with
  | false => exact ends_writePhase
  | true =>
    cases wanted with
    | false => exact ends_writePhase
    | true =>
      obtain ⟨hplan, hmetadata⟩ := hspec rfl
      refine Yields.then (Yields.attempt (gives_addMachineToCluster hplan hmetadata)) fun outcome houtcome => ?_
      obtain ⟨_, rfl, -⟩ := houtcome
      exact ends_writePhase

theorem moves_handleActivePhase (hns : sm.metadata.ns = some ns) (henabled : sm.spec.enabled = enabled)
    (hphase : sm.phase = some .active) :
    Moves wanted sm (handleActivePhase ctx sm wanted)
      (if enabled && wanted then some .active else some .shuttingDown) := by
  refine Yields.then (gives_requireNamespace hns) fun _ _ => ?_
  rw [henabled, hphase]
  cases enabled with
  | false => exact ends_writePhase
  | true =>
    cases wanted with
    | false => exact ends_writePhase
    | true =>
      exact ends_of_issues (fun r hr _ => phaseAfter_unphased hr _) (enrichActive_unphased.bind fun _ => trivial) fun _ => rfl

theorem moves_handleShuttingDownPhase (hns : sm.metadata.ns = some ns) (h : ShuttingDown sm)
    (hgrace : succeeded (parseDuration sm.spec.gracefulShutdownTimeout) = true)
    (hdrain : succeeded (parseDuration sm.spec.nodeDrainTimeout) = true) :
    Moves wanted sm (handleShuttingDownPhase ctx sm) (some .inactive) := by
  refine Yields.then (gives_requireNamespace hns) fun ns' hns' => ?_
  subst hns'
  refine Yields.then (gives_checkGracePeriodElapsed h hgrace) fun elapsed helapsed => ?_
  rw [helapsed]
  refine Yields.then (gives_drainBoundNode hns hdrain) fun _ _ => ?_
  refine Yields.then (Yields.attempt gives_removeMachineFromCluster) fun outcome houtcome => ?_
  obtain ⟨_, rfl, -⟩ := houtcome
  exact ends_writePhase

theorem moves_dispatchPhase (hns : sm.metadata.ns = some ns) (henabled : sm.spec.enabled = enabled)
    (hspec : (enabled && wanted) = true → succeeded (planCapi sm.spec) = true ∧ succeeded (validateCapiMetadata sm) = true)
    (hshut : sm.phase = some .shuttingDown → ShuttingDown sm ∧
      succeeded (parseDuration sm.spec.gracefulShutdownTimeout) = true ∧
      succeeded (parseDuration sm.spec.nodeDrainTimeout) = true) :
    Moves wanted sm (dispatchPhase ctx sm wanted) (lifecycle enabled wanted sm.phase) := by
  have hrequire : requireNamespace sm = .ok ns := by rw [requireNamespace, hns]
  unfold dispatchPhase lifecycle
  cases hphase : sm.phase with
  | none => exact moves_handlePendingPhase hns henabled hspec
  | some phase =>
    cases phase with
    | pending | unknown => exact moves_handlePendingPhase hns henabled hspec
    | active => exact moves_handleActivePhase hns henabled hphase
    | shuttingDown =>
      obtain ⟨hstamped, hgrace, hdrain⟩ := hshut hphase
      exact moves_handleShuttingDownPhase hns hstamped hgrace hdrain
    | inactive =>
      rw [Moves, hphase, handleInactivePhase, hrequire, henabled]
      cases enabled with
      | false => rfl
      | true =>
        cases wanted with
        | false => rfl
        | true => exact ends_writePhase
    | disabled =>
      rw [Moves, hphase, handleDisabledPhase, hrequire, henabled]
      cases enabled with
      | false => rfl
      | true => exact ends_writePhase
    | terminated =>
      rw [Moves, hphase]
      rfl
    | emergencyRemove =>
      rw [handleEmergencyRemovePhase, hrequire]
      exact ends_writePhase
    | error =>
      rw [Moves, hphase, handleErrorPhase, hrequire]
      rfl

/-- A reconcile takes the phase one step along its lifecycle. -/
theorem moves_reconcileScheduledMachine (h : intended wanted sm ctx enabled = true)
    (hshut : sm.phase = some .shuttingDown → ShuttingDown sm) :
    Moves wanted sm (reconcileScheduledMachine ctx sm) (lifecycle enabled wanted sm.phase) := by
  simp only [intended, Bool.and_eq_true, Bool.not_eq_true', beq_iff_eq, assigned, Bool.or_eq_true, bne_iff_ne, ne_eq,
    Option.isSome_iff_exists] at h
  obtain ⟨⟨⟨⟨⟨⟨⟨⟨⟨hleader, hassigned⟩, ns, hns⟩, halive⟩, hfinalizer⟩, hvalid⟩, hkill⟩, henabled⟩, hspec⟩, hdurations⟩ := h
  have hrequire : requireNamespace sm = .ok ns := by rw [requireNamespace, hns]
  rw [hns, Option.getD_some] at hassigned
  have hspec' : (enabled && wanted) = true → succeeded (planCapi sm.spec) = true ∧ succeeded (validateCapiMetadata sm) = true := by
    intro hboth
    rcases hspec with hneither | hspec
    · rw [hboth] at hneither
      cases hneither
    · exact hspec
  have hshut' : sm.phase = some .shuttingDown → ShuttingDown sm ∧
      succeeded (parseDuration sm.spec.gracefulShutdownTimeout) = true ∧
      succeeded (parseDuration sm.spec.nodeDrainTimeout) = true := by
    intro hphase
    rcases hdurations with hother | hdurations
    · exact absurd hphase hother
    · exact ⟨hshut hphase, hdurations⟩
  simp only [Moves, reconcileScheduledMachine, hrequire, Prog.ofExcept, Prog.bind_def, Prog.pure_bind, reconcileGuarded,
    hleader, hassigned, halive, hfinalizer, Bool.not_true, if_false, Bool.false_eq_true, reconcileInner]
  refine Yields.then (gives_ofExcept hvalid) fun _ _ => ?_
  rw [hkill]
  refine Yields.then gives_checkEmergencyReclaim fun action haction => ?_
  subst haction
  refine Yields.then (gives_resolveSpotSchedule _) fun verdict hverdict => ?_
  refine Yields.then (gives_persistSpotScheduleStatus ..) fun _ _ => ?_
  rw [composeShouldBeActive_of_active hverdict]
  exact moves_dispatchPhase hns henabled hspec' hshut'

end

/-! ## Runs -/

theorem phase_serve {wanted : Bool} {sm sm' : ScheduledMachine} {w : World} {r : Req} {fate : Fate} {phase : Option Phase}
    (hsmooth : smoothAnswer wanted sm r (serve w r fate).1 = true) (hw : ∀ sm', w.sm = some sm' → sm'.phase = phase)
    (hsm' : (serve w r fate).2.sm = some sm') : sm'.phase = phaseAfter phase r := by
  cases r with
  | api client call =>
    obtain ⟨applied, error, ha⟩ := exists_answered w client call fate
    rw [ha.sm] at hsm'
    rcases isPhaseWrite_cases call with hcall | ⟨ns, name, target, message, conditions, inSchedule, ready, rfl⟩
    · rw [phaseAfter_call hcall]
      cases applied with
      | false => exact hw sm' hsm'
      | true =>
        obtain ⟨before, hbefore, hon⟩ := Option.bind_eq_some_iff.mp hsm'
        rw [(sameCore_onSm hcall hon).phase]
        exact hw before hbefore
    · rw [ha.ok hsmooth] at hsm'
      obtain ⟨before, -, hon⟩ := Option.bind_eq_some_iff.mp hsm'
      cases hon
      rfl
  | loc op =>
    obtain ⟨hsame, -⟩ := performLocal_frame w op
    exact hw sm' (hsame ▸ hsm')
  | timer seconds =>
    obtain ⟨hsame, -⟩ := serve_timer_frame w seconds fate
    exact hw sm' (hsame ▸ hsm')

/-- After `n` reconciles the phase has gone `n` steps; the one in progress has read that phase. -/
def OnTrack (enabled wanted : Bool) (origin : Option Phase) (n : Nat) (w : World) : Option (Snapshot × Option Phase) → Prop
  | none => ∀ sm, w.sm = some sm → sm.phase = (lifecycle enabled wanted)^[n] origin
  | some (snap, phase) => snap.sm.phase = (lifecycle enabled wanted)^[n] origin ∧ ∀ sm, w.sm = some sm → sm.phase = phase

theorem phase_interfere {e : Interference} {w : World} {phase : Option Phase} (hw : ∀ sm, w.sm = some sm → sm.phase = phase)
    {sm : ScheduledMachine} (hsm : (interfere e w).sm = some sm) : sm.phase = phase := by
  obtain ⟨before, hbefore, hcore, -⟩ := (interfere_frame e w).2 sm hsm
  rw [hcore.phase]
  exact hw before hbefore

theorem onTrack_advances {ctx : Context} {enabled wanted : Bool} {w₀ : World} {sm₀ : ScheduledMachine}
    (hw₀ : (system ctx).Reach Fresh (fun _ _ => True) ⟨w₀, none⟩) (hsm₀ : w₀.sm = some sm₀) :
    (system ctx).Advances (fun snap r answer => smoothAnswer wanted snap.sm r answer = true)
      (fun phase r _ => phaseAfter phase r) (fun snap => snap.sm.phase)
      (fun snap _ phase => phase = lifecycle enabled wanted snap.sm.phase) (fun w => w = w₀)
      (fun s a => smooth ctx enabled wanted s a = true) (OnTrack enabled wanted sm₀.phase) where
  base w hw := by
    intro sm hsm
    rw [hw] at hsm
    cases hsm₀.symm.trans hsm
    rfl
  interfere n w pass now e h _ := by
    cases now with
    | none => exact fun sm hsm => phase_interfere h hsm
    | some now => exact ⟨h.1, fun sm hsm => phase_interfere h.2 hsm⟩
  start n w snap hrounds h hsnap hok := by
    obtain ⟨sm, hsm, rfl⟩ := Option.map_eq_some_iff.mp hsnap
    have hreach : (system ctx).Reach Fresh (fun _ _ => True) ⟨w, none⟩ :=
      (System.Rounds.reach _ hrounds).trans _ (fun w hw => hw ▸ hw₀) fun _ _ _ => trivial
    have hintended : intended wanted sm (ctx.led w.leader) enabled = true := by
      simpa [smooth, hsm] using hok
    refine ⟨⟨h sm hsm, fun sm' hsm' => ?_⟩, moves_reconcileScheduledMachine hintended (shuttingDown_of_reach hreach hsm)⟩
    cases hsm.symm.trans hsm'
    rfl
  answer n w snap r k trace phase fate h hok := by
    have hsmooth : smoothAnswer wanted snap.sm r (serve w r fate).1 = true := by simpa [smooth] using hok
    exact ⟨hsmooth, h.1, fun sm hsm => phase_serve hsmooth h.2 hsm⟩
  finish n w snap x phase h hx := by
    intro sm hsm
    rw [h.2 sm hsm, hx, h.1, Function.iterate_succ_apply']
  alive s := nofun

end FiveSpot
