import FiveSpot.Safety.Objects
import FiveSpot.Interaction.Execution

/-! # Shutting down what was provisioned

The two durations of a spec are parsed only when a machine is shut down; nothing looks at them before a
machine is created.
-/

namespace FiveSpot

set_option autoImplicit false

open Interaction

def ReconcilerError.isInvalidConfig : ReconcilerError → Bool
  | .invalidConfig _ => true
  | _ => false

def anyoneActs (w w' : World) : Prop := ∃ e, w' = interfere e w

def serveOk (w : World) (r : Req) (_ : Unit) : Resp r × World := serve w r .ok

section

variable (ctx : Context) (sm : ScheduledMachine)

/-- Some reconcile of the resource takes it from `Pending` to `Active`. -/
def Provisions : Prop :=
  pendingLike sm.phase = true ∧ ∃ w w' action sm', w.sm = some sm ∧
    Runs serve anyoneActs w (reconcileInner ctx sm) (.ok action) w' ∧ w'.sm = some sm' ∧ sm'.phase = some .active

/-- The conditions a shutdown begins with. -/
def ShutdownStamp (conditions : List Condition) : Prop :=
  ∃ time reason message, conditions =
    [.new time Constants.conditionTypeReady Constants.conditionStatusTrue reason message] ∧
      (reason = Constants.reasonGracePeriod ∨ reason = Constants.reasonScheduleDisabled)

structure ShuttingDown (sm : ScheduledMachine) : Prop where
  phase : sm.phase = some .shuttingDown
  stamp : ShutdownStamp sm.conditions

/-- With every call carried out, no later reconcile of the unchanged spec ends its shutdown with
`InvalidConfig`. -/
def ShutsDown : Prop :=
  ∀ later : ScheduledMachine, later.spec = sm.spec → later.metadata.ns = sm.metadata.ns → ShuttingDown later →
    ∀ w w' e, Runs serveOk anyoneActs w (handleShuttingDownPhase ctx later) (.error e) w' → e.isInvalidConfig = false

end

def DurationsParse (spec : ScheduledMachineSpec) : Prop :=
  (∃ seconds, parseDuration spec.gracefulShutdownTimeout = .ok seconds) ∧
    ∃ seconds, parseDuration spec.nodeDrainTimeout = .ok seconds

/-! ## Every shutdown begins like this -/

/-- If the last phase on record is `ShuttingDown`, it was written with such conditions. -/
def ShutdownStamped (log : List Event) : Prop :=
  ∀ record, lastPhase log = some record → record.target = .shuttingDown → ShutdownStamp record.conditions

theorem ShutdownStamped.cons {e : Event} {log : List Event} (h : ShutdownStamped log) (he : e.phaseWrite = none) :
    ShutdownStamped (e :: log) := by
  unfold ShutdownStamped
  rw [lastPhase_cons_of_none he]
  exact h

theorem shutdownStamp_of_legal {ctx : Context} {sm : ScheduledMachine} {t : List Obs} {conditions : List Condition}
    (h : Legal ctx sm t (.phase .shuttingDown conditions)) : ShutdownStamp conditions := by
  cases h with
  | activeShutdown path phase clean cause stamp =>
    obtain ⟨now, rest, message, -, rfl⟩ := stamp
    refine ⟨now, _, message, rfl, ?_⟩
    rw [cause]
    cases sm.spec.enabled with
    | true => exact .inl rfl
    | false => exact .inr rfl

theorem shutdownStamped_keeps (ctx : Context) (ok : RunState → RunAct → Prop) :
    LogKeeps ctx ok Base fun _ log _ => ShutdownStamped log where
  base _ := fun _ h => (nomatch h)
  pause _ _ _ _ h _ := h
  edit _ _ _ _ h _ := h.cons rfl
  deletion _ _ _ h _ := h.cons rfl
  start _ _ _ h _ _ := h.cons rfl
  call w snap client call k trace fate after applied error hbase h hlegal hok ha := by
    cases callKind ha with
    | other obs write creates => exact h.cons write
    | create key effect obs write => exact h.cons write
    | phase target conditions done effect obs write creates done_applied =>
      cases applied with
      | false => exact h.cons write
      | true =>
        intro record hrecord htarget
        rw [lastPhase_cons, write] at hrecord
        cases hrecord
        cases htarget
        exact shutdownStamp_of_legal (hlegal _ effect)
  clock _ _ _ _ h := h
  timeout _ _ _ _ h := h.cons rfl
  leave _ _ _ _ h := h
  crash _ _ h := h.cons rfl

/-- Whenever a reconcile finds the resource in `ShuttingDown`, its shutdown has begun like that. -/
theorem shuttingDown_of_reach {ctx : Context} {ok : RunState → RunAct → Prop} {s : RunState}
    (hs : (system ctx).Reach Fresh ok s) {sm : ScheduledMachine} (hsm : s.world.sm = some sm)
    (hphase : sm.phase = some .shuttingDown) : ShuttingDown sm := by
  have hbase := base_of_reach hs
  have hrecorded := hbase.recorded sm hsm
  have hstamped := (shutdownStamped_keeps ctx ok).holds (fun _ hs => base_of_reach hs) hs
  have hlast := hrecorded.phase.symm.trans hphase
  obtain ⟨record, hrecord, htarget⟩ := Option.map_eq_some_iff.mp hlast
  refine ⟨hphase, ?_⟩
  rw [hrecorded.conditions, hrecord]
  exact hstamped record hrecord htarget

/-! ## Errors of the shutdown -/

abbrev Sound {α : Type} (p : Ctl α) : Prop := p.Errors fun e => e.isInvalidConfig = false

theorem sound_api {client : Client} {call : ApiCall} : Sound (api client call) := fun _ => trivial

theorem sound_local {op : LocalOp} : Sound (local_ op) := fun _ => trivial

theorem sound_orKubeError {α : Type} (x : Except KubeError α) : Sound (orKubeError x) := by
  cases x with
  | ok a => trivial
  | error e => rfl

theorem sound_orError {α : Type} {f : KubeError → ReconcilerError} (hf : ∀ e, (f e).isInvalidConfig = false)
    (x : Except KubeError α) : Sound (orError f x) := by
  cases x with
  | ok a => trivial
  | error e => exact hf e

theorem sound_bestEffort {α : Type} (p : Ctl α) : Sound (bestEffort p) :=
  (Prog.errors_attempt _ p).bind fun _ => trivial

theorem sound_writePhase (ns name : String) (fromPhase : Option Phase) (target : Phase) (reason message : String)
    (inSchedule : Bool) : Sound (writePhase ns name fromPhase target reason message inSchedule) := by
  have hpublish : ∀ event, Sound (publishBestEffort event) := fun event => sound_api.bind fun _ => trivial
  refine (hpublish _).bind fun _ => sound_local.bind fun now => ?_
  exact sound_api.bind fun answer => sound_orKubeError answer

theorem sound_buildChildClient (ns secretName key : String) (secret : Secret) :
    Sound (buildChildClient ns secretName key secret) := by
  unfold buildChildClient
  split
  · rfl
  · rfl
  · refine sound_local.bind fun unusable => ?_
    cases unusable with
    | some reason => rfl
    | none =>
      have hhook : ∀ key, Sound (hookEvicted key) := by
        intro key
        cases key with
        | none => trivial
        | some key => exact sound_local
      refine sound_local.bind fun inserted => ?_
      refine (hhook _).bind fun _ => (hhook _).bind fun _ => ?_
      exact sound_local.bind fun _ => trivial

theorem sound_buildOrGetCached (ns secretName key : String) (explicit : Bool) :
    Sound (buildOrGetCached ns secretName key explicit) := by
  have hfailure : ∀ e, (secretFailure ns secretName explicit e).isInvalidConfig = false := by
    intro e
    cases explicit <;> cases hnotFound : e.isNotFound <;> simp [secretFailure, hnotFound, ReconcilerError.isInvalidConfig]
  refine sound_api.bind fun answer => (sound_orError hfailure answer).bind fun secret => ?_
  refine sound_local.bind fun cached => ?_
  cases cached with
  | some kubeconfig => trivial
  | none => exact sound_buildChildClient _ _ _ _

theorem sound_resolve {sm : ScheduledMachine} {ns : String} (hns : sm.metadata.ns = some ns) : Sound (resolve sm) := by
  unfold resolve
  rw [hns]
  dsimp only
  cases sm.spec.kubeconfigSecretRef with
  | some ref => exact sound_buildOrGetCached _ _ _ _
  | none =>
    have hbuild := sound_buildOrGetCached ns (autoSecretName sm) Constants.defaultKubeconfigSecretKey false
    refine hbuild.bind_attempt (fun resolved => trivial) fun e he => ?_
    cases e with
    | notFound text => trivial
    | _ => exact he

theorem graceStart_of_shuttingDown {sm : ScheduledMachine} (h : ShuttingDown sm) :
    ∃ status, sm.status = some status ∧ (graceStart status = none ∨ ∃ start, graceStart status = some (.valid start)) := by
  obtain ⟨hphase, time, reason, message, hconditions, -⟩ := h
  cases hstatus : sm.status with
  | none => simp [ScheduledMachine.phase, hstatus] at hphase
  | some status =>
    simp only [ScheduledMachine.conditions, hstatus] at hconditions
    refine ⟨status, rfl, ?_⟩
    by_cases hreason : reason = Constants.reasonGracePeriod
    · exact .inr ⟨time, by simp [graceStart, hconditions, Condition.new, hreason]⟩
    · exact .inl (by simp [graceStart, hconditions, Condition.new, hreason])

theorem sound_checkGracePeriodElapsed {sm : ScheduledMachine} (h : ShuttingDown sm) {seconds : Nat}
    (hparse : parseDuration sm.spec.gracefulShutdownTimeout = .ok seconds) : Sound (checkGracePeriodElapsed sm) := by
  obtain ⟨status, hstatus, hstart⟩ := graceStart_of_shuttingDown h
  rcases hstart with hnone | ⟨start, hvalid⟩
  · simp only [checkGracePeriodElapsed, hstatus, hnone]
    trivial
  · simp only [checkGracePeriodElapsed, hstatus, hvalid, hparse]
    exact sound_local.bind fun now => trivial

theorem sound_drainBoundNode {ctx : Context} {sm : ScheduledMachine} {ns : String} (hns : sm.metadata.ns = some ns)
    {seconds : Nat} (hparse : parseDuration sm.spec.nodeDrainTimeout = .ok seconds) : Sound (drainBoundNode ctx sm ns) := by
  have hfetch : Sound (fetchCapiMachine ctx ns sm.metadata.name) := by
    refine sound_api.bind fun answer => ?_
    cases answer with
    | ok machine => trivial
    | error e =>
      dsimp only
      split
      · trivial
      · rfl
  have hnode : Sound (getNodeFromMachine ctx ns sm.metadata.name) := by
    refine hfetch.bind fun found => ?_
    cases found <;> trivial
  refine hnode.bind fun bound => ?_
  cases bound with
  | none => trivial
  | some nodeName =>
    simp only [hparse, Prog.ofExcept, Prog.bind_def, Prog.pure_bind]
    exact (sound_resolve hns).bind fun resolved => sound_bestEffort _

theorem sound_handleShuttingDownPhase {ctx : Context} {sm : ScheduledMachine} {ns : String} (hns : sm.metadata.ns = some ns)
    (h : ShuttingDown sm) (hparse : DurationsParse sm.spec) : Sound (handleShuttingDownPhase ctx sm) := by
  obtain ⟨⟨_, hgrace⟩, ⟨_, hdrain⟩⟩ := hparse
  simp only [handleShuttingDownPhase, requireNamespace, hns, Prog.ofExcept, Prog.bind_def, Prog.pure_bind]
  refine (sound_checkGracePeriodElapsed h hgrace).bind fun elapsed => ?_
  split
  · refine (sound_drainBoundNode hns hdrain).bind fun _ => ?_
    refine (Prog.errors_attempt _ _).bind fun outcome => ?_
    cases outcome with
    | error e =>
      refine Prog.Errors.bind (sound_writePhase _ _ _ _ _ _ _) fun _ => ?_
      trivial
    | ok _ =>
      refine Prog.Errors.bind (sound_writePhase _ _ _ _ _ _ _) fun _ => ?_
      trivial
  · trivial

/-! ## A duration that does not parse -/

theorem parseDuration_error {text : String} {e : ReconcilerError} (h : parseDuration text = .error e) :
    e.isInvalidConfig = true := by
  simp only [parseDuration] at h
  repeat' split at h
  all_goals cases h <;> rfl

theorem exists_of_parse {text : String} (h : ∀ e, parseDuration text ≠ .error e) : ∃ seconds, parseDuration text = .ok seconds := by
  cases hparse : parseDuration text with
  | ok seconds => exact ⟨seconds, rfl⟩
  | error e => exact absurd hparse (h e)

def shutdownBegun (sm : ScheduledMachine) (reason : String) : ScheduledMachine :=
  sm.patchStatus (.phase .shuttingDown "" [.new 0 Constants.conditionTypeReady Constants.conditionStatusTrue reason ""]
    false false)

theorem shutdownBegun_shuttingDown {sm : ScheduledMachine} {reason : String}
    (h : reason = Constants.reasonGracePeriod ∨ reason = Constants.reasonScheduleDisabled) :
    ShuttingDown (shutdownBegun sm reason) := ⟨rfl, 0, reason, "", rfl, h⟩

theorem namespace_of_provisions {ctx : Context} {sm : ScheduledMachine} (h : Provisions ctx sm) :
    ∃ ns, sm.metadata.ns = some ns := by
  obtain ⟨-, w, w', action, sm', -, hrun, -⟩ := h
  obtain ⟨ns, w₁, hns, -⟩ := Runs.of_bind_ok hrun
  exact ⟨ns, requireNamespace_eq_ok (Runs.of_ofExcept hns).symm⟩

theorem graceful_parses {ctx : Context} {sm : ScheduledMachine} {ns : String} (hns : sm.metadata.ns = some ns)
    (h : ShutsDown ctx sm) : ∃ seconds, parseDuration sm.spec.gracefulShutdownTimeout = .ok seconds := by
  refine exists_of_parse fun e he => ?_
  have hfail : handleShuttingDownPhase ctx (shutdownBegun sm Constants.reasonGracePeriod) = .fail e := by
    have hns' : requireNamespace (shutdownBegun sm Constants.reasonGracePeriod) = .ok ns := by
      simp [requireNamespace, shutdownBegun, ScheduledMachine.patchStatus, hns]
    have hcheck : checkGracePeriodElapsed (shutdownBegun sm Constants.reasonGracePeriod) = .fail e := by
      have hspec : (shutdownBegun sm Constants.reasonGracePeriod).spec = sm.spec := rfl
      simp only [checkGracePeriodElapsed, hspec, he]
      rfl
    rw [handleShuttingDownPhase, hns']
    simp only [Prog.ofExcept, Prog.bind_def, Prog.pure_bind, hcheck, Prog.fail_bind]
  have hrun : Runs serveOk anyoneActs demoWorld
      (handleShuttingDownPhase ctx (shutdownBegun sm Constants.reasonGracePeriod)) (.error e) demoWorld := by
    rw [hfail]
    exact .fail
  have hsound := h (shutdownBegun sm Constants.reasonGracePeriod) rfl rfl (shutdownBegun_shuttingDown (.inl rfl)) _ _ _ hrun
  rw [parseDuration_error he] at hsound
  cases hsound

def boundWorld : World := { demoWorld with env := { demoEnv with object := fun _ => some (machineOn "node-1") } }

theorem drain_parses {ctx : Context} {sm : ScheduledMachine} {ns : String} (hns : sm.metadata.ns = some ns)
    (h : ShutsDown ctx sm) : ∃ seconds, parseDuration sm.spec.nodeDrainTimeout = .ok seconds := by
  refine exists_of_parse fun e he => ?_
  have hexec : ((handleShuttingDownPhase ctx (shutdownBegun sm Constants.reasonScheduleDisabled)).exec serveOk ()
      boundWorld).1 = .error e := by
    have hns' : requireNamespace (shutdownBegun sm Constants.reasonScheduleDisabled) = .ok ns := by
      simp [requireNamespace, shutdownBegun, ScheduledMachine.patchStatus, hns]
    have hcheck : checkGracePeriodElapsed (shutdownBegun sm Constants.reasonScheduleDisabled) = .pure true := rfl
    have hspec : (shutdownBegun sm Constants.reasonScheduleDisabled).spec = sm.spec := rfl
    rw [handleShuttingDownPhase, hns']
    simp only [Prog.ofExcept, Prog.bind_def, Prog.pure_bind, hcheck, if_true, drainBoundNode, hspec, he]
    rfl
  have hrun := Runs.of_exec serveOk anyoneActs ()
    (handleShuttingDownPhase ctx (shutdownBegun sm Constants.reasonScheduleDisabled)) boundWorld
  rw [hexec] at hrun
  have hsound := h (shutdownBegun sm Constants.reasonScheduleDisabled) rfl rfl (shutdownBegun_shuttingDown (.inr rfl))
    _ _ _ hrun
  rw [parseDuration_error he] at hsound
  cases hsound

/-- For every resource: if it can be provisioned then it can be shut down, if and only if its durations
parse or it cannot be provisioned at all. -/
theorem provisioned_shuts_down_iff (ctx : Context) (sm : ScheduledMachine) :
    (Provisions ctx sm → ShutsDown ctx sm) ↔ (Provisions ctx sm → DurationsParse sm.spec) := by
  constructor
  · intro h hprovisions
    obtain ⟨ns, hns⟩ := namespace_of_provisions hprovisions
    exact ⟨graceful_parses hns (h hprovisions), drain_parses hns (h hprovisions)⟩
  · intro h hprovisions later hspec hsame hshutting w w' e hrun
    obtain ⟨ns, hns⟩ := namespace_of_provisions hprovisions
    have hparse : DurationsParse later.spec := hspec ▸ h hprovisions
    exact Runs.of_errors (sound_handleShuttingDownPhase (hsame.trans hns) hshutting hparse) hrun

/-! ## A grace period of two days -/

def patientMachine : ScheduledMachine :=
  { demoMachine with spec := { demoSpec with gracefulShutdownTimeout := "48h" } }

theorem patientMachine_provisions : Provisions demoContext patientMachine := by
  have hrun := Runs.of_exec serve anyoneActs .ok (reconcileInner demoContext patientMachine)
    { demoWorld with sm := some patientMachine }
  have hok : succeeded ((reconcileInner demoContext patientMachine).exec serve .ok
      { demoWorld with sm := some patientMachine }).1 = true := by decide +kernel
  have hphase : (((reconcileInner demoContext patientMachine).exec serve .ok
      { demoWorld with sm := some patientMachine }).2.sm.bind (·.phase)) = some .active := by decide +kernel
  obtain ⟨sm', hsm', hphase⟩ := Option.bind_eq_some_iff.mp hphase
  cases hresult : ((reconcileInner demoContext patientMachine).exec serve .ok
      { demoWorld with sm := some patientMachine }).1 with
  | error e =>
    rw [hresult] at hok
    cases hok
  | ok action =>
    rw [hresult] at hrun
    exact ⟨rfl, _, _, action, sm', rfl, hrun, hsm', hphase⟩

/-- It gets its machine, and its shutdown fails as soon as it begins: 24 hours are the maximum. -/
theorem patientMachine_does_not_shut_down :
    ¬∀ (ctx : Context) (sm : ScheduledMachine), Provisions ctx sm → ShutsDown ctx sm := by
  intro h
  obtain ⟨seconds, hparse⟩ := graceful_parses rfl (h demoContext patientMachine patientMachine_provisions)
  have hrejected : succeeded (parseDuration patientMachine.spec.gracefulShutdownTimeout) = false := by decide +kernel
  rw [hparse] at hrejected
  cases hrejected

end FiveSpot
