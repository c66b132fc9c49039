import FiveSpot.Cluster.LogInvariant

/-! # Signals of readiness

A status says three times whether the machine is ready: in the condition `Ready`, in `ready`, and in the
phase. Every phase write sets the condition to `True`, whatever the phase.
-/

namespace FiveSpot

set_option autoImplicit false

open Interaction

def ScheduledMachineStatus.readyCondition (status : ScheduledMachineStatus) : Bool :=
  status.conditions.any Condition.isReadyTrue

structure SignalsAgree (status : ScheduledMachineStatus) : Prop where
  condition : status.readyCondition = true ↔ status.ready = true
  phase : status.ready = true ↔ status.phase = some .active

/-- No phase has been written yet, or one was, with its signals. -/
inductive Signalled (status : ScheduledMachineStatus) : Prop
  | blank (phase : status.phase = none) (conditions : status.conditions = []) (ready : status.ready = false)
  | written {target : Phase} (phase : status.phase = some target) (condition : status.readyCondition = true)
      (ready : status.ready = (target == .active))

section

variable {status : ScheduledMachineStatus}

theorem signalsAgree_iff (h : Signalled status) : SignalsAgree status ↔ status.phase = none ∨ status.phase = some .active := by
  cases h with
  | blank phase conditions ready =>
    constructor
    · exact fun _ => .inl phase
    · intro _
      constructor
      · simp [ScheduledMachineStatus.readyCondition, conditions, ready]
      · simp [phase, ready]
  | @written target phase condition ready =>
    constructor
    · intro h
      have hready : status.ready = true := h.condition.mp condition
      exact .inr (h.phase.mp hready)
    · rintro (hnone | hactive)
      · cases phase.symm.trans hnone
      · cases phase.symm.trans hactive
        constructor
        · simp [condition, ready]
        · simp [phase, ready]

theorem signalled_apply {ns name : String} {body : StatusPatch} (hbody : (ApiCall.patchStatus ns name body).signals = true)
    (h : Signalled status) : Signalled (body.apply status) := by
  cases body with
  | phase target message conditions inSchedule ready =>
    simp only [ApiCall.signals, Bool.and_eq_true, beq_iff_eq] at hbody
    exact .written rfl hbody.1 hbody.2
  | _ =>
    cases h with
    | blank phase conditions ready => exact .blank phase conditions ready
    | written phase condition ready => exact .written phase condition ready

theorem signalled_blank : Signalled .blank := .blank rfl rfl rfl

theorem signalled_getD {status : Option ScheduledMachineStatus} (h : ∀ s, status = some s → Signalled s) :
    Signalled (status.getD .blank) := by
  cases status with
  | none => exact signalled_blank
  | some s => exact h s rfl

end

/-! ## Runs -/

/-- The server carries out the call. -/
def carriesOut (w : World) (client : Client) (call : ApiCall) : Fate → Bool
  | .fail _ => false
  | _ => succeeded (perform w client call)

theorem sm_of_serveApi (w : World) (client : Client) (call : ApiCall) (fate : Fate) :
    (serveApi w client call fate).2.sm = if carriesOut w client call fate then w.sm.bind call.onSm else w.sm := by
  cases hperform : perform w client call with
  | error e => cases fate <;> simp [serveApi, hperform, carriesOut, succeeded, World.recordCall, World.record]
  | ok result =>
    obtain ⟨hsm, -, -, -⟩ := perform_frame hperform
    cases fate <;> simp [serveApi, hperform, carriesOut, succeeded, World.recordCall, World.record, hsm]

theorem onSm_status {call : ApiCall} {sm sm' : ScheduledMachine} (h : call.onSm sm = some sm') :
    sm'.status = sm.status ∨ ∃ ns name body, call = .patchStatus ns name body ∧
      sm'.status = some (body.apply (sm.status.getD .blank)) := by
  cases call with
  | patchStatus ns name body =>
    cases h
    exact .inr ⟨ns, name, body, rfl, rfl⟩
  | patchFinalizers ns name finalizers =>
    simp only [ApiCall.onSm, ScheduledMachine.setFinalizers] at h
    split at h
    · cases h
    · cases h
      exact .inl rfl
  | _ => cases h; exact .inl rfl

def keepsReady (s : RunState) : RunAct → Bool
  | .answer fate => (nextCall s).all fun ⟨_, client, call⟩ =>
      !carriesOut s.world client call fate || call.phaseTarget.all (· == .active)
  | _ => true

def Req.signals : Req → Bool
  | .api _ call => call.signals
  | _ => true

/-- Every phase write comes with its signals. -/
def signalling : Monitor Resp Unit where
  allowed _ r := r.signals = true
  observe _ _ _ := ()

theorem permits_signalling : PermitsPhases fun r => r.signals = true where
  call _ _ heffect _ := signals_of_effectOfCall_eq_none heffect
  loc _ _ := rfl
  write _ _ _ hsignals := hsignals
  timer _ := rfl
  node _ call hnode := by
    cases call with
    | patchStatus => cases hnode
    | _ => rfl

theorem signalling_conforms (ctx : Context) (snap : Snapshot) :
    Conforms signalling ((system ctx).program snap) (fun _ _ => True) () :=
  conforms_of_allowed (fun _ hr _ => hr)
    (issues_reconcileScheduledMachine permits_signalling (fun _ => rfl) (ctx.led snap.leader) snap.sm)

def StatusSignalled (w : World) (_ : Option (Snapshot × List (Sigma Resp))) : Prop :=
  ∀ sm status, w.sm = some sm → sm.status = some status → Signalled status

def StaysReady (w : World) (_ : Option (Snapshot × List (Sigma Resp))) : Prop :=
  ∀ sm, w.sm = some sm → sm.phase = none ∨ sm.phase = some .active

theorem statusSignalled_call {w : World} {client : Client} {call : ApiCall} {fate : Fate}
    (hw : StatusSignalled w none) (hcall : call.signals = true) :
    StatusSignalled (serveApi w client call fate).2 none := by
  intro sm' status hsm' hstatus
  rw [sm_of_serveApi] at hsm'
  split at hsm'
  · obtain ⟨sm, hsm, hon⟩ := Option.bind_eq_some_iff.mp hsm'
    rcases onSm_status hon with hsame | ⟨ns, name, body, rfl, hbody⟩
    · exact hw sm status hsm (hsame.symm.trans hstatus)
    · cases hbody.symm.trans hstatus
      exact signalled_apply hcall (signalled_getD fun s hs => hw sm s hsm hs)
  · exact hw sm' status hsm' hstatus

theorem statusSignalled_interfere {w : World} (e : Interference) (hw : StatusSignalled w none) :
    StatusSignalled (interfere e w) none := by
  intro sm' status hsm' hstatus
  obtain ⟨sm, hsm, hsame | ⟨nodeRef, rfl⟩⟩ := interfere_status hsm'
  · exact hw sm status hsm (hsame.symm.trans hstatus)
  · cases hstatus
    have hold := signalled_getD fun s hs => hw sm s hsm hs
    cases hold with
    | blank phase conditions ready => exact .blank phase conditions ready
    | written phase condition ready => exact .written phase condition ready

theorem statusSignalled_keeps (ctx : Context) (ok : RunState → RunAct → Prop) :
    (system ctx).Keeps (fun _ => signalling) (fun _ => ()) Fresh ok (fun _ _ => True) StatusSignalled where
  base w hw sm status hsm hstatus := by
    obtain ⟨sm₀, hsm₀, hnone, -⟩ := hw.sm
    cases hsm₀.symm.trans hsm
    cases hnone.symm.trans hstatus
  interfere _ _ e _ h _ _ := statusSignalled_interfere e h
  start _ _ _ h _ _ sm status hsm hstatus := h sm status hsm hstatus
  answer w _ r _ _ fate _ h hallowed _ := by
    cases r with
    | api client call => exact statusSignalled_call h hallowed
    | loc op =>
      intro sm status hsm hstatus
      have hsame : ((system ctx).serve w (.loc op) fate).2.sm = w.sm := (performLocal_frame w op).1
      rw [hsame] at hsm
      exact h sm status hsm hstatus
    | timer seconds =>
      intro sm status hsm hstatus
      have hsame : ((system ctx).serve w (.timer seconds) fate).2.sm = w.sm := (serve_timer_frame w seconds fate).1
      rw [hsame] at hsm
      exact h sm status hsm hstatus
  finish _ _ _ h := h
  kill _ _ _ h sm status hsm hstatus := h sm status hsm hstatus

theorem phase_of_phaseTarget {call : ApiCall} {sm sm' : ScheduledMachine} {target : Phase}
    (h : call.phaseTarget = some target) (hon : call.onSm sm = some sm') : sm'.phase = some target := by
  cases call with
  | patchStatus ns name body =>
    cases body with
    | phase => cases h; cases hon; rfl
    | _ => cases h
  | _ => cases h

theorem isPhaseWrite_of_phaseTarget {call : ApiCall} (h : call.phaseTarget = none) : call.isPhaseWrite = false := by
  cases call with
  | patchStatus ns name body =>
    cases body with
    | phase => cases h
    | _ => rfl
  | _ => rfl

theorem staysReady_call {w : World} {client : Client} {call : ApiCall} {fate : Fate} (hw : StaysReady w none)
    (hok : (!carriesOut w client call fate || call.phaseTarget.all (· == .active)) = true) :
    StaysReady (serveApi w client call fate).2 none := by
  intro sm' hsm'
  rw [sm_of_serveApi] at hsm'
  split at hsm'
  · rename_i hcarried
    obtain ⟨sm, hsm, hon⟩ := Option.bind_eq_some_iff.mp hsm'
    rw [hcarried] at hok
    cases htarget : call.phaseTarget with
    | none =>
      rw [(sameCore_onSm (isPhaseWrite_of_phaseTarget htarget) hon).phase]
      exact hw sm hsm
    | some target =>
      have hactive : target = .active := by simpa [htarget] using hok
      rw [phase_of_phaseTarget htarget hon, hactive]
      exact .inr rfl
  · exact hw sm' hsm'

theorem staysReady_keeps (ctx : Context) :
    (system ctx).Keeps (fun _ => signalling) (fun _ => ()) Fresh (fun s a => keepsReady s a = true) (fun _ _ => True)
      StaysReady where
  base w hw sm hsm := by
    obtain ⟨sm₀, hsm₀, hnone, -⟩ := hw.sm
    cases hsm₀.symm.trans hsm
    exact .inl (by simp [ScheduledMachine.phase, hnone])
  interfere w _ e _ h _ _ := by
    intro sm' hsm'
    obtain ⟨sm, hsm, hcore, -⟩ := (interfere_frame e w).2 sm' hsm'
    rw [hcore.phase]
    exact h sm hsm
  start _ _ _ h _ _ sm hsm := h sm hsm
  answer w _ r _ _ fate _ h _ hok := by
    cases r with
    | api client call => exact staysReady_call h hok
    | loc op =>
      intro sm hsm
      have hsame : ((system ctx).serve w (.loc op) fate).2.sm = w.sm := (performLocal_frame w op).1
      rw [hsame] at hsm
      exact h sm hsm
    | timer seconds =>
      intro sm hsm
      have hsame : ((system ctx).serve w (.timer seconds) fate).2.sm = w.sm := (serve_timer_frame w seconds fate).1
      rw [hsame] at hsm
      exact h sm hsm
  finish _ _ _ h := h
  kill _ _ _ h sm hsm := h sm hsm

/-- The signals agree while no phase has been written or the machine is active, and so do they as long as no
other phase is written. -/
theorem readiness_coherent {ctx : Context} {s : RunState} (hs : (system ctx).Reach Fresh (fun _ _ => True) s)
    {sm : ScheduledMachine} {status : ScheduledMachineStatus} (hsm : s.world.sm = some sm)
    (hstatus : sm.status = some status) :
    (SignalsAgree status ↔ status.phase = none ∨ status.phase = some .active) ∧
      ((system ctx).Reach Fresh (fun s a => keepsReady s a = true) s → SignalsAgree status) := by
  have hsignalled : Signalled status :=
    System.Reach.invariant _ (signalling_conforms ctx) (fun _ _ => trivial) (statusSignalled_keeps ctx _) hs
      sm status hsm hstatus
  have hiff := signalsAgree_iff hsignalled
  constructor
  · exact hiff
  · intro hready
    have hphase : sm.phase = none ∨ sm.phase = some .active :=
      System.Reach.invariant _ (signalling_conforms ctx) (fun _ _ => trivial) (staysReady_keeps ctx) hready sm hsm
    simp only [ScheduledMachine.phase, hstatus, Option.bind_some] at hphase
    exact hiff.mpr hphase

/-! ### Two machines -/

def isActive (s : RunState) : Bool := s.world.sm.any fun sm => sm.phase == some .active

/-- A machine is created in its first reconcile. -/
theorem readiness_coherent_created : ∃ s, (system demoContext).Reach Fresh (fun _ _ => True) s ∧
    ∃ sm status, s.world.sm = some sm ∧ sm.status = some status ∧ status.phase = some .active ∧ SignalsAgree status := by
  obtain ⟨s, hs, hactive⟩ := System.Reach.exists_of_runWith (system demoContext) keepsReady isActive
    (.start :: answers 13) demoWorld_fresh (by decide +kernel)
  have hreach : (system demoContext).Reach Fresh (fun _ _ => True) s := System.Reach.mono _ (fun _ _ _ => trivial) hs
  obtain ⟨sm, hsm, hphase⟩ := (Option.any_eq_true _ _).mp hactive
  have hsome : sm.phase = some .active := by simpa using hphase
  obtain ⟨status, hstatus, hstatus_phase⟩ := Option.bind_eq_some_iff.mp hsome
  exact ⟨s, hreach, sm, status, hsm, hstatus, hstatus_phase, (readiness_coherent hreach hsm hstatus).2 hs⟩

def disabledButReady (s : RunState) : Bool :=
  s.world.sm.any fun sm => sm.status.any fun status =>
    status.phase == some .disabled && status.readyCondition && !status.ready

/-- A disabled machine has the condition `Ready`. -/
theorem disabled_machine_ready : ∃ s, (system demoContext).Reach Fresh (fun _ _ => True) s ∧
    ∃ sm status, s.world.sm = some sm ∧ sm.status = some status ∧ status.phase = some .disabled ∧
      status.readyCondition = true ∧ ¬ SignalsAgree status := by
  obtain ⟨s, hs, hdisabled⟩ := System.Reach.exists_of_runWith (system demoContext) (fun _ _ => true) disabledButReady
    (.interfere (.editSpec disabledSpec) :: .start :: answers 7) demoWorld_fresh (by decide +kernel)
  have hreach : (system demoContext).Reach Fresh (fun _ _ => True) s := System.Reach.mono _ (fun _ _ _ => trivial) hs
  obtain ⟨sm, hsm, hany⟩ := (Option.any_eq_true _ _).mp hdisabled
  obtain ⟨status, hstatus, hboth⟩ := (Option.any_eq_true _ _).mp hany
  simp only [Bool.and_eq_true, beq_iff_eq, Bool.not_eq_true'] at hboth
  refine ⟨s, hreach, sm, status, hsm, hstatus, hboth.1.1, hboth.1.2, fun hagree => ?_⟩
  have hready := hagree.condition.mp hboth.1.2
  rw [hboth.2] at hready
  cases hready

end FiveSpot
