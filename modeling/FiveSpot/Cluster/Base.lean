import FiveSpot.Cluster.History

/-! # The resource agrees with the log

In every reachable state the resource carries the phase and the conditions of the last phase write
on record. A pass works on a snapshot; until it writes a phase itself, the snapshot stays as true as
it was when it was taken.
-/

namespace FiveSpot

set_option autoImplicit false

open Interaction

def ScheduledMachine.conditions (sm : ScheduledMachine) : List Condition :=
  match sm.status with
  | some status => status.conditions
  | none => []

/-- Phase and conditions are those of the last write on record. -/
structure Recorded (log : List Event) (sm : ScheduledMachine) : Prop where
  phase : sm.phase = phaseOf log
  conditions : sm.conditions = ((lastPhase log).map (·.conditions)).getD []

theorem lastPhase_cons (e : Event) (log : List Event) :
    lastPhase (e :: log) = (e.phaseWrite).or (lastPhase log) := by
  unfold lastPhase
  rw [List.findSome?_cons]
  cases e.phaseWrite <;> rfl

theorem lastPhase_cons_of_none {e : Event} (he : e.phaseWrite = none) (log : List Event) :
    lastPhase (e :: log) = lastPhase log := by
  rw [lastPhase_cons, he, Option.none_or]

theorem phaseOf_cons_of_none {e : Event} (he : e.phaseWrite = none) (log : List Event) :
    phaseOf (e :: log) = phaseOf log := by
  rw [phaseOf, lastPhase_cons_of_none he, phaseOf]

theorem Recorded.cons {e : Event} {log : List Event} {sm : ScheduledMachine} (h : Recorded log sm)
    (he : e.phaseWrite = none) : Recorded (e :: log) sm :=
  ⟨h.phase.trans (phaseOf_cons_of_none he log).symm, by
    rw [lastPhase_cons_of_none he]
    exact h.conditions⟩

/-- The parts of a resource that only phase writes change, and its identity. -/
structure SameCore (sm sm' : ScheduledMachine) : Prop where
  phase : sm'.phase = sm.phase
  conditions : sm'.conditions = sm.conditions
  name : sm'.metadata.name = sm.metadata.name
  ns : sm'.metadata.ns = sm.metadata.ns

theorem SameCore.recorded {log : List Event} {sm sm' : ScheduledMachine} (h : SameCore sm sm')
    (hsm : Recorded log sm) : Recorded log sm' :=
  ⟨h.phase.trans hsm.phase, h.conditions.trans hsm.conditions⟩

theorem sameCore_setFinalizers {sm sm' : ScheduledMachine} {finalizers : List String}
    (h : sm.setFinalizers finalizers = some sm') : SameCore sm sm' ∧ sm'.deleting = sm.deleting := by
  unfold ScheduledMachine.setFinalizers at h
  split at h
  · cases h
  · cases h
    exact ⟨⟨rfl, rfl, rfl, rfl⟩, rfl⟩

def ApiCall.isPhaseWrite : ApiCall → Bool
  | .patchStatus _ _ (.phase _ _ _ _ _) => true
  | _ => false

theorem sameCore_onSm {call : ApiCall} {sm sm' : ScheduledMachine} (hcall : call.isPhaseWrite = false)
    (h : call.onSm sm = some sm') : SameCore sm sm' := by
  cases call with
  | patchStatus ns name body =>
    cases h
    cases body with
    | phase => cases hcall
    | _ =>
      refine ⟨?_, ?_, rfl, rfl⟩
      · cases hs : sm.status <;>
          simp [ScheduledMachine.phase, ScheduledMachine.patchStatus, StatusPatch.apply, hs,
            ScheduledMachineStatus.blank]
      · cases hs : sm.status <;>
          simp [ScheduledMachine.conditions, ScheduledMachine.patchStatus, StatusPatch.apply, hs,
            ScheduledMachineStatus.blank]
  | patchFinalizers ns name finalizers => exact (sameCore_setFinalizers h).1
  | patchEnabled ns name value => cases h; exact ⟨rfl, rfl, rfl, rfl⟩
  | _ => cases h; exact ⟨rfl, rfl, rfl, rfl⟩

theorem onSm_identity {call : ApiCall} {sm sm' : ScheduledMachine} (h : call.onSm sm = some sm') :
    sm'.metadata.name = sm.metadata.name ∧ sm'.metadata.ns = sm.metadata.ns ∧
      sm'.deleting = sm.deleting := by
  cases call with
  | patchFinalizers ns name finalizers =>
    obtain ⟨hcore, hdeleting⟩ := sameCore_setFinalizers h
    exact ⟨hcore.name, hcore.ns, hdeleting⟩
  | _ => cases h; exact ⟨rfl, rfl, rfl⟩

theorem onSm_spec {call : ApiCall} {sm sm' : ScheduledMachine} (h : call.onSm sm = some sm') :
    sm'.spec = sm.spec ∨ ∃ ns name value, call = .patchEnabled ns name value ∧
      sm'.spec = { sm.spec with enabled := value } := by
  cases call with
  | patchEnabled ns name value => cases h; exact .inr ⟨ns, name, value, rfl, rfl⟩
  | patchFinalizers ns name finalizers =>
    simp only [ApiCall.onSm, ScheduledMachine.setFinalizers] at h
    split at h
    · cases h
    · cases h
      exact .inl rfl
  | _ => cases h; exact .inl rfl

theorem phaseWrite_called {time : Time} {bound : Option String} {client : Client} {call : ApiCall}
    {applied : Bool} {error : Option KubeError} (h : call.isPhaseWrite = false ∨ applied = false) :
    (Event.called time bound client call applied error).phaseWrite = none := by
  cases call with
  | patchStatus ns name body =>
    cases body with
    | phase =>
      rcases h with h | h
      · cases h
      · simp [Event.phaseWrite, h]
    | _ => rfl
  | _ => rfl

/-! ## The invariant -/

def Unwritten (t : List Obs) : Prop := ∀ target done, .phase target done ∉ t

theorem Unwritten.tail {o : Obs} {t : List Obs} (h : Unwritten (o :: t)) : Unwritten t :=
  fun target done hmem => h target done (List.mem_cons_of_mem _ hmem)

structure PassBase (w : World) (snap : Snapshot) (t : List Obs) : Prop where
  recorded : Unwritten t → Recorded w.log snap.sm
  doomed : snap.sm.deleting = true → .deletionRequested ∈ w.log
  machine : machineKey snap.sm = w.machine
  clock : ∀ now rest, t = .clock now :: rest → now = w.now

structure Base (w : World) (pass : Option (Snapshot × List (Sigma Resp))) : Prop where
  recorded : ∀ sm, w.sm = some sm → Recorded w.log sm
  doomed : ∀ sm, w.sm = some sm → sm.deleting = true → .deletionRequested ∈ w.log
  machine : ∀ sm, w.sm = some sm → machineKey sm = w.machine
  pass : ∀ snap trace, pass = some (snap, trace) → PassBase w snap (observed trace)

theorem base_fresh {w : World} (hw : Fresh w) : Base w none := by
  obtain ⟨sm, hsm, hstatus, halive, hmachine⟩ := hw.sm
  refine ⟨fun sm' hsm' => ?_, fun sm' hsm' hdeleting => ?_, fun sm' hsm' => ?_, fun _ _ h => (nomatch h)⟩
  · cases hsm.symm.trans hsm'
    rw [hw.log]
    exact ⟨by simp [ScheduledMachine.phase, hstatus, phaseOf, lastPhase], by
      simp [ScheduledMachine.conditions, hstatus, lastPhase]⟩
  · cases hsm.symm.trans hsm'
    simp [halive] at hdeleting
  · cases hsm.symm.trans hsm'
    exact hmachine

theorem SameCore.machineKey_eq {sm sm' : ScheduledMachine} (h : SameCore sm sm') : machineKey sm' = machineKey sm := by
  rw [machineKey, machineKey, h.name, h.ns]

theorem interfere_machine (e : Interference) (w : World) : (interfere e w).machine = w.machine := by
  cases e with
  | editSpec spec => cases hsm : w.sm <;> simp [interfere, hsm, World.record, World.setSm]
  | requestDeletion => cases hsm : w.sm <;> simp [interfere, hsm, World.record, World.setSm]
  | _ => rfl

/-! ## Interference -/

theorem interfere_frame (e : Interference) (w : World) :
    (∃ events, (interfere e w).log = events ++ w.log ∧ ∀ event ∈ events, event.phaseWrite = none) ∧
      ∀ sm', (interfere e w).sm = some sm' → ∃ sm, w.sm = some sm ∧ SameCore sm sm' ∧
        (sm'.deleting = true → sm.deleting = true ∨ .deletionRequested ∈ (interfere e w).log) := by
  have hkeep : ∀ sm, w.sm = some sm → ∃ sm₀, w.sm = some sm₀ ∧ SameCore sm₀ sm ∧
      (sm.deleting = true → sm₀.deleting = true ∨ .deletionRequested ∈ (interfere e w).log) :=
    fun sm hsm => ⟨sm, hsm, ⟨rfl, rfl, rfl, rfl⟩, .inl⟩
  cases e with
  | tick nanos => exact ⟨⟨[], rfl, fun _ h => (nomatch h)⟩, hkeep⟩
  | setClock time => exact ⟨⟨[], rfl, fun _ h => (nomatch h)⟩, hkeep⟩
  | setLeader leader => exact ⟨⟨[], rfl, fun _ h => (nomatch h)⟩, hkeep⟩
  | replace env keep => exact ⟨⟨[], rfl, fun _ h => (nomatch h)⟩, hkeep⟩
  | editSpec spec =>
    cases hsm : w.sm with
    | none =>
      refine ⟨⟨[], by simp [interfere, hsm], fun _ h => (nomatch h)⟩, fun sm' h => ?_⟩
      simp [interfere, hsm] at h
    | some sm =>
      refine ⟨⟨[.edited spec], by simp [interfere, hsm, World.record, World.setSm], ?_⟩, fun sm' h => ?_⟩
      · intro event hevent
        rw [List.mem_singleton.mp hevent]
        rfl
      · simp only [interfere, hsm, World.record, World.setSm, Option.some.injEq] at h
        subst h
        exact ⟨sm, rfl, ⟨rfl, rfl, rfl, rfl⟩, .inl⟩
  | editFinalizers finalizers =>
    refine ⟨⟨[], rfl, fun _ h => (nomatch h)⟩, fun sm' h => ?_⟩
    obtain ⟨sm, hsm, hset⟩ := Option.bind_eq_some_iff.mp h
    obtain ⟨hcore, hdeleting⟩ := sameCore_setFinalizers hset
    exact ⟨sm, hsm, hcore, fun h => .inl (hdeleting ▸ h)⟩
  | requestDeletion =>
    cases hsm : w.sm with
    | none =>
      refine ⟨⟨[], by simp [interfere, hsm], fun _ h => (nomatch h)⟩, fun sm' h => ?_⟩
      simp [interfere, hsm] at h
    | some sm =>
      refine ⟨⟨[.deletionRequested], by simp [interfere, hsm, World.record, World.setSm], ?_⟩,
        fun sm' h => ?_⟩
      · intro event hevent
        rw [List.mem_singleton.mp hevent]
        rfl
      · refine ⟨sm, rfl, ?_, fun _ => .inr (by simp [interfere, hsm, World.record])⟩
        simp only [interfere, hsm, World.record, World.setSm, ScheduledMachine.requestDeletion] at h
        split at h
        · cases h; exact ⟨rfl, rfl, rfl, rfl⟩
        · split at h
          · cases h
          · cases h; exact ⟨rfl, rfl, rfl, rfl⟩
  | forgeNodeRef nodeRef =>
    refine ⟨⟨[], rfl, fun _ h => (nomatch h)⟩, fun sm' h => ?_⟩
    obtain ⟨sm, hsm, rfl⟩ := Option.map_eq_some_iff.mp h
    refine ⟨sm, hsm, ⟨?_, ?_, rfl, rfl⟩, .inl⟩
    · cases hs : sm.status <;>
        simp [ScheduledMachine.phase, ScheduledMachine.setNodeRef, hs, ScheduledMachineStatus.blank]
    · cases hs : sm.status <;>
        simp [ScheduledMachine.conditions, ScheduledMachine.setNodeRef, hs, ScheduledMachineStatus.blank]

theorem interfere_spec {e : Interference} {w : World} {sm' : ScheduledMachine}
    (h : (interfere e w).sm = some sm') :
    ∃ sm, w.sm = some sm ∧ (sm'.spec = sm.spec ∨ e = .editSpec sm'.spec) := by
  obtain ⟨sm, hsm, -⟩ := (interfere_frame e w).2 sm' h
  refine ⟨sm, hsm, ?_⟩
  cases e with
  | editSpec spec =>
    simp only [interfere, hsm, World.record, World.setSm, Option.some.injEq] at h
    subst h
    exact .inr rfl
  | editFinalizers finalizers =>
    obtain ⟨sm₀, hsm₀, hset⟩ := Option.bind_eq_some_iff.mp h
    cases hsm.symm.trans hsm₀
    unfold ScheduledMachine.setFinalizers at hset
    split at hset
    · cases hset
    · cases hset
      exact .inl rfl
  | requestDeletion =>
    simp only [interfere, hsm, World.record, World.setSm, ScheduledMachine.requestDeletion] at h
    split at h
    · cases h; exact .inl rfl
    · split at h
      · cases h
      · cases h; exact .inl rfl
  | forgeNodeRef nodeRef =>
    obtain ⟨sm₀, hsm₀, rfl⟩ := Option.map_eq_some_iff.mp h
    cases hsm.symm.trans hsm₀
    exact .inl rfl
  | _ =>
    cases hsm.symm.trans h
    exact .inl rfl

theorem Recorded.append {events log : List Event} {sm : ScheduledMachine} (h : Recorded log sm)
    (hevents : ∀ event ∈ events, event.phaseWrite = none) : Recorded (events ++ log) sm := by
  induction events with
  | nil => exact h
  | cons event events ih =>
    exact (ih fun e he => hevents e (List.mem_cons_of_mem _ he)).cons (hevents event List.mem_cons_self)

def Obs.isLocal : Obs → Bool
  | .clock _ | .timedOut => true
  | _ => false

theorem obsOfCall_isLocal {client : Client} {call : ApiCall} (answer : Except KubeError call.Answer) :
    (obsOfCall client call answer).isLocal = false := by
  generalize hobs : obsOfCall client call answer = o
  cases obsSource hobs <;> rfl

theorem obsOfCall_ne {client : Client} {call : ApiCall} (answer : Except KubeError call.Answer) {o : Obs}
    (ho : o.isLocal = true) : obsOfCall client call answer ≠ o := by
  rintro rfl
  rw [obsOfCall_isLocal] at ho
  cases ho

theorem observed_ne_clock_of_quiet {ctx : Context} {snap : Snapshot}
    {rest : Prog Resp ReconcilerError Action} {trace : List (Sigma Resp)}
    (hquiet : (system ctx).quiet (some ⟨snap, rest, trace⟩) = true) (now : Time) (earlier : List Obs) :
    observed trace ≠ .clock now :: earlier := by
  cases trace with
  | nil => simp
  | cons event trace =>
    obtain ⟨r, answer⟩ := event
    cases r with
    | api client call =>
      intro h
      exact obsOfCall_ne answer rfl (List.cons.inj h).1
    | loc op => simp [System.quiet, system] at hquiet
    | timer seconds => simp [System.quiet, system] at hquiet

theorem base_interfere {ctx : Context} {w : World} {pass : Option (Pass Resp ReconcilerError Action Snapshot)}
    (e : Interference) (h : Base w (System.seen pass)) (hquiet : (system ctx).quiet pass = true) :
    Base (interfere e w) (System.seen pass) := by
  obtain ⟨⟨events, hlog, hevents⟩, hsm⟩ := interfere_frame e w
  have hmem : ∀ event ∈ w.log, event ∈ (interfere e w).log := by
    intro event hevent
    rw [hlog]
    exact List.mem_append_right events hevent
  refine ⟨fun sm' hsm' => ?_, fun sm' hsm' hdeleting => ?_, fun sm' hsm' => ?_, fun snap trace hpass => ?_⟩
  · obtain ⟨sm, hw, hcore, -⟩ := hsm sm' hsm'
    rw [hlog]
    exact (hcore.recorded (h.recorded sm hw)).append hevents
  · obtain ⟨sm, hw, -, hdoomed⟩ := hsm sm' hsm'
    rcases hdoomed hdeleting with hold | hnew
    · exact hmem _ (h.doomed sm hw hold)
    · exact hnew
  · obtain ⟨sm, hw, hcore, -⟩ := hsm sm' hsm'
    rw [interfere_machine, hcore.machineKey_eq]
    exact h.machine sm hw
  · obtain ⟨hrecorded, hdoomed, hmachine, -⟩ := h.pass snap trace hpass
    refine ⟨fun hu => ?_, fun hd => hmem _ (hdoomed hd), hmachine.trans (interfere_machine e w).symm, ?_⟩
    · rw [hlog]
      exact (hrecorded hu).append hevents
    · intro now rest heq
      obtain _ | ⟨snap', rest', trace'⟩ := pass
      · cases hpass
      · cases hpass
        exact absurd heq (observed_ne_clock_of_quiet hquiet now rest)

/-! ## Answers -/

theorem recorded_phaseWrite {w : World} {client : Client} {ns name message : String} {target : Phase}
    {conditions : List Condition} {inSchedule ready : Bool} {error : Option KubeError} {sm : ScheduledMachine} :
    Recorded (.called w.now w.bound client
        (.patchStatus ns name (.phase target message conditions inSchedule ready)) true error :: w.log)
      (sm.patchStatus (.phase target message conditions inSchedule ready)) := by
  refine ⟨?_, ?_⟩
  · simp [ScheduledMachine.phase, ScheduledMachine.patchStatus, StatusPatch.apply, phaseOf, lastPhase_cons,
      Event.phaseWrite]
  · simp [ScheduledMachine.conditions, ScheduledMachine.patchStatus, StatusPatch.apply, lastPhase_cons,
      Event.phaseWrite]

theorem isPhaseWrite_cases (call : ApiCall) : call.isPhaseWrite = false ∨
    ∃ ns name target message conditions inSchedule ready,
      call = .patchStatus ns name (.phase target message conditions inSchedule ready) := by
  cases call with
  | patchStatus ns name body =>
    cases body with
    | phase target message conditions inSchedule ready =>
      exact .inr ⟨ns, name, target, message, conditions, inSchedule, ready, rfl⟩
    | _ => exact .inl rfl
  | _ => exact .inl rfl

theorem base_answered {w after : World} {client : Client} {call : ApiCall}
    {answer : Except KubeError call.Answer} {applied : Bool} {error : Option KubeError} {snap : Snapshot}
    {trace : List (Sigma Resp)} (h : Base w (some (snap, trace)))
    (ha : Answered w client call answer after applied error) :
    Base after (some (snap, ⟨.api client call, answer⟩ :: trace)) := by
  have hmem : ∀ event ∈ w.log, event ∈ after.log := by
    intro event hevent
    rw [ha.log]
    exact List.mem_cons_of_mem _ hevent
  -- the resource afterwards stems from the one before
  have hsm : ∀ sm', after.sm = some sm' → ∃ sm, w.sm = some sm ∧ Recorded after.log sm' ∧
      sm'.metadata.name = sm.metadata.name ∧ sm'.metadata.ns = sm.metadata.ns ∧
      sm'.deleting = sm.deleting := by
    intro sm' hsm'
    rw [ha.sm] at hsm'
    cases applied with
    | false =>
      refine ⟨sm', hsm', ?_, rfl, rfl, rfl⟩
      rw [ha.log]
      exact (h.recorded sm' hsm').cons (phaseWrite_called (.inr rfl))
    | true =>
      obtain ⟨sm, hw, hon⟩ := Option.bind_eq_some_iff.mp hsm'
      refine ⟨sm, hw, ?_, onSm_identity hon⟩
      rw [ha.log]
      obtain hcall | ⟨_, _, _, _, _, _, _, rfl⟩ := isPhaseWrite_cases call
      · exact ((sameCore_onSm hcall hon).recorded (h.recorded sm hw)).cons (phaseWrite_called (.inl hcall))
      · cases hon
        exact recorded_phaseWrite
  obtain ⟨hrecorded, hdoomed, hmachine, -⟩ := h.pass snap trace rfl
  refine ⟨fun sm' hsm' => ?_, fun sm' hsm' hdeleting => ?_, fun sm' hsm' => ?_, fun snap' trace' hpass => ?_⟩
  · obtain ⟨_, _, hrec, _⟩ := hsm sm' hsm'
    exact hrec
  · obtain ⟨sm, hw, -, -, -, hsame⟩ := hsm sm' hsm'
    exact hmem _ (h.doomed sm hw (hsame ▸ hdeleting))
  · obtain ⟨sm, hw, -, hname, hns, -⟩ := hsm sm' hsm'
    rw [ha.machine, ← h.machine sm hw, machineKey, machineKey, hname, hns]
  · cases hpass
    refine ⟨fun hu => ?_, fun hd => hmem _ (hdoomed hd), hmachine.trans ha.machine.symm, ?_⟩
    · rw [ha.log]
      obtain hcall | ⟨_, _, target, _, _, _, _, rfl⟩ := isPhaseWrite_cases call
      · exact (hrecorded hu.tail).cons (phaseWrite_called (.inl hcall))
      · exact absurd List.mem_cons_self (hu target (succeeded answer))
    · intro now rest heq
      exact absurd (List.cons.inj heq).1 (obsOfCall_ne answer rfl)

theorem base_local {w : World} {snap : Snapshot} {trace : List (Sigma Resp)} (op : LocalOp)
    (h : Base w (some (snap, trace))) :
    Base (performLocal w op).2 (some (snap, ⟨.loc op, (performLocal w op).1⟩ :: trace)) := by
  obtain ⟨hsm, hnow, hlog, -, -⟩ := performLocal_frame w op
  have hkey : (performLocal w op).2.machine = w.machine := serve_loc_machine w op .ok
  obtain ⟨hrecorded, hdoomed, hmachine, hclock⟩ := h.pass snap trace rfl
  refine ⟨by rw [hsm, hlog]; exact h.recorded, by rw [hsm, hlog]; exact h.doomed,
    by rw [hsm, hkey]; exact h.machine, ?_⟩
  intro snap' trace' hpass
  cases hpass
  rw [observed_cons]
  refine ⟨fun hu => ?_, by rw [hlog]; exact hdoomed, by rw [hkey]; exact hmachine, ?_⟩
  · rw [hlog]
    exact hrecorded fun target done hmem => hu target done (List.mem_append_right _ hmem)
  · rw [hnow]
    cases op with
    | utcNow =>
      intro now rest heq
      cases heq
      rfl
    | _ => exact hclock

theorem base_timer {w : World} {snap : Snapshot} {trace : List (Sigma Resp)} (seconds : Nat) (fate : Fate)
    (h : Base w (some (snap, trace))) :
    Base (serve w (.timer seconds) fate).2
      (some (snap, ⟨.timer seconds, (serve w (.timer seconds) fate).1⟩ :: trace)) := by
  obtain ⟨hsm, hnow, hfired⟩ := serve_timer_frame w seconds fate
  have hkey := serve_timer_machine w seconds fate
  obtain ⟨hrecorded, hdoomed, hmachine, hclock⟩ := h.pass snap trace rfl
  rcases hfired with ⟨hanswer, hlog⟩ | ⟨hanswer, hlog⟩
  · have hmem : ∀ event ∈ w.log, event ∈ (serve w (.timer seconds) fate).2.log := by
      intro event hevent
      rw [hlog]
      exact List.mem_cons_of_mem _ hevent
    refine ⟨fun sm hw => ?_, fun sm hw hd => ?_, by rw [hsm, hkey]; exact h.machine, fun snap' trace' hpass => ?_⟩
    · rw [hlog]
      exact (h.recorded sm (hsm ▸ hw)).cons rfl
    · exact hmem _ (h.doomed sm (hsm ▸ hw) hd)
    · cases hpass
      rw [observed_cons, hanswer]
      refine ⟨fun hu => ?_, fun hd => hmem _ (hdoomed hd), by rw [hkey]; exact hmachine, fun now rest heq => ?_⟩
      · rw [hlog]
        exact (hrecorded hu.tail).cons rfl
      · cases heq
  · refine ⟨by rw [hsm, hlog]; exact h.recorded, by rw [hsm, hlog]; exact h.doomed,
      by rw [hsm, hkey]; exact h.machine, ?_⟩
    intro snap' trace' hpass
    cases hpass
    rw [observed_cons, hanswer]
    exact ⟨by rw [hlog]; exact hrecorded, by rw [hlog]; exact hdoomed, by rw [hkey]; exact hmachine,
      by rw [hnow]; exact hclock⟩

theorem base_serve {w : World} {snap : Snapshot} {trace : List (Sigma Resp)} (r : Req) (fate : Fate)
    (h : Base w (some (snap, trace))) :
    Base (serve w r fate).2 (some (snap, ⟨r, (serve w r fate).1⟩ :: trace)) := by
  cases r with
  | api client call =>
    obtain ⟨applied, error, ha⟩ := exists_answered w client call fate
    exact base_answered h ha
  | loc op => exact base_local op h
  | timer seconds => exact base_timer seconds fate h

theorem Base.record {w : World} {pass : Option (Snapshot × List (Sigma Resp))} (h : Base w pass)
    {e : Event} (he : e.phaseWrite = none) : Base (w.record e) none :=
  ⟨fun sm hsm => (h.recorded sm hsm).cons he,
    fun sm hsm hd => List.mem_cons_of_mem _ (h.doomed sm hsm hd), h.machine, fun _ _ h => (nomatch h)⟩

theorem base_started {w : World} {snap : Snapshot} (h : Base w none)
    (hsnap : (w.sm.map fun sm => (⟨sm, w.leader⟩ : Snapshot)) = some snap) :
    Base (w.record (.started w.now w.bound snap.sm)) (some (snap, [])) := by
  obtain ⟨sm, hsm, rfl⟩ := Option.map_eq_some_iff.mp hsnap
  have hrecord := h.record (e := .started w.now w.bound sm) rfl
  refine ⟨hrecord.recorded, hrecord.doomed, hrecord.machine, fun snap' trace hpass => ?_⟩
  cases hpass
  exact ⟨fun _ => hrecord.recorded sm hsm, hrecord.doomed sm hsm, hrecord.machine sm hsm,
    fun _ _ heq => (nomatch heq)⟩

theorem base_keeps (ctx : Context) (ok : RunState → RunAct → Prop) :
    (system ctx).Keeps (rules ctx) (fun _ => []) Fresh ok (fun _ _ => True) Base where
  base _ hw := base_fresh hw
  interfere _ _ e _ h hquiet _ := base_interfere e h hquiet
  start _ _ _ h hsnap _ := base_started h hsnap
  answer _ _ r _ _ f _ h _ _ := base_serve r f h
  finish _ _ _ h := ⟨h.recorded, h.doomed, h.machine, fun _ _ h => (nomatch h)⟩
  kill _ _ _ h := by
    obtain ⟨hrecorded, hdoomed, hmachine, -⟩ := h.record (e := .crashed) rfl
    exact ⟨hrecorded, hdoomed, hmachine, fun _ _ h => (nomatch h)⟩

theorem base_of_reach {ctx : Context} {ok : RunState → RunAct → Prop} {s : RunState}
    (hs : (system ctx).Reach Fresh ok s) : Base s.world (System.seen s.pass) :=
  System.Reach.invariant _ (system_conforms ctx) (fun _ _ => trivial) (base_keeps ctx ok) hs

/-! ## What a reconcile remembers -/

/-- The status fields in which a reconcile leaves something for the next one, besides the phase. -/
structure SameMemory (sm sm' : ScheduledMachine) : Prop where
  held : sm'.lastKnownSpotActive = sm.lastKnownSpotActive
  applied : sm'.appliedNodeTaints = sm.appliedNodeTaints

theorem SameMemory.of_status {sm sm' : ScheduledMachine} (h : sm'.status = sm.status) : SameMemory sm sm' := by
  constructor
  · rw [ScheduledMachine.lastKnownSpotActive, ScheduledMachine.lastKnownSpotActive, h]
  · rw [ScheduledMachine.appliedNodeTaints, ScheduledMachine.appliedNodeTaints, h]

theorem sameMemory_setFinalizers {sm sm' : ScheduledMachine} {finalizers : List String}
    (h : sm.setFinalizers finalizers = some sm') : SameMemory sm sm' := by
  unfold ScheduledMachine.setFinalizers at h
  split at h
  · cases h
  · cases h
    exact .of_status rfl

theorem interfere_status {e : Interference} {w : World} {sm' : ScheduledMachine} (h : (interfere e w).sm = some sm') :
    ∃ sm, w.sm = some sm ∧ (sm'.status = sm.status ∨ ∃ nodeRef, sm' = sm.setNodeRef nodeRef) := by
  obtain ⟨sm, hsm, -⟩ := (interfere_frame e w).2 sm' h
  refine ⟨sm, hsm, ?_⟩
  cases e with
  | editSpec spec =>
    simp only [interfere, hsm, World.record, World.setSm, Option.some.injEq] at h
    subst h
    exact .inl rfl
  | editFinalizers finalizers =>
    obtain ⟨sm₀, hsm₀, hset⟩ := Option.bind_eq_some_iff.mp h
    cases hsm.symm.trans hsm₀
    unfold ScheduledMachine.setFinalizers at hset
    split at hset
    · cases hset
    · cases hset
      exact .inl rfl
  | requestDeletion =>
    simp only [interfere, hsm, World.record, World.setSm, ScheduledMachine.requestDeletion] at h
    split at h
    · cases h; exact .inl rfl
    · split at h
      · cases h
      · cases h; exact .inl rfl
  | forgeNodeRef nodeRef =>
    obtain ⟨sm₀, hsm₀, rfl⟩ := Option.map_eq_some_iff.mp h
    cases hsm.symm.trans hsm₀
    exact .inr ⟨nodeRef, rfl⟩
  | _ =>
    cases hsm.symm.trans h
    exact .inl rfl

theorem sameMemory_interfere {e : Interference} {w : World} {sm' : ScheduledMachine}
    (h : (interfere e w).sm = some sm') : ∃ sm, w.sm = some sm ∧ SameMemory sm sm' := by
  obtain ⟨sm, hsm, hstatus | ⟨nodeRef, rfl⟩⟩ := interfere_status h
  · exact ⟨sm, hsm, .of_status hstatus⟩
  · refine ⟨sm, hsm, ?_, ?_⟩
    · cases hs : sm.status <;>
        simp [ScheduledMachine.lastKnownSpotActive, ScheduledMachine.setNodeRef, hs, ScheduledMachineStatus.blank]
    · cases hs : sm.status <;>
        simp [ScheduledMachine.appliedNodeTaints, ScheduledMachine.setNodeRef, hs, ScheduledMachineStatus.blank]

def ApiCall.isMemoryWrite : ApiCall → Bool
  | .patchStatus _ _ (.spotSchedule _) | .patchStatus _ _ (.appliedNodeTaints _) => true
  | _ => false

/-- A call that is carried out leaves both fields alone, or it is the status patch that writes one of them. -/
inductive MemoryEffect (sm : ScheduledMachine) (call : ApiCall) (sm' : ScheduledMachine) : Prop
  | schedule {ns name : String} {status : SpotScheduleStatus} (call : call = .patchStatus ns name (.spotSchedule status))
      (held : sm'.lastKnownSpotActive = status.active.or sm.lastKnownSpotActive)
      (applied : sm'.appliedNodeTaints = sm.appliedNodeTaints)
  | taints {ns name : String} {applied : List NodeTaint} (call : call = .patchStatus ns name (.appliedNodeTaints applied))
      (held : sm'.lastKnownSpotActive = sm.lastKnownSpotActive) (applied : sm'.appliedNodeTaints = applied)
  | kept (plain : call.isMemoryWrite = false) (same : SameMemory sm sm')

theorem memoryEffect_onSm {call : ApiCall} {sm sm' : ScheduledMachine} (h : call.onSm sm = some sm') :
    MemoryEffect sm call sm' := by
  cases call with
  | patchStatus ns name body =>
    cases h
    cases body with
    | spotSchedule status =>
      refine .schedule rfl ?_ ?_ <;> cases hs : sm.status <;>
        simp [ScheduledMachine.lastKnownSpotActive, ScheduledMachine.appliedNodeTaints,
          ScheduledMachine.patchStatus, StatusPatch.apply, SpotScheduleStatus.merge, hs, ScheduledMachineStatus.blank]
    | appliedNodeTaints applied =>
      refine .taints rfl ?_ ?_ <;> cases hs : sm.status <;>
        simp [ScheduledMachine.lastKnownSpotActive, ScheduledMachine.appliedNodeTaints,
          ScheduledMachine.patchStatus, StatusPatch.apply, hs, ScheduledMachineStatus.blank]
    | _ =>
      refine .kept rfl ⟨?_, ?_⟩ <;> cases hs : sm.status <;>
        simp [ScheduledMachine.lastKnownSpotActive, ScheduledMachine.appliedNodeTaints,
          ScheduledMachine.patchStatus, StatusPatch.apply, hs, ScheduledMachineStatus.blank]
  | patchFinalizers ns name finalizers => exact .kept rfl (sameMemory_setFinalizers h)
  | _ => cases h; exact .kept rfl (.of_status rfl)

end FiveSpot
