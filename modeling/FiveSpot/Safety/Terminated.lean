import FiveSpot.Safety.Objects
import Mathlib.Data.List.Infix

/-! # Terminated

The handler of `Terminated` does nothing, but the reclaim check comes before it and still looks at the
Node that `status.nodeRef` names.
-/

namespace FiveSpot

set_option autoImplicit false

open Interaction

/-- What may still be written after termination: the phase itself, the finalizer, and what the schedule
provider says. -/
def Effect.isSettled : Effect → Bool
  | .phase .terminated _ | .finalizers _ | .schedule _ => true
  | _ => false

/-- Once `Terminated` is recorded, and until deletion is requested, nothing else is done. -/
def TerminatedStays (e : Event) (earlier : List Event) : Prop :=
  phaseOf earlier = some .terminated → .deletionRequested ∉ earlier →
    ∀ effect, e.effect = some effect → effect.isSettled = true

theorem terminatedStays_of_none {e : Event} {earlier : List Event} (h : e.effect = none) :
    TerminatedStays e earlier := by
  intro _ _ effect heffect
  rw [h] at heffect
  cases heffect

/-- No reconcile that starts in `Terminated` finds a reclaim request. -/
def terminatedUnrequested (s : RunState) : RunAct → Bool
  | .answer fate => (nextCall s).all fun ⟨snap, client, call⟩ =>
      snap.sm.phase != some .terminated || (requestAhead s.world fate client call).isNone
  | _ => true

structure TerminatedInvariant (log : List Event) (pass : Option (Snapshot × List Obs)) : Prop where
  stays : Always TerminatedStays log
  unrequested : ∀ snap t, pass = some (snap, t) → snap.sm.phase = some .terminated → Unrequested t
  marked : ∀ snap t, pass = some (snap, t) → .phase .emergencyRemove true ∈ t →
    phaseOf log ≠ some .terminated

section

variable {log : List Event} {pass : Option (Snapshot × List Obs)} {snap : Snapshot} {t : List Obs} {e : Event}

theorem TerminatedInvariant.cons (h : TerminatedInvariant log pass) (heffect : e.effect = none)
    (hphase : e.phaseWrite = none) : TerminatedInvariant (e :: log) pass := by
  refine ⟨h.stays.cons (terminatedStays_of_none heffect), h.unrequested, fun snap t hpass hmem => ?_⟩
  rw [phaseOf_cons_of_none hphase]
  exact h.marked snap t hpass hmem

theorem TerminatedInvariant.observe {o : Obs} (h : TerminatedInvariant log (some (snap, t)))
    (ho : o.isLocal = true) : TerminatedInvariant log (some (snap, o :: t)) := by
  refine ⟨h.stays, fun snap' t' hpass hterminated => ?_, fun snap' t' hpass hmem => ?_⟩
  · cases hpass
    refine (h.unrequested snap t rfl hterminated).cons fun node found heq => ?_
    rw [heq] at ho
    cases ho
  · cases hpass
    rcases List.mem_cons.mp hmem with hnew | hold
    · rw [← hnew] at ho
      cases ho
    · exact h.marked snap t rfl hold

end

theorem settled_of_legal {ctx : Context} {w : World} {snap : Snapshot} {trace : List (Sigma Resp)}
    {effect : Effect} (hbase : Base w (some (snap, trace)))
    (h : TerminatedInvariant w.log (some (snap, observed trace)))
    (hlegal : LegalFor ctx snap (observed trace) effect) (hphase : phaseOf w.log = some .terminated)
    (hdoomed : .deletionRequested ∉ w.log) : effect.isSettled = true := by
  -- a pass that has not written a phase has read `Terminated`
  have hread : Unwritten (observed trace) → snap.sm.phase = some .terminated :=
    fun hu => ((hbase.pass snap trace rfl).recorded hu).phase.trans hphase
  have hmarked : .phase .emergencyRemove true ∉ observed trace :=
    fun hmem => h.marked snap _ rfl hmem hphase
  have hother : ∀ phase : Phase, phase ≠ .terminated → Unwritten (observed trace) →
      snap.sm.phase ≠ some phase := by
    intro phase hne hu heq
    rw [hread hu] at heq
    exact hne (Option.some.inj heq).symm
  have hpending : Unwritten (observed trace) → pendingLike snap.sm.phase ≠ true := by
    intro hu
    rw [hread hu]
    exact nofun
  have hrunning : Unwritten (observed trace) → runningPhase snap.sm.phase ≠ true := by
    intro hu
    rw [hread hu]
    exact nofun
  cases hlegal with
  | addFinalizer path alive => rfl
  | deletionRelease path done => rfl
  | killTerminated path clean done stamp => rfl
  | deletionDelete path running owned =>
    exact absurd ((hbase.pass snap trace rfl).doomed path.deleting) hdoomed
  | killDelete path clean running owned => exact absurd running (hrunning clean.unwritten)
  | reclaimMark path clean stamp =>
    exact absurd path (h.unrequested snap _ rfl (hread clean.unwritten)).not_reclaimed
  | reclaimDrain path marked => exact absurd marked hmarked
  | reclaimEvict path marked listed => exact absurd marked hmarked
  | reclaimDelete path marked owned => exact absurd marked hmarked
  | reclaimDisable path marked removed => exact absurd marked hmarked
  | reclaimClear path marked removed disabled => exact absurd marked hmarked
  | reclaimDone path marked removed disabled stamp => exact absurd marked hmarked
  | spotStatus path clean first read => rfl
  | recover path phase clean stamp => exact absurd phase (hother _ nofun clean.unwritten)
  | pendingDisabled path phase enabled clean stamp => exact absurd phase (hpending clean.unwritten)
  | pendingInactive path phase clean stamp => exact absurd phase (hpending clean.unwritten)
  | pendingCreate path phase enabled clean owned => exact absurd phase (hpending clean.unwritten)
  | pendingError path phase clean stamp => exact absurd phase (hpending clean.unwritten)
  | pendingActive path phase clean named created stamp => exact absurd phase (hpending clean.unwritten)
  | activeShutdown path phase clean cause stamp => exact absurd phase (hother _ nofun clean.unwritten)
  | activeTaints path phase clean written => exact absurd phase (hother _ nofun clean.unwritten)
  | activeRecord path phase clean applied => exact absurd phase (hother _ nofun clean.unwritten)
  | shutdownDrain path clean machine => exact absurd path.phase (hother _ nofun clean.unwritten)
  | shutdownEvict path clean machine listed => exact absurd path.phase (hother _ nofun clean.unwritten)
  | shutdownDelete path clean owned => exact absurd path.phase (hother _ nofun clean.unwritten)
  | shutdownError path clean stamp => exact absurd path.phase (hother _ nofun clean.unwritten)
  | shutdownInactive path clean removed stamp => exact absurd path.phase (hother _ nofun clean.unwritten)
  | inactivePending path phase enabled clean stamp => exact absurd phase (hother _ nofun clean.unwritten)
  | disabledPending path phase enabled clean stamp => exact absurd phase (hother _ nofun clean.unwritten)

theorem legal_terminated {ctx : Context} {snap : Snapshot} {t : List Obs} {conditions : List Condition}
    (h : LegalFor ctx snap t (.phase .terminated conditions)) : Unmarked t := by
  cases h with
  | killTerminated path clean done stamp => exact clean

theorem terminatedInvariant_call {ctx : Context} {w after : World} {snap : Snapshot} {client : Client}
    {call : ApiCall} {k : Resp (.api client call) → Prog Resp ReconcilerError Action} {trace : List (Sigma Resp)}
    {fate : Fate} {applied : Bool} {error : Option KubeError} (hbase : Base w (some (snap, trace)))
    (h : TerminatedInvariant w.log (some (snap, observed trace)))
    (hlegal : ∀ effect, effectOfCall client call = some effect → LegalFor ctx snap (observed trace) effect)
    (hok : terminatedUnrequested ⟨w, some ⟨snap, .call (.api client call) k, trace⟩⟩ (.answer fate) = true)
    (ha : Answered w client call (serveApi w client call fate).1 after applied error) :
    TerminatedInvariant (.called w.now w.bound client call applied error :: w.log)
      (some (snap, obsOfCall client call (serveApi w client call fate).1 :: observed trace)) := by
  have hguard : snap.sm.phase ≠ some .terminated ∨ (requestAhead w fate client call).isNone = true := by
    simpa [terminatedUnrequested, nextCall] using hok
  refine ⟨h.stays.cons fun hphase hdoomed effect heffect => ?_, fun snap' t hpass hterminated => ?_,
    fun snap' t hpass hmem => ?_⟩
  · exact settled_of_legal hbase h (hlegal effect heffect) hphase hdoomed
  · cases hpass
    rcases hguard with hnot | hnone
    · exact absurd hterminated hnot
    · exact (h.unrequested snap _ rfl hterminated).call hnone
  · cases hpass
    cases callKind ha with
    | other obs write creates =>
      rw [phaseOf_cons_of_none write]
      rcases List.mem_cons.mp hmem with hnew | hold
      · exact absurd hnew.symm (obs _ _)
      · exact h.marked snap _ rfl hold
    | create key effect obs write =>
      rw [phaseOf_cons_of_none write]
      rcases List.mem_cons.mp hmem with hnew | hold
      · exact absurd hnew.symm (obs _ _)
      · exact h.marked snap _ rfl hold
    | phase target conditions done effect obs write creates done_applied =>
      rcases List.mem_cons.mp hmem with hnew | hold
      · rw [obs] at hnew
        cases hnew
        cases done_applied rfl
        rw [phaseOf_called write]
        exact nofun
      · cases applied with
        | false =>
          rw [phaseOf_cons_of_none write]
          exact h.marked snap _ rfl hold
        | true =>
          rw [phaseOf_called write]
          intro hterminated
          cases hterminated
          exact (legal_terminated (hlegal _ effect)).unwritten _ _ hold

theorem terminatedInvariant_keeps (ctx : Context) :
    LogKeeps ctx (fun s a => terminatedUnrequested s a = true) Base (fun _ => TerminatedInvariant) where
  base _ := ⟨always_nil, fun _ _ h => (nomatch h), fun _ _ h => (nomatch h)⟩
  pause _ _ _ _ h _ := h
  edit _ _ _ _ h _ := h.cons rfl rfl
  deletion _ _ _ h _ := h.cons rfl rfl
  start w sm _ h _ _ := by
    obtain ⟨hstays, -, -⟩ := h.cons (e := .started w.now w.bound sm) rfl rfl
    refine ⟨hstays, fun snap t hpass _ => ?_, fun snap t hpass hmem => ?_⟩
    · cases hpass
      exact fun _ _ hmem => (nomatch hmem)
    · cases hpass
      cases hmem
  call _ _ _ _ _ _ _ _ _ _ hbase h hlegal hok ha := terminatedInvariant_call hbase h hlegal hok ha
  clock _ _ _ _ h := h.observe rfl
  timeout _ _ _ _ h := (h.cons rfl rfl).observe rfl
  leave _ _ _ _ h := ⟨h.stays, fun _ _ h => (nomatch h), fun _ _ h => (nomatch h)⟩
  crash _ _ h := h.cons rfl rfl

/-! ## Terminated stays -/

theorem effect_of_phaseWrite {e : Event} {record : PhaseRecord} (h : e.phaseWrite = some record) :
    e.effect = some (.phase record.target record.conditions) := by
  cases e with
  | called time bound client call applied error =>
    obtain hcall | ⟨_, _, _, _, _, _, _, rfl⟩ := isPhaseWrite_cases call
    · rw [phaseWrite_called (.inl hcall)] at h
      cases h
    · simp only [Event.phaseWrite, Option.ite_none_right_eq_some, Option.some.injEq] at h
      obtain ⟨-, rfl⟩ := h
      rfl
  | _ => cases h

theorem phaseOf_append {events past : List Event} (h : Always TerminatedStays (events ++ past))
    (hphase : phaseOf past = some .terminated) (hdoomed : .deletionRequested ∉ events ++ past) :
    phaseOf (events ++ past) = some .terminated := by
  induction events with
  | nil => exact hphase
  | cons e events ih =>
    have hdoomed' : .deletionRequested ∉ events ++ past := fun hmem => hdoomed (List.mem_cons_of_mem _ hmem)
    have hlast := ih h.tail hdoomed'
    rw [List.cons_append]
    cases hwrite : e.phaseWrite with
    | none => rw [phaseOf_cons_of_none hwrite, hlast]
    | some record =>
      have hsettled := h e (events ++ past) List.suffix_rfl hlast hdoomed' _ (effect_of_phaseWrite hwrite)
      rw [phaseOf, lastPhase_cons, hwrite, Option.some_or, Option.map_some]
      obtain ⟨target, conditions, time⟩ := record
      cases target with
      | terminated => rfl
      | _ => cases hsettled

/-- In every such run, from `Terminated` on and until deletion is requested, the phase stays, and
nothing is created, deleted, drained or otherwise touched. -/
theorem terminated_is_terminal {ctx : Context} {s : RunState}
    (hs : (system ctx).Reach Fresh (fun s a => terminatedUnrequested s a = true) s) {past : List Event}
    (hpast : past <:+ s.world.log) (hphase : phaseOf past = some .terminated)
    (hdoomed : .deletionRequested ∉ s.world.log) :
    (∀ sm, s.world.sm = some sm → sm.phase = some .terminated) ∧
      ∀ e earlier, e :: earlier <:+ s.world.log → past <:+ earlier →
        ∀ effect, e.effect = some effect → effect.isSettled = true := by
  have hstays := ((terminatedInvariant_keeps ctx).holds (fun _ => base_of_reach) hs).stays
  refine ⟨fun sm hsm => ?_, fun e earlier hsuffix hlater effect heffect => ?_⟩
  · obtain ⟨events, hlog⟩ := hpast
    rw [((base_of_reach hs).recorded sm hsm).phase]
    rw [← hlog] at hstays hdoomed ⊢
    exact phaseOf_append hstays hphase hdoomed
  · obtain ⟨events, rfl⟩ := hlater
    have hdoomed' : .deletionRequested ∉ events ++ past :=
      fun hmem => hdoomed (hsuffix.mem (List.mem_cons_of_mem _ hmem))
    have hbefore := phaseOf_append (hstays.suffix hsuffix).tail hphase hdoomed'
    exact hstays e _ hsuffix hbefore hdoomed' effect heffect

/-! ## Two runs -/

/-- An active machine with a recorded Node is terminated, and the switch is reset. -/
def terminated : List RunAct :=
  .start :: answers 13 ++ [.finish, .interfere (.replace (runningEnv demoNode) .all), .start] ++
    answers 10 ++ [.finish, .interfere (.editSpec killSpec), .start] ++ answers 6 ++
    [.finish, .interfere (.editSpec demoSpec)]

/-- The Node is marked for reclaim only now. -/
def terminatedThenReclaimed : List RunAct :=
  terminated ++ [.interfere (.replace (runningEnv requestedNode) .all), .start] ++ answers 5

def Event.isDeletionRequest : Event → Bool
  | .deletionRequested => true
  | _ => false

def wasTerminated (log : List Event) : Bool :=
  log.tails.any (fun past => phaseOf past == some .terminated) && log.all fun e => !e.isDeletionRequest

theorem wasTerminated_iff {log : List Event} (h : wasTerminated log = true) :
    (∃ past, past <:+ log ∧ phaseOf past = some .terminated) ∧ .deletionRequested ∉ log := by
  obtain ⟨hpast, hdoomed⟩ := Bool.and_eq_true_iff.mp h
  obtain ⟨past, hmem, hphase⟩ := List.any_eq_true.mp hpast
  refine ⟨⟨past, (List.mem_tails _ _).mp hmem, eq_of_beq hphase⟩, fun hmem => ?_⟩
  have hnot := List.all_eq_true.mp hdoomed _ hmem
  cases hnot

theorem terminated_is_terminal_reset : ∃ (s : RunState) (sm : ScheduledMachine),
    s.world.sm = some sm ∧ sm.spec.killSwitch = false ∧ sm.phase = some .terminated := by
  obtain ⟨s, hs, hproperty⟩ := System.Reach.exists_of_runWith (system demoContext) terminatedUnrequested
    (fun s => wasTerminated s.world.log && s.world.sm.any fun sm => !sm.spec.killSwitch)
    (terminated ++ .start :: answers 4) demoWorld_fresh (by decide +kernel)
  obtain ⟨hwas, hsm⟩ := Bool.and_eq_true_iff.mp hproperty
  obtain ⟨sm, hsm, hkill⟩ := (Option.any_eq_true _ _).mp hsm
  obtain ⟨⟨past, hpast, hphase⟩, hdoomed⟩ := wasTerminated_iff hwas
  exact ⟨s, sm, hsm, by simpa using hkill, (terminated_is_terminal hs hpast hphase hdoomed).1 sm hsm⟩

/-- A late reclaim request moves a terminated resource on. -/
theorem terminated_is_left : ¬∀ s : RunState,
    (system demoContext).Reach Fresh (fun _ _ => True) s → ∀ past, past <:+ s.world.log →
      phaseOf past = some .terminated → .deletionRequested ∉ s.world.log →
        ∀ sm, s.world.sm = some sm → sm.phase = some .terminated := by
  intro hterminal
  obtain ⟨s, hs, hproperty⟩ := System.Reach.exists_of_runWith (system demoContext) (fun _ _ => true)
    (fun s => wasTerminated s.world.log && s.world.sm.any fun sm => sm.phase != some .terminated)
    terminatedThenReclaimed demoWorld_fresh (by decide +kernel)
  obtain ⟨hwas, hsm⟩ := Bool.and_eq_true_iff.mp hproperty
  obtain ⟨sm, hsm, hphase⟩ := (Option.any_eq_true _ _).mp hsm
  obtain ⟨⟨past, hpast, hpastPhase⟩, hdoomed⟩ := wasTerminated_iff hwas
  have hstill := hterminal s (hs.mono _ fun _ _ _ => trivial) past hpast hpastPhase hdoomed sm hsm
  simp [hstill] at hphase

end FiveSpot
