import FiveSpot.Safety.Objects

/-! # Inactive and Disabled

Both phases say that there is no machine. Two handlers write them without deleting anything: the
Pending handler outside the window or when disabled, and the recovery arm of the emergency reclaim.
-/

namespace FiveSpot

set_option autoImplicit false

open Interaction

def Phase.isParked : Phase → Bool
  | .inactive | .disabled => true
  | _ => false

theorem isParked_of_pendingLike {phase : Phase} (h : pendingLike (some phase) = true) : phase.isParked = false := by
  cases phase with
  | inactive => cases h
  | disabled => cases h
  | _ => rfl

/-- The phases whose handlers park the resource without deleting anything. -/
def unswept (phase : Option Phase) : Bool := pendingLike phase || phase == some .emergencyRemove

/-- Where such a handler parks the resource, nothing is left over. -/
def parksClean (s : RunState) : RunAct → Bool
  | .answer _ => (nextCall s).all fun ⟨snap, _, call⟩ =>
      !(unswept snap.sm.phase && call.phaseTarget.any Phase.isParked) || decide (Clean s.world.log)
  | _ => true

def parkGuard (s : RunState) (a : RunAct) : Bool := fixedTemplates s a && parksClean s a

def ParkedClean (log : List Event) : Prop := ∀ phase, phaseOf log = some phase → phase.isParked = true → Clean log

theorem ParkedClean.cons {log : List Event} {e : Event} (h : ParkedClean log) (hphase : e.phaseWrite = none)
    (hcreates : e.creates = none) : ParkedClean (e :: log) := by
  intro phase hwritten hparked
  rw [phaseOf_cons_of_none hphase] at hwritten
  exact (h phase hwritten hparked).cons hcreates

theorem legal_park {ctx : Context} {snap : Snapshot} {t : List Obs} {target : Phase} {conditions : List Condition}
    (h : LegalFor ctx snap t (.phase target conditions)) (hparked : target.isParked = true) :
    Removed ctx snap.sm t ∨ unswept snap.sm.phase = true := by
  cases h with
  | reclaimDone path marked removed disabled stamp => exact .inl removed
  | shutdownInactive path clean removed stamp => exact .inl removed
  | recover path phase clean stamp => exact .inr (by simp [unswept, phase])
  | pendingDisabled path phase enabled clean stamp => exact .inr (by simp [unswept, phase])
  | pendingInactive path phase clean stamp => exact .inr (by simp [unswept, phase])
  | _ => cases hparked

theorem parkedClean_call {ctx : Context} {w after : World} {snap : Snapshot} {client : Client} {call : ApiCall}
    {k : Resp (.api client call) → Prog Resp ReconcilerError Action} {trace : List (Sigma Resp)} {fate : Fate}
    {answer : Except KubeError call.Answer} {applied : Bool} {error : Option KubeError}
    (hknown : Known ctx w (some (snap, trace))) (h : ParkedClean w.log)
    (hlegal : ∀ effect, effectOfCall client call = some effect → LegalFor ctx snap (observed trace) effect)
    (hok : parksClean ⟨w, some ⟨snap, .call (.api client call) k, trace⟩⟩ (.answer fate) = true)
    (ha : Answered w client call answer after applied error) :
    ParkedClean (.called w.now w.bound client call applied error :: w.log) := by
  cases callKind ha with
  | other obs write creates => exact h.cons write creates
  | create key effect obs write =>
    obtain ⟨-, huntouched, hpending, -⟩ := legal_create (hlegal _ effect)
    have hphase := ((hknown.1.pass snap trace rfl).recorded huntouched.unwritten).phase
    intro phase hwritten hparked
    rw [phaseOf_cons_of_none write, ← hphase] at hwritten
    rw [hwritten] at hpending
    exact absurd hparked (by simp [isParked_of_pendingLike hpending])
  | phase target conditions done effect obs write creates done_applied =>
    cases applied with
    | false => exact h.cons write creates
    | true =>
      intro phase hwritten hparked
      rw [phaseOf_called write, Option.some.injEq] at hwritten
      subst hwritten
      have hclean : Clean w.log := by
        rcases legal_park (hlegal _ effect) hparked with hremoved | hunswept
        · exact (hknown.2.pass snap trace rfl).clean hremoved
        · simpa [parksClean, nextCall, hunswept, phaseTarget_of_effect effect, hparked] using hok
      exact hclean.cons creates

theorem parkedClean_keeps (ctx : Context) :
    LogKeeps ctx (fun s a => parkGuard s a = true) (Known ctx) (fun _ log _ => ParkedClean log) where
  base _ _ h := (nomatch h)
  pause _ _ _ _ h _ := h
  edit _ _ _ _ h _ := h.cons rfl rfl
  deletion _ _ _ h _ := h.cons rfl rfl
  start _ _ _ h _ _ := h.cons rfl rfl
  call _ _ _ _ _ _ _ _ _ _ hknown h hlegal hok ha :=
    parkedClean_call hknown h hlegal (Bool.and_eq_true_iff.mp hok).2 ha
  clock _ _ _ _ h := h
  timeout _ _ _ _ h := h.cons rfl rfl
  leave _ _ _ _ h := h
  crash _ _ h := h.cons rfl rfl

/-- In every such run, `Inactive` and `Disabled` mean that nothing created is left. -/
theorem parked_means_clean {ctx : Context} {s : RunState}
    (hs : (system ctx).Reach Fresh (fun s a => parkGuard s a = true) s) {sm : ScheduledMachine}
    (hsm : s.world.sm = some sm) (hphase : sm.phase = some .inactive ∨ sm.phase = some .disabled) :
    Clean s.world.log := by
  have hfixed : ∀ s a, parkGuard s a = true → fixedTemplates s a = true := by
    intro s a h
    exact (Bool.and_eq_true_iff.mp h).1
  have hinv := (parkedClean_keeps ctx).holds (known_of_reach hfixed) hs
  have hrecorded := ((base_of_reach hs).recorded sm hsm).phase
  rcases hphase with hinactive | hdisabled
  · exact hinv .inactive (hrecorded.symm.trans hinactive) rfl
  · exact hinv .disabled (hrecorded.symm.trans hdisabled) rfl

/-! ## Two runs -/

/-- The machine becomes active, is disabled and shut down. -/
def disabledWhileActive : List RunAct :=
  .start :: answers 13 ++ [.finish, .interfere (.editSpec disabledSpec), .start] ++ answers 6 ++
    [.finish, .start] ++ answers 10

/-- The controller dies after its creates, then the schedule is disabled. -/
def disabledWhilePending : List RunAct :=
  .start :: answers 10 ++ [.kill, .interfere (.editSpec disabledSpec), .start] ++ answers 6

def isParked (s : RunState) : Bool :=
  s.world.sm.any fun sm => sm.phase == some .inactive || sm.phase == some .disabled

theorem isParked_iff {s : RunState} (h : isParked s = true) :
    ∃ sm, s.world.sm = some sm ∧ (sm.phase = some .inactive ∨ sm.phase = some .disabled) := by
  obtain ⟨sm, hsm, hphase⟩ := (Option.any_eq_true _ _).mp h
  exact ⟨sm, hsm, by simpa using hphase⟩

theorem parked_means_clean_shutdown : ∃ (s : RunState) (sm : ScheduledMachine),
    s.world.sm = some sm ∧ (sm.phase = some .inactive ∨ sm.phase = some .disabled) ∧ Clean s.world.log := by
  obtain ⟨s, hs, hparked⟩ := System.Reach.exists_of_runWith (system demoContext) parkGuard isParked
    disabledWhileActive demoWorld_fresh (by decide +kernel)
  obtain ⟨sm, hsm, hphase⟩ := isParked_iff hparked
  exact ⟨s, sm, hsm, hphase, parked_means_clean hs hsm hphase⟩

/-- Disabled on record, with the Machine still there. -/
theorem parked_leaves_machine : ¬∀ s : RunState,
    (system demoContext).Reach Fresh (fun s a => fixedTemplates s a = true) s →
      ∀ sm, s.world.sm = some sm → (sm.phase = some .inactive ∨ sm.phase = some .disabled) →
        Clean s.world.log := by
  intro hclean
  obtain ⟨s, hs, hleft⟩ := System.Reach.exists_of_runWith (system demoContext) fixedTemplates
    (fun s => isParked s && undeleted s.world.log (machineKey demoMachine)) disabledWhilePending
    demoWorld_fresh (by decide +kernel)
  obtain ⟨hparked, hleft⟩ := Bool.and_eq_true_iff.mp hleft
  obtain ⟨sm, hsm, hphase⟩ := isParked_iff hparked
  rw [hclean s hs sm hsm hphase] at hleft
  cases hleft

end FiveSpot
