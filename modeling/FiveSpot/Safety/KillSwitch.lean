import FiveSpot.Safety.Objects

/-! # The kill switch

`handle_kill_switch` removes the machine only when the recorded phase is `Active` or `ShuttingDown`.
Where that is so, or where there is nothing to remove, `Terminated` means that every created object
is gone. A crash between the creates and the phase write breaks it.
-/

namespace FiveSpot

set_option autoImplicit false

open Interaction

def reachesKillSwitch (ctx : Context) (sm : ScheduledMachine) : Bool :=
  isOrdinary ctx sm && sm.spec.killSwitch

theorem reachesKillSwitch_iff {ctx : Context} {sm : ScheduledMachine} :
    reachesKillSwitch ctx sm = true ↔ ∃ ns, Killed ctx sm ns := by
  constructor
  · intro h
    obtain ⟨hordinary, hkill⟩ := Bool.and_eq_true_iff.mp h
    obtain ⟨ns, hns⟩ := isOrdinary_iff.mp hordinary
    exact ⟨ns, { hns with kill := hkill }⟩
  · rintro ⟨ns, h⟩
    exact Bool.and_eq_true_iff.mpr ⟨isOrdinary_iff.mpr ⟨ns, h.toOrdinary⟩, h.kill⟩

/-- A reconcile that handles the kill switch starts in a phase in which it removes the machine, or
with nothing left to remove. -/
def killsRunningOrClean (ctx : Context) (s : RunState) : RunAct → Bool
  | .start => s.world.sm.all fun sm =>
      !reachesKillSwitch (ctx.led s.world.leader) sm || runningPhase sm.phase ||
        decide (Clean s.world.log)
  | _ => true

/-- The invariant: `Terminated` is recorded over a clean log only, and a pass that will record it
either removes the machine or has nothing to remove. -/
structure KillInvariant (ctx : Context) (log : List Event) (pass : Option (Snapshot × List Obs)) : Prop where
  terminated : phaseOf log = some .terminated → Clean log
  killing : ∀ snap t, pass = some (snap, t) →
    reachesKillSwitch (ctx.led snap.leader) snap.sm = true →
      runningPhase snap.sm.phase = true ∨ Clean log
  written : ∀ snap t, pass = some (snap, t) → .phase .terminated true ∈ t → Clean log

theorem KillInvariant.cons {ctx : Context} {log : List Event} {pass : Option (Snapshot × List Obs)}
    {e : Event} (h : KillInvariant ctx log pass) (hphase : e.phaseWrite = none) (hcreates : e.creates = none) :
    KillInvariant ctx (e :: log) pass := by
  refine ⟨fun hterm => ?_, fun snap t hpass hkill => ?_, fun snap t hpass hmem => ?_⟩
  · rw [phaseOf_cons_of_none hphase] at hterm
    exact (h.terminated hterm).cons hcreates
  · exact (h.killing snap t hpass hkill).imp id fun hclean => hclean.cons hcreates
  · exact (h.written snap t hpass hmem).cons hcreates

theorem clean_of_legal_terminated {ctx : Context} {w : World} {snap : Snapshot} {trace : List (Sigma Resp)}
    {conditions : List Condition} (hknown : Known ctx w (some (snap, trace)))
    (h : KillInvariant ctx w.log (some (snap, observed trace)))
    (hlegal : LegalFor ctx snap (observed trace) (.phase .terminated conditions)) : Clean w.log := by
  cases hlegal with
  | killTerminated path clean done stamp =>
    rcases h.killing snap _ rfl (reachesKillSwitch_iff.mpr ⟨_, path⟩) with hrunning | hclean
    · exact (hknown.2.pass snap trace rfl).clean (done hrunning)
    · exact hclean

theorem KillInvariant.observe {ctx : Context} {log : List Event} {snap : Snapshot} {t : List Obs}
    {o : Obs} (h : KillInvariant ctx log (some (snap, t)))
    (ho : ∀ target done, o ≠ .phase target done) : KillInvariant ctx log (some (snap, o :: t)) := by
  refine ⟨h.terminated, fun snap' t' hpass => ?_, fun snap' t' hpass hmem => ?_⟩
  · cases hpass
    exact h.killing snap t rfl
  · cases hpass
    rcases List.mem_cons.mp hmem with hnew | hold
    · exact absurd hnew.symm (ho _ _)
    · exact h.written snap t rfl hold

theorem killInvariant_call {ctx : Context} {w after : World} {snap : Snapshot} {client : Client} {call : ApiCall}
    {trace : List (Sigma Resp)} {answer : Except KubeError call.Answer} {applied : Bool}
    {error : Option KubeError} (hknown : Known ctx w (some (snap, trace)))
    (h : KillInvariant ctx w.log (some (snap, observed trace)))
    (hlegal : ∀ effect, effectOfCall client call = some effect → LegalFor ctx snap (observed trace) effect)
    (ha : Answered w client call answer after applied error) :
    KillInvariant ctx (.called w.now w.bound client call applied error :: w.log)
      (some (snap, obsOfCall client call answer :: observed trace)) := by
  cases callKind ha with
  | other obs write creates => exact (h.cons write creates).observe obs
  | create key effect obs write =>
    obtain ⟨-, huntouched, hpending, -, hkill, -⟩ := legal_create (hlegal _ effect)
    have hphase := ((hknown.1.pass snap trace rfl).recorded huntouched.unwritten).phase
    refine ⟨fun hterm => ?_, fun snap' t hpass hreaches => ?_, fun snap' t hpass hmem => ?_⟩
    · rw [phaseOf_cons_of_none write, ← hphase] at hterm
      rw [hterm] at hpending
      cases hpending
    · cases hpass
      simp [reachesKillSwitch, hkill] at hreaches
    · cases hpass
      rcases List.mem_cons.mp hmem with hnew | hold
      · exact absurd hnew.symm (obs _ _)
      · exact absurd hold (huntouched.unwritten _ _)
  | phase target conditions done effect obs write creates done_applied =>
    have hclean : target = .terminated → Clean (.called w.now w.bound client call applied error :: w.log) := by
      rintro rfl
      exact (clean_of_legal_terminated hknown h (hlegal _ effect)).cons creates
    refine ⟨fun hterm => ?_, fun snap' t hpass hreaches => ?_, fun snap' t hpass hmem => ?_⟩
    · cases applied with
      | true =>
        rw [phaseOf_called write, Option.some.injEq] at hterm
        exact hclean hterm
      | false =>
        rw [phaseOf_cons_of_none write] at hterm
        exact (h.terminated hterm).cons creates
    · cases hpass
      exact (h.killing snap _ rfl hreaches).imp id fun hc => hc.cons creates
    · cases hpass
      rcases List.mem_cons.mp hmem with hnew | hold
      · rw [obs] at hnew
        cases hnew
        exact hclean rfl
      · exact (h.written snap _ rfl hold).cons creates

/-- Runs with fixed templates in which the kill switch finds the machine running, or nothing at all. -/
def killGuard (ctx : Context) (s : RunState) (a : RunAct) : Bool :=
  fixedTemplates s a && killsRunningOrClean ctx s a

theorem killInvariant_keeps (ctx : Context) :
    LogKeeps ctx (fun s a => killGuard ctx s a = true) (Known ctx) (fun _ => KillInvariant ctx) where
  base now := ⟨fun h => (nomatch h), fun _ _ h => (nomatch h), fun _ _ h => (nomatch h)⟩
  pause _ _ _ _ h _ := h
  edit _ _ _ _ h _ := h.cons rfl rfl
  deletion _ _ _ h _ := h.cons rfl rfl
  start w sm _ h hsm hok := by
    obtain ⟨hterm, -, -⟩ := h.cons (e := .started w.now w.bound sm) rfl rfl
    refine ⟨hterm, fun snap t hpass hreaches => ?_, fun snap t hpass hmem => ?_⟩
    · cases hpass
      have hguard : runningPhase sm.phase = true ∨ Clean w.log := by
        simp only [killGuard, killsRunningOrClean, hsm, Option.all_some, Bool.and_eq_true, Bool.or_eq_true,
          Bool.not_eq_true', decide_eq_true_eq] at hok
        rcases hok.2 with (hnot | hrunning) | hclean
        · rw [hnot] at hreaches
          cases hreaches
        · exact .inl hrunning
        · exact .inr hclean
      exact hguard.imp id fun hclean => hclean.cons rfl
    · cases hpass
      cases hmem
  call w snap client call k trace fate after applied error hknown h hlegal _ ha :=
    killInvariant_call hknown h hlegal ha
  clock _ _ _ _ h := h.observe nofun
  timeout _ _ _ _ h := (h.cons rfl rfl).observe nofun
  leave _ _ _ _ h := ⟨h.terminated, fun _ _ h => (nomatch h), fun _ _ h => (nomatch h)⟩
  crash _ _ h := h.cons rfl rfl

/-- In every such run, `Terminated` means that nothing created is left; and a kill switch that has
returned normally has recorded `Terminated`. -/
theorem killSwitch_leaves_nothing {ctx : Context} {s : RunState}
    (hs : (system ctx).Reach Fresh (fun s a => killGuard ctx s a = true) s) :
    (∀ sm, s.world.sm = some sm → sm.phase = some .terminated → Clean s.world.log) ∧
      ∀ p action, s.pass = some p → reachesKillSwitch (ctx.led p.snap.leader) p.snap.sm = true →
        p.rest = .pure action → Clean s.world.log := by
  have hfixed : ∀ s a, killGuard ctx s a = true → fixedTemplates s a = true := by
    intro s a h
    exact (Bool.and_eq_true_iff.mp h).1
  have hinv := (killInvariant_keeps ctx).holds (known_of_reach hfixed) hs
  refine ⟨fun sm hsm hphase => ?_, fun p action hp hreaches hrest => ?_⟩
  · have hrecorded := ((base_of_reach hs).recorded sm hsm).phase
    exact hinv.terminated (hrecorded.symm.trans hphase)
  · refine hinv.written p.snap (observed p.trace) (by rw [hp]; rfl) ?_
    obtain ⟨ns, hkilled⟩ := reachesKillSwitch_iff.mp hreaches
    exact outcome_of_reach hs hp hrest ns hkilled rfl

/-! ## Two runs -/

/-- The machine becomes active, then the switch is thrown. -/
def killedWhileActive : List RunAct :=
  .start :: answers 13 ++ [.finish, .interfere (.editSpec killSpec), .start] ++ answers 6

/-- The controller dies after its creates, then the switch is thrown. -/
def killedWhilePending : List RunAct :=
  .start :: answers 10 ++ [.kill, .interfere (.editSpec killSpec), .start] ++ answers 3

def isTerminated (s : RunState) : Bool :=
  s.world.sm.any fun sm => sm.spec.killSwitch && sm.phase == some .terminated

theorem killSwitch_clears_active : ∃ (s : RunState) (sm : ScheduledMachine),
    s.world.sm = some sm ∧ sm.phase = some .terminated ∧ Clean s.world.log := by
  obtain ⟨s, hs, hterminated⟩ := System.Reach.exists_of_runWith (system demoContext)
    (killGuard demoContext) isTerminated killedWhileActive demoWorld_fresh (by decide +kernel)
  obtain ⟨sm, hsm, hphase⟩ := (Option.any_eq_true _ _).mp hterminated
  have hphase := eq_of_beq (Bool.and_eq_true_iff.mp hphase).2
  exact ⟨s, sm, hsm, hphase, (killSwitch_leaves_nothing hs).1 sm hsm hphase⟩

/-- The Machine object is still there, and on record as terminated. -/
theorem killSwitch_leaves_machine : ¬∀ s : RunState,
    (system demoContext).Reach Fresh (fun s a => fixedTemplates s a = true) s →
      ∀ sm, s.world.sm = some sm → sm.spec.killSwitch = true → sm.phase = some .terminated →
        Clean s.world.log := by
  intro hclean
  obtain ⟨s, hs, hleft⟩ := System.Reach.exists_of_runWith (system demoContext) fixedTemplates
    (fun s => isTerminated s && undeleted s.world.log (machineKey demoMachine))
    killedWhilePending demoWorld_fresh (by decide +kernel)
  obtain ⟨hterminated, hleft⟩ := Bool.and_eq_true_iff.mp hleft
  obtain ⟨sm, hsm, hkilled⟩ := (Option.any_eq_true _ _).mp hterminated
  obtain ⟨hkill, hphase⟩ := Bool.and_eq_true_iff.mp hkilled
  rw [hclean s hs sm hsm hkill (eq_of_beq hphase)] at hleft
  cases hleft

end FiveSpot
