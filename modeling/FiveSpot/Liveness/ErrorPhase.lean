import FiveSpot.Safety.Objects

/-! # The Error phase

`handle_error_phase` waits for a change that makes the next reconcile succeed, but no handler ever moves
a resource out of `Error`: it stays there however healthy everything else is.
-/

namespace FiveSpot

set_option autoImplicit false

open Interaction

/-- Reconciles see a valid spec without kill switch and no reclaim request, and every call works. -/
def healthy (s : RunState) : RunAct → Bool
  | .start => s.world.sm.all fun sm => !sm.spec.killSwitch && succeeded (validateSpec sm.spec)
  | .answer fate => fate.isOk &&
      (nextCall s).all fun ⟨_, client, call⟩ => (requestAhead s.world fate client call).isNone
  | .kill => false
  | _ => true

/-- After `n` reconciles from `w` in which all is well. -/
abbrev HealthyRounds (ctx : Context) (w : World) (n : Nat) (s : RunState) : Prop :=
  (system ctx).Rounds (fun w' => w' = w) (fun s a => healthy s a = true) n s

/-- The phases a resource is expected to end up in. -/
def Recovered (s : RunState) : Prop :=
  ∃ sm, s.world.sm = some sm ∧
    (sm.phase = some .active ∨ sm.phase = some .inactive ∨ sm.phase = some .disabled)

/-! ## Nothing leads out -/

structure StuckInError (w : World) (pass : Option (Snapshot × List (Sigma Resp))) : Prop where
  phase : ∀ sm, w.sm = some sm → sm.phase = some .error
  pass : ∀ snap trace, pass = some (snap, trace) →
    snap.sm.phase = some .error ∧ snap.sm.spec.killSwitch = false ∧ Unrequested (observed trace)

theorem no_legal_phase {ctx : Context} {snap : Snapshot} {t : List Obs} (hphase : snap.sm.phase = some .error)
    (hkill : snap.sm.spec.killSwitch = false) (ht : Unrequested t) (target : Phase) (conditions : List Condition) :
    ¬LegalFor ctx snap t (.phase target conditions) := by
  have hother : ∀ phase : Phase, phase ≠ .error → snap.sm.phase ≠ some phase := by
    intro phase hne heq
    rw [hphase] at heq
    exact hne (Option.some.inj heq).symm
  have hpending : pendingLike snap.sm.phase ≠ true := by
    rw [hphase]
    exact nofun
  intro h
  cases h with
  | killTerminated path clean done stamp => simp [path.kill] at hkill
  | reclaimMark path clean stamp => exact ht.not_reclaimed path
  | reclaimDone path marked removed disabled stamp => exact ht.not_reclaimed path
  | recover path phase clean stamp => exact absurd phase (hother _ nofun)
  | pendingDisabled path phase enabled clean stamp => exact hpending phase
  | pendingInactive path phase clean stamp => exact hpending phase
  | pendingError path phase clean stamp => exact hpending phase
  | pendingActive path phase clean named created stamp => exact hpending phase
  | activeShutdown path phase clean cause stamp => exact absurd phase (hother _ nofun)
  | shutdownError path clean stamp => exact absurd path.phase (hother _ nofun)
  | shutdownInactive path clean removed stamp => exact absurd path.phase (hother _ nofun)
  | inactivePending path phase enabled clean stamp => exact absurd phase (hother _ nofun)
  | disabledPending path phase enabled clean stamp => exact absurd phase (hother _ nofun)

theorem stuck_call {ctx : Context} {w : World} {snap : Snapshot} {client : Client} {call : ApiCall}
    {k : Resp (.api client call) → Prog Resp ReconcilerError Action} {trace : List (Sigma Resp)} {fate : Fate}
    (h : StuckInError w (some (snap, trace)))
    (hlegal : ∀ effect, effectOfCall client call = some effect → LegalFor ctx snap (observed trace) effect)
    (hok : healthy ⟨w, some ⟨snap, .call (.api client call) k, trace⟩⟩ (.answer fate) = true) :
    StuckInError (serveApi w client call fate).2
      (some (snap, ⟨.api client call, (serveApi w client call fate).1⟩ :: trace)) := by
  obtain ⟨hread, hkill, hunrequested⟩ := h.pass snap trace rfl
  have hnone : (requestAhead w fate client call).isNone = true := by
    simpa [nextCall] using (Bool.and_eq_true_iff.mp hok).2
  refine ⟨fun sm hsm => ?_, fun snap' trace' hpass => ?_⟩
  · obtain ⟨applied, error, ha⟩ := exists_answered w client call fate
    rw [show (serveApi w client call fate).2.sm = _ from ha.sm] at hsm
    cases applied with
    | false => exact h.phase sm hsm
    | true =>
      obtain ⟨sm₀, hsm₀, hon⟩ := Option.bind_eq_some_iff.mp hsm
      obtain hcall | ⟨_, _, target, _, conditions, _, _, rfl⟩ := isPhaseWrite_cases call
      · rw [(sameCore_onSm hcall hon).phase]
        exact h.phase sm₀ hsm₀
      · exact absurd (hlegal _ rfl) (no_legal_phase hread hkill hunrequested target conditions)
  · cases hpass
    exact ⟨hread, hkill, hunrequested.call hnone⟩

theorem stuck_keeps (ctx : Context) (w₀ : World) (h₀ : ∀ sm, w₀.sm = some sm → sm.phase = some .error) :
    (system ctx).Keeps (rules ctx) (fun _ => []) (fun w => w = w₀) (fun s a => healthy s a = true)
      (fun _ _ => True) StuckInError where
  base w hw := by
    rw [hw]
    exact ⟨h₀, fun _ _ h => (nomatch h)⟩
  interfere w pass e _ h _ _ := by
    refine ⟨fun sm' hsm' => ?_, h.pass⟩
    obtain ⟨sm, hsm, hcore, -⟩ := (interfere_frame e w).2 sm' hsm'
    rw [hcore.phase]
    exact h.phase sm hsm
  start w snap _ h hsnap hok := by
    obtain ⟨sm, hsm, rfl⟩ := Option.map_eq_some_iff.mp hsnap
    refine ⟨h.phase, fun snap trace hpass => ?_⟩
    cases hpass
    have hkill : sm.spec.killSwitch = false ∧ succeeded (validateSpec sm.spec) = true := by
      simpa [healthy, hsm] using hok
    exact ⟨h.phase sm hsm, hkill.1, fun _ _ hmem => (nomatch hmem)⟩
  answer w snap r k trace f _ h hallowed hok := by
    rw [rules_after] at hallowed
    obtain ⟨hread, hkill, hunrequested⟩ := h.pass snap trace rfl
    cases r with
    | api client call => exact stuck_call h hallowed hok
    | loc op =>
      obtain ⟨hsm, -⟩ := performLocal_frame w op
      refine ⟨fun sm' hsm' => h.phase sm' (hsm ▸ hsm'), fun snap' trace' hpass => ?_⟩
      cases hpass
      refine ⟨hread, hkill, ?_⟩
      cases op with
      | utcNow => exact hunrequested.cons nofun
      | _ => exact hunrequested
    | timer seconds =>
      obtain ⟨hsm, -, hfired⟩ := serve_timer_frame w seconds f
      refine ⟨fun sm' hsm' => h.phase sm' (hsm ▸ hsm'), fun snap' trace' hpass => ?_⟩
      cases hpass
      refine ⟨hread, hkill, ?_⟩
      change Unrequested (observed (⟨.timer seconds, (serve w (.timer seconds) f).1⟩ :: trace))
      rcases hfired with ⟨hanswer, -⟩ | ⟨hanswer, -⟩
      · rw [observed_cons, hanswer]
        exact hunrequested.cons nofun
      · rw [observed_cons, hanswer]
        exact hunrequested
  finish _ _ _ h := ⟨h.phase, fun _ _ h => (nomatch h)⟩
  kill _ _ _ h := ⟨h.phase, fun _ _ h => (nomatch h)⟩

theorem error_of_healthyRounds {ctx : Context} {w : World} (hw : ∀ sm, w.sm = some sm → sm.phase = some .error)
    {n : Nat} {s : RunState} (h : HealthyRounds ctx w n s) {sm : ScheduledMachine} (hsm : s.world.sm = some sm) :
    sm.phase = some .error :=
  (System.Reach.invariant _ (system_conforms ctx) (fun _ _ => trivial) (stuck_keeps ctx w hw)
    (System.Rounds.reach _ h)).phase sm hsm

/-! ## Healthy reconciles are always possible -/

/-- The resource is not being deleted, and there is no Node to reclaim. -/
structure Undisturbed (w : World) : Prop where
  nodes : ∀ client name, w.env.node client name = none
  alive : ∃ sm, w.sm = some sm ∧ sm.deleting = false

theorem perform_node {w after : World} {client : Client} {call : ApiCall} {answer : call.Answer}
    (h : perform w client call = .ok (answer, after)) (hnodes : ∀ c n, w.env.node c n = none) :
    ∀ c n, after.env.node c n = none := by
  cases call with
  | patchNode node body =>
    obtain ⟨found, hfound, -⟩ := orNotFound_eq_ok h
    rw [hnodes] at hfound
    cases hfound
  | applyNodeTaints node ownership taints =>
    obtain ⟨found, hfound, -⟩ := applyNodeTaints_eq_ok h
    rw [hnodes] at hfound
    cases hfound
  | create ar ns name body =>
    obtain ⟨-, -, rfl⟩ := create_eq_ok h
    exact hnodes
  | deleteConfigMap ns name =>
    simp only [perform] at h
    split at h
    · cases h
      exact hnodes
    · cases h
  | patchStatus | patchFinalizers | patchEnabled | delete | get | pinnedKind | getSecret | getNode =>
    obtain ⟨_, _, heq⟩ := orNotFound_eq_ok h
    cases heq
    exact hnodes
  | publishEvent | accessReview | listPods | deletePod | applyConfigMap | configMapExists |
    secretExists | namespaceExists =>
    cases h
    exact hnodes

theorem onSm_alive (call : ApiCall) {sm : ScheduledMachine} (h : sm.deleting = false) :
    ∃ sm', call.onSm sm = some sm' ∧ sm'.deleting = false := by
  cases call with
  | patchFinalizers ns name finalizers =>
    refine ⟨{ sm with metadata := { sm.metadata with finalizers := some finalizers } }, ?_, h⟩
    simp [ApiCall.onSm, ScheduledMachine.setFinalizers, h]
  | patchStatus ns name body => exact ⟨_, rfl, h⟩
  | patchEnabled ns name value => exact ⟨_, rfl, h⟩
  | _ => exact ⟨sm, rfl, h⟩

theorem undisturbed_serve {w : World} (r : Req) (h : Undisturbed w) : Undisturbed (serve w r .ok).2 := by
  cases r with
  | api client call =>
    change Undisturbed (serveApi w client call .ok).2
    simp only [serveApi]
    cases hperform : perform w client call with
    | error e => exact ⟨h.nodes, h.alive⟩
    | ok result =>
      obtain ⟨answer, after⟩ := result
      change Undisturbed (w.recordCall client call true none after)
      obtain ⟨sm, hsm, halive⟩ := h.alive
      obtain ⟨sm', hon, halive'⟩ := onSm_alive call halive
      have hnodes := perform_node hperform h.nodes
      refine ⟨hnodes, sm', ?_, halive'⟩
      exact (perform_frame hperform).1.trans (by rw [hsm]; exact hon)
  | loc op =>
    obtain ⟨hsm, -, -, henv, -⟩ := performLocal_frame w op
    exact ⟨by rw [show (serve w (.loc op) .ok).2.env = _ from henv]; exact h.nodes,
      by rw [show (serve w (.loc op) .ok).2.sm = _ from hsm]; exact h.alive⟩
  | timer seconds => exact h

/-- All objects are there and the window is open, but there are no Nodes. -/
def calmEnv : Env := { demoEnv with object := fun _ => some (providerSays true) }

theorem healthy_answer {w : World} {snap : Snapshot} {r : Req} {k : Resp r → Prog Resp ReconcilerError Action}
    {trace : List (Sigma Resp)} (h : Undisturbed w) : healthy ⟨w, some ⟨snap, .call r k, trace⟩⟩ (.answer .ok) = true := by
  cases r with
  | api client call =>
    have hnone : requestAhead w .ok client call = none := by
      unfold requestAhead
      split
      · simp [h.nodes]
      · rfl
    simp [healthy, nextCall, hnone, Fate.isOk]
  | loc op => rfl
  | timer seconds => rfl

theorem healthyRounds_succ {ctx : Context} {w w₁ : World} {n : Nat} (h : HealthyRounds ctx w n ⟨w₁, none⟩)
    (hstart : healthy ⟨w₁, none⟩ .start = true) (hready : Undisturbed w₁) :
    ∃ w₂, Undisturbed w₂ ∧ HealthyRounds ctx w (n + 1) ⟨w₂, none⟩ := by
  obtain ⟨sm, hsm, halive⟩ := hready.alive
  have hopened : (system ctx).step .start ⟨w₁, none⟩ = some ⟨w₁.record (.started w₁.now w₁.bound sm),
      some ⟨⟨sm, w₁.leader⟩, reconcileScheduledMachine (ctx.led w₁.leader) sm, []⟩⟩ := by
    simp [System.step, system, hsm]
  have hrunning := System.Rounds.step h hstart hopened
  refine System.Rounds.return (system ctx) (f := .ok) ?_ ?_ ?_ _ _ _ ?_ hrunning
  · exact fun _ _ _ _ _ h => healthy_answer h
  · exact fun _ r h => undisturbed_serve r h
  · exact fun _ => rfl
  · exact ⟨hready.nodes, sm, hsm, halive⟩

/-- From a live resource, any number of healthy reconciles can follow. -/
theorem exists_healthyRounds (ctx : Context) {w : World} {sm : ScheduledMachine} (hsm : w.sm = some sm)
    (halive : sm.deleting = false) (n : Nat) :
    ∃ w' sm', w'.sm = some sm' ∧ sm'.deleting = false ∧ HealthyRounds ctx w n ⟨w', none⟩ := by
  induction n with
  | zero => exact ⟨w, sm, hsm, halive, .init rfl⟩
  | succ n ih =>
    obtain ⟨w₁, sm₁, hsm₁, halive₁, hrounds⟩ := ih
    -- somebody takes the Nodes away and edits the spec, then the controller reconciles
    have hcalm : HealthyRounds ctx w n ⟨interfere (.replace calmEnv .all) w₁, none⟩ :=
      System.Rounds.step (a := .interfere (.replace calmEnv .all)) hrounds rfl rfl
    have hedit : HealthyRounds ctx w n
        ⟨interfere (.editSpec demoSpec) (interfere (.replace calmEnv .all) w₁), none⟩ :=
      System.Rounds.step (a := .interfere (.editSpec demoSpec)) hcalm rfl rfl
    have hedited : (interfere (.editSpec demoSpec) (interfere (.replace calmEnv .all) w₁)).sm =
        some { sm₁ with spec := demoSpec } := by
      simp [interfere, hsm₁, World.record, World.setSm]
    obtain ⟨w₂, hready, hreturn⟩ := healthyRounds_succ hedit
      (by simp only [healthy, hedited, Option.all_some]; decide)
      ⟨fun client name => by simp [interfere, hsm₁, World.record, World.setSm, calmEnv, demoEnv], _, hedited, halive₁⟩
    obtain ⟨sm₂, hsm₂, halive₂⟩ := hready.alive
    exact ⟨w₂, sm₂, hsm₂, halive₂, hreturn⟩

theorem not_recovers {ctx : Context} {w : World} {sm : ScheduledMachine} (hsm : w.sm = some sm)
    (hphase : sm.phase = some .error) (halive : sm.deleting = false) :
    ¬∃ n, ∀ s, HealthyRounds ctx w n s → Recovered s := by
  rintro ⟨n, hrecovers⟩
  obtain ⟨w', sm', hsm', -, hrounds⟩ := exists_healthyRounds ctx hsm halive n
  have herror : ∀ sm', w.sm = some sm' → sm'.phase = some .error := by
    intro sm' hsm'
    cases hsm.symm.trans hsm'
    exact hphase
  obtain ⟨sm'', hsm'', hgood⟩ := hrecovers _ hrounds
  rw [error_of_healthyRounds herror hrounds hsm''] at hgood
  rcases hgood with h | h | h <;> cases h

/-- A resource in `Error` that is not being deleted never recovers: no number of healthy reconciles takes
it to another phase, and there are healthy runs of every length. -/
theorem error_is_forever {ctx : Context} {w : World} {sm : ScheduledMachine} (hsm : w.sm = some sm)
    (hphase : sm.phase = some .error) (halive : sm.deleting = false) :
    (¬∃ n, ∀ s, HealthyRounds ctx w n s → Recovered s) ∧
      ∀ n, (∃ s, HealthyRounds ctx w n s) ∧
        ∀ s, HealthyRounds ctx w n s → ∀ sm', s.world.sm = some sm' → sm'.phase = some .error := by
  refine ⟨not_recovers hsm hphase halive, fun n => ⟨?_, fun s hs sm' hsm' => ?_⟩⟩
  · obtain ⟨w', _, _, _, hrounds⟩ := exists_healthyRounds ctx hsm halive n
    exact ⟨_, hrounds⟩
  · refine error_of_healthyRounds (fun sm₀ hsm₀ => ?_) hs hsm'
    cases hsm.symm.trans hsm₀
    exact hphase

/-! ## A run -/

def failedCreate : List RunAct :=
  .start :: answers 7 ++ [.answer (.fail serverFault)] ++ answers 3 ++ [.finish]

def restsInError (s : RunState) : Bool :=
  s.pass.isNone && s.world.sm.any fun sm => sm.phase == some .error && !sm.deleting

theorem restsInError_iff {s : RunState} (h : restsInError s = true) :
    ∃ w sm, s = ⟨w, none⟩ ∧ w.sm = some sm ∧ sm.phase = some .error ∧ sm.deleting = false := by
  obtain ⟨hpass, hsm⟩ := Bool.and_eq_true_iff.mp h
  obtain ⟨sm, hsm, herror⟩ := (Option.any_eq_true _ _).mp hsm
  obtain ⟨hphase, halive⟩ := Bool.and_eq_true_iff.mp herror
  obtain ⟨w, pass⟩ := s
  cases Option.isNone_iff_eq_none.mp hpass
  exact ⟨w, sm, rfl, hsm, eq_of_beq hphase, by simpa using halive⟩

theorem error_is_forever_failedCreate : ∃ w : World, (system demoContext).Reach Fresh (fun _ _ => True) ⟨w, none⟩ ∧
    ∀ n, ∃ s, HealthyRounds demoContext w n s := by
  obtain ⟨s, hs, hrests⟩ := System.Reach.exists_of_runWith (system demoContext) (fun _ _ => true) restsInError
    failedCreate demoWorld_fresh (by decide +kernel)
  obtain ⟨w, sm, rfl, hsm, hphase, halive⟩ := restsInError_iff hrests
  exact ⟨w, hs.mono _ fun _ _ _ => trivial, fun n => ((error_is_forever hsm hphase halive).2 n).1⟩

/-- After a failed create there is no recovery. -/
theorem error_after_failed_create : ¬∀ w : World, (system demoContext).Reach Fresh (fun _ _ => True) ⟨w, none⟩ →
    ∀ sm, w.sm = some sm → sm.phase = some .error → ∃ n, ∀ s, HealthyRounds demoContext w n s → Recovered s := by
  intro hrecovers
  obtain ⟨s, hs, hrests⟩ := System.Reach.exists_of_runWith (system demoContext) (fun _ _ => true) restsInError
    failedCreate demoWorld_fresh (by decide +kernel)
  obtain ⟨w, sm, rfl, hsm, hphase, halive⟩ := restsInError_iff hrests
  exact not_recovers hsm hphase halive (hrecovers w (hs.mono _ fun _ _ _ => trivial) sm hsm hphase)

end FiveSpot
