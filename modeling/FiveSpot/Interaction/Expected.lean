import FiveSpot.Interaction.System

/-! # Expected answers

What a program does while every request is answered as expected. `Ends` follows a state through the answers; over a run in
which all answers are expected, what one pass makes of the state is what every pass makes of it.
-/

namespace FiveSpot.Interaction

set_option autoImplicit false

section

variable {Req : Type} {Resp : Req → Type} {ε ε' α β τ : Type}

/-- Answered as expected from state `t` on, the program ends within `Q`. -/
def Ends (good : (r : Req) → Resp r → Prop) (step : τ → (r : Req) → Resp r → τ) :
    Prog Resp ε α → (Except ε α → τ → Prop) → τ → Prop
  | .pure a, Q, t => Q (.ok a) t
  | .fail e, Q, t => Q (.error e) t
  | .call r k, Q, t => ∀ answer, good r answer → Ends good step (k answer) Q (step t r answer)

variable {good : (r : Req) → Resp r → Prop} {step : τ → (r : Req) → Resp r → τ}

theorem Ends.mono {p : Prog Resp ε α} {Q Q' : Except ε α → τ → Prop} {t : τ} (hp : Ends good step p Q t)
    (h : ∀ x u, Q x u → Q' x u) : Ends good step p Q' t := by
  induction p generalizing t with
  | pure a => exact h _ _ hp
  | fail e => exact h _ _ hp
  | call r k ih => exact fun answer hanswer => ih answer (hp answer hanswer)

/-- The first program returns whatever is expected, and then the second one ends within `Q`. -/
theorem Ends.bind {p : Prog Resp ε α} {f : α → Prog Resp ε β} {Q : Except ε β → τ → Prop} {t : τ}
    (hp : Ends good step p (fun x u => ∃ a, x = .ok a ∧ Ends good step (f a) Q u) t) : Ends good step (p.bind f) Q t := by
  induction p generalizing t with
  | pure a =>
    obtain ⟨_, ha, hf⟩ := hp
    cases ha
    exact hf
  | fail e =>
    obtain ⟨_, he, -⟩ := hp
    cases he
  | call r k ih => exact fun answer hanswer => ih answer (hp answer hanswer)

theorem Ends.attempt {p : Prog Resp ε α} {Q : Except ε' (Except ε α) → τ → Prop} {t : τ}
    (hp : Ends good step p (fun x => Q (.ok x)) t) : Ends good step (p.attempt : Prog Resp ε' (Except ε α)) Q t := by
  induction p generalizing t with
  | pure a => exact hp
  | fail e => exact hp
  | call r k ih => exact fun answer hanswer => ih answer (hp answer hanswer)

theorem Ends.timeout {timer : Req} {fired : Resp timer → Bool} {p : Prog Resp ε α} {P : Except ε α → Prop} {t : τ}
    {Q : Except ε' (Option (Except ε α)) → τ → Prop} (hp : Ends good step p (fun x _ => P x) t)
    (hissues : p.Issues fun r => ∀ answer, step t r answer = t) (htimer : ∀ state, step t timer state = t)
    (hdone : ∀ x, P x → Q (.ok (some x)) t) (hfired : ∀ state, good timer state → fired state = true → Q (.ok none) t) :
    Ends good step (p.orTimeout timer fired) Q t := by
  induction p with
  | pure a => exact hdone _ hp
  | fail e => exact hdone _ hp
  | call r k ih =>
    intro answer hanswer state hstate
    have hrest := hp answer hanswer
    rw [hissues.1 answer] at hrest ⊢
    rw [htimer state]
    dsimp only
    split
    · exact hfired state hstate ‹_›
    · exact ih answer hrest (hissues.2 answer)

/-- Requests that leave the state as it is. -/
theorem ends_of_issues {R : Req → Prop} {p : Prog Resp ε α} {Q : Except ε α → τ → Prop} {t : τ}
    (hR : ∀ r, R r → ∀ answer, step t r answer = t) (hp : p.Issues R) (hQ : ∀ x, Q x t) : Ends good step p Q t := by
  induction p with
  | pure a => exact hQ _
  | fail e => exact hQ _
  | call r k ih =>
    intro answer _
    rw [hR r hp.1 answer]
    exact ih answer (hp.2 answer)

/-! ## Programs that return and leave the state alone -/

/-- Answered as expected, the program returns a value within `P`, with the state as it was. -/
structure Yields (good : (r : Req) → Resp r → Prop) (step : τ → (r : Req) → Resp r → τ) (p : Prog Resp ε α) (P : α → Prop) :
    Prop where
  ends : ∀ t, Ends good step p (fun x t' => t' = t ∧ ∃ a, x = .ok a ∧ P a) t

theorem Yields.then {p : Prog Resp ε α} {f : α → Prog Resp ε β} {P : α → Prop} {Q : Except ε β → τ → Prop} {t : τ}
    (hp : Yields good step p P) (hf : ∀ a, P a → Ends good step (f a) Q t) : Ends good step (p.bind f) Q t := by
  refine Ends.bind ((hp.ends t).mono fun x t' h => ?_)
  obtain ⟨rfl, a, ha, hP⟩ := h
  exact ⟨a, ha, hf a hP⟩

theorem Yields.bind {p : Prog Resp ε α} {f : α → Prog Resp ε β} {P : α → Prop} {P' : β → Prop} (hp : Yields good step p P)
    (hf : ∀ a, P a → Yields good step (f a) P') : Yields good step (p.bind f) P' :=
  ⟨fun t => hp.then fun a ha => (hf a ha).ends t⟩

theorem yields_pure {a : α} {P : α → Prop} (h : P a) : Yields good step (.pure a : Prog Resp ε α) P :=
  ⟨fun _ => ⟨rfl, a, rfl, h⟩⟩

theorem yields_request {r : Req} (h : ∀ t answer, step t r answer = t) :
    Yields good step (Prog.request r : Prog Resp ε (Resp r)) (good r) :=
  ⟨fun t answer hanswer => ⟨h t answer, answer, rfl, hanswer⟩⟩

theorem Yields.attempt {p : Prog Resp ε α} {P : α → Prop} (hp : Yields good step p P) :
    Yields good step (p.attempt : Prog Resp ε' (Except ε α)) fun x => ∃ a, x = .ok a ∧ P a := by
  refine ⟨fun t => Ends.attempt ((hp.ends t).mono fun x t' h => ?_)⟩
  obtain ⟨rfl, a, rfl, hP⟩ := h
  exact ⟨rfl, _, rfl, a, rfl, hP⟩

/-- Which state is followed does not matter to requests that leave it alone. -/
theorem Ends.transfer {σ : Type} {good' : (r : Req) → Resp r → Prop} {step' : σ → (r : Req) → Resp r → σ} {R : Req → Prop}
    {p : Prog Resp ε α} {P : Except ε α → Prop} {t : τ} {u : σ} (hp : Ends good step p (fun x _ => P x) t)
    (hissues : p.Issues R) (hgood : ∀ r, R r → ∀ answer, good' r answer → good r answer)
    (hstep : ∀ r, R r → ∀ answer, step' u r answer = u) : Ends good' step' p (fun x u' => u' = u ∧ P x) u := by
  induction p generalizing t with
  | pure a => exact ⟨rfl, hp⟩
  | fail e => exact ⟨rfl, hp⟩
  | call r k ih =>
    intro answer hanswer
    rw [hstep r hissues.1 answer]
    exact ih answer (hp answer (hgood r hissues.1 answer hanswer)) (hissues.2 answer)

theorem Yields.transfer {σ : Type} {good' : (r : Req) → Resp r → Prop} {step' : σ → (r : Req) → Resp r → σ} {R : Req → Prop}
    {p : Prog Resp ε α} {P : α → Prop} (t : τ) (hp : Yields good step p P) (hissues : p.Issues R)
    (hgood : ∀ r, R r → ∀ answer, good' r answer → good r answer) (hstep : ∀ r, R r → ∀ u answer, step' u r answer = u) :
    Yields good' step' p P :=
  ⟨fun u => Ends.transfer ((hp.ends t).mono fun _ _ h => h.2) hissues hgood fun r hr => hstep r hr u⟩

end

namespace System

variable {Req : Type} {Resp : Req → Type} {ε α W Snap Env Fate τ : Type} (sys : System Resp ε α W Snap Env Fate)

/-- What has to be shown of a property `J` of the passes so far, the world, and the state the pass in progress is in. -/
structure Advances (good : Snap → (r : Req) → Resp r → Prop) (step : τ → (r : Req) → Resp r → τ) (t₀ : Snap → τ)
    (Q : Snap → Except ε α → τ → Prop) (init : W → Prop) (ok : State Resp ε α W Snap → Act Env Fate → Prop)
    (J : Nat → W → Option (Snap × τ) → Prop) : Prop where
  base : ∀ w, init w → J 0 w none
  interfere : ∀ n w pass now e, J n w now → ok ⟨w, pass⟩ (.interfere e) → J n (sys.interfere e w) now
  start : ∀ n w snap, sys.Rounds init ok n ⟨w, none⟩ → J n w none → sys.snapshot w = some snap → ok ⟨w, none⟩ .start →
    J n (sys.opened snap w) (some (snap, t₀ snap)) ∧ Ends (good snap) step (sys.program snap) (Q snap) (t₀ snap)
  answer : ∀ n w snap r k trace t f, J n w (some (snap, t)) → ok ⟨w, some ⟨snap, .call r k, trace⟩⟩ (.answer f) →
    good snap r (sys.serve w r f).1 ∧ J n (sys.serve w r f).2 (some (snap, step t r (sys.serve w r f).1))
  finish : ∀ n w snap x t, J n w (some (snap, t)) → Q snap x t → J (n + 1) w none
  alive : ∀ s, ¬ok s .kill

/-- The pass in progress is in state `now`, from which it ends within `Q`. -/
def Follows (good : Snap → (r : Req) → Resp r → Prop) (step : τ → (r : Req) → Resp r → τ)
    (Q : Snap → Except ε α → τ → Prop) : Option (Pass Resp ε α Snap) → Option (Snap × τ) → Prop
  | none, now => now = none
  | some p, now => ∃ t, now = some (p.snap, t) ∧ Ends (good p.snap) step p.rest (Q p.snap) t

theorem Rounds.advances {good : Snap → (r : Req) → Resp r → Prop} {step : τ → (r : Req) → Resp r → τ} {t₀ : Snap → τ}
    {Q : Snap → Except ε α → τ → Prop} {init : W → Prop} {ok : State Resp ε α W Snap → Act Env Fate → Prop}
    {J : Nat → W → Option (Snap × τ) → Prop} (hJ : sys.Advances good step t₀ Q init ok J) {n : Nat}
    {s : State Resp ε α W Snap} (h : sys.Rounds init ok n s) : ∃ now, Follows good step Q s.pass now ∧ J n s.world now := by
  induction h with
  | init hw => exact ⟨none, rfl, hJ.base _ hw⟩
  | @step n s s' a hs hok hstep ih =>
    obtain ⟨now, hnow, hcurrent⟩ := ih
    cases a with
    | interfere e =>
      simp only [System.step, Option.ite_none_right_eq_some, Option.some.injEq] at hstep
      rw [← hstep.2]
      exact ⟨now, hnow, hJ.interfere _ _ _ _ e hcurrent hok⟩
    | start =>
      obtain ⟨w, pass⟩ := s
      cases pass with
      | some p => simp [System.step] at hstep
      | none =>
        obtain ⟨snap, hsnap, rfl⟩ := Option.map_eq_some_iff.mp hstep
        cases hnow
        obtain ⟨hnext, hends⟩ := hJ.start n w snap hs hcurrent hsnap hok
        exact ⟨_, ⟨t₀ snap, rfl, hends⟩, hnext⟩
    | answer f =>
      obtain ⟨w, _ | ⟨snap, rest, trace⟩⟩ := s
      · simp [System.step] at hstep
      · cases rest with
        | pure a => simp [System.step] at hstep
        | fail e => simp [System.step] at hstep
        | call r k =>
          cases hstep
          obtain ⟨t, rfl, hends⟩ := hnow
          obtain ⟨hgood, hnext⟩ := hJ.answer n w snap r k trace t f hcurrent hok
          exact ⟨_, ⟨_, rfl, hends _ hgood⟩, hnext⟩
    | finish =>
      obtain ⟨w, _ | ⟨snap, rest, trace⟩⟩ := s
      · simp [System.step] at hstep
      · obtain ⟨t, rfl, hends⟩ := hnow
        cases rest with
        | pure a =>
          cases hstep
          exact ⟨none, rfl, hJ.finish n w snap _ t hcurrent hends⟩
        | fail e =>
          cases hstep
          exact ⟨none, rfl, hJ.finish n w snap _ t hcurrent hends⟩
        | call r k => simp [System.step] at hstep
    | kill => exact absurd hok (hJ.alive s)

theorem Reach.trans {init init' : W → Prop} {ok ok' : State Resp ε α W Snap → Act Env Fate → Prop}
    (hinit : ∀ w, init' w → sys.Reach init ok ⟨w, none⟩) (hok : ∀ s a, ok' s a → ok s a) {s : State Resp ε α W Snap}
    (hs : sys.Reach init' ok' s) : sys.Reach init ok s := by
  induction hs with
  | init hw => exact hinit _ hw
  | step _ h hstep ih => exact .step ih (hok _ _ h) hstep

def finished : List (Act Env Fate) → Nat
  | [] => 0
  | a :: rest => finishes a + finished rest

theorem Rounds.of_runWith {init : W → Prop} {check : State Resp ε α W Snap → Act Env Fate → Bool}
    (acts : List (Act Env Fate)) {n : Nat} {s s' : State Resp ε α W Snap}
    (hs : sys.Rounds init (fun s a => check s a = true) n s) (hrun : sys.runWith check acts s = some s') :
    sys.Rounds init (fun s a => check s a = true) (n + finished acts) s' := by
  induction acts generalizing n s with
  | nil =>
    cases hrun
    exact hs
  | cons a rest ih =>
    rw [runWith] at hrun
    split at hrun
    · rename_i hcheck
      obtain ⟨mid, hmid, hrest⟩ := Option.bind_eq_some_iff.mp hrun
      rw [finished, ← Nat.add_assoc]
      exact ih (.step hs hcheck hmid) hrest
    · cases hrun

theorem Rounds.exists_of_runWith (check : State Resp ε α W Snap → Act Env Fate → Bool) (good : W → Bool) {w : W}
    (acts : List (Act Env Fate))
    (hrun : (sys.runWith check acts ⟨w, none⟩).any (fun s => s.pass.isNone && good s.world) = true) :
    ∃ w', sys.Rounds (fun w' => w' = w) (fun s a => check s a = true) (finished acts) ⟨w', none⟩ ∧
      good w' = true := by
  obtain ⟨⟨w', pass⟩, hs, hend⟩ := (Option.any_eq_true _ _).mp hrun
  obtain ⟨hpass, hgood⟩ := Bool.and_eq_true_iff.mp hend
  cases Option.isNone_iff_eq_none.mp hpass
  have hbegin : sys.Rounds (fun w' => w' = w) (fun s a => check s a = true) 0 ⟨w, none⟩ := .init rfl
  rw [← Nat.zero_add (finished acts)]
  exact ⟨w', Rounds.of_runWith sys acts hbegin hs, hgood⟩

end System

end FiveSpot.Interaction
