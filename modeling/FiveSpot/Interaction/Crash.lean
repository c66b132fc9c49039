import FiveSpot.Interaction.Execution

/-! # Executions that may be cut off

Nobody else acts here, but the execution may stop for good at any point: before its first request, after its last
answer and between any two requests. What has to hold there is said apart from what holds when it has ended.
-/

namespace FiveSpot.Interaction

set_option autoImplicit false

variable {Req : Type} {Resp : Req → Type} {ε α β W Fate : Type}

def alone (W : Type) : W → W → Prop := fun _ _ => False

/-! ## Undisturbed executions -/

section

variable {serve : W → (r : Req) → Fate → Resp r × W} {x : Except ε α} {w w' : W}

theorem Runs.of_pure_alone {a : α} (h : Runs serve (alone W) w (.pure a) x w') : x = .ok a ∧ w' = w := by
  cases h with
  | pure => exact ⟨rfl, rfl⟩
  | act hact _ => exact hact.elim

theorem Runs.of_fail_alone {e : ε} (h : Runs serve (alone W) w (.fail e) x w') : x = .error e ∧ w' = w := by
  cases h with
  | fail => exact ⟨rfl, rfl⟩
  | act hact _ => exact hact.elim

theorem Runs.of_call_alone {r : Req} {k : Resp r → Prog Resp ε α} (h : Runs serve (alone W) w (.call r k) x w') :
    ∃ f, Runs serve (alone W) (serve w r f).2 (k (serve w r f).1) x w' := by
  cases h with
  | call f hrest => exact ⟨f, hrest⟩
  | act hact _ => exact hact.elim

end

/-! ## Executions that are cut off -/

/-- `J` holds at every point of every execution of `p` from `w`, and `Q` at its end. -/
def Survives (serve : W → (r : Req) → Fate → Resp r × W) (J : W → Prop) :
    Prog Resp ε α → (Except ε α → W → Prop) → W → Prop
  | .pure a, Q, w => J w ∧ Q (.ok a) w
  | .fail e, Q, w => J w ∧ Q (.error e) w
  | .call r k, Q, w => J w ∧ ∀ f, Survives serve J (k (serve w r f).1) Q (serve w r f).2

variable {serve : W → (r : Req) → Fate → Resp r × W} {J : W → Prop}

@[simp] theorem survives_pure {a : α} {Q : Except ε α → W → Prop} {w : W} :
    Survives serve J (.pure a : Prog Resp ε α) Q w ↔ J w ∧ Q (.ok a) w := Iff.rfl

@[simp] theorem survives_fail {e : ε} {Q : Except ε α → W → Prop} {w : W} :
    Survives serve J (.fail e : Prog Resp ε α) Q w ↔ J w ∧ Q (.error e) w := Iff.rfl

theorem survives_call {r : Req} {k : Resp r → Prog Resp ε α} {Q : Except ε α → W → Prop} {w : W} :
    Survives serve J (.call r k) Q w ↔ J w ∧ ∀ f, Survives serve J (k (serve w r f).1) Q (serve w r f).2 := Iff.rfl

@[simp] theorem survives_ofExcept {x : Except ε α} {Q : Except ε α → W → Prop} {w : W} :
    Survives serve J (Prog.ofExcept x : Prog Resp ε α) Q w ↔ J w ∧ Q x w := by
  cases x <;> rfl

theorem Survives.here {p : Prog Resp ε α} {Q : Except ε α → W → Prop} {w : W} (h : Survives serve J p Q w) : J w := by
  cases p with
  | pure a => exact h.1
  | fail e => exact h.1
  | call r k => exact h.1

theorem Survives.mono {p : Prog Resp ε α} {Q Q' : Except ε α → W → Prop} {w : W} (h : Survives serve J p Q w)
    (hQ : ∀ x w, J w → Q x w → Q' x w) : Survives serve J p Q' w := by
  induction p generalizing w with
  | pure a => exact ⟨h.1, hQ _ w h.1 h.2⟩
  | fail e => exact ⟨h.1, hQ _ w h.1 h.2⟩
  | call r k ih => exact ⟨h.1, fun f => ih _ (h.2 f)⟩

theorem Survives.bind {p : Prog Resp ε α} {f : α → Prog Resp ε β} {Q : Except ε β → W → Prop} {w : W}
    {R : Except ε α → W → Prop} (h : Survives serve J p R w) (hok : ∀ a w, R (.ok a) w → Survives serve J (f a) Q w)
    (herror : ∀ e w, R (.error e) w → Q (.error e) w) : Survives serve J (p.bind f) Q w := by
  induction p generalizing w with
  | pure a => exact hok a w h.2
  | fail e => exact ⟨h.1, herror e w h.2⟩
  | call r k ih => exact ⟨h.1, fun fate => ih _ (h.2 fate)⟩

/-- Wherever the execution stops for good. -/
theorem Survives.proceeds {p q : Prog Resp ε α} {Q : Except ε α → W → Prop} {w w' : W} (h : Survives serve J p Q w)
    (hp : Proceeds serve (alone W) w p w' q) : J w' := by
  induction hp with
  | refl => exact h.here
  | call f _ ih => exact ih (h.2 f)
  | act hact _ _ => exact hact.elim

theorem Survives.runs {p : Prog Resp ε α} {Q : Except ε α → W → Prop} {x : Except ε α} {w w' : W}
    (h : Survives serve J p Q w) (hp : Runs serve (alone W) w p x w') : Q x w' := by
  induction hp with
  | pure => exact h.2
  | fail => exact h.2
  | call f _ ih => exact ih (h.2 f)
  | act hact _ _ => exact hact.elim

end FiveSpot.Interaction
