import FiveSpot.Interaction.Program

/-! # Monitors

A monitor watches the requests of a program and the answers they get. It keeps a state
of its own and says, in each of its states, which requests are allowed. A program
conforms when no sequence of answers makes it issue a forbidden request. The state at
the end is what a postcondition speaks about.
-/

namespace FiveSpot.Interaction

set_option autoImplicit false

structure Monitor {Req : Type} (Resp : Req → Type) (τ : Type) where
  allowed : τ → Req → Prop
  observe : τ → (r : Req) → Resp r → τ

section

variable {Req : Type} {Resp : Req → Type} {ε ε' α β τ : Type}

/-- `p`, watched from state `t`, issues allowed requests only and ends within `Q`. -/
def Conforms (M : Monitor Resp τ) : Prog Resp ε α → (Except ε α → τ → Prop) → τ → Prop
  | .pure a, Q, t => Q (.ok a) t
  | .fail e, Q, t => Q (.error e) t
  | .call r k, Q, t => M.allowed t r ∧ ∀ answer, Conforms M (k answer) Q (M.observe t r answer)

/-- The continuation of a bind only runs on a value; an error is the whole outcome. -/
def Continue (M : Monitor Resp τ) (f : α → Prog Resp ε β) (Q : Except ε β → τ → Prop) :
    Except ε α → τ → Prop
  | .ok a, t => Conforms M (f a) Q t
  | .error e, t => Q (.error e) t

variable {M : Monitor Resp τ}

@[simp] theorem conforms_pure {a : α} {Q : Except ε α → τ → Prop} {t : τ} :
    Conforms M (.pure a) Q t ↔ Q (.ok a) t := Iff.rfl

@[simp] theorem conforms_fail {e : ε} {Q : Except ε α → τ → Prop} {t : τ} :
    Conforms M (.fail e) Q t ↔ Q (.error e) t := Iff.rfl

@[simp] theorem conforms_call {r : Req} {k : Resp r → Prog Resp ε α} {Q : Except ε α → τ → Prop}
    {t : τ} : Conforms M (.call r k) Q t ↔
      M.allowed t r ∧ ∀ answer, Conforms M (k answer) Q (M.observe t r answer) := Iff.rfl

@[simp] theorem conforms_request {r : Req} {Q : Except ε (Resp r) → τ → Prop} {t : τ} :
    Conforms M (Prog.request r) Q t ↔
      M.allowed t r ∧ ∀ answer, Q (.ok answer) (M.observe t r answer) := Iff.rfl

@[simp] theorem continue_ok {f : α → Prog Resp ε β} {Q : Except ε β → τ → Prop} {a : α} {t : τ} :
    Continue M f Q (.ok a) t ↔ Conforms M (f a) Q t := Iff.rfl

@[simp] theorem continue_error {f : α → Prog Resp ε β} {Q : Except ε β → τ → Prop} {e : ε} {t : τ} :
    Continue M f Q (.error e) t ↔ Q (.error e) t := Iff.rfl

@[simp] theorem conforms_ofExcept {x : Except ε α} {Q : Except ε α → τ → Prop} {t : τ} :
    Conforms M (Prog.ofExcept x) Q t ↔ Q x t := by
  cases x <;> rfl

@[simp] theorem conforms_bind {p : Prog Resp ε α} {f : α → Prog Resp ε β}
    {Q : Except ε β → τ → Prop} {t : τ} :
    Conforms M (p.bind f) Q t ↔ Conforms M p (Continue M f Q) t := by
  induction p generalizing t with
  | pure a => rfl
  | fail e => rfl
  | call r k ih =>
    simp only [Prog.bind, conforms_call]
    exact and_congr_right fun _ => forall_congr' fun answer => ih answer

@[simp] theorem conforms_attempt {p : Prog Resp ε α} {Q : Except ε' (Except ε α) → τ → Prop} {t : τ} :
    Conforms M (p.attempt : Prog Resp ε' (Except ε α)) Q t ↔ Conforms M p (fun x => Q (.ok x)) t := by
  induction p generalizing t with
  | pure a => rfl
  | fail e => rfl
  | call r k ih =>
    simp only [Prog.attempt, conforms_call]
    exact and_congr_right fun _ => forall_congr' fun answer => ih answer

theorem Conforms.mono {p : Prog Resp ε α} {Q Q' : Except ε α → τ → Prop} {t : τ}
    (hp : Conforms M p Q t) (h : ∀ x u, Q x u → Q' x u) : Conforms M p Q' t := by
  induction p generalizing t with
  | pure a => exact h _ _ hp
  | fail e => exact h _ _ hp
  | call r k ih => exact ⟨hp.1, fun answer => ih answer (hp.2 answer)⟩

theorem conforms_of_issues {R : Req → Prop} {L : τ → τ → Prop} (hrefl : ∀ t, L t t)
    (htrans : ∀ {t u v}, L t u → L u v → L t v) {p : Prog Resp ε α} {Q : Except ε α → τ → Prop} {t : τ}
    (hR : ∀ r, R r → ∀ u, L t u → M.allowed u r ∧ ∀ answer, L u (M.observe u r answer)) (hp : p.Issues R)
    (hQ : ∀ x u, L t u → Q x u) : Conforms M p Q t := by
  induction p generalizing t with
  | pure a => exact hQ _ _ (hrefl t)
  | fail e => exact hQ _ _ (hrefl t)
  | call r k ih =>
    have hr := hR r hp.1 t (hrefl t)
    refine ⟨hr.1, fun answer => ih answer (fun r' hr' u hu => hR r' hr' u (htrans (hr.2 answer) hu)) (hp.2 answer) ?_⟩
    exact fun x u hu => hQ x u (htrans (hr.2 answer) hu)

theorem conforms_of_allowed {R : Req → Prop} {p : Prog Resp ε α} (hR : ∀ r, R r → ∀ t, M.allowed t r) (hp : p.Issues R)
    {t : τ} : Conforms M p (fun _ _ => True) t := by
  induction p generalizing t with
  | pure a => trivial
  | fail e => trivial
  | call r k ih => exact ⟨hR r hp.1 t, fun answer => ih answer (hp.2 answer)⟩

/-- A program under a timer is watched like the program itself, as long as the timer is
silent and the postcondition also accepts being cut off at any moment allowed by `I`. -/
theorem conforms_orTimeout {timer : Req} {fired : Resp timer → Bool} {p : Prog Resp ε α}
    {Q : Except ε' (Option (Except ε α)) → τ → Prop} {t : τ}
    (hallowed : ∀ t, M.allowed t timer)
    (hquiet : ∀ t state, fired state = false → M.observe t timer state = t)
    (hfired : ∀ t state, fired state = true → Q (.ok none) (M.observe t timer state))
    (hp : Conforms M p (fun x => Q (.ok (some x))) t) :
    Conforms M (p.orTimeout timer fired) Q t := by
  induction p generalizing t with
  | pure a => exact hp
  | fail e => exact hp
  | call r k ih =>
    refine ⟨hp.1, fun answer => ⟨hallowed _, fun state => ?_⟩⟩
    dsimp only
    by_cases h : fired state = true
    · rw [if_pos h]
      exact hfired _ state h
    · rw [if_neg h, hquiet _ state (Bool.eq_false_iff.mpr h)]
      exact ih answer (hp.2 answer)

/-- The monitor's state after a trace, newest event first. -/
def Monitor.after (M : Monitor Resp τ) (t : τ) : List (Sigma Resp) → τ
  | [] => t
  | event :: earlier => M.observe (M.after t earlier) event.1 event.2

@[simp] theorem Monitor.after_nil (t : τ) : M.after t [] = t := rfl

@[simp] theorem Monitor.after_cons (t : τ) (r : Req) (answer : Resp r) (earlier : List (Sigma Resp)) :
    M.after t (⟨r, answer⟩ :: earlier) = M.observe (M.after t earlier) r answer := rfl

end

end FiveSpot.Interaction
