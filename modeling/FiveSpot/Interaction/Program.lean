import Mathlib.Logic.Basic

/-! # Interaction programs

A program issues requests, continues with whatever answer comes back, and ends with a
value or with an error. Nothing is assumed here about who answers. The tree is
well-founded, so every program finishes after finitely many answers.
-/

namespace FiveSpot.Interaction

set_option autoImplicit false

theorem except_bind_eq_ok_iff {ε α β : Type} {x : Except ε α} {f : α → Except ε β} {b : β} :
    (x >>= f) = .ok b ↔ ∃ a, x = .ok a ∧ f a = .ok b := by
  cases x with
  | error e => exact ⟨fun h => (nomatch h), fun ⟨_, h, _⟩ => (nomatch h)⟩
  | ok a => exact ⟨fun h => ⟨a, rfl, h⟩, fun ⟨_, h, hf⟩ => by cases h; exact hf⟩

theorem except_eq_ok_of_toOption {ε α : Type} {x : Except ε α} {a : α} (h : x.toOption = some a) : x = .ok a := by
  cases x with
  | error e => cases h
  | ok b => exact congrArg Except.ok (Option.some.inj h)

inductive Prog {Req : Type} (Resp : Req → Type) (ε α : Type) : Type where
  | pure (a : α)
  | fail (e : ε)
  | call (r : Req) (k : Resp r → Prog Resp ε α)

namespace Prog

variable {Req : Type} {Resp : Req → Type} {ε ε' α β : Type}

def bind : Prog Resp ε α → (α → Prog Resp ε β) → Prog Resp ε β
  | .pure a, f => f a
  | .fail e, _ => .fail e
  | .call r k, f => .call r fun answer => (k answer).bind f

instance : Monad (Prog Resp ε) where
  pure := .pure
  bind := Prog.bind

@[simp] theorem pure_def (a : α) : (Pure.pure a : Prog Resp ε α) = .pure a := rfl

@[simp] theorem bind_def (p : Prog Resp ε α) (f : α → Prog Resp ε β) : (p >>= f) = p.bind f := rfl

@[simp] theorem pure_bind (a : α) (f : α → Prog Resp ε β) : (Prog.pure a).bind f = f a := rfl

@[simp] theorem fail_bind (e : ε) (f : α → Prog Resp ε β) : (Prog.fail e).bind f = .fail e := rfl

def request (r : Req) : Prog Resp ε (Resp r) := .call r .pure

def ofExcept : Except ε α → Prog Resp ε α
  | .ok a => .pure a
  | .error e => .fail e

/-- Run a program to its outcome instead of propagating its error. -/
def attempt : Prog Resp ε α → Prog Resp ε' (Except ε α)
  | .pure a => .pure (.ok a)
  | .fail e => .pure (.error e)
  | .call r k => .call r fun answer => (k answer).attempt

/-- Abandon a program as soon as a timer has fired. The timer is looked at after every
answer; an abandoned call may or may not have taken effect, which is covered by the
answers the call itself can get. -/
def orTimeout (timer : Req) (fired : Resp timer → Bool) :
    Prog Resp ε α → Prog Resp ε' (Option (Except ε α))
  | .pure a => .pure (some (.ok a))
  | .fail e => .pure (some (.error e))
  | .call r k => .call r fun answer => .call timer fun state =>
      if fired state then .pure none else (k answer).orTimeout timer fired

/-- Every request the program can issue, whatever the answers, satisfies `R`. -/
def Issues (R : Req → Prop) : Prog Resp ε α → Prop
  | .pure _ => True
  | .fail _ => True
  | .call r k => R r ∧ ∀ answer, (k answer).Issues R

@[simp] theorem issues_pure (R : Req → Prop) (a : α) : (Prog.pure a : Prog Resp ε α).Issues R := trivial

@[simp] theorem issues_fail (R : Req → Prop) (e : ε) : (Prog.fail e : Prog Resp ε α).Issues R := trivial

@[simp] theorem issues_call (R : Req → Prop) (r : Req) (k : Resp r → Prog Resp ε α) :
    (Prog.call r k).Issues R ↔ R r ∧ ∀ answer, (k answer).Issues R := Iff.rfl

@[simp] theorem issues_request (R : Req → Prop) (r : Req) :
    (request r : Prog Resp ε (Resp r)).Issues R ↔ R r := by
  simp [request]

@[simp] theorem issues_ofExcept (R : Req → Prop) (x : Except ε α) :
    (ofExcept x : Prog Resp ε α).Issues R := by
  cases x <;> simp [ofExcept]

theorem Issues.bind {R : Req → Prop} {p : Prog Resp ε α} {f : α → Prog Resp ε β}
    (hp : p.Issues R) (hf : ∀ a, (f a).Issues R) : (p.bind f).Issues R := by
  induction p with
  | pure a => exact hf a
  | fail e => trivial
  | call r k ih => exact ⟨hp.1, fun answer => ih answer (hp.2 answer)⟩

theorem Issues.attempt {R : Req → Prop} {p : Prog Resp ε α} (hp : p.Issues R) :
    (p.attempt : Prog Resp ε' (Except ε α)).Issues R := by
  induction p with
  | pure a => trivial
  | fail e => trivial
  | call r k ih => exact ⟨hp.1, fun answer => ih answer (hp.2 answer)⟩

theorem Issues.orTimeout {R : Req → Prop} {timer : Req} {fired : Resp timer → Bool} {p : Prog Resp ε α}
    (htimer : R timer) (hp : p.Issues R) :
    (p.orTimeout timer fired : Prog Resp ε' (Option (Except ε α))).Issues R := by
  induction p with
  | pure a => trivial
  | fail e => trivial
  | call r k ih =>
    refine ⟨hp.1, fun answer => ⟨htimer, fun state => ?_⟩⟩
    dsimp only
    split
    · trivial
    · exact ih answer (hp.2 answer)

/-- Runs against a server that keeps a state: from which state to which, and to what outcome. -/
inductive Runs {W : Type} (serves : W → (r : Req) → Resp r → W → Prop) : W → Prog Resp ε α → W → Except ε α → Prop
  | pure {w : W} (a : α) : Runs serves w (.pure a) w (.ok a)
  | fail {w : W} (e : ε) : Runs serves w (.fail e) w (.error e)
  | call {w w' w'' : W} {r : Req} {k : Resp r → Prog Resp ε α} {answer : Resp r} {x : Except ε α} :
      serves w r answer w' → Runs serves w' (k answer) w'' x → Runs serves w (.call r k) w'' x

theorem Runs.of_bind {W : Type} {serves : W → (r : Req) → Resp r → W → Prop} {w w'' : W} {p : Prog Resp ε α}
    {f : α → Prog Resp ε β} {x : Except ε β} (h : (p.bind f).Runs serves w w'' x) :
    (∃ e, p.Runs serves w w'' (.error e) ∧ x = .error e) ∨
      ∃ a w', p.Runs serves w w' (.ok a) ∧ (f a).Runs serves w' w'' x := by
  induction p generalizing w with
  | pure a => exact .inr ⟨a, w, .pure a, h⟩
  | fail e =>
    cases h
    exact .inl ⟨e, .fail e, rfl⟩
  | call r k ih =>
    cases h with
    | call hserve hrest =>
      rcases ih _ hrest with ⟨e, hp, rfl⟩ | ⟨a, w', hp, hf⟩
      · exact .inl ⟨e, .call hserve hp, rfl⟩
      · exact .inr ⟨a, w', .call hserve hp, hf⟩

/-- Every error the program can end with, whatever the answers, satisfies `E`. -/
def Errors (E : ε → Prop) : Prog Resp ε α → Prop
  | .pure _ => True
  | .fail e => E e
  | .call _ k => ∀ answer, (k answer).Errors E

theorem Errors.bind {E : ε → Prop} {p : Prog Resp ε α} {f : α → Prog Resp ε β}
    (hp : p.Errors E) (hf : ∀ a, (f a).Errors E) : (p.bind f).Errors E := by
  induction p with
  | pure a => exact hf a
  | fail e => exact hp
  | call r k ih => exact fun answer => ih answer (hp answer)

theorem errors_attempt (E : ε' → Prop) (p : Prog Resp ε α) :
    (p.attempt : Prog Resp ε' (Except ε α)).Errors E := by
  induction p with
  | pure a => trivial
  | fail e => trivial
  | call r k ih => exact fun answer => ih answer

theorem Errors.bind_attempt {E : ε → Prop} {E' : ε' → Prop} {p : Prog Resp ε α}
    {f : Except ε α → Prog Resp ε' β} (hp : p.Errors E) (hok : ∀ a, (f (.ok a)).Errors E')
    (herror : ∀ e, E e → (f (.error e)).Errors E') : (p.attempt.bind f).Errors E' := by
  induction p with
  | pure a => exact hok a
  | fail e => exact herror e hp
  | call r k ih => exact fun answer => ih answer (hp answer)

/-- Some answers make the program issue `r`. -/
def Asks (r : Req) : Prog Resp ε α → Prop
  | .pure _ => False
  | .fail _ => False
  | .call r' k => r' = r ∨ ∃ answer, (k answer).Asks r

theorem Issues.of_asks {R : Req → Prop} {p : Prog Resp ε α} {r : Req} (hp : p.Issues R) (hr : p.Asks r) : R r := by
  induction p with
  | pure a => exact hr.elim
  | fail e => exact hr.elim
  | call r' k ih =>
    rcases hr with rfl | ⟨answer, hr⟩
    · exact hp.1
    · exact ih answer (hp.2 answer) hr

end Prog

end FiveSpot.Interaction
