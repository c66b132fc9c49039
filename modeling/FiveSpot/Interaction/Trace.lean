import FiveSpot.Interaction.Program

/-! # Complete traces

A sequence of answers makes a program issue a sequence of requests and brings it to an outcome. The trace
keeps both, in the order in which they come.
-/

namespace FiveSpot.Interaction.Prog

set_option autoImplicit false

variable {Req : Type} {Resp : Req → Type} {ε α β : Type}

inductive Yields : Prog Resp ε α → List (Sigma Resp) → Except ε α → Prop
  | pure (a : α) : Yields (.pure a) [] (.ok a)
  | fail (e : ε) : Yields (.fail e) [] (.error e)
  | call {r : Req} {k : Resp r → Prog Resp ε α} {answer : Resp r} {trace : List (Sigma Resp)} {x : Except ε α} :
      Yields (k answer) trace x → Yields (.call r k) (⟨r, answer⟩ :: trace) x

variable {trace : List (Sigma Resp)}

@[simp] theorem yields_pure_iff {a : α} {x : Except ε α} :
    (Prog.pure a : Prog Resp ε α).Yields trace x ↔ trace = [] ∧ x = .ok a := by
  constructor
  · rintro ⟨⟩
    exact ⟨rfl, rfl⟩
  · rintro ⟨rfl, rfl⟩
    exact .pure a

@[simp] theorem yields_fail_iff {e : ε} {x : Except ε α} :
    (Prog.fail e : Prog Resp ε α).Yields trace x ↔ trace = [] ∧ x = .error e := by
  constructor
  · rintro ⟨⟩
    exact ⟨rfl, rfl⟩
  · rintro ⟨rfl, rfl⟩
    exact .fail e

theorem yields_call_iff {r : Req} {k : Resp r → Prog Resp ε α} {x : Except ε α} :
    (Prog.call r k).Yields trace x ↔ ∃ answer later, trace = ⟨r, answer⟩ :: later ∧ (k answer).Yields later x := by
  constructor
  · rintro (_ | _ | h)
    exact ⟨_, _, rfl, h⟩
  · rintro ⟨answer, later, rfl, h⟩
    exact .call h

/-- A sequence ends with its first part's error, or goes on after the first part has returned. -/
theorem yields_bind_iff {p : Prog Resp ε α} {f : α → Prog Resp ε β} {x : Except ε β} :
    (p.bind f).Yields trace x ↔ (∃ e, p.Yields trace (.error e) ∧ x = .error e) ∨
      ∃ a first second, p.Yields first (.ok a) ∧ (f a).Yields second x ∧ trace = first ++ second := by
  induction p generalizing trace with
  | pure a =>
    constructor
    · intro h
      exact .inr ⟨a, [], trace, .pure a, h, rfl⟩
    · rintro (⟨e, he, -⟩ | ⟨a', first, second, hfirst, hsecond, rfl⟩)
      · cases he
      · cases hfirst
        exact hsecond
  | fail e =>
    constructor
    · intro h
      cases h
      exact .inl ⟨e, .fail e, rfl⟩
    · rintro (⟨e', he, rfl⟩ | ⟨a, first, second, hfirst, -, -⟩)
      · cases he
        exact .fail e
      · cases hfirst
  | call r k ih =>
    rw [Prog.bind, yields_call_iff]
    constructor
    · rintro ⟨answer, later, rfl, h⟩
      rcases (ih answer).mp h with ⟨e, he, hx⟩ | ⟨a, first, second, hfirst, hsecond, rfl⟩
      · exact .inl ⟨e, .call he, hx⟩
      · exact .inr ⟨a, ⟨r, answer⟩ :: first, second, .call hfirst, hsecond, rfl⟩
    · rintro (⟨e, he, hx⟩ | ⟨a, first, second, hfirst, hsecond, rfl⟩)
      · obtain ⟨answer, later, rfl, h⟩ := yields_call_iff.mp he
        exact ⟨answer, later, rfl, (ih answer).mpr (.inl ⟨e, h, hx⟩)⟩
      · obtain ⟨answer, later, rfl, h⟩ := yields_call_iff.mp hfirst
        exact ⟨answer, later ++ second, rfl, (ih answer).mpr (.inr ⟨a, later, second, h, hsecond, rfl⟩)⟩

end FiveSpot.Interaction.Prog
