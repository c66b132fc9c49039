import Mathlib.Logic.Relation
import FiveSpot.Interaction.System

/-! # Executions

A program runs against a server that keeps a world. Every request is answered under some fate, and
others may act before any request and after the last one. `Runs` relates where an execution begins to
its outcome and where it ends.
-/

namespace FiveSpot.Interaction

set_option autoImplicit false

variable {Req : Type} {Resp : Req → Type} {ε α β W Fate : Type}

inductive Runs (serve : W → (r : Req) → Fate → Resp r × W) (acts : W → W → Prop) :
    W → Prog Resp ε α → Except ε α → W → Prop
  | pure {w : W} {a : α} : Runs serve acts w (.pure a) (.ok a) w
  | fail {w : W} {e : ε} : Runs serve acts w (.fail e) (.error e) w
  | call {w w' : W} {r : Req} {k : Resp r → Prog Resp ε α} {x : Except ε α} (f : Fate) :
      Runs serve acts (serve w r f).2 (k (serve w r f).1) x w' → Runs serve acts w (.call r k) x w'
  | act {w w₁ w' : W} {p : Prog Resp ε α} {x : Except ε α} :
      acts w w₁ → Runs serve acts w₁ p x w' → Runs serve acts w p x w'

variable {serve : W → (r : Req) → Fate → Resp r × W} {acts : W → W → Prop}

theorem Runs.of_bind {p : Prog Resp ε α} {f : α → Prog Resp ε β} {w w' : W} {x : Except ε β}
    (h : Runs serve acts w (p.bind f) x w') :
    (∃ e, x = .error e ∧ Runs serve acts w p (.error e) w') ∨
      ∃ a w₁, Runs serve acts w p (.ok a) w₁ ∧ Runs serve acts w₁ (f a) x w' := by
  generalize hq : p.bind f = q at h
  induction h generalizing p with
  | pure =>
    cases p with
    | pure a => exact .inr ⟨a, _, .pure, by rw [Prog.pure_bind] at hq; rw [hq]; exact .pure⟩
    | fail e => cases hq
    | call r k => cases hq
  | fail =>
    cases p with
    | pure a => exact .inr ⟨a, _, .pure, by rw [Prog.pure_bind] at hq; rw [hq]; exact .fail⟩
    | fail e =>
      cases hq
      exact .inl ⟨_, rfl, .fail⟩
    | call r k => cases hq
  | call fate hrun ih =>
    cases p with
    | pure a => exact .inr ⟨a, _, .pure, by rw [Prog.pure_bind] at hq; rw [hq]; exact .call fate hrun⟩
    | fail e => cases hq
    | call r k =>
      cases hq
      rcases ih rfl with ⟨e, rfl, hfail⟩ | ⟨a, w₁, hfirst, hrest⟩
      · exact .inl ⟨e, rfl, .call fate hfail⟩
      · exact .inr ⟨a, w₁, .call fate hfirst, hrest⟩
  | act hact hrun ih =>
    rcases ih hq with ⟨e, rfl, hfail⟩ | ⟨a, w₁, hfirst, hrest⟩
    · exact .inl ⟨e, rfl, .act hact hfail⟩
    · exact .inr ⟨a, w₁, .act hact hfirst, hrest⟩

theorem Runs.of_bind_ok {p : Prog Resp ε α} {f : α → Prog Resp ε β} {w w' : W} {b : β}
    (h : Runs serve acts w (p.bind f) (.ok b) w') :
    ∃ a w₁, Runs serve acts w p (.ok a) w₁ ∧ Runs serve acts w₁ (f a) (.ok b) w' := by
  rcases h.of_bind with ⟨e, he, -⟩ | hrest
  · cases he
  · exact hrest

theorem Runs.of_ofExcept {y x : Except ε α} {w w' : W} (h : Runs serve acts w (Prog.ofExcept y) x w') : x = y := by
  generalize hq : Prog.ofExcept y = q at h
  induction h with
  | pure => cases y <;> cases hq; rfl
  | fail => cases y <;> cases hq; rfl
  | call fate _ _ => cases y <;> cases hq
  | act _ _ ih => exact ih hq

theorem Runs.of_call {r : Req} {k : Resp r → Prog Resp ε α} {w w' : W} {x : Except ε α}
    (h : Runs serve acts w (.call r k) x w') :
    ∃ w₁ f, Relation.ReflTransGen acts w w₁ ∧ Runs serve acts (serve w₁ r f).2 (k (serve w₁ r f).1) x w' := by
  generalize hq : Prog.call r k = q at h
  induction h with
  | pure => cases hq
  | fail => cases hq
  | call fate hrun _ =>
    cases hq
    exact ⟨_, fate, .refl, hrun⟩
  | act hact _ ih =>
    obtain ⟨w₁, f, hacts, hrest⟩ := ih hq
    exact ⟨w₁, f, .head hact hacts, hrest⟩

/-- What every request the program may issue preserves, and others preserve, every execution preserves. -/
theorem Runs.keeps {R : Req → Prop} {J : W → Prop} (hserve : ∀ w r f, R r → J w → J (serve w r f).2)
    (hacts : ∀ w w', acts w w' → J w → J w') {p : Prog Resp ε α} (hp : p.Issues R) {w w' : W} {x : Except ε α}
    (h : Runs serve acts w p x w') (hw : J w) : J w' := by
  induction h with
  | pure => exact hw
  | fail => exact hw
  | call fate _ ih => exact ih (hp.2 _) (hserve _ _ fate hp.1 hw)
  | act hact _ ih => exact ih hp (hacts _ _ hact hw)

theorem Runs.of_errors {E : ε → Prop} {p : Prog Resp ε α} (hp : p.Errors E) {w w' : W} {e : ε}
    (h : Runs serve acts w p (.error e) w') : E e := by
  generalize hx : (Except.error e : Except ε α) = x at h
  induction h with
  | pure => cases hx
  | fail =>
    cases hx
    exact hp
  | call fate _ ih => exact ih (hp _) hx
  | act _ _ ih => exact ih hp hx

/-! ## Executions that are under way -/

/-- An execution of the first program comes to the second, which is still to be executed. -/
inductive Proceeds (serve : W → (r : Req) → Fate → Resp r × W) (acts : W → W → Prop) :
    W → Prog Resp ε α → W → Prog Resp ε α → Prop
  | refl {w : W} {p : Prog Resp ε α} : Proceeds serve acts w p w p
  | call {w w' : W} {r : Req} {k : Resp r → Prog Resp ε α} {q : Prog Resp ε α} (f : Fate) :
      Proceeds serve acts (serve w r f).2 (k (serve w r f).1) w' q → Proceeds serve acts w (.call r k) w' q
  | act {w w₁ w' : W} {p q : Prog Resp ε α} :
      acts w w₁ → Proceeds serve acts w₁ p w' q → Proceeds serve acts w p w' q

theorem Proceeds.issues {R : Req → Prop} {p q : Prog Resp ε α} {w w' : W} (h : Proceeds serve acts w p w' q)
    (hp : p.Issues R) : q.Issues R := by
  induction h with
  | refl => exact hp
  | call f _ ih => exact ih (hp.2 _)
  | act _ _ ih => exact ih hp

/-- What is under way of a sequence is its first part, or its second part after the first has returned. -/
theorem Proceeds.of_bind {p : Prog Resp ε α} {f : α → Prog Resp ε β} {w w' : W} {q : Prog Resp ε β}
    (h : Proceeds serve acts w (p.bind f) w' q) :
    (∃ q', Proceeds serve acts w p w' q' ∧ q = q'.bind f) ∨
      ∃ a w₁, Runs serve acts w p (.ok a) w₁ ∧ Proceeds serve acts w₁ (f a) w' q := by
  generalize hs : p.bind f = s at h
  induction h generalizing p with
  | refl => exact .inl ⟨p, .refl, hs.symm⟩
  | @call w w' r k q fate hrest ih =>
    cases p with
    | pure a =>
      refine .inr ⟨a, w, .pure, ?_⟩
      rw [Prog.pure_bind] at hs
      rw [hs]
      exact .call fate hrest
    | fail e => cases hs
    | call r' k' =>
      cases hs
      rcases ih rfl with ⟨q', hq, rfl⟩ | ⟨a, w₁, hrun, hrest⟩
      · exact .inl ⟨q', .call fate hq, rfl⟩
      · exact .inr ⟨a, w₁, .call fate hrun, hrest⟩
  | act hact _ ih =>
    rcases ih hs with ⟨q', hq, rfl⟩ | ⟨a, w₁, hrun, hrest⟩
    · exact .inl ⟨q', .act hact hq, rfl⟩
    · exact .inr ⟨a, w₁, .act hact hrun, hrest⟩

theorem Proceeds.runs {p : Prog Resp ε α} {a : α} {w w' : W} (h : Proceeds serve acts w p w' (.pure a)) :
    Runs serve acts w p (.ok a) w' := by
  generalize hq : Prog.pure a = q at h
  induction h with
  | refl =>
    cases hq
    exact .pure
  | call f _ ih => exact .call f (ih hq)
  | act hact _ ih => exact .act hact (ih hq)

/-- What the second part may still issue depends on what the first part has returned. -/
theorem Proceeds.issues_bind {R : Req → Prop} {p : Prog Resp ε α} {f : α → Prog Resp ε β} {w w' : W} {r : Req}
    {k : Resp r → Prog Resp ε β} (h : Proceeds serve acts w (p.bind f) w' (.call r k)) (hp : p.Issues R)
    (hf : ∀ a w₁, Runs serve acts w p (.ok a) w₁ → (f a).Issues R) : R r := by
  rcases h.of_bind with ⟨q, hfirst, hq⟩ | ⟨a, w₁, hrun, hrest⟩
  · have hissues := hfirst.issues hp
    cases q with
    | pure a =>
      have hnext := hf a w' hfirst.runs
      rw [Prog.pure_bind] at hq
      rw [← hq] at hnext
      exact hnext.1
    | fail e => cases hq
    | call r' k' =>
      cases hq
      exact hissues.1
  · exact (hrest.issues (hf a w₁ hrun)).1

/-- Before a request of a kind that is not issued after it, only others act. -/
theorem Proceeds.of_call {R : Req → Prop} {r r' : Req} {k : Resp r → Prog Resp ε α} {k' : Resp r' → Prog Resp ε α}
    {w w' : W} (h : Proceeds serve acts w (.call r k) w' (.call r' k')) (hk : ∀ answer, (k answer).Issues fun r => ¬R r)
    (hr' : R r') : r' = r ∧ Relation.ReflTransGen acts w w' := by
  generalize hp : Prog.call r k = p at h
  generalize hq : Prog.call r' k' = q at h
  induction h with
  | refl =>
    cases hp
    cases hq
    exact ⟨rfl, .refl⟩
  | call f hrest _ =>
    cases hp
    cases hq
    exact absurd hr' (hrest.issues (hk _)).1
  | act hact _ ih =>
    obtain ⟨hr, hacts⟩ := ih hp hq
    exact ⟨hr, .head hact hacts⟩

/-- A request that neither the first part nor the rest of the second issues is the one in between. -/
theorem Proceeds.of_bind_call {R : Req → Prop} {p : Prog Resp ε α} {r r' : Req} {k : α → Resp r → Prog Resp ε β}
    {k' : Resp r' → Prog Resp ε β} {w w' : W}
    (h : Proceeds serve acts w (p.bind fun a => .call r (k a)) w' (.call r' k')) (hp : p.Issues fun r => ¬R r)
    (hk : ∀ a answer, (k a answer).Issues fun r => ¬R r) (hr' : R r') :
    r' = r ∧ ∃ a w₁, Runs serve acts w p (.ok a) w₁ ∧ Relation.ReflTransGen acts w₁ w' := by
  rcases h.of_bind with ⟨q', hq, heq⟩ | ⟨a, w₁, hrun, hrest⟩
  · have hissues := hq.issues hp
    cases q' with
    | pure a =>
      cases heq
      exact ⟨rfl, a, w', hq.runs, .refl⟩
    | fail e => cases heq
    | call r₁ k₁ =>
      cases heq
      exact absurd hr' hissues.1
  · obtain ⟨hr, hacts⟩ := hrest.of_call (hk a) hr'
    exact ⟨hr, a, w₁, hrun, hacts⟩

/-! ## Undisturbed executions -/

/-- The execution in which every request meets the same fate and nobody else acts. -/
def Prog.exec (serve : W → (r : Req) → Fate → Resp r × W) (f : Fate) : Prog Resp ε α → W → Except ε α × W
  | .pure a, w => (.ok a, w)
  | .fail e, w => (.error e, w)
  | .call r k, w => (k (serve w r f).1).exec serve f (serve w r f).2

theorem Runs.of_exec (serve : W → (r : Req) → Fate → Resp r × W) (acts : W → W → Prop) (f : Fate)
    (p : Prog Resp ε α) (w : W) : Runs serve acts w p (p.exec serve f w).1 (p.exec serve f w).2 := by
  induction p generalizing w with
  | pure a => exact .pure
  | fail e => exact .fail
  | call r k ih => exact .call f (ih _ _)

theorem Prog.exec_bind (f : Fate) (p : Prog Resp ε α) (g : α → Prog Resp ε β) (w : W) :
    (p.bind g).exec serve f w = match p.exec serve f w with
      | (.ok a, w') => (g a).exec serve f w'
      | (.error e, w') => (.error e, w') := by
  induction p generalizing w with
  | pure a => rfl
  | fail e => rfl
  | call r k ih => exact ih _ _

theorem Prog.exec_bind_ok {f : Fate} {p : Prog Resp ε α} {g : α → Prog Resp ε β} {w w' : W} {a : α}
    (h : p.exec serve f w = (.ok a, w')) : (p.bind g).exec serve f w = (g a).exec serve f w' := by
  rw [Prog.exec_bind, h]

theorem Prog.exec_attempt {ε' : Type} (f : Fate) (p : Prog Resp ε α) (w : W) :
    (p.attempt : Prog Resp ε' (Except ε α)).exec serve f w = (.ok (p.exec serve f w).1, (p.exec serve f w).2) := by
  induction p generalizing w with
  | pure a => rfl
  | fail e => rfl
  | call r k ih => exact ih _ _

theorem System.Reach.exec {Snap Env : Type} {sys : System Resp ε α W Snap Env Fate} {init : W → Prop}
    {ok : State Resp ε α W Snap → Act Env Fate → Prop} {f : Fate} {snap : Snap}
    (hok : ∀ w r k trace, ok ⟨w, some ⟨snap, .call r k, trace⟩⟩ (.answer f)) (p : Prog Resp ε α)
    {trace : List (Sigma Resp)} {w : W} (hs : sys.Reach init ok ⟨w, some ⟨snap, p, trace⟩⟩) :
    ∃ trace', sys.Reach init ok
      ⟨(p.exec sys.serve f w).2, some ⟨snap, Prog.ofExcept (p.exec sys.serve f w).1, trace'⟩⟩ := by
  induction p generalizing trace w with
  | pure a => exact ⟨trace, hs⟩
  | fail e => exact ⟨trace, hs⟩
  | call r k ih => exact ih _ (.step hs (hok w r k trace) rfl)

end FiveSpot.Interaction
