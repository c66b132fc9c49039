import FiveSpot.Interaction.Monitor

/-! # Restartable controllers

A controller reads a snapshot of the world, runs the program it has for it, and may be
killed before any request. Answers come from `serve`, which also decides, by its
`Fate`, whether the call works. Between two calls anybody else may change the world;
local requests (a clock read, a lookup in memory) belong to the call that follows them,
so nothing intervenes after one.
-/

namespace FiveSpot.Interaction

set_option autoImplicit false

structure System {Req : Type} (Resp : Req → Type) (ε α W Snap Env Fate : Type) where
  snapshot : W → Option Snap
  program : Snap → Prog Resp ε α
  opened : Snap → W → W
  serve : W → (r : Req) → Fate → Resp r × W
  interfere : Env → W → W
  killed : W → W
  isLocal : Req → Bool

variable {Req : Type} {Resp : Req → Type} {ε α W Snap Env Fate : Type}

/-- A pass in progress: what it read, what is left of its program, what happened so far. -/
structure Pass (Resp : Req → Type) (ε α Snap : Type) where
  snap : Snap
  rest : Prog Resp ε α
  trace : List (Sigma Resp)

structure State (Resp : Req → Type) (ε α W Snap : Type) where
  world : W
  pass : Option (Pass Resp ε α Snap)

inductive Act (Env Fate : Type) where
  | interfere (e : Env)
  | start
  | answer (f : Fate)
  | finish
  | kill

namespace System

variable (sys : System Resp ε α W Snap Env Fate)

/-- Others may act unless the pass has local results it has not yet used in a call. -/
def quiet : Option (Pass Resp ε α Snap) → Bool
  | some ⟨_, _, event :: _⟩ => !sys.isLocal event.1
  | _ => true

def step : Act Env Fate → State Resp ε α W Snap → Option (State Resp ε α W Snap)
  | .interfere e, s => if sys.quiet s.pass then some { s with world := sys.interfere e s.world } else none
  | .start, ⟨w, none⟩ => (sys.snapshot w).map fun snap =>
      ⟨sys.opened snap w, some ⟨snap, sys.program snap, []⟩⟩
  | .answer f, ⟨w, some ⟨snap, .call r k, trace⟩⟩ =>
      some ⟨(sys.serve w r f).2,
        some ⟨snap, k (sys.serve w r f).1, ⟨r, (sys.serve w r f).1⟩ :: trace⟩⟩
  | .finish, ⟨w, some ⟨_, .pure _, _⟩⟩ => some ⟨w, none⟩
  | .finish, ⟨w, some ⟨_, .fail _, _⟩⟩ => some ⟨w, none⟩
  | .kill, ⟨w, some _⟩ => some ⟨sys.killed w, none⟩
  | _, _ => none

/-- States reached from an initial world by steps that all meet `ok`. -/
inductive Reach (init : W → Prop) (ok : State Resp ε α W Snap → Act Env Fate → Prop) :
    State Resp ε α W Snap → Prop
  | init {w : W} : init w → Reach init ok ⟨w, none⟩
  | step {s s' : State Resp ε α W Snap} {a : Act Env Fate} :
      Reach init ok s → ok s a → sys.step a s = some s' → Reach init ok s'

/-- Execute steps that all pass a check. -/
def runWith (check : State Resp ε α W Snap → Act Env Fate → Bool) :
    List (Act Env Fate) → State Resp ε α W Snap → Option (State Resp ε α W Snap)
  | [], s => some s
  | a :: rest, s => if check s a then (sys.step a s).bind (runWith check rest) else none

theorem Reach.of_runWith {init : W → Prop} {check : State Resp ε α W Snap → Act Env Fate → Bool}
    (acts : List (Act Env Fate)) {s s' : State Resp ε α W Snap}
    (hs : sys.Reach init (fun s a => check s a = true) s) (hrun : sys.runWith check acts s = some s') :
    sys.Reach init (fun s a => check s a = true) s' := by
  induction acts generalizing s with
  | nil => cases hrun; exact hs
  | cons a rest ih =>
    rw [runWith] at hrun
    split at hrun
    · rename_i hcheck
      obtain ⟨mid, hmid, hrest⟩ := Option.bind_eq_some_iff.mp hrun
      exact ih (.step hs hcheck hmid) hrest
    · cases hrun

theorem Reach.exists_of_runWith {init : W → Prop} (check : State Resp ε α W Snap → Act Env Fate → Bool)
    (property : State Resp ε α W Snap → Bool) (acts : List (Act Env Fate)) {w : W} (hw : init w)
    (hrun : (sys.runWith check acts ⟨w, none⟩).any property = true) :
    ∃ s, sys.Reach init (fun s a => check s a = true) s ∧ property s = true := by
  obtain ⟨s, hs, hproperty⟩ := (Option.any_eq_true _ _).mp hrun
  exact ⟨s, Reach.of_runWith sys acts (.init hw) hs, hproperty⟩

theorem Reach.mono {init : W → Prop} {ok ok' : State Resp ε α W Snap → Act Env Fate → Prop}
    (h : ∀ s a, ok s a → ok' s a) {s : State Resp ε α W Snap} (hs : sys.Reach init ok s) :
    sys.Reach init ok' s := by
  induction hs with
  | init hw => exact .init hw
  | step _ hok hstep ih => exact .step ih (h _ _ hok) hstep

def seen : Option (Pass Resp ε α Snap) → Option (Snap × List (Sigma Resp))
  | none => none
  | some p => some (p.snap, p.trace)

/-- What has to be shown of an invariant `J` of world and pass, when every program is known
to conform to its monitor and `I` is known of every state: it holds at the start and each kind
of step keeps it. -/
structure Keeps {τ : Type} (M : Snap → Monitor Resp τ) (t₀ : Snap → τ)
    (init : W → Prop) (ok : State Resp ε α W Snap → Act Env Fate → Prop)
    (I J : W → Option (Snap × List (Sigma Resp)) → Prop) : Prop where
  base : ∀ w, init w → J w none
  interfere : ∀ w pass e, I w (seen pass) → J w (seen pass) → sys.quiet pass = true →
    ok ⟨w, pass⟩ (.interfere e) → J (sys.interfere e w) (seen pass)
  start : ∀ w snap, I w none → J w none → sys.snapshot w = some snap → ok ⟨w, none⟩ .start →
    J (sys.opened snap w) (some (snap, []))
  answer : ∀ w snap r k trace f, I w (some (snap, trace)) → J w (some (snap, trace)) →
    (M snap).allowed ((M snap).after (t₀ snap) trace) r →
    ok ⟨w, some ⟨snap, .call r k, trace⟩⟩ (.answer f) →
    J (sys.serve w r f).2 (some (snap, ⟨r, (sys.serve w r f).1⟩ :: trace))
  finish : ∀ w snap trace, J w (some (snap, trace)) → J w none
  kill : ∀ w snap trace, J w (some (snap, trace)) → J (sys.killed w) none

/-- The pass in progress conforms from where it is now, and will end within `Q`. -/
def PassConforms {τ : Type} (M : Snap → Monitor Resp τ) (t₀ : Snap → τ)
    (Q : Snap → Except ε α → τ → Prop) : Option (Pass Resp ε α Snap) → Prop
  | none => True
  | some p => Conforms (M p.snap) p.rest (Q p.snap) ((M p.snap).after (t₀ p.snap) p.trace)

theorem Reach.passConforms {τ : Type} {M : Snap → Monitor Resp τ} {t₀ : Snap → τ}
    {Q : Snap → Except ε α → τ → Prop} {init : W → Prop}
    {ok : State Resp ε α W Snap → Act Env Fate → Prop}
    (hprog : ∀ snap, Conforms (M snap) (sys.program snap) (Q snap) (t₀ snap))
    {s : State Resp ε α W Snap} (hs : sys.Reach init ok s) : PassConforms M t₀ Q s.pass := by
  induction hs with
  | init _ => trivial
  | @step s s' a _ _ hstep ih =>
    cases a with
    | interfere e =>
      simp only [System.step, Option.ite_none_right_eq_some, Option.some.injEq] at hstep
      rw [← hstep.2]
      exact ih
    | start =>
      obtain ⟨w, pass⟩ := s
      cases pass with
      | some p => simp [System.step] at hstep
      | none =>
        obtain ⟨snap, _, rfl⟩ := Option.map_eq_some_iff.mp hstep
        exact hprog snap
    | answer f =>
      obtain ⟨w, _ | ⟨snap, rest, trace⟩⟩ := s
      · simp [System.step] at hstep
      · cases rest with
        | pure a => simp [System.step] at hstep
        | fail e => simp [System.step] at hstep
        | call r k =>
          cases hstep
          exact ih.2 _
    | finish =>
      obtain ⟨w, _ | ⟨snap, rest, trace⟩⟩ := s
      · simp [System.step] at hstep
      · cases rest with
        | pure a => cases hstep; trivial
        | fail e => cases hstep; trivial
        | call r k => simp [System.step] at hstep
    | kill =>
      obtain ⟨w, _ | p⟩ := s
      · simp [System.step] at hstep
      · cases hstep
        trivial

/-- Like `Keeps`, for an invariant that depends on how a pass ends and on when it may be killed. -/
structure Sustains {τ : Type} (M : Snap → Monitor Resp τ) (t₀ : Snap → τ) (Q : Snap → Except ε α → τ → Prop)
    (init : W → Prop) (ok : State Resp ε α W Snap → Act Env Fate → Prop)
    (I J : W → Option (Snap × List (Sigma Resp)) → Prop) : Prop where
  base : ∀ w, init w → J w none
  interfere : ∀ w pass e, I w (seen pass) → J w (seen pass) → sys.quiet pass = true →
    ok ⟨w, pass⟩ (.interfere e) → J (sys.interfere e w) (seen pass)
  start : ∀ w snap, I w none → J w none → sys.snapshot w = some snap → ok ⟨w, none⟩ .start →
    J (sys.opened snap w) (some (snap, []))
  answer : ∀ w snap r k trace f, I w (some (snap, trace)) → J w (some (snap, trace)) →
    (M snap).allowed ((M snap).after (t₀ snap) trace) r →
    ok ⟨w, some ⟨snap, .call r k, trace⟩⟩ (.answer f) →
    J (sys.serve w r f).2 (some (snap, ⟨r, (sys.serve w r f).1⟩ :: trace))
  finish : ∀ w snap x trace, J w (some (snap, trace)) → Q snap x ((M snap).after (t₀ snap) trace) → J w none
  kill : ∀ w snap rest trace, J w (some (snap, trace)) →
    Conforms (M snap) rest (Q snap) ((M snap).after (t₀ snap) trace) → ok ⟨w, some ⟨snap, rest, trace⟩⟩ .kill →
    J (sys.killed w) none

/-- The invariant rule: an invariant that every step keeps holds in every reachable state. -/
theorem Reach.sustained {τ : Type} {M : Snap → Monitor Resp τ} {t₀ : Snap → τ}
    {Q : Snap → Except ε α → τ → Prop} {init : W → Prop}
    {ok : State Resp ε α W Snap → Act Env Fate → Prop}
    {I J : W → Option (Snap × List (Sigma Resp)) → Prop}
    (hprog : ∀ snap, Conforms (M snap) (sys.program snap) (Q snap) (t₀ snap))
    (hI : ∀ s, sys.Reach init ok s → I s.world (seen s.pass))
    (hJ : sys.Sustains M t₀ Q init ok I J) {s : State Resp ε α W Snap} (hs : sys.Reach init ok s) :
    J s.world (seen s.pass) := by
  induction hs with
  | init hw => exact hJ.base _ hw
  | @step s s' a hs hok hstep ih =>
    have hconf := Reach.passConforms sys hprog hs
    have hIs := hI s hs
    cases a with
    | interfere e =>
      simp only [System.step, Option.ite_none_right_eq_some, Option.some.injEq] at hstep
      rw [← hstep.2]
      exact hJ.interfere _ _ e hIs ih hstep.1 hok
    | start =>
      obtain ⟨w, pass⟩ := s
      cases pass with
      | some p => simp [System.step] at hstep
      | none =>
        obtain ⟨snap, hsnap, rfl⟩ := Option.map_eq_some_iff.mp hstep
        exact hJ.start w snap hIs ih hsnap hok
    | answer f =>
      obtain ⟨w, _ | ⟨snap, rest, trace⟩⟩ := s
      · simp [System.step] at hstep
      · cases rest with
        | pure a => simp [System.step] at hstep
        | fail e => simp [System.step] at hstep
        | call r k =>
          cases hstep
          exact hJ.answer w snap r k trace f hIs ih hconf.1 hok
    | finish =>
      obtain ⟨w, _ | ⟨snap, rest, trace⟩⟩ := s
      · simp [System.step] at hstep
      · cases rest with
        | pure a => cases hstep; exact hJ.finish w snap (.ok a) trace ih hconf
        | fail e => cases hstep; exact hJ.finish w snap (.error e) trace ih hconf
        | call r k => simp [System.step] at hstep
    | kill =>
      obtain ⟨w, _ | p⟩ := s
      · simp [System.step] at hstep
      · cases hstep
        exact hJ.kill w p.snap p.rest p.trace ih hconf hok

theorem Keeps.sustains {τ : Type} {M : Snap → Monitor Resp τ} {t₀ : Snap → τ} {init : W → Prop}
    {ok : State Resp ε α W Snap → Act Env Fate → Prop} {I J : W → Option (Snap × List (Sigma Resp)) → Prop}
    (hJ : sys.Keeps M t₀ init ok I J) (Q : Snap → Except ε α → τ → Prop) : sys.Sustains M t₀ Q init ok I J where
  base := hJ.base
  interfere := hJ.interfere
  start := hJ.start
  answer := hJ.answer
  finish w snap _ trace h _ := hJ.finish w snap trace h
  kill w snap _ trace h _ _ := hJ.kill w snap trace h

theorem Reach.invariant {τ : Type} {M : Snap → Monitor Resp τ} {t₀ : Snap → τ}
    {Q : Snap → Except ε α → τ → Prop} {init : W → Prop}
    {ok : State Resp ε α W Snap → Act Env Fate → Prop}
    {I J : W → Option (Snap × List (Sigma Resp)) → Prop}
    (hprog : ∀ snap, Conforms (M snap) (sys.program snap) (Q snap) (t₀ snap))
    (hI : ∀ s, sys.Reach init ok s → I s.world (seen s.pass))
    (hJ : sys.Keeps M t₀ init ok I J) {s : State Resp ε α W Snap} (hs : sys.Reach init ok s) :
    J s.world (seen s.pass) :=
  Reach.sustained sys hprog hI (hJ.sustains sys Q) hs

/-! ## Counting passes -/

def finishes : Act Env Fate → Nat
  | .finish => 1
  | _ => 0

/-- States reached by steps that all meet `ok`, with the number of passes that have returned. -/
inductive Rounds (init : W → Prop) (ok : State Resp ε α W Snap → Act Env Fate → Prop) :
    Nat → State Resp ε α W Snap → Prop
  | init {w : W} : init w → Rounds init ok 0 ⟨w, none⟩
  | step {n : Nat} {s s' : State Resp ε α W Snap} {a : Act Env Fate} :
      Rounds init ok n s → ok s a → sys.step a s = some s' → Rounds init ok (n + finishes a) s'

theorem Rounds.reach {init : W → Prop} {ok : State Resp ε α W Snap → Act Env Fate → Prop} {n : Nat}
    {s : State Resp ε α W Snap} (h : sys.Rounds init ok n s) : sys.Reach init ok s := by
  induction h with
  | init hw => exact .init hw
  | step _ hok hstep ih => exact .step ih hok hstep

/-- A pass whose requests are all answered returns: programs are finite. -/
theorem Rounds.return {init : W → Prop} {ok : State Resp ε α W Snap → Act Env Fate → Prop} {P : W → Prop}
    {f : Fate} (hanswer : ∀ w snap r k trace, P w → ok ⟨w, some ⟨snap, .call r k, trace⟩⟩ (.answer f))
    (hserve : ∀ w r, P w → P (sys.serve w r f).2) (hfinish : ∀ s, ok s .finish) {n : Nat} {snap : Snap}
    (rest : Prog Resp ε α) : ∀ (trace : List (Sigma Resp)) (w : W), P w →
      sys.Rounds init ok n ⟨w, some ⟨snap, rest, trace⟩⟩ → ∃ w', P w' ∧ sys.Rounds init ok (n + 1) ⟨w', none⟩ := by
  induction rest with
  | pure a => exact fun _ w hw h => ⟨w, hw, .step h (hfinish _) rfl⟩
  | fail e => exact fun _ w hw h => ⟨w, hw, .step h (hfinish _) rfl⟩
  | call r k ih =>
    intro trace w hw h
    exact ih (sys.serve w r f).1 _ _ (hserve w r hw) (.step h (hanswer w snap r k trace hw) rfl)

end System

end FiveSpot.Interaction
