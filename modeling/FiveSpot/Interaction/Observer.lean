import FiveSpot.Interaction.System

/-! # Observers

An observer takes notes along a run and takes no part in it. What a property needs to know about the past,
and the world has forgotten, is in its notes. A chronicle also notes what others do.
-/

namespace FiveSpot.Interaction

set_option autoImplicit false

variable {Req : Type} {Resp : Req → Type} {ε α W Snap Env Fate N : Type}

/-- `served` sees the answer of a request and the world right after it. -/
structure Observer {Req : Type} (Resp : Req → Type) (W Snap N : Type) where
  opened : Snap → N → N
  served : N → (r : Req) → Resp r → W → N

/-- `interfered` sees the world before and after others have acted. -/
structure Chronicle {Req : Type} (Resp : Req → Type) (W Snap N : Type) extends Observer Resp W Snap N where
  interfered : N → W → W → N

namespace System

/-- The same system, with the notes beside the world. -/
def observedBy (sys : System Resp ε α W Snap Env Fate) (observer : Observer Resp W Snap N) :
    System Resp ε α (W × N) Snap Env Fate where
  snapshot w := sys.snapshot w.1
  program := sys.program
  opened snap w := (sys.opened snap w.1, observer.opened snap w.2)
  serve w r f := ((sys.serve w.1 r f).1,
    ((sys.serve w.1 r f).2, observer.served w.2 r (sys.serve w.1 r f).1 (sys.serve w.1 r f).2))
  interfere e w := (sys.interfere e w.1, w.2)
  killed w := (sys.killed w.1, w.2)
  isLocal := sys.isLocal

def chronicledBy (sys : System Resp ε α W Snap Env Fate) (chronicle : Chronicle Resp W Snap N) :
    System Resp ε α (W × N) Snap Env Fate :=
  { sys.observedBy chronicle.toObserver with
    interfere := fun e w => (sys.interfere e w.1, chronicle.interfered w.2 w.1 (sys.interfere e w.1)) }

/-- `sys'` does what `sys` does, and keeps notes beside it. -/
structure Annotates (sys : System Resp ε α W Snap Env Fate) (sys' : System Resp ε α (W × N) Snap Env Fate) : Prop where
  snapshot : ∀ w, sys'.snapshot w = sys.snapshot w.1
  program : sys'.program = sys.program
  opened : ∀ snap w, (sys'.opened snap w).1 = sys.opened snap w.1
  answer : ∀ w r f, (sys'.serve w r f).1 = (sys.serve w.1 r f).1
  serve : ∀ w r f, (sys'.serve w r f).2.1 = (sys.serve w.1 r f).2
  interfere : ∀ e w, (sys'.interfere e w).1 = sys.interfere e w.1
  killed : ∀ w, (sys'.killed w).1 = sys.killed w.1
  isLocal : sys'.isLocal = sys.isLocal

theorem annotates_observedBy (sys : System Resp ε α W Snap Env Fate) (observer : Observer Resp W Snap N) :
    sys.Annotates (sys.observedBy observer) :=
  ⟨fun _ => rfl, rfl, fun _ _ => rfl, fun _ _ _ => rfl, fun _ _ _ => rfl, fun _ _ => rfl, fun _ => rfl, rfl⟩

theorem annotates_chronicledBy (sys : System Resp ε α W Snap Env Fate) (chronicle : Chronicle Resp W Snap N) :
    sys.Annotates (sys.chronicledBy chronicle) :=
  ⟨fun _ => rfl, rfl, fun _ _ => rfl, fun _ _ _ => rfl, fun _ _ _ => rfl, fun _ _ => rfl, fun _ => rfl, rfl⟩

end System

def State.forget (s : State Resp ε α (W × N) Snap) : State Resp ε α W Snap := ⟨s.world.1, s.pass⟩

namespace System

variable {sys : System Resp ε α W Snap Env Fate} {sys' : System Resp ε α (W × N) Snap Env Fate}

theorem Annotates.quiet (h : sys.Annotates sys') (pass : Option (Pass Resp ε α Snap)) : sys'.quiet pass = sys.quiet pass := by
  unfold System.quiet
  rw [h.isLocal]

theorem Annotates.step_forget (h : sys.Annotates sys') (a : Act Env Fate) (s : State Resp ε α (W × N) Snap) :
    (sys'.step a s).map State.forget = sys.step a s.forget := by
  obtain ⟨w, pass⟩ := s
  cases a with
  | interfere e =>
    change Option.map State.forget (if sys'.quiet pass = true then some ⟨sys'.interfere e w, pass⟩ else none) =
      if sys.quiet pass = true then some ⟨sys.interfere e w.1, pass⟩ else none
    rw [h.quiet]
    split
    · simp only [Option.map_some, State.forget, h.interfere]
    · rfl
  | start =>
    cases pass with
    | some p => rfl
    | none =>
      simp only [System.step, State.forget, h.snapshot, h.program, Option.map_map]
      congr 1
      funext snap
      simp only [Function.comp_apply, State.forget, h.opened]
  | answer f =>
    obtain _ | ⟨snap, rest, trace⟩ := pass
    · rfl
    · cases rest with
      | call r k => simp only [System.step, State.forget, Option.map_some, h.answer, h.serve]
      | _ => rfl
  | finish =>
    obtain _ | ⟨snap, rest, trace⟩ := pass
    · rfl
    · cases rest <;> rfl
  | kill =>
    cases pass with
    | none => rfl
    | some p => simp only [System.step, State.forget, Option.map_some, h.killed]

theorem Reach.forget (h : sys.Annotates sys') {init : W → Prop} {init' : W × N → Prop}
    {ok : State Resp ε α W Snap → Act Env Fate → Prop} {ok' : State Resp ε α (W × N) Snap → Act Env Fate → Prop}
    (hinit : ∀ w, init' w → init w.1) (hok : ∀ s a, ok' s a → ok s.forget a) {s : State Resp ε α (W × N) Snap}
    (hs : sys'.Reach init' ok' s) : sys.Reach init ok s.forget := by
  induction hs with
  | init hw => exact .init (hinit _ hw)
  | @step s s' a _ hstep_ok hstep ih =>
    have hforget := h.step_forget a s
    rw [hstep] at hforget
    exact .step ih (hok _ _ hstep_ok) hforget.symm

/-- Notes can be kept of every run. -/
theorem Reach.observed (h : sys.Annotates sys') {init : W → Prop}
    {ok : State Resp ε α W Snap → Act Env Fate → Prop} (n₀ : N) {s : State Resp ε α W Snap}
    (hs : sys.Reach init ok s) :
    ∃ n, sys'.Reach (fun w => init w.1 ∧ w.2 = n₀) (fun s a => ok s.forget a) ⟨(s.world, n), s.pass⟩ := by
  induction hs with
  | @init w hw => exact ⟨n₀, .init ⟨hw, rfl⟩⟩
  | @step s s' a _ hok hstep ih =>
    obtain ⟨n, hn⟩ := ih
    have hforget := h.step_forget a ⟨(s.world, n), s.pass⟩
    obtain ⟨⟨⟨w', n'⟩, pass'⟩, hlift, rfl⟩ := Option.map_eq_some_iff.mp (hforget.trans hstep)
    exact ⟨n', .step hn hok hlift⟩

end System

end FiveSpot.Interaction
