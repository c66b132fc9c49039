import Mathlib.Dynamics.FixedPoints.Basic
import FiveSpot.Interaction.Execution

/-! # Undisturbed runs

While every request meets the same fate, nobody interferes and nobody kills the controller, a pass is a function of the world
and a run iterates it.
-/

namespace FiveSpot.Interaction

set_option autoImplicit false

variable {Req : Type} {Resp : Req → Type} {ε α W Snap Env Fate : Type}

namespace System

variable (sys : System Resp ε α W Snap Env Fate) (f : Fate)

def undisturbed : Act Env Fate → Prop
  | .start | .finish => True
  | .answer f' => f' = f
  | .interfere _ | .kill => False

/-- What one pass makes of the world. -/
def tick (w : W) : W :=
  match sys.snapshot w with
  | some snap => ((sys.program snap).exec sys.serve f (sys.opened snap w)).2
  | none => w

/-- The world that the pass in progress, if there is one, ends in. -/
def outcome : State Resp ε α W Snap → W
  | ⟨w, none⟩ => w
  | ⟨w, some p⟩ => (p.rest.exec sys.serve f w).2

variable {sys f}

theorem Rounds.iterates {init : W → Prop} {n : Nat} {s : State Resp ε α W Snap}
    (h : sys.Rounds init (fun _ a => undisturbed f a) n s) :
    ∃ w, init w ∧ sys.outcome f s = (sys.tick f)^[if s.pass.isSome then n + 1 else n] w := by
  induction h with
  | init hw => exact ⟨_, hw, rfl⟩
  | @step n s s' a _ hok hstep ih =>
    obtain ⟨w₀, hw₀, hcurrent⟩ := ih
    refine ⟨w₀, hw₀, ?_⟩
    cases a with
    | interfere e => cases hok
    | kill => cases hok
    | start =>
      obtain ⟨w, pass⟩ := s
      cases pass with
      | some p => simp [System.step] at hstep
      | none =>
        obtain ⟨snap, hsnap, rfl⟩ := Option.map_eq_some_iff.mp hstep
        have hworld : w = (sys.tick f)^[n] w₀ := hcurrent
        have htick : sys.tick f w = ((sys.program snap).exec sys.serve f (sys.opened snap w)).2 := by
          rw [tick, hsnap]
        simp only [outcome, finishes, Option.isSome_some, if_true, Nat.add_zero]
        rw [Function.iterate_succ_apply', ← hworld, htick]
    | answer f' =>
      cases hok
      obtain ⟨w, _ | ⟨snap, rest, trace⟩⟩ := s
      · simp [System.step] at hstep
      · cases rest with
        | pure a => simp [System.step] at hstep
        | fail e => simp [System.step] at hstep
        | call r k =>
          cases hstep
          exact hcurrent
    | finish =>
      obtain ⟨w, _ | ⟨snap, rest, trace⟩⟩ := s
      · simp [System.step] at hstep
      · cases rest with
        | pure a =>
          cases hstep
          exact hcurrent
        | fail e =>
          cases hstep
          exact hcurrent
        | call r k => simp [System.step] at hstep

/-- A function that settles everything at once leads every later round to the same world. -/
theorem Rounds.settles {w w' : W} (hsettles : sys.tick f (sys.tick f w) = sys.tick f w) {n : Nat} (hn : n ≠ 0)
    (h : sys.Rounds (fun w' => w' = w) (fun _ a => undisturbed f a) n ⟨w', none⟩) : w' = sys.tick f w := by
  obtain ⟨_, rfl, hworld⟩ := h.iterates
  obtain ⟨m, rfl⟩ := Nat.exists_eq_succ_of_ne_zero hn
  have hfixed : Function.IsFixedPt (sys.tick f) (sys.tick f _) := hsettles
  exact hworld.trans ((Function.iterate_succ_apply _ _ _).trans (hfixed.iterate m))

end System

end FiveSpot.Interaction
