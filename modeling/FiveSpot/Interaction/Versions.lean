import Mathlib.Logic.Basic

/-! # Versions

A value that is edited from time to time, together with the number of edits made so far. A reader may hold an old
version. It knows that a version is the latest by its number, and that the value of the latest version is what it
has read.
-/

namespace FiveSpot.Interaction

set_option autoImplicit false

structure Version (α : Type) where
  edits : Nat
  value : α

namespace Version

variable {α : Type} {a b c : Version α}

/-- `a` was current when `b` was, or earlier. -/
structure Before (a b : Version α) : Prop where
  edits : a.edits ≤ b.edits
  value : a.edits = b.edits → a.value = b.value

theorem Before.refl (a : Version α) : a.Before a := ⟨Nat.le_refl _, fun _ => rfl⟩

theorem Before.trans (hab : a.Before b) (hbc : b.Before c) : a.Before c where
  edits := Nat.le_trans hab.edits hbc.edits
  value h := by
    have hab' : a.edits = b.edits := Nat.le_antisymm hab.edits (h ▸ hbc.edits)
    rw [hab.value hab', hbc.value (hab'.symm.trans h)]

theorem Before.edit (a : Version α) (value : α) : a.Before ⟨a.edits + 1, value⟩ where
  edits := Nat.le_succ _
  value h := absurd h (Nat.ne_of_lt (Nat.lt_succ_self _))

theorem Before.lt_of_ne (h : a.Before b) (hne : a.value ≠ b.value) : a.edits < b.edits := by
  apply Nat.lt_of_le_of_ne h.edits
  intro heq
  exact hne (h.value heq)

/-- Two versions are read one after the other. When what was made of them differs from what is made of them later, one
of the two has been edited in between. -/
theorem Before.add_lt_of_ne {β γ : Type} {a' : Version β} {b' : Version β} (f : α → β → γ) (h : a.Before b)
    (h' : a'.Before b') (hne : f a.value a'.value ≠ f b.value b'.value) : a.edits + a'.edits < b.edits + b'.edits := by
  have hle := h.edits
  have hle' := h'.edits
  apply Nat.lt_of_not_ge
  intro hge
  have heq : a.edits = b.edits := by omega
  have heq' : a'.edits = b'.edits := by omega
  apply hne
  rw [h.value heq, h'.value heq']

end Version

end FiveSpot.Interaction
