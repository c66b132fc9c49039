import Mathlib.Data.List.Basic

/-! # Streaks

How often something has happened since it was last put right, over a history with the newest event first.
-/

namespace FiveSpot

set_option autoImplicit false

variable {α : Type} {hit reset reset' : α → Bool} {events : List α}

def streak (hit reset : α → Bool) : List α → Nat
  | [] => 0
  | event :: older =>
    if hit event then streak hit reset older + 1 else if reset event then 0 else streak hit reset older

theorem streak_le (h : ∀ event, reset' event = true → reset event = true) :
    streak hit reset events ≤ streak hit reset' events := by
  induction events with
  | nil => exact Nat.le_refl _
  | cons event older ih =>
    rw [streak, streak]
    by_cases hhit : hit event = true
    · rw [if_pos hhit, if_pos hhit]
      omega
    rw [if_neg hhit, if_neg hhit]
    by_cases hreset : reset event = true
    · rw [if_pos hreset]
      exact Nat.zero_le _
    · have hreset' : ¬ reset' event = true := fun h' => hreset (h event h')
      rw [if_neg hreset, if_neg hreset']
      exact ih

theorem streak_filter {keep : α → Bool} (h : ∀ event, keep event = false → hit event = false ∧ reset event = false) :
    streak hit reset (events.filter keep) = streak hit reset events := by
  induction events with
  | nil => rfl
  | cons event older ih =>
    cases hkeep : keep event with
    | true => rw [List.filter_cons_of_pos hkeep, streak, streak, ih]
    | false =>
      obtain ⟨hhit, hreset⟩ := h event hkeep
      rw [List.filter_cons_of_neg (by simp [hkeep]), streak, ih, hhit, hreset]
      rfl

end FiveSpot
