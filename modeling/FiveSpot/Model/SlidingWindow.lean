import Mathlib.Data.List.DropRight
import Mathlib.Order.Lattice
import Mathlib.Order.Monotone.Basic

/-! # Sliding windows

A window over a growing history: what lies before the cutoff of the newest entry is dropped at the front, then
the oldest entries beyond a cap. When the history grows in order nothing is lost by it: the window is the last
`cap` entries of all that lie behind the cutoff.
-/

namespace FiveSpot.SlidingWindow

set_option autoImplicit false

section

variable {α : Type} {p : α → Bool} {l : List α}

/-- `p` holds of a first part of the list and of nothing after it. -/
def Leading (p : α → Bool) (l : List α) : Prop := l.Pairwise fun x y => p y = true → p x = true

theorem Leading.countP_eq_zero {x : α} (h : Leading p (x :: l)) (hx : p x = false) : l.countP p = 0 := by
  rw [List.countP_eq_zero]
  intro y hy hpy
  rw [(List.pairwise_cons.mp h).1 y hy hpy] at hx
  cases hx

theorem Leading.dropWhile_eq (h : Leading p l) : l.dropWhile p = l.drop (l.countP p) := by
  induction l with
  | nil => rfl
  | cons x l ih =>
    cases hx : p x with
    | true => rw [List.dropWhile_cons_of_pos hx, List.countP_cons_of_pos hx, List.drop_succ_cons,
        ih (List.pairwise_cons.mp h).2]
    | false =>
      rw [List.dropWhile_cons_of_neg (by simp [hx]), List.countP_cons_of_neg (by simp [hx]), h.countP_eq_zero hx]
      rfl

theorem Leading.countP_drop (h : Leading p l) (k : Nat) : (l.drop k).countP p = l.countP p - k := by
  induction l generalizing k with
  | nil => simp
  | cons x l ih =>
    cases k with
    | zero => rfl
    | succ k =>
      rw [List.drop_succ_cons, ih (List.pairwise_cons.mp h).2 k]
      cases hx : p x with
      | true =>
        rw [List.countP_cons_of_pos hx]
        omega
      | false =>
        rw [List.countP_cons_of_neg (by simp [hx]), h.countP_eq_zero hx]
        omega

/-- Dropping the first part and keeping the last `n` commute. -/
theorem Leading.dropWhile_rtake (h : Leading p l) (n : Nat) : (l.rtake n).dropWhile p = (l.dropWhile p).rtake n := by
  have hsuffix : Leading p (l.drop (l.length - n)) := List.Pairwise.drop h
  have hcount : l.countP p ≤ l.length := List.countP_le_length
  rw [List.rtake, List.rtake, hsuffix.dropWhile_eq, h.dropWhile_eq, h.countP_drop, List.drop_drop, List.drop_drop,
    List.length_drop]
  congr 1
  omega

theorem rtake_rtake (l : List α) {m n : Nat} (h : m ≤ n) : (l.rtake n).rtake m = l.rtake m := by
  rw [List.rtake, List.rtake, List.rtake, List.drop_drop, List.length_drop]
  congr 1
  omega

end

section

variable {α : Type} [LinearOrder α] (cutoff : α → α) (cap : Nat)

def stale (now t : α) : Bool := decide (t < cutoff now)

def fresh (history : List α) (now : α) : List α := history.dropWhile (stale cutoff now)

def record (window : List α) (now : α) : List α := (fresh cutoff window now ++ [now]).rtake cap

def tracked (history : List α) : List α := history.foldl (record cutoff cap) []

variable {cutoff cap} {history : List α} {now : α}

theorem leading_of_sorted (h : history.Pairwise (· ≤ ·)) (now : α) : Leading (stale cutoff now) history :=
  h.imp fun hxy hy => decide_eq_true (hxy.trans_lt (of_decide_eq_true hy))

theorem tracked_concat (history : List α) (now : α) :
    tracked cutoff cap (history ++ [now]) = record cutoff cap (tracked cutoff cap history) now := by
  rw [tracked, List.foldl_append]
  rfl

theorem fresh_concat (hcutoff : ∀ t, cutoff t ≤ t) : fresh cutoff (history ++ [now]) now = fresh cutoff history now ++ [now] := by
  have hnow : ¬stale cutoff now now = true := by simpa [stale] using hcutoff now
  induction history with
  | nil => exact List.dropWhile_cons_of_neg hnow
  | cons t rest ih =>
    rw [List.cons_append, fresh, fresh]
    by_cases ht : stale cutoff now t = true
    · rw [List.dropWhile_cons_of_pos ht, List.dropWhile_cons_of_pos ht]
      exact ih
    · rw [List.dropWhile_cons_of_neg ht, List.dropWhile_cons_of_neg ht]
      rfl

/-- What a smaller cutoff has dropped, a greater one drops too. -/
theorem fresh_fresh {earlier : α} (h : cutoff earlier ≤ cutoff now) :
    fresh cutoff (fresh cutoff history earlier) now = fresh cutoff history now := by
  induction history with
  | nil => rfl
  | cons t rest ih =>
    unfold fresh at ih ⊢
    by_cases hearlier : stale cutoff earlier t = true
    · have hlater : stale cutoff now t = true := decide_eq_true ((of_decide_eq_true hearlier).trans_le h)
      rw [List.dropWhile_cons_of_pos hearlier, List.dropWhile_cons_of_pos hlater]
      exact ih
    · rw [List.dropWhile_cons_of_neg hearlier]

/-- The window over a history in order is the end of what is fresh of it. -/
theorem tracked_eq (hmono : Monotone cutoff) (hcutoff : ∀ t, cutoff t ≤ t) (hsorted : (history ++ [now]).Pairwise (· ≤ ·)) :
    tracked cutoff cap (history ++ [now]) = (fresh cutoff (history ++ [now]) now).rtake cap := by
  induction history using List.reverseRecOn generalizing now with
  | nil =>
    rw [tracked_concat, fresh_concat hcutoff]
    rfl
  | append_singleton history last ih =>
    have hearlier : (history ++ [last]).Pairwise (· ≤ ·) := (List.pairwise_append.mp hsorted).1
    have hlast : last ≤ now :=
      (List.pairwise_append.mp hsorted).2.2 last (by simp) now List.mem_cons_self
    have hkept : fresh cutoff (tracked cutoff cap (history ++ [last])) now =
        (fresh cutoff (history ++ [last]) now).rtake cap := by
      have hsuffix : (fresh cutoff (history ++ [last]) last).Pairwise (· ≤ ·) :=
        hearlier.sublist (List.dropWhile_sublist _)
      rw [ih hearlier, fresh, (leading_of_sorted hsuffix now).dropWhile_rtake cap]
      exact congrArg (List.rtake · cap) (fresh_fresh (hmono hlast))
    rw [tracked_concat, record, hkept, fresh_concat hcutoff]
    cases cap with
    | zero => rw [List.rtake_zero, List.rtake_zero]
    | succ cap => rw [List.rtake_concat_succ, List.rtake_concat_succ, rtake_rtake _ (Nat.le_succ cap)]

theorem tracked_sublist (history : List α) : (tracked cutoff cap history).Sublist history := by
  induction history using List.reverseRecOn with
  | nil => exact List.Sublist.refl []
  | append_singleton history now ih =>
    rw [tracked_concat, record]
    exact (List.drop_sublist _ _).trans (((List.dropWhile_sublist _).trans ih).append (List.Sublist.refl _))

theorem length_record_le (window : List α) (now : α) : (record cutoff cap window now).length ≤ cap := by
  rw [record, List.rtake, List.length_drop]
  omega

/-- As many as are behind the cutoff, unless the cap is reached. -/
theorem length_tracked (cap : Nat) (hmono : Monotone cutoff) (hcutoff : ∀ t, cutoff t ≤ t)
    (hsorted : (history ++ [now]).Pairwise (· ≤ ·)) :
    (tracked cutoff cap (history ++ [now])).length =
      min cap ((history ++ [now]).filter fun t => decide (cutoff now ≤ t)).length := by
  have hfresh : (fresh cutoff (history ++ [now]) now).length =
      ((history ++ [now]).filter fun t => decide (cutoff now ≤ t)).length := by
    have htotal := List.length_eq_countP_add_countP (stale cutoff now) (l := history ++ [now])
    have hnot : (history ++ [now]).countP (fun t => decide ¬stale cutoff now t = true) =
        ((history ++ [now]).filter fun t => decide (cutoff now ≤ t)).length := by
      rw [List.countP_eq_length_filter]
      simp [stale]
    rw [fresh, (leading_of_sorted hsorted now).dropWhile_eq, List.length_drop, ← hnot]
    omega
  rw [tracked_eq hmono hcutoff hsorted, List.rtake, List.length_drop, hfresh]
  omega

end

end FiveSpot.SlidingWindow
