import FiveSpot.Cluster.World
import FiveSpot.Model.SlidingWindow

/-! # Loop protection (`src/loop_protection.rs`)

The deque of a resource is a bounded window over the times of all its emergency reclaims. What it has forgotten
no later decision needs.
-/

namespace FiveSpot

set_option autoImplicit false

open SlidingWindow

def reclaimCutoff (now : Time) : Time := now - Constants.rapidReReclaimWindowSecs * nanosPerSecond

/-- `should_warn_rapid_re_reclaim`. -/
def shouldWarnRapidReReclaim (events : List Time) (now : Time) : Bool :=
  decide (Constants.rapidReReclaimThreshold ≤ (events.filter fun t => decide (reclaimCutoff now ≤ t)).length)

/-- The deque after calls at these times, from an empty one. -/
def recordedEvents (history : List Time) : List Time :=
  history.foldl (fun events now => (recordEmergencyReclaimEvent events now).1) []

theorem recordEmergencyReclaimEvent_eq (events : List Time) (now : Time) :
    recordEmergencyReclaimEvent events now = (record reclaimCutoff Constants.rapidReReclaimMaxTracked events now,
      decide (Constants.rapidReReclaimThreshold ≤
        (record reclaimCutoff Constants.rapidReReclaimMaxTracked events now).length)) := rfl

theorem recordedEvents_eq (history : List Time) :
    recordedEvents history = tracked reclaimCutoff Constants.rapidReReclaimMaxTracked history := rfl

theorem reclaimCutoff_mono {s t : Time} (h : s ≤ t) : reclaimCutoff s ≤ reclaimCutoff t := Int.sub_le_sub_right h _

theorem reclaimCutoff_le (now : Time) : reclaimCutoff now ≤ now := Int.sub_le_self now (by decide)

theorem breach_iff {history : List Time} {now : Time} (hsorted : (history ++ [now]).Pairwise (· ≤ ·)) :
    (recordEmergencyReclaimEvent (recordedEvents history) now).2 = true ↔
      Constants.rapidReReclaimThreshold ≤
        ((history ++ [now]).filter fun t => decide (reclaimCutoff now ≤ t)).length := by
  have hlength := length_tracked Constants.rapidReReclaimMaxTracked (fun _ _ => reclaimCutoff_mono) reclaimCutoff_le hsorted
  have hroom : Constants.rapidReReclaimThreshold ≤ Constants.rapidReReclaimMaxTracked := by decide
  rw [tracked_concat, ← recordedEvents_eq] at hlength
  rw [recordEmergencyReclaimEvent_eq]
  dsimp only
  rw [decide_eq_true_eq, hlength, Nat.le_min]
  exact and_iff_right hroom

/-- Each call decides as if it had the whole history; the deque is in order and within its cap. -/
theorem loop_protection_lossless (history : List Time) (now : Time) (hsorted : (history ++ [now]).Pairwise (· ≤ ·)) :
    (recordEmergencyReclaimEvent (recordedEvents history) now).2 = shouldWarnRapidReReclaim (history ++ [now]) now ∧
      (recordEmergencyReclaimEvent (recordedEvents history) now).1.Pairwise (· ≤ ·) ∧
      (recordEmergencyReclaimEvent (recordedEvents history) now).1.length ≤ Constants.rapidReReclaimMaxTracked := by
  refine ⟨?_, ?_, ?_⟩
  · rw [Bool.eq_iff_iff, breach_iff hsorted, shouldWarnRapidReReclaim, decide_eq_true_eq]
  · have hnext : (recordEmergencyReclaimEvent (recordedEvents history) now).1 = recordedEvents (history ++ [now]) := by
      rw [recordEmergencyReclaimEvent_eq, recordedEvents_eq, recordedEvents_eq, tracked_concat]
    rw [hnext, recordedEvents_eq]
    exact hsorted.sublist (tracked_sublist _)
  · rw [recordEmergencyReclaimEvent_eq]
    exact length_record_le _ now

/-- Twelve reclaims a minute apart, of which eleven are in the window of the twelfth and ten are kept. -/
theorem loop_protection_lossless_storm :
    (recordEmergencyReclaimEvent (recordedEvents ((List.range 11).map fun i => i * 60 * nanosPerSecond))
      (11 * 60 * nanosPerSecond)).2 = true := by
  rw [(loop_protection_lossless ((List.range 11).map fun i => i * 60 * nanosPerSecond) (11 * 60 * nanosPerSecond)
    (by decide)).1]
  decide

end FiveSpot
