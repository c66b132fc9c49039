import FiveSpot.Cluster.Run
import FiveSpot.Model.Streak
import FiveSpot.Retry
import Mathlib.Tactic.IntervalCases

/-! # The back-off schedule

A failure is counted before its delay is computed, so the schedule starts one step late. The count is reset by
passes that reach the inner reconcile only.
-/

namespace FiveSpot

set_option autoImplicit false

open Interaction

def ScheduledMachine.identity (sm : ScheduledMachine) : String × String := (sm.metadata.ns.getD "", sm.metadata.name)

namespace FinishedPass

variable (p : FinishedPass)

def of (sm : ScheduledMachine) : Bool := p.sm.identity == sm.identity

def failed : Bool :=
  match p.result with
  | .ok _ => false
  | .error _ => true

/-- The pass was this replica's to do, and returned `Ok`. -/
def succeeded : Bool :=
  p.ctx.isLeader && shouldProcessResource p.ctx p.sm.metadata.name (p.sm.metadata.ns.getD "") p.sm.spec.priority &&
    !p.failed

def clears : Bool := reachesInner p.ctx p.sm && !p.failed

end FinishedPass

def failuresSince (sm : ScheduledMachine) (history : List FinishedPass) : Nat :=
  streak (fun p => p.of sm && p.failed) (fun p => p.of sm && p.succeeded) history

/-- Failures of the resource since its count was last cleared. -/
def countedSince (sm : ScheduledMachine) (history : List FinishedPass) : Nat :=
  streak (fun p => p.of sm && p.failed) (fun p => p.of sm && p.clears) history

section

variable {history : List FinishedPass} {sm : ScheduledMachine} {p : FinishedPass}

/-! ## The counts -/

theorem retryKey_inj {a b : ScheduledMachine} (ha : '/' ∉ (a.metadata.ns.getD "").toList)
    (hb : '/' ∉ (b.metadata.ns.getD "").toList) (h : retryKey a = retryKey b) : a.identity = b.identity := by
  have hsplit : ∀ sm : ScheduledMachine, '/' ∉ (sm.metadata.ns.getD "").toList →
      Text.splitOnceList '/' (retryKey sm).toList = some ((sm.metadata.ns.getD "").toList, sm.metadata.name.toList) := by
    intro sm hsm
    have hlist : (retryKey sm).toList = (sm.metadata.ns.getD "").toList ++ '/' :: sm.metadata.name.toList := by
      simp [retryKey, String.toList_append]
    rw [hlist, Text.splitOnceList_append hsm]
  have hboth := (hsplit a ha).symm.trans ((congrArg _ (congrArg _ h)).trans (hsplit b hb))
  simp only [Option.some.injEq, Prod.mk.injEq, String.toList_inj] at hboth
  exact Prod.ext hboth.1 hboth.2

theorem FinishedPass.retries_eq {retryCounts : RetryCounts} (h : retryCounts.poisoned = false) :
    p.retries retryCounts = { retryCounts with
      counts :=
        if p.failed then
          retryCounts.counts.insert (retryKey p.sm) (min (retryCounts.counts.getD (retryKey p.sm) 0 + 1) (2 ^ 32 - 1))
        else if p.clears then retryCounts.counts.erase (retryKey p.sm)
        else retryCounts.counts } := by
  obtain ⟨counts, poisoned⟩ := retryCounts
  subst h
  unfold retries resetRetries failed clears failed
  cases p.result with
  | error e => simp [errorPolicy]
  | ok action => cases reachesInner p.ctx p.sm <;> simp

theorem not_poisoned : (retriesAfter history).poisoned = false := by
  induction history with
  | nil => rfl
  | cons p older ih =>
    rw [retriesAfter, FinishedPass.retries_eq ih]
    exact ih

theorem getD_retriesAfter (hsm : '/' ∉ (sm.metadata.ns.getD "").toList) :
    (retriesAfter history).counts.getD (retryKey sm) 0 = min (countedSince sm history) (2 ^ 32 - 1) := by
  induction history with
  | nil => rfl
  | cons p older ih =>
    have hkey : p.of sm = true ↔ retryKey p.sm = retryKey sm := by
      rw [FinishedPass.of, beq_iff_eq]
      constructor
      · intro h
        rw [retryKey, retryKey, (Prod.mk.inj h).1, (Prod.mk.inj h).2]
      · exact retryKey_inj p.named hsm
    rw [retriesAfter, FinishedPass.retries_eq not_poisoned, countedSince, streak, ← countedSince]
    dsimp only
    cases hof : p.of sm with
    | false =>
      have hother : retryKey p.sm ≠ retryKey sm := by
        intro h
        rw [hkey.mpr h] at hof
        cases hof
      rw [Bool.false_and, Bool.false_and, if_neg Bool.false_ne_true, if_neg Bool.false_ne_true, ← ih]
      split
      · simp [Std.TreeMap.getD_insert, hother]
      split
      · simp [Std.TreeMap.getD_erase, hother]
      · rfl
    | true =>
      rw [Bool.true_and, Bool.true_and, hkey.mp hof]
      split
      · rw [Std.TreeMap.getD_insert_self, ih]
        omega
      split
      · rw [Std.TreeMap.getD_erase_self]
        rfl
      · exact ih

end

/-! ## The schedule -/

theorem two_pow_ge {c : Nat} (h : 4 ≤ c) : 16 ≤ 2 ^ c := by
  calc
    16 = 2 ^ 4 := rfl
    _ ≤ 2 ^ c := Nat.pow_le_pow_right (by decide) h

theorem computeBackoffSecs_eq (retryCount : Nat) : computeBackoffSecs retryCount = min (30 * 2 ^ retryCount) 300 := by
  unfold computeBackoffSecs
  split
  · rename_i hmany
    simp only [Constants.maxReconcileRetries] at hmany
    have hpow := two_pow_ge (c := retryCount) (by omega)
    simp only [Constants.maxBackoffSecs]
    omega
  · rename_i hfew
    simp only [Constants.maxReconcileRetries] at hfew
    have hlt : retryCount < 10 := by omega
    interval_cases retryCount <;> rfl

/-- Saturation comes long after the cap. -/
theorem computeBackoffSecs_saturated (count : Nat) :
    computeBackoffSecs (min (count + 1) (2 ^ 32 - 1)) = min (30 * 2 ^ (count + 1)) 300 := by
  rw [computeBackoffSecs_eq]
  by_cases hfits : count + 1 ≤ 2 ^ 32 - 1
  · rw [Nat.min_eq_left hfits]
  · have hsaturated := two_pow_ge (c := min (count + 1) (2 ^ 32 - 1)) (by omega)
    have hcount := two_pow_ge (c := count + 1) (by omega)
    omega

def scheduledDelay (k : Nat) : Nat := min (30 * 2 ^ (k - 1)) 300

/-- The delay doubles from 30 seconds to the cap of 300 with the resource's failures in a row, and nothing that
happens to other resources matters. -/
structure BackoffLaw (history : List FinishedPass) (sm : ScheduledMachine) : Prop where
  schedule : requeueAfter history sm = .requeue (scheduledDelay (failuresSince sm history + 1))
  independent : requeueAfter history sm = requeueAfter (history.filter (·.of sm)) sm

theorem requeueAfter_eq {history : List FinishedPass} {sm : ScheduledMachine}
    (hsm : '/' ∉ (sm.metadata.ns.getD "").toList) :
    requeueAfter history sm = .requeue (min (30 * 2 ^ (countedSince sm history + 1)) 300) := by
  have hcount : min (min (countedSince sm history) (2 ^ 32 - 1) + 1) (2 ^ 32 - 1) =
      min (countedSince sm history + 1) (2 ^ 32 - 1) := by
    omega
  rw [requeueAfter, errorPolicy, not_poisoned, if_neg Bool.false_ne_true, getD_retriesAfter hsm, hcount]
  dsimp only
  rw [computeBackoffSecs_saturated]

theorem failuresSince_le (history : List FinishedPass) (sm : ScheduledMachine) :
    failuresSince sm history ≤ countedSince sm history := by
  apply streak_le
  intro p h
  simp only [FinishedPass.clears, FinishedPass.succeeded, reachesInner, Bool.and_eq_true] at h ⊢
  tauto

structure NamedMachine where
  sm : ScheduledMachine
  named : '/' ∉ (sm.metadata.ns.getD "").toList

/-- The delays are right from the fifth failure in a row on, when they have reached the cap. -/
theorem backoff_law_iff (history : List FinishedPass) (machine : NamedMachine) :
    BackoffLaw history machine.sm ↔ 4 ≤ failuresSince machine.sm history := by
  have hle := failuresSince_le history machine.sm
  have hindependent : requeueAfter history machine.sm =
      requeueAfter (history.filter (·.of machine.sm)) machine.sm := by
    have hcounted : countedSince machine.sm (history.filter (·.of machine.sm)) = countedSince machine.sm history := by
      apply streak_filter
      intro p hother
      rw [hother]
      exact ⟨rfl, rfl⟩
    rw [requeueAfter_eq machine.named, requeueAfter_eq machine.named, hcounted]
  constructor
  · intro h
    have hschedule := h.schedule
    rw [requeueAfter_eq machine.named, Action.requeue.injEq, scheduledDelay, Nat.add_sub_cancel] at hschedule
    by_contra hfew
    have hdouble : 2 ^ (failuresSince machine.sm history + 1) ≤ 2 ^ (countedSince machine.sm history + 1) :=
      Nat.pow_le_pow_right (by decide) (by omega)
    have hcap : 2 ^ failuresSince machine.sm history ≤ 2 ^ 3 := Nat.pow_le_pow_right (by decide) (by omega)
    have hpos := Nat.two_pow_pos (failuresSince machine.sm history)
    rw [Nat.pow_succ] at hdouble
    omega
  · intro hmany
    constructor
    · have hfailures := two_pow_ge hmany
      have hcounted := two_pow_ge (c := countedSince machine.sm history + 1) (by omega)
      rw [requeueAfter_eq machine.named, scheduledDelay, Nat.add_sub_cancel]
      congr 1
      omega
    · exact hindependent

/-- The first failure waits a minute. -/
theorem first_failure_late : ¬ ∀ (history : List FinishedPass) (machine : NamedMachine),
    BackoffLaw history machine.sm := by
  intro h
  have hschedule := (h [] ⟨demoMachine, by decide⟩).schedule
  exact absurd hschedule (by decide)

end FiveSpot
