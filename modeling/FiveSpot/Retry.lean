import FiveSpot.Reconcile

/-! # Retries

A failed reconcile is requeued by `error_policy`, which counts the failures of each resource. The count goes away
at the end of `reconcile_guarded`.
-/

namespace FiveSpot

set_option autoImplicit false

open Interaction

/-- `Context::retry_counts`, a map behind a mutex. -/
structure RetryCounts where
  counts : Std.TreeMap String Nat
  poisoned : Bool

def RetryCounts.empty : RetryCounts := ⟨∅, false⟩

def retryKey (sm : ScheduledMachine) : String := sm.metadata.ns.getD "" ++ "/" ++ sm.metadata.name

/-- The count is a `u32` and the delay a `u64`. -/
def computeBackoffSecs (retryCount : Nat) : Nat :=
  if Constants.maxReconcileRetries ≤ retryCount then Constants.maxBackoffSecs
  else
    let backoff := min (Constants.errorRequeueSecs * (2 ^ min retryCount 63 % 2 ^ 64)) (2 ^ 64 - 1)
    min backoff Constants.maxBackoffSecs

def errorPolicy (sm : ScheduledMachine) (retryCounts : RetryCounts) : Action × RetryCounts :=
  if retryCounts.poisoned then (.requeue Constants.errorRequeueSecs, retryCounts)
  else
    let retryCount := min (retryCounts.counts.getD (retryKey sm) 0 + 1) (2 ^ 32 - 1)
    (.requeue (computeBackoffSecs retryCount),
      { retryCounts with counts := retryCounts.counts.insert (retryKey sm) retryCount })

/-- Whether `reconcile_guarded` is past its early returns when it returns. -/
def reachesInner (ctx : Context) (sm : ScheduledMachine) : Bool :=
  ctx.isLeader && shouldProcessResource ctx sm.metadata.name (sm.metadata.ns.getD "") sm.spec.priority &&
    !sm.deleting && hasFinalizer sm

/-- What `reconcile_guarded` does to the counts. -/
def resetRetries (ctx : Context) (sm : ScheduledMachine) (result : Except ReconcilerError Action)
    (retryCounts : RetryCounts) : RetryCounts :=
  match result with
  | .error _ => retryCounts
  | .ok _ =>
    if reachesInner ctx sm && !retryCounts.poisoned then
      { retryCounts with counts := retryCounts.counts.erase (retryKey sm) }
    else retryCounts

/-- A pass over a resource and how it ended. The names of an object have no slash. -/
structure FinishedPass where
  ctx : Context
  sm : ScheduledMachine
  result : Except ReconcilerError Action
  named : '/' ∉ (sm.metadata.ns.getD "").toList
  ends : (reconcileScheduledMachine ctx sm).Runs (fun (_ : Unit) _ _ _ => True) () () result

/-- The runtime calls `error_policy` after each failed pass. -/
def FinishedPass.retries (p : FinishedPass) (retryCounts : RetryCounts) : RetryCounts :=
  let retryCounts := resetRetries p.ctx p.sm p.result retryCounts
  match p.result with
  | .ok _ => retryCounts
  | .error _ => (errorPolicy p.sm retryCounts).2

/-- The counts after a history of passes, newest first. -/
def retriesAfter : List FinishedPass → RetryCounts
  | [] => .empty
  | p :: older => p.retries (retriesAfter older)

def requeueAfter (history : List FinishedPass) (sm : ScheduledMachine) : Action :=
  (errorPolicy sm (retriesAfter history)).1

end FiveSpot
