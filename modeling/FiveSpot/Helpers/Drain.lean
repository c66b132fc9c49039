import FiveSpot.Helpers.Validation

/-! # Draining a Node

Cordon, list the pods of the Node, delete them one by one until the deadline.
-/

namespace FiveSpot

set_option autoImplicit false

open Interaction

def cordonPatch : NodePatch := ⟨[], [], some true⟩

def cordonNode (client : Client) (nodeName : String) : Ctl Unit := do
  let answer ← api client (.patchNode nodeName cordonPatch)
  orError (fun e => .capiError s!"Failed to cordon node {nodeName}: {e.text}") answer

def shouldEvictPod (pod : Pod) : Bool :=
  if pod.phase = some "Succeeded" ∨ pod.phase = some "Failed" then false
  else match pod.ownerKinds with
    | some kinds => !kinds.contains "DaemonSet"
    | none => true

def evictPod (client : Client) (podName podNamespace nodeName : String) : Ctl Unit := do
  match ← api client (.deletePod podNamespace podName Constants.podEvictionGracePeriodSecs) with
  | .ok _ => .pure ()
  | .error e =>
    if e.isNotFound then .pure ()
    else if e.code = some Constants.httpTooManyRequests then .fail (.capiError
      s!"Pod {podName} eviction blocked by PodDisruptionBudget (HTTP 429) on node {nodeName}")
    else .fail (.capiError s!"Failed to evict pod {podName} from node {nodeName}: {e.text}")

/-- The eviction loop. Its clock is the monotonic one. -/
def evictPods (client : Client) (nodeName : String) (timeoutSecs start : Nat) : List Pod → Ctl Unit
  | [] => .pure ()
  | pod :: rest => do
    let now ← local_ .instantNow
    if timeoutSecs * nanosPerSecond.toNat ≤ now - start then
      .fail (.capiError s!"Node drain timeout exceeded for {nodeName}")
    else do
      evictPod client (pod.name.getD "unknown") (pod.ns.getD "default") nodeName
      evictPods client nodeName timeoutSecs start rest

def drainNodeWithTimeout (client : Client) (nodeName : String) (timeoutSecs : Nat) : Ctl Unit := do
  cordonNode client nodeName
  let answer ← api client (.listPods nodeName)
  let pods ← orError (fun e => .capiError s!"Failed to list pods on node {nodeName}: {e.text}") answer
  match pods.filter shouldEvictPod with
  | [] => .pure ()
  | pod :: rest => do
    let start ← local_ .instantNow
    evictPods client nodeName timeoutSecs start (pod :: rest)

end FiveSpot
