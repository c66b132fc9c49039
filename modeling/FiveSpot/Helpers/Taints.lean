import FiveSpot.Helpers.Status

/-! # Node taints

A taint is identified by `(key, effect)`. The plan compares the Node's taints with the
desired list and with the list recorded as applied before; the apply step rewrites
`spec.taints` as a whole from a second read of the Node.
-/

namespace FiveSpot

set_option autoImplicit false

open Interaction

/-- No two entries share key and effect. -/
def DistinctEntries (entries : List NodeTaint) : Prop := (entries.map fun n => (n.key, n.effect)).Nodup

instance (entries : List NodeTaint) : Decidable (DistinctEntries entries) :=
  inferInstanceAs (Decidable (entries.map fun n => (n.key, n.effect)).Nodup)

def effectStr : TaintEffect → String
  | .noSchedule => "NoSchedule"
  | .preferNoSchedule => "PreferNoSchedule"
  | .noExecute => "NoExecute"

def effectFromStr (s : String) : Option TaintEffect :=
  if s = "NoSchedule" then some .noSchedule
  else if s = "PreferNoSchedule" then some .preferNoSchedule
  else if s = "NoExecute" then some .noExecute
  else none

structure NodeTaintPlan where
  toAdd : List NodeTaint
  toUpdate : List NodeTaint
  toRemove : List NodeTaint
  unchanged : List NodeTaint
  conflicts : List NodeTaint
  deriving DecidableEq

def NodeTaintPlan.isNoop (plan : NodeTaintPlan) : Bool :=
  plan.toAdd.isEmpty && plan.toUpdate.isEmpty && plan.toRemove.isEmpty

def findCurrent (current : List Taint) (key : String) (effect : TaintEffect) : Option Taint :=
  current.find? fun c => c.key == key && effectFromStr c.effect == some effect

def findApplied (applied : List NodeTaint) (key : String) (effect : TaintEffect) : Option NodeTaint :=
  applied.find? fun p => p.key == key && p.effect == effect

/-- The bucket a desired taint falls into. -/
inductive Want where
  | add
  | unchanged
  | update
  | conflict
  deriving DecidableEq

def classifyWant (current : List Taint) (applied : List NodeTaint) (want : NodeTaint) : Want :=
  match findCurrent current want.key want.effect with
  | none => .add
  | some cur =>
    if cur.value = want.value then .unchanged
    else match findApplied applied want.key want.effect with
      | some p => if p.value = cur.value then .update else .conflict
      | none => .conflict

inductive Stale where
  | keep
  | remove
  | conflict
  deriving DecidableEq

def classifyStale (current : List Taint) (desired : List NodeTaint) (applied : NodeTaint) : Stale :=
  if desired.any fun d => d.key == applied.key && d.effect == applied.effect then .keep
  else match findCurrent current applied.key applied.effect with
    | none => .keep
    | some cur => if cur.value = applied.value then .remove else .conflict

def diffNodeTaints (current : List Taint) (desired previouslyApplied : List NodeTaint) :
    NodeTaintPlan where
  toAdd := desired.filter fun want => classifyWant current previouslyApplied want == .add
  toUpdate := desired.filter fun want => classifyWant current previouslyApplied want == .update
  toRemove := previouslyApplied.filter fun p => classifyStale current desired p == .remove
  unchanged := desired.filter fun want => classifyWant current previouslyApplied want == .unchanged
  conflicts := (desired.filter fun want => classifyWant current previouslyApplied want == .conflict) ++
    previouslyApplied.filter fun p => classifyStale current desired p == .conflict

def taintMatches (t : Taint) (n : NodeTaint) : Bool := t.key == n.key && t.effect == effectStr n.effect

def taintOf (n : NodeTaint) : Taint := ⟨n.key, n.value, effectStr n.effect, none⟩

/-- The list that is written: removed entries dropped, updated ones replaced in place,
new ones appended. -/
def targetTaints (current : List Taint) (plan : NodeTaintPlan) : List Taint :=
  ((current.filter fun t => !plan.toRemove.any (taintMatches t)).map fun t =>
    match plan.toUpdate.find? (taintMatches t) with
    | some update => taintOf update
    | none => t) ++ plan.toAdd.map taintOf

/-- The value of the ownership annotation: what is added, updated or already as desired. -/
def ownedTaintsText (plan : NodeTaintPlan) : String :=
  "[" ++ ",".intercalate ((plan.toAdd ++ plan.toUpdate ++ plan.unchanged).map fun t =>
    "\x7b\"effect\":" ++ Text.jsonString (effectStr t.effect) ++ ",\"key\":" ++ Text.jsonString t.key ++ "\x7d") ++ "]"

def applyNodeTaints (client : Client) (nodeName : String) (plan : NodeTaintPlan) : Ctl Unit :=
  if plan.isNoop then .pure ()
  else do
    let answer ← api client (.getNode nodeName)
    let node ← orKubeError answer
    let written ← api client
      (.applyNodeTaints nodeName (ownedTaintsText plan) (targetTaints node.taints plan))
    orKubeError written

inductive NodeTaintReconcileOutcome where
  | noNodeYet
  | nodeNotReady
  | applied (applied : List NodeTaint)
  | conflict (conflicts : List NodeTaint)

def nodeReady (node : Node) : Bool :=
  match node.conditions with
  | some conditions => conditions.any fun c => c.1 == "Ready" && c.2 == "True"
  | none => false

def reconcileNodeTaints (client : Client) (nodeName : String) (desired previouslyApplied : List NodeTaint) :
    Ctl NodeTaintReconcileOutcome := do
  match ← api client (.getNode nodeName) with
  | .error e => if e.isNotFound then .pure .noNodeYet else .fail (.kubeError e)
  | .ok node =>
    if !nodeReady node then .pure .nodeNotReady
    else
      let plan := diffNodeTaints node.taints desired previouslyApplied
      if !plan.conflicts.isEmpty then .pure (.conflict plan.conflicts)
      else do
        applyNodeTaints client nodeName plan
        return .applied desired

end FiveSpot
