import FiveSpot.Helpers.Capi

/-! # Secondary-watch mappers

Events of Machines and Nodes are turned into reconcile requests for the `ScheduledMachine` behind them,
found through a label of the Machine.
-/

namespace FiveSpot

set_option autoImplicit false

/-- The parts of a `DynamicObject` the mappers look at. -/
structure DynamicObject where
  ns : Option String
  labels : Option StringMap
  data : Json

/-- An absent or null field is `none`; a field of the wrong shape rejects the object. -/
def optionalField {α : Type} (read : Json → Option α) (value : Json) (name : String) : Option (Option α) :=
  match value.get name with
  | none => some none
  | some .null => some none
  | some field => (read field).map some

def DynamicObject.ofJson (value : Json) : Option DynamicObject := do
  let metadata := (value.get "metadata").getD (.obj [])
  let ns ← optionalField Json.asStr metadata "namespace"
  let labels ← optionalField StringMap.ofJson metadata "labels"
  return ⟨ns, labels, value⟩

/-- `ObjectRef<ScheduledMachine>`. -/
structure ObjectRef where
  name : String
  ns : String
  deriving DecidableEq

def labelledScheduledMachine (machine : DynamicObject) : Option ObjectRef := do
  let labels ← machine.labels
  let rawName ← labels.lookup Constants.labelScheduledMachine
  let name := Text.trim rawName
  if name = "" then none
  else
    let ns ← machine.ns
    return ⟨name, ns⟩

def machineToScheduledMachine (machine : DynamicObject) : List ObjectRef :=
  (labelledScheduledMachine machine).toList

def machineNodeName (machine : DynamicObject) : Option String := do
  let status ← machine.data.get "status"
  let nodeRef ← status.get "nodeRef"
  let name ← nodeRef.get "name"
  name.asStr

def onNode (nodeName : String) (machine : DynamicObject) : Bool :=
  machineNodeName machine == some nodeName && nodeName != ""

def nodeToScheduledMachinesViaMachine (nodeName : Option String) (machines : List DynamicObject) : List ObjectRef :=
  match nodeName with
  | none => []
  | some nodeName => machines.filterMap fun machine =>
      if onNode nodeName machine then labelledScheduledMachine machine else none

end FiveSpot
