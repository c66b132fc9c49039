import Mathlib.Logic.Function.Basic
import FiveSpot.Interaction.Feed
import FiveSpot.Providers.ReverseIndex

/-! # Provider watchers (`src/reconcilers/spot_schedule_watch.rs`, `src/main.rs`)

One task watches the resources, another one each kind of provider that is referred to. What a provider's event
concerns goes through a bounded channel to the controller, which runs a pass for everything that is due.
-/

namespace FiveSpot

set_option autoImplicit false

open Interaction

namespace Constants

def spotScheduleEventChannelCap : Nat := 1024

end Constants

/-- A provider as its watcher sees it; every write gives it another revision. -/
structure WatchedProvider where
  gvk : GroupVersionKind
  ns : Option String
  name : Option String
  revision : Nat
  deriving DecidableEq

/-- Where an object is found. -/
def WatchedProvider.id (object : WatchedProvider) : GroupVersionKind × Option String × Option String :=
  (object.gvk, object.ns, object.name)

/-- The key an event of the watcher of `gvk` is about. -/
def WatchedProvider.key (gvk : GroupVersionKind) (object : WatchedProvider) : Option ProviderKey := do
  let ns ← object.ns
  let name ← object.name
  return ⟨gvk, ns, name⟩

def emitRefsForProvider (gvk : GroupVersionKind) (object : WatchedProvider) (index : ReverseIndex) :
    Finset ScheduledMachineRef :=
  match object.key gvk with
  | some key => index.lookup key
  | none => ∅

/-- A provider watcher: its stream, and the references it has still to send for the event it handles. -/
structure ProviderTask where
  feed : Feed WatchedProvider
  sending : List ScheduledMachineRef

def ProviderTask.spawned : ProviderTask := ⟨.fresh, []⟩

/-- The providers and resources of the cluster beside the process that watches them. -/
structure WakeState where
  providers : Collection WatchedProvider.id
  machines : Collection ScheduledMachine.ref
  revision : Nat
  reflector : Feed ScheduledMachine
  manager : SpotScheduleWatchManager
  tasks : GroupVersionKind → ProviderTask
  channel : List ScheduledMachineRef
  /-- What the controller has still to run a pass for. -/
  due : Finset ScheduledMachineRef
  /-- The provider of each resource and its revision, when the last pass for the resource began. -/
  noticed : ScheduledMachineRef → Option (ProviderKey × Option Nat)

inductive WakeAct where
  | putProvider (gvk : GroupVersionKind) (ns name : Option String)
  | removeProvider (object : WatchedProvider)
  | putMachine (sm : ScheduledMachine)
  | removeMachine (sm : ScheduledMachine)
  | restart
  | reflectorLose (received : Nat)
  | reflectorList
  | reflectorEvent
  | watcherLose (gvk : GroupVersionKind) (received : Nat)
  | watcherList (gvk : GroupVersionKind)
  | dispatch (gvk : GroupVersionKind) (refs : List ScheduledMachineRef)
  | send (gvk : GroupVersionKind)
  | receive
  | pass (ref : ScheduledMachineRef)

namespace WakeState

variable (s : WakeState)

def revisionOf (key : ProviderKey) : Option Nat :=
  (s.providers.find? (key.gvk, some key.ns, some key.name)).map WatchedProvider.revision

def tellTask (gvk : GroupVersionKind) (event : WatchEvent WatchedProvider) : GroupVersionKind → ProviderTask :=
  Function.update s.tasks gvk { s.tasks gvk with feed := (s.tasks gvk).feed.tell event }

/-- A watcher that is kept goes on; every other one is aborted or not yet spawned. -/
def tasksAfter (manager : SpotScheduleWatchManager) (gvk : GroupVersionKind) : ProviderTask :=
  if gvk ∈ s.manager.watchers ∧ gvk ∈ manager.watchers then s.tasks gvk else .spawned

/-- What a pass finds for the provider of a resource. -/
def provision (ref : ScheduledMachineRef) : Option (ProviderKey × Option Nat) := do
  let sm ← s.machines.find? ref
  let key ← providerKeyFor sm
  return (key, s.revisionOf key)

/-- The references an event leads to, in the order of a hash set. -/
def Emits (gvk : GroupVersionKind) (event : WatchEvent WatchedProvider) (refs : List ScheduledMachineRef) : Prop :=
  refs.toFinset = match event.object? with
    | some object => emitRefsForProvider gvk object s.manager.index
    | none => ∅

instance (gvk : GroupVersionKind) (event : WatchEvent WatchedProvider) (refs : List ScheduledMachineRef) :
    Decidable (s.Emits gvk event refs) := inferInstanceAs (Decidable (_ = _))

def step : WakeAct → Option WakeState
  | .putProvider gvk ns name =>
    let object : WatchedProvider := ⟨gvk, ns, name, s.revision + 1⟩
    some { s with
      providers := s.providers.put object
      revision := s.revision + 1
      tasks := s.tellTask gvk (.apply object) }
  | .removeProvider object =>
    if object ∈ s.providers.objects then
      some { s with providers := s.providers.remove object.id, tasks := s.tellTask object.gvk (.delete object) }
    else none
  -- the controller watches its own resources
  | .putMachine sm =>
    some { s with
      machines := s.machines.put sm
      reflector := s.reflector.tell (.apply sm)
      due := insert sm.ref s.due }
  | .removeMachine sm =>
    if sm ∈ s.machines.objects then
      some { s with machines := s.machines.remove sm.ref, reflector := s.reflector.tell (.delete sm) }
    else none
  -- nothing is stored outside the cluster, and the controller begins with all resources
  | .restart =>
    some { s with
      reflector := .fresh
      manager := .new
      tasks := fun _ => .spawned
      channel := []
      due := (s.machines.objects.map ScheduledMachine.ref).toFinset }
  | .reflectorLose received => some { s with reflector := s.reflector.lose received }
  | .reflectorList => some { s with reflector := s.reflector.list s.machines.objects }
  | .reflectorEvent =>
    match s.reflector.pending with
    | [] => none
    | event :: rest =>
      let manager := s.manager.onEvent event
      some { s with reflector := { s.reflector with pending := rest }, manager := manager, tasks := s.tasksAfter manager }
  | .watcherLose gvk received =>
    if gvk ∈ s.manager.watchers then
      some { s with tasks := Function.update s.tasks gvk { s.tasks gvk with feed := (s.tasks gvk).feed.lose received } }
    else none
  | .watcherList gvk =>
    if gvk ∈ s.manager.watchers then
      let listed := s.providers.objects.filter fun object => object.gvk = gvk
      some { s with tasks := Function.update s.tasks gvk { s.tasks gvk with feed := (s.tasks gvk).feed.list listed } }
    else none
  | .dispatch gvk refs =>
    match (s.tasks gvk).feed.pending with
    | [] => none
    | event :: rest =>
      if gvk ∈ s.manager.watchers ∧ (s.tasks gvk).sending = [] ∧ s.Emits gvk event refs then
        some { s with tasks := Function.update s.tasks gvk ⟨{ (s.tasks gvk).feed with pending := rest }, refs⟩ }
      else none
  | .send gvk =>
    match (s.tasks gvk).sending with
    | [] => none
    | ref :: rest =>
      if gvk ∈ s.manager.watchers ∧ s.channel.length < Constants.spotScheduleEventChannelCap then
        some { s with
          tasks := Function.update s.tasks gvk { s.tasks gvk with sending := rest }
          channel := s.channel ++ [ref] }
      else none
  | .receive =>
    match s.channel with
    | [] => none
    | ref :: rest => some { s with channel := rest, due := insert ref s.due }
  | .pass ref =>
    some { s with due := s.due.erase ref, noticed := Function.update s.noticed ref (s.provision ref) }

def empty : WakeState where
  providers := .empty
  machines := .empty
  revision := 0
  reflector := .fresh
  manager := .new
  tasks := fun _ => .spawned
  channel := []
  due := ∅
  noticed := fun _ => none

/-- Nothing is on its way: every stream is handled, every reference sent, every pass run. -/
structure Quiet : Prop where
  reflector : s.reflector.Drained
  watchers : ∀ gvk ∈ s.manager.watchers, (s.tasks gvk).feed.Drained ∧ (s.tasks gvk).sending = []
  channel : s.channel = []
  due : s.due = ∅

end WakeState

/-- The watches of one controller process, restarts included. -/
def wakes : Automaton WakeState WakeAct where
  initial s := s = .empty
  step := WakeState.step

end FiveSpot
