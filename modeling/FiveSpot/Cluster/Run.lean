import FiveSpot.Cluster.World
import FiveSpot.Interaction.System
import FiveSpot.Reconcile

/-! # Runs of the controller

A run interleaves the calls of one reconcile at a time with crashes, clock ticks, spec edits and
arbitrary changes of everything else on the API servers. Each call may succeed, fail before it
takes effect, or take effect while its response is lost.
-/

namespace FiveSpot

set_option autoImplicit false

open Interaction

/-- An error that says nothing about the object: neither `NotFound` nor `AlreadyExists`. -/
structure Fault where
  error : KubeError
  unspecific : error.isNotFound = false ∧ error.isAlreadyExists = false

inductive Fate where
  | ok
  | fail (fault : Fault)
  | lost (fault : Fault)

def Fate.isOk : Fate → Bool
  | .ok => true
  | _ => false

/-- What a reconcile starts from: the resource and whether this replica leads. -/
structure Snapshot where
  sm : ScheduledMachine
  leader : Bool

/-- What others leave as it is, of what the controller has put on the servers. -/
structure Keep where
  taint : Client → String → String × Option String × String → Bool
  object : ObjKey → Bool

def Keep.all : Keep := ⟨fun _ _ _ => true, fun _ => true⟩

inductive Interference where
  | tick (nanos : Nat)
  | setClock (time : Time)
  | setLeader (leader : Bool)
  | editSpec (spec : ScheduledMachineSpec)
  | editFinalizers (finalizers : List String)
  | requestDeletion
  /-- A tenant writes `status.nodeRef`. -/
  | forgeNodeRef (nodeRef : Option NodeRef)
  /-- Anything else on the API servers changes; what the controller has put there may be replaced by
  something equal of somebody else. -/
  | replace (env : Env) (keep : Keep)

section

variable (ctx : Context)

def machineKey (sm : ScheduledMachine) : ObjKey :=
  ⟨Constants.capiGroup, Constants.capiResourceMachines, sm.metadata.ns.getD "", sm.metadata.name⟩

/-- The Node the Machine of the resource is bound to right now. -/
def World.bound (w : World) : Option String :=
  (w.env.object w.machine).bind fun machine => (extractMachineRefs machine).2.map (·.name)

def World.record (w : World) (event : Event) : World := { w with log := event :: w.log }

def World.recordCall (before : World) (client : Client) (call : ApiCall) (applied : Bool)
    (error : Option KubeError) (after : World) : World :=
  after.record (.called before.now before.bound client call applied error)

def serveApi (w : World) (client : Client) (call : ApiCall) (fate : Fate) :
    Except KubeError call.Answer × World :=
  match fate, perform w client call with
  | .fail fault, _ => (.error fault.error, w.recordCall client call false (some fault.error) w)
  | .ok, .ok (answer, after) => (.ok answer, w.recordCall client call true none after)
  | .ok, .error e => (.error e, w.recordCall client call false (some e) w)
  | .lost fault, .ok (_, after) => (.error fault.error, w.recordCall client call true (some fault.error) after)
  | .lost fault, .error _ => (.error fault.error, w.recordCall client call false (some fault.error) w)

/-- A timer fires on any fate but success. -/
def serve (w : World) : (r : Req) → Fate → Resp r × World
  | .api client call, fate => serveApi w client call fate
  | .loc op, _ => performLocal w op
  | .timer _, fate => if fate.isOk then (false, w) else (true, w.record .timedOut)

def ScheduledMachine.setNodeRef (sm : ScheduledMachine) (nodeRef : Option NodeRef) : ScheduledMachine :=
  { sm with status := some { sm.status.getD .blank with nodeRef := nodeRef } }

def ScheduledMachine.requestDeletion (sm : ScheduledMachine) (now : Time) : Option ScheduledMachine :=
  if sm.deleting then some sm
  else if (sm.metadata.finalizers.getD []).isEmpty then none
  else some { sm with metadata := { sm.metadata with deletionTimestamp := some now } }

def interfere : Interference → World → World
  | .tick nanos, w => { w with now := w.now + nanos, mono := w.mono + nanos }
  | .setClock time, w => { w with now := time }
  | .setLeader leader, w => { w with leader := leader }
  | .editSpec spec, w => match w.sm with
    | some sm => (w.setSm (some { sm with spec := spec })).record (.edited spec)
    | none => w
  | .editFinalizers finalizers, w => w.setSm (w.sm.bind fun sm => sm.setFinalizers finalizers)
  | .requestDeletion, w => match w.sm with
    | some sm => (w.setSm (sm.requestDeletion w.now)).record .deletionRequested
    | none => w
  | .forgeNodeRef nodeRef, w => w.setSm (w.sm.map fun sm => sm.setNodeRef nodeRef)
  | .replace env keep, w =>
    { w with
      env := env
      ours := fun c n => (w.ours c n).filter fun t =>
        keep.taint c n t && ((env.node c n).any fun node => (node.taints.map Taint.content).contains t)
      made := fun key => w.made key && keep.object key && (w.env.object key).isSome && (env.object key).isSome &&
        (!w.env.terminating key || env.terminating key) }

def system : System Resp ReconcilerError Action World Snapshot Interference Fate where
  snapshot w := w.sm.map fun sm => ⟨sm, w.leader⟩
  program snap := reconcileScheduledMachine (ctx.led snap.leader) snap.sm
  opened snap w := w.record (.started w.now w.bound snap.sm)
  serve := serve
  interfere := interfere
  killed w := { w.record .crashed with memory := .empty }
  isLocal
    | .api _ _ => false
    | _ => true

/-- A run begins with a resource nobody has reconciled yet, in any surroundings. -/
structure Fresh (w : World) : Prop where
  log : w.log = []
  memory : w.memory = .empty
  made : ∀ key, w.made key = false
  ours : ∀ client name, w.ours client name = []
  lost : w.lost = []
  sm : ∃ sm, w.sm = some sm ∧ sm.status = none ∧ sm.deleting = false ∧ machineKey sm = w.machine

abbrev RunState := State Resp ReconcilerError Action World Snapshot
abbrev RunAct := Act Interference Fate

end

/-! ## A small cluster

A resource whose provider reports an open window, with nothing created yet. -/

def demoContext : Context where
  isLeader := true
  instanceId := 0
  instanceCount := 1
  operatorInstanceId := none
  forceFinalizerOnTimeout := true
  capiMachineApiVersion := "v1beta1"
  capiMachineApiVersion_plain := by decide
  lowercase := .asciiOnly

def demoSpec : ScheduledMachineSpec where
  schedule := ⟨"spotschedules.5spot.finos.org/v1alpha1", "TimeSchedule", "work"⟩
  enabled := true
  clusterName := "edge"
  bootstrapSpec := ⟨.obj [("apiVersion", .str "bootstrap.cluster.x-k8s.io/v1beta1"), ("kind", .str "K0sWorkerConfig")]⟩
  infrastructureSpec := ⟨.obj [("apiVersion", .str "infrastructure.cluster.x-k8s.io/v1beta1"), ("kind", .str "RemoteMachine")]⟩
  machineTemplate := none
  priority := 50
  gracefulShutdownTimeout := "5m"
  nodeDrainTimeout := "5m"
  killSwitch := false
  nodeTaints := []
  killIfCommands := none
  kubeconfigSecretRef := none
  kata := none

def disabledSpec : ScheduledMachineSpec := { demoSpec with enabled := false }

def killSpec : ScheduledMachineSpec := { demoSpec with killSwitch := true }

def demoMachine : ScheduledMachine where
  metadata := ⟨"spot", some "team", some "uid-1", none, some [Constants.finalizerScheduledMachine]⟩
  spec := demoSpec
  status := none

def scheduleResource : ApiResource := ⟨"spotschedules.5spot.finos.org", "v1alpha1", "timeschedules"⟩

def providerSays (active : Bool) : Json := .obj [("status", .obj [("active", .bool active)])]

def demoEnv : Env where
  node _ _ := none
  pods _ _ := []
  object key := if key = scheduleResource.key "team" "work" then some (providerSays true) else none
  terminating _ := false
  serves _ := true
  secret _ _ := none
  review _ := some ⟨true, none⟩
  served _ _ _ := some scheduleResource
  configMap _ _ _ := false
  secretPresent _ _ _ := false
  ns _ _ := true
  unusable _ := none

def demoWorld : World where
  now := 0
  mono := 0
  leader := true
  machine := machineKey demoMachine
  sm := some demoMachine
  env := demoEnv
  made _ := false
  ours _ _ := []
  lost := []
  memory := .empty
  log := []

theorem demoWorld_fresh : Fresh demoWorld := ⟨rfl, rfl, fun _ => rfl, fun _ _ => rfl, rfl, demoMachine, rfl, rfl, rfl, rfl⟩

/-! ### The same cluster later on -/

def demoNode : Node := ⟨[], none, false, [], none, distinctTaints_nil, isStored_nil⟩

def requestedNode : Node :=
  { demoNode with annotations := some [(Constants.reclaimRequestedAnnotation, Constants.reclaimRequestedValue)] }

/-- A Machine bound to Node `name`. -/
def machineOn (name : String) : Json := .obj [("status", .obj [("nodeRef", .obj [("name", .str name)])])]

/-- Every object is there and the window is open; the Machine is as given. -/
def runningObject (machine : Json) (key : ObjKey) : Option Json :=
  if key = scheduleResource.key "team" "work" then some (providerSays true)
  else if key = machineKey demoMachine then some machine
  else some (.obj [])

/-- The Machine runs on `node-1`, which the management cluster has as well. -/
def runningEnv (node : Node) : Env :=
  { demoEnv with
    object := runningObject (machineOn "node-1")
    node := fun _ name => if name = "node-1" then some node else none }

def serverFault : Fault := ⟨⟨some 500, "internal error"⟩, by decide⟩

def answers (n : Nat) : List RunAct := List.replicate n (.answer .ok)

/-- A machine on `node-1` is active, and the Node is marked for reclaim. -/
def markedForReclaim : List RunAct :=
  .start :: answers 13 ++ [.finish, .interfere (.replace (runningEnv demoNode) .all), .start] ++
    answers 10 ++ [.finish, .interfere (.replace (runningEnv requestedNode) .all), .start]

end FiveSpot
