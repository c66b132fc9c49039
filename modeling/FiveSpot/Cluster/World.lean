import FiveSpot.Helpers.Capi

/-! # The world around the reconciler

One `ScheduledMachine` on the management cluster, the API servers with everything else on
them, the clocks, the memory of the controller process, and a log of what happened. The log
is never read by the program; properties of whole runs are statements about it.
-/

namespace FiveSpot

set_option autoImplicit false

/-- Everything on the API servers besides the `ScheduledMachine` itself. -/
structure Env where
  node : Client → String → Option Node
  pods : Client → String → List Pod
  object : ObjKey → Option Json
  /-- The object has been deleted and is still there. -/
  terminating : ObjKey → Bool
  /-- The API server serves the group, version and plural. -/
  serves : ApiResource → Bool
  secret : String → String → Option Secret
  review : ResourceAttributes → Option SubjectAccessReviewStatus
  served : String → String → String → Option ApiResource
  configMap : Client → String → String → Bool
  secretPresent : Client → String → String → Bool
  ns : Client → String → Bool
  unusable : String → Option String

/-- What a controller process keeps between reconciles and loses when it dies. The client cache
is ordered by last use, newest first. -/
structure Memory where
  cache : List (CacheKey × String × String)
  recentReclaims : String → List Time
  reclaimCount : String → String → Nat

def Memory.empty : Memory := ⟨[], fun _ => [], fun _ _ => 0⟩

inductive Event where
  /-- A reconcile read the resource; `bound` is the Node its Machine had then. -/
  | started (time : Time) (bound : Option String) (sm : ScheduledMachine)
  /-- A call was answered; `applied` says whether the server carried it out. -/
  | called (time : Time) (bound : Option String) (client : Client) (call : ApiCall) (applied : Bool)
      (error : Option KubeError)
  | timedOut
  | edited (spec : ScheduledMachineSpec)
  | deletionRequested
  | crashed

structure World where
  now : Time
  mono : Nat
  leader : Bool
  /-- Where the Machine of the resource is, or would be. -/
  machine : ObjKey
  sm : Option ScheduledMachine
  env : Env
  /-- The object under the key was created by the controller for this resource. -/
  made : ObjKey → Bool
  /-- Taints the controller put on a Node and nobody has taken off since. -/
  ours : Client → String → List (String × Option String × String)
  /-- Taints of others that a write of the controller took off a Node or changed. -/
  lost : List (Client × String × Taint)
  memory : Memory
  log : List Event

/-! ## Patches -/

def SpotScheduleStatus.merge (old : Option SpotScheduleStatus) (new : SpotScheduleStatus) :
    SpotScheduleStatus where
  resolved := new.resolved
  active := new.active.or (old.bind (·.active))
  reason := new.reason.or (old.bind (·.reason))
  message := new.message.or (old.bind (·.message))
  providerGeneration := new.providerGeneration.or (old.bind (·.providerGeneration))
  lastTransitionTime := new.lastTransitionTime.or (old.bind (·.lastTransitionTime))

def NodeRef.merge (old : Option NodeRef) (new : NodeRef) : NodeRef :=
  { new with uid := new.uid.or (old.bind (·.uid)) }

/-- A merge patch on the status; absent fields keep their value. -/
def StatusPatch.apply (status : ScheduledMachineStatus) : StatusPatch → ScheduledMachineStatus
  | .phase target message conditions inSchedule ready =>
    { status with phase := some target, message := some message, conditions := conditions,
                  inSchedule := inSchedule, ready := ready }
  | .spotSchedule s => { status with spotSchedule := some (SpotScheduleStatus.merge status.spotSchedule s) }
  | .machineRefs providerId nodeRef =>
    { status with providerId := providerId.or status.providerId,
                  nodeRef := (nodeRef.map (NodeRef.merge status.nodeRef)).or status.nodeRef }
  | .appliedNodeTaints applied => { status with appliedNodeTaints := applied }

def ScheduledMachine.patchStatus (sm : ScheduledMachine) (body : StatusPatch) : ScheduledMachine :=
  { sm with status := some (body.apply (sm.status.getD .blank)) }

def ScheduledMachine.setEnabled (sm : ScheduledMachine) (enabled : Bool) : ScheduledMachine :=
  { sm with spec := { sm.spec with enabled := enabled } }

/-- The object goes away once it is being deleted and its last finalizer is gone. -/
def ScheduledMachine.setFinalizers (sm : ScheduledMachine) (finalizers : List String) :
    Option ScheduledMachine :=
  if sm.deleting && finalizers.isEmpty then none
  else some { sm with metadata := { sm.metadata with finalizers := some finalizers } }

def mergeKeys (m : StringMap) (changes : List (String × Option String)) : StringMap :=
  changes.foldl (fun m change => match change.2 with
    | some value => StringMap.insert change.1 value m
    | none => StringMap.erase change.1 m) m

def NodePatch.apply (node : Node) (body : NodePatch) : Node :=
  { node with
    labels := mergeKeys node.labels body.labels
    annotations := if body.annotations.isEmpty then node.annotations
      else some (mergeKeys (node.annotations.getD []) body.annotations)
    unschedulable := body.unschedulable.getD node.unschedulable }

def Node.setTaints (node : Node) (ownership : String) (taints : List Taint) (h : DistinctTaints taints) : Node :=
  { node with
    taints := taints.map Taint.stored
    distinct := h.stored
    stored := by
      intro t ht
      obtain ⟨t, -, rfl⟩ := List.mem_map.mp ht
      exact t.isStored_stored
    annotations := some (StringMap.insert Constants.appliedTaintsAnnotation ownership
      (node.annotations.getD [])) }

/-! ## Calls -/

def notFoundError : KubeError := ⟨some Constants.httpNotFound, "not found"⟩
def alreadyExistsError : KubeError := ⟨some Constants.httpAlreadyExists, "already exists"⟩
def invalidError : KubeError := ⟨some 422, "invalid"⟩

def World.setSm (w : World) (sm : Option ScheduledMachine) : World := { w with sm := sm }

def World.setNode (w : World) (client : Client) (name : String) (node : Node) : World :=
  { w with env := { w.env with
      node := fun c n => if c = client ∧ n = name then some node else w.env.node c n } }

/-- The object an endpoint finds; an endpoint that is not served finds nothing. -/
def World.stored (w : World) (ar : ApiResource) (ns name : String) : Option Json :=
  if w.env.serves ar then w.env.object (ar.key ns name) else none

def World.addObject (w : World) (key : ObjKey) (value : Json) : World :=
  { w with
    env := { w.env with
      object := fun k => if k = key then some value else w.env.object k
      terminating := fun k => if k = key then false else w.env.terminating k }
    made := fun k => if k = key then true else w.made k }

/-- The object is there and not being deleted. -/
def World.live (w : World) (key : ObjKey) : Bool := (w.env.object key).isSome && !w.env.terminating key

/-- The controller created the object for this resource, and nobody has deleted it. -/
def World.owns (w : World) (key : ObjKey) : Bool := w.made key && w.live key

/-- Deletion only marks the object; it goes away later. -/
def World.terminate (w : World) (key : ObjKey) : World :=
  { w with env := { w.env with
      terminating := fun k => if k = key then true else w.env.terminating k } }

def World.setConfigMap (w : World) (client : Client) (ns name : String) (present : Bool) : World :=
  { w with env := { w.env with
      configMap := fun c n m =>
        if c = client ∧ n = ns ∧ m = name then present else w.env.configMap c n m } }

def World.removePod (w : World) (client : Client) (ns name : String) : World :=
  { w with env := { w.env with
      pods := fun c n =>
        if c = client then
          (w.env.pods c n).filter fun pod => !(pod.ns == some ns && pod.name == some name)
        else w.env.pods c n } }

/-- The resource itself lives on the management cluster, under its own namespace and name. -/
def World.findSm (w : World) (client : Client) (ns name : String) : Option ScheduledMachine :=
  match client with
  | .management => w.sm.filter fun sm => sm.metadata.name == name && sm.metadata.ns == some ns
  | .child _ => none

def orNotFound {α β : Type} (found : Option α) (f : α → β) : Except KubeError β :=
  match found with
  | some a => .ok (f a)
  | none => .error notFoundError

/-- Taints a write newly puts on a Node become the controller's; those it drops are nobody's. -/
def taintsAfterApply (current : List Taint) (ours : List (String × Option String × String))
    (written : List Taint) : List (String × Option String × String) :=
  (written.map Taint.content).filter fun t => ours.contains t || !(current.map Taint.content).contains t

/-- Taints of others that a write does not leave as they are. -/
def taintsLost (current : List Taint) (ours : List (String × Option String × String)) (written : List Taint) :
    List Taint :=
  current.filter fun t => !ours.contains t.content && !written.contains t

/-- What an API server does with a call it carries out. -/
def perform (w : World) (client : Client) : (call : ApiCall) → Except KubeError (call.Answer × World)
  | .publishEvent _ => .ok ((), w)
  | .patchStatus ns name body => orNotFound (w.findSm client ns name) fun sm =>
      ((), w.setSm (some (sm.patchStatus body)))
  | .patchFinalizers ns name finalizers => orNotFound (w.findSm client ns name) fun sm =>
      ((), w.setSm (sm.setFinalizers finalizers))
  | .patchEnabled ns name enabled => orNotFound (w.findSm client ns name) fun sm =>
      ((), w.setSm (some (sm.setEnabled enabled)))
  | .accessReview attributes => .ok (w.env.review attributes, w)
  | .create ar ns name body =>
    if w.env.serves ar then match w.env.object (ar.key ns name) with
      | some _ => .error alreadyExistsError
      | none => .ok ((), w.addObject (ar.key ns name) body)
    else .error notFoundError
  | .delete ar ns name => orNotFound (w.stored ar ns name) fun _ => ((), w.terminate (ar.key ns name))
  | .get ar ns name => orNotFound (w.stored ar ns name) fun object => (object, w)
  | .pinnedKind group version kind => orNotFound (w.env.served group version kind) fun ar => (ar, w)
  | .getSecret ns name => orNotFound (w.env.secret ns name) fun secret => (secret, w)
  | .getNode name => orNotFound (w.env.node client name) fun node => (node, w)
  | .patchNode name body => orNotFound (w.env.node client name) fun node =>
      ((), w.setNode client name (body.apply node))
  | .applyNodeTaints name ownership taints => match w.env.node client name with
    | none => .error notFoundError
    | some node =>
      if h : DistinctTaints taints then
        .ok ((), { w.setNode client name (node.setTaints ownership taints h) with
          ours := fun c n => if c = client ∧ n = name then
            taintsAfterApply node.taints (w.ours c n) (taints.map Taint.stored) else w.ours c n
          lost := (taintsLost node.taints (w.ours client name) (taints.map Taint.stored)).map (fun t => (client, name, t)) ++
            w.lost })
      else .error invalidError
  | .listPods nodeName => .ok (w.env.pods client nodeName, w)
  | .deletePod ns name _ => .ok ((), w.removePod client ns name)
  | .applyConfigMap ns name _ => .ok ((), w.setConfigMap client ns name true)
  | .deleteConfigMap ns name =>
    if w.env.configMap client ns name then .ok ((), w.setConfigMap client ns name false)
    else .error notFoundError
  | .configMapExists ns name => .ok (w.env.configMap client ns name, w)
  | .secretExists ns name => .ok (w.env.secretPresent client ns name, w)
  | .namespaceExists name => .ok (w.env.ns client name, w)

/-! ## Local operations -/

def pruneOldReclaimEvents (events : List Time) (now : Time) : List Time :=
  events.dropWhile fun t => decide (t < now - Constants.rapidReReclaimWindowSecs * nanosPerSecond)

/-- `record_emergency_reclaim_event`: the deque after the call, oldest first, and whether the
threshold is reached. -/
def recordEmergencyReclaimEvent (events : List Time) (now : Time) : List Time × Bool :=
  let appended := pruneOldReclaimEvents events now ++ [now]
  let kept := appended.drop (appended.length - Constants.rapidReReclaimMaxTracked)
  (kept, decide (Constants.rapidReReclaimThreshold ≤ kept.length))

def Memory.cacheGet (m : Memory) (key : CacheKey) (resourceVersion : String) : Option String × Memory :=
  match m.cache.find? fun entry => entry.1 == key with
  | some entry =>
    if entry.2.2 = resourceVersion then
      (some entry.2.1, { m with cache := entry :: m.cache.filter fun other => other.1 != key })
    else (none, m)
  | none => (none, m)

/-- Insert a client. A full cache first drops its least recently used entry, unless the key is
already in it. -/
def Memory.cacheInsert (m : Memory) (key : CacheKey) (kubeconfig resourceVersion : String) :
    (Bool × Option CacheKey) × Memory :=
  let present := m.cache.any fun entry => entry.1 == key
  let full := decide (Constants.childClientCacheCap ≤ m.cache.length) && !present
  let kept := if full then m.cache.dropLast else m.cache
  ((present, if full then m.cache.getLast?.map Prod.fst else none),
    { m with cache := (key, kubeconfig, resourceVersion) :: kept.filter fun other => other.1 != key })

def performLocal (w : World) : (op : LocalOp) → op.Answer × World
  | .utcNow => (w.now, w)
  | .instantNow => (w.mono, w)
  | .cacheGet key resourceVersion =>
    ((w.memory.cacheGet key resourceVersion).1, { w with memory := (w.memory.cacheGet key resourceVersion).2 })
  | .cacheInsert key kubeconfig resourceVersion =>
    ((w.memory.cacheInsert key kubeconfig resourceVersion).1,
      { w with memory := (w.memory.cacheInsert key kubeconfig resourceVersion).2 })
  | .hookEvicted _ => ((), w)
  | .hookResolved _ _ => ((), w)
  | .buildClient kubeconfig => (w.env.unusable kubeconfig, w)
  | .recordEmergencyReclaim ns name => ((), { w with memory := { w.memory with
      reclaimCount := fun n m =>
        if n = ns ∧ m = name then w.memory.reclaimCount n m + 1 else w.memory.reclaimCount n m } })
  | .recordEmergencyReclaimEvent key now =>
    ((recordEmergencyReclaimEvent (w.memory.recentReclaims key) now).2,
      { w with memory := { w.memory with
          recentReclaims := fun k =>
            if k = key then (recordEmergencyReclaimEvent (w.memory.recentReclaims key) now).1
            else w.memory.recentReclaims k } })

end FiveSpot
