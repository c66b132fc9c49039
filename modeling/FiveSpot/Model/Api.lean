import FiveSpot.Interaction.Program
import FiveSpot.Model.Crd

/-! # Requests of the controller

Everything the reconciler asks of the outside is one of these: a call to an API server
through a client, an operation on its own memory or clock, or a look at a timer. A call
answers with a value or with a `KubeError`; only the status code is ever inspected, the
text is passed on.
-/

namespace FiveSpot

set_option autoImplicit false

/-- Which API server a `kube::Client` talks to. A child client is the kubeconfig document
it was built from. -/
inductive Client where
  | management
  | child (kubeconfig : String)
  deriving DecidableEq

structure KubeError where
  code : Option Nat
  text : String
  deriving DecidableEq

def KubeError.isNotFound (e : KubeError) : Bool := e.code == some Constants.httpNotFound
def KubeError.isAlreadyExists (e : KubeError) : Bool := e.code == some Constants.httpAlreadyExists

inductive ReconcilerError where
  | kubeError (e : KubeError)
  | notFound (text : String)
  | invalidConfig (text : String)
  | scheduleError (text : String)
  | capiError (text : String)
  | validationError (text : String)
  | permissionDenied (text : String)
  | timeoutError (text : String)
  | kubeconfigSecretMissingKey (ns name key : String)
  | kubeconfigInvalid (ns name reason : String)
  | childClusterUnreachable (ns name reason : String)

/-- The `Display` text of an error. -/
def ReconcilerError.display : ReconcilerError → String
  | .kubeError e => s!"Kubernetes API error: {e.text}"
  | .notFound text => s!"Resource not found: {text}"
  | .invalidConfig text => s!"Invalid configuration: {text}"
  | .scheduleError text => s!"Schedule evaluation error: {text}"
  | .capiError text => s!"CAPI operation failed: {text}"
  | .validationError text => s!"Security validation failed: {text}"
  | .permissionDenied text => s!"Permission denied: {text}"
  | .timeoutError text => s!"Operation timed out: {text}"
  | .kubeconfigSecretMissingKey ns name key =>
    s!"Kubeconfig Secret {ns}/{name} is missing data key {key}"
  | .kubeconfigInvalid ns name reason =>
    s!"Kubeconfig in Secret {ns}/{name} is invalid: {reason}"
  | .childClusterUnreachable ns name reason =>
    s!"Child cluster {ns}/{name} unreachable: {reason}"

inductive EventType where
  | normal
  | warning
  deriving DecidableEq

structure KubeEvent where
  type : EventType
  reason : String
  note : String
  action : String
  deriving DecidableEq

structure ApiResource where
  group : String
  version : String
  plural : String
  deriving DecidableEq

/-- What the API server stores an object under; versions are views of one object. -/
structure ObjKey where
  group : String
  plural : String
  ns : String
  name : String
  deriving DecidableEq

def ApiResource.key (ar : ApiResource) (ns name : String) : ObjKey :=
  ⟨ar.group, ar.plural, ns, name⟩

structure ResourceAttributes where
  verb : String
  group : String
  version : String
  resource : String
  ns : String
  deriving DecidableEq

structure SubjectAccessReviewStatus where
  allowed : Bool
  reason : Option String

structure Secret where
  resourceVersion : Option String
  /-- `data`; bytes that are not UTF-8 are given by the text of the decoding error. -/
  data : Option (List (String × Except String String))

structure CacheKey where
  ns : String
  secretName : String
  deriving DecidableEq

/-- The body of a status merge patch. Absent optional fields leave the stored value alone. -/
inductive StatusPatch where
  | phase (target : Phase) (message : String) (conditions : List Condition) (inSchedule ready : Bool)
  | spotSchedule (s : SpotScheduleStatus)
  | machineRefs (providerId : Option String) (nodeRef : Option NodeRef)
  | appliedNodeTaints (applied : List NodeTaint)
  deriving DecidableEq

/-- The body of a merge patch on a Node. A `none` value deletes the key. -/
structure NodePatch where
  labels : List (String × Option String)
  annotations : List (String × Option String)
  unschedulable : Option Bool
  deriving DecidableEq

/-- The table `render_reclaim_toml` serialises into the per-node ConfigMap. -/
structure ReclaimToml where
  matchCommands : List String
  matchArgvSubstrings : List String
  pollIntervalMs : Nat

inductive ApiCall where
  | publishEvent (e : KubeEvent)
  | patchStatus (ns name : String) (body : StatusPatch)
  | patchFinalizers (ns name : String) (finalizers : List String)
  | patchEnabled (ns name : String) (enabled : Bool)
  | accessReview (attributes : ResourceAttributes)
  | create (ar : ApiResource) (ns name : String) (body : Json)
  | delete (ar : ApiResource) (ns name : String)
  | get (ar : ApiResource) (ns name : String)
  | pinnedKind (group version kind : String)
  | getSecret (ns name : String)
  | getNode (name : String)
  | patchNode (name : String) (body : NodePatch)
  | applyNodeTaints (name ownership : String) (taints : List Taint)
  | listPods (nodeName : String)
  | deletePod (ns name : String) (gracePeriodSeconds : Nat)
  | applyConfigMap (ns name : String) (body : ReclaimToml)
  | deleteConfigMap (ns name : String)
  | configMapExists (ns name : String)
  | secretExists (ns name : String)
  | namespaceExists (name : String)

abbrev ApiCall.Answer : ApiCall → Type
  | .accessReview _ => Option SubjectAccessReviewStatus
  | .get _ _ _ => Json
  | .pinnedKind _ _ _ => ApiResource
  | .getSecret _ _ => Secret
  | .getNode _ => Node
  | .listPods _ => List Pod
  | .configMapExists _ _ => Bool
  | .secretExists _ _ => Bool
  | .namespaceExists _ => Bool
  | _ => Unit

/-- Calls on Node and Pod objects, which live where the machine's workload runs. -/
def ApiCall.isNodeOrPod : ApiCall → Bool
  | .getNode _ | .patchNode _ _ | .applyNodeTaints _ _ _ | .listPods _ | .deletePod _ _ _ => true
  | _ => false

inductive LocalOp where
  | utcNow
  | instantNow
  | cacheGet (key : CacheKey) (resourceVersion : String)
  | cacheInsert (key : CacheKey) (kubeconfig resourceVersion : String)
  | hookEvicted (key : CacheKey)
  | hookResolved (key : CacheKey) (kubeconfig : String)
  | buildClient (kubeconfig : String)
  | recordEmergencyReclaim (ns name : String)
  | recordEmergencyReclaimEvent (key : String) (now : Time)

abbrev LocalOp.Answer : LocalOp → Type
  | .utcNow => Time
  | .instantNow => Nat
  | .cacheGet _ _ => Option String
  | .cacheInsert _ _ _ => Bool × Option CacheKey
  | .buildClient _ => Option String
  | .recordEmergencyReclaimEvent _ _ => Bool
  | _ => Unit

inductive Req where
  | api (client : Client) (call : ApiCall)
  | loc (op : LocalOp)
  | timer (seconds : Nat)

abbrev Resp : Req → Type
  | .api _ call => Except KubeError call.Answer
  | .loc op => op.Answer
  | .timer _ => Bool

abbrev Ctl (α : Type) := Interaction.Prog Resp ReconcilerError α

open Interaction

def api (client : Client) (call : ApiCall) : Ctl (Except KubeError call.Answer) :=
  Prog.request (Req.api client call)

def local_ (op : LocalOp) : Ctl op.Answer := Prog.request (Req.loc op)

/-- The `?` operator on a call: a `kube::Error` becomes `KubeError`. -/
def orKubeError {α : Type} : Except KubeError α → Ctl α
  | .ok a => .pure a
  | .error e => .fail (.kubeError e)

/-- A failed call mapped into another error. -/
def orError {α : Type} (f : KubeError → ReconcilerError) : Except KubeError α → Ctl α
  | .ok a => .pure a
  | .error e => .fail (f e)

/-- Run a program whose failure is only logged. -/
def bestEffort {α : Type} (p : Ctl α) : Ctl Unit :=
  (p.attempt : Ctl (Except ReconcilerError α)).bind fun _ => .pure ()

inductive Action where
  | requeue (seconds : Nat)
  | awaitChange
  deriving DecidableEq

/-- The parts of `Context` that stay fixed while the controller runs. `operatorInstanceId`
is the environment variable, `capiMachineApiVersion` the version discovered at start-up. A
version is one path segment. -/
structure Context where
  isLeader : Bool
  instanceId : Nat
  instanceCount : Nat
  operatorInstanceId : Option String
  forceFinalizerOnTimeout : Bool
  capiMachineApiVersion : String
  capiMachineApiVersion_plain : '/' ∉ capiMachineApiVersion.toList
  lowercase : Text.Lowercase

/-- The context as a reconcile finds it: leadership is read once, at its start. -/
abbrev Context.led (ctx : Context) (leader : Bool) : Context := { ctx with isLeader := leader }

end FiveSpot
