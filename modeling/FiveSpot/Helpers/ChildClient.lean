import FiveSpot.Helpers.Validation

/-! # Resolving the client of the workload cluster (`src/reconcilers/child_client.rs`)

An explicit `kubeconfigSecretRef` never falls back to the management cluster. Without one
the Secret `<clusterName>-kubeconfig` is tried, and only its absence means that management
and workload cluster are the same.
-/

namespace FiveSpot

set_option autoImplicit false

open Interaction

inductive ResolvedClient where
  | management
  | child (kubeconfig : String) (key : CacheKey) (resourceVersion : String)

def ResolvedClient.client : ResolvedClient → Client
  | .management => .management
  | .child kubeconfig _ _ => .child kubeconfig

def secretFailure (ns secretName : String) (explicit : Bool) (e : KubeError) : ReconcilerError :=
  if e.isNotFound then
    if explicit then .childClusterUnreachable ns secretName
      s!"explicit kubeconfigSecretRef points at Secret {ns}/{secretName} which does not exist"
    else .notFound s!"{ns}/{secretName}"
  else if explicit then .childClusterUnreachable ns secretName s!"GET Secret failed: {e.text}"
  else .kubeError e

def hookEvicted : Option CacheKey → Ctl Unit
  | some key => local_ (.hookEvicted key)
  | none => .pure ()

/-- Build a client from the Secret's data and put it into the cache. Hooks fire after the
map update: the evicted entry first, then the replaced one, then the new client. -/
def buildChildClient (ns secretName key : String) (secret : Secret) : Ctl ResolvedClient := do
  let resourceVersion := secret.resourceVersion.getD ""
  let cacheKey : CacheKey := ⟨ns, secretName⟩
  match (secret.data.bind (fun data => data.find? fun entry => entry.1 == key)).map Prod.snd with
  | none => .fail (.kubeconfigSecretMissingKey ns secretName key)
  | some (.error e) => .fail (.kubeconfigInvalid ns secretName s!"kubeconfig data is not valid UTF-8: {e}")
  | some (.ok kubeconfig) => do
    match ← local_ (.buildClient kubeconfig) with
    | some reason => .fail (.kubeconfigInvalid ns secretName reason)
    | none => do
      let inserted ← local_ (.cacheInsert cacheKey kubeconfig resourceVersion)
      hookEvicted inserted.2
      hookEvicted (if inserted.1 then some cacheKey else none)
      local_ (.hookResolved cacheKey kubeconfig)
      return .child kubeconfig cacheKey resourceVersion

def buildOrGetCached (ns secretName key : String) (explicit : Bool) : Ctl ResolvedClient := do
  let answer ← api .management (.getSecret ns secretName)
  let secret ← orError (secretFailure ns secretName explicit) answer
  let resourceVersion := secret.resourceVersion.getD ""
  match ← local_ (.cacheGet ⟨ns, secretName⟩ resourceVersion) with
  | some kubeconfig => .pure (.child kubeconfig ⟨ns, secretName⟩ resourceVersion)
  | none => buildChildClient ns secretName key secret

def autoSecretName (sm : ScheduledMachine) : String := sm.spec.clusterName ++ "-kubeconfig"

def resolve (sm : ScheduledMachine) : Ctl ResolvedClient :=
  match sm.metadata.ns with
  | none => .fail (.invalidConfig "ScheduledMachine must be namespaced for kubeconfig resolution")
  | some ns => match sm.spec.kubeconfigSecretRef with
    | some ref => buildOrGetCached ns ref.name ref.key true
    | none => do
      match ← (buildOrGetCached ns (autoSecretName sm) Constants.defaultKubeconfigSecretKey false).attempt with
      | .ok resolved => .pure resolved
      | .error (.notFound _) => .pure .management
      | .error e => .fail e

end FiveSpot
