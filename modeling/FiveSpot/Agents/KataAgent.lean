import Mathlib
import FiveSpot.Cluster.World
import FiveSpot.Helpers.Agents
import FiveSpot.Interaction.System

/-! # The kata-config agent (`src/kata_config_agent.rs`, `src/bin/kata_config_agent.rs`)

Every tick it reads two annotations of its Node: the reference the controller has put there and the hash it has
itself recorded last. It brings the drop-in of its host in line with the source and restarts the service of the
host when the content is new. Without a reference it takes the drop-in away and then its own label.
-/

namespace FiveSpot.KataAgent

set_option autoImplicit false

open Interaction

/-! ## Outside the repository -/

structure KataRef where
  ns : String
  kind : String
  name : String
  key : String
  restartService : String
  deriving DecidableEq

/-- The digest of `sha2`, `String::from_utf8_lossy` and the deserialiser of `KataRef`. -/
structure Platform where
  digest : ByteArray → List UInt8
  fromUtf8Lossy : ByteArray → String
  parseKataRef : String → Except String KataRef

/-! ## Calls -/

structure ConfigMapData where
  data : Option StringMap
  deriving DecidableEq

structure SecretBytes where
  data : Option (List (String × ByteArray))
  deriving DecidableEq

/-- The API calls and file operations of one tick, and the restart. -/
inductive Call where
  | getNode
  | patchNode (body : NodePatch)
  | getConfigMap (ns name : String)
  | getSecret (ns name : String)
  /-- The physical part of `confine_dest_path`. -/
  | resolveDest
  | readDest
  | createParent
  | removeTemp
  | writeTemp (bytes : ByteArray)
  | chmodTemp
  | renameTemp
  | removeDest
  /-- The intended hash says what the restart is for; the executor does not get it. -/
  | restart (service intended : String)

abbrev Call.Answer : Call → Type
  | .getNode => Node
  | .getConfigMap _ _ => Option ConfigMapData
  | .getSecret _ _ => Option SecretBytes
  | .readDest => Option ByteArray
  | .removeDest => Bool
  | _ => Unit

abbrev Resp (call : Call) : Type := Except String call.Answer

abbrev Tick (α : Type) : Type := Prog Resp String α

def ask (call : Call) : Tick call.Answer := .call call Prog.ofExcept

/-- `with_context` puts its own words in place of the error. -/
def askIn (context : String) (call : Call) : Tick call.Answer :=
  .call call fun
    | .ok answer => .pure answer
    | .error _ => .fail context

/-! ## Pure helpers -/

def hexDigit (n : Nat) : Char := if n < 10 then Char.ofNat (48 + n) else Char.ofNat (87 + n)

def hexText (bytes : List UInt8) : String :=
  String.ofList (bytes.flatMap fun byte => [hexDigit (byte.toNat / 16), hexDigit (byte.toNat % 16)])

def absentHashMarker : String := "absent"

inductive SyncAction where
  | write
  | delete
  | noOp
  deriving DecidableEq

inductive SyncOutcome where
  | wrote (hash : String)
  | deleted
  | unchanged (hash : Option String)
  deriving DecidableEq

/-- The hash an outcome implies is now on the host. -/
def intendedHashFor : SyncOutcome → String
  | .wrote hash | .unchanged (some hash) => hash
  | .deleted | .unchanged none => absentHashMarker

def needsRestart (prevAppliedHash : Option String) (intendedHash : String) : Bool := prevAppliedHash != some intendedHash

def recordAppliedPatch (hash : String) : NodePatch where
  labels := []
  annotations := [(Constants.kataConfigAppliedAnnotation, some hash)]
  unschedulable := none

def clearOptinPatch : NodePatch where
  labels := [(Constants.kataConfigLabel, none)]
  annotations := [(Constants.kataConfigAppliedAnnotation, none)]
  unschedulable := none

def annotationOf (node : Node) (key : String) : Option String := StringMap.lookup key (node.annotations.getD [])

structure NodeState where
  kataRef : Option KataRef
  applied : Option String

def KataRef.inConfigMap (kref : KataRef) (found : Option ConfigMapData) : Option String :=
  (found.bind (·.data)).bind (StringMap.lookup kref.key)

/-! ## One tick -/

section

variable (platform : Platform) (nodeName : String)

def sha256Hex (bytes : ByteArray) : String := hexText (platform.digest bytes)

def KataRef.inSecret (kref : KataRef) (found : Option SecretBytes) : Option String :=
  ((found.bind (·.data)).bind (·.lookup kref.key)).map platform.fromUtf8Lossy

def decideAction (source : Option ByteArray) (destHash : Option String) : SyncAction :=
  match source with
  | some bytes => if destHash = some (sha256Hex platform bytes) then .noOp else .write
  | none => if destHash.isSome then .delete else .noOp

def atomicWrite (content : ByteArray) : Tick Unit := do
  ask .createParent
  -- a leftover of a crashed run
  Prog.call .removeTemp fun _ => do
    ask (.writeTemp content)
    ask .chmodTemp
    Prog.call .renameTemp fun
      | .ok _ => .pure ()
      | .error e => Prog.call .removeTemp fun _ => .fail e

def syncContent (content : Option ByteArray) : Tick SyncOutcome := do
  let dest ← ask .readDest
  let destHash := Option.map (sha256Hex platform) dest
  match decideAction platform content destHash, content with
  | .write, some bytes => do
    atomicWrite bytes
    return .wrote (sha256Hex platform bytes)
  | .write, none => .fail "Write action implies the content is present"
  | .delete, _ => do
    let _ ← ask .removeDest
    return .deleted
  | .noOp, _ => return .unchanged destHash

def readNodeState : Tick NodeState := do
  let node ← askIn ("GET Node " ++ nodeName) .getNode
  match annotationOf node Constants.kataConfigRefAnnotation with
  | none => return ⟨none, annotationOf node Constants.kataConfigAppliedAnnotation⟩
  | some raw => match platform.parseKataRef raw with
    | .ok kref => return ⟨some kref, annotationOf node Constants.kataConfigAppliedAnnotation⟩
    | .error _ => .fail ("parsing " ++ Constants.kataConfigRefAnnotation ++ " on Node " ++ nodeName)

def fetchContent (kref : KataRef) : Tick (Option String) :=
  if kref.kind = "ConfigMap" then do
    let found ← ask (.getConfigMap kref.ns kref.name)
    return kref.inConfigMap found
  else if kref.kind = "Secret" then do
    let found ← ask (.getSecret kref.ns kref.name)
    return kref.inSecret platform found
  else .fail ("unknown kata source kind " ++ Text.quoted kref.kind ++ " (expected ConfigMap or Secret)")

def recordApplied (hash : String) : Tick Unit :=
  askIn ("recording applied hash on Node " ++ nodeName) (.patchNode (recordAppliedPatch hash))

def clearOptin : Tick Unit :=
  askIn ("clearing kata opt-in on Node " ++ nodeName) (.patchNode clearOptinPatch)

def restartIfNeeded (prevAppliedHash : Option String) (intendedHash service : String) : Tick Bool :=
  if needsRestart prevAppliedHash intendedHash then do
    askIn ("restarting host service " ++ service) (.restart service intendedHash)
    return true
  else return false

/-- The end of a delivery: the hash is recorded before the restart. -/
def activate (prevHash : Option String) (intendedHash service : String) : Tick Unit :=
  if needsRestart prevHash intendedHash then do
    recordApplied nodeName intendedHash
    let _ ← restartIfNeeded prevHash intendedHash service
    return ()
  else return ()

def reconcileOnce : Tick Unit := do
  let state ← readNodeState platform nodeName
  match state.kataRef with
  | none => do
    ask .resolveDest
    let _ ← syncContent platform none
    clearOptin nodeName
  | some kref => do
    ask .resolveDest
    let content ← fetchContent platform kref
    let outcome ← syncContent platform (content.map String.toUTF8)
    activate nodeName state.applied (intendedHashFor outcome) kref.restartService

end

/-! ## The host and its surroundings -/

structure Sources where
  configMap : String → String → Option ConfigMapData
  secret : String → String → Option SecretBytes

inductive Event where
  /-- The reference or a source object got another value. -/
  | editedRef
  | editedSource
  | recorded (hash : String)
  /-- The service was restarted for a hash; the drop-in was then as it says. -/
  | restarted (intended : String) (dest : Option ByteArray)
  deriving DecidableEq

/-- The Node as the API server has it, the sources, and the host with its drop-in. -/
structure Site where
  node : Node
  sources : Sources
  dest : Option ByteArray
  temp : Option ByteArray
  /-- The process of the agent. -/
  running : Bool
  log : List Event

inductive Fate where
  | ok
  | fail (error : String)
  /-- It took effect, but an error is reported. -/
  | lost (error : String)

def Site.label (site : Site) : Option String := StringMap.lookup Constants.kataConfigLabel site.node.labels
def Site.ref (site : Site) : Option String := annotationOf site.node Constants.kataConfigRefAnnotation
def Site.applied (site : Site) : Option String := annotationOf site.node Constants.kataConfigAppliedAnnotation

/-- What a patch does to the log. -/
def recordedBy (body : NodePatch) : List Event :=
  match body.annotations.lookup Constants.kataConfigAppliedAnnotation with
  | some (some hash) => [.recorded hash]
  | _ => []

def perform (site : Site) : (call : Call) → Except String (call.Answer × Site)
  | .getNode => .ok (site.node, site)
  | .patchNode body => .ok ((), { site with node := body.apply site.node, log := recordedBy body ++ site.log })
  | .getConfigMap ns name => .ok (site.sources.configMap ns name, site)
  | .getSecret ns name => .ok (site.sources.secret ns name, site)
  | .resolveDest => .ok ((), site)
  | .readDest => .ok (site.dest, site)
  | .createParent => .ok ((), site)
  | .removeTemp => .ok ((), { site with temp := none })
  | .writeTemp bytes => .ok ((), { site with temp := some bytes })
  | .chmodTemp => .ok ((), site)
  | .renameTemp => match site.temp with
    | some bytes => .ok ((), { site with dest := some bytes, temp := none })
    | none => .error "No such file or directory"
  | .removeDest => .ok (site.dest.isSome, { site with dest := none })
  | .restart _ intended => .ok ((), { site with log := .restarted intended site.dest :: site.log })

def serve (site : Site) (call : Call) (fate : Fate) : Resp call × Site :=
  match fate, perform site call with
  | .ok, .ok (answer, after) => (.ok answer, after)
  | .ok, .error e => (.error e, site)
  | .fail e, _ => (.error e, site)
  | .lost e, .ok (_, after) => (.error e, after)
  | .lost e, .error _ => (.error e, site)

/-- What else happens around the agent. -/
inductive Interference where
  /-- The controller delivers a reference or takes it back. -/
  | deliver (kata : KataConfig)
  | withdraw
  | putConfigMap (ns name : String) (value : Option ConfigMapData)
  | putSecret (ns name : String) (value : Option SecretBytes)
  /-- The DaemonSet starts the agent where the label is. -/
  | boot
  | stop
  /-- Somebody edits the drop-in by hand. -/
  | drift (dest : Option ByteArray)

/-- The two patches of `reconcile_kata_config_delivery`. -/
def deliveryPatch : Option KataConfig → NodePatch
  | some kata => kataDeliverPatch kata
  | none => buildKataConfigRefAnnotationPatch none

def Site.patched (site : Site) (body : NodePatch) : Site :=
  let after := { site with node := body.apply site.node }
  if after.ref = site.ref then after else { after with log := .editedRef :: site.log }

def Sources.setConfigMap (sources : Sources) (ns name : String) (value : Option ConfigMapData) : Sources :=
  { sources with configMap := fun n m => if n = ns ∧ m = name then value else sources.configMap n m }

def Sources.setSecret (sources : Sources) (ns name : String) (value : Option SecretBytes) : Sources :=
  { sources with secret := fun n m => if n = ns ∧ m = name then value else sources.secret n m }

def Site.withSources (site : Site) (sources : Sources) : Site :=
  { site with sources := sources, log := .editedSource :: site.log }

def Site.putConfigMap (site : Site) (ns name : String) (value : Option ConfigMapData) : Site :=
  if site.sources.configMap ns name = value then site else site.withSources (site.sources.setConfigMap ns name value)

def Site.putSecret (site : Site) (ns name : String) (value : Option SecretBytes) : Site :=
  if site.sources.secret ns name = value then site else site.withSources (site.sources.setSecret ns name value)

def interfere : Interference → Site → Site
  | .deliver kata, site => site.patched (deliveryPatch (some kata))
  | .withdraw, site => site.patched (deliveryPatch none)
  | .putConfigMap ns name value, site => site.putConfigMap ns name value
  | .putSecret ns name value, site => site.putSecret ns name value
  | .boot, site => { site with running := site.running || decide (site.label = some Constants.kataConfigLabelEnabled) }
  | .stop, site => { site with running := false }
  | .drift dest, site => { site with dest := dest }

def system (platform : Platform) (nodeName : String) : System Resp String Unit Site Unit Interference Fate where
  snapshot site := if site.running then some () else none
  program _ := reconcileOnce platform nodeName
  opened _ site := site
  serve := serve
  interfere := interfere
  killed site := { site with running := false }
  isLocal _ := false

/-! ## Effects -/

@[simp] theorem Site.patched_node (site : Site) (body : NodePatch) : (site.patched body).node = body.apply site.node := by
  unfold Site.patched
  dsimp only
  split <;> rfl

@[simp] theorem Site.patched_dest (site : Site) (body : NodePatch) : (site.patched body).dest = site.dest := by
  unfold Site.patched
  dsimp only
  split <;> rfl

theorem Site.putConfigMap_eq (site : Site) (ns name : String) (value : Option ConfigMapData) :
    site.putConfigMap ns name value = site ∨
      site.putConfigMap ns name value = site.withSources (site.sources.setConfigMap ns name value) := by
  unfold Site.putConfigMap
  split
  · exact .inl rfl
  · exact .inr rfl

theorem Site.putSecret_eq (site : Site) (ns name : String) (value : Option SecretBytes) :
    site.putSecret ns name value = site ∨
      site.putSecret ns name value = site.withSources (site.sources.setSecret ns name value) := by
  unfold Site.putSecret
  split
  · exact .inl rfl
  · exact .inr rfl

theorem perform_renameTemp (site : Site) : perform site .renameTemp = match site.temp with
    | some bytes => .ok ((), { site with dest := some bytes, temp := none })
    | none => .error "No such file or directory" := rfl

theorem renamed_eq {site after : Site} {answer : Unit} (h : perform site .renameTemp = .ok (answer, after)) :
    after = { site with dest := site.temp, temp := none } := by
  rw [perform_renameTemp] at h
  split at h
  · rename_i htemp
    cases h
    rw [htemp]
  · cases h

theorem lookup_mergeKeys (m : StringMap) (key : String) (value : Option String) (other : String) :
    StringMap.lookup other (mergeKeys m [(key, value)]) = if other = key then value else StringMap.lookup other m := by
  cases value with
  | none =>
    split
    · rename_i h
      rw [h]
      exact StringMap.lookup_erase_self key m
    · rename_i h
      exact StringMap.lookup_erase_of_ne h m
  | some value =>
    split
    · rename_i h
      rw [h]
      exact StringMap.lookup_insert_self key value m
    · rename_i h
      exact StringMap.lookup_insert_of_ne h value m

theorem annotationOf_apply (node : Node) (labels : List (String × Option String)) (unschedulable : Option Bool)
    (key : String) (value : Option String) (other : String) :
    annotationOf (NodePatch.apply node ⟨labels, [(key, value)], unschedulable⟩) other =
      if other = key then value else annotationOf node other :=
  lookup_mergeKeys (node.annotations.getD []) key value other

theorem ref_record (node : Node) (hash : String) :
    annotationOf ((recordAppliedPatch hash).apply node) Constants.kataConfigRefAnnotation =
      annotationOf node Constants.kataConfigRefAnnotation := by
  rw [recordAppliedPatch, annotationOf_apply, if_neg (by decide)]

theorem applied_record (node : Node) (hash : String) :
    annotationOf ((recordAppliedPatch hash).apply node) Constants.kataConfigAppliedAnnotation = some hash := by
  rw [recordAppliedPatch, annotationOf_apply, if_pos rfl]

theorem ref_clear (node : Node) : annotationOf (clearOptinPatch.apply node) Constants.kataConfigRefAnnotation =
    annotationOf node Constants.kataConfigRefAnnotation := by
  rw [clearOptinPatch, annotationOf_apply, if_neg (by decide)]

theorem applied_clear (node : Node) :
    annotationOf (clearOptinPatch.apply node) Constants.kataConfigAppliedAnnotation = none := by
  rw [clearOptinPatch, annotationOf_apply, if_pos rfl]

theorem applied_delivery (node : Node) (kata : Option KataConfig) :
    annotationOf ((deliveryPatch kata).apply node) Constants.kataConfigAppliedAnnotation =
      annotationOf node Constants.kataConfigAppliedAnnotation := by
  cases kata with
  | none =>
    rw [deliveryPatch, buildKataConfigRefAnnotationPatch, annotationOf_apply, if_neg (by decide)]
  | some kata =>
    rw [deliveryPatch, kataDeliverPatch, buildKataConfigRefAnnotationPatch, annotationOf_apply, if_neg (by decide)]

theorem ref_withdraw (node : Node) :
    annotationOf ((deliveryPatch none).apply node) Constants.kataConfigRefAnnotation = none := by
  rw [deliveryPatch, buildKataConfigRefAnnotationPatch, annotationOf_apply, if_pos rfl]
  rfl

theorem label_deliver (node : Node) (kata : KataConfig) :
    StringMap.lookup Constants.kataConfigLabel ((deliveryPatch (some kata)).apply node).labels =
      some Constants.kataConfigLabelEnabled := by
  change StringMap.lookup _ (mergeKeys node.labels [(Constants.kataConfigLabel, some Constants.kataConfigLabelEnabled)]) = _
  rw [lookup_mergeKeys, if_pos rfl]

end FiveSpot.KataAgent
