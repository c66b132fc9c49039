import FiveSpot.Model.Api

/-! # Pure helpers of the reconciler (`src/reconcilers/helpers.rs`)

Instance assignment, durations, API versions and the checks made on a spec.
-/

namespace FiveSpot

set_option autoImplicit false

open Interaction

/-! ## Instance assignment -/

/-- The rolling hash, in wrapping `u64` arithmetic. -/
def resourceHash (bytes : List UInt8) : Nat :=
  bytes.foldl (fun hash byte => (hash * 31 + byte.toNat) % 2 ^ 64) 0

def assignedInstance (name ns : String) (priority : UInt8) (instanceCount : Nat) : Nat :=
  let resourceId := s!"{ns}/{name}"
  let hash := (resourceHash resourceId.toUTF8.data.toList + priority.toNat * 1000) % 2 ^ 64
  (hash % instanceCount) % 2 ^ 32

def shouldProcessResource (ctx : Context) (name ns : String) (priority : UInt8) : Bool :=
  if ctx.instanceCount ≤ 1 then true
  else
    let currentInstance := (ctx.operatorInstanceId.bind (Text.parseUnsigned 32)).getD
      Constants.defaultInstanceId
    assignedInstance name ns priority ctx.instanceCount == currentInstance

/-! ## Durations -/

def unitSeconds (unit : Char) : Option Nat :=
  match unit with
  | 's' => some 1
  | 'm' => some 60
  | 'h' => some 3600
  | _ => none

def parseDuration (text : String) : Except ReconcilerError Nat :=
  let durationStr := Text.trim text
  match durationStr.toList.reverse with
  | [] => .error (.invalidConfig "Empty duration string")
  | unit :: value =>
    if !Text.isAscii durationStr then
      .error (.invalidConfig s!"Invalid duration (non-ASCII): {Text.quoted durationStr}")
    else match Text.parseUnsigned 64 (String.ofList value.reverse) with
      | none => .error (.invalidConfig s!"Invalid duration value: {durationStr}")
      | some value => match unitSeconds unit with
        | none => .error (.invalidConfig
            ("Invalid duration unit: '" ++ unit.toString ++ "'. Use 's', 'm', or 'h'"))
        | some multiplier =>
          let seconds := value * multiplier
          if 2 ^ 64 ≤ seconds then
            .error (.invalidConfig ("Duration overflow: '" ++ durationStr ++ "' exceeds representable range"))
          else if Constants.maxDurationSecs < seconds then
            .error (.invalidConfig
              s!"Duration {seconds}s exceeds maximum of {Constants.maxDurationSecs}s (24h)")
          else .ok seconds

def nanosPerSecond : Int := 1000000000

/-- `num_seconds` of the elapsed time, which truncates toward zero. -/
def elapsedSeconds (now start : Time) : Int := Int.tdiv (now - start) nanosPerSecond

/-- Whether the grace period that began at `start` is over. A clock that reads earlier
than the start counts as over. -/
def graceOver (start now : Time) (timeout : Nat) : Bool :=
  decide (elapsedSeconds now start < 0) || decide ((timeout : Int) ≤ elapsedSeconds now start)

/-- The recorded start: the first condition whose reason is `GracePeriodActive`. -/
def graceStart (status : ScheduledMachineStatus) : Option Rfc3339 :=
  (status.conditions.find? fun c => c.reason == Constants.reasonGracePeriod).map (·.lastTransitionTime)

/-! ## API versions -/

/-- `(group, version)` of an `apiVersion`; the core API has an empty group. -/
def parseApiVersion (apiVersion : String) : String × String :=
  (Text.rsplitOnce '/' apiVersion).getD ("", apiVersion)

def machineApiVersionFor (ctx : Context) (bootstrapApiVersion : Option String) : String :=
  match (bootstrapApiVersion.bind (Text.rsplitOnce '/')).map Prod.snd with
  | some version => if version = "" then ctx.capiMachineApiVersion else version
  | none => ctx.capiMachineApiVersion

def resourcePlural (ctx : Context) (kind : String) : String := ctx.lowercase.apply kind ++ "s"

def dynamicResource (ctx : Context) (apiVersion kind : String) : ApiResource :=
  ⟨(parseApiVersion apiVersion).1, (parseApiVersion apiVersion).2, resourcePlural ctx kind⟩

/-! ## Validation -/

def reservedPrefixOf (key : String) : Option String :=
  Constants.reservedLabelPrefixes.find? fun reserved => Text.startsWith key reserved

def validateLabels (labels : StringMap) (field : String) : Except ReconcilerError Unit :=
  match labels with
  | [] => .ok ()
  | (key, _) :: rest => match reservedPrefixOf key with
    | some reserved => .error (.validationError
        (field ++ " key '" ++ key ++ "' uses reserved prefix '" ++ reserved ++ "'"))
    | none => validateLabels rest field

def validateEmbeddedMetadata (embedded : EmbeddedResource) (field : String) :
    Except ReconcilerError Unit :=
  if embedded.metadataNamespace.isSome then
    .error (.validationError (field ++ ".metadata.namespace is not permitted — the controller always creates the resource in the ScheduledMachine's own namespace"))
  else if embedded.metadataName.isSome then
    .error (.validationError (field ++ ".metadata.name is not permitted — the controller names the resource after the ScheduledMachine"))
  else do
    validateLabels embedded.metadataLabels (field ++ ".metadata.labels")
    validateLabels embedded.metadataAnnotations (field ++ ".metadata.annotations")

/-- Controller-owned labels are inserted last, so they win. -/
def mergeOwnedLabels (labels : StringMap) (smName clusterName : String) : StringMap :=
  (labels.insert Constants.scheduledMachineLabel smName).insert Constants.capiClusterNameLabel clusterName

def clusterNameChar (c : Char) : Bool :=
  Text.isAsciiAlphanumeric c || c == '-' || c == '.' || c == '_'

def validateClusterName (clusterName : String) : Except ReconcilerError Unit :=
  if clusterName = "" then .error (.validationError "spec.clusterName must not be empty")
  else if Constants.maxClusterNameLen < clusterName.utf8ByteSize then
    .error (.validationError
      s!"spec.clusterName length {clusterName.utf8ByteSize} exceeds maximum of {Constants.maxClusterNameLen} characters")
  else if clusterName.toList.all clusterNameChar then .ok ()
  else .error (.validationError
    ("spec.clusterName contains invalid character(s); allowed: ASCII alphanumerics, '-', '.', '_' (got: " ++
      Text.quoted clusterName ++ ")"))

def validateCommandsFrom (index : Nat) : List String → Except ReconcilerError Unit
  | [] => .ok ()
  | command :: rest =>
    if command = "" then
      .error (.validationError s!"spec.killIfCommands[{index}] must not be empty")
    else if Constants.maxKillIfCommandLen < command.utf8ByteSize then
      .error (.validationError
        s!"spec.killIfCommands[{index}] length {command.utf8ByteSize} exceeds maximum of {Constants.maxKillIfCommandLen} characters")
    else validateCommandsFrom (index + 1) rest

def validateKillIfCommands : Option (List String) → Except ReconcilerError Unit
  | none => .ok ()
  | some commands =>
    if Constants.maxKillIfCommandsCount < commands.length then
      .error (.validationError
        s!"spec.killIfCommands has {commands.length} entries, exceeds maximum of {Constants.maxKillIfCommandsCount}")
    else validateCommandsFrom 0 commands

def debugList (items : List String) : String :=
  "[" ++ ", ".intercalate (items.map Text.quoted) ++ "]"

def validateApiGroup (apiVersion : String) (allowed : List String) (resourceType : String) :
    Except ReconcilerError Unit :=
  match Text.rsplitOnce '/' apiVersion with
  | none => .error (.validationError
      (resourceType ++ " apiVersion '" ++ apiVersion ++
        "' must use a namespaced API group (e.g. 'bootstrap.cluster.x-k8s.io/v1beta1')"))
  | some (group, _) =>
    if group ∈ allowed then .ok ()
    else .error (.validationError (resourceType ++ " API group '" ++ group ++
      "' is not allowed. Permitted groups: " ++ debugList allowed))

def validateScheduleRef (schedule : SpotScheduleRef) : Except ReconcilerError Unit :=
  if schedule.isSpotScheduleGroup then .ok ()
  else .error (.validationError ("spec.schedule.apiVersion group must be '" ++
    Constants.spotScheduleApiGroup ++ "', got '" ++ schedule.group ++ "'"))

/-- The checks made on every reconcile before anything else is looked at. -/
def validateSpec (spec : ScheduledMachineSpec) : Except ReconcilerError Unit := do
  validateClusterName spec.clusterName
  validateKillIfCommands spec.killIfCommands
  validateScheduleRef spec.schedule

def requireNamespace (sm : ScheduledMachine) : Except ReconcilerError String :=
  match sm.metadata.ns with
  | some ns => .ok ns
  | none => .error (.invalidConfig "ScheduledMachine must be namespaced")

def hasFinalizer (sm : ScheduledMachine) : Bool :=
  match sm.metadata.finalizers with
  | some finalizers => finalizers.contains Constants.finalizerScheduledMachine
  | none => false

end FiveSpot
