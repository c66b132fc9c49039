import FiveSpot.Helpers.Validation
import FiveSpot.Model.Patterns

/-! # The admission policy (`deploy/admission/validatingadmissionpolicy.yaml`)

The CEL expressions in the order of the policy. An expression that reads a missing field is an error and rejects
the object.
-/

namespace FiveSpot.Admission

set_option autoImplicit false

open RegularExpression Pattern

/-! ## Strings in CEL -/

/-- `size()` counts code points. -/
def size (s : String) : Nat := s.length

def contains (s : String) (c : Char) : Bool := s.toList.contains c

def lowerAscii (s : String) : String := String.ofList (s.toList.map Char.toLower)

/-- `matches('^…$')`; in RE2 both anchors are the ends of the text. -/
def fullMatch (pattern : RegularExpression Char) (s : String) : Bool := pattern.rmatch s.toList

/-- `[A-Za-z0-9][A-Za-z0-9._-]*` -/
def clusterNamePattern : RegularExpression Char :=
  oneOf alphanumeric * star (oneOf (alphanumeric ++ ['.', '_', '-']))

/-- `[0-9]+[smh]` -/
def durationPattern : RegularExpression Char := oneOrMore (oneOf digits) * oneOf ['s', 'm', 'h']

/-- `[a-z0-9]([-a-z0-9]*[a-z0-9])?` -/
def labelPattern : RegularExpression Char := framed (lower ++ digits) ('-' :: (lower ++ digits))

/-- `[A-Za-z0-9]([-A-Za-z0-9_.]*[A-Za-z0-9])?` -/
def namePattern : RegularExpression Char :=
  framed alphanumeric ('-' :: (alphanumeric ++ ['_', '.']))

/-- `(label(\.label)*/)?name` -/
def taintKeyPattern : RegularExpression Char := preceded '/' (separated '.' labelPattern) namePattern

/-! ## Variables -/

/-- Whether the requesting user may `create` the resource of a group in a namespace. -/
abbrev Authorizer := String → String → Option String → Bool

def resourceGroup (apiVersion : String) : String := (Text.split '/' apiVersion).headD ""

def resourceName (kind : String) : String := lowerAscii kind ++ "s"

/-! ## Validations -/

def clusterNameNonEmpty (spec : ScheduledMachineSpec) : Bool := decide (0 < size spec.clusterName)

def clusterNameLength (spec : ScheduledMachineSpec) : Bool := decide (size spec.clusterName ≤ 63)

def clusterNameCharacters (spec : ScheduledMachineSpec) : Bool := fullMatch clusterNamePattern spec.clusterName

def killIfCommandsCount (spec : ScheduledMachineSpec) : Bool :=
  spec.killIfCommands.all fun commands => decide (commands.length ≤ 100)

def killIfCommandsEntries (spec : ScheduledMachineSpec) : Bool :=
  spec.killIfCommands.all fun commands => commands.all fun c => decide (1 ≤ size c) && decide (size c ≤ 256)

def durationFormat (timeout : String) : Bool := fullMatch durationPattern timeout

def scheduleGroupPin (spec : ScheduledMachineSpec) : Bool :=
  Text.startsWith spec.schedule.apiVersion "spotschedules.5spot.finos.org/"

def namespacedGroup (embedded : EmbeddedResource) : Bool := embedded.apiVersion.any fun v => contains v '/'

def allowedGroup (prefixes : List String) (embedded : EmbeddedResource) : Bool :=
  embedded.apiVersion.any fun v => prefixes.any fun pre => Text.startsWith v pre

def kindNonEmpty (embedded : EmbeddedResource) : Bool := embedded.kind.any fun kind => decide (0 < size kind)

def metadataAbsent (field : String) (embedded : EmbeddedResource) : Bool := (embedded.metadata field).isNone

def userMayCreate (authorizer : Authorizer) (ns : Option String) (embedded : EmbeddedResource) : Bool :=
  embedded.apiVersion.any fun v => embedded.kind.any fun kind => authorizer (resourceGroup v) (resourceName kind) ns

def taintKeyFormat (spec : ScheduledMachineSpec) : Bool := spec.nodeTaints.all fun t => fullMatch taintKeyPattern t.key

def taintKeyLength (spec : ScheduledMachineSpec) : Bool := spec.nodeTaints.all fun t => decide (size t.key ≤ 253)

def taintValueLength (spec : ScheduledMachineSpec) : Bool :=
  spec.nodeTaints.all fun t => t.value.all fun value => decide (size value ≤ 63)

def taintOwnPrefix (spec : ScheduledMachineSpec) : Bool :=
  spec.nodeTaints.all fun t => !Text.startsWith t.key "5spot.finos.org/"

def taintKubernetesPrefix (spec : ScheduledMachineSpec) : Bool :=
  spec.nodeTaints.all fun t => !Text.startsWith t.key "kubernetes.io/" &&
    !Text.startsWith t.key "node.kubernetes.io/" && !Text.startsWith t.key "node-role.kubernetes.io/"

def taintDuplicates (spec : ScheduledMachineSpec) : Bool :=
  spec.nodeTaints.all fun t => (spec.nodeTaints.filter fun x => x.key == t.key && x.effect == t.effect).length == 1

def bootstrapPrefixes : List String := ["bootstrap.cluster.x-k8s.io/", "k0smotron.io/"]

def infrastructurePrefixes : List String := ["infrastructure.cluster.x-k8s.io/", "k0smotron.io/"]

def validations (authorizer : Authorizer) (ns : Option String) (spec : ScheduledMachineSpec) : List Bool :=
  [clusterNameNonEmpty spec, clusterNameLength spec, clusterNameCharacters spec,
    killIfCommandsCount spec, killIfCommandsEntries spec,
    durationFormat spec.gracefulShutdownTimeout, durationFormat spec.nodeDrainTimeout,
    scheduleGroupPin spec,
    namespacedGroup spec.bootstrapSpec, allowedGroup bootstrapPrefixes spec.bootstrapSpec, kindNonEmpty spec.bootstrapSpec,
    namespacedGroup spec.infrastructureSpec, allowedGroup infrastructurePrefixes spec.infrastructureSpec,
    kindNonEmpty spec.infrastructureSpec,
    metadataAbsent "namespace" spec.bootstrapSpec, metadataAbsent "name" spec.bootstrapSpec,
    metadataAbsent "namespace" spec.infrastructureSpec, metadataAbsent "name" spec.infrastructureSpec,
    userMayCreate authorizer ns spec.bootstrapSpec, userMayCreate authorizer ns spec.infrastructureSpec,
    taintKeyFormat spec, taintKeyLength spec, taintValueLength spec, taintOwnPrefix spec, taintKubernetesPrefix spec,
    taintDuplicates spec]

/-! ## The schema of an embedded resource (`src/crd.rs`) -/

def stringMapSchema : Json → Bool
  | .obj fields => fields.all fun field => field.2.asStr.isSome
  | _ => false

/-- Unknown fields are kept here, so that the policy can see them. -/
def metadataSchema : Json → Bool
  | .obj fields => (Json.get "labels" (.obj fields)).all stringMapSchema &&
      (Json.get "annotations" (.obj fields)).all stringMapSchema
  | _ => false

def embeddedResourceSchema : Json → Bool
  | .obj fields => fields.all (fun field => ["apiVersion", "kind", "metadata", "spec"].contains field.1) &&
      (Json.get "apiVersion" (.obj fields)).any (·.asStr.isSome) && (Json.get "kind" (.obj fields)).any (·.asStr.isSome) &&
      (Json.get "spec" (.obj fields)).any (·.asObject.isSome) && (Json.get "metadata" (.obj fields)).all metadataSchema
  | _ => false

/-- The object passes the schema of its embedded resources and every validation. -/
def admits (authorizer : Authorizer) (ns : Option String) (spec : ScheduledMachineSpec) : Bool :=
  embeddedResourceSchema spec.bootstrapSpec.value && embeddedResourceSchema spec.infrastructureSpec.value &&
    (validations authorizer ns spec).all id

end FiveSpot.Admission
