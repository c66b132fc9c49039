import FiveSpot.Helpers.Taints

/-! # Validation of `spec.nodeTaints` (`src/crd.rs`)

Keys are qualified names outside the reserved prefixes, and no two entries share key and effect.
-/

namespace FiveSpot

set_option autoImplicit false

def taintNameMaxLen : Nat := 63

def taintPrefixMaxLen : Nat := 253

def reservedTaintPrefixOwn : String := "5spot.finos.org/"

def reservedK8sTaintPrefixes : List String := ["node.kubernetes.io/", "node-role.kubernetes.io/", "kubernetes.io/"]

/-- `[a-z0-9A-Z]([-a-zA-Z0-9.]*[a-zA-Z0-9])?`. No byte of a non-ASCII character is alphanumeric, so characters
stand for the bytes. -/
def isQualifiedName (s : String) : Bool :=
  match s.toList with
  | [] => false
  | [first] => Text.isAsciiAlphanumeric first
  | first :: rest => Text.isAsciiAlphanumeric first && rest.getLast?.any Text.isAsciiAlphanumeric &&
      rest.dropLast.all fun c => Text.isAsciiAlphanumeric c || c == '-' || c == '.'

def isDnsLabel (label : String) : Bool :=
  !label.isEmpty && decide (label.utf8ByteSize ≤ taintNameMaxLen) && label.toList.head?.any Text.isAsciiAlphanumeric &&
    label.toList.getLast?.any Text.isAsciiAlphanumeric &&
    label.toList.all fun c => Text.isAsciiAlphanumeric c || c == '-'

def isDnsSubdomain (s : String) : Bool :=
  if s.isEmpty || decide (taintPrefixMaxLen < s.utf8ByteSize) then false
  else (Text.split '.' s).all isDnsLabel

def validateTaintPrefix (key : String) : Option String → Except String Unit
  | none => .ok ()
  | some pre =>
    if pre.isEmpty || decide (taintPrefixMaxLen < pre.utf8ByteSize) then
      .error ("taint key prefix must be 1..=253 chars: " ++ key)
    else if !isDnsSubdomain pre then .error ("taint key prefix is not a DNS subdomain: " ++ key)
    else .ok ()

def validateTaintName (key name : String) : Except String Unit :=
  if name.isEmpty || decide (taintNameMaxLen < name.utf8ByteSize) then
    .error ("taint key name portion must be 1..=63 chars: " ++ key)
  else if !isQualifiedName name then .error ("taint key does not match qualified-name pattern: " ++ key)
  else .ok ()

def validateTaintKey (key : String) : Except String Unit :=
  if key.isEmpty then .error "taint key must be non-empty"
  else if Text.startsWith key reservedTaintPrefixOwn then
    .error ("taint key must not use reserved prefix " ++ reservedTaintPrefixOwn ++ ": " ++ key)
  else match reservedK8sTaintPrefixes.find? fun pre => Text.startsWith key pre with
    | some pre => .error ("taint key prefix " ++ pre ++
        " is reserved by Kubernetes; use spec.machineTemplate for control-plane role signalling, got: " ++ key)
    | none => match Text.splitOnce '/' key with
      | some (pre, name) => do
        validateTaintPrefix key (some pre)
        validateTaintName key name
      | none => do
        validateTaintPrefix key none
        validateTaintName key key

def validateTaintValue (value : String) : Except String Unit :=
  if value.isEmpty then .ok ()
  else if taintNameMaxLen < value.utf8ByteSize then .error ("taint value must be 0..=63 chars: " ++ value)
  else if !isQualifiedName value then .error ("taint value does not match qualified-name pattern: " ++ value)
  else .ok ()

/-- The loop over the taints with the pairs seen so far. -/
def validateTaintsFrom (seen : List (String × TaintEffect)) : List NodeTaint → Except String Unit
  | [] => .ok ()
  | t :: taints => do
    validateTaintKey t.key
    match t.value with
    | some v => validateTaintValue v
    | none => pure ()
    if seen.contains (t.key, t.effect) then
      .error ("duplicate (key, effect) in spec.nodeTaints: (" ++ t.key ++ ", " ++ effectStr t.effect ++ ")")
    else validateTaintsFrom ((t.key, t.effect) :: seen) taints

def validateNodeTaints (taints : List NodeTaint) : Except String Unit := validateTaintsFrom [] taints

/-! ## What is accepted -/

def NodeTaint.Accepted (t : NodeTaint) : Prop := validateNodeTaints [t] = .ok ()

instance (t : NodeTaint) : Decidable t.Accepted := inferInstanceAs (Decidable (validateNodeTaints [t] = .ok ()))

theorem validateTaintsFrom_cons {seen : List (String × TaintEffect)} {t : NodeTaint} {taints : List NodeTaint} :
    validateTaintsFrom seen (t :: taints) = .ok () ↔ validateTaintKey t.key = .ok () ∧
      (∀ v, t.value = some v → validateTaintValue v = .ok ()) ∧ (t.key, t.effect) ∉ seen ∧
        validateTaintsFrom ((t.key, t.effect) :: seen) taints = .ok () := by
  rw [validateTaintsFrom]
  cases hkey : validateTaintKey t.key with
  | error e => simp [bind, Except.bind]
  | ok _ =>
    cases hv : t.value with
    | none => by_cases hseen : (t.key, t.effect) ∈ seen <;> simp [bind, Except.bind, hseen]
    | some v =>
      cases hvalue : validateTaintValue v with
      | error e => simp [bind, Except.bind, hvalue]
      | ok _ => by_cases hseen : (t.key, t.effect) ∈ seen <;> simp [bind, Except.bind, hvalue, hseen]

theorem NodeTaint.accepted_iff {t : NodeTaint} : t.Accepted ↔
    validateTaintKey t.key = .ok () ∧ ∀ v, t.value = some v → validateTaintValue v = .ok () := by
  rw [NodeTaint.Accepted, validateNodeTaints, validateTaintsFrom_cons]
  simp [validateTaintsFrom]

theorem validateTaintsFrom_iff {seen : List (String × TaintEffect)} {taints : List NodeTaint} :
    validateTaintsFrom seen taints = .ok () ↔ (∀ t ∈ taints, t.Accepted) ∧ DistinctEntries taints ∧
      ∀ t ∈ taints, (t.key, t.effect) ∉ seen := by
  induction taints generalizing seen with
  | nil => simp [validateTaintsFrom, DistinctEntries]
  | cons t taints ih =>
    rw [validateTaintsFrom_cons, ih, ← and_assoc, ← NodeTaint.accepted_iff]
    rw [List.forall_mem_cons, List.forall_mem_cons]
    simp only [DistinctEntries, List.map_cons, List.nodup_cons, List.mem_cons, not_or, List.mem_map, not_exists, not_and]
    constructor
    · rintro ⟨ht, hseen, htaints, hdistinct, hrest⟩
      exact ⟨⟨ht, htaints⟩, ⟨fun u hu => (hrest u hu).1, hdistinct⟩, hseen, fun u hu => (hrest u hu).2⟩
    · rintro ⟨⟨ht, htaints⟩, ⟨hnew, hdistinct⟩, hseen, hrest⟩
      exact ⟨ht, hseen, htaints, hdistinct, fun u hu => ⟨hnew u hu, hrest u hu⟩⟩

theorem validateNodeTaints_iff {taints : List NodeTaint} :
    validateNodeTaints taints = .ok () ↔ (∀ t ∈ taints, t.Accepted) ∧ DistinctEntries taints := by
  rw [validateNodeTaints, validateTaintsFrom_iff]
  simp

end FiveSpot
