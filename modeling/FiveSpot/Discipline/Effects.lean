import FiveSpot.Interaction.Monitor
import FiveSpot.Reconcile

/-! # What a reconcile may do

Most requests of a reconcile change nothing that matters beyond the request itself. The others
are its effects. `Legal` lists, one rule per place in the code, the effects a reconcile of a given
resource may have after what it has observed so far; nothing else is ever issued.
-/

namespace FiveSpot

set_option autoImplicit false

open Interaction

/-- What a reconcile brings about. Draining a Node begins with the cordon and the list of its pods. -/
inductive Effect where
  | create (key : ObjKey)
  | delete (key : ObjKey)
  | phase (target : Phase) (conditions : List Condition)
  | finalizers (finalizers : List String)
  | enabled (value : Bool)
  | drain (client : Client) (node : String)
  | evict (client : Client)
  | clear (client : Client) (node : String)
  | taints (client : Client) (node : String) (taints : List Taint)
  | schedule (status : SpotScheduleStatus)
  | record (applied : List NodeTaint)

def effectOfCall (client : Client) : ApiCall → Option Effect
  | .create ar ns name _ => some (.create (ar.key ns name))
  | .delete ar ns name => some (.delete (ar.key ns name))
  | .patchStatus _ _ (.phase target _ conditions _ _) => some (.phase target conditions)
  | .patchStatus _ _ (.spotSchedule status) => some (.schedule status)
  | .patchStatus _ _ (.appliedNodeTaints applied) => some (.record applied)
  | .patchFinalizers _ _ finalizers => some (.finalizers finalizers)
  | .patchEnabled _ _ value => some (.enabled value)
  | .patchNode node body =>
    if body = cordonPatch then some (.drain client node)
    else if body = buildClearReclaimPatch then some (.clear client node)
    else none
  | .listPods node => some (.drain client node)
  | .deletePod _ _ _ => some (.evict client)
  | .applyNodeTaints node _ taints => some (.taints client node taints)
  | _ => none

def effectOf : Req → Option Effect
  | .api client call => effectOfCall client call
  | .loc _ => none
  | .timer _ => none

/-- The server a request addresses a Node or a Pod on. -/
def nodeClient : Req → Option Client
  | .api client call => if call.isNodeOrPod then some client else none
  | _ => none

/-- What a reconcile learns from the answers it gets. -/
inductive Obs where
  | created (key : ObjKey)
  | cleared (key : ObjKey)
  | phase (target : Phase) (done : Bool)
  | enabled (value done : Bool)
  | clock (time : Time)
  | node (client : Client) (name : String) (found : Option Node)
  | object (key : ObjKey) (value : Json)
  | pods (client : Client) (node : String)
  /-- The kind of the schedule provider is installed. -/
  | pinned
  | scheduled
  | tainted (client : Client) (node : String) (done : Bool)
  | recorded (done : Bool)
  | timedOut
  | other

/-- Observations of a reconcile's own writes. Every reconcile that gets to its phase has told about its
schedule; that alone does not count. -/
def Obs.isWrite : Obs → Bool
  | .created _ | .cleared _ | .phase _ _ | .enabled _ _ | .tainted _ _ _ | .recorded _ => true
  | _ => false

def Obs.isRead (o : Obs) : Bool :=
  match o with
  | .scheduled => false
  | _ => !o.isWrite

def succeeded {ε α : Type} : Except ε α → Bool
  | .ok _ => true
  | .error _ => false

/-- Every answered call is observed, if only as something else that happened. -/
def obsOfCall (client : Client) : (call : ApiCall) → Except KubeError call.Answer → Obs
  | .create ar ns name _, .ok _ => .created (ar.key ns name)
  | .create ar ns name _, .error e => if e.isAlreadyExists then .created (ar.key ns name) else .other
  | .delete ar ns name, .ok _ => .cleared (ar.key ns name)
  | .delete ar ns name, .error e => if e.isNotFound then .cleared (ar.key ns name) else .other
  | .patchStatus _ _ (.phase target _ _ _ _), answer => .phase target (succeeded answer)
  | .patchStatus _ _ (.spotSchedule _), _ => .scheduled
  | .patchStatus _ _ (.appliedNodeTaints _), answer => .recorded (succeeded answer)
  | .patchEnabled _ _ value, answer => .enabled value (succeeded answer)
  | .getNode name, .ok node => .node client name (some node)
  | .getNode name, .error e => if e.isNotFound then .node client name none else .other
  | .get ar ns name, .ok value => .object (ar.key ns name) value
  | .listPods node, .ok _ => .pods client node
  | .pinnedKind _ _ _, .ok _ => .pinned
  | .applyNodeTaints node _ _, answer => .tainted client node (succeeded answer)
  | _, _ => .other

def obsOf : (r : Req) → Resp r → Option Obs
  | .api client call, answer => some (obsOfCall client call answer)
  | .loc .utcNow, time => some (.clock time)
  | .loc _, _ => none
  | .timer _, fired => if fired then some .timedOut else none

/-! ## Paths through the dispatch -/

section

variable (ctx : Context) (sm : ScheduledMachine)

/-- The leader and instance guards let the resource pass. -/
structure Entered (ns : String) : Prop where
  namespaced : sm.metadata.ns = some ns
  leader : ctx.isLeader = true
  assigned : shouldProcessResource ctx sm.metadata.name ns sm.spec.priority = true

def enters : Bool :=
  ctx.isLeader && sm.metadata.ns.any fun ns => shouldProcessResource ctx sm.metadata.name ns sm.spec.priority

/-- A resource that is not being deleted, has its finalizer and passes validation. -/
structure Ordinary (ns : String) : Prop extends Entered ctx sm ns where
  alive : sm.deleting = false
  finalizer : hasFinalizer sm = true
  valid : validateSpec sm.spec = .ok ()

def isOrdinary : Bool :=
  enters ctx sm && !sm.deleting && hasFinalizer sm && succeeded (validateSpec sm.spec)

variable {ctx sm} in
theorem enters_iff : enters ctx sm = true ↔ ∃ ns, Entered ctx sm ns := by
  constructor
  · intro h
    obtain ⟨hleader, hassigned⟩ := Bool.and_eq_true_iff.mp h
    obtain ⟨ns, hns, hassigned⟩ := (Option.any_eq_true _ _).mp hassigned
    exact ⟨ns, hns, hleader, hassigned⟩
  · rintro ⟨ns, h⟩
    simp [enters, h.leader, h.namespaced, h.assigned]

variable {ctx sm} in
theorem isOrdinary_iff : isOrdinary ctx sm = true ↔ ∃ ns, Ordinary ctx sm ns := by
  constructor
  · intro h
    simp only [isOrdinary, Bool.and_eq_true, Bool.not_eq_true'] at h
    obtain ⟨⟨⟨henters, halive⟩, hfinalizer⟩, hvalid⟩ := h
    obtain ⟨ns, hentered⟩ := enters_iff.mp henters
    refine ⟨ns, { hentered with alive := halive, finalizer := hfinalizer, valid := ?_ }⟩
    cases hspec : validateSpec sm.spec with
    | ok _ => rfl
    | error e => rw [hspec] at hvalid; cases hvalid
  · rintro ⟨ns, h⟩
    simp [isOrdinary, enters_iff.mpr ⟨ns, h.toEntered⟩, h.alive, h.finalizer, h.valid, succeeded]

/-- The reconcile gets as far as looking for a reclaim request. -/
def looksForReclaim : Bool := isOrdinary ctx sm && !sm.spec.killSwitch

structure Killed (ns : String) : Prop extends Ordinary ctx sm ns where
  kill : sm.spec.killSwitch = true

structure Deleted (ns : String) : Prop extends Entered ctx sm ns where
  deleting : sm.deleting = true

/-- The reclaim check came back with a request on Node `node`. -/
structure Reclaimed (ns node : String) (t : List Obs) : Prop extends Ordinary ctx sm ns where
  kill : sm.spec.killSwitch = false
  named : reclaimNode sm = some node
  requested : ∃ found, .node .management node (some found) ∈ t ∧ (nodeReclaimRequest found).isSome

/-- The reclaim check had nothing to look at or found no request. -/
def NoReclaim (t : List Obs) : Prop :=
  ∀ node, reclaimNode sm = some node →
    ∃ found, .node .management node found ∈ t ∧ found.bind nodeReclaimRequest = none

structure Scheduled (ns : String) (t : List Obs) : Prop extends Ordinary ctx sm ns where
  kill : sm.spec.killSwitch = false
  calm : NoReclaim sm t

/-- The phases that are handled like `Pending`. -/
def pendingLike : Option Phase → Bool
  | none | some .pending | some (.unknown _ _) => true
  | _ => false

/-! ## Owned objects -/

def embeddedKey (embedded : EmbeddedResource) : Option ObjKey :=
  match embedded.apiVersion, embedded.kind with
  | some apiVersion, some kind =>
    some ((dynamicResource ctx apiVersion kind).key (sm.metadata.ns.getD "") sm.metadata.name)
  | _, _ => none

/-- The Machine and whatever the embedded resources name. -/
def ownedKeys : List ObjKey :=
  (machineResource ctx sm.spec).key (sm.metadata.ns.getD "") sm.metadata.name ::
    ((embeddedKey ctx sm sm.spec.bootstrapSpec).toList ++
      (embeddedKey ctx sm sm.spec.infrastructureSpec).toList)

def FullyNamed : Prop :=
  (embeddedKey ctx sm sm.spec.bootstrapSpec).isSome = true ∧ (embeddedKey ctx sm sm.spec.infrastructureSpec).isSome = true

/-- Every owned object has been deleted, or was not there. -/
def Removed (t : List Obs) : Prop := ∀ key ∈ ownedKeys ctx sm, .cleared key ∈ t

def Untouched (t : List Obs) : Prop :=
  ∀ o ∈ t, o.isWrite = true → ∃ key, o = .created key

def Unmarked (t : List Obs) : Prop :=
  ∀ o ∈ t, o.isWrite = true → ∃ key, o = .created key ∨ o = .cleared key

def Tainted (t : List Obs) : Prop :=
  ∀ o ∈ t, o.isWrite = true → (∃ key, o = .created key) ∨ ∃ client node done, o = .tainted client node done

/-- The condition of a phase write carries the clock value read right before it. -/
def Stamped (t : List Obs) (conditions : List Condition) (reason : String) : Prop :=
  ∃ now rest message, t = .clock now :: rest ∧
    conditions = [.new now Constants.conditionTypeReady Constants.conditionStatusTrue reason message]

/-- The grace period counts as over, at some clock value read in this reconcile. -/
def GraceOver (t : List Obs) : Prop :=
  ∃ status, sm.status = some status ∧
    (graceStart status = none ∨
      ∃ start timeout now, graceStart status = some (.valid start) ∧
        parseDuration sm.spec.gracefulShutdownTimeout = .ok timeout ∧
        .clock now ∈ t ∧ graceOver start now timeout = true)

def MachineOn (node : String) (t : List Obs) : Prop :=
  ∃ machine, .object ⟨Constants.capiGroup, Constants.capiResourceMachines, sm.metadata.ns.getD "",
      sm.metadata.name⟩ machine ∈ t ∧ (extractMachineRefs machine).2.map (·.name) = some node

structure ShutDown (ns : String) (t : List Obs) : Prop extends Scheduled ctx sm ns t where
  phase : sm.phase = some .shuttingDown
  elapsed : GraceOver sm t

def ProviderRead (verdict : SpotScheduleVerdict) (t : List Obs) : Prop :=
  ∃ key provider rest, t = .object key provider :: .pinned :: rest ∧ verdict = verdictFromStatus (provider.get "status")

def VerdictRead (verdict : SpotScheduleVerdict) (t : List Obs) : Prop :=
  ProviderRead verdict t ∨ ∃ now rest, t = .clock now :: rest ∧ ProviderRead verdict rest

def taintPlan (node : Node) : NodeTaintPlan := diffNodeTaints node.taints sm.spec.nodeTaints sm.appliedNodeTaints

def NodeRead (client : Client) (node : String) (found : Node) (t : List Obs) : Prop :=
  ∃ newer older, t = newer ++ older ∧ MachineOn sm node older ∧ .node client node (some found) ∈ newer

/-- The plan of a taint reconcile, and the Node it is applied to, read right before. -/
structure TaintWrite (client : Client) (node : String) (taints : List Taint) (t : List Obs) : Prop where
  planned : ∃ first second rest, t = .node client node (some second) :: .node client node (some first) :: rest ∧
    MachineOn sm node rest ∧ (taintPlan sm first).conflicts = [] ∧
    taints = targetTaints second.taints (taintPlan sm first)

def TaintsApplied (t : List Obs) : Prop :=
  ∃ client node first, NodeRead sm client node first t ∧ (taintPlan sm first).conflicts = [] ∧
    ((taintPlan sm first).isNoop = true ∧ Untouched t ∨ .tainted client node true ∈ t)

inductive Legal (t : List Obs) : Effect → Prop
  | addFinalizer {ns : String} (path : Entered ctx sm ns) (alive : sm.deleting = false) :
      Legal t (.finalizers (withFinalizer (sm.metadata.finalizers.getD [])))
  | deletionDelete {ns : String} {key : ObjKey} (path : Deleted ctx sm ns)
      (running : runningPhase sm.phase = true) (owned : key ∈ ownedKeys ctx sm) : Legal t (.delete key)
  | deletionRelease {ns : String} (path : Deleted ctx sm ns)
      (done : runningPhase sm.phase = true → Removed ctx sm t ∨ .timedOut ∈ t) :
      Legal t (.finalizers (withoutFinalizer (sm.metadata.finalizers.getD [])))
  | killDelete {ns : String} {key : ObjKey} (path : Killed ctx sm ns) (clean : Unmarked t)
      (running : runningPhase sm.phase = true) (owned : key ∈ ownedKeys ctx sm) : Legal t (.delete key)
  | killTerminated {ns : String} {conditions : List Condition} (path : Killed ctx sm ns)
      (clean : Unmarked t) (done : runningPhase sm.phase = true → Removed ctx sm t)
      (stamp : Stamped t conditions Constants.reasonKillSwitch) : Legal t (.phase .terminated conditions)
  | reclaimMark {ns node : String} {conditions : List Condition} (path : Reclaimed ctx sm ns node t)
      (clean : Untouched t) (stamp : Stamped t conditions Constants.reasonEmergencyReclaim) :
      Legal t (.phase .emergencyRemove conditions)
  | reclaimDrain {ns node : String} {client : Client} (path : Reclaimed ctx sm ns node t)
      (marked : .phase .emergencyRemove true ∈ t) : Legal t (.drain client node)
  | reclaimEvict {ns node : String} {client : Client} (path : Reclaimed ctx sm ns node t)
      (marked : .phase .emergencyRemove true ∈ t) (listed : .pods client node ∈ t) : Legal t (.evict client)
  | reclaimDelete {ns node : String} {key : ObjKey} (path : Reclaimed ctx sm ns node t)
      (marked : .phase .emergencyRemove true ∈ t) (owned : key ∈ ownedKeys ctx sm) : Legal t (.delete key)
  | reclaimDisable {ns node : String} (path : Reclaimed ctx sm ns node t)
      (marked : .phase .emergencyRemove true ∈ t) (removed : Removed ctx sm t) : Legal t (.enabled false)
  | reclaimClear {ns node : String} {client : Client} (path : Reclaimed ctx sm ns node t)
      (marked : .phase .emergencyRemove true ∈ t) (removed : Removed ctx sm t)
      (disabled : .enabled false true ∈ t) : Legal t (.clear client node)
  | reclaimDone {ns node : String} {conditions : List Condition} (path : Reclaimed ctx sm ns node t)
      (marked : .phase .emergencyRemove true ∈ t) (removed : Removed ctx sm t)
      (disabled : .enabled false true ∈ t)
      (stamp : Stamped t conditions Constants.reasonScheduleDisabled) : Legal t (.phase .disabled conditions)
  | spotStatus {ns : String} {verdict : SpotScheduleVerdict} {time : Option Rfc3339}
      (path : Scheduled ctx sm ns t) (clean : Untouched t) (first : .scheduled ∉ t)
      (read : verdict.isResolved = true → VerdictRead verdict t) :
      Legal t (.schedule (spotScheduleStatus verdict sm.lastKnownSpotActive time))
  | recover {ns : String} {conditions : List Condition} (path : Scheduled ctx sm ns t)
      (phase : sm.phase = some .emergencyRemove) (clean : Untouched t)
      (stamp : Stamped t conditions Constants.reasonScheduleDisabled) : Legal t (.phase .disabled conditions)
  | pendingDisabled {ns : String} {conditions : List Condition} (path : Scheduled ctx sm ns t)
      (phase : pendingLike sm.phase = true) (enabled : sm.spec.enabled = false) (clean : Untouched t)
      (stamp : Stamped t conditions Constants.reasonScheduleDisabled) : Legal t (.phase .disabled conditions)
  | pendingInactive {ns : String} {conditions : List Condition} (path : Scheduled ctx sm ns t)
      (phase : pendingLike sm.phase = true) (clean : Untouched t)
      (stamp : Stamped t conditions Constants.reasonScheduleInactive) : Legal t (.phase .inactive conditions)
  | pendingCreate {ns : String} {key : ObjKey} (path : Scheduled ctx sm ns t)
      (phase : pendingLike sm.phase = true) (enabled : sm.spec.enabled = true) (clean : Untouched t)
      (owned : key ∈ ownedKeys ctx sm) : Legal t (.create key)
  | pendingError {ns : String} {conditions : List Condition} (path : Scheduled ctx sm ns t)
      (phase : pendingLike sm.phase = true) (clean : Untouched t)
      (stamp : Stamped t conditions "MachineCreationFailed") : Legal t (.phase .error conditions)
  | pendingActive {ns : String} {conditions : List Condition} (path : Scheduled ctx sm ns t)
      (phase : pendingLike sm.phase = true) (clean : Untouched t)
      (named : FullyNamed ctx sm) (created : ∀ key ∈ ownedKeys ctx sm, .created key ∈ t)
      (stamp : Stamped t conditions Constants.reasonMachineCreated) : Legal t (.phase .active conditions)
  | activeShutdown {ns reason : String} {conditions : List Condition} (path : Scheduled ctx sm ns t)
      (phase : sm.phase = some .active) (clean : Untouched t)
      (cause : reason = if sm.spec.enabled then Constants.reasonGracePeriod
        else Constants.reasonScheduleDisabled)
      (stamp : Stamped t conditions reason) : Legal t (.phase .shuttingDown conditions)
  | activeTaints {ns node : String} {client : Client} {taints : List Taint} (path : Scheduled ctx sm ns t)
      (phase : sm.phase = some .active) (clean : Untouched t)
      (written : TaintWrite sm client node taints t) : Legal t (.taints client node taints)
  | activeRecord {ns : String} (path : Scheduled ctx sm ns t) (phase : sm.phase = some .active)
      (clean : Tainted t) (applied : TaintsApplied sm t) : Legal t (.record sm.spec.nodeTaints)
  | shutdownDrain {ns node : String} {client : Client} (path : ShutDown ctx sm ns t) (clean : Untouched t)
      (machine : MachineOn sm node t) : Legal t (.drain client node)
  | shutdownEvict {ns node : String} {client : Client} (path : ShutDown ctx sm ns t) (clean : Untouched t)
      (machine : MachineOn sm node t) (listed : .pods client node ∈ t) : Legal t (.evict client)
  | shutdownDelete {ns : String} {key : ObjKey} (path : ShutDown ctx sm ns t) (clean : Unmarked t)
      (owned : key ∈ ownedKeys ctx sm) : Legal t (.delete key)
  | shutdownError {ns : String} {conditions : List Condition} (path : ShutDown ctx sm ns t)
      (clean : Unmarked t) (stamp : Stamped t conditions "MachineDeletionFailed") :
      Legal t (.phase .error conditions)
  | shutdownInactive {ns : String} {conditions : List Condition} (path : ShutDown ctx sm ns t)
      (clean : Unmarked t) (removed : Removed ctx sm t)
      (stamp : Stamped t conditions Constants.reasonMachineDeleted) : Legal t (.phase .inactive conditions)
  | inactivePending {ns : String} {conditions : List Condition} (path : Scheduled ctx sm ns t)
      (phase : sm.phase = some .inactive) (enabled : sm.spec.enabled = true) (clean : Untouched t)
      (stamp : Stamped t conditions Constants.reasonScheduleActive) : Legal t (.phase .pending conditions)
  | disabledPending {ns : String} {conditions : List Condition} (path : Scheduled ctx sm ns t)
      (phase : sm.phase = some .disabled) (enabled : sm.spec.enabled = true) (clean : Untouched t)
      (stamp : Stamped t conditions Constants.reasonScheduleActive) : Legal t (.phase .pending conditions)

/-- The monitor that holds a reconcile to the rules. -/
def discipline : Monitor Resp (List Obs) where
  allowed t r := ∀ effect, effectOf r = some effect → Legal ctx sm t effect
  observe t r answer := (obsOf r answer).toList ++ t

end

end FiveSpot
