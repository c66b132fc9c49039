import Mathlib.Logic.Relation
import FiveSpot.Agents.KataAgent
import FiveSpot.Agents.ReclaimAgent
import FiveSpot.Model.Lines

/-! # The first reclaim request of a Node (`main`, `is_already_requested` and `annotate_node` of the agent)

An agent looks for an earlier request once, before it starts to scan, and writes its own after the first match
without looking again. The Node can change in between, and what a killed agent has sent can still arrive.
-/

namespace FiveSpot.ReclaimAgent

set_option autoImplicit false

open KataAgent (annotationOf lookup_mergeKeys)

/-! ## Checks and patches -/

def MatchSource.tag : MatchSource → String
  | .comm | .argv => "process-match"

def buildPatchBody (m : Match) (timestamp : String) : NodePatch where
  labels := []
  annotations := [(Constants.reclaimRequestedAnnotation, some Constants.reclaimRequestedValue),
    (Constants.reclaimReasonAnnotation, some (m.source.tag ++ ": " ++ m.matchedPattern)),
    (Constants.reclaimRequestedAtAnnotation, some timestamp)]
  unschedulable := none

def alreadyRequested (annotations : StringMap) : Bool :=
  StringMap.lookup Constants.reclaimRequestedAnnotation annotations == some Constants.reclaimRequestedValue

/-- What `read_host_machine_id` returns. -/
structure MachineId where
  id : String
  trimmed : Text.trim id = id
  filled : id ≠ ""

inductive HostIdentityError where
  | readFailed (path source : String)
  | empty (path : String)
  | mismatch (hostId nodeId nodeName : String)
  | nodeMachineIdMissing (nodeName : String)

def readHostMachineId (path : String) (raw : Except String String) : Except HostIdentityError MachineId :=
  match raw with
  | .error e => .error (.readFailed path e)
  | .ok text => if h : Text.trim text = "" then .error (.empty path) else .ok ⟨Text.trim text, Text.trim_trim text, h⟩

/-- `machineId` is `status.nodeInfo.machineID` of the Node. -/
def compareMachineIds (machineId : Option String) (nodeName expectedHostId : String) : Except HostIdentityError Unit :=
  match machineId with
  | none => .error (.nodeMachineIdMissing nodeName)
  | some raw =>
    if Text.trim raw = "" then .error (.nodeMachineIdMissing nodeName)
    else if Text.trim raw ≠ expectedHostId then .error (.mismatch expectedHostId (Text.trim raw) nodeName)
    else .ok ()

/-! ## Agents at work -/

/-- Where an agent is; `hostId` is absent when the identity check is skipped. -/
inductive Agent where
  | down
  /-- Before the look for an earlier request. -/
  | started (hostId : Option MachineId)
  | scanning (hostId : Option MachineId) (config : Option Config)
  /-- Before the identity check. -/
  | matched (hostId : Option MachineId) (m : Match)
  | verified (m : Match)
  | patching

/-- The Node with all agents there have been for it and the PATCHes they have sent, while these are under way. -/
structure Site where
  nodeName : String
  node : Node
  machineId : Option String
  agents : Nat → Agent
  flight : List NodePatch

inductive Move where
  | boot (i : Nat) (hostId : Option MachineId)
  /-- It returns, fails or is killed. What it has sent stays under way. -/
  | exit (i : Nat)
  | look (i : Nat)
  | push (i : Nat) (config : Option Config)
  | scan (i : Nat) (proc : ProcRoot)
  | exec (i pid : Nat) (entry : ProcEntry)
  | identify (i : Nat)
  | send (i : Nat) (timestamp : String)
  /-- The API server applies one of the PATCHes under way. -/
  | land (k : Nat)
  | lose (k : Nat)
  /-- The controller, the kubelet or a human changes the Node. -/
  | write (node : Node) (machineId : Option String)

def Site.become (s : Site) (i : Nat) (agent : Agent) : Site := { s with agents := Function.update s.agents i agent }

def Site.requested (s : Site) : Bool := alreadyRequested (s.node.annotations.getD [])

/-- One step; `none` when the agent is not there yet or no longer. -/
def Site.step (s : Site) : Move → Option Site
  | .boot i hostId => match s.agents i with
    | .down => some (s.become i (.started hostId))
    | _ => none
  | .exit i => some (s.become i .down)
  | .look i => match s.agents i with
    | .started hostId => some (s.become i (if s.requested then .down else .scanning hostId none))
    | _ => none
  | .push i config => match s.agents i with
    | .scanning hostId _ => some (s.become i (.scanning hostId config))
    | _ => none
  | .scan i proc => match s.agents i with
    | .scanning hostId (some config) => match scanProc proc config with
      | .ok (some m) => some (s.become i (.matched hostId m))
      | .ok none => some s
      | .error _ => some (s.become i .down)
    | _ => none
  | .exec i pid entry => match s.agents i with
    | .scanning hostId (some config) => match matchPid pid entry config with
      | some m => some (s.become i (.matched hostId m))
      | none => some s
    | _ => none
  | .identify i => match s.agents i with
    | .matched none m => some (s.become i (.verified m))
    | .matched (some host) m => match compareMachineIds s.machineId s.nodeName host.id with
      | .ok _ => some (s.become i (.verified m))
      | .error _ => some (s.become i .down)
    | _ => none
  | .send i timestamp => match s.agents i with
    | .verified m => some { s.become i .patching with flight := s.flight ++ [buildPatchBody m timestamp] }
    | _ => none
  | .land k => s.flight[k]?.map fun body => { s with node := body.apply s.node, flight := s.flight.eraseIdx k }
  | .lose k => if k < s.flight.length then some { s with flight := s.flight.eraseIdx k } else none
  | .write node machineId => some { s with node := node, machineId := machineId }

/-- No agent is up and nothing is under way; the Node is as it may be. -/
structure Site.Fresh (s : Site) : Prop where
  agents : ∀ i, s.agents i = .down
  flight : s.flight = []

/-- The agent has looked for an earlier request and has not sent its own yet. -/
def Agent.armed : Agent → Bool
  | .scanning _ _ | .matched _ _ | .verified _ => true
  | .down | .started _ | .patching => false

/-- The move puts a request on a Node that has none. -/
def Site.requests (s : Site) : Move → Bool
  | .land _ => !s.requested
  | .write node _ => !s.requested && alreadyRequested (node.annotations.getD [])
  | _ => false

/-- What is under way apart from the PATCH the move applies. -/
def Site.otherFlight (s : Site) : Move → List NodePatch
  | .land k => s.flight.eraseIdx k
  | _ => s.flight

/-- A request comes onto the Node only while no agent relies on there being none and no other PATCH is under way. -/
def Exclusive (s : Site) (a : Move) : Prop :=
  s.requests a = true → (∀ i, (s.agents i).armed = false) ∧ s.otherFlight a = []

/-- Runs all of whose steps meet a condition. -/
def RunsWithin (ok : Site → Move → Prop) : Site → Site → Prop :=
  Relation.ReflTransGen fun s t => ∃ a, ok s a ∧ s.step a = some t

def Keeps (before after : Node) : Prop :=
  annotationOf after Constants.reclaimReasonAnnotation = annotationOf before Constants.reclaimReasonAnnotation ∧
    annotationOf after Constants.reclaimRequestedAtAnnotation = annotationOf before Constants.reclaimRequestedAtAnnotation

/-- In every run no PATCH of an agent changes reason and time of a request that is there. -/
def NeverOverwritten (ok : Site → Move → Prop) : Prop :=
  ∀ init s k after, init.Fresh → RunsWithin ok init s → s.step (.land k) = some after → s.requested = true →
    Keeps s.node after.node

def Move.isWrite : Move → Bool
  | .write _ _ => true
  | _ => false

/-! ## One step -/

variable {init s s' : Site}

@[simp] theorem Site.become_node (s : Site) (i : Nat) (agent : Agent) : (s.become i agent).node = s.node := rfl

@[simp] theorem Site.become_flight (s : Site) (i : Nat) (agent : Agent) : (s.become i agent).flight = s.flight := rfl

theorem buildPatchBody_requests (node : Node) (m : Match) (timestamp : String) :
    alreadyRequested (((buildPatchBody m timestamp).apply node).annotations.getD []) = true := by
  have hlookup : annotationOf ((buildPatchBody m timestamp).apply node) Constants.reclaimRequestedAnnotation =
      some Constants.reclaimRequestedValue := by
    change StringMap.lookup _ (mergeKeys (mergeKeys (mergeKeys (node.annotations.getD [])
      [(Constants.reclaimRequestedAnnotation, some Constants.reclaimRequestedValue)])
      [(Constants.reclaimReasonAnnotation, some (m.source.tag ++ ": " ++ m.matchedPattern))])
      [(Constants.reclaimRequestedAtAnnotation, some timestamp)]) = _
    rw [lookup_mergeKeys, if_neg (by decide), lookup_mergeKeys, if_neg (by decide), lookup_mergeKeys, if_pos rfl]
  exact beq_iff_eq.mpr hlookup

/-- What a step does: it lets one agent go on, it lands or loses a PATCH, or somebody else writes. -/
inductive Change (s : Site) : Move → Site → Prop
  | agent {a : Move} (i : Nat) (agent : Agent)
      (harmed : agent.armed = true → (s.agents i).armed = true ∨ s.requested = false) : Change s a (s.become i agent)
  | same {a : Move} : Change s a s
  | send (i : Nat) (m : Match) (timestamp : String) (harmed : (s.agents i).armed = true) :
      Change s (.send i timestamp) { s.become i .patching with flight := s.flight ++ [buildPatchBody m timestamp] }
  | land (k : Nat) (body : NodePatch) (hbody : s.flight[k]? = some body) :
      Change s (.land k) { s with node := body.apply s.node, flight := s.flight.eraseIdx k }
  | lose (k : Nat) : Change s (.lose k) { s with flight := s.flight.eraseIdx k }
  | write (node : Node) (machineId : Option String) :
      Change s (.write node machineId) { s with node := node, machineId := machineId }

theorem change_of_step {a : Move} (h : s.step a = some s') : Change s a s' := by
  cases a with
  | boot i hostId =>
    simp only [Site.step] at h
    split at h
    · cases h
      exact .agent i _ (by rintro ⟨⟩)
    · cases h
  | exit i =>
    cases h
    exact .agent i _ (by rintro ⟨⟩)
  | look i =>
    simp only [Site.step] at h
    split at h
    · cases h
      refine .agent i _ fun harmed => .inr ?_
      cases hrequested : s.requested with
      | false => rfl
      | true =>
        rw [hrequested] at harmed
        cases harmed
    · cases h
  | push i config =>
    simp only [Site.step] at h
    split at h
    · rename_i hostId old hagent
      cases h
      exact .agent i _ fun _ => .inl (by rw [hagent]; rfl)
    · cases h
  | scan i proc =>
    simp only [Site.step] at h
    split at h
    · rename_i hostId config hagent
      split at h
      · cases h
        exact .agent i _ fun _ => .inl (by rw [hagent]; rfl)
      · cases h
        exact .same
      · cases h
        exact .agent i _ (by rintro ⟨⟩)
    · cases h
  | exec i pid entry =>
    simp only [Site.step] at h
    split at h
    · rename_i hostId config hagent
      split at h
      · cases h
        exact .agent i _ fun _ => .inl (by rw [hagent]; rfl)
      · cases h
        exact .same
    · cases h
  | identify i =>
    simp only [Site.step] at h
    split at h
    · rename_i m hagent
      cases h
      exact .agent i _ fun _ => .inl (by rw [hagent]; rfl)
    · rename_i host m hagent
      split at h
      · cases h
        exact .agent i _ fun _ => .inl (by rw [hagent]; rfl)
      · cases h
        exact .agent i _ (by rintro ⟨⟩)
    · cases h
  | send i timestamp =>
    simp only [Site.step] at h
    split at h
    · rename_i m hagent
      cases h
      exact .send i m timestamp (by rw [hagent]; rfl)
    · cases h
  | land k =>
    obtain ⟨body, hbody, rfl⟩ := Option.map_eq_some_iff.mp h
    exact .land k body hbody
  | lose k =>
    simp only [Site.step] at h
    split at h
    · cases h
      exact .lose k
    · cases h
  | write node machineId =>
    cases h
    exact .write node machineId

/-! ## The invariant -/

/-- Where the request is, nobody relies on there being none. -/
structure Settled (s : Site) : Prop where
  agents : s.requested = true → ∀ i, (s.agents i).armed = false
  flight : s.requested = true → s.flight = []

theorem settled_of_fresh (h : s.Fresh) : Settled s where
  agents _ i := by rw [h.agents i]; rfl
  flight _ := h.flight

theorem settled_become (h : Settled s) {i : Nat} {agent : Agent}
    (harmed : agent.armed = true → (s.agents i).armed = true ∨ s.requested = false) : Settled (s.become i agent) where
  agents hrequested j := by
    change s.requested = true at hrequested
    by_cases hj : j = i
    · subst hj
      change (Function.update s.agents j agent j).armed = false
      rw [Function.update_self, Bool.eq_false_iff]
      intro hagent
      rcases harmed hagent with hold | hnone
      · rw [h.agents hrequested j] at hold
        cases hold
      · rw [hnone] at hrequested
        cases hrequested
    · change (Function.update s.agents i agent j).armed = false
      rw [Function.update_of_ne hj]
      exact h.agents hrequested j
  flight := h.flight

theorem settled_step {a : Move} (hok : Exclusive s a) (hstep : s.step a = some s') (h : Settled s) : Settled s' := by
  cases change_of_step hstep with
  | agent i agent harmed => exact settled_become h harmed
  | same => exact h
  | send i m timestamp harmed =>
    have hnone : s.requested = false := by
      rw [Bool.eq_false_iff]
      intro hrequested
      rw [h.agents hrequested i] at harmed
      cases harmed
    refine ⟨fun hrequested => ?_, fun hrequested => ?_⟩ <;>
    · change s.requested = true at hrequested
      rw [hnone] at hrequested
      cases hrequested
  | land k body hbody =>
    cases hrequested : s.requested with
    | true =>
      rw [h.flight hrequested] at hbody
      cases hbody
    | false =>
      obtain ⟨hagents, hflight⟩ := hok (by rw [Site.requests, hrequested]; rfl)
      exact ⟨fun _ => hagents, fun _ => hflight⟩
  | lose k =>
    refine ⟨h.agents, fun hrequested => ?_⟩
    change s.flight.eraseIdx k = []
    rw [h.flight hrequested]
    rfl
  | write node machineId =>
    cases hold : s.requested with
    | true => exact ⟨fun _ => h.agents hold, fun _ => h.flight hold⟩
    | false =>
      have hnew : ∀ hrequested : Site.requested { s with node := node, machineId := machineId } = true,
          (∀ i, (s.agents i).armed = false) ∧ s.flight = [] := by
        intro hrequested
        refine hok ?_
        rw [Site.requests, hold]
        exact hrequested
      exact ⟨fun hrequested => (hnew hrequested).1, fun hrequested => (hnew hrequested).2⟩

theorem settled_run (hinit : Settled init) (hrun : RunsWithin Exclusive init s) : Settled s := by
  induction hrun with
  | refl => exact hinit
  | tail _ hstep ih =>
    obtain ⟨a, hok, hstep⟩ := hstep
    exact settled_step hok hstep ih

/-! ## When it is not exclusive -/

/-- Any steps at all. -/
def anyMove : Site → Move → Prop := fun _ _ => True

theorem RunsWithin.single {a : Move} (h : s.step a = some s') : RunsWithin anyMove s s' :=
  Relation.ReflTransGen.single ⟨a, trivial, h⟩

/-- A PATCH of an agent is under way. -/
def Site.Sent (s : Site) : Prop := ∃ (k : Nat) (m : Match) (timestamp : String),
  s.flight[k]? = some (buildPatchBody m timestamp)

theorem sent_of_verified {i : Nat} {m : Match} (hagent : s.agents i = .verified m) :
    ∃ t, RunsWithin anyMove s t ∧ t.Sent := by
  refine ⟨{ s.become i .patching with flight := s.flight ++ [buildPatchBody m ""] },
    .single (a := .send i "") (by simp only [Site.step, hagent]), s.flight.length, m, "", ?_⟩
  exact List.getElem?_concat_length

theorem sent_of_matched {i : Nat} {hostId : Option MachineId} {m : Match} (hagent : s.agents i = .matched hostId m) :
    ∃ t, RunsWithin anyMove s t ∧ t.Sent := by
  cases hostId with
  | none =>
    have hstep : s.step (.identify i) = some (s.become i (.verified m)) := by simp only [Site.step, hagent]
    obtain ⟨t, hrun, hsent⟩ := sent_of_verified (s := s.become i (.verified m)) (Function.update_self i _ _)
    exact ⟨t, (RunsWithin.single hstep).trans hrun, hsent⟩
  | some host =>
    -- the kubelet writes the identity of the host
    have hwrite : s.step (.write s.node (some host.id)) = some { s with machineId := some host.id } := rfl
    have hstep : Site.step { s with machineId := some host.id } (.identify i) =
        some (Site.become { s with machineId := some host.id } i (.verified m)) := by
      simp [Site.step, hagent, compareMachineIds, host.trimmed, host.filled]
    obtain ⟨t, hrun, hsent⟩ := sent_of_verified (s := Site.become { s with machineId := some host.id } i (.verified m))
      (Function.update_self i _ _)
    exact ⟨t, ((RunsWithin.single hwrite).trans (RunsWithin.single hstep)).trans hrun, hsent⟩

theorem sent_of_armed {i : Nat} (harmed : (s.agents i).armed = true) : ∃ t, RunsWithin anyMove s t ∧ t.Sent := by
  cases hagent : s.agents i with
  | down | started | patching =>
    rw [hagent] at harmed
    cases harmed
  | verified m => exact sent_of_verified hagent
  | matched hostId m => exact sent_of_matched hagent
  | scanning hostId config =>
    -- a pattern that every command line has
    have hpush : s.step (.push i (some ⟨[], [""], 1⟩)) = some (s.become i (.scanning hostId (some ⟨[], [""], 1⟩))) := by
      simp only [Site.step, hagent]
    have hfound : matchPid 0 ⟨none, some ByteArray.empty⟩ ⟨[], [""], 1⟩ = some ⟨0, "", .argv⟩ := by decide
    have hexec : (s.become i (.scanning hostId (some ⟨[], [""], 1⟩))).step (.exec i 0 ⟨none, some ByteArray.empty⟩) =
        some ((s.become i (.scanning hostId (some ⟨[], [""], 1⟩))).become i (.matched hostId ⟨0, "", .argv⟩)) := by
      simp only [Site.step, Site.become, Function.update_self, hfound]
    obtain ⟨t, hrun, hsent⟩ := sent_of_matched (s := (s.become i (.scanning hostId (some ⟨[], [""], 1⟩))).become i
      (.matched hostId ⟨0, "", .argv⟩)) (Function.update_self i _ _)
    exact ⟨t, ((RunsWithin.single hpush).trans (RunsWithin.single hexec)).trans hrun, hsent⟩

/-- What is under way comes from agents. -/
theorem flight_built (hinit : init.Fresh) (hrun : RunsWithin anyMove init s) :
    ∀ body ∈ s.flight, ∃ m timestamp, body = buildPatchBody m timestamp := by
  induction hrun with
  | refl =>
    rw [hinit.flight]
    exact fun _ h => absurd h List.not_mem_nil
  | tail _ hstep ih =>
    obtain ⟨a, -, hstep⟩ := hstep
    cases change_of_step hstep with
    | agent | same | write => exact ih
    | send i m timestamp _ =>
      intro body hbody
      rcases List.mem_append.mp hbody with hbody | hbody
      · exact ih body hbody
      · exact ⟨m, timestamp, List.mem_singleton.mp hbody⟩
    | land | lose => exact fun body hbody => ih body (List.mem_of_mem_eraseIdx hbody)

theorem requestedAt_buildPatchBody (node : Node) (m : Match) (timestamp : String) :
    annotationOf ((buildPatchBody m timestamp).apply node) Constants.reclaimRequestedAtAnnotation = some timestamp := by
  change StringMap.lookup _ (mergeKeys (mergeKeys (node.annotations.getD [])
    [(Constants.reclaimRequestedAnnotation, some Constants.reclaimRequestedValue),
      (Constants.reclaimReasonAnnotation, some (m.source.tag ++ ": " ++ m.matchedPattern))])
    [(Constants.reclaimRequestedAtAnnotation, some timestamp)]) = _
  rw [lookup_mergeKeys, if_pos rfl]

/-- A PATCH under way overwrites a request that somebody else makes now. -/
theorem overwritten_of_sent (hsent : s.Sent) : ∃ t k after, RunsWithin anyMove s t ∧
    t.step (.land k) = some after ∧ t.requested = true ∧ ¬Keeps t.node after.node := by
  obtain ⟨k, m, timestamp, hbody⟩ := hsent
  let theirs := (buildPatchBody m (timestamp ++ "0")).apply s.node
  let t : Site := { s with node := theirs }
  refine ⟨t, k, { t with node := (buildPatchBody m timestamp).apply theirs, flight := s.flight.eraseIdx k },
    .single (a := .write theirs s.machineId) rfl, ?_, buildPatchBody_requests _ _ _, ?_⟩
  · simp only [Site.step, t, hbody]
    rfl
  · rintro ⟨-, hat⟩
    change annotationOf ((buildPatchBody m timestamp).apply theirs) _ = annotationOf theirs _ at hat
    rw [requestedAt_buildPatchBody, requestedAt_buildPatchBody] at hat
    have hlength := congrArg String.length (Option.some.inj hat)
    rw [String.length_append] at hlength
    have hone : "0".length = 1 := by decide
    omega

/-- Where a request comes onto the Node otherwise, the run can go on to overwrite a request. -/
theorem overwritten_of_not_exclusive {a : Move} (hinit : init.Fresh) (hrun : RunsWithin anyMove init s)
    (hstep : s.step a = some s') (hshared : ¬Exclusive s a) : ∃ t k after, RunsWithin anyMove s' t ∧
      t.step (.land k) = some after ∧ t.requested = true ∧ ¬Keeps t.node after.node := by
  have hsent : ∃ t, RunsWithin anyMove s' t ∧ t.Sent := by
    rw [Exclusive, Classical.not_imp] at hshared
    obtain ⟨hrequests, hshared⟩ := hshared
    have hafter : s'.agents = s.agents ∧ s'.flight = s.otherFlight a := by
      cases a with
      | land k =>
        obtain ⟨body, -, rfl⟩ := Option.map_eq_some_iff.mp hstep
        exact ⟨rfl, rfl⟩
      | write node machineId =>
        cases hstep
        exact ⟨rfl, rfl⟩
      | _ => cases hrequests
    by_cases harmed : ∀ i, (s.agents i).armed = false
    · have hflight : s'.flight ≠ [] := fun h => hshared ⟨harmed, hafter.2 ▸ h⟩
      obtain ⟨body, hbody⟩ := List.exists_mem_of_ne_nil _ hflight
      obtain ⟨m, timestamp, rfl⟩ := flight_built hinit (hrun.trans (RunsWithin.single hstep)) body hbody
      obtain ⟨k, hk⟩ := List.mem_iff_getElem?.mp hbody
      exact ⟨s', .refl, k, m, timestamp, hk⟩
    · obtain ⟨i, hi⟩ := not_forall.mp harmed
      refine sent_of_armed (i := i) ?_
      rw [hafter.1]
      exact Bool.not_eq_false _ |>.mp hi
  obtain ⟨t, hrun', hsent⟩ := hsent
  obtain ⟨t', k, after, hrun'', hland, hrequested, hchanged⟩ := overwritten_of_sent hsent
  exact ⟨t', k, after, hrun'.trans hrun'', hland, hrequested, hchanged⟩

/-! ## Requests that stay -/

theorem never_overwritten : NeverOverwritten Exclusive := by
  intro init s k after hinit hrun hland hrequested
  rw [Site.step, (settled_run (settled_of_fresh hinit) hrun).flight hrequested] at hland
  cases hland

theorem node_of_run (hsettled : Settled s) (hrequested : s.requested = true)
    (hrun : RunsWithin (fun t a => Exclusive t a ∧ a.isWrite = false) s s') : s'.node = s.node := by
  suffices hall : Settled s' ∧ s'.node = s.node from hall.2
  induction hrun with
  | refl => exact ⟨hsettled, rfl⟩
  | tail _ hstep ih =>
    obtain ⟨a, ⟨hok, hquiet⟩, hstep⟩ := hstep
    obtain ⟨hbefore, hnode⟩ := ih
    refine ⟨settled_step hok hstep hbefore, ?_⟩
    cases change_of_step hstep with
    | agent | same | send | lose => exact hnode
    | write => cases hquiet
    | land k body hbody =>
      rename_i t _
      have hrequested' : t.requested = true := by rw [Site.requested, hnode]; exact hrequested
      rw [hbefore.flight hrequested'] at hbody
      cases hbody

theorem runsWithin_of_foldlM {ok : Site → Move → Prop} {moves : List Move} (hok : ∀ a ∈ moves, ∀ s, ok s a)
    (h : moves.foldlM Site.step s = some s') : RunsWithin ok s s' := by
  induction moves generalizing s with
  | nil =>
    cases h
    exact .refl
  | cons a moves ih =>
    rw [List.foldlM_cons] at h
    obtain ⟨t, hstep, hrest⟩ := Option.bind_eq_some_iff.mp h
    exact .head ⟨a, hok a List.mem_cons_self s, hstep⟩ (ih (fun b hb => hok b (List.mem_cons_of_mem a hb)) hrest)

def requestedByHand : Node where
  labels := []
  annotations := some [(Constants.reclaimRequestedAnnotation, Constants.reclaimRequestedValue),
    (Constants.reclaimReasonAnnotation, "maintenance"), (Constants.reclaimRequestedAtAnnotation, "2026-01-01T08:00:00+00:00")]
  unschedulable := false
  taints := []
  conditions := none
  distinct := distinctTaints_nil
  stored := isStored_nil

def idleSite : Site where
  nodeName := "worker-1"
  node := { requestedByHand with annotations := none }
  machineId := none
  agents _ := .down
  flight := []

/-- The agent is armed and finds java; its PATCH is under way. -/
def requestOfAgent : List Move :=
  [.boot 0 none, .look 0, .push 0 (some ⟨["java"], [], 500⟩), .exec 0 42 ⟨some ⟨#[106, 97, 118, 97, 10]⟩, none⟩,
    .identify 0, .send 0 "2026-01-01T09:00:00+00:00"]

def sentSite : Site := (requestOfAgent.foldlM Site.step idleSite).getD idleSite

def requestedSite : Site := (sentSite.step (.land 0)).getD sentSite

/-- The agent is armed, an operator makes a request, and the agent's first match comes after it. -/
def requestMeanwhile : List Move :=
  [.boot 0 none, .look 0, .push 0 (some ⟨["java"], [], 500⟩), .write requestedByHand none,
    .exec 0 42 ⟨some ⟨#[106, 97, 118, 97, 10]⟩, none⟩, .identify 0, .send 0 "2026-01-01T09:00:00+00:00"]

end FiveSpot.ReclaimAgent
