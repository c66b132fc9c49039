import FiveSpot.Cluster.LogInvariant
import FiveSpot.Discipline.Requests
import FiveSpot.Interaction.Observer

/-! # How often a reclaim is counted

A reclaim is counted in the middle of a flow that starts again from the top whenever it fails. What keeps the
counter right is that the request is taken off the Node before the next attempt gets that far.
-/

namespace FiveSpot

set_option autoImplicit false

open Interaction

/-! ## Requests and their counts -/

/-- The `generation`-th time that others have set the annotation on the Node. -/
structure RequestId where
  node : String
  generation : Nat
  deriving DecidableEq

def World.requestOn (w : World) (node : String) : Option ReclaimRequest :=
  (w.env.node .management node).bind nodeReclaimRequest

structure ReclaimNotes where
  generation : String → Nat
  /-- The first request that the pass in progress has found. -/
  found : Option RequestId
  /-- The counter was incremented for these, the latest first. -/
  counted : List RequestId
  /-- The same for the entries of the deque. -/
  tracked : List RequestId
  /-- The threshold for the warning was reached. -/
  warned : Bool

namespace ReclaimNotes

def empty : ReclaimNotes := ⟨fun _ => 0, none, [], [], false⟩

def find (n : ReclaimNotes) (node : String) : ReclaimNotes :=
  if n.found.isNone then { n with found := some ⟨node, n.generation node⟩ } else n

def serve (n : ReclaimNotes) : (r : Req) → Resp r → ReclaimNotes
  | .api .management (.getNode name), .ok node => if (nodeReclaimRequest node).isSome then n.find name else n
  | .loc (.recordEmergencyReclaim _ _), _ => { n with counted := n.found.toList ++ n.counted }
  | .loc (.recordEmergencyReclaimEvent _ _), breach =>
    { n with tracked := n.found.toList ++ n.tracked, warned := n.warned || breach }
  | _, _ => n

end ReclaimNotes

def reclaimChronicle : Chronicle Resp World Snapshot ReclaimNotes where
  opened _ n := { n with found := none }
  served n r answer _ := n.serve r answer
  interfered n before after :=
    { n with
      generation := fun node =>
        if (after.requestOn node).isSome && before.requestOn node != after.requestOn node then n.generation node + 1
        else n.generation node }

def countedSystem (ctx : Context) : System Resp ReconcilerError Action (World × ReclaimNotes) Snapshot Interference Fate :=
  (system ctx).chronicledBy reclaimChronicle

abbrev CountedState := State Resp ReconcilerError Action (World × ReclaimNotes) Snapshot

def FreshCounted (w : World × ReclaimNotes) : Prop := Fresh w.1 ∧ w.2 = .empty

theorem reach_iff_counted {ctx : Context} {s : RunState} : (system ctx).Reach Fresh (fun _ _ => True) s ↔
    ∃ n, (countedSystem ctx).Reach FreshCounted (fun _ _ => True) ⟨(s.world, n), s.pass⟩ := by
  constructor
  · exact fun hs => System.Reach.observed (System.annotates_chronicledBy _ _) ReclaimNotes.empty hs
  · rintro ⟨n, hn⟩
    exact hn.forget (System.annotates_chronicledBy _ _) (fun _ hw => hw.1) fun _ _ _ => trivial

/-- No request is counted twice, the counter and the deque hold nothing else, and the warning needs as many
requests as its threshold says. -/
structure CountedOnce (w : World) (n : ReclaimNotes) : Prop where
  counted : n.counted.Nodup
  tracked : n.tracked.Nodup
  counter : ∀ ns name, w.memory.reclaimCount ns name ≤ n.counted.length
  deque : ∀ key, (w.memory.recentReclaims key).length ≤ n.tracked.length
  warned : n.warned = true → Constants.rapidReReclaimThreshold ≤ n.tracked.length

/-- An attempt at a request that has been counted does not get past writing the phase. -/
def replayStops (s : CountedState) : RunAct → Bool
  | .answer fate => (nextCall s.forget).all fun ⟨_, _, call⟩ =>
      !(call.phaseTarget == some .emergencyRemove && fate.isOk) ||
        s.world.2.found.all fun request => !s.world.2.counted.contains request
  | _ => true

/-! ## One pass counts once -/

/-- How far a pass has got with a request. -/
inductive Stage where
  | idle
  | found
  | marked
  | counted
  | tracked

def Stage.next : Stage → (r : Req) → Resp r → Stage
  | .idle, .api .management (.getNode _), .ok node => if (nodeReclaimRequest node).isSome then .found else .idle
  | .found, .api _ call, .ok _ => if call.phaseTarget = some .emergencyRemove then .marked else .found
  | .marked, .loc (.recordEmergencyReclaim _ _), _ => .counted
  | .counted, .loc (.recordEmergencyReclaimEvent _ _), _ => .tracked
  | stage, _, _ => stage

/-- The counter goes up right after the phase was written, and the deque right after the counter. -/
def counting : Monitor Resp Stage where
  allowed
    | stage, .loc (.recordEmergencyReclaim _ _) => stage = .marked
    | stage, .loc (.recordEmergencyReclaimEvent _ _) => stage = .counted
    | _, _ => True
  observe := Stage.next

def Untracked (r : Req) : Prop := ∀ op, r = .loc op → op.tracks = false

theorem permits_untracked : PermitsPhases Untracked where
  call _ _ _ _ _ h := nomatch h
  loc op htracks op' h := by
    cases h
    exact htracks
  write _ _ _ _ _ h := nomatch h
  timer _ _ h := nomatch h
  node _ _ _ _ h := nomatch h

theorem untracked_api (client : Client) (call : ApiCall) : Untracked (.api client call) := fun _ h => nomatch h

theorem allowed_of_untracked {r : Req} (h : Untracked r) (stage : Stage) : counting.allowed stage r := by
  cases r with
  | loc op =>
    have htracks := h op rfl
    cases op with
    | recordEmergencyReclaim ns name => cases htracks
    | recordEmergencyReclaimEvent key now => cases htracks
    | _ => trivial
  | _ => trivial

section

variable {ctx : Context} {sm : ScheduledMachine} {stage : Stage} {α β : Type}

def anyStage : Except ReconcilerError α → Stage → Prop := fun _ _ => True

theorem counting_of_untracked {p : Ctl α} (hp : p.Issues Untracked) : Conforms counting p anyStage stage :=
  conforms_of_allowed (fun _ => allowed_of_untracked) hp

theorem counting_publishBestEffort {event : KubeEvent} {Q : Except ReconcilerError Unit → Stage → Prop}
    (hQ : Q (.ok ()) stage) (hstage : stage ≠ .idle) : Conforms counting (publishBestEffort event) Q stage := by
  refine ⟨trivial, fun answer => ?_⟩
  have hsame : Stage.next stage (.api .management (.publishEvent event)) answer = stage := by
    cases stage with
    | found => cases answer <;> rfl
    | idle => exact absurd rfl hstage
    | _ => rfl
  change Q (.ok ()) (Stage.next stage (.api .management (.publishEvent event)) answer)
  rw [hsame]
  exact hQ

theorem counting_writePhase {ns name reason message : String} {fromPhase : Option Phase} {inSchedule : Bool}
    {Q : Except ReconcilerError Unit → Stage → Prop} (hok : Q (.ok ()) .marked) (herror : ∀ e, Q (.error e) .found) :
    Conforms counting (writePhase ns name fromPhase .emergencyRemove reason message inSchedule) Q .found := by
  unfold writePhase
  rw [Prog.bind_def, conforms_bind]
  apply counting_publishBestEffort
  · refine ⟨trivial, fun now => ⟨trivial, fun answer => ?_⟩⟩
    cases answer with
    | ok _ => exact hok
    | error e => exact herror _
  · exact Stage.noConfusion

theorem counting_recordReclaim {ns name : String} : Conforms counting (recordReclaim ns name) anyStage .marked := by
  refine ⟨rfl, fun _ => ⟨trivial, fun now => ⟨rfl, fun breach => ?_⟩⟩⟩
  cases breach with
  | true => exact counting_of_untracked (issues_publishBestEffort permits_untracked.toPermitsReads _)
  | false => trivial

theorem counting_handleEmergencyRemove {nodeName : String} {request : ReclaimRequest} :
    Conforms counting (handleEmergencyRemove ctx sm nodeName request) anyStage .found := by
  have hreads := permits_untracked.toPermitsReads
  have hnode : ∀ client call, Untracked (.api client call) := untracked_api
  unfold handleEmergencyRemove
  rw [Prog.bind_def, conforms_bind, conforms_ofExcept]
  cases requireNamespace sm with
  | error e => trivial
  | ok ns =>
    rw [continue_ok, Prog.bind_def, conforms_bind]
    apply counting_publishBestEffort
    · rw [continue_ok, Prog.bind_def, conforms_bind]
      apply counting_writePhase
      · rw [continue_ok, Prog.bind_def, conforms_bind]
        apply counting_recordReclaim.mono
        intro x stage _
        cases x with
        | error e => trivial
        | ok _ =>
          apply counting_of_untracked
          apply (issues_resolve hreads sm).bind
          intro child
          apply Prog.Issues.bind (Issues.bestEffort (issues_drainNodeWithTimeout hreads (fun _ _ => hnode _ _) _ _))
          intro _
          apply (issues_removeMachineFromCluster (fun _ => hnode _ _) _).bind
          intro _
          apply (issues_patchDisableSchedule permits_untracked.toPermitsOffnode _ _).bind
          intro _
          apply (issues_publishBestEffort hreads _).bind
          intro _
          apply (issues_clearReclaimAnnotationsBestEffort (fun _ _ => hnode _ _) _).bind
          intro _
          exact (issues_writePhase permits_untracked.toPermitsOffnode ..).bind fun _ => trivial
      · exact fun _ => trivial
    · exact Stage.noConfusion

theorem counting_checkEmergencyReclaim :
    Conforms counting (checkEmergencyReclaim ctx sm) anyStage .idle := by
  unfold checkEmergencyReclaim
  split
  · trivial
  · rename_i nodeName hnode
    refine ⟨trivial, fun answer => ?_⟩
    cases answer with
    | error e =>
      change Conforms counting (if e.isNotFound = true then _ else _) anyStage _
      split <;> trivial
    | ok node =>
      change Conforms counting _ anyStage (if (nodeReclaimRequest node).isSome = true then Stage.found else Stage.idle)
      simp only [Prog.pure_bind]
      cases nodeReclaimRequest node with
      | none => trivial
      | some request =>
        dsimp only [Option.isSome_some]
        rw [if_pos rfl, Prog.bind_def, conforms_bind]
        apply counting_handleEmergencyRemove.mono
        intro x stage _
        cases x <;> trivial

theorem counting_reconcile : Conforms counting (reconcileScheduledMachine ctx sm) anyStage .idle := by
  rw [reconcileScheduledMachine, Prog.bind_def, conforms_bind, conforms_ofExcept]
  cases requireNamespace sm with
  | error e => trivial
  | ok ns =>
    rw [continue_ok, reconcileGuarded]
    split
    · trivial
    split
    · trivial
    split
    · exact counting_of_untracked (issues_handleDeletion permits_untracked.toPermitsOffnode _ _)
    split
    · exact counting_of_untracked (issues_addFinalizer permits_untracked.toPermitsOffnode _)
    rw [reconcileInner, Prog.bind_def, conforms_bind, conforms_ofExcept]
    cases requireNamespace sm with
    | error e => trivial
    | ok ns' =>
      rw [continue_ok, Prog.bind_def, conforms_bind, conforms_ofExcept]
      cases validateSpec sm.spec with
      | error e => trivial
      | ok _ =>
        rw [continue_ok]
        split
        · exact counting_of_untracked (issues_handleKillSwitch permits_untracked.toPermitsOffnode _ _)
        · rw [Prog.bind_def, conforms_bind]
          apply counting_checkEmergencyReclaim.mono
          intro x stage _
          cases x with
          | error e => trivial
          | ok action =>
            cases action with
            | some action => trivial
            | none => exact counting_of_untracked (issues_reconcileSchedule permits_untracked ..)

end

/-! ## The invariant -/

/-- What the notes say while a pass is at a stage. -/
def ReclaimNotes.At (n : ReclaimNotes) : Stage → Prop
  | .idle => n.found = none
  | .found => ∃ request, n.found = some request
  | .marked => ∃ request, n.found = some request ∧ request ∉ n.counted
  | .counted => ∃ request, n.found = some request ∧ request ∈ n.counted ∧ request ∉ n.tracked
  | .tracked => True

structure CountInvariant (w : World × ReclaimNotes) (pass : Option (Snapshot × List (Sigma Resp))) : Prop
    extends CountedOnce w.1 w.2 where
  known : ∀ request ∈ w.2.tracked, request ∈ w.2.counted
  pass : ∀ snap trace, pass = some (snap, trace) → w.2.At (counting.after .idle trace)

section

variable {w : World} {n : ReclaimNotes} {stage : Stage}

theorem length_recordEmergencyReclaimEvent (events : List Time) (now : Time) :
    (recordEmergencyReclaimEvent events now).1.length ≤ events.length + 1 := by
  have hpruned : (pruneOldReclaimEvents events now).length ≤ events.length := (List.dropWhile_suffix _).length_le
  simp only [recordEmergencyReclaimEvent, List.length_drop, List.length_append, List.length_singleton]
  omega

theorem threshold_le_of_breach {events : List Time} {now : Time} (h : (recordEmergencyReclaimEvent events now).2 = true) :
    Constants.rapidReReclaimThreshold ≤ (recordEmergencyReclaimEvent events now).1.length :=
  of_decide_eq_true h

theorem memory_of_untracked {r : Req} (hr : Untracked r) (f : Fate) :
    (serve w r f).2.memory.reclaimCount = w.memory.reclaimCount ∧
      (serve w r f).2.memory.recentReclaims = w.memory.recentReclaims := by
  cases r with
  | api client call =>
    have hsame : (serveApi w client call f).2.memory = w.memory :=
      serveApi_keeps (P := fun w' => w'.memory = w.memory) (fun _ _ h => h) rfl (fun _ _ h => (perform_static h).2.2) f
    exact ⟨congrArg _ hsame, congrArg _ hsame⟩
  | loc op =>
    have htracks := hr op rfl
    cases op with
    | recordEmergencyReclaim ns name => cases htracks
    | recordEmergencyReclaimEvent key now => cases htracks
    | cacheGet key resourceVersion =>
      change ((w.memory.cacheGet key resourceVersion).2).reclaimCount = _ ∧
        ((w.memory.cacheGet key resourceVersion).2).recentReclaims = _
      unfold Memory.cacheGet
      split
      · split <;> exact ⟨rfl, rfl⟩
      · exact ⟨rfl, rfl⟩
    | _ => exact ⟨rfl, rfl⟩
  | timer seconds => cases f <;> exact ⟨rfl, rfl⟩

/-! ### Notes of an answer -/

theorem find_eq {request : RequestId} (h : n.found = some request) (node : String) : n.find node = n := by
  simp [ReclaimNotes.find, h]

theorem serve_error (n : ReclaimNotes) (client : Client) (call : ApiCall) (e : KubeError) :
    n.serve (.api client call) (.error e) = n := by
  cases client <;> cases call <;> rfl

theorem next_error (stage : Stage) (client : Client) (call : ApiCall) (e : KubeError) :
    stage.next (.api client call) (.error e) = stage := by
  cases stage <;> cases client <;> cases call <;> rfl

theorem serve_getNode (name : String) (node : Node) :
    n.serve (.api .management (.getNode name)) (.ok node) = if (nodeReclaimRequest node).isSome then n.find name else n :=
  rfl

theorem serve_ok_of_ne {client : Client} {call : ApiCall} (a : call.Answer)
    (h : ∀ name, client = .management → call ≠ .getNode name) : n.serve (.api client call) (.ok a) = n := by
  cases client with
  | child kubeconfig => cases call <;> rfl
  | management =>
    cases call with
    | getNode name => exact absurd rfl (h name rfl)
    | _ => rfl

theorem next_ok_of_ne (stage : Stage) {client : Client} {call : ApiCall} (a : call.Answer)
    (h : ∀ name, client = .management → call ≠ .getNode name) : stage.next (.api client call) (.ok a) = stage ∨
      stage = .found ∧ call.phaseTarget = some .emergencyRemove ∧ stage.next (.api client call) (.ok a) = .marked := by
  cases stage with
  | found =>
    by_cases htarget : call.phaseTarget = some .emergencyRemove
    · exact .inr ⟨rfl, htarget, if_pos htarget⟩
    · exact .inl (if_neg htarget)
  | idle =>
    left
    cases client with
    | child kubeconfig => cases call <;> rfl
    | management =>
      cases call with
      | getNode name => exact absurd rfl (h name rfl)
      | _ => rfl
  | _ => exact .inl rfl

theorem counts_find (node : String) : (n.find node).counted = n.counted ∧ (n.find node).tracked = n.tracked ∧
    (n.find node).warned = n.warned := by
  unfold ReclaimNotes.find
  split <;> exact ⟨rfl, rfl, rfl⟩

theorem counts_of_untracked {r : Req} (hr : Untracked r) (answer : Resp r) : (n.serve r answer).counted = n.counted ∧
    (n.serve r answer).tracked = n.tracked ∧ (n.serve r answer).warned = n.warned := by
  cases r with
  | loc op =>
    have htracks := hr op rfl
    cases op with
    | recordEmergencyReclaim ns name => cases htracks
    | recordEmergencyReclaimEvent key now => cases htracks
    | _ => exact ⟨rfl, rfl, rfl⟩
  | timer seconds => exact ⟨rfl, rfl, rfl⟩
  | api client call =>
    cases answer with
    | error e =>
      rw [serve_error n client call e]
      exact ⟨rfl, rfl, rfl⟩
    | ok a =>
      by_cases hread : ∃ name, client = .management ∧ call = .getNode name
      · obtain ⟨name, rfl, rfl⟩ := hread
        rw [serve_getNode]
        split
        · exact counts_find name
        · exact ⟨rfl, rfl, rfl⟩
      · rw [serve_ok_of_ne a fun name hclient hcall => hread ⟨name, hclient, hcall⟩]
        exact ⟨rfl, rfl, rfl⟩

theorem at_getNode (h : n.At stage) (name : String) (node : Node) :
    (n.serve (.api .management (.getNode name)) (.ok node)).At (stage.next (.api .management (.getNode name)) (.ok node)) := by
  rw [serve_getNode]
  cases stage with
  | idle =>
    change ReclaimNotes.At _ (if (nodeReclaimRequest node).isSome = true then Stage.found else Stage.idle)
    split
    · have hnone : n.found = none := h
      exact ⟨⟨name, n.generation name⟩, by simp [ReclaimNotes.find, hnone]⟩
    · exact h
  | tracked => trivial
  | found =>
    obtain ⟨request, hfound⟩ := h
    change ReclaimNotes.At _ Stage.found
    rw [find_eq hfound, ite_self]
    exact ⟨request, hfound⟩
  | marked =>
    obtain ⟨request, hfound, hnew⟩ := h
    rw [find_eq hfound, ite_self]
    exact ⟨request, hfound, hnew⟩
  | counted =>
    obtain ⟨request, hfound, hnew⟩ := h
    rw [find_eq hfound, ite_self]
    exact ⟨request, hfound, hnew⟩

/-- What the notes say moves along with the stage; only the phase write asks for something. -/
theorem at_call {client : Client} {call : ApiCall} (h : n.At stage) (answer : Except KubeError call.Answer)
    (hmark : call.phaseTarget = some .emergencyRemove → succeeded answer = true →
      ∀ request, n.found = some request → request ∉ n.counted) :
    (n.serve (.api client call) answer).At (stage.next (.api client call) answer) := by
  cases answer with
  | error e =>
    rw [serve_error, next_error]
    exact h
  | ok a =>
    by_cases hread : ∃ name, client = .management ∧ call = .getNode name
    · obtain ⟨name, rfl, rfl⟩ := hread
      exact at_getNode h name a
    · have hread : ∀ name, client = .management → call ≠ .getNode name :=
        fun name hclient hcall => hread ⟨name, hclient, hcall⟩
      rw [serve_ok_of_ne a hread]
      rcases next_ok_of_ne stage a hread with hsame | ⟨rfl, htarget, hmarked⟩
      · rw [hsame]
        exact h
      · obtain ⟨request, hfound⟩ := h
        rw [hmarked]
        exact ⟨request, hfound, hmark htarget rfl request hfound⟩

theorem at_loc {op : LocalOp} (h : n.At stage) (htracks : op.tracks = false) (answer : op.Answer) :
    (n.serve (.loc op) answer).At (stage.next (.loc op) answer) := by
  cases op with
  | recordEmergencyReclaim ns name => cases htracks
  | recordEmergencyReclaimEvent key now => cases htracks
  | _ => cases stage <;> exact h

theorem at_timer {seconds : Nat} (h : n.At stage) (answer : Bool) :
    (n.serve (.timer seconds) answer).At (stage.next (.timer seconds) answer) := by
  cases stage <;> exact h

/-! ### Steps -/

theorem CountInvariant.leave {w : World × ReclaimNotes} {pass : Option (Snapshot × List (Sigma Resp))}
    (h : CountInvariant w pass) : CountInvariant w none :=
  ⟨h.toCountedOnce, h.known, fun _ _ h => (nomatch h)⟩

theorem CountedOnce.of_same {w' : World} {n' : ReclaimNotes} (h : CountedOnce w n)
    (hcounter : w'.memory.reclaimCount = w.memory.reclaimCount) (hdeque : w'.memory.recentReclaims = w.memory.recentReclaims)
    (hn : n'.counted = n.counted ∧ n'.tracked = n.tracked ∧ n'.warned = n.warned) : CountedOnce w' n' := by
  obtain ⟨hcounted, htracked, hwarned⟩ := hn
  constructor
  · rw [hcounted]
    exact h.counted
  · rw [htracked]
    exact h.tracked
  · rw [hcounter, hcounted]
    exact h.counter
  · rw [hdeque, htracked]
    exact h.deque
  · rw [hwarned, htracked]
    exact h.warned

theorem isOk_of_succeeded {client : Client} {call : ApiCall} {fate : Fate}
    (h : succeeded (serveApi w client call fate).1 = true) : fate.isOk = true := by
  cases fate with
  | ok => rfl
  | fail fault => cases h
  | lost fault =>
    unfold serveApi at h
    cases hperform : perform w client call with
    | ok after =>
      rw [hperform] at h
      cases h
    | error e =>
      rw [hperform] at h
      cases h

theorem countInvariant_untracked {ctx : Context} {snap : Snapshot} {r : Req} {fate : Fate} {trace : List (Sigma Resp)}
    (h : CountInvariant (w, n) (some (snap, trace))) (hr : Untracked r)
    (hat : (n.serve r (serve w r fate).1).At ((counting.after .idle trace).next r (serve w r fate).1)) :
    CountInvariant ((countedSystem ctx).serve (w, n) r fate).2
      (some (snap, ⟨r, ((countedSystem ctx).serve (w, n) r fate).1⟩ :: trace)) := by
  obtain ⟨hcounter, hdeque⟩ := @memory_of_untracked w r hr fate
  have hcounts := @counts_of_untracked n r hr (serve w r fate).1
  constructor
  · have hcounted : CountedOnce w n := h.toCountedOnce
    exact hcounted.of_same hcounter hdeque hcounts
  · change ∀ request ∈ (n.serve r (serve w r fate).1).tracked, request ∈ (n.serve r (serve w r fate).1).counted
    rw [hcounts.1, hcounts.2.1]
    exact h.known
  · rintro _ _ ⟨⟩
    exact hat

theorem countInvariant_call {ctx : Context} {snap : Snapshot} {client : Client} {call : ApiCall} {fate : Fate}
    {k : Resp (.api client call) → Prog Resp ReconcilerError Action} {trace : List (Sigma Resp)}
    (h : CountInvariant (w, n) (some (snap, trace)))
    (hok : replayStops ⟨(w, n), some ⟨snap, .call (.api client call) k, trace⟩⟩ (.answer fate) = true) :
    CountInvariant ((countedSystem ctx).serve (w, n) (.api client call) fate).2
      (some (snap, ⟨.api client call, ((countedSystem ctx).serve (w, n) (.api client call) fate).1⟩ :: trace)) := by
  have hmark : call.phaseTarget = some .emergencyRemove → succeeded (serveApi w client call fate).1 = true →
      ∀ request, n.found = some request → request ∉ n.counted := by
    intro htarget hsucceeded request hfound
    simpa [replayStops, nextCall, State.forget, htarget, isOk_of_succeeded hsucceeded, hfound] using hok
  exact countInvariant_untracked h (untracked_api client call) (at_call (h.pass snap trace rfl) _ hmark)

theorem countInvariant_count {ctx : Context} {snap : Snapshot} {ns name : String} {fate : Fate} {trace : List (Sigma Resp)}
    (h : CountInvariant (w, n) (some (snap, trace))) (hstage : counting.after .idle trace = .marked) :
    CountInvariant ((countedSystem ctx).serve (w, n) (.loc (.recordEmergencyReclaim ns name)) fate).2
      (some (snap, ⟨.loc (.recordEmergencyReclaim ns name), ()⟩ :: trace)) := by
  have hat := h.pass snap trace rfl
  rw [hstage] at hat
  obtain ⟨request, hfound : n.found = some request, hnew : request ∉ n.counted⟩ := hat
  have hserve : n.serve (.loc (.recordEmergencyReclaim ns name)) () = { n with counted := request :: n.counted } := by
    simp [ReclaimNotes.serve, hfound]
  change CountInvariant (_, n.serve (.loc (.recordEmergencyReclaim ns name)) ()) _
  rw [hserve]
  constructor
  · constructor
    · exact List.nodup_cons.mpr ⟨hnew, h.counted⟩
    · exact h.tracked
    · intro ns' name'
      have hbound : w.memory.reclaimCount ns' name' ≤ n.counted.length := h.counter ns' name'
      change (if ns' = ns ∧ name' = name then w.memory.reclaimCount ns' name' + 1 else w.memory.reclaimCount ns' name') ≤
        (request :: n.counted).length
      rw [List.length_cons]
      split
      · omega
      · omega
    · exact h.deque
    · exact h.warned
  · exact fun other hother => List.mem_cons_of_mem _ (h.known other hother)
  · rintro _ _ ⟨⟩
    change ReclaimNotes.At _ (Stage.next (counting.after .idle trace) _ _)
    rw [hstage]
    exact ⟨request, hfound, List.mem_cons_self, fun htracked => hnew (h.known request htracked)⟩

theorem countInvariant_track {ctx : Context} {snap : Snapshot} {key : String} {now : Time} {fate : Fate}
    {trace : List (Sigma Resp)} (h : CountInvariant (w, n) (some (snap, trace)))
    (hstage : counting.after .idle trace = .counted) :
    CountInvariant ((countedSystem ctx).serve (w, n) (.loc (.recordEmergencyReclaimEvent key now)) fate).2
      (some (snap, ⟨.loc (.recordEmergencyReclaimEvent key now),
        ((countedSystem ctx).serve (w, n) (.loc (.recordEmergencyReclaimEvent key now)) fate).1⟩ :: trace)) := by
  have hat := h.pass snap trace rfl
  rw [hstage] at hat
  obtain ⟨request, hfound : n.found = some request, hcounted : request ∈ n.counted, hnew : request ∉ n.tracked⟩ := hat
  have hlength := length_recordEmergencyReclaimEvent (w.memory.recentReclaims key) now
  have hdeque : (w.memory.recentReclaims key).length ≤ n.tracked.length := h.deque key
  have hserve : n.serve (.loc (.recordEmergencyReclaimEvent key now))
      (recordEmergencyReclaimEvent (w.memory.recentReclaims key) now).2 =
      { n with
        tracked := request :: n.tracked
        warned := n.warned || (recordEmergencyReclaimEvent (w.memory.recentReclaims key) now).2 } := by
    simp [ReclaimNotes.serve, hfound]
  change CountInvariant (_, n.serve (.loc (.recordEmergencyReclaimEvent key now))
    (recordEmergencyReclaimEvent (w.memory.recentReclaims key) now).2) _
  rw [hserve]
  constructor
  · constructor
    · exact h.counted
    · exact List.nodup_cons.mpr ⟨hnew, h.tracked⟩
    · exact h.counter
    · intro key'
      have hbound : (w.memory.recentReclaims key').length ≤ n.tracked.length := h.deque key'
      change (if key' = key then (recordEmergencyReclaimEvent (w.memory.recentReclaims key) now).1
        else w.memory.recentReclaims key').length ≤ (request :: n.tracked).length
      rw [List.length_cons]
      split
      · omega
      · omega
    · intro hwarned
      change Constants.rapidReReclaimThreshold ≤ (request :: n.tracked).length
      rw [List.length_cons]
      rcases Bool.or_eq_true_iff.mp hwarned with hold | hbreach
      · have hthreshold : Constants.rapidReReclaimThreshold ≤ n.tracked.length := h.warned hold
        omega
      · have hthreshold := threshold_le_of_breach hbreach
        omega
  · intro other hother
    rcases List.mem_cons.mp hother with rfl | hold
    · exact hcounted
    · exact h.known other hold
  · rintro _ _ ⟨⟩
    change ReclaimNotes.At _ (Stage.next (counting.after .idle trace) _ _)
    rw [hstage]
    trivial

end

theorem countInvariant_keeps (ctx : Context) :
    (countedSystem ctx).Keeps (fun _ => counting) (fun _ => .idle) FreshCounted (fun s a => replayStops s a = true)
      (fun _ _ => True) CountInvariant where
  base := by
    rintro ⟨w, n⟩ ⟨hw, rfl⟩
    constructor
    · constructor
      · exact List.nodup_nil
      · exact List.nodup_nil
      · intro ns name
        rw [hw.memory]
        exact Nat.le_refl 0
      · intro key
        rw [hw.memory]
        exact Nat.le_refl 0
      · exact fun h => nomatch h
    · exact fun _ h => nomatch h
    · exact fun _ _ h => nomatch h
  interfere := by
    rintro ⟨w, n⟩ pass e _ h _ _
    have hsame : (interfere e w).memory = w.memory := by
      cases e with
      | editSpec spec =>
        unfold interfere
        dsimp only
        split <;> rfl
      | requestDeletion =>
        unfold interfere
        dsimp only
        split <;> rfl
      | _ => rfl
    have hcounted : CountedOnce w n := h.toCountedOnce
    refine ⟨hcounted.of_same (congrArg _ hsame) (congrArg _ hsame) ⟨rfl, rfl, rfl⟩, h.known, fun snap trace hpass => ?_⟩
    have hat : n.At (counting.after .idle trace) := h.pass snap trace hpass
    generalize counting.after .idle trace = stage at hat ⊢
    cases stage <;> exact hat
  start := by
    rintro ⟨w, n⟩ snap _ h _ _
    refine ⟨h.toCountedOnce.of_same rfl rfl ⟨rfl, rfl, rfl⟩, h.known, ?_⟩
    rintro _ _ ⟨⟩
    rfl
  answer := by
    rintro ⟨w, n⟩ snap r k trace f _ h hallowed hok
    cases r with
    | api client call => exact countInvariant_call h hok
    | loc op =>
      cases op with
      | recordEmergencyReclaim ns name => exact countInvariant_count h hallowed
      | recordEmergencyReclaimEvent key now => exact countInvariant_track h hallowed
      | _ => exact countInvariant_untracked h (permits_untracked.loc _ rfl) (at_loc (h.pass snap trace rfl) rfl _)
    | timer seconds => exact countInvariant_untracked h (permits_untracked.timer _) (at_timer (h.pass snap trace rfl) _)
  finish _ _ _ h := h.leave
  kill := by
    rintro ⟨w, n⟩ snap trace h
    refine ⟨⟨h.counted, h.tracked, fun _ _ => Nat.zero_le _, fun _ => Nat.zero_le _, h.warned⟩, h.known, ?_⟩
    exact fun _ _ h => nomatch h

def freshlyCounted : World × ReclaimNotes := (demoWorld, .empty)

theorem freshlyCounted_fresh : FreshCounted freshlyCounted := ⟨demoWorld_fresh, rfl⟩

/-- An attempt up to the deletion of the Machine, which the API server refuses. -/
def failedAttempt : List RunAct := answers 11 ++ [.answer (.fail serverFault), .finish, .start]

end FiveSpot
