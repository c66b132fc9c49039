import FiveSpot.Cluster.Base

/-! # Invariants of the log

Most properties of runs speak about the clock, the log, and what the pass in progress has read and
observed. For these the invariant rule takes a simpler form: one obligation for each kind of event.
-/

namespace FiveSpot

set_option autoImplicit false

open Interaction

/-- The events an interference leaves in the log. -/
def noted : Interference → World → List Event
  | .editSpec spec, w => if w.sm.isSome then [.edited spec] else []
  | .requestDeletion, w => if w.sm.isSome then [.deletionRequested] else []
  | _, _ => []

theorem interfere_log (e : Interference) (w : World) : (interfere e w).log = noted e w ++ w.log := by
  cases e with
  | editSpec spec => cases hsm : w.sm <;> simp [interfere, noted, hsm, World.record, World.setSm]
  | requestDeletion => cases hsm : w.sm <;> simp [interfere, noted, hsm, World.record, World.setSm]
  | _ => rfl

/-- The pass as an invariant of the log sees it: what it read and what it has observed. -/
def watched : Option (Snapshot × List (Sigma Resp)) → Option (Snapshot × List Obs)
  | none => none
  | some (snap, trace) => some (snap, observed trace)

/-- The rules of the controller for a snapshot. -/
abbrev LegalFor (ctx : Context) (snap : Snapshot) (t : List Obs) (effect : Effect) : Prop :=
  Legal (ctx.led snap.leader) snap.sm t effect

/-- What has to be shown of an invariant `J` of clock, log and pass. -/
structure LogKeeps (ctx : Context) (ok : RunState → RunAct → Prop)
    (I : World → Option (Snapshot × List (Sigma Resp)) → Prop)
    (J : Time → List Event → Option (Snapshot × List Obs) → Prop) : Prop where
  base : ∀ now, J now [] none
  pause : ∀ w pass e, I w (System.seen pass) → J w.now w.log (watched (System.seen pass)) →
    ok ⟨w, pass⟩ (.interfere e) → J (interfere e w).now w.log (watched (System.seen pass))
  edit : ∀ w pass spec, I w (System.seen pass) → J w.now w.log (watched (System.seen pass)) →
    ok ⟨w, pass⟩ (.interfere (.editSpec spec)) →
    J w.now (.edited spec :: w.log) (watched (System.seen pass))
  deletion : ∀ w pass, I w (System.seen pass) → J w.now w.log (watched (System.seen pass)) →
    ok ⟨w, pass⟩ (.interfere .requestDeletion) →
    J w.now (.deletionRequested :: w.log) (watched (System.seen pass))
  start : ∀ w sm, I w none → J w.now w.log none → w.sm = some sm → ok ⟨w, none⟩ .start →
    J w.now (.started w.now w.bound sm :: w.log) (some (⟨sm, w.leader⟩, []))
  call : ∀ w snap client call k trace fate after applied error,
    I w (some (snap, trace)) → J w.now w.log (some (snap, observed trace)) →
    (∀ effect, effectOfCall client call = some effect → LegalFor ctx snap (observed trace) effect) →
    ok ⟨w, some ⟨snap, .call (.api client call) k, trace⟩⟩ (.answer fate) →
    Answered w client call (serveApi w client call fate).1 after applied error →
    J w.now (.called w.now w.bound client call applied error :: w.log)
      (some (snap, obsOfCall client call (serveApi w client call fate).1 :: observed trace))
  clock : ∀ now log snap t, J now log (some (snap, t)) → J now log (some (snap, .clock now :: t))
  timeout : ∀ now log snap t, J now log (some (snap, t)) →
    J now (.timedOut :: log) (some (snap, .timedOut :: t))
  leave : ∀ now log snap t, J now log (some (snap, t)) → J now log none
  crash : ∀ now log, J now log none → J now (.crashed :: log) none

variable {ctx : Context} {ok : RunState → RunAct → Prop}
  {I : World → Option (Snapshot × List (Sigma Resp)) → Prop}
  {J : Time → List Event → Option (Snapshot × List Obs) → Prop}

theorem LogKeeps.interfere (h : LogKeeps ctx ok I J) {w : World}
    {pass : Option (Pass Resp ReconcilerError Action Snapshot)} (e : Interference)
    (hI : I w (System.seen pass)) (hJ : J w.now w.log (watched (System.seen pass)))
    (hok : ok ⟨w, pass⟩ (.interfere e)) :
    J (FiveSpot.interfere e w).now (FiveSpot.interfere e w).log (watched (System.seen pass)) := by
  have hpause := h.pause w pass e hI hJ hok
  rw [interfere_log]
  cases e with
  | editSpec spec =>
    cases hsm : w.sm with
    | none => simpa [noted, hsm] using hpause
    | some sm => simpa [noted, hsm, FiveSpot.interfere, World.record, World.setSm] using h.edit w pass spec hI hJ hok
  | requestDeletion =>
    cases hsm : w.sm with
    | none => simpa [noted, hsm] using hpause
    | some sm => simpa [noted, hsm, FiveSpot.interfere, World.record, World.setSm] using h.deletion w pass hI hJ hok
  | _ => exact hpause

theorem LogKeeps.answer (h : LogKeeps ctx ok I J) {w : World} {snap : Snapshot} {r : Req}
    {k : Resp r → Prog Resp ReconcilerError Action} {trace : List (Sigma Resp)} (fate : Fate)
    (hI : I w (some (snap, trace))) (hJ : J w.now w.log (some (snap, observed trace)))
    (hallowed : (rules ctx snap).allowed (observed trace) r)
    (hok : ok ⟨w, some ⟨snap, .call r k, trace⟩⟩ (.answer fate)) :
    J (serve w r fate).2.now (serve w r fate).2.log
      (some (snap, observed (⟨r, (serve w r fate).1⟩ :: trace))) := by
  cases r with
  | api client call =>
    obtain ⟨applied, error, ha⟩ := exists_answered w client call fate
    rw [ha.log, ha.now]
    exact h.call w snap client call k trace fate _ applied error hI hJ hallowed hok ha
  | loc op =>
    obtain ⟨-, hnow, hlog, -, -⟩ := performLocal_frame w op
    rw [show (serve w (.loc op) fate).2.now = w.now from hnow,
      show (serve w (.loc op) fate).2.log = w.log from hlog]
    cases op with
    | utcNow => exact h.clock _ _ _ _ hJ
    | _ => exact hJ
  | timer seconds =>
    obtain ⟨-, hnow, ⟨hanswer, hlog⟩ | ⟨hanswer, hlog⟩⟩ := serve_timer_frame w seconds fate
    · rw [hnow, hlog, observed_cons, hanswer]
      exact h.timeout _ _ _ _ hJ
    · rw [hnow, hlog, observed_cons, hanswer]
      exact hJ

/-- The invariant rule for the log. -/
theorem LogKeeps.holds (h : LogKeeps ctx ok I J)
    (hI : ∀ s, (system ctx).Reach Fresh ok s → I s.world (System.seen s.pass)) {s : RunState}
    (hs : (system ctx).Reach Fresh ok s) : J s.world.now s.world.log (watched (System.seen s.pass)) := by
  refine System.Reach.invariant (J := fun w pass => J w.now w.log (watched pass)) _ (system_conforms ctx) hI ?_ hs
  refine ⟨?_, ?_, ?_, ?_, ?_, ?_⟩
  · intro w hw
    rw [hw.log]
    exact h.base w.now
  · intro w pass e hIw hJ _ hok
    exact h.interfere e hIw hJ hok
  · intro w snap hIw hJ hsnap hok
    obtain ⟨sm, hsm, rfl⟩ := Option.map_eq_some_iff.mp hsnap
    exact h.start w sm hIw hJ hsm hok
  · intro w snap r k trace f hIw hJ hallowed hok
    rw [rules_after] at hallowed
    exact h.answer f hIw hJ hallowed hok
  · intro w snap trace hJ
    exact h.leave _ _ _ _ hJ
  · intro w snap trace hJ
    exact h.crash _ _ (h.leave _ _ _ _ hJ)

/-- What a reconcile that has just returned normally promises. -/
theorem outcome_of_reach {s : RunState} (hs : (system ctx).Reach Fresh ok s)
    {p : Pass Resp ReconcilerError Action Snapshot} {action : Action} (hp : s.pass = some p)
    (hrest : p.rest = .pure action) :
    Outcome (ctx.led p.snap.leader) p.snap.sm (.ok action) (observed p.trace) := by
  have hconf := System.Reach.passConforms _ (system_conforms ctx) hs
  rw [hp] at hconf
  simp only [System.PassConforms, hrest, conforms_pure, rules_after] at hconf
  exact hconf

/-! ## The request ahead -/

/-- The call a pass is about to make, with what the pass has read. -/
def nextCall (s : RunState) : Option (Snapshot × Client × ApiCall) :=
  s.pass.bind fun p => match p.rest with
    | .call (.api client call) _ => some (p.snap, client, call)
    | _ => none

theorem legal_of_nextCall {s : RunState} (hs : (system ctx).Reach Fresh ok s) {snap : Snapshot} {client : Client}
    {call : ApiCall} (hnext : nextCall s = some (snap, client, call)) :
    ∃ trace, System.seen s.pass = some (snap, trace) ∧
      ∀ effect, effectOfCall client call = some effect → LegalFor ctx snap (observed trace) effect := by
  obtain ⟨⟨snap', rest, trace⟩, hp, hrest⟩ := Option.bind_eq_some_iff.mp hnext
  have hconf := System.Reach.passConforms _ (system_conforms ctx) hs
  rw [hp] at hconf ⊢
  cases rest with
  | call r k =>
    cases r with
    | api client' call' =>
      cases hrest
      refine ⟨trace, rfl, ?_⟩
      have hallowed := hconf.1
      rw [rules_after] at hallowed
      exact hallowed
    | _ => cases hrest
  | _ => cases hrest

def ApiCall.phaseTarget : ApiCall → Option Phase
  | .patchStatus _ _ (.phase target _ _ _ _) => some target
  | _ => none

theorem phaseTarget_of_effect {client : Client} {call : ApiCall} {target : Phase} {conditions : List Condition}
    (h : effectOfCall client call = some (.phase target conditions)) : call.phaseTarget = some target := by
  cases call with
  | patchStatus ns name body =>
    cases body with
    | phase => cases h; rfl
    | _ => cases h
  | patchNode node body =>
    simp only [effectOfCall] at h
    split at h
    · cases h
    · split at h <;> cases h
  | _ => cases h

theorem effect_of_phaseTarget {client : Client} {call : ApiCall} {target : Phase}
    (h : call.phaseTarget = some target) : ∃ conditions, effectOfCall client call = some (.phase target conditions) := by
  cases call with
  | patchStatus ns name body =>
    cases body with
    | phase target' message conditions => cases h; exact ⟨conditions, rfl⟩
    | _ => cases h
  | _ => cases h

def reclaimRead (sm : ScheduledMachine) : Client → ApiCall → Bool
  | .management, .getNode name => reclaimNode sm == some name
  | _, _ => false

/-- The Node on which the call will find a reclaim request, if it is the read that looks for one. -/
def requestAhead (w : World) (fate : Fate) : Client → ApiCall → Option String
  | .management, .getNode name =>
    if fate.isOk && (w.env.node .management name).any fun node => (nodeReclaimRequest node).isSome then some name
    else none
  | _, _ => none

theorem call_of_node_obs {client c : Client} {call : ApiCall} {answer : Except KubeError call.Answer} {n : String}
    {found : Option Node} (h : obsOfCall client call answer = .node c n found) :
    client = c ∧ call = .getNode n := by
  cases obsSource h with
  | node | noNode => exact ⟨rfl, rfl⟩

theorem node_of_obs {w : World} {client c : Client} {call : ApiCall} {fate : Fate} {n : String}
    {found : Option Node} (h : obsOfCall client call (serveApi w client call fate).1 = .node c n found) :
    client = c ∧ call = .getNode n ∧ fate.isOk = true ∧ w.env.node c n = found := by
  obtain ⟨rfl, rfl⟩ := call_of_node_obs h
  refine ⟨rfl, rfl, ?_⟩
  cases fate with
  | fail fault => simp [serveApi, obsOfCall, fault.unspecific.1] at h
  | lost fault =>
    cases hnode : w.env.node client n <;>
      simp [serveApi, perform, orNotFound, hnode, obsOfCall, fault.unspecific.1] at h
  | ok =>
    cases hnode : w.env.node client n with
    | none =>
      simp only [serveApi, perform, orNotFound, hnode] at h
      cases h
      exact ⟨rfl, rfl⟩
    | some node =>
      simp only [serveApi, perform, orNotFound, hnode] at h
      cases h
      exact ⟨rfl, rfl⟩

theorem requestAhead_of_obs {w : World} {client : Client} {call : ApiCall} {fate : Fate} {n : String}
    {found : Node} (h : obsOfCall client call (serveApi w client call fate).1 = .node .management n (some found))
    (hrequest : (nodeReclaimRequest found).isSome = true) : requestAhead w fate client call = some n := by
  obtain ⟨rfl, rfl, hok, hnode⟩ := node_of_obs h
  simp [requestAhead, hok, hnode, hrequest]

theorem object_of_obs {w : World} {client : Client} {call : ApiCall} {fate : Fate} {key : ObjKey} {value : Json}
    (h : obsOfCall client call (serveApi w client call fate).1 = .object key value) :
    w.env.object key = some value := by
  generalize hanswer : (serveApi w client call fate).1 = answer at h
  cases obsSource h with
  | object ar ns name value =>
    cases fate with
    | fail fault => cases hanswer
    | lost fault =>
      cases hobject : w.stored ar ns name <;> simp [serveApi, perform, orNotFound, hobject] at hanswer
    | ok =>
      cases hobject : w.stored ar ns name with
      | none => simp [serveApi, perform, orNotFound, hobject] at hanswer
      | some found =>
        simp only [serveApi, perform, orNotFound, hobject, Except.ok.injEq] at hanswer
        rw [← hanswer]
        exact (object_of_stored hobject).2

/-- No reclaim request has been read. -/
def Unrequested (t : List Obs) : Prop :=
  ∀ node found, .node .management node (some found) ∈ t → (nodeReclaimRequest found).isSome = false

theorem Unrequested.cons {t : List Obs} {o : Obs} (h : Unrequested t)
    (ho : ∀ node found, o = .node .management node (some found) → (nodeReclaimRequest found).isSome = false) :
    Unrequested (o :: t) := by
  intro node found hmem
  rcases List.mem_cons.mp hmem with hnew | hold
  · exact ho node found hnew.symm
  · exact h node found hold

theorem Unrequested.call {t : List Obs} {w : World} {client : Client} {call : ApiCall} {fate : Fate}
    (h : Unrequested t) (hnone : (requestAhead w fate client call).isNone = true) :
    Unrequested (obsOfCall client call (serveApi w client call fate).1 :: t) := by
  refine h.cons fun node found hobs => ?_
  by_contra hrequest
  rw [requestAhead_of_obs hobs (Bool.of_not_eq_false hrequest)] at hnone
  cases hnone

theorem Unrequested.not_reclaimed {sm : ScheduledMachine} {ns node : String} {t : List Obs}
    (h : Unrequested t) : ¬Reclaimed ctx sm ns node t := by
  rintro ⟨-, -, -, found, hmem, hrequest⟩
  rw [h node found hmem] at hrequest
  cases hrequest

end FiveSpot
