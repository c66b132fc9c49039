import FiveSpot.Cluster.LogInvariant

/-! # The Node a reconcile turns on

The graceful shutdown drains the Node that the Machine names when it is read. The emergency path
drains, disables and clears by `status.nodeRef`, which a tenant may write and which outlives the
Machine it was taken from.
-/

namespace FiveSpot

set_option autoImplicit false

open Interaction

/-! ## The log of one reconcile -/

def thisPass : List Event → List Event
  | [] => []
  | .started time bound sm :: _ => [.started time bound sm]
  | e :: earlier => e :: thisPass earlier

def Event.bound : Event → Option String
  | .started _ bound _ => bound
  | .called _ bound _ _ _ _ => bound
  | _ => none

def Event.lists : Event → Option String
  | .called _ _ _ (.listPods node) _ _ => some node
  | _ => none

def Event.reads : Event → Option ScheduledMachine
  | .started _ _ sm => some sm
  | _ => none

/-- At some moment of the last reconcile the existing Machine was bound to `node`. -/
def boundInPass (log : List Event) (node : String) : Bool := (thisPass log).any fun e => e.bound == some node

def listedInPass (log : List Event) : Option String := (thisPass log).findSome? Event.lists

def readInPass (log : List Event) : Option ScheduledMachine := (thisPass log).findSome? Event.reads

/-- The Node at which a request aims: it drains the Node, evicts pods listed for it, clears its reclaim
annotations, or disables the schedule because of them. -/
def aim (e : Event) (earlier : List Event) : Option String :=
  match e.effect with
  | some (.drain _ node) => some node
  | some (.clear _ node) => some node
  | some (.evict _) => listedInPass earlier
  | some (.enabled false) => (readInPass earlier).bind reclaimNode
  | _ => none

/-- Requests aim only at a Node the Machine was bound to during the same reconcile. -/
abbrev Aimed : List Event → Prop :=
  Always fun e earlier => ∀ node, aim e earlier = some node → boundInPass earlier node = true

/-- Where `status.nodeRef` leads the reclaim check to a request, the existing Machine leads to the same
Node. -/
def nodeRefCurrent (s : RunState) : RunAct → Bool
  | .answer fate => (nextCall s).all fun ⟨snap, client, call⟩ =>
      !reclaimRead snap.sm client call ||
        (requestAhead s.world fate client call).all fun node => s.world.bound == some node
  | _ => true

section

variable {e : Event} {log : List Event}

theorem thisPass_cons (h : e.reads = none) : thisPass (e :: log) = e :: thisPass log := by
  cases e with
  | started time bound sm => cases h
  | _ => rfl

theorem boundInPass_cons {node : String} (he : e.reads = none) (h : boundInPass log node = true) :
    boundInPass (e :: log) node = true := by
  rw [boundInPass, thisPass_cons he, List.any_cons, Bool.or_eq_true]
  exact .inr h

theorem boundInPass_here {node : String} (he : e.reads = none) (h : e.bound = some node) :
    boundInPass (e :: log) node = true := by
  rw [boundInPass, thisPass_cons he, List.any_cons, h, beq_self_eq_true, Bool.true_or]

theorem readInPass_cons (he : e.reads = none) : readInPass (e :: log) = readInPass log := by
  rw [readInPass, thisPass_cons he, List.findSome?_cons, he]
  rfl

theorem listedInPass_cons (he : e.reads = none) (hlists : e.lists = none) :
    listedInPass (e :: log) = listedInPass log := by
  rw [listedInPass, thisPass_cons he, List.findSome?_cons, hlists]
  rfl

theorem aim_eq_none (h : e.effect = none) (node : String) : aim e log ≠ some node := by
  simp [aim, h]

end

/-! ## The invariant -/

structure TargetInvariant (log : List Event) (pass : Option (Snapshot × List Obs)) : Prop where
  aimed : Aimed log
  listed : ∀ node, listedInPass log = some node → boundInPass log node = true
  read : ∀ snap t, pass = some (snap, t) → readInPass log = some snap.sm
  requested : ∀ snap t node found, pass = some (snap, t) → reclaimNode snap.sm = some node →
    .node .management node (some found) ∈ t → (nodeReclaimRequest found).isSome = true →
    boundInPass log node = true
  machine : ∀ snap t node, pass = some (snap, t) → MachineOn snap.sm node t → boundInPass log node = true

section

variable {e : Event} {log : List Event} {pass : Option (Snapshot × List Obs)} {ctx : Context} {snap : Snapshot}
  {t : List Obs}

theorem TargetInvariant.cons (h : TargetInvariant log pass) (hreads : e.reads = none) (hlists : e.lists = none)
    (heffect : e.effect = none) : TargetInvariant (e :: log) pass where
  aimed := h.aimed.cons fun node haim => absurd haim (aim_eq_none heffect node)
  listed node hnode := boundInPass_cons hreads (h.listed node (listedInPass_cons hreads hlists ▸ hnode))
  read snap t hpass := (readInPass_cons hreads).trans (h.read snap t hpass)
  requested snap t node found hpass hnode hmem hrequest :=
    boundInPass_cons hreads (h.requested snap t node found hpass hnode hmem hrequest)
  machine snap t node hpass hmachine := boundInPass_cons hreads (h.machine snap t node hpass hmachine)

theorem MachineOn.tail {sm : ScheduledMachine} {node : String} {o : Obs} (h : MachineOn sm node (o :: t)) :
    MachineOn sm node t ∨ ∃ machine, o = .object (machineKey sm) machine ∧
      (extractMachineRefs machine).2.map (·.name) = some node := by
  obtain ⟨machine, hmem, hnode⟩ := h
  rcases List.mem_cons.mp hmem with hnew | hold
  · exact .inr ⟨machine, hnew.symm, hnode⟩
  · exact .inl ⟨machine, hold, hnode⟩

theorem TargetInvariant.observe {o : Obs} (h : TargetInvariant log (some (snap, t)))
    (ho : o.isLocal = true) : TargetInvariant log (some (snap, o :: t)) := by
  refine ⟨h.aimed, h.listed, fun snap' t' hpass => ?_, fun snap' t' node found hpass hnode hmem hrequest => ?_,
    fun snap' t' node hpass hmachine => ?_⟩
  · cases hpass
    exact h.read snap t rfl
  · cases hpass
    rcases List.mem_cons.mp hmem with hnew | hold
    · rw [← hnew] at ho
      cases ho
    · exact h.requested snap t node found rfl hnode hold hrequest
  · cases hpass
    rcases hmachine.tail with hold | ⟨machine, rfl, -⟩
    · exact h.machine snap t node rfl hold
    · cases ho

theorem TargetInvariant.reclaimed (h : TargetInvariant log (some (snap, t))) {ns node : String}
    (hpath : Reclaimed (ctx.led snap.leader) snap.sm ns node t) : boundInPass log node = true := by
  obtain ⟨found, hmem, hrequest⟩ := hpath.requested
  exact h.requested snap t node found rfl hpath.named hmem hrequest

theorem TargetInvariant.drain (h : TargetInvariant log (some (snap, t))) {client : Client} {node : String}
    (hlegal : LegalFor ctx snap t (.drain client node)) : boundInPass log node = true := by
  cases hlegal with
  | reclaimDrain path marked => exact h.reclaimed path
  | shutdownDrain path clean machine => exact h.machine snap t node rfl machine

theorem TargetInvariant.clear (h : TargetInvariant log (some (snap, t))) {client : Client} {node : String}
    (hlegal : LegalFor ctx snap t (.clear client node)) : boundInPass log node = true := by
  cases hlegal with
  | reclaimClear path marked removed disabled => exact h.reclaimed path

theorem TargetInvariant.disable (h : TargetInvariant log (some (snap, t)))
    (hlegal : LegalFor ctx snap t (.enabled false)) {node : String}
    (hnode : (readInPass log).bind reclaimNode = some node) : boundInPass log node = true := by
  cases hlegal with
  | reclaimDisable path marked removed =>
    rw [h.read snap t rfl, Option.bind_some, path.named] at hnode
    cases hnode
    exact h.reclaimed path

end

section

variable {ctx : Context} {w after : World} {snap : Snapshot} {client : Client} {call : ApiCall}
  {trace : List (Sigma Resp)} {fate : Fate} {applied : Bool} {error : Option KubeError}

theorem aimed_call (h : TargetInvariant w.log (some (snap, observed trace)))
    (hlegal : ∀ effect, effectOfCall client call = some effect → LegalFor ctx snap (observed trace) effect)
    {node : String} (haim : aim (.called w.now w.bound client call applied error) w.log = some node) :
    boundInPass w.log node = true := by
  cases heffect : effectOfCall client call with
  | none => exact absurd haim (aim_eq_none (e := .called w.now w.bound client call applied error) heffect node)
  | some effect =>
    have hrule := hlegal effect heffect
    simp only [aim, Event.effect, heffect] at haim
    split at haim
    · cases haim
      cases ‹some effect = _›
      exact h.drain hrule
    · cases haim
      cases ‹some effect = _›
      exact h.clear hrule
    · exact h.listed node haim
    · cases ‹some effect = _›
      exact h.disable hrule haim
    · cases haim

theorem listed_call (h : TargetInvariant w.log (some (snap, observed trace)))
    (hlegal : ∀ effect, effectOfCall client call = some effect → LegalFor ctx snap (observed trace) effect)
    {node : String} (hlisted : listedInPass (.called w.now w.bound client call applied error :: w.log) = some node) :
    boundInPass w.log node = true := by
  cases hlists : (Event.called w.now w.bound client call applied error).lists with
  | none =>
    rw [listedInPass_cons rfl hlists] at hlisted
    exact h.listed node hlisted
  | some listed =>
    cases call with
    | listPods name =>
      cases hlists
      cases hlisted
      exact h.drain (hlegal _ rfl)
    | _ => cases hlists

theorem target_call {k : Resp (.api client call) → Prog Resp ReconcilerError Action}
    (hbase : Base w (some (snap, trace))) (h : TargetInvariant w.log (some (snap, observed trace)))
    (hlegal : ∀ effect, effectOfCall client call = some effect → LegalFor ctx snap (observed trace) effect)
    (hok : nodeRefCurrent ⟨w, some ⟨snap, .call (.api client call) k, trace⟩⟩ (.answer fate) = true) :
    TargetInvariant (.called w.now w.bound client call applied error :: w.log)
      (some (snap, obsOfCall client call (serveApi w client call fate).1 :: observed trace)) := by
  refine ⟨h.aimed.cons fun node => aimed_call h hlegal,
    fun node hlisted => boundInPass_cons rfl (listed_call h hlegal hlisted), fun snap' t hpass => ?_,
    fun snap' t node found hpass hnode hmem hrequest => ?_, fun snap' t node hpass hmachine => ?_⟩
  · cases hpass
    rw [readInPass_cons rfl]
    exact h.read snap _ rfl
  · cases hpass
    rcases List.mem_cons.mp hmem with hnew | hold
    · have hahead := requestAhead_of_obs hnew.symm hrequest
      obtain ⟨rfl, rfl, -⟩ := node_of_obs hnew.symm
      simp only [nodeRefCurrent, nextCall, Option.bind_some, Option.all_some, reclaimRead, hnode, hahead,
        beq_self_eq_true, Bool.not_true, Bool.false_or, beq_iff_eq] at hok
      exact boundInPass_here rfl hok
    · exact boundInPass_cons rfl (h.requested snap _ node found rfl hnode hold hrequest)
  · cases hpass
    rcases hmachine.tail with hold | ⟨machine, hobs, hname⟩
    · exact boundInPass_cons rfl (h.machine snap _ node rfl hold)
    · refine boundInPass_here rfl ?_
      have hobject := object_of_obs hobs
      rw [(hbase.pass snap trace rfl).machine] at hobject
      simp [Event.bound, World.bound, hobject, hname]

end

theorem targetInvariant_keeps (ctx : Context) :
    LogKeeps ctx (fun s a => nodeRefCurrent s a = true) Base (fun _ => TargetInvariant) where
  base _ := ⟨always_nil, fun _ h => (nomatch h), fun _ _ h => (nomatch h), fun _ _ _ _ h => (nomatch h),
    fun _ _ _ h => (nomatch h)⟩
  pause _ _ _ _ h _ := h
  edit _ _ _ _ h _ := h.cons rfl rfl rfl
  deletion _ _ _ h _ := h.cons rfl rfl rfl
  start w sm _ h _ _ := by
    refine ⟨h.aimed.cons fun node haim => absurd haim (aim_eq_none rfl node), fun _ h => (nomatch h),
      fun snap t hpass => ?_, fun snap t node found hpass _ hmem => ?_, fun snap t node hpass hmachine => ?_⟩
    · cases hpass
      rfl
    · cases hpass
      cases hmem
    · cases hpass
      obtain ⟨_, hmem, -⟩ := hmachine
      cases hmem
  call _ _ _ _ _ _ _ _ _ _ hbase h hlegal hok _ := target_call hbase h hlegal hok
  clock _ _ _ _ h := h.observe rfl
  timeout _ _ _ _ h := (h.cons rfl rfl rfl).observe rfl
  leave _ _ _ _ h := ⟨h.aimed, h.listed, fun _ _ h => (nomatch h), fun _ _ _ _ h => (nomatch h),
    fun _ _ _ h => (nomatch h)⟩
  crash _ _ h := h.cons rfl rfl rfl

/-- In every such run, whatever was written to `status.nodeRef`, a reconcile drains a Node, clears its
reclaim annotations, or disables the schedule for them only if the Machine existing then was bound to it. -/
theorem reclaim_target_canonical {ctx : Context} {s : RunState}
    (hs : (system ctx).Reach Fresh (fun s a => nodeRefCurrent s a = true) s) :
    ∀ e earlier node, e :: earlier <:+ s.world.log → aim e earlier = some node →
      boundInPass earlier node = true := by
  intro e earlier node hlog
  exact ((targetInvariant_keeps ctx).holds (fun _ => base_of_reach) hs).aimed e earlier hlog node

/-! ## Two runs -/

/-- The Machine is on `node-1`; another Node is marked for reclaim. -/
def twoNodesEnv : Env :=
  { runningEnv demoNode with node := fun _ name => if name = "victim" then some requestedNode else some demoNode }

/-- A tenant points the resource at the other Node. -/
def forgedNodeRef : List RunAct :=
  .start :: answers 13 ++ [.finish, .interfere (.replace twoNodesEnv .all),
    .interfere (.forgeNodeRef (some ⟨"v1", "Node", "victim", none⟩)), .start] ++ answers 10

def aimsAt (node : String) : List Event → Bool
  | [] => false
  | e :: earlier => aim e earlier == some node

theorem aimsAt_iff {node : String} {log : List Event} (h : aimsAt node log = true) :
    ∃ e earlier, log = e :: earlier ∧ aim e earlier = some node := by
  cases log with
  | nil => cases h
  | cons e earlier => exact ⟨e, earlier, rfl, eq_of_beq h⟩

theorem reclaim_target_canonical_cleared : ∃ (s : RunState) (e : Event) (earlier : List Event),
    s.world.log = e :: earlier ∧ aim e earlier = some "node-1" ∧ boundInPass earlier "node-1" = true := by
  obtain ⟨s, hs, haims⟩ := System.Reach.exists_of_runWith (system demoContext) nodeRefCurrent
    (fun s => aimsAt "node-1" s.world.log) (markedForReclaim ++ answers 17) demoWorld_fresh (by decide +kernel)
  obtain ⟨e, earlier, hlog, haim⟩ := aimsAt_iff haims
  exact ⟨s, e, earlier, hlog, haim, reclaim_target_canonical hs e earlier _ (hlog ▸ List.suffix_rfl) haim⟩

/-- A Node is drained that the Machine was never bound to. -/
theorem reclaim_target_forged : ¬∀ s : RunState, (system demoContext).Reach Fresh (fun _ _ => True) s →
    ∀ e earlier node, e :: earlier <:+ s.world.log → aim e earlier = some node →
      boundInPass earlier node = true := by
  intro hcanonical
  obtain ⟨s, hs, hproperty⟩ := System.Reach.exists_of_runWith (system demoContext) (fun _ _ => true)
    (fun s => aimsAt "victim" s.world.log && !boundInPass s.world.log "victim") forgedNodeRef demoWorld_fresh
    (by decide +kernel)
  obtain ⟨haims, hunbound⟩ := Bool.and_eq_true_iff.mp hproperty
  obtain ⟨e, earlier, hlog, haim⟩ := aimsAt_iff haims
  have hbound := hcanonical s (hs.mono _ fun _ _ _ => trivial) e earlier _ (hlog ▸ List.suffix_rfl) haim
  have hreads : e.reads = none := by
    cases e with
    | started time bound sm => exact absurd haim (aim_eq_none rfl _)
    | _ => rfl
  rw [hlog, boundInPass_cons hreads hbound] at hunbound
  cases hunbound

end FiveSpot
