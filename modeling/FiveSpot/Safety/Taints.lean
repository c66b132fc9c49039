import FiveSpot.Cluster.LogInvariant
import FiveSpot.Safety.TaintPlan

/-! # Taints of others

The controller infers which taints are its own from `status.appliedNodeTaints`, which is tied to no Node
and also lists taints it found in place. A taint of somebody else is safe from it as long as the record
does not claim it.
-/

namespace FiveSpot

set_option autoImplicit false

open Interaction

def World.foreign (w : World) (client : Client) (name : String) (t : Taint) : Prop :=
  ∃ node, w.env.node client name = some node ∧ t ∈ node.taints ∧ t.content ∉ w.ours client name

/-- Administrators edit the taints of existing Nodes between reconciles only. -/
def TaintsSteady (s : RunState) (a : RunAct) : Prop :=
  ∀ env keep, a = .interfere (.replace env keep) → s.pass.isSome = true →
    ∀ client name node, s.world.env.node client name = some node →
      (env.node client name).map (·.taints) = some node.taints

/-- When taints are written, no taint of somebody else is claimed by the record. -/
def TaintsUnclaimed (s : RunState) (a : RunAct) : Prop :=
  ∀ fate snap client name ownership taints, a = .answer fate →
    nextCall s = some (snap, client, .applyNodeTaints name ownership taints) →
    ∀ t, s.world.foreign client name t → claimed snap.sm.spec.nodeTaints snap.sm.appliedNodeTaints t = false

/-! ## Calls and taints -/

/-- Only a taint write touches taints. -/
def SameTaints (w after : World) : Prop :=
  (∀ client name, (after.env.node client name).map (·.taints) = (w.env.node client name).map (·.taints)) ∧
    after.lost = w.lost ∧ after.ours = w.ours

theorem SameTaints.refl (w : World) : SameTaints w w := ⟨fun _ _ => rfl, rfl, rfl⟩

theorem perform_taints {w after : World} {client : Client} {call : ApiCall} {answer : call.Answer}
    (h : perform w client call = .ok (answer, after)) :
    SameTaints w after ∨ ∃ name ownership taints, call = .applyNodeTaints name ownership taints := by
  cases call with
  | applyNodeTaints name ownership taints => exact .inr ⟨name, ownership, taints, rfl⟩
  | patchNode name body =>
    obtain ⟨node, hnode, heq⟩ := orNotFound_eq_ok h
    cases heq
    refine .inl ⟨fun c n => ?_, rfl, rfl⟩
    by_cases hhere : c = client ∧ n = name
    · obtain ⟨rfl, rfl⟩ := hhere
      simp [World.setNode, hnode, NodePatch.apply]
    · simp [World.setNode, hhere]
  | create ar ns name body =>
    obtain ⟨-, -, rfl⟩ := create_eq_ok h
    exact .inl (.refl w)
  | deleteConfigMap ns name =>
    simp only [perform] at h
    split at h
    · cases h
      exact .inl (.refl w)
    · cases h
  | patchStatus | patchFinalizers | patchEnabled | delete | get | pinnedKind | getSecret | getNode =>
    obtain ⟨_, _, heq⟩ := orNotFound_eq_ok h
    cases heq
    exact .inl (.refl w)
  | publishEvent | accessReview | listPods | deletePod | applyConfigMap | configMapExists |
    secretExists | namespaceExists =>
    cases h
    exact .inl (.refl w)

theorem serveApi_taints (w : World) (client : Client) (call : ApiCall) (fate : Fate) :
    SameTaints w (serveApi w client call fate).2 ∨
      ∃ name ownership taints, call = .applyNodeTaints name ownership taints :=
  serveApi_keeps (P := fun w' => SameTaints w w' ∨ ∃ name ownership taints, call = .applyNodeTaints name ownership taints)
    (fun _ _ h => h) (.inl (.refl w)) (fun _ _ h => perform_taints h) fate

theorem SameTaints.node {w after : World} (h : SameTaints w after) {client : Client} {name : String} {node : Node}
    (hnode : w.env.node client name = some node) :
    ∃ node', after.env.node client name = some node' ∧ node'.taints = node.taints := by
  have hmap := h.1 client name
  rw [hnode, Option.map_some] at hmap
  exact Option.map_eq_some_iff.mp hmap

/-! ## Reads stay true -/

/-- Until the pass itself writes, the Nodes it has read still have the taints it read. -/
structure TaintInvariant (w : World) (pass : Option (Snapshot × List (Sigma Resp))) : Prop where
  lost : w.lost = []
  current : ∀ snap trace, pass = some (snap, trace) → Untouched (observed trace) →
    ∀ client name found, .node client name (some found) ∈ observed trace →
      ∃ node, w.env.node client name = some node ∧ node.taints = found.taints

section

variable {ctx : Context} {w : World} {snap : Snapshot} {client : Client} {call : ApiCall}
  {trace : List (Sigma Resp)} {fate : Fate}

/-- What a legal taint write takes from others. -/
theorem taintsLost_eq_nil (h : TaintInvariant w (some (snap, trace))) {name : String} {node : Node}
    {taints : List Taint} (hlegal : LegalFor ctx snap (observed trace) (.taints client name taints))
    (hnode : w.env.node client name = some node)
    (hunclaimed : ∀ t, w.foreign client name t →
      claimed snap.sm.spec.nodeTaints snap.sm.appliedNodeTaints t = false) :
    taintsLost node.taints (w.ours client name) (taints.map Taint.stored) = [] := by
  cases hlegal with
  | activeTaints path phase clean written =>
    obtain ⟨first, second, rest, ht, -, -, rfl⟩ := written.planned
    have hfirst : .node client name (some first) ∈ observed trace := by simp [ht]
    have hsecond : .node client name (some second) ∈ observed trace := by simp [ht]
    have hread : ∀ found, .node client name (some found) ∈ observed trace → found.taints = node.taints := by
      intro found hfound
      obtain ⟨node', hnode', htaints⟩ := h.current snap trace rfl clean client name found hfound
      rw [hnode, Option.some.injEq] at hnode'
      rw [← htaints, hnode']
    rw [taintPlan, hread first hfirst, hread second hsecond, taintsLost, List.filter_eq_nil_iff]
    intro t ht hlost
    simp only [Bool.and_eq_true, Bool.not_eq_true', List.contains_eq_mem, decide_eq_false_iff_not] at hlost
    have htarget := mem_targetTaints node.distinct ht (hunclaimed t ⟨node, hnode, ht, hlost.1⟩)
    exact hlost.2 (List.mem_map.mpr ⟨t, htarget, Taint.stored_eq (node.stored t ht)⟩)

theorem lost_applyNodeTaints (h : TaintInvariant w (some (snap, trace))) {name ownership : String}
    {taints : List Taint} (hlegal : LegalFor ctx snap (observed trace) (.taints client name taints))
    (hunclaimed : ∀ t, w.foreign client name t →
      claimed snap.sm.spec.nodeTaints snap.sm.appliedNodeTaints t = false) :
    (serveApi w client (.applyNodeTaints name ownership taints) fate).2.lost = [] := by
  refine serveApi_keeps (P := fun w' => w'.lost = []) (fun _ _ h => h) h.lost ?_ fate
  intro answer after hperform
  obtain ⟨node, hnode, distinct, rfl⟩ := applyNodeTaints_eq_ok hperform
  simp [taintsLost_eq_nil h hlegal hnode hunclaimed, h.lost]

theorem current_call (h : TaintInvariant w (some (snap, trace))) (hsame : SameTaints w (serveApi w client call fate).2)
    (hclean : Untouched (obsOfCall client call (serveApi w client call fate).1 :: observed trace))
    {c : Client} {name : String} {found : Node}
    (hmem : .node c name (some found) ∈ obsOfCall client call (serveApi w client call fate).1 :: observed trace) :
    ∃ node, (serveApi w client call fate).2.env.node c name = some node ∧ node.taints = found.taints := by
  rcases List.mem_cons.mp hmem with hnew | hold
  · obtain ⟨-, -, -, hnode⟩ := node_of_obs hnew.symm
    exact hsame.node hnode
  · obtain ⟨node, hnode, htaints⟩ := h.current snap trace rfl hclean.tail c name found hold
    obtain ⟨node', hnode', hsame⟩ := hsame.node hnode
    exact ⟨node', hnode', hsame.trans htaints⟩

theorem taintInvariant_call {k : Resp (.api client call) → Prog Resp ReconcilerError Action}
    (h : TaintInvariant w (some (snap, trace)))
    (hlegal : ∀ effect, effectOfCall client call = some effect → LegalFor ctx snap (observed trace) effect)
    (hok : TaintsUnclaimed ⟨w, some ⟨snap, .call (.api client call) k, trace⟩⟩ (.answer fate)) :
    TaintInvariant (serveApi w client call fate).2
      (some (snap, ⟨.api client call, (serveApi w client call fate).1⟩ :: trace)) := by
  rcases serveApi_taints w client call fate with hsame | ⟨name, ownership, taints, rfl⟩
  · refine ⟨hsame.2.1.trans h.lost, fun snap' trace' hpass hclean c name found hmem => ?_⟩
    cases hpass
    exact current_call h hsame hclean hmem
  · refine ⟨lost_applyNodeTaints h (hlegal _ rfl) (hok fate snap client name ownership taints rfl rfl),
      fun snap' trace' hpass hclean => ?_⟩
    cases hpass
    obtain ⟨key, heq⟩ := hclean _ List.mem_cons_self rfl
    cases heq

end

theorem interfere_nodes {e : Interference} {w : World} :
    (interfere e w).lost = w.lost ∧
      ((interfere e w).env = w.env ∨ ∃ env keep, e = .replace env keep ∧ (interfere e w).env = env) := by
  cases e with
  | replace env keep => exact ⟨rfl, .inr ⟨env, keep, rfl, rfl⟩⟩
  | editSpec spec => cases hsm : w.sm <;> simp [interfere, hsm, World.record, World.setSm]
  | requestDeletion => cases hsm : w.sm <;> simp [interfere, hsm, World.record, World.setSm]
  | _ => exact ⟨rfl, .inl rfl⟩

theorem taintInvariant_interfere {w : World} {pass : Option (Pass Resp ReconcilerError Action Snapshot)}
    (e : Interference) (h : TaintInvariant w (System.seen pass))
    (hok : TaintsSteady ⟨w, pass⟩ (.interfere e)) : TaintInvariant (interfere e w) (System.seen pass) := by
  obtain ⟨hlost, henv⟩ := @interfere_nodes e w
  refine ⟨hlost.trans h.lost, fun snap trace hpass hclean client name found hmem => ?_⟩
  obtain ⟨node, hnode, htaints⟩ := h.current snap trace hpass hclean client name found hmem
  rcases henv with henv | ⟨env, keep, rfl, henv⟩
  · exact ⟨node, by rw [henv, hnode], htaints⟩
  · have hsome : pass.isSome = true := by
      cases pass with
      | none => cases hpass
      | some p => rfl
    obtain ⟨node', hnode', hsame⟩ := Option.map_eq_some_iff.mp (hok env keep rfl hsome client name node hnode)
    exact ⟨node', by rw [henv, hnode'], hsame.trans htaints⟩

theorem TaintInvariant.local {w after : World} {snap : Snapshot} {trace : List (Sigma Resp)} {event : Sigma Resp}
    (h : TaintInvariant w (some (snap, trace))) (hlost : after.lost = w.lost) (henv : after.env = w.env)
    (hobs : ∀ o ∈ (obsOf event.1 event.2).toList, o.isLocal = true) :
    TaintInvariant after (some (snap, event :: trace)) := by
  refine ⟨hlost.trans h.lost, fun snap' trace' hpass hclean client name found hmem => ?_⟩
  cases hpass
  rw [observed_cons] at hclean hmem
  rcases List.mem_append.mp hmem with hnew | hold
  · cases hobs _ hnew
  · rw [henv]
    exact h.current snap trace rfl (fun o ho => hclean o (List.mem_append_right _ ho)) client name found hold

theorem taintInvariant_serve {ctx : Context} {w : World} {snap : Snapshot} {r : Req}
    {k : Resp r → Prog Resp ReconcilerError Action} {trace : List (Sigma Resp)} {fate : Fate}
    (h : TaintInvariant w (some (snap, trace))) (hallowed : (rules ctx snap).allowed (observed trace) r)
    (hok : TaintsUnclaimed ⟨w, some ⟨snap, .call r k, trace⟩⟩ (.answer fate)) :
    TaintInvariant (serve w r fate).2 (some (snap, ⟨r, (serve w r fate).1⟩ :: trace)) := by
  cases r with
  | api client call => exact taintInvariant_call h hallowed hok
  | loc op =>
    obtain ⟨-, -, -, henv, -⟩ := performLocal_frame w op
    refine h.local ?_ henv fun o ho => ?_
    · cases op <;> rfl
    · cases op with
      | utcNow => cases List.mem_singleton.mp ho; rfl
      | _ => cases ho
  | timer seconds =>
    refine h.local ?_ ?_ fun o ho => ?_
    · cases fate <;> rfl
    · cases fate <;> rfl
    · cases fate with
      | ok => cases ho
      | fail _ => cases List.mem_singleton.mp ho; rfl
      | lost _ => cases List.mem_singleton.mp ho; rfl

theorem taintInvariant_keeps (ctx : Context) :
    (system ctx).Keeps (rules ctx) (fun _ => []) Fresh (fun s a => TaintsSteady s a ∧ TaintsUnclaimed s a)
      (fun _ _ => True) TaintInvariant where
  base _ hw := ⟨hw.lost, fun _ _ h => (nomatch h)⟩
  interfere _ _ e _ h _ hok := taintInvariant_interfere e h hok.1
  start _ _ _ h _ _ := by
    refine ⟨h.lost, fun _ _ hpass _ _ _ _ hmem => ?_⟩
    cases hpass
    cases hmem
  answer _ _ _ _ _ _ _ h hallowed hok := by
    rw [rules_after] at hallowed
    exact taintInvariant_serve h hallowed hok.2
  finish _ _ _ h := ⟨h.lost, fun _ _ h => (nomatch h)⟩
  kill _ _ _ h := ⟨h.lost, fun _ _ h => (nomatch h)⟩

/-- In every such run, no write of the controller has ever removed or changed a taint of somebody else. -/
theorem foreign_taints_kept {ctx : Context} {s : RunState}
    (hs : (system ctx).Reach Fresh (fun s a => TaintsSteady s a ∧ TaintsUnclaimed s a) s) : s.world.lost = [] :=
  (System.Reach.invariant _ (system_conforms ctx) (fun _ _ => trivial) (taintInvariant_keeps ctx) hs).lost

/-! ## Two runs -/

def adminTaint : Taint := ⟨"dedicated", some "batch", "NoSchedule", none⟩

def adminNode : Node :=
  { demoNode with taints := [adminTaint], conditions := some [("Ready", "True")], distinct := by decide, stored := by decide }

def dedicatedSpec : ScheduledMachineSpec := { demoSpec with nodeTaints := [⟨"dedicated", some "batch", .noSchedule⟩] }

def reservedSpec : ScheduledMachineSpec := { demoSpec with nodeTaints := [⟨"reserved", none, .noExecute⟩] }

/-- The machine is active on the tainted Node; the spec then asks for `spec`. -/
def taintedWith (spec : ScheduledMachineSpec) : List RunAct :=
  .start :: answers 13 ++ [.finish, .interfere (.replace (runningEnv adminNode) .all),
    .interfere (.editSpec spec), .start]

/-- The user asks for the administrator's taint, and later no longer does. -/
def adoptedTaint : List RunAct :=
  taintedWith dedicatedSpec ++ answers 13 ++ [.finish, .interfere (.editSpec demoSpec), .start] ++ answers 13

/-- Nothing else moves while a reconcile runs. -/
def stillDuringPass (s : RunState) : RunAct → Bool
  | .interfere _ => s.pass.isNone
  | _ => true

theorem steady_of_still {s : RunState} {a : RunAct} (h : stillDuringPass s a = true) : TaintsSteady s a := by
  rintro env keep rfl hsome
  simp only [stillDuringPass, Option.isNone_iff_eq_none] at h
  rw [h] at hsome
  cases hsome

def unrecordedWrite (s : RunState) : RunAct → Bool
  | .answer _ => (nextCall s).all fun ⟨snap, _, _⟩ => snap.sm.appliedNodeTaints.isEmpty
  | _ => true

theorem unclaimed_of_unrecorded {s : RunState} {a : RunAct} (h : unrecordedWrite s a = true) :
    TaintsUnclaimed s a := by
  rintro fate snap client name ownership taints rfl hnext t -
  simp only [unrecordedWrite, hnext, Option.all_some, List.isEmpty_iff] at h
  simp [claimed, h]

def hasOwnTaint (s : RunState) : Bool := !(s.world.ours .management "node-1").isEmpty

theorem foreign_taints_kept_beside_own : ∃ s : RunState, hasOwnTaint s = true ∧ s.world.lost = [] := by
  obtain ⟨s, hs, hown⟩ := System.Reach.exists_of_runWith (system demoContext)
    (fun s a => stillDuringPass s a && unrecordedWrite s a) hasOwnTaint (taintedWith reservedSpec ++ answers 12)
    demoWorld_fresh (by decide +kernel)
  refine ⟨s, hown, foreign_taints_kept (hs.mono _ fun s a hok => ?_)⟩
  obtain ⟨hstill, hunrecorded⟩ := Bool.and_eq_true_iff.mp hok
  exact ⟨steady_of_still hstill, unclaimed_of_unrecorded hunrecorded⟩

/-- A taint that was there first is taken for the controller's own and removed. -/
theorem foreign_taint_removed :
    ¬∀ s : RunState, (system demoContext).Reach Fresh TaintsSteady s → s.world.lost = [] := by
  intro hkept
  obtain ⟨s, hs, hlost⟩ := System.Reach.exists_of_runWith (system demoContext) stillDuringPass
    (fun s => !s.world.lost.isEmpty) adoptedTaint demoWorld_fresh (by decide +kernel)
  rw [hkept s (hs.mono _ fun _ _ => steady_of_still)] at hlost
  cases hlost

end FiveSpot
