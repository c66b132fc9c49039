import FiveSpot.Safety.Taints

/-! # Convergence of taints

The Node and `status.appliedNodeTaints` are written one after the other. A taint that reached the Node while
the record of it was lost is known to the controller only as long as the spec still asks for it.
-/

namespace FiveSpot

set_option autoImplicit false

open Interaction

def World.taintsOn (w : World) (client : Client) (name : String) : List Taint :=
  match w.env.node client name with
  | some node => node.taints
  | none => []

/-- The Node has what is asked for, and besides that only what others have put there. -/
def ExactlyDesired (w : World) (client : Client) (name : String) (desired : List NodeTaint) : Prop :=
  ∀ x, x ∈ (w.taintsOn client name).map Taint.content ↔ x ∈ desired.map NodeTaint.content ∨
    x ∈ (w.taintsOn client name).map Taint.content ∧ x ∉ w.ours client name

/-- Nothing was left to do, or the Node was written. -/
def TaintsReconciled (client : Client) (name : String) (sm : ScheduledMachine) (t : List Obs) : Prop :=
  .tainted client name true ∈ t ∨ Untouched t ∧
    (sm.spec.nodeTaints = [] ∧ sm.appliedNodeTaints = [] ∨
      ∃ found, NodeRead sm client name found t ∧ (taintPlan sm found).isNoop = true)

/-- An active reconcile meets no conflict on the Node, and leaves it as desired. -/
def TaintsConverge (client : Client) (name : String) (s : RunState) : Prop :=
  s.world.lost = [] ∧ ∀ p, s.pass = some p → p.snap.sm.phase = some .active →
    (∀ found, Untouched (observed p.trace) → NodeRead p.snap.sm client name found (observed p.trace) →
      (taintPlan p.snap.sm found).conflicts = []) ∧
    (TaintsReconciled client name p.snap.sm (observed p.trace) →
      ExactlyDesired s.world client name p.snap.sm.spec.nodeTaints)

/-- The taint has the key and effect of an entry of the spec or of the record. -/
def ScheduledMachine.speaksOf (sm : ScheduledMachine) : Taint → Bool :=
  spokenOf (sm.spec.nodeTaints ++ sm.appliedNodeTaints)

/-- Every such taint on the Node is the controller's. -/
def OwnTaints (w : World) (client : Client) (name : String) (sm : ScheduledMachine) : Prop :=
  ∀ t ∈ w.taintsOn client name, sm.speaksOf t = true → t.content ∈ w.ours client name

/-- Active reconciles work on one Node, and nobody else writes taints with the key and effect of an entry. -/
structure OneNode (client : Client) (name : String) (s : RunState) (a : RunAct) : Prop where
  node : ∀ fate p c n, a = .answer fate → s.pass = some p → nextCall s = some (p.snap, c, .getNode n) →
    p.snap.sm.phase = some .active → MachineOn p.snap.sm n (observed p.trace) → c = client ∧ n = name
  before : ∀ sm, a = .start → s.world.sm = some sm → sm.phase = some .active → OwnTaints s.world client name sm
  meanwhile : ∀ e p, a = .interfere e → s.pass = some p → p.snap.sm.phase = some .active →
    OwnTaints (interfere e s.world) client name p.snap.sm ∧
      ((interfere e s.world).taintsOn client name).filter p.snap.sm.speaksOf =
        (s.world.taintsOn client name).filter p.snap.sm.speaksOf

/-- What the spec asked for when an active reconcile last began. -/
def lastAsked (log : List Event) : Option (List NodeTaint) :=
  log.findSome? fun
    | .started _ _ sm => if sm.phase = some .active then some sm.spec.nodeTaints else none
    | _ => none

/-- An edited spec still asks for every taint on the Node that is the controller's and not on record, and
lists no key and effect twice and no empty value. No taint of the Node changes between the last read and the
write. -/
structure EditsKeep (client : Client) (name : String) (s : RunState) (a : RunAct) : Prop where
  entries : ∀ sm, a = .start → s.world.sm = some sm → sm.phase = some .active →
    DistinctEntries sm.spec.nodeTaints ∧ ∀ d ∈ sm.spec.nodeTaints, d.value ≠ some ""
  unrecorded : ∀ sm, a = .start → s.world.sm = some sm → sm.phase = some .active →
    lastAsked s.world.log ≠ some sm.spec.nodeTaints → ∀ x ∈ s.world.ours client name,
      x ∉ sm.appliedNodeTaints.map NodeTaint.content → x ∈ sm.spec.nodeTaints.map NodeTaint.content
  window : ∀ e p second first rest, a = .interfere e → s.pass = some p →
    observed p.trace = .node client name (some second) :: .node client name (some first) :: rest →
      (interfere e s.world).taintsOn client name = s.world.taintsOn client name

/-! ## The invariant -/

/-- Everything asked for is on the Node, and everything of the controller's there is asked for. -/
structure Converged (w : World) (client : Client) (name : String) (desired : List NodeTaint) : Prop where
  there : ∀ d ∈ desired, d.content ∈ (w.taintsOn client name).map Taint.content
  wanted : ∀ x ∈ w.ours client name, x ∈ desired.map NodeTaint.content

structure ConvergingPass (client : Client) (name : String) (w : World) (sm : ScheduledMachine) (t : List Obs) :
    Prop where
  asked : lastAsked w.log = some sm.spec.nodeTaints
  distinct : DistinctEntries sm.spec.nodeTaints ∧ DistinctEntries sm.appliedNodeTaints
  stored : ∀ d ∈ sm.spec.nodeTaints, d.value ≠ some ""
  own : Untouched t → OwnTaints w client name sm
  known : Untouched t → ∀ x ∈ w.ours client name,
    x ∈ sm.appliedNodeTaints.map NodeTaint.content ∨ x ∈ sm.spec.nodeTaints.map NodeTaint.content
  node : ∀ c n found, NodeRead sm c n found t → c = client ∧ n = name
  read : Untouched t → ∀ found, NodeRead sm client name found t →
    found.taints.filter sm.speaksOf = (w.taintsOn client name).filter sm.speaksOf
  window : Untouched t → ∀ second first rest,
    t = .node client name (some second) :: .node client name (some first) :: rest →
      second.taints = w.taintsOn client name
  done : .tainted client name true ∈ t → Converged w client name sm.spec.nodeTaints

/-- What the controller has put on the Node is there, and is on record or was asked for when it was put there. -/
structure Converging (client : Client) (name : String) (w : World)
    (pass : Option (Snapshot × List (Sigma Resp))) : Prop where
  lost : w.lost = []
  present : ∀ x ∈ w.ours client name, x ∈ (w.taintsOn client name).map Taint.content
  applied : ∀ sm, w.sm = some sm → DistinctEntries sm.appliedNodeTaints
  known : ∀ sm, w.sm = some sm → ∀ x ∈ w.ours client name, x ∈ sm.appliedNodeTaints.map NodeTaint.content ∨
    ∃ asked, lastAsked w.log = some asked ∧ x ∈ asked.map NodeTaint.content
  pass : ∀ snap trace, pass = some (snap, trace) → snap.sm.phase = some .active →
    ConvergingPass client name w snap.sm (observed trace)

section

variable {client : Client} {name : String} {w : World} {sm : ScheduledMachine} {t : List Obs}

theorem World.taintsOn_eq {node : Node} (h : w.env.node client name = some node) : w.taintsOn client name = node.taints := by
  rw [World.taintsOn, h]

theorem taintsOn_setNode (w : World) (client : Client) (name : String) (node : Node) :
    (w.setNode client name node).taintsOn client name = node.taints := by
  simp [World.taintsOn, World.setNode]

theorem distinct_taintsOn (w : World) (client : Client) (name : String) : DistinctTaints (w.taintsOn client name) := by
  unfold World.taintsOn
  split
  · rename_i node _
    exact node.distinct
  · exact List.nodup_nil

theorem ConvergingPass.settled (h : ConvergingPass client name w sm t) (ht : Untouched t) :
    Settled (w.taintsOn client name) sm.spec.nodeTaints sm.appliedNodeTaints (w.ours client name) where
  distinct := distinct_taintsOn w client name
  distinctDesired := h.distinct.1
  distinctApplied := h.distinct.2
  claims t' ht' n hn hmatches := h.own ht t' ht' (List.any_eq_true.mpr ⟨n, hn, hmatches⟩)
  known := h.known ht

theorem ConvergingPass.plan_eq (h : ConvergingPass client name w sm t) (ht : Untouched t) {found : Node}
    (hread : NodeRead sm client name found t) : taintPlan sm found =
      diffNodeTaints (w.taintsOn client name) sm.spec.nodeTaints sm.appliedNodeTaints :=
  diffNodeTaints_congr (h.read ht found hread)

theorem ConvergingPass.conflicts_eq_nil (h : ConvergingPass client name w sm t) (ht : Untouched t) {found : Node}
    (hread : NodeRead sm client name found t) : (taintPlan sm found).conflicts = [] := by
  rw [h.plan_eq ht hread]
  exact (h.settled ht).conflicts_eq_nil

theorem ConvergingPass.converged_of_isNoop (h : ConvergingPass client name w sm t) (ht : Untouched t) {found : Node}
    (hpresent : ∀ x ∈ w.ours client name, x ∈ (w.taintsOn client name).map Taint.content)
    (hread : NodeRead sm client name found t) (hnoop : (taintPlan sm found).isNoop = true) :
    Converged w client name sm.spec.nodeTaints := by
  have hsettled := h.settled ht
  rw [h.plan_eq ht hread] at hnoop
  have htarget : targetTaints (w.taintsOn client name) _ = w.taintsOn client name := targetTaints_of_isNoop hnoop
  constructor
  · intro d hd
    have hmem := hsettled.desired_mem_target hd
    rwa [htarget] at hmem
  · intro x hx
    obtain ⟨t', ht', rfl⟩ := List.mem_map.mp (hpresent x hx)
    rw [← htarget] at ht'
    rcases hsettled.target_cases ht' with hdesired | ⟨-, hforeign⟩
    · exact hdesired
    · exact absurd hx hforeign

theorem Converged.exactly {desired : List NodeTaint} (h : Converged w client name desired) :
    ExactlyDesired w client name desired := by
  intro x
  constructor
  · intro hx
    by_cases hours : x ∈ w.ours client name
    · exact .inl (h.wanted x hours)
    · exact .inr ⟨hx, hours⟩
  · rintro (hx | ⟨hx, -⟩)
    · obtain ⟨d, hd, rfl⟩ := List.mem_map.mp hx
      exact h.there d hd
    · exact hx

theorem ConvergingPass.converged_of_nil (h : ConvergingPass client name w sm t) (ht : Untouched t)
    (hdesired : sm.spec.nodeTaints = []) (happlied : sm.appliedNodeTaints = []) :
    Converged w client name sm.spec.nodeTaints := by
  constructor
  · intro d hd
    rw [hdesired] at hd
    cases hd
  · intro x hx
    have hknown := h.known ht x hx
    rw [hdesired, happlied] at hknown
    rcases hknown with hx | hx <;> cases hx

theorem NodeRead.cases_cons {o : Obs} {found : Node} (h : NodeRead sm client name found (o :: t)) :
    NodeRead sm client name found t ∨ o = .node client name (some found) ∧ MachineOn sm name t := by
  obtain ⟨newer, older, heq, hmachine, hmem⟩ := h
  cases newer with
  | nil => cases hmem
  | cons o' newer =>
    obtain ⟨rfl, rfl⟩ := List.cons.inj heq
    rcases List.mem_cons.mp hmem with hnew | hold
    · refine .inr ⟨hnew.symm, ?_⟩
      obtain ⟨machine, hmachine, hnode⟩ := hmachine
      exact ⟨machine, List.mem_append_right _ hmachine, hnode⟩
    · exact .inl ⟨newer, older, rfl, hmachine, hold⟩

end

/-! ## Answers -/

theorem SameTaints.taintsOn {w after : World} (h : SameTaints w after) (client : Client) (name : String) :
    after.taintsOn client name = w.taintsOn client name := by
  have hmap := h.1 client name
  unfold World.taintsOn
  cases hbefore : w.env.node client name <;> cases hafter : after.env.node client name <;>
    simp_all

theorem Converged.same {w after : World} {client : Client} {name : String} {desired : List NodeTaint}
    (h : Converged w client name desired) (htaints : after.taintsOn client name = w.taintsOn client name)
    (hours : after.ours = w.ours) : Converged after client name desired := by
  constructor
  · rw [htaints]
    exact h.there
  · rw [hours]
    exact h.wanted

theorem call_of_tainted {client c : Client} {call : ApiCall} {answer : Except KubeError call.Answer} {n : String}
    {done : Bool} (h : obsOfCall client call answer = .tainted c n done) :
    client = c ∧ (∃ ownership taints, call = .applyNodeTaints n ownership taints) ∧ done = succeeded answer := by
  cases obsSource h with
  | tainted name ownership taints answer => exact ⟨rfl, ⟨ownership, taints, rfl⟩, rfl⟩

section

variable {ctx : Context} {client c : Client} {name : String} {w : World} {snap : Snapshot} {call : ApiCall}
  {trace : List (Sigma Resp)} {fate : Fate}

theorem ConvergingPass.answered {k : Resp (.api c call) → Prog Resp ReconcilerError Action}
    (h : ConvergingPass client name w snap.sm (observed trace)) (hactive : snap.sm.phase = some .active)
    (hsame : SameTaints w (serveApi w c call fate).2)
    (hasked : lastAsked (serveApi w c call fate).2.log = lastAsked w.log)
    (hplain : ∀ n ownership taints, call ≠ .applyNodeTaints n ownership taints)
    (hok : OneNode client name ⟨w, some ⟨snap, .call (.api c call) k, trace⟩⟩ (.answer fate)) :
    ConvergingPass client name (serveApi w c call fate).2 snap.sm
      (obsOfCall c call (serveApi w c call fate).1 :: observed trace) := by
  have htaints := hsame.taintsOn client name
  have hours : (serveApi w c call fate).2.ours client name = w.ours client name := by rw [hsame.2.2]
  -- the only Node this call can have read is the one
  have hread : ∀ c' n found, NodeRead snap.sm c' n found
      (obsOfCall c call (serveApi w c call fate).1 :: observed trace) → NodeRead snap.sm c' n found (observed trace) ∨
        c' = client ∧ n = name ∧ found.taints = w.taintsOn client name := by
    intro c' n found hfound
    rcases hfound.cases_cons with hold | ⟨hobs, hmachine⟩
    · exact .inl hold
    · obtain ⟨rfl, rfl, -, hnode⟩ := node_of_obs hobs
      obtain ⟨rfl, rfl⟩ := hok.node fate _ _ _ rfl rfl rfl hactive hmachine
      exact .inr ⟨rfl, rfl, (World.taintsOn_eq hnode).symm⟩
  refine ⟨hasked.trans h.asked, h.distinct, h.stored, fun hclean => ?_, fun hclean => ?_, fun c' n found hfound => ?_,
    fun hclean found hfound => ?_, fun hclean second first rest heq => ?_, fun hmem => ?_⟩
  · intro t ht hspoken
    rw [htaints] at ht
    rw [hours]
    exact h.own hclean.tail t ht hspoken
  · rw [hours]
    exact h.known hclean.tail
  · rcases hread c' n found hfound with hold | ⟨hc, hn, -⟩
    · exact h.node c' n found hold
    · exact ⟨hc, hn⟩
  · rw [htaints]
    rcases hread client name found hfound with hold | ⟨-, -, hnew⟩
    · exact h.read hclean.tail found hold
    · rw [hnew]
  · rw [htaints]
    obtain ⟨-, -, -, hnode⟩ := node_of_obs (List.cons.inj heq).1
    exact (World.taintsOn_eq hnode).symm
  · rcases List.mem_cons.mp hmem with hnew | hold
    · obtain ⟨-, ⟨ownership, taints, hcall⟩, -⟩ := call_of_tainted hnew.symm
      exact absurd hcall (hplain _ _ _)
    · exact (h.done hold).same htaints hsame.2.2

theorem TaintsApplied.converged (h : TaintsApplied snap.sm (observed trace))
    (hpass : ConvergingPass client name w snap.sm (observed trace))
    (hpresent : ∀ x ∈ w.ours client name, x ∈ (w.taintsOn client name).map Taint.content) :
    Converged w client name snap.sm.spec.nodeTaints := by
  obtain ⟨c, n, first, hread, -, hdone⟩ := h
  obtain ⟨rfl, rfl⟩ := hpass.node c n first hread
  rcases hdone with ⟨hnoop, hclean⟩ | htainted
  · exact hpass.converged_of_isNoop hclean hpresent hread hnoop
  · exact hpass.done htainted

theorem converging_call {k : Resp (.api c call) → Prog Resp ReconcilerError Action}
    (h : Converging client name w (some (snap, trace)))
    (hlegal : ∀ effect, effectOfCall c call = some effect → LegalFor ctx snap (observed trace) effect)
    (hplain : ∀ n ownership taints, call ≠ .applyNodeTaints n ownership taints)
    (hok : OneNode client name ⟨w, some ⟨snap, .call (.api c call) k, trace⟩⟩ (.answer fate)) :
    Converging client name (serveApi w c call fate).2
      (some (snap, ⟨.api c call, (serveApi w c call fate).1⟩ :: trace)) := by
  have hsame : SameTaints w (serveApi w c call fate).2 := by
    rcases serveApi_taints w c call fate with hsame | ⟨n, ownership, taints, hcall⟩
    · exact hsame
    · exact absurd hcall (hplain n ownership taints)
  obtain ⟨applied, error, ha⟩ := exists_answered w c call fate
  have hasked : lastAsked (serveApi w c call fate).2.log = lastAsked w.log := by
    rw [show (serveApi w c call fate).2.log = _ from ha.log]
    rfl
  have htaints := hsame.taintsOn client name
  have hours : (serveApi w c call fate).2.ours client name = w.ours client name := by rw [hsame.2.2]
  -- the record afterwards is the one before, or the list that was asked for
  have hrecord : ∀ sm', (serveApi w c call fate).2.sm = some sm' →
      (∃ sm, w.sm = some sm ∧ sm'.appliedNodeTaints = sm.appliedNodeTaints) ∨
        snap.sm.phase = some .active ∧ sm'.appliedNodeTaints = snap.sm.spec.nodeTaints ∧
          TaintsApplied snap.sm (observed trace) := by
    intro sm' hsm'
    rw [show (serveApi w c call fate).2.sm = _ from ha.sm] at hsm'
    cases applied with
    | false => exact .inl ⟨sm', hsm', rfl⟩
    | true =>
      obtain ⟨sm, hsm, hon⟩ := Option.bind_eq_some_iff.mp hsm'
      cases memoryEffect_onSm hon with
      | schedule _ _ happlied => exact .inl ⟨sm, hsm, happlied⟩
      | kept _ same => exact .inl ⟨sm, hsm, same.applied⟩
      | taints hcall _ happlied =>
        subst hcall
        cases hlegal _ rfl with
        | activeRecord path phase clean done => exact .inr ⟨phase, happlied, done⟩
  refine ⟨hsame.2.1.trans h.lost, fun x hx => ?_, fun sm' hsm' => ?_, fun sm' hsm' x hx => ?_, fun snap' trace' hpass hactive => ?_⟩
  · rw [hours] at hx
    rw [htaints]
    exact h.present x hx
  · rcases hrecord sm' hsm' with ⟨sm, hsm, heq⟩ | ⟨hactive, heq, -⟩
    · rw [heq]
      exact h.applied sm hsm
    · rw [heq]
      exact (h.pass snap trace rfl hactive).distinct.1
  · rw [hours] at hx
    rw [hasked]
    rcases hrecord sm' hsm' with ⟨sm, hsm, heq⟩ | ⟨hactive, heq, hdone⟩
    · rw [heq]
      exact h.known sm hsm x hx
    · rw [heq]
      exact .inl ((hdone.converged (h.pass snap trace rfl hactive) h.present).wanted x hx)
  · cases hpass
    exact (h.pass snap trace rfl hactive).answered hactive hsame hasked hplain hok

end

/-! ## The write -/

section

variable {current : List Taint} {desired applied : List NodeTaint} {ours : List (String × Option String × String)}

theorem stored_target (hcurrent : ∀ t ∈ current, t.isStored = true) (hdesired : ∀ d ∈ desired, d.value ≠ some "") :
    (targetTaints current (diffNodeTaints current desired applied)).map Taint.stored =
      targetTaints current (diffNodeTaints current desired applied) := by
  have hof : ∀ d ∈ desired, (taintOf d).isStored = true := by
    intro d hd
    simpa [taintOf, Taint.isStored] using hdesired d hd
  have hall : ∀ t ∈ targetTaints current (diffNodeTaints current desired applied), t.isStored = true := by
    intro t ht
    rcases List.mem_append.mp ht with hold | hnew
    · obtain ⟨s, hs, rfl⟩ := List.mem_map.mp hold
      cases hu : (diffNodeTaints current desired applied).toUpdate.find? (taintMatches s) with
      | some u => exact hof u (List.mem_filter.mp (List.mem_of_find?_eq_some hu)).1
      | none => exact hcurrent s (List.mem_filter.mp hs).1
    · obtain ⟨d, hd, rfl⟩ := List.mem_map.mp hnew
      exact hof d (List.mem_filter.mp hd).1
  calc (targetTaints current (diffNodeTaints current desired applied)).map Taint.stored
      = (targetTaints current (diffNodeTaints current desired applied)).map id :=
        List.map_congr_left fun t ht => Taint.stored_eq (hall t ht)
    _ = targetTaints current (diffNodeTaints current desired applied) := List.map_id _

theorem Settled.asked_of_taintsAfterApply (h : Settled current desired applied ours) {x : String × Option String × String}
    (hx : x ∈ taintsAfterApply current ours (targetTaints current (diffNodeTaints current desired applied))) :
    x ∈ desired.map NodeTaint.content := by
  obtain ⟨hx, howned⟩ := List.mem_filter.mp hx
  obtain ⟨t, ht, rfl⟩ := List.mem_map.mp hx
  rcases h.target_cases ht with hdesired | ⟨hcurrent, hforeign⟩
  · exact hdesired
  · have hmem : t.content ∈ current.map Taint.content := List.mem_map_of_mem hcurrent
    simp [hforeign, hmem] at howned

theorem Settled.taintsLost_eq_nil (h : Settled current desired applied ours) :
    taintsLost current ours (targetTaints current (diffNodeTaints current desired applied)) = [] := by
  rw [taintsLost, List.filter_eq_nil_iff]
  intro t ht hlost
  simp only [Bool.and_eq_true, Bool.not_eq_true', List.contains_eq_mem, decide_eq_false_iff_not] at hlost
  exact hlost.2 (h.foreign_mem_target ht hlost.1)

end

/-- The world right after a legal taint write. -/
structure Written (client : Client) (name : String) (w after : World) (desired : List NodeTaint) : Prop where
  lost : after.lost = w.lost
  present : ∀ x ∈ after.ours client name, x ∈ (after.taintsOn client name).map Taint.content
  converged : Converged after client name desired

theorem stored_taintsOn (w : World) (client : Client) (name : String) :
    ∀ t ∈ w.taintsOn client name, t.isStored = true := by
  unfold World.taintsOn
  split
  · rename_i node _
    exact node.stored
  · exact fun _ h => absurd h List.not_mem_nil

theorem written_of_perform {client : Client} {name ownership : String} {w after : World}
    {desired applied : List NodeTaint} {answer : Unit}
    (hsettled : Settled (w.taintsOn client name) desired applied (w.ours client name))
    (hstored : ∀ d ∈ desired, d.value ≠ some "")
    (h : perform w client (.applyNodeTaints name ownership
      (targetTaints (w.taintsOn client name) (diffNodeTaints (w.taintsOn client name) desired applied))) = .ok (answer, after)) :
    Written client name w after desired := by
  obtain ⟨node, hnode, distinct, hafter⟩ := applyNodeTaints_eq_ok h
  have htarget := @stored_target _ _ applied (stored_taintsOn w client name) hstored
  rw [htarget, ← World.taintsOn_eq hnode] at hafter
  have htaints : after.taintsOn client name =
      targetTaints (w.taintsOn client name) (diffNodeTaints (w.taintsOn client name) desired applied) := by
    rw [hafter]
    exact (taintsOn_setNode ..).trans htarget
  have hours : after.ours client name = taintsAfterApply (w.taintsOn client name) (w.ours client name)
      (targetTaints (w.taintsOn client name) (diffNodeTaints (w.taintsOn client name) desired applied)) := by
    rw [hafter]
    simp
  constructor
  · rw [hafter, hsettled.taintsLost_eq_nil]
    rfl
  · intro x hx
    rw [hours] at hx
    rw [htaints]
    exact (List.mem_filter.mp hx).1
  · constructor
    · intro d hd
      rw [htaints]
      exact hsettled.desired_mem_target hd
    · intro x hx
      rw [hours] at hx
      exact hsettled.asked_of_taintsAfterApply hx

theorem ConvergingPass.tainted {client c : Client} {name n : String} {w after : World} {sm : ScheduledMachine}
    {t : List Obs} {done : Bool} (h : ConvergingPass client name w sm t) (hclean : Untouched t)
    (hasked : lastAsked after.log = lastAsked w.log)
    (hdone : done = true → Converged after client name sm.spec.nodeTaints) :
    ConvergingPass client name after sm (.tainted c n done :: t) := by
  have hdirty : ¬Untouched (.tainted c n done :: t) := by
    intro hclean
    obtain ⟨key, heq⟩ := hclean _ List.mem_cons_self rfl
    cases heq
  refine ⟨hasked.trans h.asked, h.distinct, h.stored, fun hclean => absurd hclean hdirty,
    fun hclean => absurd hclean hdirty, fun c' n' found hfound => ?_, fun hclean => absurd hclean hdirty,
    fun hclean => absurd hclean hdirty, fun hmem => ?_⟩
  · rcases hfound.cases_cons with hold | ⟨heq, -⟩
    · exact h.node c' n' found hold
    · cases heq
  · rcases List.mem_cons.mp hmem with hnew | hold
    · cases hnew
      exact hdone rfl
    · obtain ⟨key, heq⟩ := hclean _ hold rfl
      cases heq

section

variable {ctx : Context} {client c : Client} {name : String} {w after : World} {snap : Snapshot} {call : ApiCall}
  {answer : Except KubeError call.Answer} {trace : List (Sigma Resp)} {error : Option KubeError}

/-- A write the server carried out, whatever the controller hears of it. -/
theorem converging_written (h : Converging client name w (some (snap, trace))) (hphase : snap.sm.phase = some .active)
    (hclean : Untouched (observed trace)) (hw : Written client name w after snap.sm.spec.nodeTaints)
    (hsm : after.sm = w.sm) (hlog : after.log = w.log) {n : String} {done : Bool}
    (hobs : obsOfCall c call answer = .tainted c n done) :
    Converging client name (w.recordCall c call true error after) (some (snap, ⟨.api c call, answer⟩ :: trace)) := by
  have hpass := h.pass snap trace rfl hphase
  have hasked : lastAsked (w.recordCall c call true error after).log = lastAsked w.log := by
    change lastAsked (_ :: after.log) = _
    rw [hlog]
    rfl
  refine ⟨hw.lost.trans h.lost, hw.present, fun sm' hsm' => h.applied sm' (hsm.symm.trans hsm'), fun sm' _ x hx => ?_, ?_⟩
  · exact .inr ⟨_, hasked.trans hpass.asked, hw.converged.wanted x hx⟩
  · intro snap' trace' hpass' hactive
    cases hpass'
    change ConvergingPass client name _ snap.sm (obsOfCall c call answer :: observed trace)
    rw [hobs]
    exact hpass.tainted hclean hasked fun _ => ⟨hw.converged.there, hw.converged.wanted⟩

theorem converging_unwritten (h : Converging client name w (some (snap, trace)))
    (hphase : snap.sm.phase = some .active) (hclean : Untouched (observed trace)) {n : String}
    (hobs : obsOfCall c call answer = .tainted c n false) :
    Converging client name (w.recordCall c call false error w) (some (snap, ⟨.api c call, answer⟩ :: trace)) := by
  refine ⟨h.lost, h.present, h.applied, h.known, ?_⟩
  intro snap' trace' hpass' hactive
  cases hpass'
  change ConvergingPass client name _ snap.sm (obsOfCall c call answer :: observed trace)
  rw [hobs]
  exact (h.pass snap trace rfl hphase).tainted hclean rfl nofun

theorem converging_write {n ownership : String} {taints : List Taint} {fate : Fate}
    (h : Converging client name w (some (snap, trace)))
    (hlegal : LegalFor ctx snap (observed trace) (.taints c n taints)) :
    Converging client name (serveApi w c (.applyNodeTaints n ownership taints) fate).2
      (some (snap, ⟨.api c (.applyNodeTaints n ownership taints),
        (serveApi w c (.applyNodeTaints n ownership taints) fate).1⟩ :: trace)) := by
  cases hlegal with
  | activeTaints path phase clean written =>
    obtain ⟨first, second, rest, htrace, hmachine, -, rfl⟩ := written.planned
    have hpass := h.pass snap trace rfl phase
    have hread : NodeRead snap.sm c n first (observed trace) :=
      ⟨[.node c n (some second), .node c n (some first)], rest, htrace, hmachine, by simp⟩
    obtain ⟨rfl, rfl⟩ := hpass.node c n first hread
    rw [hpass.plan_eq clean hread, hpass.window clean second first rest htrace]
    have hsettled := hpass.settled clean
    generalize hcall : ApiCall.applyNodeTaints n ownership (targetTaints (w.taintsOn c n)
      (diffNodeTaints (w.taintsOn c n) snap.sm.spec.nodeTaints snap.sm.appliedNodeTaints)) = call
    have hserved := served w c call fate
    generalize (serveApi w c call fate).1 = answer at hserved ⊢
    generalize (serveApi w c call fate).2 = after at hserved ⊢
    cases hserved with
    | done hperform =>
      subst hcall
      obtain ⟨hsm, -, hlog, -⟩ := perform_frame hperform
      refine converging_written h phase clean (written_of_perform hsettled hpass.stored hperform) ?_ hlog rfl
      rw [hsm]
      cases w.sm <;> rfl
    | refused hperform =>
      subst hcall
      exact converging_unwritten h phase clean rfl
    | failed fault =>
      subst hcall
      exact converging_unwritten h phase clean rfl
    | lost fault hperform =>
      subst hcall
      obtain ⟨hsm, -, hlog, -⟩ := perform_frame hperform
      refine converging_written h phase clean (written_of_perform hsettled hpass.stored hperform) ?_ hlog rfl
      rw [hsm]
      cases w.sm <;> rfl

end

/-! ## Steps between calls -/

theorem interfere_ours (e : Interference) (w : World) (client : Client) (name : String) :
    ((interfere e w).env = w.env ∧ (interfere e w).ours = w.ours) ∨
      ∀ x ∈ (interfere e w).ours client name,
        x ∈ w.ours client name ∧ x ∈ ((interfere e w).taintsOn client name).map Taint.content := by
  cases e with
  | replace env keep =>
    refine .inr fun x hx => ?_
    obtain ⟨hold, hkept⟩ := List.mem_filter.mp hx
    obtain ⟨node, hnode, hcontains⟩ := (Option.any_eq_true _ _).mp (Bool.and_eq_true_iff.mp hkept).2
    refine ⟨hold, ?_⟩
    rw [World.taintsOn_eq (w := interfere (.replace env keep) w) hnode]
    simpa using hcontains
  | editSpec spec => cases hsm : w.sm <;> simp [interfere, hsm, World.record, World.setSm]
  | requestDeletion => cases hsm : w.sm <;> simp [interfere, hsm, World.record, World.setSm]
  | _ => exact .inl ⟨rfl, rfl⟩

theorem lastAsked_interfere (e : Interference) (w : World) : lastAsked (interfere e w).log = lastAsked w.log := by
  cases e with
  | editSpec spec => cases hsm : w.sm <;> simp [interfere, hsm, World.record, World.setSm, lastAsked]
  | requestDeletion => cases hsm : w.sm <;> simp [interfere, hsm, World.record, World.setSm, lastAsked]
  | _ => rfl

section

variable {client : Client} {name : String} {w : World} {e : Interference}

theorem ours_of_interfere {x : String × Option String × String} (hx : x ∈ (interfere e w).ours client name) :
    x ∈ w.ours client name := by
  rcases interfere_ours e w client name with ⟨-, hours⟩ | hshrink
  · rwa [hours] at hx
  · exact (hshrink x hx).1

theorem present_interfere (h : ∀ x ∈ w.ours client name, x ∈ (w.taintsOn client name).map Taint.content) :
    ∀ x ∈ (interfere e w).ours client name, x ∈ ((interfere e w).taintsOn client name).map Taint.content := by
  intro x hx
  rcases interfere_ours e w client name with ⟨henv, hours⟩ | hshrink
  · rw [hours] at hx
    rw [World.taintsOn, henv]
    exact h x hx
  · exact (hshrink x hx).2

theorem ConvergingPass.interfere {p : Pass Resp ReconcilerError Action Snapshot}
    (h : ConvergingPass client name w p.snap.sm (observed p.trace)) (hactive : p.snap.sm.phase = some .active)
    (hone : OneNode client name ⟨w, some p⟩ (.interfere e)) (hkeep : EditsKeep client name ⟨w, some p⟩ (.interfere e)) :
    ConvergingPass client name (FiveSpot.interfere e w) p.snap.sm (observed p.trace) := by
  obtain ⟨hown, hfilter⟩ := hone.meanwhile e p rfl rfl hactive
  refine ⟨(lastAsked_interfere e w).trans h.asked, h.distinct, h.stored, fun _ => hown, fun hclean x hx => ?_, h.node,
    fun hclean found hread => ?_, fun hclean second first rest heq => ?_, fun htainted => ?_⟩
  · exact h.known hclean x (ours_of_interfere hx)
  · exact (h.read hclean found hread).trans hfilter.symm
  · exact (h.window hclean second first rest heq).trans (hkeep.window e p second first rest rfl rfl heq).symm
  · have hdone := h.done htainted
    constructor
    · intro d hd
      obtain ⟨t, ht, hcontent⟩ := List.mem_map.mp (hdone.there d hd)
      have hspoken : p.snap.sm.speaksOf t = true :=
        List.any_eq_true.mpr ⟨d, List.mem_append_left _ hd, (taintMatches_of_content hcontent.symm).1⟩
      have hmem : t ∈ (w.taintsOn client name).filter p.snap.sm.speaksOf := List.mem_filter.mpr ⟨ht, hspoken⟩
      change _ = (w.taintsOn client name).filter _ at hfilter
      rw [← hfilter] at hmem
      rw [← hcontent]
      exact List.mem_map_of_mem (List.mem_filter.mp hmem).1
    · exact fun x hx => hdone.wanted x (ours_of_interfere hx)

end

theorem converging_interfere {client : Client} {name : String} {w : World}
    {pass : Option (Pass Resp ReconcilerError Action Snapshot)} {e : Interference}
    (h : Converging client name w (System.seen pass)) (hone : OneNode client name ⟨w, pass⟩ (.interfere e))
    (hkeep : EditsKeep client name ⟨w, pass⟩ (.interfere e)) :
    Converging client name (interfere e w) (System.seen pass) := by
  refine ⟨(@interfere_nodes e w).1.trans h.lost, present_interfere h.present, fun sm' hsm' => ?_, fun sm' hsm' x hx => ?_,
    fun snap trace hpass hactive => ?_⟩
  · obtain ⟨sm, hsm, hsame⟩ := sameMemory_interfere hsm'
    rw [hsame.applied]
    exact h.applied sm hsm
  · obtain ⟨sm, hsm, hsame⟩ := sameMemory_interfere hsm'
    rw [hsame.applied, lastAsked_interfere]
    exact h.known sm hsm x (ours_of_interfere hx)
  · obtain _ | p := pass
    · cases hpass
    · cases hpass
      exact (h.pass p.snap p.trace rfl hactive).interfere hactive hone hkeep

theorem Converging.local {client : Client} {name : String} {w after : World} {snap : Snapshot}
    {trace : List (Sigma Resp)} {r : Req} {answer : Resp r} (h : Converging client name w (some (snap, trace)))
    (henv : after.env = w.env) (hours : after.ours = w.ours) (hlost : after.lost = w.lost) (hsm : after.sm = w.sm)
    (hasked : lastAsked after.log = lastAsked w.log) (hobs : ∀ o ∈ obsOf r answer, o.isLocal = true) :
    Converging client name after (some (snap, ⟨r, answer⟩ :: trace)) := by
  have htaints : after.taintsOn client name = w.taintsOn client name := by rw [World.taintsOn, henv, World.taintsOn]
  have hours' : after.ours client name = w.ours client name := by rw [hours]
  refine ⟨hlost.trans h.lost, ?_, fun sm hsm' => h.applied sm (hsm.symm.trans hsm'), fun sm hsm' => ?_, ?_⟩
  · rw [hours', htaints]
    exact h.present
  · rw [hours', hasked]
    exact h.known sm (hsm.symm.trans hsm')
  · intro snap' trace' hpass hactive
    cases hpass
    have hpass := h.pass snap trace rfl hactive
    have hsame : ConvergingPass client name after snap.sm (observed trace) := by
      refine ⟨hasked.trans hpass.asked, hpass.distinct, hpass.stored, fun hclean => ?_, fun hclean => ?_, hpass.node,
        fun hclean => ?_, fun hclean => ?_, fun hdone => (hpass.done hdone).same htaints hours⟩
      · rw [OwnTaints, htaints, hours']
        exact hpass.own hclean
      · rw [hours']
        exact hpass.known hclean
      · rw [htaints]
        exact hpass.read hclean
      · rw [htaints]
        exact hpass.window hclean
    rw [observed_cons]
    cases ho : obsOf r answer with
    | none => exact hsame
    | some o =>
      have hlocal := hobs o ho
      have hread : ∀ c n found, NodeRead snap.sm c n found (o :: observed trace) →
          NodeRead snap.sm c n found (observed trace) := by
        intro c n found hread
        rcases hread.cases_cons with hold | ⟨rfl, -⟩
        · exact hold
        · cases hlocal
      change ConvergingPass client name after snap.sm (o :: observed trace)
      refine ⟨hsame.asked, hsame.distinct, hsame.stored, fun hclean => hsame.own hclean.tail,
        fun hclean => hsame.known hclean.tail, fun c n found hfound => hsame.node c n found (hread c n found hfound),
        fun hclean found hfound => hsame.read hclean.tail found (hread _ _ _ hfound), fun _ second first rest heq => ?_,
        fun hmem => ?_⟩
      · rw [(List.cons.inj heq).1] at hlocal
        cases hlocal
      · rcases List.mem_cons.mp hmem with hnew | hold
        · rw [← hnew] at hlocal
          cases hlocal
        · exact hsame.done hold

theorem converging_serve {ctx : Context} {client : Client} {name : String} {w : World} {snap : Snapshot} {r : Req}
    {k : Resp r → Prog Resp ReconcilerError Action} {trace : List (Sigma Resp)} {fate : Fate}
    (h : Converging client name w (some (snap, trace))) (hallowed : (rules ctx snap).allowed (observed trace) r)
    (hok : OneNode client name ⟨w, some ⟨snap, .call r k, trace⟩⟩ (.answer fate)) :
    Converging client name (serve w r fate).2 (some (snap, ⟨r, (serve w r fate).1⟩ :: trace)) := by
  cases r with
  | api c call =>
    by_cases hcall : ∃ n ownership taints, call = .applyNodeTaints n ownership taints
    · obtain ⟨n, ownership, taints, rfl⟩ := hcall
      exact converging_write h (hallowed _ rfl)
    · exact converging_call h hallowed (fun n ownership taints heq => hcall ⟨n, ownership, taints, heq⟩) hok
  | loc op =>
    obtain ⟨hsm, -, hlog, henv, hours⟩ := performLocal_frame w op
    refine h.local henv hours ?_ hsm (congrArg lastAsked hlog) fun o ho => ?_
    · cases op <;> rfl
    · cases op with
      | utcNow => cases ho; rfl
      | _ => cases ho
  | timer seconds =>
    cases fate with
    | ok => exact h.local rfl rfl rfl rfl rfl fun o ho => (nomatch ho)
    | fail _ =>
      refine h.local rfl rfl rfl rfl rfl fun o ho => ?_
      cases ho
      rfl
    | lost _ =>
      refine h.local rfl rfl rfl rfl rfl fun o ho => ?_
      cases ho
      rfl

theorem converging_start {client : Client} {name : String} {w : World} {sm : ScheduledMachine}
    (h : Converging client name w none) (hsm : w.sm = some sm) (hone : OneNode client name ⟨w, none⟩ .start)
    (hkeep : EditsKeep client name ⟨w, none⟩ .start) :
    Converging client name (w.record (.started w.now w.bound sm)) (some (⟨sm, w.leader⟩, [])) := by
  have hasked : lastAsked (w.record (.started w.now w.bound sm)).log =
      if sm.phase = some .active then some sm.spec.nodeTaints else lastAsked w.log := by
    by_cases hactive : sm.phase = some .active <;> simp [World.record, lastAsked, hactive]
  -- what is not on record is still asked for
  have hknown : sm.phase = some .active → ∀ x ∈ w.ours client name,
      x ∈ sm.appliedNodeTaints.map NodeTaint.content ∨ x ∈ sm.spec.nodeTaints.map NodeTaint.content := by
    intro hactive x hx
    by_cases hrecorded : x ∈ sm.appliedNodeTaints.map NodeTaint.content
    · exact .inl hrecorded
    · refine .inr ?_
      by_cases hedited : lastAsked w.log = some sm.spec.nodeTaints
      · rcases h.known sm hsm x hx with happlied | ⟨asked, hlast, hmem⟩
        · exact absurd happlied hrecorded
        · rw [hedited] at hlast
          cases hlast
          exact hmem
      · exact hkeep.unrecorded sm rfl hsm hactive hedited x hx hrecorded
  refine ⟨h.lost, h.present, h.applied, fun sm' hsm' x hx => ?_, fun snap trace hpass hactive => ?_⟩
  · cases hsm.symm.trans hsm'
    rw [hasked]
    by_cases hactive : sm.phase = some .active
    · rw [if_pos hactive]
      exact (hknown hactive x hx).imp id fun hmem => ⟨_, rfl, hmem⟩
    · rw [if_neg hactive]
      exact h.known sm hsm x hx
  · cases hpass
    obtain ⟨hdistinct, hstored⟩ := hkeep.entries sm rfl hsm hactive
    refine ⟨hasked.trans (if_pos hactive), ⟨hdistinct, h.applied sm hsm⟩, hstored,
      fun _ => hone.before sm rfl hsm hactive, fun _ => hknown hactive, ?_, ?_, ?_, ?_⟩
    · rintro c n found ⟨newer, older, heq, -, hmem⟩
      rw [(List.append_eq_nil_iff.mp heq.symm).1] at hmem
      cases hmem
    · rintro - found ⟨newer, older, heq, -, hmem⟩
      rw [(List.append_eq_nil_iff.mp heq.symm).1] at hmem
      cases hmem
    · intro _ second first rest heq
      cases heq
    · intro hmem
      cases hmem

theorem Converging.leave {client : Client} {name : String} {w : World}
    {pass : Option (Snapshot × List (Sigma Resp))} (h : Converging client name w pass) : Converging client name w none :=
  ⟨h.lost, h.present, h.applied, h.known, fun _ _ h => (nomatch h)⟩

theorem converging_keeps (ctx : Context) (client : Client) (name : String) :
    (system ctx).Keeps (rules ctx) (fun _ => []) Fresh (fun s a => OneNode client name s a ∧ EditsKeep client name s a)
      (fun _ _ => True) (Converging client name) where
  base w hw := by
    obtain ⟨sm, hsm, hstatus, -⟩ := hw.sm
    refine ⟨hw.lost, fun x hx => ?_, fun sm' hsm' => ?_, fun _ _ x hx => ?_, fun _ _ h => (nomatch h)⟩
    · rw [hw.ours] at hx
      cases hx
    · cases hsm.symm.trans hsm'
      rw [ScheduledMachine.appliedNodeTaints, hstatus]
      exact List.nodup_nil
    · rw [hw.ours] at hx
      cases hx
  interfere _ _ _ _ h _ hok := converging_interfere h hok.1 hok.2
  start w snap _ h hsnap hok := by
    obtain ⟨sm, hsm, rfl⟩ := Option.map_eq_some_iff.mp hsnap
    exact converging_start h hsm hok.1 hok.2
  answer _ _ _ _ _ _ _ h hallowed hok := by
    rw [rules_after] at hallowed
    exact converging_serve h hallowed hok.1
  finish _ _ _ h := h.leave
  kill _ _ _ h := ⟨h.lost, h.present, h.applied, h.known, fun _ _ h => (nomatch h)⟩

/-- In every such run, however writes fail in between, the taints converge. -/
theorem taints_converge {ctx : Context} {client : Client} {name : String} {s : RunState}
    (hs : (system ctx).Reach Fresh (fun s a => OneNode client name s a ∧ EditsKeep client name s a) s) :
    TaintsConverge client name s := by
  have h := System.Reach.invariant _ (system_conforms ctx) (fun _ _ => trivial) (converging_keeps ctx client name) hs
  refine ⟨h.lost, fun p hp hactive => ?_⟩
  have hpass := h.pass p.snap p.trace (by rw [hp]; rfl) hactive
  refine ⟨fun found hclean hread => hpass.conflicts_eq_nil hclean hread, ?_⟩
  rintro (hdone | ⟨hclean, ⟨hdesired, happlied⟩ | ⟨found, hread, hnoop⟩⟩)
  · exact (hpass.done hdone).exactly
  · exact (hpass.converged_of_nil hclean hdesired happlied).exactly
  · exact (hpass.converged_of_isNoop hclean h.present hread hnoop).exactly

/-! ## Two runs -/

def readyNode : Node := { demoNode with conditions := some [("Ready", "True")] }

def revaluedSpec : ScheduledMachineSpec := { demoSpec with nodeTaints := [⟨"reserved", some "late", .noExecute⟩] }

/-- The machine is active on a ready Node, and the spec asks for the reserved taint. -/
def activeReserved : List RunAct :=
  .start :: answers 13 ++ [.finish, .interfere (.replace (runningEnv readyNode) .all),
    .interfere (.editSpec reservedSpec), .start]

/-- The taint reaches the Node, the record of it does not reach the status, and the user changes its value. -/
def unrecordedTaint : List RunAct :=
  activeReserved ++ answers 12 ++ .answer (.fail serverFault) :: answers 2 ++
    [.finish, .interfere (.editSpec revaluedSpec), .start] ++ answers 11

def ownTaints (w : World) (client : Client) (name : String) (sm : ScheduledMachine) : Bool :=
  (w.taintsOn client name).all fun t => !sm.speaksOf t || (w.ours client name).contains t.content

theorem ownTaints_iff {w : World} {client : Client} {name : String} {sm : ScheduledMachine}
    (h : ownTaints w client name sm = true) : OwnTaints w client name sm := by
  intro t ht hspoken
  have hown := List.all_eq_true.mp h t ht
  simpa [hspoken] using hown

/-- Only `node-1` of the management cluster is read, and its taints with the key and effect of an entry are the
controller's. -/
def onNodeOne (s : RunState) : RunAct → Bool
  | .interfere _ => s.pass.isNone
  | .answer _ => (nextCall s).all fun ⟨_, client, call⟩ => match call with
    | .getNode n => client == .management && n == "node-1"
    | _ => true
  | .start => s.world.sm.all fun sm => ownTaints s.world .management "node-1" sm
  | _ => true

theorem oneNode_of_onNodeOne {s : RunState} {a : RunAct} (h : onNodeOne s a = true) :
    OneNode .management "node-1" s a where
  node fate p c n ha hp hnext hactive hmachine := by
    subst ha
    simp only [onNodeOne, hnext, Option.all_some, Bool.and_eq_true, beq_iff_eq] at h
    exact h
  before sm ha hsm hactive := by
    subst ha
    simp only [onNodeOne, hsm, Option.all_some] at h
    exact ownTaints_iff h
  meanwhile e p ha hp hactive := by
    subst ha
    simp [onNodeOne, hp] at h

/-- Nothing of the controller's on the Node is missing from the record. -/
def allRecorded (s : RunState) : RunAct → Bool
  | .interfere _ => s.pass.isNone
  | .start => s.world.sm.all fun sm => decide (DistinctEntries sm.spec.nodeTaints) &&
      (sm.spec.nodeTaints.all fun d => d.value != some "") &&
      (s.world.ours .management "node-1").all fun x => (sm.appliedNodeTaints.map NodeTaint.content).contains x
  | _ => true

theorem editsKeep_of_allRecorded {s : RunState} {a : RunAct} (h : allRecorded s a = true) :
    EditsKeep .management "node-1" s a where
  entries sm ha hsm hactive := by
    subst ha
    simp only [allRecorded, hsm, Option.all_some, Bool.and_eq_true, decide_eq_true_eq, List.all_eq_true, bne_iff_ne] at h
    exact h.1
  unrecorded sm ha hsm hactive hedited x hx hmissing := by
    subst ha
    simp only [allRecorded, hsm, Option.all_some, Bool.and_eq_true, List.all_eq_true, List.contains_iff_mem] at h
    exact absurd (h.2 x hx) hmissing
  window e p second first rest ha hp heq := by
    subst ha
    simp [allRecorded, hp] at h

/-- An active reconcile has written the Node. -/
def activeWrote (s : RunState) : Bool :=
  s.pass.any fun p => p.snap.sm.phase == some .active && (observed p.trace).any fun
    | .tainted .management "node-1" true => true
    | _ => false

theorem taints_converge_reserved : ∃ s : RunState, activeWrote s = true ∧ TaintsConverge .management "node-1" s := by
  obtain ⟨s, hs, hwrote⟩ := System.Reach.exists_of_runWith (system demoContext)
    (fun s a => onNodeOne s a && allRecorded s a) activeWrote (activeReserved ++ answers 12)
    demoWorld_fresh (by decide +kernel)
  refine ⟨s, hwrote, taints_converge (hs.mono _ fun s a hok => ?_)⟩
  obtain ⟨hone, hrecorded⟩ := Bool.and_eq_true_iff.mp hok
  exact ⟨oneNode_of_onNodeOne hone, editsKeep_of_allRecorded hrecorded⟩

def foundConflict (s : RunState) : Bool :=
  s.pass.any fun p => p.snap.sm.phase == some .active && match observed p.trace with
    | .node .management "node-1" (some found) :: older =>
      older.all (fun o => !o.isWrite) && !(taintPlan p.snap.sm found).conflicts.isEmpty &&
        older.any fun
          | .object key machine => key == ⟨Constants.capiGroup, Constants.capiResourceMachines,
              p.snap.sm.metadata.ns.getD "", p.snap.sm.metadata.name⟩ &&
                (extractMachineRefs machine).2.map (·.name) == some "node-1"
          | _ => false
    | _ => false

theorem not_converge_of_foundConflict {s : RunState} (h : foundConflict s = true) :
    ¬TaintsConverge .management "node-1" s := by
  intro hconverge
  obtain ⟨p, hp, h⟩ := (Option.any_eq_true _ _).mp h
  obtain ⟨hactive, h⟩ := Bool.and_eq_true_iff.mp h
  split at h
  case h_2 => cases h
  case h_1 found older heq =>
    simp only [Bool.and_eq_true, List.all_eq_true, Bool.not_eq_true'] at h
    obtain ⟨⟨hreads, hconflicts⟩, hmachine⟩ := h
    have hclean : Untouched (observed p.trace) := by
      rw [heq]
      intro o ho hwrite
      rcases List.mem_cons.mp ho with rfl | ho
      · cases hwrite
      · rw [hreads o ho] at hwrite
        cases hwrite
    have hread : NodeRead p.snap.sm .management "node-1" found (observed p.trace) := by
      refine ⟨[.node .management "node-1" (some found)], older, heq, ?_, List.mem_singleton_self _⟩
      obtain ⟨o, ho, hmachine⟩ := List.any_eq_true.mp hmachine
      split at hmachine
      · obtain ⟨hkey, hbound⟩ := Bool.and_eq_true_iff.mp hmachine
        rw [eq_of_beq hkey] at ho
        exact ⟨_, ho, eq_of_beq hbound⟩
      · cases hmachine
    have hnone := (hconverge.2 p hp (eq_of_beq hactive)).1 found hclean hread
    rw [hnone] at hconflicts
    cases hconflicts

/-- The controller's own taint counts as somebody else's once the record of it was lost. -/
theorem lost_record_conflicts : ¬∀ s : RunState,
    (system demoContext).Reach Fresh (OneNode .management "node-1") s → TaintsConverge .management "node-1" s := by
  intro hconverge
  obtain ⟨s, hs, hconflict⟩ := System.Reach.exists_of_runWith (system demoContext) onNodeOne foundConflict
    unrecordedTaint demoWorld_fresh (by decide +kernel)
  exact not_converge_of_foundConflict hconflict (hconverge s (hs.mono _ fun _ _ => oneNode_of_onNodeOne))

end FiveSpot
