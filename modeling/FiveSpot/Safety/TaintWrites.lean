import FiveSpot.Helpers.TaintValidation
import FiveSpot.Safety.TaintPlan

/-! # Taint writes

One call of the taint reconcile reads the Node twice: once for the plan and once for the list that the plan is
carried out on.
-/

namespace FiveSpot

set_option autoImplicit false

open Interaction

/-- What the next reads of the Node show, and the lists that were sent, newest first. -/
structure NodeReads where
  reads : List Node
  sent : List (List Taint)

inductive NodeServer (client : Client) (name : String) : NodeReads → (r : Req) → Resp r → NodeReads → Prop
  | get (node : Node) (reads : List Node) (sent : List (List Taint)) : NodeServer client name
      ⟨node :: reads, sent⟩ (.api client (.getNode name)) (.ok node) ⟨reads, sent⟩
  | patch (ownership : String) (taints : List Taint) (reads : List Node) (sent : List (List Taint)) :
      NodeServer client name ⟨reads, sent⟩ (.api client (.applyNodeTaints name ownership taints)) (.ok ())
        ⟨reads, taints :: sent⟩

/-- The call read the two Nodes, sent these lists and returned what it has applied. -/
def TaintRun (client : Client) (name : String) (desired previouslyApplied : List NodeTaint) (first second : Node)
    (sent : List (List Taint)) (applied : List NodeTaint) : Prop :=
  ∃ reads, (reconcileNodeTaints client name desired previouslyApplied).Runs (NodeServer client name)
    ⟨[first, second], []⟩ ⟨reads, sent⟩ (.ok (.applied applied))

def writtenTaints (current : List Taint) (plan : NodeTaintPlan) : List Taint :=
  if plan.isNoop then current else targetTaints current plan

section

variable {client : Client} {name : String} {desired previouslyApplied applied : List NodeTaint} {first second : Node}
  {sent : List (List Taint)}

theorem applyNodeTaints_runs {plan : NodeTaintPlan} {w : NodeReads} {x : Except ReconcilerError Unit}
    (h : (applyNodeTaints client name plan).Runs (NodeServer client name) ⟨[second], []⟩ w x) :
    w.sent = if plan.isNoop then [] else [targetTaints second.taints plan] := by
  unfold applyNodeTaints at h
  split at h
  · rename_i hnoop
    cases h
    rw [if_pos hnoop]
  · rename_i hplan
    cases h with
    | call hget hrest =>
      cases hget
      cases hrest with
      | call hpatch hrest =>
        cases hpatch
        cases hrest
        rw [if_neg hplan]

theorem TaintRun.planned (h : TaintRun client name desired previouslyApplied first second sent applied) :
    nodeReady first = true ∧ applied = desired ∧
      (diffNodeTaints first.taints desired previouslyApplied).conflicts = [] ∧
      sent = if (diffNodeTaints first.taints desired previouslyApplied).isNoop then []
        else [targetTaints second.taints (diffNodeTaints first.taints desired previouslyApplied)] := by
  obtain ⟨reads, h⟩ := h
  cases h with
  | call hget hrest =>
    cases hget
    simp only [Prog.pure_bind] at hrest
    split at hrest
    · cases hrest
    rename_i hready
    split at hrest
    · cases hrest
    rename_i hconflicts
    rcases Prog.Runs.of_bind hrest with ⟨e, -, hx⟩ | ⟨_, w, hwrite, hreturn⟩
    · cases hx
    · cases hreturn
      exact ⟨by simpa using hready, rfl, by simpa using hconflicts, applyNodeTaints_runs hwrite⟩

theorem taintRun_of_conflicts (hready : nodeReady first = true)
    (hconflicts : (diffNodeTaints first.taints desired previouslyApplied).conflicts = []) :
    TaintRun client name desired previouslyApplied first second
      (if (diffNodeTaints first.taints desired previouslyApplied).isNoop then []
        else [targetTaints second.taints (diffNodeTaints first.taints desired previouslyApplied)]) desired := by
  generalize hplan : diffNodeTaints first.taints desired previouslyApplied = plan at hconflicts ⊢
  cases hnoop : plan.isNoop with
  | true =>
    refine ⟨[second], ?_⟩
    apply Prog.Runs.call (.get first [second] [])
    simp only [Prog.pure_bind, Prog.bind_def, hready, hplan, hconflicts, List.isEmpty_nil, Bool.not_true,
      Bool.false_eq_true, if_false]
    rw [applyNodeTaints, if_pos hnoop]
    exact .pure _
  | false =>
    refine ⟨[], ?_⟩
    apply Prog.Runs.call (.get first [second] [])
    simp only [Prog.pure_bind, Prog.bind_def, hready, hplan, hconflicts, List.isEmpty_nil, Bool.not_true,
      Bool.false_eq_true, if_false]
    rw [applyNodeTaints, if_neg (by simp [hnoop])]
    exact .call (.get second [] []) (.call (.patch _ _ [] []) (.pure _))

end

def nodeWith (taints : List Taint) (distinct : DistinctTaints taints) (stored : ∀ t ∈ taints, t.isStored = true) :
    Node := ⟨[], none, false, taints, some [("Ready", "True")], distinct, stored⟩

/-! ## The list that is written -/

/-- The list has what is desired, nothing that is recorded and no longer desired, and all the rest as it was. -/
structure PlannedTaints (current : List Taint) (desired applied : List NodeTaint) (written : List Taint) : Prop where
  distinct : DistinctTaints written
  asked : ∀ d ∈ desired, ∃ t ∈ written, taintMatches t d = true ∧ t.value = d.value
  stale : ∀ t ∈ written, ∀ p ∈ applied, taintMatches t p = true → ∃ d ∈ desired, d.key = p.key ∧ d.effect = p.effect
  others : (current.filter fun t => desired.any (fun d => taintMatches t d && d.value == t.value) ||
    !spokenOf (desired ++ applied) t).Sublist written

section

variable {current : List Taint} {desired applied : List NodeTaint} {plan : NodeTaintPlan} {t : Taint} {d p : NodeTaint}

theorem distinct_targetTaints_iff (hcurrent : DistinctTaints current) : DistinctTaints (targetTaints current plan) ↔
    DistinctEntries plan.toAdd ∧ ∀ d ∈ plan.toAdd, ∀ t ∈ current, taintMatches t d = true →
      plan.toRemove.any (taintMatches t) = true := by
  have hmap : (targetTaints current plan).map (fun t => (t.key, t.effect)) =
      ((current.filter fun t => !plan.toRemove.any (taintMatches t)).map fun t => (t.key, t.effect)) ++
        plan.toAdd.map fun n => (n.key, effectStr n.effect) := by
    rw [targetTaints, List.map_append, List.map_map, List.map_map]
    congr 1
    apply List.map_congr_left
    intro t _
    rw [Function.comp_apply]
    split
    · rename_i u hu
      obtain ⟨hkey, heffect⟩ := taintMatches_iff.mp (List.find?_some hu)
      rw [taintOf, hkey, heffect]
    · rfl
  have hadd : (plan.toAdd.map fun n => (n.key, effectStr n.effect)).Nodup ↔ DistinctEntries plan.toAdd := by
    rw [DistinctEntries, ← List.nodup_map_iff (f := fun x : String × TaintEffect => (x.1, effectStr x.2)), List.map_map]
    · rfl
    · intro a b hab
      exact Prod.ext (Prod.mk.inj hab).1 (effectStr_inj (Prod.mk.inj hab).2)
  have hkept : ((current.filter fun t => !plan.toRemove.any (taintMatches t)).map fun t => (t.key, t.effect)).Nodup :=
    List.Nodup.sublist (List.filter_sublist.map _) hcurrent
  rw [DistinctTaints, hmap, List.nodup_append, hadd, and_iff_right hkept]
  apply and_congr_right
  intro _
  constructor
  · intro h d hd t ht hmatches
    by_contra hremoved
    obtain ⟨hkey, heffect⟩ := taintMatches_iff.mp hmatches
    apply h (t.key, t.effect) (List.mem_map_of_mem (List.mem_filter.mpr ⟨ht, by simpa using hremoved⟩))
      (d.key, effectStr d.effect) (List.mem_map_of_mem hd)
    rw [hkey, heffect]
  · intro h a ha b hb hab
    obtain ⟨t, ht, rfl⟩ := List.mem_map.mp ha
    obtain ⟨d, hd, rfl⟩ := List.mem_map.mp hb
    obtain ⟨ht, hkeep⟩ := List.mem_filter.mp ht
    have hremoved := h d hd t ht (taintMatches_iff.mpr ⟨(Prod.mk.inj hab).1, (Prod.mk.inj hab).2⟩)
    rw [hremoved] at hkeep
    cases hkeep

theorem distinct_targetTaints (hcurrent : DistinctTaints current) (hdesired : DistinctEntries desired) :
    DistinctTaints (targetTaints current (diffNodeTaints current desired applied)) := by
  apply (distinct_targetTaints_iff hcurrent).mpr
  constructor
  · exact List.Nodup.sublist (List.filter_sublist.map _) hdesired
  · intro d hd t ht htd
    simp only [diffNodeTaints, List.mem_filter, beq_iff_eq] at hd
    have hadd := hd.2
    rw [classifyWant_of_mem hcurrent ht htd] at hadd
    split at hadd
    · cases hadd
    split at hadd
    · split at hadd <;> cases hadd
    · cases hadd

theorem writtenTaints_eq : writtenTaints current plan = targetTaints current plan := by
  unfold writtenTaints
  split
  · rename_i hnoop
    exact (targetTaints_of_isNoop hnoop).symm
  · rfl

theorem no_conflict (h : (diffNodeTaints current desired applied).conflicts = []) :
    (∀ d ∈ desired, classifyWant current applied d ≠ .conflict) ∧
      ∀ p ∈ applied, classifyStale current desired p ≠ .conflict := by
  simp only [diffNodeTaints, List.append_eq_nil_iff, List.filter_eq_nil_iff, beq_iff_eq] at h
  exact h

theorem settled_of_no_conflict (hcurrent : DistinctTaints current) (hdesired : DistinctEntries desired)
    (happlied : DistinctEntries applied) (hconflicts : (diffNodeTaints current desired applied).conflicts = []) :
    Settled current desired applied ((desired ++ applied).map NodeTaint.content) := by
  obtain ⟨hwant, hstale⟩ := no_conflict hconflicts
  have hof : ∀ t n, n ∈ desired ++ applied → taintMatches t n = true → n.value = t.value →
      t.content ∈ (desired ++ applied).map NodeTaint.content := by
    intro t n hn hmatches hvalue
    rw [← content_eq_of_taintMatches hmatches hvalue]
    exact List.mem_map_of_mem hn
  have hclaims : ∀ t ∈ current, ∀ d ∈ desired, taintMatches t d = true →
      t.content ∈ (desired ++ applied).map NodeTaint.content := by
    intro t ht d hd htd
    by_cases hvalue : t.value = d.value
    · exact hof t d (List.mem_append_left _ hd) htd hvalue.symm
    · obtain ⟨cur, p, hcur, -, hp, howned⟩ :=
        classifyWant_eq_update (classifyWant_eq_update_of_ne hcurrent ht htd hvalue (hwant d hd))
      rw [findCurrent_eq hcurrent ht htd, Option.some.injEq] at hcur
      subst hcur
      obtain ⟨hp, hkey, heffect⟩ := mem_of_findApplied hp
      have htp : taintMatches t p = true := by rw [taintMatches_congr hkey heffect, htd]
      exact hof t p (List.mem_append_right _ hp) htp howned
  constructor
  · exact hcurrent
  · exact hdesired
  · exact happlied
  · intro t ht n hn hmatches
    by_cases hasked : ∃ d ∈ desired, taintMatches t d = true
    · obtain ⟨d, hd, htd⟩ := hasked
      exact hclaims t ht d hd htd
    · have hnone : ∀ d ∈ desired, taintMatches t d = false := by
        intro d hd
        exact Bool.eq_false_iff.mpr fun htd => hasked ⟨d, hd, htd⟩
      rcases List.mem_append.mp hn with hn | hn
      · exact hclaims t ht n hn hmatches
      · have hconflict := hstale n hn
        rw [classifyStale_of_mem hcurrent ht hmatches hnone] at hconflict
        by_cases hvalue : t.value = n.value
        · exact hof t n (List.mem_append_right _ hn) hmatches hvalue.symm
        · rw [if_neg hvalue] at hconflict
          exact absurd rfl hconflict
  · intro x hx
    rw [List.map_append, List.mem_append] at hx
    exact hx.symm

theorem filter_sublist_targetTaints {other : Taint → Bool} (hkept : ∀ t ∈ current, other t = true →
    plan.toRemove.any (taintMatches t) = false ∧ plan.toUpdate.find? (taintMatches t) = none) :
    (current.filter other).Sublist (targetTaints current plan) := by
  have hfilter : current.filter other =
      (current.filter fun t => !plan.toRemove.any (taintMatches t)).filter other := by
    rw [List.filter_filter]
    apply List.filter_congr
    intro t ht
    cases hother : other t with
    | false => rfl
    | true => rw [(hkept t ht hother).1, Bool.not_false, Bool.and_true]
  have hsame : (current.filter other).map (settledTaint plan) = current.filter other := by
    conv_rhs => rw [← List.map_id (current.filter other)]
    apply List.map_congr_left
    intro t ht
    obtain ⟨ht, hother⟩ := List.mem_filter.mp ht
    rw [settledTaint_of_none (hkept t ht hother).2, id]
  rw [← hsame, hfilter]
  exact (List.filter_sublist.map _).trans (List.sublist_append_left _ _)

theorem others_sublist_targetTaints (hcurrent : DistinctTaints current) (hdesired : DistinctEntries desired) :
    (current.filter fun t => desired.any (fun d => taintMatches t d && d.value == t.value) ||
      !spokenOf (desired ++ applied) t).Sublist (targetTaints current (diffNodeTaints current desired applied)) := by
  have hkept : ∀ t ∈ current, (desired.any (fun d => taintMatches t d && d.value == t.value) ||
      !spokenOf (desired ++ applied) t) = true →
      (diffNodeTaints current desired applied).toRemove.any (taintMatches t) = false ∧
        (diffNodeTaints current desired applied).toUpdate.find? (taintMatches t) = none := by
    intro t ht hother
    rw [Bool.or_eq_true] at hother
    rcases hother with hasked | hunspoken
    · obtain ⟨d, hd, hdt⟩ := List.any_eq_true.mp hasked
      rw [Bool.and_eq_true, beq_iff_eq] at hdt
      constructor
      · exact not_removed_of_desired hd hdt.1
      · rw [List.find?_eq_none]
        intro u hu htu
        simp only [diffNodeTaints, List.mem_filter, beq_iff_eq] at hu
        obtain ⟨cur, p, hcur, hvalue, -⟩ := classifyWant_eq_update hu.2
        rw [findCurrent_eq hcurrent ht htu, Option.some.injEq] at hcur
        rw [← hcur, hdesired.eq hu.1 hd htu hdt.1] at hvalue
        exact hvalue hdt.2.symm
    · rw [Bool.not_eq_true', spokenOf, List.any_eq_false] at hunspoken
      constructor
      · rw [List.any_eq_false]
        intro r hr
        simp only [diffNodeTaints, List.mem_filter] at hr
        exact hunspoken r (List.mem_append_right _ hr.1)
      · rw [List.find?_eq_none]
        intro u hu
        simp only [diffNodeTaints, List.mem_filter] at hu
        exact hunspoken u (List.mem_append_left _ hu.1)
  exact filter_sublist_targetTaints hkept

theorem plannedTaints (hcurrent : DistinctTaints current) (hdesired : DistinctEntries desired)
    (happlied : DistinctEntries applied) (hconflicts : (diffNodeTaints current desired applied).conflicts = []) :
    PlannedTaints current desired applied (writtenTaints current (diffNodeTaints current desired applied)) := by
  have hsettled := settled_of_no_conflict hcurrent hdesired happlied hconflicts
  rw [writtenTaints_eq]
  constructor
  · exact distinct_targetTaints hcurrent hdesired
  · intro d hd
    obtain ⟨t, ht, hcontent⟩ := List.mem_map.mp (hsettled.desired_mem_target hd)
    obtain ⟨hmatches, hvalue⟩ := taintMatches_of_content hcontent.symm
    exact ⟨t, ht, hmatches, hvalue.symm⟩
  · intro t ht p hp htp
    rcases hsettled.target_cases ht with hasked | ⟨hmem, hforeign⟩
    · obtain ⟨d, hd, hcontent⟩ := List.mem_map.mp hasked
      exact ⟨d, hd, same_of_taintMatches (taintMatches_of_content hcontent).1 htp⟩
    · exact absurd (hsettled.claims t hmem p (List.mem_append_right _ hp) htp) hforeign
  · exact others_sublist_targetTaints hcurrent hdesired

end

/-- Whatever is on the Node, desired and on record: the plan puts the Node right, and a call in which the Node
does not change sends just that list, or nothing if the Node is right as it is. -/
theorem taints_written_as_planned (current : List Taint) (desired previouslyApplied : List NodeTaint)
    (hcurrent : DistinctTaints current) (hdesired : DistinctEntries desired)
    (happlied : DistinctEntries previouslyApplied)
    (hconflicts : (diffNodeTaints current desired previouslyApplied).conflicts = []) :
    PlannedTaints current desired previouslyApplied
        (writtenTaints current (diffNodeTaints current desired previouslyApplied)) ∧
      ∀ client name first second sent applied, first.taints = current → second.taints = current →
        TaintRun client name desired previouslyApplied first second sent applied →
        sent.head?.getD current = writtenTaints current (diffNodeTaints current desired previouslyApplied) := by
  constructor
  · exact plannedTaints hcurrent hdesired happlied hconflicts
  · rintro client name first second sent applied rfl hsame hrun
    obtain ⟨-, -, -, rfl⟩ := hrun.planned
    rw [hsame, writtenTaints]
    split <;> rfl

/-- One taint changes its value, one is added, one is removed, and one has an effect the controller does not know. -/
theorem mixed_taints_planned :
    let current : List Taint := [⟨"dedicated", some "batch", "NoSchedule", none⟩, ⟨"quota", none, "Throttle", none⟩,
      ⟨"old", none, "NoExecute", none⟩]
    let desired : List NodeTaint := [⟨"dedicated", some "spot", .noSchedule⟩, ⟨"reclaim", none, .noExecute⟩]
    let applied : List NodeTaint := [⟨"dedicated", some "batch", .noSchedule⟩, ⟨"old", none, .noExecute⟩]
    PlannedTaints current desired applied (writtenTaints current (diffNodeTaints current desired applied)) := by
  intro current desired applied
  exact (taints_written_as_planned current desired applied (by decide) (by decide) (by decide) (by decide)).1

/-! ## A second call -/

/-- The taints after the call, as the API server keeps them. -/
def storedAfter (current : List Taint) : List (List Taint) → List Taint
  | [] => current
  | taints :: _ => taints.map Taint.stored

/-- There is nothing to write and nothing to report. -/
def NodeTaintPlan.Quiet (plan : NodeTaintPlan) : Prop := plan.isNoop = true ∧ plan.conflicts = []

section

variable {client : Client} {name : String} {desired previouslyApplied applied : List NodeTaint} {node : Node}
  {sent : List (List Taint)} {current : List Taint} {d : NodeTaint}

theorem map_stored_taints (node : Node) : node.taints.map Taint.stored = node.taints := by
  conv_rhs => rw [← List.map_id node.taints]
  apply List.map_congr_left
  intro t ht
  exact Taint.stored_eq (node.stored t ht)

theorem TaintRun.storedAfter_eq (h : TaintRun client name desired previouslyApplied node node sent applied) :
    storedAfter node.taints sent =
      (targetTaints node.taints (diffNodeTaints node.taints desired previouslyApplied)).map Taint.stored := by
  obtain ⟨-, -, -, rfl⟩ := h.planned
  split
  · rename_i hnoop
    rw [targetTaints_of_isNoop hnoop, map_stored_taints]
    rfl
  · rfl

/-- A list that was just applied is found as it is, except for an empty value. -/
theorem classifyWant_again (hcurrent : DistinctTaints current) (hdesired : DistinctEntries desired) (hd : d ∈ desired)
    {t : Taint} (ht : t ∈ current) (hcontent : t.content = d.content) :
    classifyWant (current.map Taint.stored) desired d = if d.value = some "" then .conflict else .unchanged := by
  obtain ⟨hmatches, hvalue⟩ := taintMatches_of_content hcontent.symm
  have hstored : taintMatches t.stored d = true := hmatches
  rw [classifyWant_of_mem hcurrent.stored (List.mem_map_of_mem ht) hstored, findApplied_eq hdesired hd hmatches hmatches]
  have hfilter : t.stored.value = d.value.filter fun value => value != "" := by
    rw [hvalue]
    rfl
  rw [hfilter]
  cases hv : d.value with
  | none => rfl
  | some v => by_cases hempty : v = "" <;> simp [Option.filter, hv, hempty]

theorem quiet_again_iff (hcurrent : DistinctTaints current) (hdesired : DistinctEntries desired)
    (hthere : ∀ d ∈ desired, d.content ∈ current.map Taint.content) :
    (diffNodeTaints (current.map Taint.stored) desired desired).Quiet ↔ ∀ d ∈ desired, d.value ≠ some "" := by
  have hwant : ∀ d ∈ desired, classifyWant (current.map Taint.stored) desired d =
      if d.value = some "" then .conflict else .unchanged := by
    intro d hd
    obtain ⟨t, ht, hcontent⟩ := List.mem_map.mp (hthere d hd)
    exact classifyWant_again hcurrent hdesired hd ht hcontent
  have hstale : ∀ p ∈ desired, classifyStale (current.map Taint.stored) desired p = .keep := by
    intro p hp
    exact if_pos (List.any_eq_true.mpr ⟨p, hp, by simp⟩)
  constructor
  · rintro ⟨-, hconflicts⟩ d hd hempty
    apply (no_conflict hconflicts).1 d hd
    rw [hwant d hd, if_pos hempty]
  · intro hvalues
    have hunchanged : ∀ d ∈ desired, classifyWant (current.map Taint.stored) desired d = .unchanged := by
      intro d hd
      rw [hwant d hd, if_neg (hvalues d hd)]
    constructor
    · simp +contextual [NodeTaintPlan.isNoop, diffNodeTaints, hunchanged, hstale]
    · simp +contextual [diffNodeTaints, hunchanged, hstale]

end

/-- A value that is the empty string does not come back from the API server, and is then taken for somebody
else's change. -/
theorem taint_reconcile_idempotent_iff {client : Client} {name : String}
    {desired previouslyApplied applied : List NodeTaint} {node : Node} {sent : List (List Taint)}
    (hvalid : validateNodeTaints desired = .ok ())
    (hrun : TaintRun client name desired previouslyApplied node node sent applied) :
    (diffNodeTaints (storedAfter node.taints sent) desired applied).Quiet ↔
      ∀ d ∈ desired, d.value ≠ some "" := by
  obtain ⟨-, hdesired⟩ := validateNodeTaints_iff.mp hvalid
  obtain ⟨-, rfl, hconflicts, -⟩ := hrun.planned
  rw [hrun.storedAfter_eq]
  apply quiet_again_iff (distinct_targetTaints node.distinct hdesired) hdesired
  intro d hd
  exact content_mem_targetTaints node.distinct hdesired hd ((no_conflict hconflicts).1 d hd)

/-- A taint with a value is found again. -/
theorem spot_taint_idempotent :
    (diffNodeTaints (storedAfter [] [[⟨"dedicated", some "spot", "NoSchedule", none⟩]])
      [⟨"dedicated", some "spot", .noSchedule⟩] [⟨"dedicated", some "spot", .noSchedule⟩]).Quiet := by
  have hrun : TaintRun .management "node-1" [⟨"dedicated", some "spot", .noSchedule⟩] []
      (nodeWith [] distinctTaints_nil isStored_nil) (nodeWith [] distinctTaints_nil isStored_nil)
      [[⟨"dedicated", some "spot", "NoSchedule", none⟩]] [⟨"dedicated", some "spot", .noSchedule⟩] :=
    taintRun_of_conflicts (by decide) (by decide)
  exact (taint_reconcile_idempotent_iff (by decide) hrun).mpr (by decide)

/-- With an empty value the second run reports a conflict. -/
theorem empty_value_conflicts : ¬ ∀ (client : Client) (name : String) (desired previouslyApplied applied : List NodeTaint)
    (node : Node) (sent : List (List Taint)), validateNodeTaints desired = .ok () →
    TaintRun client name desired previouslyApplied node node sent applied →
    (diffNodeTaints (storedAfter node.taints sent) desired applied).Quiet := by
  intro h
  have hquiet := h .management "node-1" [⟨"dedicated", some "", .noSchedule⟩] [] _
    (nodeWith [] distinctTaints_nil isStored_nil) _ (by decide) (taintRun_of_conflicts (by decide) (by decide))
  exact absurd hquiet.2 (by decide)

/-! ## Edits of others during a call -/

/-- The Node at the two reads and right before the write, with key and effect of what somebody else has added
or changed since the first read. -/
structure TaintRace where
  first : Node
  second : Node
  third : Node
  theirs : List (String × String)
  edited : ∀ t ∈ third.taints, (t.key, t.effect) ∉ theirs →
    t.content ∈ first.taints.map Taint.content ∧ t.content ∈ second.taints.map Taint.content

/-- The list that replaces the taints is a list for a Node, and keeps what somebody else has written. -/
structure RaceSafe (race : TaintRace) (sent : List Taint) : Prop where
  distinct : DistinctTaints sent
  kept : ∀ t ∈ race.third.taints, (t.key, t.effect) ∈ race.theirs → t.content ∈ sent.map fun s => s.stored.content

/-- Why a taint is in what is written: it was there at the second read and the plan leaves it alone, or the plan
writes just its value. -/
inductive Survives (plan : NodeTaintPlan) (second : List Taint) (t : Taint) : Prop
  | leftAlone (there : t.content ∈ second.map Taint.content)
      (alone : ∀ n ∈ plan.toRemove ++ plan.toUpdate, taintMatches t n = false)
  | updated (u : NodeTaint) (there : ∃ s ∈ second, s.key = t.key ∧ s.effect = t.effect)
      (kept : plan.toRemove.any (taintMatches t) = false) (found : plan.toUpdate.find? (taintMatches t) = some u)
      (value : (taintOf u).stored.value = t.value)
  | added (d : NodeTaint) (mem : d ∈ plan.toAdd) (same : taintMatches t d = true)
      (value : (taintOf d).stored.value = t.value)

section

variable {plan : NodeTaintPlan} {second : Node} {t : Taint}

theorem taintMatches_same {s : Taint} (hkey : s.key = t.key) (heffect : s.effect = t.effect) :
    taintMatches s = taintMatches t := by
  funext n
  rw [taintMatches, taintMatches, hkey, heffect]

theorem stored_content_eq {n : NodeTaint} : (taintOf n).stored.content = t.content ↔
    taintMatches t n = true ∧ (taintOf n).stored.value = t.value := by
  rw [taintMatches_iff]
  simp only [Taint.content, Taint.stored, taintOf, Prod.mk.injEq]
  constructor
  · rintro ⟨hkey, hvalue, heffect⟩
    exact ⟨⟨hkey.symm, heffect.symm⟩, hvalue⟩
  · rintro ⟨⟨hkey, heffect⟩, hvalue⟩
    exact ⟨hkey.symm, hvalue, heffect.symm⟩

theorem mem_written_iff : t.content ∈ (targetTaints second.taints plan).map (fun s => s.stored.content) ↔
    Survives plan second.taints t := by
  constructor
  · intro h
    obtain ⟨written, hwritten, hcontent⟩ := List.mem_map.mp h
    rcases mem_targetTaints_iff.mp hwritten with ⟨s, hs, hkeep, rfl⟩ | ⟨d, hd, rfl⟩
    · cases hu : plan.toUpdate.find? (taintMatches s) with
      | none =>
        rw [settledTaint_of_none hu, Taint.stored_eq (second.stored s hs)] at hcontent
        have hsame : taintMatches s = taintMatches t := by
          simp only [Taint.content, Prod.mk.injEq] at hcontent
          exact taintMatches_same hcontent.1 hcontent.2.2
        apply Survives.leftAlone (List.mem_map.mpr ⟨s, hs, hcontent⟩)
        rw [← hsame]
        intro n hn
        rcases List.mem_append.mp hn with hn | hn
        · exact Bool.eq_false_iff.mpr (List.any_eq_false.mp hkeep n hn)
        · exact Bool.eq_false_iff.mpr (List.find?_eq_none.mp hu n hn)
      | some u =>
        rw [settledTaint_of_some hu] at hcontent
        obtain ⟨hmatches, hvalue⟩ := stored_content_eq.mp hcontent
        obtain ⟨htkey, hteffect⟩ := taintMatches_iff.mp hmatches
        obtain ⟨hskey, hseffect⟩ := taintMatches_iff.mp (List.find?_some hu)
        have hsame : taintMatches s = taintMatches t :=
          taintMatches_same (hskey.trans htkey.symm) (hseffect.trans hteffect.symm)
        rw [hsame] at hkeep hu
        exact .updated u ⟨s, hs, hskey.trans htkey.symm, hseffect.trans hteffect.symm⟩ hkeep hu hvalue
    · obtain ⟨hmatches, hvalue⟩ := stored_content_eq.mp hcontent
      exact .added d hd hmatches hvalue
  · rintro (⟨hthere, halone⟩ | ⟨u, ⟨s, hs, hkey, heffect⟩, hkept, hfound, hvalue⟩ | ⟨d, hd, hmatches, hvalue⟩)
    · obtain ⟨s, hs, hcontent⟩ := List.mem_map.mp hthere
      have hsame : taintMatches s = taintMatches t := by
        simp only [Taint.content, Prod.mk.injEq] at hcontent
        exact taintMatches_same hcontent.1 hcontent.2.2
      rw [← hsame] at halone
      have hkept : plan.toRemove.any (taintMatches s) = false := by
        rw [List.any_eq_false]
        intro r hr
        exact Bool.eq_false_iff.mp (halone r (List.mem_append_left _ hr))
      have hfound : plan.toUpdate.find? (taintMatches s) = none := by
        rw [List.find?_eq_none]
        intro u hu
        exact Bool.eq_false_iff.mp (halone u (List.mem_append_right _ hu))
      refine List.mem_map.mpr ⟨settledTaint plan s, settledTaint_mem hs hkept, ?_⟩
      rw [settledTaint_of_none hfound, Taint.stored_eq (second.stored s hs), hcontent]
    · have hsame := taintMatches_same hkey heffect
      have hmatches := List.find?_some hfound
      rw [← hsame] at hkept hfound
      refine List.mem_map.mpr ⟨settledTaint plan s, settledTaint_mem hs hkept, ?_⟩
      rw [settledTaint_of_some hfound]
      exact stored_content_eq.mpr ⟨hmatches, hvalue⟩
    · exact List.mem_map.mpr ⟨taintOf d, taintOf_mem hd, stored_content_eq.mpr ⟨hmatches, hvalue⟩⟩

end

/-- Nobody has taken a key and effect that the plan adds, and what somebody else has written survives. -/
structure RaceHarmless (plan : NodeTaintPlan) (race : TaintRace) : Prop where
  added : DistinctEntries plan.toAdd ∧ ∀ d ∈ plan.toAdd, ∀ t ∈ race.second.taints, taintMatches t d = false
  theirs : ∀ t ∈ race.third.taints, (t.key, t.effect) ∈ race.theirs → Survives plan race.second.taints t

/-- A taint that is written between the second read and the write survives only by chance, and so does one that
is written before and that the plan for the first read removes or updates. -/
theorem taint_race_safe_iff {client : Client} {name : String} {desired previouslyApplied applied : List NodeTaint}
    {race : TaintRace} {sent : List Taint}
    (hrun : TaintRun client name desired previouslyApplied race.first race.second [sent] applied) :
    RaceSafe race sent ↔ RaceHarmless (diffNodeTaints race.first.taints desired previouslyApplied) race := by
  obtain ⟨-, -, -, hsent⟩ := hrun.planned
  split at hsent
  · cases hsent
  cases hsent
  have hdistinct := @distinct_targetTaints_iff _ (diffNodeTaints race.first.taints desired previouslyApplied)
    race.second.distinct
  constructor
  · intro h
    obtain ⟨hadd, hnone⟩ := hdistinct.mp h.distinct
    constructor
    · refine ⟨hadd, ?_⟩
      intro d hd t ht
      cases htd : taintMatches t d with
      | false => rfl
      | true =>
        have hremoved := hnone d hd t ht htd
        rw [not_removed_of_desired (List.mem_filter.mp hd).1 htd] at hremoved
        cases hremoved
    · intro t ht htheirs
      exact mem_written_iff.mp (h.kept t ht htheirs)
  · intro h
    constructor
    · apply hdistinct.mpr
      refine ⟨h.added.1, ?_⟩
      intro d hd t ht htd
      rw [h.added.2 d hd t ht] at htd
      cases htd
    · intro t ht htheirs
      exact mem_written_iff.mpr (h.theirs t ht htheirs)

/-- Nobody else writes while the taint is put on the Node. -/
def quietRace : TaintRace where
  first := nodeWith [] distinctTaints_nil isStored_nil
  second := nodeWith [] distinctTaints_nil isStored_nil
  third := nodeWith [] distinctTaints_nil isStored_nil
  theirs := []
  edited := by decide

/-- An administrator taints the Node between the second read and the write. -/
def lateEdit : TaintRace where
  first := nodeWith [] distinctTaints_nil isStored_nil
  second := nodeWith [] distinctTaints_nil isStored_nil
  third := nodeWith [⟨"maintenance", none, "NoExecute", none⟩] (by decide) (by decide)
  theirs := [("maintenance", "NoExecute")]
  edited := by decide

theorem quiet_race_safe : RaceSafe quietRace [⟨"dedicated", some "spot", "NoSchedule", none⟩] := by
  have hrun : TaintRun .management "node-1" [⟨"dedicated", some "spot", .noSchedule⟩] [] quietRace.first
      quietRace.second [[⟨"dedicated", some "spot", "NoSchedule", none⟩]] [⟨"dedicated", some "spot", .noSchedule⟩] :=
    taintRun_of_conflicts (by decide) (by decide)
  apply (taint_race_safe_iff hrun).mpr
  constructor
  · decide
  · intro t ht
    cases ht

theorem late_edit_lost : ¬ ∀ (client : Client) (name : String) (desired previouslyApplied applied : List NodeTaint)
    (race : TaintRace) (sent : List Taint),
    TaintRun client name desired previouslyApplied race.first race.second [sent] applied → RaceSafe race sent := by
  intro h
  have hsafe := h .management "node-1" [⟨"dedicated", some "spot", .noSchedule⟩] [] _ lateEdit _
    (taintRun_of_conflicts (by decide) (by decide))
  exact absurd (hsafe.kept _ List.mem_cons_self (by decide)) (by decide)

end FiveSpot
