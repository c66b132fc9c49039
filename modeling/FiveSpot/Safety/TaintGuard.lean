import FiveSpot.Safety.TaintWrites
import FiveSpot.Safety.Taints
import Mathlib.Data.List.Find

/-! # What reaches a Node from `spec.nodeTaints`

The reconcile validates other fields of the spec again for clusters without the admission policy. It does not
validate the taints, so what is written is as good as what is stored.
-/

namespace FiveSpot

set_option autoImplicit false

open Interaction

/-- No entry of the spec that would be rejected is in the list, and no key and effect is there twice. -/
structure ValidWrite (spec : List NodeTaint) (taints : List Taint) : Prop where
  accepted : ∀ t ∈ taints, ∀ d ∈ spec, t.content = d.content → d.Accepted
  distinct : DistinctTaints taints

def missing (current : List Taint) (d : NodeTaint) : Bool := (findCurrent current d.key d.effect).isNone

/-- The entry whose value takes the place of a taint, because the Node showed another value before. -/
def replacement (spec : List NodeTaint) (first : List Taint) (t : Taint) : Option NodeTaint :=
  spec.find? fun d => taintMatches t d && (findCurrent first d.key d.effect).any fun cur => cur.value != d.value

/-- Every entry that is written is fine: those that were missing, and those whose value a taint of the second read
keeps or gets. Those that were missing are different, and still missing at the second read. -/
structure CleanSpec (spec : List NodeTaint) (first second : List Taint) : Prop where
  added : ∀ d ∈ spec, missing first d = true → d.Accepted
  present : ∀ t ∈ second, ∀ d ∈ spec, taintMatches t d = true →
    ((replacement spec first t).map (·.value)).getD t.value = d.value → d.Accepted
  once : DistinctEntries (spec.filter (missing first))
  fresh : ∀ d ∈ spec, missing first d = true → ∀ t ∈ second, taintMatches t d = false

section

variable {current : List Taint} {desired applied : List NodeTaint} {t : Taint} {d : NodeTaint}

theorem classifyWant_eq_add : classifyWant current applied d = .add ↔ missing current d = true := by
  unfold classifyWant missing
  cases findCurrent current d.key d.effect with
  | none => simp
  | some cur =>
    dsimp only
    split
    · simp
    split
    · split <;> simp
    · simp

theorem toAdd_eq : (diffNodeTaints current desired applied).toAdd = desired.filter (missing current) := by
  rw [diffNodeTaints]
  apply List.filter_congr
  intro d _
  rw [Bool.eq_iff_iff, beq_iff_eq, classifyWant_eq_add]

theorem classifyWant_eq_update_iff (h : classifyWant current applied d ≠ .conflict) :
    classifyWant current applied d = .update ↔
      ((findCurrent current d.key d.effect).any fun cur => cur.value != d.value) = true := by
  unfold classifyWant at h ⊢
  generalize findCurrent current d.key d.effect = found at h ⊢
  cases found with
  | none => simp
  | some cur =>
    dsimp only at h ⊢
    by_cases hvalue : cur.value = d.value
    · simp [hvalue]
    · rw [if_neg hvalue] at h ⊢
      split at h
      · split at h
        · rename_i hp
          simp [hvalue, hp]
        · exact absurd rfl h
      · exact absurd rfl h

theorem find?_toUpdate (hconflicts : (diffNodeTaints current desired applied).conflicts = []) :
    (diffNodeTaints current desired applied).toUpdate.find? (taintMatches t) = replacement desired current t := by
  rw [diffNodeTaints, List.find?_filter, replacement]
  apply List.find?_congr
  intro d hd
  have hupdate := classifyWant_eq_update_iff ((no_conflict hconflicts).1 d hd)
  rw [Bool.eq_iff_iff, decide_eq_true_iff, beq_iff_eq, hupdate, Bool.and_eq_true, and_comm]

theorem content_settledTaint {plan : NodeTaintPlan} :
    (settledTaint plan t).content = d.content ↔
      taintMatches t d = true ∧ ((plan.toUpdate.find? (taintMatches t)).map (·.value)).getD t.value = d.value := by
  unfold settledTaint
  cases hu : plan.toUpdate.find? (taintMatches t) with
  | none =>
    constructor
    · intro hcontent
      obtain ⟨hmatches, hvalue⟩ := taintMatches_of_content hcontent.symm
      exact ⟨hmatches, hvalue.symm⟩
    · rintro ⟨hmatches, hvalue⟩
      exact (content_eq_of_taintMatches hmatches hvalue.symm).symm
  | some u =>
    -- the entry has the key and the effect of the taint that it replaces
    have htu := List.find?_some hu
    constructor
    · intro hcontent
      obtain ⟨hmatches, hvalue⟩ := taintMatches_of_content hcontent.symm
      obtain ⟨hkey, heffect⟩ := taintMatches_iff.mp hmatches
      refine ⟨?_, hvalue.symm⟩
      rw [← taintMatches_congr hkey (effectStr_inj heffect)]
      exact htu
    · rintro ⟨hmatches, hvalue⟩
      obtain ⟨hkey, heffect⟩ := same_of_taintMatches htu hmatches
      exact (content_eq_of_taintMatches (taintMatches_iff.mpr ⟨hkey, congrArg effectStr heffect⟩) hvalue.symm).symm

theorem content_taintOf {u : NodeTaint} : (taintOf u).content = d.content → u.key = d.key ∧ u.effect = d.effect := by
  intro hcontent
  obtain ⟨hmatches, -⟩ := taintMatches_of_content hcontent.symm
  obtain ⟨hkey, heffect⟩ := taintMatches_iff.mp hmatches
  exact ⟨hkey, effectStr_inj heffect⟩

/-- The entries that are written are those that were missing and those that a taint of the second read settles at. -/
theorem accepted_targetTaints_iff {first second : List Taint}
    (hconflicts : (diffNodeTaints first desired applied).conflicts = []) :
    (∀ t ∈ targetTaints second (diffNodeTaints first desired applied), ∀ d ∈ desired, t.content = d.content →
        d.Accepted) ↔
      (∀ d ∈ desired, missing first d = true → d.Accepted) ∧
        ∀ t ∈ second, ∀ d ∈ desired, taintMatches t d = true →
          ((replacement desired first t).map (·.value)).getD t.value = d.value → d.Accepted := by
  have hfind := fun t => @find?_toUpdate _ _ _ t hconflicts
  constructor
  · intro h
    constructor
    · intro d hd hmissing
      refine h (taintOf d) (taintOf_mem ?_) d hd rfl
      rw [toAdd_eq]
      exact List.mem_filter.mpr ⟨hd, hmissing⟩
    · intro t ht d hd hmatches hvalue
      have hkept := @not_removed_of_desired first _ applied _ _ hd hmatches
      rw [← hfind] at hvalue
      exact h _ (settledTaint_mem ht hkept) d hd (content_settledTaint.mpr ⟨hmatches, hvalue⟩)
  · rintro ⟨hadded, hpresent⟩ w hw d hd hcontent
    rcases mem_targetTaints_iff.mp hw with ⟨s, hs, -, rfl⟩ | ⟨u, hu, rfl⟩
    · obtain ⟨hmatches, hvalue⟩ := content_settledTaint.mp hcontent
      rw [hfind] at hvalue
      exact hpresent s hs d hd hmatches hvalue
    · obtain ⟨hkey, heffect⟩ := content_taintOf hcontent
      rw [toAdd_eq] at hu
      have hmissing := (List.mem_filter.mp hu).2
      apply hadded d hd
      rw [missing] at hmissing ⊢
      rwa [← hkey, ← heffect]

theorem validWrite_iff {first second : List Taint} (hsecond : DistinctTaints second)
    (hconflicts : (diffNodeTaints first desired applied).conflicts = []) :
    ValidWrite desired (targetTaints second (diffNodeTaints first desired applied)) ↔
      CleanSpec desired first second := by
  have haccepted := @accepted_targetTaints_iff desired applied first second hconflicts
  have hdistinct := @distinct_targetTaints_iff _ (diffNodeTaints first desired applied) hsecond
  rw [toAdd_eq] at hdistinct
  constructor
  · intro h
    obtain ⟨hadded, hpresent⟩ := haccepted.mp h.accepted
    obtain ⟨honce, hremoved⟩ := hdistinct.mp h.distinct
    refine ⟨hadded, hpresent, honce, ?_⟩
    intro d hd hmissing t ht
    cases hmatches : taintMatches t d with
    | false => rfl
    | true =>
      have hgone := hremoved d (List.mem_filter.mpr ⟨hd, hmissing⟩) t ht hmatches
      rw [not_removed_of_desired hd hmatches] at hgone
      cases hgone
  · intro h
    refine ⟨haccepted.mpr ⟨h.added, h.present⟩, hdistinct.mpr ⟨h.once, ?_⟩⟩
    intro d hd t ht hmatches
    obtain ⟨hd, hmissing⟩ := List.mem_filter.mp hd
    rw [h.fresh d hd hmissing t ht] at hmatches
    cases hmatches

end

/-- On a Node that does not change meanwhile, a spec without duplicates is clean when it is valid. -/
theorem cleanSpec_iff_valid {spec : List NodeTaint} {current : List Taint} (hspec : DistinctEntries spec)
    (hcurrent : DistinctTaints current) : CleanSpec spec current current ↔ validateNodeTaints spec = .ok () := by
  rw [validateNodeTaints_iff, and_iff_left hspec]
  constructor
  · intro h d hd
    cases hmissing : missing current d with
    | true => exact h.added d hd hmissing
    | false =>
      obtain ⟨t, hfound⟩ := Option.isSome_iff_exists.mp (by simpa [missing] using hmissing)
      obtain ⟨ht, hmatches⟩ := mem_of_findCurrent hfound
      apply h.present t ht d hd hmatches
      cases hreplaced : replacement spec current t with
      | some u =>
        have hu := List.find?_some hreplaced
        rw [Bool.and_eq_true] at hu
        rw [hspec.eq (List.mem_of_find?_eq_some hreplaced) hd hu.1 hmatches]
        rfl
      | none =>
        have hsame := List.find?_eq_none.mp hreplaced d hd
        simpa [hmatches, hfound] using hsame
  · intro h
    constructor
    · intro d hd _
      exact h d hd
    · intro t _ d hd _ _
      exact h d hd
    · exact List.Nodup.sublist (List.filter_sublist.map _) hspec
    · intro d hd hmissing t ht
      cases hmatches : taintMatches t d with
      | false => rfl
      | true =>
        rw [missing, findCurrent_eq hcurrent ht hmatches] at hmissing
        cases hmissing

/-- Every list of taints the reconcile is about to send was made up from two reads of the Node; it is valid exactly
when the spec is clean for them. -/
theorem taint_write_valid_iff {ctx : Context} {s : RunState} (hs : (system ctx).Reach Fresh (fun _ _ => True) s)
    {snap : Snapshot} {client : Client} {name ownership : String} {taints : List Taint}
    (hnext : nextCall s = some (snap, client, .applyNodeTaints name ownership taints)) :
    snap.sm.phase = some .active ∧ ∃ trace first second rest, System.seen s.pass = some (snap, trace) ∧
      observed trace = .node client name (some second) :: .node client name (some first) :: rest ∧
      (ValidWrite snap.sm.spec.nodeTaints taints ↔
        CleanSpec snap.sm.spec.nodeTaints first.taints second.taints) := by
  obtain ⟨trace, hseen, hlegal⟩ := legal_of_nextCall hs hnext
  cases hlegal _ rfl with
  | activeTaints path phase clean written =>
    obtain ⟨first, second, rest, htrace, -, hconflicts, rfl⟩ := written.planned
    exact ⟨phase, trace, first, second, rest, hseen, htrace, validWrite_iff second.distinct hconflicts⟩

/-- The call ahead sends these taints for this spec. -/
def sends (spec : List NodeTaint) (taints : List Taint) (s : RunState) : Bool :=
  match nextCall s with
  | some (snap, _, .applyNodeTaints _ _ sent) => snap.sm.spec.nodeTaints == spec && sent == taints
  | _ => false

theorem nextCall_of_sends {spec : List NodeTaint} {taints : List Taint} {s : RunState} (h : sends spec taints s = true) :
    ∃ snap client name ownership, nextCall s = some (snap, client, .applyNodeTaints name ownership taints) ∧
      snap.sm.spec.nodeTaints = spec := by
  unfold sends at h
  split at h
  · rename_i snap client name ownership sent hnext
    rw [Bool.and_eq_true, beq_iff_eq, beq_iff_eq] at h
    exact ⟨snap, client, name, ownership, h.2 ▸ hnext, h.1⟩
  · cases h

/-- Two reads of the demo Node for which the spec is clean. -/
theorem reserved_key_clean : ∃ first second, CleanSpec reservedSpec.nodeTaints first second := by
  obtain ⟨s, hs, hsends⟩ := System.Reach.exists_of_runWith (system demoContext) (fun _ _ => true)
    (sends reservedSpec.nodeTaints [adminTaint, ⟨"reserved", none, "NoExecute", none⟩])
    (taintedWith reservedSpec ++ answers 11) demoWorld_fresh (by decide +kernel)
  obtain ⟨snap, client, name, ownership, hnext, hspec⟩ := nextCall_of_sends hsends
  obtain ⟨-, trace, first, second, rest, -, -, hvalid⟩ :=
    taint_write_valid_iff (hs.mono _ fun _ _ _ => trivial) hnext
  rw [hspec] at hvalid
  refine ⟨first.taints, second.taints, hvalid.mp ⟨?_, by decide⟩⟩
  decide

/-- The spec was stored without the admission policy, with a prefix that is reserved for Kubernetes. -/
def unreachableSpec : ScheduledMachineSpec :=
  { demoSpec with nodeTaints := [⟨"node.kubernetes.io/unreachable", none, .noExecute⟩] }

theorem reserved_prefix_written : ¬ ∀ (ctx : Context) (s : RunState), (system ctx).Reach Fresh (fun _ _ => True) s →
    ∀ snap client name ownership taints, nextCall s = some (snap, client, .applyNodeTaints name ownership taints) →
      ValidWrite snap.sm.spec.nodeTaints taints := by
  intro hvalid
  obtain ⟨s, hs, hsends⟩ := System.Reach.exists_of_runWith (system demoContext) (fun _ _ => true)
    (sends unreachableSpec.nodeTaints [adminTaint, ⟨"node.kubernetes.io/unreachable", none, "NoExecute", none⟩])
    (taintedWith unreachableSpec ++ answers 11) demoWorld_fresh (by decide +kernel)
  obtain ⟨snap, client, name, ownership, hnext, hspec⟩ := nextCall_of_sends hsends
  have haccepted := (hvalid demoContext s (hs.mono _ fun _ _ _ => trivial) snap client name ownership _ hnext).accepted
  rw [hspec] at haccepted
  exact absurd (haccepted _ (List.mem_cons_of_mem _ List.mem_cons_self) _ List.mem_cons_self rfl) (by decide)

end FiveSpot
