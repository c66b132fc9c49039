import Mathlib.Data.List.Nodup
import FiveSpot.Helpers.Taints

/-! # Plans of the taint reconcile

What a plan does to one taint of the Node it was computed for. Key and effect are unique on a Node, so
each desired or recorded entry speaks about at most one of its taints.
-/

namespace FiveSpot

set_option autoImplicit false

theorem effectFromStr_eq_some {s : String} {effect : TaintEffect} :
    effectFromStr s = some effect ↔ s = effectStr effect := by
  constructor
  · intro h
    unfold effectFromStr at h
    split at h
    · cases h; assumption
    split at h
    · cases h; assumption
    split at h
    · cases h; assumption
    · cases h
  · rintro rfl
    cases effect <;> decide

theorem effectStr_inj {a b : TaintEffect} (h : effectStr a = effectStr b) : a = b := by
  have ha : effectFromStr (effectStr a) = some a := effectFromStr_eq_some.mpr rfl
  rw [h, effectFromStr_eq_some.mpr rfl] at ha
  exact (Option.some.inj ha).symm

theorem taintMatches_iff {t : Taint} {n : NodeTaint} :
    taintMatches t n = true ↔ t.key = n.key ∧ t.effect = effectStr n.effect := by
  simp [taintMatches]

theorem same_of_taintMatches {t : Taint} {a b : NodeTaint} (ha : taintMatches t a = true)
    (hb : taintMatches t b = true) : a.key = b.key ∧ a.effect = b.effect := by
  obtain ⟨hakey, haeffect⟩ := taintMatches_iff.mp ha
  obtain ⟨hbkey, hbeffect⟩ := taintMatches_iff.mp hb
  exact ⟨hakey.symm.trans hbkey, effectStr_inj (haeffect.symm.trans hbeffect)⟩

section

variable {current : List Taint} {desired applied : List NodeTaint} {t : Taint} {n : NodeTaint}

theorem eq_of_taintMatches (hdistinct : DistinctTaints current) {a b : Taint} (ha : a ∈ current) (hb : b ∈ current)
    (hna : taintMatches a n = true) (hnb : taintMatches b n = true) : a = b := by
  obtain ⟨hakey, haeffect⟩ := taintMatches_iff.mp hna
  obtain ⟨hbkey, hbeffect⟩ := taintMatches_iff.mp hnb
  refine List.inj_on_of_nodup_map hdistinct ha hb ?_
  rw [hakey, haeffect, hbkey, hbeffect]

theorem mem_of_findCurrent (h : findCurrent current n.key n.effect = some t) :
    t ∈ current ∧ taintMatches t n = true := by
  refine ⟨List.mem_of_find?_eq_some h, ?_⟩
  have hfound := List.find?_some h
  simp only [Bool.and_eq_true, beq_iff_eq, effectFromStr_eq_some] at hfound
  exact taintMatches_iff.mpr hfound

theorem findCurrent_eq (hdistinct : DistinctTaints current) (ht : t ∈ current) (hn : taintMatches t n = true) :
    findCurrent current n.key n.effect = some t := by
  cases hfound : findCurrent current n.key n.effect with
  | none =>
    have hnone := List.find?_eq_none.mp hfound t ht
    obtain ⟨hkey, heffect⟩ := taintMatches_iff.mp hn
    simp [hkey, effectFromStr_eq_some.mpr heffect] at hnone
  | some cur =>
    obtain ⟨hcur, hmatches⟩ := mem_of_findCurrent hfound
    rw [eq_of_taintMatches hdistinct hcur ht hmatches hn]

theorem mem_of_findApplied {p : NodeTaint} (h : findApplied applied n.key n.effect = some p) :
    p ∈ applied ∧ p.key = n.key ∧ p.effect = n.effect := by
  refine ⟨List.mem_of_find?_eq_some h, ?_⟩
  simpa using List.find?_some h

theorem taintMatches_congr {p : NodeTaint} (hkey : p.key = n.key) (heffect : p.effect = n.effect) :
    taintMatches t p = taintMatches t n := by
  rw [taintMatches, taintMatches, hkey, heffect]

theorem classifyWant_eq_update (h : classifyWant current applied n = .update) :
    ∃ cur p, findCurrent current n.key n.effect = some cur ∧ cur.value ≠ n.value ∧
      findApplied applied n.key n.effect = some p ∧ p.value = cur.value := by
  unfold classifyWant at h
  split at h
  · cases h
  rename_i cur hcur
  split at h
  · cases h
  rename_i hvalue
  split at h
  · rename_i p hp
    split at h
    · rename_i howned
      exact ⟨cur, p, hcur, hvalue, hp, howned⟩
    · cases h
  · cases h

theorem classifyStale_eq_remove (h : classifyStale current desired n = .remove) :
    (desired.any fun d => d.key == n.key && d.effect == n.effect) = false ∧
      ∃ cur, findCurrent current n.key n.effect = some cur ∧ cur.value = n.value := by
  unfold classifyStale at h
  split at h
  · cases h
  rename_i hdesired
  refine ⟨by simpa using hdesired, ?_⟩
  split at h
  · cases h
  rename_i cur hcur
  split at h
  · rename_i hvalue
    exact ⟨cur, hcur, hvalue⟩
  · cases h

/-- The record claims the taint as applied, and the spec asks for something else in its place or for
nothing. -/
def claimed (desired applied : List NodeTaint) (t : Taint) : Bool :=
  (applied.any fun p => taintMatches t p && p.value == t.value) &&
    !((desired.any fun d => taintMatches t d) && desired.all fun d => !taintMatches t d || d.value == t.value)

theorem claimed_of_remove (hdistinct : DistinctTaints current) (ht : t ∈ current) {r : NodeTaint}
    (hr : r ∈ (diffNodeTaints current desired applied).toRemove) (hmatches : taintMatches t r = true) :
    claimed desired applied t = true := by
  simp only [diffNodeTaints, List.mem_filter, beq_iff_eq] at hr
  obtain ⟨hr, hstale⟩ := hr
  obtain ⟨hdesired, cur, hcur, hvalue⟩ := classifyStale_eq_remove hstale
  rw [findCurrent_eq hdistinct ht hmatches, Option.some.injEq] at hcur
  subst hcur
  have hundesired : (desired.any fun d => taintMatches t d) = false := by
    rw [List.any_eq_false] at hdesired ⊢
    intro d hd hmatch
    obtain ⟨hkey, heffect⟩ := same_of_taintMatches hmatch hmatches
    exact hdesired d hd (by simp [hkey, heffect])
  rw [claimed, hundesired, Bool.false_and, Bool.not_false, Bool.and_true]
  exact List.any_eq_true.mpr ⟨r, hr, by simp [hmatches, hvalue]⟩

theorem claimed_of_update (hdistinct : DistinctTaints current) (ht : t ∈ current) {u : NodeTaint}
    (hu : u ∈ (diffNodeTaints current desired applied).toUpdate) (hmatches : taintMatches t u = true) :
    claimed desired applied t = true := by
  simp only [diffNodeTaints, List.mem_filter, beq_iff_eq] at hu
  obtain ⟨hu, hwant⟩ := hu
  obtain ⟨cur, p, hcur, hvalue, hp, howned⟩ := classifyWant_eq_update hwant
  rw [findCurrent_eq hdistinct ht hmatches, Option.some.injEq] at hcur
  subst hcur
  obtain ⟨hmem, hkey, heffect⟩ := mem_of_findApplied hp
  have hother : (desired.all fun d => !taintMatches t d || d.value == t.value) = false := by
    rw [List.all_eq_false]
    exact ⟨u, hu, by simp [hmatches, Ne.symm hvalue]⟩
  rw [claimed, hother, Bool.and_false, Bool.not_false, Bool.and_true]
  exact List.any_eq_true.mpr ⟨p, hmem, by simp [taintMatches_congr hkey heffect, hmatches, howned]⟩

theorem mem_targetTaints (hdistinct : DistinctTaints current) (ht : t ∈ current)
    (h : claimed desired applied t = false) :
    t ∈ targetTaints current (diffNodeTaints current desired applied) := by
  refine List.mem_append_left _ (List.mem_map.mpr ⟨t, List.mem_filter.mpr ⟨ht, ?_⟩, ?_⟩)
  · rw [Bool.not_eq_true', List.any_eq_false]
    intro r hr hmatches
    rw [claimed_of_remove hdistinct ht hr hmatches] at h
    cases h
  · cases hfind : (diffNodeTaints current desired applied).toUpdate.find? (taintMatches t) with
    | none => rfl
    | some u =>
      have hclaimed := claimed_of_update hdistinct ht (List.mem_of_find?_eq_some hfind) (List.find?_some hfind)
      rw [hclaimed] at h
      cases h

end

/-! ## Plans over one's own taints

What the controller has put on the Node is recorded or still asked for, and nobody else's taint has the key and
effect of an entry. Then the plan finds no conflict, and carrying it out leaves what is asked for beside what
others have there.
-/

def NodeTaint.content (n : NodeTaint) : String × Option String × String := (taintOf n).content

structure Settled (current : List Taint) (desired applied : List NodeTaint)
    (ours : List (String × Option String × String)) : Prop where
  distinct : DistinctTaints current
  distinctDesired : DistinctEntries desired
  distinctApplied : DistinctEntries applied
  claims : ∀ t ∈ current, ∀ n ∈ desired ++ applied, taintMatches t n = true → t.content ∈ ours
  known : ∀ x ∈ ours, x ∈ applied.map NodeTaint.content ∨ x ∈ desired.map NodeTaint.content

theorem taintMatches_of_content {t : Taint} {n : NodeTaint} (h : n.content = t.content) :
    taintMatches t n = true ∧ n.value = t.value := by
  simp only [NodeTaint.content, taintOf, Taint.content, Prod.mk.injEq] at h
  exact ⟨taintMatches_iff.mpr ⟨h.1.symm, h.2.2.symm⟩, h.2.1⟩

theorem content_eq_of_taintMatches {t : Taint} {n : NodeTaint} (hmatches : taintMatches t n = true)
    (hvalue : n.value = t.value) : n.content = t.content := by
  obtain ⟨hkey, heffect⟩ := taintMatches_iff.mp hmatches
  simp [NodeTaint.content, taintOf, Taint.content, hkey, heffect, hvalue]

theorem DistinctEntries.eq {entries : List NodeTaint} (h : DistinctEntries entries) {t : Taint} {a b : NodeTaint}
    (ha : a ∈ entries) (hb : b ∈ entries) (hta : taintMatches t a = true) (htb : taintMatches t b = true) : a = b := by
  obtain ⟨hkey, heffect⟩ := same_of_taintMatches hta htb
  exact List.inj_on_of_nodup_map h ha hb (by rw [hkey, heffect])

section

variable {current : List Taint} {desired applied : List NodeTaint} {t : Taint} {n p : NodeTaint}

theorem findApplied_eq (h : DistinctEntries applied) (hp : p ∈ applied) (htp : taintMatches t p = true)
    (htn : taintMatches t n = true) : findApplied applied n.key n.effect = some p := by
  cases hfound : findApplied applied n.key n.effect with
  | none =>
    obtain ⟨hkey, heffect⟩ := same_of_taintMatches htp htn
    have hnone := List.find?_eq_none.mp hfound p hp
    simp [hkey, heffect] at hnone
  | some q =>
    obtain ⟨hq, hkey, heffect⟩ := mem_of_findApplied hfound
    have htq : taintMatches t q = true := by rw [taintMatches_congr hkey heffect, htn]
    rw [h.eq hq hp htq htp]

theorem classifyWant_of_mem (hdistinct : DistinctTaints current) (ht : t ∈ current) (hn : taintMatches t n = true) :
    classifyWant current applied n = if t.value = n.value then .unchanged
      else match findApplied applied n.key n.effect with
        | some p => if p.value = t.value then .update else .conflict
        | none => .conflict := by
  have hfound := findCurrent_eq hdistinct ht hn
  unfold classifyWant
  generalize findCurrent current n.key n.effect = found at hfound ⊢
  subst hfound
  rfl

theorem classifyStale_of_mem (hdistinct : DistinctTaints current) (ht : t ∈ current) (hn : taintMatches t n = true)
    (hstale : ∀ d ∈ desired, taintMatches t d = false) :
    classifyStale current desired n = if t.value = n.value then .remove else .conflict := by
  have hnone : (desired.any fun d => d.key == n.key && d.effect == n.effect) = false := by
    rw [List.any_eq_false]
    intro d hd hsame
    simp only [Bool.and_eq_true, beq_iff_eq] at hsame
    have hother := hstale d hd
    rw [taintMatches_congr hsame.1 hsame.2, hn] at hother
    cases hother
  rw [classifyStale, hnone, findCurrent_eq hdistinct ht hn]
  rfl

theorem not_removed_of_desired {d : NodeTaint} (hd : d ∈ desired) (htd : taintMatches t d = true) :
    ((diffNodeTaints current desired applied).toRemove.any (taintMatches t)) = false := by
  rw [List.any_eq_false]
  intro r hr htr
  simp only [diffNodeTaints, List.mem_filter, beq_iff_eq] at hr
  have hundesired := (classifyStale_eq_remove hr.2).1
  rw [List.any_eq_false] at hundesired
  obtain ⟨hkey, heffect⟩ := same_of_taintMatches htd htr
  exact hundesired d hd (by simp [hkey, heffect])

/-- What stands in the place of a taint that is kept. -/
def settledTaint (plan : NodeTaintPlan) (t : Taint) : Taint :=
  match plan.toUpdate.find? (taintMatches t) with
  | some update => taintOf update
  | none => t

theorem mem_targetTaints_iff {plan : NodeTaintPlan} {w : Taint} :
    w ∈ targetTaints current plan ↔
      (∃ s ∈ current, plan.toRemove.any (taintMatches s) = false ∧ settledTaint plan s = w) ∨
        ∃ u ∈ plan.toAdd, taintOf u = w := by
  rw [targetTaints, List.mem_append, List.mem_map, List.mem_map]
  apply or_congr_left
  constructor
  · rintro ⟨s, hs, rfl⟩
    obtain ⟨hs, hkept⟩ := List.mem_filter.mp hs
    exact ⟨s, hs, by simpa using hkept, rfl⟩
  · rintro ⟨s, hs, hkept, rfl⟩
    exact ⟨s, List.mem_filter.mpr ⟨hs, by simpa using hkept⟩, rfl⟩

theorem settledTaint_of_some {plan : NodeTaintPlan} {u : NodeTaint} (hu : plan.toUpdate.find? (taintMatches t) = some u) :
    settledTaint plan t = taintOf u := by
  rw [settledTaint, hu]

theorem settledTaint_of_none {plan : NodeTaintPlan} (hu : plan.toUpdate.find? (taintMatches t) = none) :
    settledTaint plan t = t := by
  rw [settledTaint, hu]

theorem settledTaint_mem {plan : NodeTaintPlan} (ht : t ∈ current)
    (hkept : plan.toRemove.any (taintMatches t) = false) : settledTaint plan t ∈ targetTaints current plan :=
  mem_targetTaints_iff.mpr (.inl ⟨t, ht, hkept, rfl⟩)

theorem taintOf_mem {plan : NodeTaintPlan} {d : NodeTaint} (hd : d ∈ plan.toAdd) :
    taintOf d ∈ targetTaints current plan :=
  mem_targetTaints_iff.mpr (.inr ⟨d, hd, rfl⟩)

theorem classifyWant_eq_update_of_ne (hdistinct : DistinctTaints current) (ht : t ∈ current)
    (htn : taintMatches t n = true) (hvalue : t.value ≠ n.value) (hconflict : classifyWant current applied n ≠ .conflict) :
    classifyWant current applied n = .update := by
  rw [classifyWant_of_mem hdistinct ht htn, if_neg hvalue] at hconflict ⊢
  split at hconflict
  · split at hconflict
    · rename_i hp
      rw [if_pos hp]
    · exact absurd rfl hconflict
  · exact absurd rfl hconflict

theorem content_mem_targetTaints (hdistinct : DistinctTaints current) (hdesired : DistinctEntries desired) {d : NodeTaint}
    (hd : d ∈ desired) (hconflict : classifyWant current applied d ≠ .conflict) :
    d.content ∈ (targetTaints current (diffNodeTaints current desired applied)).map Taint.content := by
  cases hfound : findCurrent current d.key d.effect with
  | none =>
    have hadd : d ∈ (diffNodeTaints current desired applied).toAdd := by
      simp [diffNodeTaints, hd, classifyWant, hfound]
    exact List.mem_map_of_mem (taintOf_mem hadd)
  | some t =>
    obtain ⟨ht, htd⟩ := mem_of_findCurrent hfound
    have hsettled := settledTaint_mem ht (@not_removed_of_desired current _ applied _ _ hd htd)
    cases hu : (diffNodeTaints current desired applied).toUpdate.find? (taintMatches t) with
    | some u =>
      have hmem := List.mem_of_find?_eq_some hu
      simp only [diffNodeTaints, List.mem_filter] at hmem
      rw [← hdesired.eq hmem.1 hd (List.find?_some hu) htd]
      rw [settledTaint_of_some hu] at hsettled
      exact List.mem_map_of_mem hsettled
    | none =>
      -- neither added nor updated, so it is there as it is
      have hvalue : t.value = d.value := by
        by_contra hvalue
        have hupdate := classifyWant_eq_update_of_ne hdistinct ht htd hvalue hconflict
        have hmem : d ∈ (diffNodeTaints current desired applied).toUpdate := by
          simp [diffNodeTaints, hd, hupdate]
        exact List.find?_eq_none.mp hu d hmem htd
      rw [content_eq_of_taintMatches htd hvalue.symm]
      rw [settledTaint_of_none hu] at hsettled
      exact List.mem_map_of_mem hsettled

end

section

variable {current : List Taint} {desired applied : List NodeTaint} {ours : List (String × Option String × String)}
  {t : Taint} {d p : NodeTaint}

theorem Settled.known_entry (h : Settled current desired applied ours) (hours : t.content ∈ ours) :
    (∃ p ∈ applied, taintMatches t p = true ∧ p.value = t.value) ∨
      ∃ d ∈ desired, taintMatches t d = true ∧ d.value = t.value := by
  rcases h.known _ hours with hknown | hknown
  · obtain ⟨p, hp, hcontent⟩ := List.mem_map.mp hknown
    exact .inl ⟨p, hp, taintMatches_of_content hcontent⟩
  · obtain ⟨d, hd, hcontent⟩ := List.mem_map.mp hknown
    exact .inr ⟨d, hd, taintMatches_of_content hcontent⟩

theorem Settled.want_ne_conflict (h : Settled current desired applied ours) (hd : d ∈ desired) :
    classifyWant current applied d ≠ .conflict := by
  cases hfound : findCurrent current d.key d.effect with
  | none =>
    rw [classifyWant, hfound]
    exact nofun
  | some t =>
    obtain ⟨ht, htd⟩ := mem_of_findCurrent hfound
    rw [classifyWant_of_mem h.distinct ht htd]
    split
    · exact nofun
    rename_i hvalue
    have hours := h.claims t ht d (List.mem_append_left _ hd) htd
    rcases h.known_entry hours with ⟨p, hp, htp, hpvalue⟩ | ⟨d', hd', htd', hdvalue⟩
    · rw [findApplied_eq h.distinctApplied hp htp htd]
      simp [hpvalue]
    · rw [h.distinctDesired.eq hd' hd htd' htd] at hdvalue
      exact absurd hdvalue.symm hvalue

theorem Settled.stale_ne_conflict (h : Settled current desired applied ours) (hp : p ∈ applied) :
    classifyStale current desired p ≠ .conflict := by
  unfold classifyStale
  split
  · exact nofun
  rename_i hundesired
  split
  · exact nofun
  rename_i t hfound
  obtain ⟨ht, htp⟩ := mem_of_findCurrent hfound
  split
  · exact nofun
  rename_i hvalue
  have hours := h.claims t ht p (List.mem_append_right _ hp) htp
  rcases h.known_entry hours with ⟨p', hp', htp', hpvalue⟩ | ⟨d, hd, htd, -⟩
  · rw [h.distinctApplied.eq hp' hp htp' htp] at hpvalue
    exact absurd hpvalue.symm hvalue
  · refine absurd (List.any_eq_true.mpr ⟨d, hd, ?_⟩) hundesired
    obtain ⟨hkey, heffect⟩ := same_of_taintMatches htd htp
    simp [hkey, heffect]

theorem Settled.conflicts_eq_nil (h : Settled current desired applied ours) :
    (diffNodeTaints current desired applied).conflicts = [] := by
  simp only [diffNodeTaints, List.append_eq_nil_iff, List.filter_eq_nil_iff, beq_iff_eq]
  exact ⟨fun d hd => h.want_ne_conflict hd, fun p hp => h.stale_ne_conflict hp⟩

theorem Settled.desired_mem_target (h : Settled current desired applied ours) (hd : d ∈ desired) :
    d.content ∈ (targetTaints current (diffNodeTaints current desired applied)).map Taint.content :=
  content_mem_targetTaints h.distinct h.distinctDesired hd (h.want_ne_conflict hd)

/-- What is written and neither asked for nor somebody else's, is nothing. -/
theorem Settled.target_cases (h : Settled current desired applied ours)
    (ht : t ∈ targetTaints current (diffNodeTaints current desired applied)) :
    t.content ∈ desired.map NodeTaint.content ∨ t ∈ current ∧ t.content ∉ ours := by
  rcases mem_targetTaints_iff.mp ht with ⟨s, hs, hkept, rfl⟩ | ⟨d, hd, rfl⟩
  · cases hu : (diffNodeTaints current desired applied).toUpdate.find? (taintMatches s) with
    | some u =>
      have hmem := List.mem_of_find?_eq_some hu
      simp only [diffNodeTaints, List.mem_filter] at hmem
      rw [settledTaint_of_some hu]
      exact .inl (List.mem_map_of_mem hmem.1)
    | none =>
      rw [settledTaint_of_none hu]
      by_cases hours : s.content ∈ ours
      · refine .inl ?_
        by_contra hundesired
        have hother : ∀ d ∈ desired, taintMatches s d = true → d.value ≠ s.value := fun d hd hsd hvalue =>
          hundesired (content_eq_of_taintMatches hsd hvalue ▸ List.mem_map_of_mem hd)
        rcases h.known_entry hours with ⟨p, hp, hsp, hpvalue⟩ | ⟨d, hd, hsd, hvalue⟩
        · by_cases hdesired : ∃ d ∈ desired, taintMatches s d = true
          · obtain ⟨d, hd, hsd⟩ := hdesired
            have hupdate : classifyWant current applied d = .update := by
              rw [classifyWant_of_mem h.distinct hs hsd, if_neg (hother d hd hsd).symm,
                findApplied_eq h.distinctApplied hp hsp hsd]
              exact if_pos hpvalue
            have hmem : d ∈ (diffNodeTaints current desired applied).toUpdate := by
              simp [diffNodeTaints, hd, hupdate]
            exact List.find?_eq_none.mp hu d hmem hsd
          · have hstale : ∀ d ∈ desired, taintMatches s d = false := fun d hd =>
              Bool.eq_false_iff.mpr fun hsd => hdesired ⟨d, hd, hsd⟩
            have hremove : p ∈ (diffNodeTaints current desired applied).toRemove := by
              simp [diffNodeTaints, hp, classifyStale_of_mem h.distinct hs hsp hstale, hpvalue]
            rw [List.any_eq_false] at hkept
            exact hkept p hremove hsp
        · exact hother d hd hsd hvalue
      · exact .inr ⟨hs, hours⟩
  · simp only [diffNodeTaints, List.mem_filter] at hd
    exact .inl (List.mem_map_of_mem hd.1)

theorem Settled.foreign_mem_target (h : Settled current desired applied ours) (ht : t ∈ current)
    (hforeign : t.content ∉ ours) : t ∈ targetTaints current (diffNodeTaints current desired applied) := by
  refine mem_targetTaints h.distinct ht ?_
  have hnone : (applied.any fun p => taintMatches t p && p.value == t.value) = false := by
    rw [List.any_eq_false]
    intro p hp hclaims
    exact hforeign (h.claims t ht p (List.mem_append_right _ hp) (Bool.and_eq_true_iff.mp hclaims).1)
  rw [claimed, hnone, Bool.false_and]

theorem targetTaints_of_isNoop {plan : NodeTaintPlan} (h : plan.isNoop = true) : targetTaints current plan = current := by
  simp only [NodeTaintPlan.isNoop, Bool.and_eq_true, List.isEmpty_iff] at h
  obtain ⟨⟨hadd, hupdate⟩, hremove⟩ := h
  simp [targetTaints, hadd, hupdate, hremove]

def spokenOf (entries : List NodeTaint) (t : Taint) : Bool := entries.any (taintMatches t)

theorem findCurrent_filter {entries : List NodeTaint} {n : NodeTaint} (hn : n ∈ entries) (current : List Taint) :
    findCurrent (current.filter (spokenOf entries)) n.key n.effect = findCurrent current n.key n.effect := by
  rw [findCurrent, List.find?_filter, findCurrent]
  congr 1
  funext t
  rw [Bool.eq_iff_iff, decide_eq_true_iff]
  refine ⟨fun h => h.2, fun h => ⟨List.any_eq_true.mpr ⟨n, hn, taintMatches_iff.mpr ?_⟩, h⟩⟩
  simpa [effectFromStr_eq_some] using h

theorem diffNodeTaints_congr {current' : List Taint}
    (h : current'.filter (spokenOf (desired ++ applied)) = current.filter (spokenOf (desired ++ applied))) :
    diffNodeTaints current' desired applied = diffNodeTaints current desired applied := by
  have hfind : ∀ n ∈ desired ++ applied, findCurrent current' n.key n.effect = findCurrent current n.key n.effect := by
    intro n hn
    rw [← findCurrent_filter hn, h, findCurrent_filter hn]
  have hwant : ∀ d ∈ desired, classifyWant current' applied d = classifyWant current applied d := by
    intro d hd
    rw [classifyWant, classifyWant, hfind d (List.mem_append_left _ hd)]
  have hstale : ∀ p ∈ applied, classifyStale current' desired p = classifyStale current desired p := by
    intro p hp
    rw [classifyStale, classifyStale, hfind p (List.mem_append_right _ hp)]
  simp only [diffNodeTaints, NodeTaintPlan.mk.injEq]
  have hfilter : ∀ want : Want, (desired.filter fun d => classifyWant current' applied d == want) =
      desired.filter fun d => classifyWant current applied d == want :=
    fun want => List.filter_congr fun d hd => by rw [hwant d hd]
  have hfilter' : ∀ stale : Stale, (applied.filter fun p => classifyStale current' desired p == stale) =
      applied.filter fun p => classifyStale current desired p == stale :=
    fun stale => List.filter_congr fun p hp => by rw [hstale p hp]
  exact ⟨hfilter _, hfilter _, hfilter' _, hfilter _, by rw [hfilter, hfilter']⟩

end

end FiveSpot
