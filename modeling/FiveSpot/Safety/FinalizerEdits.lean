import FiveSpot.Cluster.Base
import FiveSpot.Discipline.Requests
import FiveSpot.Interaction.Execution

/-! # Edits of the list of finalizers

The controller reads the resource from a cache, edits the list it finds there and writes the whole list back.
What other controllers do to the list in between is overwritten.
-/

namespace FiveSpot

set_option autoImplicit false

open Interaction

/-! ## The list and who edits it -/

def ScheduledMachine.finalizerList (sm : ScheduledMachine) : List String := sm.metadata.finalizers.getD []

/-- The finalizers on the server; a resource that is gone has none. -/
def World.finalizers (w : World) : List String := (w.sm.map ScheduledMachine.finalizerList).getD []

def oursIn (finalizers : List String) : Nat := finalizers.count Constants.finalizerScheduledMachine

/-- Others may do anything but add or remove copies of our finalizer. -/
def Interference.foreign : Interference → World → Prop
  | .editFinalizers finalizers, w => ∀ sm ∈ w.sm, oursIn finalizers = oursIn sm.finalizerList
  | _, _ => True

def foreignActs (w w' : World) : Prop := ∃ e : Interference, e.foreign w ∧ w' = interfere e w

/-- Two lists with the same finalizers of others. -/
def SameForeign (finalizers finalizers' : List String) : Prop :=
  ∀ f, f ≠ Constants.finalizerScheduledMachine → (f ∈ finalizers ↔ f ∈ finalizers')

def isFinalizerEdit : Req → Prop
  | .api _ (.patchFinalizers _ _ _) => True
  | _ => False

/-- An execution of the program, begun when the server had the resource as the controller has read it, has
come to an edit of the finalizers in `before`, which leads to `after`. -/
def Edits (p : Ctl Action) (sm : ScheduledMachine) (before after : World) : Prop :=
  ∃ w client ns name finalizers k, w.sm = some sm ∧
    Proceeds serve foreignActs w p before (.call (.api client (.patchFinalizers ns name finalizers)) k) ∧
    perform before client (.patchFinalizers ns name finalizers) = .ok ((), after)

section

variable {ctx : Context} {sm : ScheduledMachine} {w before after : World} {finalizers : List String}

/-! ## What the two functions write -/

theorem sameForeign_withFinalizer (finalizers finalizers' : List String) :
    SameForeign (withFinalizer finalizers) finalizers' ↔ SameForeign finalizers finalizers' := by
  refine forall₂_congr fun f hf => iff_congr ?_ Iff.rfl
  unfold withFinalizer
  split
  · rfl
  · simp [hf]

theorem sameForeign_withoutFinalizer (finalizers finalizers' : List String) :
    SameForeign (withoutFinalizer finalizers) finalizers' ↔ SameForeign finalizers finalizers' := by
  refine forall₂_congr fun f hf => iff_congr ?_ Iff.rfl
  simp [withoutFinalizer, hf]

theorem oursIn_withFinalizer (finalizers : List String) : oursIn (withFinalizer finalizers) = max 1 (oursIn finalizers) := by
  unfold withFinalizer oursIn
  split
  · rename_i hmem
    have hpos := List.count_pos_iff.mpr (List.contains_iff_mem.mp hmem)
    omega
  · rename_i hmem
    have hzero : finalizers.count Constants.finalizerScheduledMachine = 0 :=
      List.count_eq_zero.mpr fun h => hmem (List.contains_iff_mem.mpr h)
    rw [List.count_append, hzero, List.count_singleton_self]
    rfl

theorem not_mem_withoutFinalizer (finalizers : List String) :
    Constants.finalizerScheduledMachine ∉ withoutFinalizer finalizers := by
  simp [withoutFinalizer]

/-- The whole list is replaced; with an empty one a resource under deletion goes away. -/
theorem finalizers_of_perform {client : Client} {ns name : String}
    (h : perform before client (.patchFinalizers ns name finalizers) = .ok ((), after)) :
    (∃ sm, before.sm = some sm) ∧ after.finalizers = finalizers := by
  obtain ⟨sm, hsm, heq⟩ := orNotFound_eq_ok h
  have hbefore := sm_of_findSm hsm
  cases heq
  refine ⟨⟨sm, hbefore⟩, ?_⟩
  simp only [World.finalizers, World.setSm, ScheduledMachine.setFinalizers]
  split
  · rename_i hgone
    exact (List.isEmpty_iff.mp (Bool.and_eq_true_iff.mp hgone).2).symm
  · rfl

/-! ## Until the edit -/

/-- The resource, if it is still there, has as many copies of our finalizer as were read. -/
def OursUnchanged (sm : ScheduledMachine) (w : World) : Prop :=
  ∀ sm' ∈ w.sm, oursIn sm'.finalizerList = oursIn sm.finalizerList

theorem OursUnchanged.of_eq (h : OursUnchanged sm w)
    (hsm : ∀ sm₁ ∈ after.sm, ∃ sm₀ ∈ w.sm, sm₁.metadata.finalizers = sm₀.metadata.finalizers) : OursUnchanged sm after := by
  intro sm₁ hsm₁
  obtain ⟨sm₀, hsm₀, hsame⟩ := hsm sm₁ hsm₁
  rw [ScheduledMachine.finalizerList, hsame]
  exact h sm₀ hsm₀

theorem oursIn_setFinalizers {sm' : ScheduledMachine} (h : sm.setFinalizers finalizers = some sm') :
    sm'.finalizerList = finalizers := by
  unfold ScheduledMachine.setFinalizers at h
  split at h
  · cases h
  · cases h
    rfl

theorem finalizers_requestDeletion {sm' : ScheduledMachine} {now : Time} (h : sm.requestDeletion now = some sm') :
    sm'.metadata.finalizers = sm.metadata.finalizers := by
  unfold ScheduledMachine.requestDeletion at h
  split at h
  · cases h
    rfl
  · split at h
    · cases h
    · cases h
      rfl

theorem oursUnchanged_interfere {e : Interference} (h : OursUnchanged sm w) (he : e.foreign w) :
    OursUnchanged sm (interfere e w) := by
  cases e with
  | tick nanos => exact h
  | setClock time => exact h
  | setLeader leader => exact h
  | replace env keep => exact h
  | editSpec spec =>
    cases hw : w.sm with
    | none => simpa only [interfere, hw] using h
    | some sm₀ =>
      refine h.of_eq fun sm₁ hsm₁ => ⟨sm₀, hw, ?_⟩
      simp only [interfere, hw] at hsm₁
      cases hsm₁
      rfl
  | editFinalizers finalizers =>
    intro sm₁ hsm₁
    obtain ⟨sm₀, hsm₀, hset⟩ := Option.bind_eq_some_iff.mp hsm₁
    rw [oursIn_setFinalizers hset, he sm₀ hsm₀]
    exact h sm₀ hsm₀
  | requestDeletion =>
    cases hw : w.sm with
    | none => simpa only [interfere, hw] using h
    | some sm₀ =>
      refine h.of_eq fun sm₁ hsm₁ => ⟨sm₀, hw, ?_⟩
      simp only [interfere, hw] at hsm₁
      exact finalizers_requestDeletion hsm₁
  | forgeNodeRef nodeRef =>
    refine h.of_eq fun sm₁ hsm₁ => ?_
    obtain ⟨sm₀, hsm₀, rfl⟩ := Option.map_eq_some_iff.mp hsm₁
    exact ⟨sm₀, hsm₀, rfl⟩

theorem oursUnchanged_serve {r : Req} (f : Fate) (h : OursUnchanged sm w) (hr : ¬isFinalizerEdit r) :
    OursUnchanged sm (serve w r f).2 := by
  cases r with
  | loc op =>
    refine h.of_eq fun sm₁ hsm₁ => ⟨sm₁, ?_, rfl⟩
    rw [← (performLocal_frame w op).1]
    exact hsm₁
  | timer seconds =>
    refine h.of_eq fun sm₁ hsm₁ => ⟨sm₁, ?_, rfl⟩
    rw [← (serve_timer_frame w seconds f).1]
    exact hsm₁
  | api client call =>
    obtain ⟨applied, error, hanswered⟩ := exists_answered w client call f
    refine h.of_eq fun sm₁ hsm₁ => ?_
    rw [hanswered.sm] at hsm₁
    split at hsm₁
    · obtain ⟨sm₀, hsm₀, honSm⟩ := Option.bind_eq_some_iff.mp hsm₁
      refine ⟨sm₀, hsm₀, ?_⟩
      cases call with
      | patchFinalizers ns name finalizers => exact absurd trivial hr
      | _ => cases honSm; rfl
    · exact ⟨sm₁, hsm₁, rfl⟩

theorem oursUnchanged_acts (h : OursUnchanged sm w) (hacts : Relation.ReflTransGen foreignActs w after) :
    OursUnchanged sm after := by
  induction hacts with
  | refl => exact h
  | tail _ hact ih =>
    obtain ⟨e, he, rfl⟩ := hact
    exact oursUnchanged_interfere ih he

theorem oursUnchanged_runs {p : Ctl Unit} {x : Except ReconcilerError Unit} (h : OursUnchanged sm w)
    (hp : p.Issues fun r => ¬isFinalizerEdit r) (hrun : Runs serve foreignActs w p x after) : OursUnchanged sm after := by
  have hacts : ∀ w w', foreignActs w w' → OursUnchanged sm w → OursUnchanged sm w' := by
    rintro w _ ⟨e, he, rfl⟩ hw
    exact oursUnchanged_interfere hw he
  have hserve : ∀ w r f, ¬isFinalizerEdit r → OursUnchanged sm w → OursUnchanged sm (serve w r f).2 :=
    fun _ _ f hr hw => oursUnchanged_serve f hw hr
  exact hrun.keeps hserve hacts hp h

theorem oursUnchanged_read (hread : w.sm = some sm) : OursUnchanged sm w := by
  intro sm' hsm'
  rw [hread] at hsm'
  cases hsm'
  rfl

/-! ## The edits -/

theorem issues_orKubeError_action {answer : Except KubeError Unit} {action : Action} :
    ((orKubeError answer).bind fun _ => (.pure action : Ctl Action)).Issues fun r => ¬isFinalizerEdit r :=
  (issues_orKubeError answer).bind fun _ => trivial

/-- A resource without namespace is not edited; the others are by one request, the last. -/
theorem edit_addFinalizer (h : Edits (addFinalizer sm) sm before after) :
    after.finalizers = withFinalizer sm.finalizerList ∧ OursUnchanged sm before := by
  obtain ⟨w, client, ns, name, finalizers, k, hread, hproceeds, hperform⟩ := h
  unfold addFinalizer requireNamespace at hproceeds
  cases hns : sm.metadata.ns with
  | none =>
    rw [hns] at hproceeds
    exact (hproceeds.issues (R := fun r => ¬isFinalizerEdit r) trivial).1.elim trivial
  | some ns' =>
    rw [hns] at hproceeds
    obtain ⟨hr, hacts⟩ := Proceeds.of_call (R := isFinalizerEdit)
      (r := Req.api .management (.patchFinalizers ns' sm.metadata.name (withFinalizer sm.finalizerList))) hproceeds
      (fun answer => issues_orKubeError_action) trivial
    cases hr
    exact ⟨(finalizers_of_perform hperform).2, oursUnchanged_acts (oursUnchanged_read hread) hacts⟩

theorem issues_finalizerCleanup_edits (ctx : Context) (sm : ScheduledMachine) (ns : String) :
    (finalizerCleanup ctx sm ns).Issues fun r => ¬isFinalizerEdit r :=
  issues_finalizerCleanup (fun _ => id) (fun _ => id) (fun _ => id) ctx

theorem edit_handleDeletion (h : Edits (handleDeletion ctx sm) sm before after) :
    after.finalizers = withoutFinalizer sm.finalizerList ∧ OursUnchanged sm before := by
  obtain ⟨w, client, ns, name, finalizers, k, hread, hproceeds, hperform⟩ := h
  unfold handleDeletion requireNamespace at hproceeds
  cases hns : sm.metadata.ns with
  | none =>
    rw [hns] at hproceeds
    exact (hproceeds.issues (R := fun r => ¬isFinalizerEdit r) trivial).1.elim trivial
  | some ns' =>
    rw [hns] at hproceeds
    obtain ⟨hr, _, w₁, hrun, hacts⟩ := Proceeds.of_bind_call (R := isFinalizerEdit)
      (r := Req.api .management (.patchFinalizers ns' sm.metadata.name (withoutFinalizer sm.finalizerList))) hproceeds
      (issues_finalizerCleanup_edits ctx sm ns') (fun _ answer => issues_orKubeError_action) trivial
    have hcleaned := oursUnchanged_runs (oursUnchanged_read hread) (issues_finalizerCleanup_edits ctx sm ns') hrun
    cases hr
    exact ⟨(finalizers_of_perform hperform).2, oursUnchanged_acts hcleaned hacts⟩

theorem Edits.found {p : Ctl Action} (h : Edits p sm before after) : ∃ sm', before.sm = some sm' := by
  obtain ⟨w, client, ns, name, finalizers, k, -, -, hperform⟩ := h
  exact (finalizers_of_perform hperform).1

theorem OursUnchanged.count (h : OursUnchanged sm before) (hfound : ∃ sm', before.sm = some sm') :
    oursIn before.finalizers = oursIn sm.finalizerList := by
  obtain ⟨sm', hsm'⟩ := hfound
  rw [World.finalizers, hsm', Option.map_some, Option.getD_some]
  exact h sm' hsm'

theorem sameForeign_comm (finalizers finalizers' : List String) :
    SameForeign finalizers finalizers' ↔ SameForeign finalizers' finalizers :=
  forall₂_congr fun _ _ => iff_comm

/-- An edit leaves the finalizers of others as they are exactly when the list that was read still has them all
and no more. Ours is added once at most, and removed altogether. -/
theorem finalizer_edit_iff (ctx : Context) (sm : ScheduledMachine) :
    (∀ before after, Edits (addFinalizer sm) sm before after →
      (SameForeign before.finalizers after.finalizers ↔ SameForeign sm.finalizerList before.finalizers) ∧
        oursIn after.finalizers = max 1 (oursIn before.finalizers)) ∧
    ∀ before after, Edits (handleDeletion ctx sm) sm before after →
      (SameForeign before.finalizers after.finalizers ↔ SameForeign sm.finalizerList before.finalizers) ∧
        Constants.finalizerScheduledMachine ∉ after.finalizers := by
  constructor
  · intro before after hedits
    obtain ⟨hafter, hours⟩ := edit_addFinalizer hedits
    rw [hafter, sameForeign_comm, sameForeign_withFinalizer, oursIn_withFinalizer, hours.count hedits.found]
    exact ⟨Iff.rfl, rfl⟩
  · intro before after hedits
    obtain ⟨hafter, -⟩ := edit_handleDeletion hedits
    rw [hafter, sameForeign_comm, sameForeign_withoutFinalizer]
    exact ⟨Iff.rfl, not_mem_withoutFinalizer _⟩

end

/-! ## A finalizer that is lost -/

def unguarded : ScheduledMachine := { demoMachine with metadata := { demoMachine.metadata with finalizers := none } }

/-- Nobody else edits the list: what is written is ours, added and removed. -/
theorem finalizer_edit_undisturbed :
    (∃ before after, Edits (addFinalizer unguarded) unguarded before after ∧
      SameForeign before.finalizers after.finalizers ∧ oursIn after.finalizers = 1) ∧
    ∃ before after, Edits (handleDeletion demoContext demoMachine) demoMachine before after ∧
      SameForeign before.finalizers after.finalizers ∧ Constants.finalizerScheduledMachine ∉ after.finalizers := by
  constructor
  · obtain ⟨after, hedits⟩ : ∃ after, Edits (addFinalizer unguarded) unguarded (demoWorld.setSm (some unguarded)) after :=
      ⟨_, _, .management, "team", "spot", [Constants.finalizerScheduledMachine], _, rfl, .refl, rfl⟩
    obtain ⟨hforeign, hours⟩ := (finalizer_edit_iff demoContext unguarded).1 _ _ hedits
    exact ⟨_, after, hedits, hforeign.mpr fun _ _ => Iff.rfl, hours⟩
  · obtain ⟨after, hedits⟩ : ∃ after, Edits (handleDeletion demoContext demoMachine) demoMachine demoWorld after :=
      ⟨_, _, .management, "team", "spot", [], _, rfl, .refl, rfl⟩
    obtain ⟨hforeign, hours⟩ := (finalizer_edit_iff demoContext demoMachine).2 _ _ hedits
    exact ⟨_, after, hedits, hforeign.mpr fun _ _ => Iff.rfl, hours⟩

/-- Another controller puts its finalizer on the resource before ours is written. -/
theorem foreign_finalizer_lost : ∃ before after, Edits (addFinalizer unguarded) unguarded before after ∧
    before.finalizers = ["backup.example.com/snapshot"] ∧ after.finalizers = [Constants.finalizerScheduledMachine] ∧
    ¬SameForeign before.finalizers after.finalizers := by
  refine ⟨interfere (.editFinalizers ["backup.example.com/snapshot"]) (demoWorld.setSm (some unguarded)), _,
    ⟨demoWorld.setSm (some unguarded), .management, "team", "spot", [Constants.finalizerScheduledMachine], _, rfl,
      .act ⟨_, ?_, rfl⟩ .refl, rfl⟩, rfl, rfl, fun hsame => ?_⟩
  · rintro sm ⟨⟩
    rfl
  · have hkept := (hsame "backup.example.com/snapshot" (by decide)).mp (List.mem_singleton_self _)
    exact absurd hkept (by decide)

end FiveSpot
