import FiveSpot.Cluster.StatusDocument

/-! # What `status.spotSchedule` remembers

Every reconcile merges its verdict into the stored object. A patch mentions what the verdict has to say and
leaves the rest alone, so a message and a generation outlive the verdict they came with.
-/

namespace FiveSpot

set_option autoImplicit false

open Interaction

/-- The clock shows `now`, and every status patch is merged. -/
inductive StatusServer (rfc3339 : Time → String) (now : Time) : Json → (r : Req) → Resp r → Json → Prop
  | clock (doc : Json) : StatusServer rfc3339 now doc (.loc .utcNow) now doc
  | patch (doc : Json) (ns name : String) (body : StatusPatch) : StatusServer rfc3339 now doc
      (.api .management (.patchStatus ns name body)) (.ok ()) (doc.mergePatch (body.toJson rfc3339))

def spotField (doc : Json) (name : String) : Option Json := (doc.get "spotSchedule").bind (Json.get name)

def readActive (doc : Json) : Option Bool := (spotField doc "active").bind Json.asBool

/-- Stored documents with the verdicts persisted in them, newest first. Patches of other writers may come in
between. -/
inductive SpotHistory (rfc3339 : Time → String) (ns name : String) : List (SpotScheduleVerdict × Time) → Json → Prop
  | blank {doc : Json} : doc.get "spotSchedule" = none → SpotHistory rfc3339 ns name [] doc
  | persist {steps : List (SpotScheduleVerdict × Time)} {doc doc' : Json} {verdict : SpotScheduleVerdict} {now : Time} :
      SpotHistory rfc3339 ns name steps doc →
      (persistSpotScheduleStatus ns name verdict (readActive doc)).Runs (StatusServer rfc3339 now) doc doc' (.ok ()) →
      SpotHistory rfc3339 ns name ((verdict, now) :: steps) doc'
  | other {steps : List (SpotScheduleVerdict × Time)} {doc : Json} {body : StatusPatch} :
      SpotHistory rfc3339 ns name steps doc → body.writer ≠ .spotSchedule →
      SpotHistory rfc3339 ns name steps (doc.mergePatch (body.toJson rfc3339))

/-! ## What the verdicts say -/

section

variable (steps : List (SpotScheduleVerdict × Time))

def lastVerdict : Option SpotScheduleVerdict := steps.head?.map Prod.fst

def lastResolved : Option SpotScheduleVerdict := (steps.find? fun step => step.1.isResolved).map Prod.fst

def resolvedActive : Option Bool := (lastResolved steps).bind (·.active?)

def lastChange : List (SpotScheduleVerdict × Time) → Option Time
  | [] => none
  | (verdict, now) :: steps =>
    if verdict.isResolved && verdict.active? != resolvedActive steps then some now else lastChange steps

end

/-- The stored object says what the verdicts say. -/
structure FoldsVerdicts (rfc3339 : Time → String) (steps : List (SpotScheduleVerdict × Time)) (doc : Json) : Prop where
  resolved : spotField doc "resolved" = (lastVerdict steps).map fun verdict => .bool verdict.isResolved
  reason : spotField doc "reason" = (lastVerdict steps).map fun verdict => .str verdict.reason
  active : spotField doc "active" = (resolvedActive steps).map .bool
  lastTransitionTime : spotField doc "lastTransitionTime" = (lastChange steps).map fun t => .str (rfc3339 t)
  message : spotField doc "message" = ((lastVerdict steps).bind (·.message)).map .str
  providerGeneration : spotField doc "providerGeneration" = ((lastResolved steps).bind (·.providerGeneration)).map .num

/-- A resolved verdict only follows resolved ones, and the last resolved verdict has a generation if any has. -/
def NothingStale (steps : List (SpotScheduleVerdict × Time)) : Prop :=
  (∀ verdict, lastVerdict steps = some verdict → verdict.isResolved = true → ∀ step ∈ steps, step.1.isResolved = true) ∧
  (∀ verdict, lastResolved steps = some verdict → verdict.providerGeneration = none →
    ∀ step ∈ steps, step.1.providerGeneration = none)

/-! ## What is stored -/

def storedMessage (steps : List (SpotScheduleVerdict × Time)) : Option String := steps.findSome? (·.1.message)

def storedGeneration (steps : List (SpotScheduleVerdict × Time)) : Option Int :=
  steps.findSome? (·.1.providerGeneration)

/-- The stored record: message and generation are the latest there ever were. -/
def remembered : List (SpotScheduleVerdict × Time) → Option SpotScheduleStatus
  | [] => none
  | (verdict, now) :: steps => some {
      resolved := verdict.isResolved
      active := resolvedActive ((verdict, now) :: steps)
      reason := some verdict.reason
      message := storedMessage ((verdict, now) :: steps)
      providerGeneration := storedGeneration ((verdict, now) :: steps)
      lastTransitionTime := (lastChange ((verdict, now) :: steps)).map .valid }

section

variable {verdict : SpotScheduleVerdict} {now : Time} {steps : List (SpotScheduleVerdict × Time)}

theorem resolvedActive_cons : resolvedActive ((verdict, now) :: steps) = verdict.active?.or (resolvedActive steps) := by
  cases verdict <;> rfl

theorem storedMessage_cons : storedMessage ((verdict, now) :: steps) = verdict.message.or (storedMessage steps) := by
  cases verdict <;> rfl

theorem storedGeneration_cons :
    storedGeneration ((verdict, now) :: steps) = verdict.providerGeneration.or (storedGeneration steps) := by
  rw [storedGeneration, List.findSome?_cons]
  cases verdict.providerGeneration <;> rfl

theorem spotTransitioned_eq (previous : Option Bool) :
    spotTransitioned verdict previous = (verdict.isResolved && verdict.active? != previous) := by
  cases verdict <;> cases previous <;> rfl

theorem remembered_active : (remembered steps).bind (·.active) = resolvedActive steps := by
  cases steps <;> rfl

theorem remembered_message : (remembered steps).bind (·.message) = storedMessage steps := by
  cases steps <;> rfl

theorem remembered_generation : (remembered steps).bind (·.providerGeneration) = storedGeneration steps := by
  cases steps <;> rfl

theorem remembered_time : (remembered steps).bind (·.lastTransitionTime) = (lastChange steps).map .valid := by
  cases steps <;> rfl

def stampedTime (verdict : SpotScheduleVerdict) (previous : Option Bool) (now : Time) : Option Rfc3339 :=
  if spotTransitioned verdict previous then some (.valid now) else none

theorem remembered_cons : remembered ((verdict, now) :: steps) = some (SpotScheduleStatus.merge (remembered steps)
    (spotScheduleStatus verdict (resolvedActive steps) (stampedTime verdict (resolvedActive steps) now))) := by
  have hactive : (verdict.active?.or (resolvedActive steps)).or (resolvedActive steps) =
      resolvedActive ((verdict, now) :: steps) := by
    rw [resolvedActive_cons]
    cases verdict.active? <;> cases resolvedActive steps <;> rfl
  have htime : (stampedTime verdict (resolvedActive steps) now).or ((lastChange steps).map .valid) =
      (lastChange ((verdict, now) :: steps)).map .valid := by
    rw [stampedTime, spotTransitioned_eq, lastChange]
    split <;> rfl
  rw [SpotScheduleStatus.merge, remembered_active, remembered_message, remembered_generation, remembered_time]
  simp only [remembered, spotScheduleStatus, Option.some_or, hactive, htime, storedMessage_cons, storedGeneration_cons]

/-! ## Runs -/

variable {rfc3339 : Time → String} {ns name : String} {doc doc' : Json}

theorem doc_of_persist {previous : Option Bool} {x : Except ReconcilerError Unit}
    (h : (persistSpotScheduleStatus ns name verdict previous).Runs (StatusServer rfc3339 now) doc doc' x) :
    doc' = doc.mergePatch ((StatusPatch.spotSchedule
      (spotScheduleStatus verdict previous (stampedTime verdict previous now))).toJson rfc3339) := by
  have hsend : ∀ {time : Option Rfc3339}, Prog.Runs (StatusServer rfc3339 now) doc
      (.call (.api .management (.patchStatus ns name (.spotSchedule (spotScheduleStatus verdict previous time))))
        orKubeError) doc' x →
      doc' = doc.mergePatch ((StatusPatch.spotSchedule (spotScheduleStatus verdict previous time)).toJson rfc3339) := by
    intro time hrun
    cases hrun with
    | call hserve hrest =>
      cases hserve
      cases hrest
      rfl
  unfold stampedTime
  by_cases htransition : spotTransitioned verdict previous = true
  · rw [if_pos htransition]
    unfold persistSpotScheduleStatus spotTransitionTime at h
    rw [if_pos htransition] at h
    cases h with
    | call hserve hrest =>
      cases hserve
      exact hsend hrest
  · rw [if_neg htransition]
    unfold persistSpotScheduleStatus spotTransitionTime at h
    rw [if_neg htransition] at h
    exact hsend h

theorem holds_remembered (h : SpotHistory rfc3339 ns name steps doc) :
    Holds (SpotScheduleStatus.fields rfc3339) (doc.get "spotSchedule") (remembered steps) := by
  induction h with
  | blank hdoc => exact hdoc
  | @persist steps doc doc' verdict now _ hrun ih =>
    have hread : readActive doc = resolvedActive steps := by
      have hactive : ∀ s : SpotScheduleStatus, ("active", s.active.map Json.bool) ∈ s.fields rfc3339 := by
        simp [SpotScheduleStatus.fields]
      rw [readActive, spotField, holds_bind ih hactive, ← remembered_active]
      cases remembered steps with
      | none => rfl
      | some s => cases hs : s.active <;> simp [hs, Json.asBool]
    rw [hread] at hrun
    rw [doc_of_persist hrun, StatusPatch.get_merge (List.mem_singleton_self _) rfl, remembered_cons]
    exact holds_mergeSpotSchedule _ ih
  | other _ hwriter ih =>
    rw [StatusPatch.get_frame]
    · exact ih
    · exact fun hname => StatusWriter.disjoint hwriter hname (List.mem_singleton_self _)

theorem spotField_eq (h : SpotHistory rfc3339 ns name steps doc) {field : String} {f : SpotScheduleStatus → Option Json}
    (hf : ∀ s : SpotScheduleStatus, (field, f s) ∈ s.fields rfc3339) : spotField doc field = (remembered steps).bind f :=
  holds_bind (holds_remembered h) hf

theorem spotField_message (h : SpotHistory rfc3339 ns name steps doc) :
    spotField doc "message" = (storedMessage steps).map .str := by
  rw [spotField_eq h (f := fun s => s.message.map .str) (by simp [SpotScheduleStatus.fields]), ← remembered_message]
  cases remembered steps <;> rfl

theorem spotField_generation (h : SpotHistory rfc3339 ns name steps doc) :
    spotField doc "providerGeneration" = (storedGeneration steps).map .num := by
  rw [spotField_eq h (f := fun s => s.providerGeneration.map .num) (by simp [SpotScheduleStatus.fields]),
    ← remembered_generation]
  cases remembered steps <;> rfl

theorem runs_persist (rfc3339 : Time → String) (ns name : String) (verdict : SpotScheduleVerdict)
    (previous : Option Bool) (now : Time) (doc : Json) : ∃ doc',
      (persistSpotScheduleStatus ns name verdict previous).Runs (StatusServer rfc3339 now) doc doc' (.ok ()) := by
  unfold persistSpotScheduleStatus spotTransitionTime
  split
  · exact ⟨_, .call (.clock _) (.call (.patch ..) (.pure ()))⟩
  · exact ⟨_, .call (.patch ..) (.pure ())⟩

theorem spotHistory_exists (rfc3339 : Time → String) (ns name : String) (steps : List (SpotScheduleVerdict × Time)) :
    ∃ doc, SpotHistory rfc3339 ns name steps doc := by
  induction steps with
  | nil => exact ⟨.obj [], .blank rfl⟩
  | cons step steps ih =>
    obtain ⟨doc, hdoc⟩ := ih
    obtain ⟨doc', hrun⟩ := runs_persist rfc3339 ns name step.1 (readActive doc) step.2 doc
    exact ⟨doc', .persist hdoc hrun⟩

/-! ## When nothing is stale -/

theorem message_eq_none_iff : verdict.message = none ↔ verdict.isResolved = true := by
  cases verdict <;> simp [SpotScheduleVerdict.message, SpotScheduleVerdict.isResolved]

theorem storedMessage_eq_none_iff : storedMessage steps = none ↔ ∀ step ∈ steps, step.1.isResolved = true := by
  simp only [storedMessage, List.findSome?_eq_none_iff, message_eq_none_iff]

theorem storedGeneration_eq_none_iff :
    storedGeneration steps = none ↔ ∀ step ∈ steps, step.1.providerGeneration = none := by
  simp only [storedGeneration, List.findSome?_eq_none_iff]

theorem or_eq_left_iff {α : Type} {x y : Option α} : x.or y = x ↔ (x = none → y = none) := by
  cases x <;> simp

theorem storedMessage_eq_iff : storedMessage steps = (lastVerdict steps).bind (·.message) ↔
    ∀ verdict, lastVerdict steps = some verdict → verdict.isResolved = true → ∀ step ∈ steps, step.1.isResolved = true := by
  cases steps with
  | nil => simp [storedMessage, lastVerdict]
  | cons step steps =>
    obtain ⟨verdict, now⟩ := step
    have hlast : lastVerdict ((verdict, now) :: steps) = some verdict := rfl
    rw [hlast, storedMessage_cons, Option.bind_some, or_eq_left_iff, storedMessage_eq_none_iff, message_eq_none_iff]
    constructor
    · rintro h _ ⟨⟩ hresolved step hstep
      rcases List.mem_cons.mp hstep with rfl | hstep
      · exact hresolved
      · exact h hresolved step hstep
    · intro h hresolved step hstep
      exact h verdict rfl hresolved step (List.mem_cons_of_mem _ hstep)

/-- An unresolved verdict changes nothing; a resolved one is the last. -/
theorem storedGeneration_eq_iff : storedGeneration steps = (lastResolved steps).bind (·.providerGeneration) ↔
    ∀ verdict, lastResolved steps = some verdict → verdict.providerGeneration = none →
      ∀ step ∈ steps, step.1.providerGeneration = none := by
  induction steps with
  | nil => simp [storedGeneration, lastResolved]
  | cons step steps ih =>
    obtain ⟨verdict, now⟩ := step
    cases hresolved : verdict.isResolved with
    | true =>
      have hlast : lastResolved ((verdict, now) :: steps) = some verdict := by
        simp [lastResolved, hresolved]
      rw [hlast, storedGeneration_cons, Option.bind_some, or_eq_left_iff, storedGeneration_eq_none_iff]
      constructor
      · rintro h _ ⟨⟩ hnone step hstep
        rcases List.mem_cons.mp hstep with rfl | hstep
        · exact hnone
        · exact h hnone step hstep
      · intro h hnone step hstep
        exact h verdict rfl hnone step (List.mem_cons_of_mem _ hstep)
    | false =>
      have hlast : lastResolved ((verdict, now) :: steps) = lastResolved steps := by
        simp [lastResolved, hresolved]
      have hgeneration : verdict.providerGeneration = none := by
        cases verdict with
        | unresolved => rfl
        | active => cases hresolved
        | inactive => cases hresolved
      rw [hlast, storedGeneration_cons, hgeneration, Option.none_or, ih]
      simp only [List.mem_cons, forall_eq_or_imp, hgeneration, true_and]

end

/-- Four fields always say what the verdicts say. Message and generation do exactly when nothing is stale. -/
theorem spot_status_folds_iff (rfc3339 : Time → String) (ns name : String)
    (steps : List (SpotScheduleVerdict × Time)) (doc : Json) (h : SpotHistory rfc3339 ns name steps doc) :
    FoldsVerdicts rfc3339 steps doc ↔ NothingStale steps := by
  constructor
  · intro hfold
    constructor
    · apply storedMessage_eq_iff.mp
      exact Option.map_injective (fun _ _ => Json.str.inj) ((spotField_message h).symm.trans hfold.message)
    · apply storedGeneration_eq_iff.mp
      exact Option.map_injective (fun _ _ => Json.num.inj) ((spotField_generation h).symm.trans hfold.providerGeneration)
  · rintro ⟨hverdict, hresolved⟩
    refine ⟨?_, ?_, ?_, ?_, ?_, ?_⟩
    · rw [spotField_eq h (f := fun s => some (.bool s.resolved)) (by simp [SpotScheduleStatus.fields])]
      cases steps <;> rfl
    · rw [spotField_eq h (f := fun s => s.reason.map .str) (by simp [SpotScheduleStatus.fields])]
      cases steps <;> rfl
    · rw [spotField_eq h (f := fun s => s.active.map .bool) (by simp [SpotScheduleStatus.fields]), ← remembered_active]
      cases remembered steps <;> rfl
    · have htime : ∀ s : SpotScheduleStatus, ("lastTransitionTime",
          s.lastTransitionTime.map fun t => Json.str (t.text rfc3339)) ∈ s.fields rfc3339 := by
        simp [SpotScheduleStatus.fields]
      rw [spotField_eq h htime]
      cases steps with
      | nil => rfl
      | cons step steps => exact Option.map_map ..
    · rw [spotField_message h, storedMessage_eq_iff.mpr hverdict]
    · rw [spotField_generation h, storedGeneration_eq_iff.mpr hresolved]

/-- An unresolved verdict between two resolved ones. -/
def outage : List (SpotScheduleVerdict × Time) :=
  [(.active none, 3), (.unresolved Constants.reasonSpotScheduleProviderNotFound "provider not found", 2),
    (.active (some 7), 1)]

theorem spot_status_folds_iff_outage : ∃ doc, SpotHistory (fun t => toString t) "default" "worker" outage doc ∧
    (FoldsVerdicts (fun t => toString t) outage doc ↔ NothingStale outage) := by
  obtain ⟨doc, hdoc⟩ := spotHistory_exists (fun t => toString t) "default" "worker" outage
  exact ⟨doc, hdoc, spot_status_folds_iff _ _ _ _ _ hdoc⟩

/-- The provider is back and has no generation now. -/
theorem outage_leaves_stale_fields : ∃ doc, SpotHistory (fun t => toString t) "default" "worker" outage doc ∧
    spotField doc "message" = some (.str "provider not found") ∧
    spotField doc "providerGeneration" = some (.num 7) ∧ ¬ FoldsVerdicts (fun t => toString t) outage doc := by
  obtain ⟨doc, hdoc⟩ := spotHistory_exists (fun t => toString t) "default" "worker" outage
  have hmessage := spotField_message hdoc
  refine ⟨doc, hdoc, hmessage, spotField_generation hdoc, fun hfold => ?_⟩
  have hfresh := hfold.message
  rw [hmessage] at hfresh
  cases hfresh

end FiveSpot
