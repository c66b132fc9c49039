import FiveSpot.Admission.StatusSchema

/-! # Status writes are served

The server merges a patch of the status into what it stores, completes the result and turns it down if the schema does not
let it in. The writers of the controller are never turned down, and what is stored goes on to be the document of the record
that the writers believe in.
-/

namespace FiveSpot

set_option autoImplicit false

open Interaction
open Json (record recordFields)

section

variable (rfc3339 : Time → String)

/-- `null` stands for a status that was never written. -/
def serveStatus (doc : Json) (body : StatusPatch) : Option Json :=
  let stored := FullStatus.schema.complete (doc.mergePatch (body.toJson rfc3339))
  if FullStatus.schema.accepts stored then some stored else none

/-- A stored document and the record it is the document of. -/
structure StatusStored (doc : Json) (status : ScheduledMachineStatus) : Prop where
  valid : doc = .null ∨ FullStatus.schema.Valid doc
  represents : Represents rfc3339 doc status

/-- The properties of the status that no writer of the controller has. -/
def foreignStatusFields : List String :=
  ["lastScheduledTime", "machineRef", "bootstrapRef", "infrastructureRef", "observedGeneration", "nextActivation",
    "nextCleanup"]

/-- Every status patch a program sends is one the schema has room for. -/
def SendsFitting {α : Type} (p : Ctl α) : Prop :=
  p.Issues fun r => ∀ client ns name body, r = .api client (.patchStatus ns name body) → body.Fits

end

section

variable {rfc3339 : Time → String} {doc stored : Json} {status : ScheduledMachineStatus} {body : StatusPatch}

theorem statusStored_blank : StatusStored rfc3339 .null .blank where
  valid := .inl rfl
  represents := ⟨rfl, rfl, rfl, rfl, rfl, rfl, rfl, rfl, rfl⟩

theorem getD_or {x : Option Json} (v : Json) : (x.or (some v)).getD v = x.getD v := by
  cases x <;> rfl

/-- The defaults of the schema are what a missing field is read as. -/
theorem Represents.complete (hvalid : FullStatus.schema.Valid doc) (h : Represents rfc3339 doc status) :
    Represents rfc3339 (FullStatus.schema.complete doc) status := by
  have hget : ∀ name presence, (∃ schema, (name, presence, schema) ∈ FullStatus.properties) →
      (FullStatus.schema.complete doc).get name = (doc.get name).or presence.fallback := by
    rintro name presence ⟨schema, hmem⟩
    exact hvalid.get_complete FullStatus.sound hmem
  have hkept : ∀ name, (∃ schema, (name, Presence.nullable, schema) ∈ FullStatus.properties) →
      (FullStatus.schema.complete doc).get name = doc.get name := fun name hmem => (hget name _ hmem).trans Option.or_none
  constructor
  · rw [hkept "phase" (by simp [FullStatus.properties])]
    exact h.phase
  · rw [hkept "message" (by simp [FullStatus.properties])]
    exact h.message
  · rw [hkept "providerID" (by simp [FullStatus.properties])]
    exact h.providerId
  · rw [hget "conditions" (.default (.arr [])) (by simp [FullStatus.properties]), Presence.fallback, getD_or]
    exact h.conditions
  · rw [hget "inSchedule" (.default (.bool false)) (by simp [FullStatus.properties]), Presence.fallback, getD_or]
    exact h.inSchedule
  · rw [hget "ready" (.default (.bool false)) (by simp [FullStatus.properties]), Presence.fallback, getD_or]
    exact h.ready
  · rw [(hget "appliedNodeTaints" .optional (by simp [FullStatus.properties])).trans Option.or_none]
    exact h.appliedNodeTaints
  · rw [hkept "nodeRef" (by simp [FullStatus.properties])]
    exact h.nodeRef
  · rw [hkept "spotSchedule" (by simp [FullStatus.properties])]
    exact h.spotSchedule

theorem StatusStored.valid_merge (h : StatusStored rfc3339 doc status) (hfits : body.Fits) :
    FullStatus.schema.Valid (doc.mergePatch (body.toJson rfc3339)) := by
  refine Schema.Valid.mergePatch FullStatus.sound.nodup ?_ h.valid (StatusPatch.merges h.valid hfits) ?_
  · exact Json.recordFields_sublist.nodup body.nodup_fields
  · have hnone : ∀ property ∈ FullStatus.properties, property.2.1.isRequired = false := by
      simp [FullStatus.properties, Presence.isRequired]
    intro _ property hproperty hrequired
    rw [hnone property hproperty] at hrequired
    cases hrequired

/-- One write: it is stored, the record follows, and the fields of others stay. -/
theorem StatusStored.serve (h : StatusStored rfc3339 doc status) (hfits : body.Fits) :
    ∃ stored, serveStatus rfc3339 doc body = some stored ∧ StatusStored rfc3339 stored (body.apply status) ∧
      ∀ name ∈ foreignStatusFields, stored.get name = doc.get name := by
  have hmerged := h.valid_merge hfits
  have hstored : FullStatus.schema.Valid (FullStatus.schema.complete (doc.mergePatch (body.toJson rfc3339))) :=
    hmerged.complete FullStatus.sound
  refine ⟨_, if_pos hstored.accepted, ⟨.inr hstored, (h.represents.apply body).complete hmerged⟩, fun name hname => ?_⟩
  have hforeign : ∃ schema, (name, Presence.nullable, schema) ∈ FullStatus.properties := by
    simp only [foreignStatusFields, List.mem_cons, List.not_mem_nil, or_false] at hname
    rcases hname with rfl | rfl | rfl | rfl | rfl | rfl | rfl <;> simp [FullStatus.properties]
  have hwriter : name ∉ body.writer.fields := by
    have hdisjoint : ∀ writer : StatusWriter, ∀ name ∈ foreignStatusFields, name ∉ writer.fields := by
      rintro (_ | _ | _ | _) <;> decide
    exact hdisjoint body.writer name hname
  obtain ⟨schema, hmem⟩ := hforeign
  rw [FullStatus.schema, hmerged.get_complete FullStatus.sound hmem, StatusPatch.get_frame hwriter]
  exact Option.or_none

theorem StatusStored.serve_all {bodies : List StatusPatch} (h : StatusStored rfc3339 doc status)
    (hfits : ∀ body ∈ bodies, body.Fits) : ∃ stored, bodies.foldlM (serveStatus rfc3339) doc = some stored ∧
      StatusStored rfc3339 stored (bodies.foldl StatusPatch.apply status) ∧
        ∀ name ∈ foreignStatusFields, stored.get name = doc.get name := by
  induction bodies generalizing doc status with
  | nil => exact ⟨doc, rfl, h, fun _ _ => rfl⟩
  | cons body bodies ih =>
    obtain ⟨hbody, hrest⟩ := List.forall_mem_cons.mp hfits
    obtain ⟨next, hserve, hnext, hsame⟩ := h.serve hbody
    obtain ⟨stored, hrun, hstored, hkept⟩ := ih hnext hrest
    refine ⟨stored, ?_, hstored, fun name hname => (hkept name hname).trans (hsame name hname)⟩
    rw [List.foldlM_cons, hserve]
    exact hrun

/-! ## The writers -/

variable {α : Type}

theorem sendsFitting_loc (op : LocalOp) : SendsFitting (local_ op) := by
  apply issues_local
  intro client ns name body h
  cases h

theorem sendsFitting_publish (event : KubeEvent) : SendsFitting (publishBestEffort event) := by
  apply (issues_api _).bind
  · intro _
    trivial
  · intro client ns name body h
    cases h

theorem sendsFitting_patch {ns name : String} (hfits : body.Fits) :
    SendsFitting (api .management (.patchStatus ns name body)) := by
  apply issues_api
  intro client ns name body h
  cases h
  exact hfits

theorem sendsFitting_writePhase (ns name : String) (fromPhase : Option Phase) (target : Phase) (reason message : String)
    (inSchedule : Bool) : SendsFitting (writePhase ns name fromPhase target reason message inSchedule) := by
  apply (sendsFitting_publish _).bind
  intro _
  apply (sendsFitting_loc _).bind
  intro now
  have hbody : (StatusPatch.phase target message
      [Condition.new now Constants.conditionTypeReady Constants.conditionStatusTrue reason message] inSchedule
        (target == .active)).Fits := by
    intro c hc
    cases List.mem_singleton.mp hc
    exact List.mem_cons_self
  exact (sendsFitting_patch hbody).bind issues_orKubeError

theorem verdictFromStatus_fits (provider : Option Json) :
    ∀ n ∈ (verdictFromStatus provider).providerGeneration, longSchema.accepts (.num n) = true := by
  have hread : ∀ v : Json, ∀ n ∈ v.asI64, longSchema.accepts (.num n) = true := by
    intro v n hn
    cases v with
    | num m =>
      obtain ⟨hrange, hm⟩ := Option.ite_none_right_eq_some.mp hn
      cases hm
      exact Bool.and_eq_true_iff.mpr ⟨decide_eq_true hrange.1, decide_eq_true (Int.le_sub_one_of_lt hrange.2)⟩
    | _ => cases hn
  have hgeneration : ∀ x : Option Json, ∀ n ∈ x.bind Json.asI64, longSchema.accepts (.num n) = true := by
    intro x n hn
    obtain ⟨v, -, hv⟩ := Option.bind_eq_some_iff.mp hn
    exact hread v n hv
  unfold verdictFromStatus
  split
  · nofun
  · split
    · nofun
    · split
      · nofun
      · split
        · exact hgeneration _
        · exact hgeneration _

theorem sendsFitting_persistSpotScheduleStatus (ns name : String) {verdict : SpotScheduleVerdict}
    (hverdict : ∀ n ∈ verdict.providerGeneration, longSchema.accepts (.num n) = true) (previousActive : Option Bool) :
    SendsFitting (persistSpotScheduleStatus ns name verdict previousActive) := by
  have htime : SendsFitting (spotTransitionTime verdict previousActive) := by
    unfold spotTransitionTime
    split
    · exact (sendsFitting_loc _).bind fun _ => trivial
    · trivial
  refine htime.bind fun time => (sendsFitting_patch ?_).bind issues_orKubeError
  exact hverdict

theorem sendsFitting_patchMachineRefsStatus (ns name : String) (providerId : Option String) (nodeRef : Option NodeRef) :
    SendsFitting (patchMachineRefsStatus ns name providerId nodeRef) := by
  unfold patchMachineRefsStatus
  split
  · trivial
  · have hbody : (StatusPatch.machineRefs providerId nodeRef).Fits := trivial
    exact (sendsFitting_patch hbody).bind issues_orKubeError

theorem sendsFitting_patchAppliedNodeTaintsStatus (ns name : String) (applied : List NodeTaint) :
    SendsFitting (patchAppliedNodeTaintsStatus ns name applied) := by
  have hbody : (StatusPatch.appliedNodeTaints applied).Fits := trivial
  exact (sendsFitting_patch hbody).bind issues_orKubeError

end

/-- Each writer sends only what the schema has room for. -/
structure WritersFit : Prop where
  phase : ∀ ns name fromPhase target reason message inSchedule,
    SendsFitting (updatePhase ns name fromPhase target reason message inSchedule) ∧
      SendsFitting (updatePhaseWithGracePeriod ns name fromPhase target reason message inSchedule)
  resolved : ∀ ns name provider previousActive,
    SendsFitting (persistSpotScheduleStatus ns name (verdictFromStatus provider) previousActive)
  unresolved : ∀ ns name reason message previousActive,
    SendsFitting (persistSpotScheduleStatus ns name (.unresolved reason message) previousActive)
  machineRefs : ∀ ns name providerId nodeRef, SendsFitting (patchMachineRefsStatus ns name providerId nodeRef)
  appliedNodeTaints : ∀ ns name applied, SendsFitting (patchAppliedNodeTaintsStatus ns name applied)

theorem writersFit : WritersFit where
  phase _ _ _ _ _ _ _ := ⟨sendsFitting_writePhase .., sendsFitting_writePhase ..⟩
  resolved ns name provider := sendsFitting_persistSpotScheduleStatus ns name (verdictFromStatus_fits provider)
  unresolved ns name _ _ := sendsFitting_persistSpotScheduleStatus ns name nofun
  machineRefs := sendsFitting_patchMachineRefsStatus
  appliedNodeTaints := sendsFitting_patchAppliedNodeTaintsStatus

/-- Over any run of such patches none is turned down, the stored document stays the document of the record as the writers
change it, and the fields of others stay as they are. -/
theorem status_writes_served (rfc3339 : Time → String) (doc : Json) (status : ScheduledMachineStatus)
    (bodies : List StatusPatch) (h : StatusStored rfc3339 doc status) (hfits : ∀ body ∈ bodies, body.Fits) :
    WritersFit ∧ ∃ stored, bodies.foldlM (serveStatus rfc3339) doc = some stored ∧
      StatusStored rfc3339 stored (bodies.foldl StatusPatch.apply status) ∧
        ∀ name ∈ foreignStatusFields, stored.get name = doc.get name :=
  ⟨writersFit, h.serve_all hfits⟩

/-- The first writes after a resource was created. -/
theorem status_writes_served_of_creation : WritersFit ∧ ∃ stored,
    [StatusPatch.phase .pending "created" [Condition.new 0 "Ready" "True" "Created" "created"] false false,
      .spotSchedule ⟨true, some true, none, none, some 7, none⟩, .appliedNodeTaints []].foldlM
        (serveStatus fun t => toString t) .null = some stored ∧
      StatusStored (fun t => toString t) stored
        ⟨some .pending, some "created", none, none, [Condition.new 0 "Ready" "True" "Created" "created"], false, false, [],
          some ⟨true, some true, none, none, some 7, none⟩⟩ ∧
        ∀ name ∈ foreignStatusFields, stored.get name = none := by
  refine status_writes_served (fun t => toString t) .null .blank _ statusStored_blank ?_
  simp only [List.forall_mem_cons]
  refine ⟨fun c hc => ?_, fun n hn => ?_, trivial, nofun⟩
  · cases List.mem_singleton.mp hc
    decide
  · cases hn
    decide

end FiveSpot
