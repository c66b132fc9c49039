import FiveSpot.Discipline.Requests
import FiveSpot.Model.StatusJson

/-! # The writers of the status

Four writers send merge patches for the status of a resource. Each has fields of its own: it leaves the
fields of the others alone, also where it sends a whole status with defaults.
-/

namespace FiveSpot

set_option autoImplicit false

open Interaction

/-- `update_phase` and `update_phase_with_grace_period` are one writer. -/
inductive StatusWriter where
  | phase
  | spotSchedule
  | machineRefs
  | appliedNodeTaints
  deriving DecidableEq

def StatusWriter.fields : StatusWriter → List String
  | .phase => ["phase", "message", "conditions", "inSchedule", "ready"]
  | .spotSchedule => ["spotSchedule"]
  | .machineRefs => ["providerID", "nodeRef"]
  | .appliedNodeTaints => ["appliedNodeTaints"]

def StatusPatch.writer : StatusPatch → StatusWriter
  | .phase .. => .phase
  | .spotSchedule _ => .spotSchedule
  | .machineRefs _ _ => .machineRefs
  | .appliedNodeTaints _ => .appliedNodeTaints

/-- Every status patch a program sends is one of the writer's. -/
def SendsOnly (writer : StatusWriter) {α : Type} (p : Ctl α) : Prop :=
  p.Issues fun r => ∀ client ns name body, r = .api client (.patchStatus ns name body) → body.writer = writer

def applyPatches (rfc3339 : Time → String) (status : Json) (bodies : List StatusPatch) : Json :=
  (bodies.map (StatusPatch.toJson rfc3339)).foldl Json.mergePatch status

def Json.Same (a b : Json) : Prop := a.asObject.isSome ∧ b.asObject.isSome ∧ ∀ name, a.get name = b.get name

/-! ## What each writer sends -/

section

variable {α : Type}

theorem sendsOnly_loc {writer : StatusWriter} (op : LocalOp) : SendsOnly writer (local_ op) := by
  apply issues_local
  intro client ns name body h
  cases h

theorem sendsOnly_publish {writer : StatusWriter} (event : KubeEvent) :
    SendsOnly writer (publishBestEffort event) := by
  apply (issues_api _).bind
  · intro _
    trivial
  · intro client ns name body h
    cases h

theorem sendsOnly_patch {ns name : String} (body : StatusPatch) :
    SendsOnly body.writer (api .management (.patchStatus ns name body)) := by
  apply issues_api
  intro client ns name body h
  cases h
  rfl

theorem sendsOnly_writePhase (ns name : String) (fromPhase : Option Phase) (target : Phase) (reason message : String)
    (inSchedule : Bool) : SendsOnly .phase (writePhase ns name fromPhase target reason message inSchedule) := by
  apply (sendsOnly_publish _).bind
  intro _
  apply (sendsOnly_loc _).bind
  intro now
  apply (sendsOnly_patch (.phase ..)).bind
  exact issues_orKubeError

theorem sendsOnly_persistSpotScheduleStatus (ns name : String) (verdict : SpotScheduleVerdict)
    (previousActive : Option Bool) :
    SendsOnly .spotSchedule (persistSpotScheduleStatus ns name verdict previousActive) := by
  have htime : SendsOnly .spotSchedule (spotTransitionTime verdict previousActive) := by
    unfold spotTransitionTime
    split
    · exact (sendsOnly_loc _).bind fun _ => trivial
    · trivial
  apply htime.bind
  intro time
  apply (sendsOnly_patch (.spotSchedule _)).bind
  exact issues_orKubeError

theorem sendsOnly_patchMachineRefsStatus (ns name : String) (providerId : Option String) (nodeRef : Option NodeRef) :
    SendsOnly .machineRefs (patchMachineRefsStatus ns name providerId nodeRef) := by
  unfold patchMachineRefsStatus
  split
  · trivial
  · apply (sendsOnly_patch (.machineRefs ..)).bind
    exact issues_orKubeError

theorem sendsOnly_patchAppliedNodeTaintsStatus (ns name : String) (applied : List NodeTaint) :
    SendsOnly .appliedNodeTaints (patchAppliedNodeTaintsStatus ns name applied) := by
  apply (sendsOnly_patch (.appliedNodeTaints _)).bind
  exact issues_orKubeError

end

/-! ## What a patch mentions -/

section

variable (rfc3339 : Time → String)

theorem isSome_toJson (body : StatusPatch) : (body.toJson rfc3339).asObject.isSome := rfl

theorem names_toJson (body : StatusPatch) : (body.toJson rfc3339).names ⊆ body.writer.fields := by
  intro name h
  obtain ⟨⟨n, v⟩, hfield, rfl⟩ := List.mem_map.mp h
  have hmem : (n, some v) ∈ body.fields rfc3339 := Json.mem_recordFields.mp hfield
  cases body <;>
    simp [StatusPatch.fields, FullStatus.fields, FullStatus.default, ScheduledMachineStatus.blank] at hmem <;>
    simp [StatusPatch.writer, StatusWriter.fields] <;> grind

theorem StatusWriter.disjoint {a b : StatusWriter} (h : a ≠ b) : List.Disjoint a.fields b.fields := by
  cases a <;> cases b <;> first | exact absurd rfl h | simp [List.Disjoint, StatusWriter.fields]

theorem not_mem_names {body : StatusPatch} {name : String} (h : name ∉ body.writer.fields) :
    name ∉ (body.toJson rfc3339).names := fun hname => h (names_toJson rfc3339 body hname)

theorem names_disjoint {a b : StatusPatch} (h : a.writer ≠ b.writer) :
    List.Disjoint (a.toJson rfc3339).names (b.toJson rfc3339).names := by
  intro name ha hb
  exact StatusWriter.disjoint h (names_toJson rfc3339 a ha) (names_toJson rfc3339 b hb)

theorem get_applyPatches {status : Json} {bodies : List StatusPatch} {writer : StatusWriter} {name : String}
    (hname : name ∈ writer.fields) : (applyPatches rfc3339 status bodies).get name =
      (applyPatches rfc3339 status (bodies.filter fun body => body.writer == writer)).get name := by
  apply Json.get_foldl_mergePatch (StatusPatch.toJson rfc3339) (fun body _ => isSome_toJson rfc3339 body) _ rfl
  intro body _ hkeep
  have hwriter : body.writer ≠ writer := by simpa using hkeep
  exact not_mem_names rfc3339 fun h => StatusWriter.disjoint hwriter h hname

end

/-- The writers send patches of their own kind only; such a patch leaves every other field alone, patches of
different writers commute, and whatever order patches come in, a field ends up as its own writer's patches alone
would leave it. -/
theorem status_writers_independent (rfc3339 : Time → String) :
    (∀ ns name fromPhase target reason message inSchedule,
      SendsOnly .phase (updatePhase ns name fromPhase target reason message inSchedule) ∧
      SendsOnly .phase (updatePhaseWithGracePeriod ns name fromPhase target reason message inSchedule)) ∧
    (∀ ns name verdict previousActive,
      SendsOnly .spotSchedule (persistSpotScheduleStatus ns name verdict previousActive)) ∧
    (∀ ns name providerId nodeRef, SendsOnly .machineRefs (patchMachineRefsStatus ns name providerId nodeRef)) ∧
    (∀ ns name applied, SendsOnly .appliedNodeTaints (patchAppliedNodeTaintsStatus ns name applied)) ∧
    (∀ (status : Json) (body : StatusPatch) (name : String), name ∉ body.writer.fields →
      (status.mergePatch (body.toJson rfc3339)).get name = status.get name) ∧
    (∀ (status : Json) (a b : StatusPatch), a.writer ≠ b.writer →
      Json.Same (applyPatches rfc3339 status [a, b]) (applyPatches rfc3339 status [b, a])) ∧
    (∀ (status : Json) (bodies : List StatusPatch) (writer : StatusWriter) (name : String), name ∈ writer.fields →
      (applyPatches rfc3339 status bodies).get name =
        (applyPatches rfc3339 status (bodies.filter fun body => body.writer == writer)).get name) := by
  refine ⟨?_, sendsOnly_persistSpotScheduleStatus, sendsOnly_patchMachineRefsStatus,
    sendsOnly_patchAppliedNodeTaintsStatus, ?_, ?_, ?_⟩
  · intro ns name fromPhase target reason message inSchedule
    constructor
    · exact sendsOnly_writePhase ..
    · exact sendsOnly_writePhase ..
  · intro status body name hname
    exact Json.get_mergePatch_of_not_mem (isSome_toJson rfc3339 body) (not_mem_names rfc3339 hname)
  · intro status a b hwriter
    refine ⟨rfl, rfl, fun name => ?_⟩
    exact Json.get_mergePatch_comm (isSome_toJson rfc3339 a) (isSome_toJson rfc3339 b) (names_disjoint rfc3339 hwriter)
  · intro status bodies writer name hname
    exact get_applyPatches rfc3339 hname

end FiveSpot
