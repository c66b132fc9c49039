import FiveSpot.Cluster.World
import FiveSpot.Safety.StatusWriters

/-! # The status as the API server stores it

The world keeps a status as a record; the API server keeps a document. Merging a patch into the document is
what `StatusPatch.apply` does to the record.
-/

namespace FiveSpot

set_option autoImplicit false

/-- A value that is absent when the struct is, and otherwise an object with the fields of the struct. -/
def Holds {α : Type} (fields : α → Fields) (value : Option Json) : Option α → Prop
  | none => value = none
  | some s => ∃ doc, value = some doc ∧ ∀ name v, (name, v) ∈ fields s → doc.get name = v

/-- The document a status is read from: optional fields may be absent, fields with a default as well. -/
structure Represents (rfc3339 : Time → String) (doc : Json) (status : ScheduledMachineStatus) : Prop where
  phase : doc.get "phase" = status.phase.map fun phase => .str phase.text
  message : doc.get "message" = status.message.map .str
  providerId : doc.get "providerID" = status.providerId.map .str
  conditions : (doc.get "conditions").getD (.arr []) = .arr (status.conditions.map (Condition.toJson rfc3339))
  inSchedule : (doc.get "inSchedule").getD (.bool false) = .bool status.inSchedule
  ready : (doc.get "ready").getD (.bool false) = .bool status.ready
  appliedNodeTaints : (doc.get "appliedNodeTaints").getD (.arr []) = .arr (status.appliedNodeTaints.map NodeTaint.toJson)
  nodeRef : Holds NodeRef.fields (doc.get "nodeRef") status.nodeRef
  spotSchedule : Holds (SpotScheduleStatus.fields rfc3339) (doc.get "spotSchedule") status.spotSchedule

section

variable {rfc3339 : Time → String}

theorem get_mergePatch_fields {α : Type} {fields : α → Fields} {s : α} {value : Option Json} {name : String}
    {v : Option Json} (hnodup : ((fields s).map Prod.fst).Nodup) (hmem : (name, v) ∈ fields s)
    (hflat : ∀ w, v = some w → w.isNull = false ∧ w.asObject = none) :
    ((value.getD .null).mergePatch (.record (fields s))).get name = v.or (value.bind (Json.get name)) := by
  rw [Json.get_mergePatch_record_flat hnodup hmem (fun w hw => (hflat w hw).1) (fun w hw => (hflat w hw).2)]
  cases value <;> rfl

theorem holds_bind {α : Type} {fields : α → Fields} {value : Option Json} {old : Option α}
    (h : Holds fields value old) {name : String} {f : α → Option Json} (hf : ∀ s, (name, f s) ∈ fields s) :
    value.bind (Json.get name) = old.bind f := by
  cases old with
  | none =>
    have hvalue : value = none := h
    rw [hvalue]
    rfl
  | some s =>
    obtain ⟨doc, rfl, hdoc⟩ := h
    exact hdoc name (f s) (hf s)

theorem SpotScheduleStatus.nodup_fields (s : SpotScheduleStatus) : ((s.fields rfc3339).map Prod.fst).Nodup := by
  simp [SpotScheduleStatus.fields]

theorem NodeRef.nodup_fields (r : NodeRef) : (r.fields.map Prod.fst).Nodup := by
  simp [NodeRef.fields]

theorem SpotScheduleStatus.flat_fields {s : SpotScheduleStatus} {name : String} {v : Option Json}
    (hmem : (name, v) ∈ s.fields rfc3339) (w : Json) (hw : v = some w) : w.isNull = false ∧ w.asObject = none := by
  subst hw
  obtain ⟨resolved, active, reason, message, generation, time⟩ := s
  simp only [SpotScheduleStatus.fields, List.mem_cons, Prod.mk.injEq, List.not_mem_nil, or_false] at hmem
  rcases hmem with ⟨-, h⟩ | ⟨-, h⟩ | ⟨-, h⟩ | ⟨-, h⟩ | ⟨-, h⟩ | ⟨-, h⟩
  · cases h
    exact ⟨rfl, rfl⟩
  all_goals
    obtain ⟨x, -, rfl⟩ := Option.map_eq_some_iff.mp h.symm
    exact ⟨rfl, rfl⟩

theorem NodeRef.flat_fields {r : NodeRef} {name : String} {v : Option Json}
    (hmem : (name, v) ∈ r.fields) (w : Json) (hw : v = some w) : w.isNull = false ∧ w.asObject = none := by
  subst hw
  simp only [NodeRef.fields, List.mem_cons, Prod.mk.injEq, List.not_mem_nil, or_false] at hmem
  rcases hmem with ⟨-, h⟩ | ⟨-, h⟩ | ⟨-, h⟩ | ⟨-, h⟩
  · cases h
    exact ⟨rfl, rfl⟩
  · cases h
    exact ⟨rfl, rfl⟩
  · cases h
    exact ⟨rfl, rfl⟩
  · obtain ⟨x, -, rfl⟩ := Option.map_eq_some_iff.mp h.symm
    exact ⟨rfl, rfl⟩

theorem map_or_bind {α β γ : Type} (f : β → γ) (g : α → Option β) (x : Option β) (old : Option α) :
    (x.or (old.bind g)).map f = (x.map f).or (old.bind fun a => (g a).map f) := by
  cases x <;> cases old <;> rfl

theorem holds_mergeSpotSchedule {value : Option Json} {old : Option SpotScheduleStatus} (s : SpotScheduleStatus)
    (h : Holds (SpotScheduleStatus.fields rfc3339) value old) :
    Holds (SpotScheduleStatus.fields rfc3339) (some ((value.getD .null).mergePatch (.record (s.fields rfc3339))))
      (some (SpotScheduleStatus.merge old s)) := by
  have hget : ∀ {name : String} (f : SpotScheduleStatus → Option Json), (∀ s, (name, f s) ∈ s.fields rfc3339) →
      ((value.getD .null).mergePatch (.record (s.fields rfc3339))).get name = (f s).or (old.bind f) := by
    intro name f hf
    rw [get_mergePatch_fields s.nodup_fields (hf s) (SpotScheduleStatus.flat_fields (hf s)), holds_bind h hf]
  refine ⟨_, rfl, fun name v hmem => ?_⟩
  simp only [SpotScheduleStatus.fields, SpotScheduleStatus.merge, map_or_bind, List.mem_cons, Prod.mk.injEq,
    List.not_mem_nil, or_false] at hmem
  rcases hmem with ⟨rfl, rfl⟩ | ⟨rfl, rfl⟩ | ⟨rfl, rfl⟩ | ⟨rfl, rfl⟩ | ⟨rfl, rfl⟩ | ⟨rfl, rfl⟩
  · rw [hget (fun s => some (.bool s.resolved)) (by simp [SpotScheduleStatus.fields]), Option.some_or]
  · exact hget (fun s => s.active.map .bool) (by simp [SpotScheduleStatus.fields])
  · exact hget (fun s => s.reason.map .str) (by simp [SpotScheduleStatus.fields])
  · exact hget (fun s => s.message.map .str) (by simp [SpotScheduleStatus.fields])
  · exact hget (fun s => s.providerGeneration.map .num) (by simp [SpotScheduleStatus.fields])
  · have htime : ∀ s : SpotScheduleStatus, ("lastTransitionTime",
        s.lastTransitionTime.map fun t => Json.str (t.text rfc3339)) ∈ s.fields rfc3339 := by
      simp [SpotScheduleStatus.fields]
    exact hget _ htime

theorem holds_mergeNodeRef {value : Option Json} {old : Option NodeRef} (r : NodeRef)
    (h : Holds NodeRef.fields value old) :
    Holds NodeRef.fields (some ((value.getD .null).mergePatch (.record r.fields))) (some (NodeRef.merge old r)) := by
  have hget : ∀ {name : String} (f : NodeRef → Option Json), (∀ r, (name, f r) ∈ r.fields) →
      ((value.getD .null).mergePatch (.record r.fields)).get name = (f r).or (old.bind f) := by
    intro name f hf
    rw [get_mergePatch_fields r.nodup_fields (hf r) (NodeRef.flat_fields (hf r)), holds_bind h hf]
  refine ⟨_, rfl, fun name v hmem => ?_⟩
  simp only [NodeRef.fields, NodeRef.merge, map_or_bind, List.mem_cons, Prod.mk.injEq, List.not_mem_nil,
    or_false] at hmem
  rcases hmem with ⟨rfl, rfl⟩ | ⟨rfl, rfl⟩ | ⟨rfl, rfl⟩ | ⟨rfl, rfl⟩
  · rw [hget (fun r => some (.str r.apiVersion)) (by simp [NodeRef.fields]), Option.some_or]
  · rw [hget (fun r => some (.str r.kind)) (by simp [NodeRef.fields]), Option.some_or]
  · rw [hget (fun r => some (.str r.name)) (by simp [NodeRef.fields]), Option.some_or]
  · exact hget (fun r => r.uid.map .str) (by simp [NodeRef.fields])

/-! ## The whole status -/

theorem StatusPatch.nodup_fields (body : StatusPatch) : ((body.fields rfc3339).map Prod.fst).Nodup := by
  cases body <;> simp [StatusPatch.fields, FullStatus.fields]

theorem StatusPatch.get_merge {doc v : Json} {body : StatusPatch} {name : String}
    (hmem : (name, some v) ∈ body.fields rfc3339) (hnull : v.isNull = false) :
    (doc.mergePatch (body.toJson rfc3339)).get name = some (Json.mergePatch ((doc.get name).getD .null) v) := by
  rw [StatusPatch.toJson, Json.get_mergePatch_record body.nodup_fields hmem (by rintro w ⟨⟩; exact hnull),
    Option.map_some, Option.some_or]

theorem StatusPatch.get_merge_flat {doc v : Json} {body : StatusPatch} {name : String}
    (hmem : (name, some v) ∈ body.fields rfc3339) (hnull : v.isNull = false) (hflat : v.asObject = none) :
    (doc.mergePatch (body.toJson rfc3339)).get name = some v := by
  rw [StatusPatch.get_merge hmem hnull, Json.mergePatch_of_asObject_eq_none hflat]

theorem StatusPatch.get_skip {doc : Json} {body : StatusPatch} {name : String}
    (hmem : (name, none) ∈ body.fields rfc3339) :
    (doc.mergePatch (body.toJson rfc3339)).get name = doc.get name := by
  rw [StatusPatch.toJson, Json.get_mergePatch_record body.nodup_fields hmem (by rintro w ⟨⟩)]
  rfl

theorem StatusPatch.get_frame {doc : Json} {body : StatusPatch} {name : String} (h : name ∉ body.writer.fields) :
    (doc.mergePatch (body.toJson rfc3339)).get name = doc.get name :=
  Json.get_mergePatch_of_not_mem (isSome_toJson rfc3339 body) (not_mem_names rfc3339 h)

/-- The stored document goes through what the record goes through. -/
theorem Represents.apply {doc : Json} {status : ScheduledMachineStatus} (h : Represents rfc3339 doc status)
    (body : StatusPatch) : Represents rfc3339 (doc.mergePatch (body.toJson rfc3339)) (body.apply status) := by
  obtain ⟨phase, message, providerId, conditions, inSchedule, ready, taints, nodeRef, spotSchedule⟩ := h
  have hframe : ∀ {name : String}, name ∉ body.writer.fields →
      (doc.mergePatch (body.toJson rfc3339)).get name = doc.get name := StatusPatch.get_frame
  cases body with
  | phase target message' conditions' inSchedule' ready' =>
    refine ⟨?_, ?_, ?_, ?_, ?_, ?_, ?_, ?_, ?_⟩
    · exact StatusPatch.get_merge_flat (by simp [StatusPatch.fields, FullStatus.fields]) rfl rfl
    · exact StatusPatch.get_merge_flat (by simp [StatusPatch.fields, FullStatus.fields]) rfl rfl
    · rw [hframe (by simp [StatusPatch.writer, StatusWriter.fields])]
      exact providerId
    · rw [StatusPatch.get_merge_flat (by simp [StatusPatch.fields, FullStatus.fields]; rfl) rfl rfl]
      rfl
    · rw [StatusPatch.get_merge_flat (by simp [StatusPatch.fields, FullStatus.fields]; rfl) rfl rfl]
      rfl
    · rw [StatusPatch.get_merge_flat (by simp [StatusPatch.fields, FullStatus.fields]; rfl) rfl rfl]
      rfl
    · rw [hframe (by simp [StatusPatch.writer, StatusWriter.fields])]
      exact taints
    · rw [hframe (by simp [StatusPatch.writer, StatusWriter.fields])]
      exact nodeRef
    · rw [hframe (by simp [StatusPatch.writer, StatusWriter.fields])]
      exact spotSchedule
  | spotSchedule s =>
    have hother : ∀ {name : String}, name ≠ "spotSchedule" →
        (doc.mergePatch ((StatusPatch.spotSchedule s).toJson rfc3339)).get name = doc.get name :=
      fun hname => hframe (by simpa [StatusPatch.writer, StatusWriter.fields] using hname)
    refine ⟨?_, ?_, ?_, ?_, ?_, ?_, ?_, ?_, ?_⟩
    case refine_9 =>
      rw [StatusPatch.get_merge (List.mem_singleton_self _) rfl]
      exact holds_mergeSpotSchedule s spotSchedule
    all_goals
      rw [hother (by decide)]
      assumption
  | machineRefs providerId' nodeRef' =>
    have hother : ∀ {name : String}, name ≠ "providerID" → name ≠ "nodeRef" →
        (doc.mergePatch ((StatusPatch.machineRefs providerId' nodeRef').toJson rfc3339)).get name = doc.get name :=
      fun hid href => hframe (by simpa [StatusPatch.writer, StatusWriter.fields] using ⟨hid, href⟩)
    refine ⟨?_, ?_, ?_, ?_, ?_, ?_, ?_, ?_, ?_⟩
    case refine_3 =>
      cases providerId' with
      | none =>
        rw [StatusPatch.get_skip (by simp [StatusPatch.fields])]
        exact providerId
      | some id => exact StatusPatch.get_merge_flat (by simp [StatusPatch.fields]) rfl rfl
    case refine_8 =>
      cases nodeRef' with
      | none =>
        rw [StatusPatch.get_skip (by simp [StatusPatch.fields])]
        exact nodeRef
      | some r =>
        rw [StatusPatch.get_merge (by simp [StatusPatch.fields]; rfl) rfl]
        exact holds_mergeNodeRef r nodeRef
    all_goals
      rw [hother (by decide) (by decide)]
      assumption
  | appliedNodeTaints applied =>
    have hother : ∀ {name : String}, name ≠ "appliedNodeTaints" →
        (doc.mergePatch ((StatusPatch.appliedNodeTaints applied).toJson rfc3339)).get name = doc.get name :=
      fun hname => hframe (by simpa [StatusPatch.writer, StatusWriter.fields] using hname)
    refine ⟨?_, ?_, ?_, ?_, ?_, ?_, ?_, ?_, ?_⟩
    case refine_7 =>
      rw [StatusPatch.get_merge_flat (List.mem_singleton_self _) rfl rfl]
      rfl
    all_goals
      rw [hother (by decide)]
      assumption

end

end FiveSpot
