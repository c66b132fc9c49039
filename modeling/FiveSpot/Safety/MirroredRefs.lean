import FiveSpot.Providers.Windows
import FiveSpot.Safety.SpotStatus

/-! # The mirrored reference to the Node

A Machine's `nodeRef` is merged into the status. The uid is left out when the Machine has none, and the stored
one then stays, whichever Node it was recorded for.
-/

namespace FiveSpot

set_option autoImplicit false

open Interaction

section

variable {rfc3339 : Time → String} {now : Time} {ns name : String} {doc doc' machine : Json} {r : NodeRef}

theorem doc_of_patchMachineRefs {providerId : Option String} {x : Except ReconcilerError Unit}
    (h : (patchMachineRefsStatus ns name providerId (some r)).Runs (StatusServer rfc3339 now) doc doc' x) :
    doc' = doc.mergePatch ((StatusPatch.machineRefs providerId (some r)).toJson rfc3339) := by
  rw [patchMachineRefsStatus, if_neg (by simp)] at h
  cases h with
  | call hserve hrest =>
    cases hserve
    cases hrest
    rfl

theorem get_stored_nodeRef {providerId : Option String} : ∃ stored,
    (doc.mergePatch ((StatusPatch.machineRefs providerId (some r)).toJson rfc3339)).get "nodeRef" = some stored ∧
      ∀ field v, (field, v) ∈ r.fields → stored.get field = v.or ((doc.get "nodeRef").bind (Json.get field)) := by
  have hwritten : ("nodeRef", some (Json.record r.fields)) ∈
      (StatusPatch.machineRefs providerId (some r)).fields rfc3339 := by simp [StatusPatch.fields]
  refine ⟨_, StatusPatch.get_merge hwritten rfl, fun field v hmem => ?_⟩
  exact get_mergePatch_fields r.nodup_fields hmem (NodeRef.flat_fields hmem)

/-- The stored reference is the Machine's exactly when that has a uid or none was stored. -/
theorem stored_nodeRef_iff (href : (extractMachineRefs machine).2 = some r)
    (hrun : (patchMachineRefsStatus ns name (extractMachineRefs machine).1 (extractMachineRefs machine).2).Runs
      (StatusServer rfc3339 now) doc doc' (.ok ())) :
    Holds NodeRef.fields (doc'.get "nodeRef") (some r) ↔
      r.uid.isSome ∨ (doc.get "nodeRef").bind (Json.get "uid") = none := by
  rw [href] at hrun
  rw [doc_of_patchMachineRefs hrun]
  obtain ⟨stored, hstored, hfields⟩ := get_stored_nodeRef
  have huid : ("uid", r.uid.map Json.str) ∈ r.fields := by simp [NodeRef.fields]
  constructor
  · rintro ⟨stored', hstored', hholds⟩
    cases hstored.symm.trans hstored'
    have hsame := (hfields _ _ huid).symm.trans (hholds _ _ huid)
    cases hr : r.uid with
    | some uid => exact .inl rfl
    | none =>
      rw [hr] at hsame
      exact .inr hsame
  · intro hkept
    refine ⟨stored, hstored, fun field v hmem => ?_⟩
    rw [hfields field v hmem]
    cases v with
    | some v => rfl
    | none =>
      -- only the uid may be missing
      simp only [NodeRef.fields, List.mem_cons, Prod.mk.injEq, List.not_mem_nil, or_false, reduceCtorEq, and_false,
        false_or] at hmem
      obtain ⟨rfl, hr⟩ := hmem
      rcases hkept with hsome | hnone
      · cases huid' : r.uid with
        | none =>
          rw [huid'] at hsome
          cases hsome
        | some uid =>
          rw [huid'] at hr
          cases hr
      · exact hnone

end

/-! ## A Node that is replaced -/

/-- A status that records Node `node-a` with its uid. -/
def recordedNode : Json := .obj [("phase", .str "Active"), ("nodeRef", .obj [("apiVersion", .str "v1"),
  ("kind", .str "Node"), ("name", .str "node-a"), ("uid", .str "uid-a")])]

/-- The status of the Machine names a Node and nothing else. -/
def renamedMachine : Json := .obj [("status", .obj [("nodeRef", .obj [("name", .str "node-b")])])]

def replacedMachine : Json :=
  .obj [("status", .obj [("nodeRef", .obj [("name", .str "node-b"), ("uid", .str "uid-b")])])]

theorem runs_patchMachineRefs (rfc3339 : Time → String) (now : Time) (ns name : String) (doc : Json)
    (providerId : Option String) (r : NodeRef) :
    (patchMachineRefsStatus ns name providerId (some r)).Runs (StatusServer rfc3339 now) doc
      (doc.mergePatch ((StatusPatch.machineRefs providerId (some r)).toJson rfc3339)) (.ok ()) := by
  rw [patchMachineRefsStatus, if_neg (by simp)]
  exact .call (.patch doc ns name _) (.pure ())

theorem stored_nodeRef_replaced : Holds NodeRef.fields ((recordedNode.mergePatch ((StatusPatch.machineRefs none
    (some ⟨"v1", "Node", "node-b", some "uid-b"⟩)).toJson toRfc3339)).get "nodeRef")
      (some ⟨"v1", "Node", "node-b", some "uid-b"⟩) := by
  have href : (extractMachineRefs replacedMachine).2 = some ⟨"v1", "Node", "node-b", some "uid-b"⟩ := by decide
  have hrun := runs_patchMachineRefs toRfc3339 0 "team" "spot" recordedNode none ⟨"v1", "Node", "node-b", some "uid-b"⟩
  exact (stored_nodeRef_iff href hrun).mpr (.inl rfl)

/-- The uid of the first Node stays with the second. -/
theorem uid_outlives_node : ∃ doc', (patchMachineRefsStatus "team" "spot" (extractMachineRefs renamedMachine).1
      (extractMachineRefs renamedMachine).2).Runs (StatusServer toRfc3339 0) recordedNode doc' (.ok ()) ∧
    (extractMachineRefs renamedMachine).2 = some ⟨"v1", "Node", "node-b", none⟩ ∧
    (doc'.get "nodeRef").bind (Json.get "name") = some (.str "node-b") ∧
    (doc'.get "nodeRef").bind (Json.get "uid") = some (.str "uid-a") ∧
    ¬Holds NodeRef.fields (doc'.get "nodeRef") (some ⟨"v1", "Node", "node-b", none⟩) := by
  have href : extractMachineRefs renamedMachine = (none, some ⟨"v1", "Node", "node-b", none⟩) := by decide
  rw [href]
  refine ⟨_, runs_patchMachineRefs toRfc3339 0 "team" "spot" recordedNode none ⟨"v1", "Node", "node-b", none⟩, rfl,
    by decide, by decide, ?_⟩
  rintro ⟨stored, hstored, hfields⟩
  have huid : stored.get "uid" = none := hfields "uid" none (by simp [NodeRef.fields])
  have hkept : ((recordedNode.mergePatch ((StatusPatch.machineRefs none
      (some ⟨"v1", "Node", "node-b", none⟩)).toJson toRfc3339)).get "nodeRef").bind (Json.get "uid") =
        some (.str "uid-a") := by decide
  rw [hstored, Option.bind_some, huid] at hkept
  cases hkept

end FiveSpot
