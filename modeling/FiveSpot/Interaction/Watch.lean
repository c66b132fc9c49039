import Mathlib.Data.List.Basic

/-! # Watch streams

A watch announces the objects of a collection. After a gap it lists what exists now, framed by `init` and
`initDone`; what has vanished in the gap is never reported.
-/

namespace FiveSpot.Interaction

set_option autoImplicit false

inductive WatchEvent (α : Type) where
  | init
  | initApply (object : α)
  | initDone
  | apply (object : α)
  | delete (object : α)

inductive WatchStep (α : Type) where
  | relist (objects : List α)
  | apply (object : α)
  | delete (object : α)

variable {α κ β σ : Type}

def WatchStep.events : WatchStep α → List (WatchEvent α)
  | .relist objects => .init :: objects.map .initApply ++ [.initDone]
  | .apply object => [.apply object]
  | .delete object => [.delete object]

def streamOf (steps : List (WatchStep α)) : List (WatchEvent α) := steps.flatMap WatchStep.events

theorem streamOf_append (before after : List (WatchStep α)) :
    streamOf (before ++ after) = streamOf before ++ streamOf after := List.flatMap_append

theorem streamOf_relist (objects : List α) :
    streamOf [.relist objects] = .init :: (objects.map .initApply ++ [.initDone]) := by
  simp [streamOf, WatchStep.events]

/-! ## The last word -/

section

variable [DecidableEq κ] (key : α → κ) (value : α → Option β)

def hear (k : κ) (known : Option β) : WatchEvent α → Option β
  | .initApply object | .apply object => if key object = k then value object else known
  | .delete object => if key object = k then none else known
  | .init | .initDone => known

/-- What the stream has last said about the key. -/
def lastWord (stream : List (WatchEvent α)) (k : κ) : Option β := stream.foldl (hear key value k) none

/-- What a listing says about the key. -/
def listing (objects : List α) (k : κ) : Option β :=
  objects.foldl (fun found object => if key object = k then value object else found) none

variable {key value}

theorem lastWord_append (stream later : List (WatchEvent α)) (k : κ) :
    lastWord key value (stream ++ later) k = later.foldl (hear key value k) (lastWord key value stream k) :=
  List.foldl_append

theorem heard_relist (objects : List α) (k : κ) (known : Option β) :
    (streamOf [.relist objects]).foldl (hear key value k) known =
      objects.foldl (fun found object => if key object = k then value object else found) known := by
  rw [streamOf_relist, List.foldl_cons, List.foldl_append, List.foldl_map]
  rfl

theorem heard_of_listed {objects : List α} {k : κ} (h : k ∈ objects.map key) (known : Option β) :
    objects.foldl (fun found object => if key object = k then value object else found) known =
      listing key value objects k := by
  unfold listing
  induction objects generalizing known with
  | nil => cases h
  | cons object objects ih =>
    rw [List.foldl_cons, List.foldl_cons]
    by_cases hlisted : k ∈ objects.map key
    · exact (ih hlisted _).trans (ih hlisted _).symm
    · have hobject : key object = k := by
        rcases List.mem_cons.mp h with hhead | htail
        · exact hhead.symm
        · exact absurd htail hlisted
      rw [if_pos hobject, if_pos hobject]

theorem heard_of_not_listed {objects : List α} {k : κ} (h : k ∉ objects.map key) (known : Option β) :
    objects.foldl (fun found object => if key object = k then value object else found) known = known := by
  induction objects generalizing known with
  | nil => rfl
  | cons object objects ih =>
    rw [List.map_cons, List.mem_cons, not_or] at h
    rw [List.foldl_cons, ih h.2, if_neg (Ne.symm h.1)]

theorem listing_eq_none {objects : List α} {k : κ} (h : k ∉ objects.map key) : listing key value objects k = none :=
  heard_of_not_listed h none

theorem listing_eq_some {objects : List α} (hdistinct : (objects.map key).Nodup) {k : κ} {b : β} :
    listing key value objects k = some b ↔ ∃ object ∈ objects, key object = k ∧ value object = some b := by
  constructor
  · intro h
    by_cases hlisted : k ∈ objects.map key
    · induction objects with
      | nil => cases hlisted
      | cons object objects ih =>
        rw [List.map_cons, List.nodup_cons] at hdistinct
        rw [listing, List.foldl_cons] at h
        by_cases htail : k ∈ objects.map key
        · rw [heard_of_listed htail] at h
          obtain ⟨found, hfound, hkey⟩ := ih hdistinct.2 h htail
          exact ⟨found, List.mem_cons_of_mem _ hfound, hkey⟩
        · rw [heard_of_not_listed htail] at h
          by_cases hobject : key object = k
          · rw [if_pos hobject] at h
            exact ⟨object, List.mem_cons_self, hobject, h⟩
          · rw [if_neg hobject] at h
            cases h
    · rw [listing_eq_none hlisted] at h
      cases h
  · rintro ⟨object, hobject, hkey, hvalue⟩
    induction objects with
    | nil => cases hobject
    | cons first objects ih =>
      rw [List.map_cons, List.nodup_cons] at hdistinct
      rw [listing, List.foldl_cons]
      rcases List.mem_cons.mp hobject with rfl | htail
      · have hnot : k ∉ objects.map key := by
          rw [← hkey]
          exact hdistinct.1
        rw [heard_of_not_listed hnot, if_pos hkey, hvalue]
      · have hlisted : k ∈ objects.map key := List.mem_map.mpr ⟨object, htail, hkey⟩
        rw [heard_of_listed hlisted]
        exact ih hdistinct.2 htail

/-- After a relist the last word is what is listed, if and only if nothing known has vanished. -/
theorem relist_exact_iff (stream : List (WatchEvent α)) (objects : List α) :
    (∀ k, lastWord key value (stream ++ streamOf [.relist objects]) k = listing key value objects k) ↔
      ∀ k, lastWord key value stream k ≠ none → k ∈ objects.map key := by
  constructor
  · intro h k hknown
    by_contra hmissing
    have hsame := h k
    rw [lastWord_append, heard_relist, heard_of_not_listed hmissing, listing_eq_none hmissing] at hsame
    exact hknown hsame
  · intro h k
    rw [lastWord_append, heard_relist]
    by_cases hlisted : k ∈ objects.map key
    · exact heard_of_listed hlisted _
    · have hunknown : lastWord key value stream k = none := by
        by_contra hknown
        exact hlisted (h k hknown)
      rw [heard_of_not_listed hlisted, hunknown, listing_eq_none hlisted]

end

end FiveSpot.Interaction
