import Mathlib.Data.List.Nodup
import Mathlib.Data.List.Perm.Basic

/-! # Tables of background tasks

One task for each key that is wanted. Tasks run until they are aborted; the table keeps the handle of each, and
what runs is what the table has a handle for.
-/

namespace FiveSpot.Interaction

set_option autoImplicit false

structure TaskTable (κ : Type) where
  handles : List (κ × Nat)
  /-- The tasks that were spawned and not aborted. -/
  running : List (Nat × κ)
  next : Nat
  tied : running.Perm (handles.map Prod.swap)
  keys : (handles.map Prod.fst).Nodup
  ids : (handles.map Prod.snd).Nodup
  fresh : ∀ handle ∈ handles, handle.2 < next

namespace TaskTable

variable {κ : Type}

def empty : TaskTable κ where
  handles := []
  running := []
  next := 0
  tied := .nil
  keys := .nil
  ids := .nil
  fresh := by simp

variable [DecidableEq κ]

/-- Abort the tasks of unwanted keys and forget their handles. -/
def retain (table : TaskTable κ) (wanted : List κ) : TaskTable κ where
  handles := table.handles.filter fun handle => decide (handle.1 ∈ wanted)
  running := table.running.filter fun task =>
    decide (task.1 ∉ (table.handles.filter fun handle => decide (handle.1 ∉ wanted)).map Prod.snd)
  next := table.next
  tied := by
    refine (table.tied.filter _).trans ?_
    rw [List.filter_map]
    refine .of_eq (congrArg _ (List.filter_congr fun handle hhandle => ?_))
    have hkept : handle.2 ∉ (table.handles.filter fun handle => decide (handle.1 ∉ wanted)).map Prod.snd ↔
        handle.1 ∈ wanted := by
      constructor
      · intro hnot
        by_contra hunwanted
        exact hnot (List.mem_map_of_mem (List.mem_filter.mpr ⟨hhandle, decide_eq_true hunwanted⟩))
      · rintro hwanted hmem
        obtain ⟨other, hother, hid⟩ := List.mem_map.mp hmem
        rw [List.mem_filter, decide_eq_true_eq] at hother
        have hsame := List.inj_on_of_nodup_map table.ids hother.1 hhandle hid
        exact hother.2 (hsame ▸ hwanted)
    exact decide_eq_decide.mpr hkept
  keys := table.keys.sublist (List.filter_sublist.map _)
  ids := table.ids.sublist (List.filter_sublist.map _)
  fresh handle hhandle := table.fresh handle (List.mem_of_mem_filter hhandle)

/-- Spawn the task of a key that has none. -/
def spawn (table : TaskTable κ) (key : κ) : TaskTable κ :=
  if hkey : key ∈ table.handles.map Prod.fst then table
  else
    { handles := (key, table.next) :: table.handles
      running := (table.next, key) :: table.running
      next := table.next + 1
      tied := table.tied.cons _
      keys := List.nodup_cons.mpr ⟨hkey, table.keys⟩
      ids := by
        refine List.nodup_cons.mpr ⟨fun hmem => ?_, table.ids⟩
        obtain ⟨handle, hhandle, hid⟩ := List.mem_map.mp hmem
        exact absurd (table.fresh handle hhandle) (by simp [hid])
      fresh := by
        intro handle hhandle
        rcases List.mem_cons.mp hhandle with rfl | hhandle
        · exact Nat.lt_succ_self _
        · exact Nat.lt_succ_of_lt (table.fresh handle hhandle) }

def sync (table : TaskTable κ) (wanted : List κ) : TaskTable κ := wanted.foldl spawn (table.retain wanted)

variable {table : TaskTable κ} {wanted : List κ} {key k : κ}

theorem mem_keys_spawn : k ∈ (table.spawn key).handles.map Prod.fst ↔ k ∈ table.handles.map Prod.fst ∨ k = key := by
  unfold spawn
  split
  · rename_i hkey
    constructor
    · exact .inl
    · rintro (hk | rfl)
      · exact hk
      · exact hkey
  · rw [List.map_cons, List.mem_cons, or_comm]

theorem mem_keys_retain : k ∈ (table.retain wanted).handles.map Prod.fst ↔ k ∈ table.handles.map Prod.fst ∧ k ∈ wanted := by
  constructor
  · intro hk
    obtain ⟨handle, hhandle, rfl⟩ := List.mem_map.mp hk
    rw [retain, List.mem_filter, decide_eq_true_eq] at hhandle
    exact ⟨List.mem_map_of_mem hhandle.1, hhandle.2⟩
  · rintro ⟨hk, hwanted⟩
    obtain ⟨handle, hhandle, rfl⟩ := List.mem_map.mp hk
    exact List.mem_map_of_mem (List.mem_filter.mpr ⟨hhandle, decide_eq_true hwanted⟩)

theorem mem_keys_sync : k ∈ (table.sync wanted).handles.map Prod.fst ↔ k ∈ wanted := by
  have hfold : ∀ (keys : List κ) (table : TaskTable κ), k ∈ (keys.foldl spawn table).handles.map Prod.fst ↔
      k ∈ table.handles.map Prod.fst ∨ k ∈ keys := by
    intro keys
    induction keys with
    | nil => simp
    | cons key keys ih =>
      intro table
      rw [List.foldl_cons, ih, mem_keys_spawn, List.mem_cons, or_assoc]
  rw [sync, hfold, mem_keys_retain]
  tauto

/-- As many tasks run for a key as the table has handles for it, one or none. -/
theorem count_running (table : TaskTable κ) (k : κ) :
    (table.running.map Prod.snd).count k = if k ∈ table.handles.map Prod.fst then 1 else 0 := by
  have hperm : (table.running.map Prod.snd).Perm (table.handles.map Prod.fst) := by
    refine (table.tied.map Prod.snd).trans ?_
    rw [List.map_map]
    exact .of_eq rfl
  rw [hperm.count_eq, table.keys.count]

/-- After a sync exactly one task runs for each wanted key, and none for any other. -/
theorem count_sync (table : TaskTable κ) (wanted : List κ) (k : κ) :
    ((table.sync wanted).running.map Prod.snd).count k = if k ∈ wanted then 1 else 0 := by
  rw [count_running]
  exact if_congr mem_keys_sync rfl rfl

end TaskTable

end FiveSpot.Interaction
