import FiveSpot.Interaction.TaskTable
import FiveSpot.Providers.ReverseIndex

/-! # The reverse index over all its operations

Whatever the operations, the index is the last registration of each resource read backwards. Here the manager
also keeps the tasks of its watchers, which run until they are aborted.
-/

namespace FiveSpot

set_option autoImplicit false

open Interaction

inductive IndexOp where
  | register (sm : ScheduledMachineRef) (key : ProviderKey)
  | deregister (sm : ScheduledMachineRef)
  | observe (sm : ScheduledMachine)
  | forget (sm : ScheduledMachine)

/-- Which resource an operation is about, and the provider it has afterwards. -/
def IndexOp.effect : IndexOp → ScheduledMachineRef × Option ProviderKey
  | .register sm key => (sm, some key)
  | .deregister sm => (sm, none)
  | .observe sm => (sm.ref, providerKeyFor sm)
  | .forget sm => (sm.ref, none)

def IndexOp.syncs : IndexOp → Bool
  | .observe _ | .forget _ => true
  | _ => false

/-- The provider of the last registration, unless a deregistration came after it. -/
def lastRegistration (ops : List IndexOp) (sm : ScheduledMachineRef) : Option ProviderKey :=
  (ops.reverse.find? fun op => op.effect.1 == sm).bind fun op => op.effect.2

/-- The watch manager with its watchers as tasks. -/
structure WatcherManager where
  index : ReverseIndex
  tasks : TaskTable GroupVersionKind

namespace WatcherManager

def new : WatcherManager := ⟨.empty, .empty⟩

def syncWatchers (manager : WatcherManager) : WatcherManager :=
  { manager with tasks := manager.tasks.sync (manager.index.refs.keys.map ProviderKey.gvk).dedup }

def apply (manager : WatcherManager) : IndexOp → WatcherManager
  | .register sm key => { manager with index := manager.index.register sm key }
  | .deregister sm => { manager with index := manager.index.deregister sm }
  | .observe sm => syncWatchers { manager with index := match providerKeyFor sm with
      | some key => manager.index.register sm.ref key
      | none => manager.index.deregister sm.ref }
  | .forget sm => syncWatchers { manager with index := manager.index.deregister sm.ref }

def run (ops : List IndexOp) : WatcherManager := ops.foldl apply new

/-- The manager that knows the kinds of its watchers only. -/
def toManager (manager : WatcherManager) : SpotScheduleWatchManager :=
  ⟨manager.index, (manager.tasks.handles.map Prod.fst).toFinset⟩

variable (manager : WatcherManager)

theorem mem_desired {gvk : GroupVersionKind} :
    gvk ∈ (manager.index.refs.keys.map ProviderKey.gvk).dedup ↔ gvk ∈ manager.index.referencedGvks := by
  rw [List.mem_dedup, ReverseIndex.referencedGvks, List.mem_toFinset]

theorem toManager_syncWatchers : manager.syncWatchers.toManager = manager.toManager.syncWatchers := by
  rw [toManager, SpotScheduleWatchManager.syncWatchers]
  congr 1
  ext gvk
  rw [List.mem_toFinset, syncWatchers, TaskTable.mem_keys_sync, mem_desired, Finset.mem_union, Finset.mem_filter,
    Finset.mem_filter]
  change gvk ∈ manager.index.referencedGvks ↔ gvk ∈ manager.toManager.watchers ∧ gvk ∈ manager.index.referencedGvks ∨
    gvk ∈ manager.index.referencedGvks ∧ gvk ∉ manager.toManager.watchers
  tauto

theorem toManager_observe (sm : ScheduledMachine) :
    (manager.apply (.observe sm)).toManager = manager.toManager.observeScheduledMachine sm :=
  toManager_syncWatchers _

theorem toManager_forget (sm : ScheduledMachine) :
    (manager.apply (.forget sm)).toManager = manager.toManager.forgetScheduledMachine sm :=
  toManager_syncWatchers _

theorem smKey_apply (op : IndexOp) (sm : ScheduledMachineRef) :
    (manager.apply op).index.smKey.lookup sm = if sm = op.effect.1 then op.effect.2 else manager.index.smKey.lookup sm := by
  cases op with
  | register other key => exact ReverseIndex.smKey_register _ _ _ _
  | deregister other => exact ReverseIndex.smKey_deregister _ _ _
  | observe other =>
    change (match providerKeyFor other with
      | some key => manager.index.register other.ref key
      | none => manager.index.deregister other.ref).smKey.lookup sm = if sm = other.ref then providerKeyFor other else _
    cases providerKeyFor other with
    | some key => exact ReverseIndex.smKey_register _ _ _ _
    | none => exact ReverseIndex.smKey_deregister _ _ _
  | forget other => exact ReverseIndex.smKey_deregister _ _ _

theorem run_concat (ops : List IndexOp) (op : IndexOp) : run (ops ++ [op]) = (run ops).apply op := by
  rw [run, List.foldl_append]
  rfl

theorem smKey_run (ops : List IndexOp) (sm : ScheduledMachineRef) :
    (run ops).index.smKey.lookup sm = lastRegistration ops sm := by
  induction ops using List.reverseRecOn with
  | nil => rfl
  | append_singleton ops op ih =>
    have hlast : lastRegistration (ops ++ [op]) sm = if sm = op.effect.1 then op.effect.2 else lastRegistration ops sm := by
      rw [lastRegistration, lastRegistration, List.reverse_append, List.reverse_singleton, List.singleton_append,
        List.find?_cons]
      by_cases hsm : sm = op.effect.1
      · simp [hsm]
      · rw [if_neg hsm, beq_eq_false_iff_ne.mpr (Ne.symm hsm)]
    rw [run_concat, smKey_apply, ih, hlast]

theorem mem_lookup_run {ops : List IndexOp} {key : ProviderKey} {sm : ScheduledMachineRef} :
    sm ∈ (run ops).index.lookup key ↔ lastRegistration ops sm = some key := by
  rw [ReverseIndex.lookup, ReverseIndex.agree, smKey_run]

/-- A sync leaves one running watcher for each kind that is referred to. -/
theorem count_watchers {op : IndexOp} (h : op.syncs = true) (gvk : GroupVersionKind) :
    ((manager.apply op).tasks.running.map Prod.snd).count gvk =
      if gvk ∈ (manager.apply op).index.referencedGvks then 1 else 0 := by
  have hsync : ∀ manager : WatcherManager, (manager.syncWatchers.tasks.running.map Prod.snd).count gvk =
      if gvk ∈ manager.syncWatchers.index.referencedGvks then 1 else 0 := by
    intro manager
    rw [syncWatchers, TaskTable.count_sync]
    exact if_congr (mem_desired manager) rfl rfl
  cases op with
  | register sm key => cases h
  | deregister sm => cases h
  | observe sm => exact hsync _
  | forget sm => exact hsync _

end WatcherManager

/-- After any operations the index holds, for each provider, exactly the resources last registered with it, and
after one that syncs, exactly one watcher runs for each kind of provider with such a resource. -/
theorem reverse_index_invariant (ops : List IndexOp) :
    (∀ key sm, sm ∈ (WatcherManager.run ops).index.lookup key ↔ lastRegistration ops sm = some key) ∧
      (∀ sm key key', sm ∈ (WatcherManager.run ops).index.lookup key → sm ∈ (WatcherManager.run ops).index.lookup key' →
        key = key') ∧
      (∀ key, (WatcherManager.run ops).index.refs.lookup key ≠ some ∅) ∧
      (∀ gvk, gvk ∈ (WatcherManager.run ops).index.referencedGvks ↔
        ∃ sm key, lastRegistration ops sm = some key ∧ key.gvk = gvk) ∧
      ∀ op, op.syncs = true → ∀ gvk,
        ((WatcherManager.run (ops ++ [op])).tasks.running.map Prod.snd).count gvk =
          if gvk ∈ (WatcherManager.run (ops ++ [op])).index.referencedGvks then 1 else 0 := by
  refine ⟨fun key sm => WatcherManager.mem_lookup_run, ?_, (WatcherManager.run ops).index.inhabited, ?_, ?_⟩
  · intro sm key key' hkey hkey'
    rw [WatcherManager.mem_lookup_run] at hkey hkey'
    exact Option.some.inj (hkey.symm.trans hkey')
  · intro gvk
    rw [ReverseIndex.mem_referencedGvks]
    simp only [WatcherManager.smKey_run]
  · intro op hop gvk
    rw [WatcherManager.run_concat]
    exact WatcherManager.count_watchers _ hop gvk

end FiveSpot
