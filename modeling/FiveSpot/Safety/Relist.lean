import FiveSpot.Cluster.Run
import FiveSpot.Providers.ReverseIndex

/-! # The reverse index after a relist

A relist only adds to the index. A resource that was deleted while the watch was disconnected is not part of
it and is not reported either, so the index keeps it, and the kind of its provider stays watched.
-/

namespace FiveSpot

set_option autoImplicit false

open Interaction

/-- The index holds the listed resources, each under its provider, and their kinds are watched. -/
structure IndexHolds (objects : List ScheduledMachine) (manager : SpotScheduleWatchManager) : Prop where
  refs : ∀ sm key, sm ∈ manager.index.lookup key ↔ ∃ object ∈ objects, object.ref = sm ∧ providerKeyFor object = some key
  watchers : ∀ gvk, gvk ∈ manager.watchers ↔ ∃ object ∈ objects, ∃ key, providerKeyFor object = some key ∧ key.gvk = gvk

/-- Whenever a relist ends, the index holds what was listed. -/
def RelistsExact (history : List (WatchStep ScheduledMachine)) : Prop :=
  ∀ before objects, before ++ [.relist objects] <+: history →
    IndexHolds objects (.run (streamOf (before ++ [.relist objects])))

/-- Every resource known with a provider when a relist begins is listed again. -/
def NothingVanishes (history : List (WatchStep ScheduledMachine)) : Prop :=
  ∀ before objects, before ++ [.relist objects] <+: history → ∀ sm,
    lastWord ScheduledMachine.ref providerKeyFor (streamOf before) sm ≠ none → sm ∈ objects.map ScheduledMachine.ref

/-- A listing names each resource once. -/
def ListsOnce (history : List (WatchStep ScheduledMachine)) : Prop :=
  ∀ objects, .relist objects ∈ history → (objects.map ScheduledMachine.ref).Nodup

namespace SpotScheduleWatchManager

variable (manager : SpotScheduleWatchManager)

theorem syncWatchers_watchers : manager.syncWatchers.watchers = manager.index.referencedGvks := by
  ext gvk
  simp only [syncWatchers, Finset.mem_union, Finset.mem_filter]
  constructor
  · rintro (⟨-, hreferenced⟩ | ⟨hreferenced, -⟩)
    · exact hreferenced
    · exact hreferenced
  · intro hreferenced
    by_cases hrunning : gvk ∈ manager.watchers
    · exact .inl ⟨hrunning, hreferenced⟩
    · exact .inr ⟨hreferenced, hrunning⟩

theorem smKey_onEvent (event : WatchEvent ScheduledMachine) (sm : ScheduledMachineRef) :
    (manager.onEvent event).index.smKey.lookup sm =
      hear ScheduledMachine.ref providerKeyFor sm (manager.index.smKey.lookup sm) event := by
  have hobserve : ∀ object, (manager.observeScheduledMachine object).index.smKey.lookup sm =
      if object.ref = sm then providerKeyFor object else manager.index.smKey.lookup sm := by
    intro object
    rw [observeScheduledMachine, syncWatchers]
    cases providerKeyFor object with
    | none =>
      simp only [ReverseIndex.smKey_deregister, eq_comm]
    | some key =>
      simp only [ReverseIndex.smKey_register, eq_comm]
  cases event with
  | init => rfl
  | initDone => rfl
  | apply object => exact hobserve object
  | initApply object => exact hobserve object
  | delete object =>
    simp only [onEvent, forgetScheduledMachine, syncWatchers, ReverseIndex.smKey_deregister, hear, eq_comm]

theorem watchers_onEvent (event : WatchEvent ScheduledMachine) (h : manager.watchers = manager.index.referencedGvks) :
    (manager.onEvent event).watchers = (manager.onEvent event).index.referencedGvks := by
  cases event with
  | init => exact h
  | initDone => exact h
  | apply object => exact syncWatchers_watchers _
  | initApply object => exact syncWatchers_watchers _
  | delete object => exact syncWatchers_watchers _

theorem smKey_run (stream : List (WatchEvent ScheduledMachine)) (sm : ScheduledMachineRef) :
    (run stream).index.smKey.lookup sm = lastWord ScheduledMachine.ref providerKeyFor stream sm := by
  have hfold : ∀ manager : SpotScheduleWatchManager, (stream.foldl onEvent manager).index.smKey.lookup sm =
      stream.foldl (hear ScheduledMachine.ref providerKeyFor sm) (manager.index.smKey.lookup sm) := by
    induction stream with
    | nil => exact fun _ => rfl
    | cons event stream ih =>
      intro manager
      rw [List.foldl_cons, ih, smKey_onEvent, List.foldl_cons]
  rw [run, hfold, lastWord]
  simp [new, ReverseIndex.empty]

theorem watchers_run (stream : List (WatchEvent ScheduledMachine)) :
    (run stream).watchers = (run stream).index.referencedGvks := by
  have hfold : ∀ manager : SpotScheduleWatchManager, manager.watchers = manager.index.referencedGvks →
      (stream.foldl onEvent manager).watchers = (stream.foldl onEvent manager).index.referencedGvks := by
    induction stream with
    | nil => exact fun _ h => h
    | cons event stream ih => exact fun manager h => ih _ (manager.watchers_onEvent event h)
  exact hfold .new rfl

end SpotScheduleWatchManager

theorem indexHolds_iff {objects : List ScheduledMachine} (hdistinct : (objects.map ScheduledMachine.ref).Nodup)
    (stream : List (WatchEvent ScheduledMachine)) : IndexHolds objects (.run stream) ↔
      ∀ sm, lastWord ScheduledMachine.ref providerKeyFor stream sm =
        listing ScheduledMachine.ref providerKeyFor objects sm := by
  have hlookup : ∀ sm key, sm ∈ (SpotScheduleWatchManager.run stream).index.lookup key ↔
      lastWord ScheduledMachine.ref providerKeyFor stream sm = some key := by
    intro sm key
    rw [← SpotScheduleWatchManager.smKey_run]
    exact ReverseIndex.agree _ sm key
  constructor
  · intro h sm
    apply Option.ext
    intro key
    rw [← hlookup, h.refs, listing_eq_some hdistinct]
  · intro h
    have hsome : ∀ sm key, lastWord ScheduledMachine.ref providerKeyFor stream sm = some key ↔
        ∃ object ∈ objects, object.ref = sm ∧ providerKeyFor object = some key := by
      intro sm key
      rw [h, listing_eq_some hdistinct]
    constructor
    · intro sm key
      rw [hlookup, hsome]
    · intro gvk
      rw [SpotScheduleWatchManager.watchers_run, ReverseIndex.mem_referencedGvks]
      constructor
      · rintro ⟨sm, key, hkey, hgvk⟩
        rw [SpotScheduleWatchManager.smKey_run, hsome] at hkey
        obtain ⟨object, hobject, -, hprovider⟩ := hkey
        exact ⟨object, hobject, key, hprovider, hgvk⟩
      · rintro ⟨object, hobject, key, hprovider, hgvk⟩
        refine ⟨object.ref, key, ?_, hgvk⟩
        rw [SpotScheduleWatchManager.smKey_run, hsome]
        exact ⟨object, hobject, rfl, hprovider⟩

/-- For every history of the watch: the index is exact after each relist if and only if no resource it knows
has vanished unreported. -/
theorem relists_exact_iff {history : List (WatchStep ScheduledMachine)} (honce : ListsOnce history) :
    RelistsExact history ↔ NothingVanishes history := by
  have hiff : ∀ before objects, before ++ [.relist objects] <+: history →
      (IndexHolds objects (.run (streamOf (before ++ [.relist objects]))) ↔ ∀ sm,
        lastWord ScheduledMachine.ref providerKeyFor (streamOf before) sm ≠ none →
          sm ∈ objects.map ScheduledMachine.ref) := by
    intro before objects hinitial
    have hmem : .relist objects ∈ history := hinitial.subset (List.mem_append_right _ (List.mem_singleton_self _))
    rw [indexHolds_iff (honce objects hmem), streamOf_append]
    exact relist_exact_iff _ _
  constructor
  · intro h before objects hinitial
    exact (hiff before objects hinitial).mp (h before objects hinitial)
  · intro h before objects hinitial
    exact (hiff before objects hinitial).mpr (h before objects hinitial)

/-! ## Two histories -/

theorem relists_exact_first : RelistsExact [.relist [demoMachine]] := by
  have honce : ListsOnce [.relist [demoMachine]] := by
    intro objects hmem
    cases List.mem_singleton.mp hmem
    exact List.nodup_singleton _
  refine (relists_exact_iff honce).mpr ?_
  intro before objects hinitial sm hknown
  have hlength := hinitial.length_le
  rw [List.length_append] at hlength
  have hbefore : before = [] := List.length_eq_zero_iff.mp (Nat.le_zero.mp (Nat.le_of_succ_le_succ hlength))
  rw [hbefore] at hknown
  exact absurd rfl hknown

/-- The resource was deleted while the watch was disconnected, and stays in the index. -/
theorem vanished_machine_stays :
    ¬∀ history : List (WatchStep ScheduledMachine), ListsOnce history → RelistsExact history := by
  intro hexact
  have honce : ListsOnce [.relist [demoMachine], .relist []] := by
    intro objects hmem
    rcases List.mem_cons.mp hmem with hfirst | hsecond
    · cases hfirst
      exact List.nodup_singleton _
    · cases List.mem_singleton.mp hsecond
      exact List.nodup_nil
  have hholds := hexact _ honce [.relist [demoMachine]] [] (List.prefix_refl _)
  have hstays : demoMachine.ref ∈ (SpotScheduleWatchManager.run
      (streamOf [.relist [demoMachine], .relist []])).index.lookup
        ⟨⟨"spotschedules.5spot.finos.org", "v1alpha1", "TimeSchedule"⟩, "team", "work"⟩ := by decide +kernel
  obtain ⟨object, hobject, -⟩ := (hholds.refs _ _).mp hstays
  cases hobject

end FiveSpot
