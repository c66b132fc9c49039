import Mathlib.Data.Finset.Basic
import Mathlib.Data.Finset.Image
import Mathlib.Data.List.AList
import FiveSpot.Interaction.Watch
import FiveSpot.Helpers.Validation

/-! # The reverse index of spot-schedule providers (`src/reconcilers/spot_schedule_watch.rs`)

Which resources refer to which provider, and the kinds of provider that are watched for them.
-/

namespace FiveSpot

set_option autoImplicit false

open Interaction

structure GroupVersionKind where
  group : String
  version : String
  kind : String
  deriving DecidableEq

structure ProviderKey where
  gvk : GroupVersionKind
  ns : String
  name : String
  deriving DecidableEq

/-- `ObjectRef::from_obj` of a `ScheduledMachine`. -/
structure ScheduledMachineRef where
  ns : Option String
  name : String
  deriving DecidableEq

def ScheduledMachine.ref (sm : ScheduledMachine) : ScheduledMachineRef := ⟨sm.metadata.ns, sm.metadata.name⟩

def providerKeyFor (sm : ScheduledMachine) : Option ProviderKey := do
  let ns ← sm.metadata.ns
  let (group, version) ← Text.splitOnce '/' sm.spec.schedule.apiVersion
  return ⟨⟨group, version, sm.spec.schedule.kind⟩, ns, sm.spec.schedule.name⟩

/-! ## References to providers -/

abbrev ProviderRefs := AList fun _ : ProviderKey => Finset ScheduledMachineRef

def ProviderRefs.at (refs : ProviderRefs) (key : ProviderKey) : Finset ScheduledMachineRef :=
  (refs.lookup key).getD ∅

/-- No provider is listed without anybody who refers to it. -/
def ProviderRefs.Inhabited (refs : ProviderRefs) : Prop := ∀ key, refs.lookup key ≠ some ∅

def ProviderRefs.add (refs : ProviderRefs) (sm : ScheduledMachineRef) (key : ProviderKey) : ProviderRefs :=
  refs.insert key (insert sm (refs.at key))

def removeFromRefs (refs : ProviderRefs) (sm : ScheduledMachineRef) (key : ProviderKey) : ProviderRefs :=
  match refs.lookup key with
  | some set => if set.erase sm = ∅ then refs.erase key else refs.insert key (set.erase sm)
  | none => refs

section

variable {refs : ProviderRefs} {sm other : ScheduledMachineRef} {key k : ProviderKey}

theorem ProviderRefs.mem_at_add : other ∈ (refs.add sm key).at k ↔ other ∈ refs.at k ∨ other = sm ∧ k = key := by
  by_cases hkey : k = key
  · subst hkey
    simp [ProviderRefs.at, ProviderRefs.add, or_comm]
  · simp [ProviderRefs.at, ProviderRefs.add, hkey]

theorem ProviderRefs.Inhabited.add (h : refs.Inhabited) : (refs.add sm key).Inhabited := by
  intro k
  by_cases hkey : k = key
  · subst hkey
    simp [ProviderRefs.add]
  · rw [ProviderRefs.add, AList.lookup_insert_ne hkey]
    exact h k

theorem mem_at_removeFromRefs : other ∈ (removeFromRefs refs sm key).at k ↔ other ∈ refs.at k ∧ ¬(other = sm ∧ k = key) := by
  unfold removeFromRefs
  cases hlookup : refs.lookup key with
  | none =>
    by_cases hkey : k = key
    · subst hkey
      simp [ProviderRefs.at, hlookup]
    · simp [hkey]
  | some set =>
    by_cases hkey : k = key
    · subst hkey
      by_cases hleft : set.erase sm = ∅
      · simp only [hleft, if_true, ProviderRefs.at, AList.lookup_erase, hlookup, Option.getD_some, Option.getD_none]
        have hmem : other ∈ set.erase sm ↔ other ∈ (∅ : Finset ScheduledMachineRef) := by rw [hleft]
        rw [Finset.mem_erase] at hmem
        rw [← hmem]
        tauto
      · simp [hleft, ProviderRefs.at, hlookup, and_comm]
    · by_cases hleft : set.erase sm = ∅ <;> simp [hleft, ProviderRefs.at, hkey]

theorem ProviderRefs.Inhabited.remove (h : refs.Inhabited) : (removeFromRefs refs sm key).Inhabited := by
  unfold removeFromRefs
  cases refs.lookup key with
  | none => exact h
  | some set =>
    intro k
    by_cases hkey : k = key
    · subst hkey
      by_cases hleft : set.erase sm = ∅ <;> simp [hleft]
    · by_cases hleft : set.erase sm = ∅
      · simp only [hleft, if_true, AList.lookup_erase_ne hkey]
        exact h k
      · simp only [hleft, if_false, AList.lookup_insert_ne hkey]
        exact h k

end

/-! ## The index -/

abbrev KeyOf := AList fun _ : ScheduledMachineRef => ProviderKey

/-- Both directions are kept in step. -/
structure ReverseIndex where
  refs : ProviderRefs
  smKey : KeyOf
  agree : ∀ sm key, sm ∈ refs.at key ↔ smKey.lookup sm = some key
  inhabited : refs.Inhabited

def ReverseIndex.empty : ReverseIndex where
  refs := ∅
  smKey := ∅
  agree := by simp [ProviderRefs.at]
  inhabited := by simp [ProviderRefs.Inhabited]

namespace ReverseIndex

variable (index : ReverseIndex)

/-- The references without those of `sm` to its present provider, unless that is `key`. -/
def withoutPrevious (sm : ScheduledMachineRef) (key : ProviderKey) : ProviderRefs :=
  match index.smKey.lookup sm with
  | some previous => if previous ≠ key then removeFromRefs index.refs sm previous else index.refs
  | none => index.refs

theorem mem_withoutPrevious {sm other : ScheduledMachineRef} {key k : ProviderKey} :
    other ∈ (index.withoutPrevious sm key).at k ↔ index.smKey.lookup other = some k ∧ ¬(other = sm ∧ k ≠ key) := by
  unfold withoutPrevious
  cases hlookup : index.smKey.lookup sm with
  | none =>
    rw [index.agree]
    constructor
    · intro hother
      refine ⟨hother, ?_⟩
      rintro ⟨rfl, -⟩
      rw [hlookup] at hother
      cases hother
    · exact And.left
  | some previous =>
    by_cases hprevious : previous = key
    · simp only [hprevious, ne_eq, not_true_eq_false, if_false, index.agree]
      constructor
      · intro hother
        refine ⟨hother, ?_⟩
        rintro ⟨rfl, hne⟩
        rw [hlookup, hprevious] at hother
        exact hne (Option.some.inj hother).symm
      · exact And.left
    · simp only [ne_eq, hprevious, not_false_eq_true, if_true, mem_at_removeFromRefs, index.agree]
      constructor
      · rintro ⟨hother, hkept⟩
        refine ⟨hother, ?_⟩
        rintro ⟨rfl, -⟩
        rw [hlookup] at hother
        exact hkept ⟨rfl, (Option.some.inj hother).symm⟩
      · rintro ⟨hother, hkept⟩
        refine ⟨hother, ?_⟩
        rintro ⟨rfl, rfl⟩
        exact hkept ⟨rfl, hprevious⟩

def register (sm : ScheduledMachineRef) (key : ProviderKey) : ReverseIndex where
  refs := (index.withoutPrevious sm key).add sm key
  smKey := index.smKey.insert sm key
  agree := by
    intro other k
    rw [ProviderRefs.mem_at_add, mem_withoutPrevious]
    by_cases hother : other = sm
    · subst hother
      rw [AList.lookup_insert, Option.some.injEq]
      constructor
      · rintro (⟨-, hsame⟩ | ⟨-, rfl⟩)
        · by_contra hne
          exact hsame ⟨rfl, Ne.symm hne⟩
        · rfl
      · rintro rfl
        exact .inr ⟨rfl, rfl⟩
    · rw [AList.lookup_insert_ne hother]
      simp [hother]
  inhabited := by
    refine ProviderRefs.Inhabited.add ?_
    unfold withoutPrevious
    split
    · split
      · exact index.inhabited.remove
      · exact index.inhabited
    · exact index.inhabited

def deregister (sm : ScheduledMachineRef) : ReverseIndex :=
  match hlookup : index.smKey.lookup sm with
  | none => index
  | some key =>
    { refs := removeFromRefs index.refs sm key
      smKey := index.smKey.erase sm
      agree := by
        intro other k
        rw [mem_at_removeFromRefs, index.agree]
        by_cases hother : other = sm
        · subst hother
          rw [AList.lookup_erase, hlookup]
          constructor
          · rintro ⟨hsome, hkept⟩
            exact absurd ⟨rfl, (Option.some.inj hsome).symm⟩ hkept
          · intro hnone
            cases hnone
        · rw [AList.lookup_erase_ne hother]
          simp [hother]
      inhabited := index.inhabited.remove }

def lookup (key : ProviderKey) : Finset ScheduledMachineRef := index.refs.at key

def referencedGvks : Finset GroupVersionKind := (index.refs.keys.map ProviderKey.gvk).toFinset

theorem smKey_register (sm other : ScheduledMachineRef) (key : ProviderKey) :
    (index.register sm key).smKey.lookup other = if other = sm then some key else index.smKey.lookup other := by
  by_cases hother : other = sm
  · subst hother
    simp [register]
  · simp [register, hother]

theorem smKey_deregister (sm other : ScheduledMachineRef) :
    (index.deregister sm).smKey.lookup other = if other = sm then none else index.smKey.lookup other := by
  unfold deregister
  split
  · rename_i hlookup
    by_cases hother : other = sm
    · subst hother
      simpa using hlookup
    · simp [hother]
  · by_cases hother : other = sm
    · subst hother
      simp
    · simp [hother]

theorem mem_referencedGvks {gvk : GroupVersionKind} :
    gvk ∈ index.referencedGvks ↔ ∃ sm key, index.smKey.lookup sm = some key ∧ key.gvk = gvk := by
  simp only [referencedGvks, List.mem_toFinset, List.mem_map]
  constructor
  · rintro ⟨key, hkey, rfl⟩
    obtain ⟨set, hset⟩ := Option.isSome_iff_exists.mp (AList.lookup_isSome.mpr (AList.mem_keys.mpr hkey))
    have hne : set ≠ ∅ := by
      rintro rfl
      exact index.inhabited key hset
    obtain ⟨sm, hsm⟩ := Finset.nonempty_iff_ne_empty.mpr hne
    refine ⟨sm, key, (index.agree sm key).mp ?_, rfl⟩
    rw [ProviderRefs.at, hset]
    exact hsm
  · rintro ⟨sm, key, hsm, rfl⟩
    refine ⟨key, ?_, rfl⟩
    have hmem := (index.agree sm key).mpr hsm
    rw [← AList.mem_keys, ← AList.lookup_isSome]
    cases hlookup : index.refs.lookup key with
    | none =>
      rw [ProviderRefs.at, hlookup] at hmem
      cases hmem
    | some set => rfl

end ReverseIndex

/-! ## The watch manager -/

/-- The index, and the kinds a watcher runs for. -/
structure SpotScheduleWatchManager where
  index : ReverseIndex
  watchers : Finset GroupVersionKind

def SpotScheduleWatchManager.new : SpotScheduleWatchManager := ⟨.empty, ∅⟩

namespace SpotScheduleWatchManager

/-- Watchers whose kind is no longer referred to are aborted, missing ones are spawned. -/
def syncWatchers (manager : SpotScheduleWatchManager) : SpotScheduleWatchManager :=
  { manager with
    watchers := (manager.watchers.filter fun gvk => gvk ∈ manager.index.referencedGvks) ∪
      manager.index.referencedGvks.filter fun gvk => gvk ∉ manager.watchers }

def observeScheduledMachine (manager : SpotScheduleWatchManager) (sm : ScheduledMachine) : SpotScheduleWatchManager :=
  syncWatchers { manager with index := match providerKeyFor sm with
    | some key => manager.index.register sm.ref key
    | none => manager.index.deregister sm.ref }

def forgetScheduledMachine (manager : SpotScheduleWatchManager) (sm : ScheduledMachine) : SpotScheduleWatchManager :=
  syncWatchers { manager with index := manager.index.deregister sm.ref }

/-- The reflector loop of `main.rs`. -/
def onEvent (manager : SpotScheduleWatchManager) : WatchEvent ScheduledMachine → SpotScheduleWatchManager
  | .apply sm | .initApply sm => manager.observeScheduledMachine sm
  | .delete sm => manager.forgetScheduledMachine sm
  | .init | .initDone => manager

def run (stream : List (WatchEvent ScheduledMachine)) : SpotScheduleWatchManager := stream.foldl onEvent .new

end SpotScheduleWatchManager

end FiveSpot
