import FiveSpot.Cluster.Run
import FiveSpot.Providers.WatchTasks
import FiveSpot.Safety.Relist

/-! # No wake-up is lost

A resource whose provider has changed is due again once the change has made its way through the provider's watcher,
the reverse index and the channel, whatever connections break and whenever the process is restarted. The index has
to know the resource by then: an event that overtakes the reflector is dispatched to whom the index held before.
-/

namespace FiveSpot

set_option autoImplicit false

open Interaction

/-- An event about the provider of `ref` is dispatched only when the index holds the resource. -/
def Registered (ref : ScheduledMachineRef) (s : WakeState) : WakeAct → Prop
  | .dispatch gvk _ => ∀ event object sm key, (s.tasks gvk).feed.pending.head? = some event →
      event.object? = some object → s.machines.find? ref = some sm → providerKeyFor sm = some key →
      object.key gvk = some key → s.manager.index.smKey.lookup ref = some key
  | _ => True

namespace WakeState

variable {s : WakeState} {ref : ScheduledMachineRef}

/-- The last pass for the resource saw its provider as it is, or there will be another one. -/
def Covered (s : WakeState) (ref : ScheduledMachineRef) (key : ProviderKey) (revision : Nat) : Prop :=
  s.noticed ref = some (key, some revision) ∨ ref ∈ s.due ∨ ref ∈ s.channel ∨ ref ∈ (s.tasks key.gvk).sending ∨
    (s.tasks key.gvk).feed.Owes fun object => object.key key.gvk = some key

structure WakeInvariant (ref : ScheduledMachineRef) (s : WakeState) : Prop where
  unwatched : ∀ gvk, gvk ∉ s.manager.watchers → s.tasks gvk = .spawned
  watched : s.manager.watchers = s.manager.index.referencedGvks
  faithful : s.reflector.Faithful ScheduledMachine.ref providerKeyFor s.machines s.manager.index.smKey.lookup
  covered : ∀ sm key revision, s.machines.find? ref = some sm → providerKeyFor sm = some key →
    s.revisionOf key = some revision → s.Covered ref key revision

/-! ## Tasks -/

theorem tasksAfter_spawned_or_same (manager : SpotScheduleWatchManager) (gvk : GroupVersionKind) :
    s.tasksAfter manager gvk = .spawned ∨ s.tasksAfter manager gvk = s.tasks gvk := by
  unfold tasksAfter
  split
  · exact .inr rfl
  · exact .inl rfl

theorem tellTask_sending (gvk : GroupVersionKind) (event : WatchEvent WatchedProvider) (other : GroupVersionKind) :
    (s.tellTask gvk event other).sending = (s.tasks other).sending := by
  by_cases hother : other = gvk
  · subst hother
    rw [tellTask, Function.update_self]
  · rw [tellTask, Function.update_of_ne hother]

theorem tellTask_owes (gvk : GroupVersionKind) (event : WatchEvent WatchedProvider) {other : GroupVersionKind}
    {about : WatchedProvider → Prop} (h : (s.tasks other).feed.Owes about) :
    (s.tellTask gvk event other).feed.Owes about := by
  by_cases hother : other = gvk
  · subst hother
    rw [tellTask, Function.update_self]
    exact h.tell event
  · rw [tellTask, Function.update_of_ne hother]
    exact h

theorem tellTask_unwatched (gvk : GroupVersionKind) (event : WatchEvent WatchedProvider) {other : GroupVersionKind}
    (h : s.tasks other = .spawned) : s.tellTask gvk event other = .spawned := by
  by_cases hother : other = gvk
  · subst hother
    rw [tellTask, Function.update_self, h]
    rfl
  · rw [tellTask, Function.update_of_ne hother]
    exact h

theorem update_unwatched {gvk : GroupVersionKind} (hgvk : gvk ∈ s.manager.watchers) (task : ProviderTask)
    (h : ∀ gvk, gvk ∉ s.manager.watchers → s.tasks gvk = .spawned) :
    ∀ other, other ∉ s.manager.watchers → Function.update s.tasks gvk task other = .spawned := by
  intro other hother
  have hne : other ≠ gvk := by
    rintro rfl
    exact hother hgvk
  rw [Function.update_of_ne hne]
  exact h other hother

/-- A watcher that changes leaves a resource covered, if what it was to do for the resource is still to be done. -/
theorem Covered.update {key : ProviderKey} {revision : Nat} (h : s.Covered ref key revision) {gvk : GroupVersionKind}
    {task : ProviderTask} (hsending : gvk = key.gvk → ref ∈ (s.tasks gvk).sending → ref ∈ task.sending)
    (howes : gvk = key.gvk → (s.tasks gvk).feed.Owes (fun object => object.key key.gvk = some key) →
      ref ∈ task.sending ∨ task.feed.Owes fun object => object.key key.gvk = some key) :
    Covered { s with tasks := Function.update s.tasks gvk task } ref key revision := by
  unfold Covered
  by_cases hgvk : key.gvk = gvk
  · subst hgvk
    simp only [Function.update_self]
    rcases h with hnoticed | hdue | hchannel | hsent | howed
    · exact .inl hnoticed
    · exact .inr (.inl hdue)
    · exact .inr (.inr (.inl hchannel))
    · exact .inr (.inr (.inr (.inl (hsending rfl hsent))))
    · exact .inr (.inr (.inr (howes rfl howed)))
  · simp only [Function.update_of_ne hgvk]
    exact h

/-! ## Providers -/

theorem key_of_id {key : ProviderKey} {object : WatchedProvider}
    (h : object.id = (key.gvk, some key.ns, some key.name)) : object.key key.gvk = some key := by
  obtain ⟨gvk, ns, name, revision⟩ := object
  simp only [WatchedProvider.id, Prod.mk.injEq] at h
  obtain ⟨-, rfl, rfl⟩ := h
  rfl

theorem revisionOf_put (object : WatchedProvider) (key : ProviderKey) {s' : WakeState}
    (h : s'.providers = s.providers.put object) :
    s'.revisionOf key = if (key.gvk, some key.ns, some key.name) = object.id then some object.revision else s.revisionOf key := by
  rw [revisionOf, h, Collection.find?_put]
  split <;> rfl

theorem revisionOf_remove {object : WatchedProvider} {key : ProviderKey} {revision : Nat} {s' : WakeState}
    (h : s'.providers = s.providers.remove object.id) (hrevision : s'.revisionOf key = some revision) :
    s.revisionOf key = some revision := by
  rw [revisionOf, h, Collection.find?_remove] at hrevision
  split at hrevision
  · cases hrevision
  · exact hrevision

/-- A provider that exists is listed by the watcher of its kind. -/
theorem owes_listed {key : ProviderKey} {revision : Nat} (h : s.revisionOf key = some revision) (feed : Feed WatchedProvider) :
    (feed.list (s.providers.objects.filter fun object => object.gvk = key.gvk)).Owes
      fun object => object.key key.gvk = some key := by
  obtain ⟨object, hobject, -⟩ := Option.map_eq_some_iff.mp h
  have hid := s.providers.key_of_find? hobject
  refine Feed.owes_list (List.mem_filter.mpr ⟨s.providers.mem_of_find? hobject, ?_⟩) (key_of_id hid)
  exact decide_eq_true (congrArg Prod.fst hid)

theorem Emits.mem {gvk : GroupVersionKind} {event : WatchEvent WatchedProvider} {refs : List ScheduledMachineRef}
    (h : s.Emits gvk event refs) {object : WatchedProvider} (hobject : event.object? = some object) {key : ProviderKey}
    (hkey : object.key gvk = some key) (hindexed : s.manager.index.smKey.lookup ref = some key) : ref ∈ refs := by
  have hmem := (s.manager.index.agree ref key).mpr hindexed
  rw [← List.mem_toFinset, h, hobject]
  simp only [emitRefsForProvider, hkey]
  exact hmem

/-! ## Steps -/

namespace WakeInvariant

theorem base : WakeInvariant ref .empty where
  unwatched _ _ := rfl
  watched := rfl
  faithful := .of_lost rfl
  covered := by
    intro sm key revision hsm
    cases hsm

theorem restart {s' : WakeState} (h : s.step .restart = some s') : WakeInvariant ref s' := by
  cases h
  refine ⟨fun _ _ => rfl, rfl, .of_lost rfl, ?_⟩
  intro sm key revision hsm _ _
  refine .inr (.inl (List.mem_toFinset.mpr (List.mem_map.mpr ⟨sm, s.machines.mem_of_find? hsm, ?_⟩)))
  exact s.machines.key_of_find? hsm

variable (inv : WakeInvariant ref s)

include inv

theorem putProvider {gvk : GroupVersionKind} {ns name : Option String} {s' : WakeState}
    (h : s.step (.putProvider gvk ns name) = some s') : WakeInvariant ref s' := by
  cases h
  refine ⟨fun other hother => tellTask_unwatched gvk _ (inv.unwatched other hother), inv.watched, inv.faithful, ?_⟩
  intro sm key revision hsm hkey hrevision
  rw [revisionOf_put _ key rfl] at hrevision
  by_cases hid : (key.gvk, some key.ns, some key.name) = (⟨gvk, ns, name, s.revision + 1⟩ : WatchedProvider).id
  · have hgvk : key.gvk = gvk := congrArg Prod.fst hid
    subst hgvk
    refine .inr (.inr (.inr (.inr ?_)))
    change (s.tellTask key.gvk _ key.gvk).feed.Owes _
    rw [tellTask, Function.update_self]
    exact Feed.owes_tell rfl (key_of_id hid.symm)
  · rw [if_neg hid] at hrevision
    rcases inv.covered sm key revision hsm hkey hrevision with hnoticed | hdue | hchannel | hsent | howed
    · exact .inl hnoticed
    · exact .inr (.inl hdue)
    · exact .inr (.inr (.inl hchannel))
    · exact .inr (.inr (.inr (.inl ((tellTask_sending gvk _ key.gvk).symm ▸ hsent))))
    · exact .inr (.inr (.inr (.inr (tellTask_owes gvk _ howed))))

theorem removeProvider {object : WatchedProvider} {s' : WakeState} (h : s.step (.removeProvider object) = some s') :
    WakeInvariant ref s' := by
  obtain ⟨-, hs'⟩ := Option.ite_none_right_eq_some.mp h
  cases hs'
  refine ⟨fun other hother => tellTask_unwatched _ _ (inv.unwatched other hother), inv.watched, inv.faithful, ?_⟩
  intro sm key revision hsm hkey hrevision
  rcases inv.covered sm key revision hsm hkey (revisionOf_remove rfl hrevision) with
    hnoticed | hdue | hchannel | hsent | howed
  · exact .inl hnoticed
  · exact .inr (.inl hdue)
  · exact .inr (.inr (.inl hchannel))
  · exact .inr (.inr (.inr (.inl ((tellTask_sending _ _ key.gvk).symm ▸ hsent))))
  · exact .inr (.inr (.inr (.inr (tellTask_owes _ _ howed))))

theorem putMachine {object : ScheduledMachine} {s' : WakeState} (h : s.step (.putMachine object) = some s') :
    WakeInvariant ref s' := by
  cases h
  refine ⟨inv.unwatched, inv.watched, inv.faithful.put object, ?_⟩
  intro sm key revision hsm hkey hrevision
  by_cases href : ref = object.ref
  · exact .inr (.inl (href ▸ Finset.mem_insert_self _ _))
  · rw [Collection.find?_put, if_neg href] at hsm
    rcases inv.covered sm key revision hsm hkey hrevision with hnoticed | hdue | hrest
    · exact .inl hnoticed
    · exact .inr (.inl (Finset.mem_insert_of_mem hdue))
    · exact .inr (.inr hrest)

theorem removeMachine {object : ScheduledMachine} {s' : WakeState} (h : s.step (.removeMachine object) = some s') :
    WakeInvariant ref s' := by
  obtain ⟨-, hs'⟩ := Option.ite_none_right_eq_some.mp h
  cases hs'
  refine ⟨inv.unwatched, inv.watched, inv.faithful.remove object, ?_⟩
  intro sm key revision hsm
  rw [Collection.find?_remove] at hsm
  split at hsm
  · cases hsm
  · exact inv.covered sm key revision hsm

theorem reflectorEvent {s' : WakeState} (h : s.step .reflectorEvent = some s') : WakeInvariant ref s' := by
  rw [step] at h
  split at h
  · cases h
  · rename_i event rest hpending
    cases h
    refine ⟨?_, ?_, inv.faithful.handle hpending (s.manager.smKey_onEvent event), ?_⟩
    · intro gvk hgvk
      exact if_neg fun hkept => hgvk hkept.2
    · exact s.manager.watchers_onEvent event inv.watched
    · intro sm key revision hsm hkey hrevision
      have hcovered := inv.covered sm key revision hsm hkey hrevision
      -- an aborted watcher and a new one both begin with a listing
      rcases tasksAfter_spawned_or_same (s := s) (s.manager.onEvent event) key.gvk with hspawned | hsame
      · refine .inr (.inr (.inr (.inr ?_)))
        change (s.tasksAfter (s.manager.onEvent event) key.gvk).feed.Owes _
        rw [hspawned]
        exact Feed.owes_fresh
      · unfold Covered at hcovered ⊢
        simp only [hsame]
        exact hcovered

theorem watcherLose {gvk : GroupVersionKind} {received : Nat} {s' : WakeState}
    (h : s.step (.watcherLose gvk received) = some s') : WakeInvariant ref s' := by
  obtain ⟨hgvk, hs'⟩ := Option.ite_none_right_eq_some.mp h
  cases hs'
  refine ⟨update_unwatched hgvk _ inv.unwatched, inv.watched, inv.faithful, ?_⟩
  intro sm key revision hsm hkey hrevision
  refine (inv.covered sm key revision hsm hkey hrevision).update (fun _ hsent => hsent) ?_
  exact fun _ _ => .inr (Feed.owes_lose received)

theorem watcherList {gvk : GroupVersionKind} {s' : WakeState} (h : s.step (.watcherList gvk) = some s') :
    WakeInvariant ref s' := by
  obtain ⟨hgvk, hs'⟩ := Option.ite_none_right_eq_some.mp h
  cases hs'
  refine ⟨update_unwatched hgvk _ inv.unwatched, inv.watched, inv.faithful, ?_⟩
  intro sm key revision hsm hkey hrevision
  refine (inv.covered sm key revision hsm hkey hrevision).update (fun _ hsent => hsent) ?_
  rintro rfl -
  exact .inr (owes_listed hrevision _)

theorem dispatch {gvk : GroupVersionKind} {refs : List ScheduledMachineRef} {s' : WakeState}
    (hok : Registered ref s (.dispatch gvk refs)) (h : s.step (.dispatch gvk refs) = some s') : WakeInvariant ref s' := by
  rw [step] at h
  split at h
  · cases h
  · rename_i event rest hpending
    obtain ⟨⟨hgvk, hidle, hemits⟩, hs'⟩ := Option.ite_none_right_eq_some.mp h
    cases hs'
    refine ⟨update_unwatched hgvk _ inv.unwatched, inv.watched, inv.faithful, ?_⟩
    intro sm key revision hsm hkey hrevision
    refine (inv.covered sm key revision hsm hkey hrevision).update ?_ ?_
    · intro _ hsent
      rw [hidle] at hsent
      cases hsent
    · rintro rfl howed
      by_cases habout : ∃ object, event.object? = some object ∧ object.key key.gvk = some key
      · obtain ⟨object, hobject, habout⟩ := habout
        have hindexed := hok event object sm key (by rw [hpending]; rfl) hobject hsm hkey habout
        exact .inl (hemits.mem hobject habout hindexed)
      · refine .inr (howed.handle hpending ?_)
        exact fun object hobject hkeyed => habout ⟨object, hobject, hkeyed⟩

theorem send {gvk : GroupVersionKind} {s' : WakeState} (h : s.step (.send gvk) = some s') : WakeInvariant ref s' := by
  rw [step] at h
  split at h
  · cases h
  · rename_i first rest hsending
    obtain ⟨⟨hgvk, -⟩, hs'⟩ := Option.ite_none_right_eq_some.mp h
    cases hs'
    refine ⟨update_unwatched hgvk _ inv.unwatched, inv.watched, inv.faithful, ?_⟩
    intro sm key revision hsm hkey hrevision
    rcases inv.covered sm key revision hsm hkey hrevision with hnoticed | hdue | hchannel | hsent | howed
    · exact .inl hnoticed
    · exact .inr (.inl hdue)
    · exact .inr (.inr (.inl (List.mem_append_left _ hchannel)))
    · by_cases hfirst : ref = first
      · exact .inr (.inr (.inl (hfirst ▸ List.mem_concat_self)))
      · refine .inr (.inr (.inr (.inl ?_)))
        by_cases hkind : key.gvk = gvk
        · subst hkind
          simp only [Function.update_self]
          rw [hsending] at hsent
          exact (List.mem_cons.mp hsent).resolve_left hfirst
        · simp only [Function.update_of_ne hkind]
          exact hsent
    · refine .inr (.inr (.inr (.inr ?_)))
      by_cases hkind : key.gvk = gvk
      · subst hkind
        simp only [Function.update_self]
        exact howed
      · simp only [Function.update_of_ne hkind]
        exact howed

theorem receive {s' : WakeState} (h : s.step .receive = some s') : WakeInvariant ref s' := by
  rw [step] at h
  split at h
  · cases h
  · rename_i first rest hchannel
    cases h
    refine ⟨inv.unwatched, inv.watched, inv.faithful, ?_⟩
    intro sm key revision hsm hkey hrevision
    rcases inv.covered sm key revision hsm hkey hrevision with hnoticed | hdue | hwaiting | hrest
    · exact .inl hnoticed
    · exact .inr (.inl (Finset.mem_insert_of_mem hdue))
    · rw [hchannel] at hwaiting
      rcases List.mem_cons.mp hwaiting with rfl | hwaiting
      · exact .inr (.inl (Finset.mem_insert_self _ _))
      · exact .inr (.inr (.inl hwaiting))
    · exact .inr (.inr (.inr hrest))

theorem pass {other : ScheduledMachineRef} {s' : WakeState} (h : s.step (.pass other) = some s') : WakeInvariant ref s' := by
  cases h
  refine ⟨inv.unwatched, inv.watched, inv.faithful, ?_⟩
  intro sm key revision hsm hkey hrevision
  by_cases hother : ref = other
  · subst hother
    refine .inl ?_
    change Function.update s.noticed ref (s.provision ref) ref = _
    rw [Function.update_self, provision, show s.machines.find? ref = some sm from hsm]
    simp only [Option.bind_eq_bind, Option.bind_some, hkey]
    rw [show s.revisionOf key = some revision from hrevision]
    rfl
  · rcases inv.covered sm key revision hsm hkey hrevision with hnoticed | hdue | hrest
    · refine .inl ?_
      change Function.update s.noticed other (s.provision other) ref = _
      rw [Function.update_of_ne hother]
      exact hnoticed
    · exact .inr (.inl (Finset.mem_erase.mpr ⟨hother, hdue⟩))
    · exact .inr (.inr hrest)

/-- Every step keeps the invariant of a resource that the index holds when its provider's events are dispatched. -/
theorem step {a : WakeAct} {s' : WakeState} (hok : Registered ref s a) (h : s.step a = some s') : WakeInvariant ref s' := by
  cases a with
  | putProvider gvk ns name => exact inv.putProvider h
  | removeProvider object => exact inv.removeProvider h
  | putMachine sm => exact inv.putMachine h
  | removeMachine sm => exact inv.removeMachine h
  | restart => exact restart h
  | reflectorLose received =>
    cases h
    exact ⟨inv.unwatched, inv.watched, .of_lost rfl, inv.covered⟩
  | reflectorList =>
    cases h
    exact ⟨inv.unwatched, inv.watched, .list, inv.covered⟩
  | reflectorEvent => exact inv.reflectorEvent h
  | watcherLose gvk received => exact inv.watcherLose h
  | watcherList gvk => exact inv.watcherList h
  | dispatch gvk refs => exact inv.dispatch hok h
  | send gvk => exact inv.send h
  | receive => exact inv.receive h
  | pass other => exact inv.pass h

end WakeInvariant

end WakeState

theorem wakes_invariant {ref : ScheduledMachineRef} {s : WakeState} (h : wakes.Reach (Registered ref) s) :
    s.WakeInvariant ref := by
  refine h.invariant ?_ fun _ _ _ inv hok hstep => inv.step hok hstep
  rintro s rfl
  exact .base

def demoRef : ScheduledMachineRef := demoMachine.ref

def demoProviderKind : GroupVersionKind := ⟨"spotschedules.5spot.finos.org", "v1alpha1", "TimeSchedule"⟩

def demoProviderKey : ProviderKey := ⟨demoProviderKind, "team", "work"⟩

/-- The provider changes, and the change is dispatched to the given references. -/
def demoFlip (refs : List ScheduledMachineRef) : List WakeAct :=
  [.putProvider demoProviderKind (some "team") (some "work"), .dispatch demoProviderKind refs]

/-- The resource is read, a watcher for its provider lists, and the provider flips. -/
def demoWakes : List WakeAct :=
  [.putProvider demoProviderKind (some "team") (some "work"), .putMachine demoMachine, .reflectorList, .reflectorEvent,
    .reflectorEvent, .reflectorEvent, .pass demoRef, .watcherList demoProviderKind, .dispatch demoProviderKind [],
    .dispatch demoProviderKind [demoRef], .send demoProviderKind, .dispatch demoProviderKind [], .receive, .pass demoRef] ++
    demoFlip [demoRef] ++ [.send demoProviderKind, .receive, .pass demoRef]

/-- The index holds the resource under its provider. -/
def indexed (ref : ScheduledMachineRef) (s : WakeState) : WakeAct → Bool
  | .dispatch _ _ => (s.machines.find? ref).bind providerKeyFor == s.manager.index.smKey.lookup ref
  | _ => true

theorem registered_of_indexed {ref : ScheduledMachineRef} (s : WakeState) (a : WakeAct) (h : indexed ref s a = true) :
    Registered ref s a := by
  cases a with
  | dispatch gvk refs =>
    intro event object sm key _ _ hsm hkey _
    rw [indexed, hsm, Option.bind_some, hkey, beq_iff_eq] at h
    exact h.symm
  | _ => trivial

instance (s : WakeState) : Decidable s.Quiet :=
  decidable_of_iff (s.reflector.Drained ∧ (∀ gvk ∈ s.manager.watchers, (s.tasks gvk).feed.Drained ∧
    (s.tasks gvk).sending = []) ∧ s.channel = [] ∧ s.due = ∅)
    ⟨fun ⟨h, h', h'', h'''⟩ => ⟨h, h', h'', h'''⟩, fun ⟨h, h', h'', h'''⟩ => ⟨h, h', h'', h'''⟩⟩

theorem demo_wakes : ∃ s, wakes.Reach (Registered demoRef) s ∧
    decide (s.Quiet ∧ s.machines.find? demoRef = some demoMachine ∧ s.revisionOf demoProviderKey = some 2) = true :=
  Automaton.Reach.exists_of_run registered_of_indexed _ demoWakes rfl (by decide +kernel)

def demoNeighbour : ScheduledMachine :=
  { demoMachine with metadata := { demoMachine.metadata with name := "neighbour" } }

/-- A flip is dispatched before the reflector has read the resource: the neighbour is woken, the resource is not. -/
example : ∃ s, wakes.Reach (fun _ _ => True) s ∧
    decide (s.Quiet ∧ s.revisionOf demoProviderKey = some 2 ∧ s.noticed demoRef = some (demoProviderKey, some 1)) = true :=
  Automaton.Reach.exists_of_run (fun _ _ (_ : true = true) => trivial) _
    ([.putProvider demoProviderKind (some "team") (some "work"), .putMachine demoNeighbour, .reflectorList, .reflectorEvent,
      .reflectorEvent, .reflectorEvent, .watcherList demoProviderKind, .dispatch demoProviderKind [],
      .dispatch demoProviderKind [demoNeighbour.ref], .send demoProviderKind, .dispatch demoProviderKind [],
      .putMachine demoMachine, .pass demoRef] ++ demoFlip [demoNeighbour.ref] ++
      [.reflectorEvent, .send demoProviderKind, .receive, .receive, .pass demoNeighbour.ref])
    rfl (by decide +kernel)

end FiveSpot
