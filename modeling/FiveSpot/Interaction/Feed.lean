import Mathlib.Data.List.Nodup
import FiveSpot.Interaction.Watch

/-! # Feeds

The receiving end of a watch. While it is connected it is told of every change. When the connection is lost, so is
what has not been received yet, and the next connection begins with a listing.
-/

namespace FiveSpot.Interaction

set_option autoImplicit false

/-! ## Automata -/

structure Automaton (σ α : Type) where
  initial : σ → Prop
  step : σ → α → Option σ

namespace Automaton

variable {σ α : Type} (machine : Automaton σ α)

/-- States reached by steps that all meet `ok`. -/
inductive Reach (ok : σ → α → Prop) : σ → Prop
  | init {s : σ} : machine.initial s → Reach ok s
  | step {s s' : σ} {a : α} : Reach ok s → ok s a → machine.step s a = some s' → Reach ok s'

/-- Execute steps that all pass a check. -/
def run (check : σ → α → Bool) : List α → σ → Option σ
  | [], s => some s
  | a :: rest, s => if check s a then (machine.step s a).bind (run check rest) else none

variable {machine} {ok : σ → α → Prop}

theorem Reach.invariant {I : σ → Prop} (hinit : ∀ s, machine.initial s → I s)
    (hstep : ∀ s s' a, I s → ok s a → machine.step s a = some s' → I s') {s : σ} (h : machine.Reach ok s) : I s := by
  induction h with
  | init hs => exact hinit _ hs
  | step _ hok hnext ih => exact hstep _ _ _ ih hok hnext

theorem Reach.mono {ok' : σ → α → Prop} (h : ∀ s a, ok s a → ok' s a) {s : σ} (hs : machine.Reach ok s) :
    machine.Reach ok' s := by
  induction hs with
  | init hs => exact .init hs
  | step _ hok hnext ih => exact .step ih (h _ _ hok) hnext

theorem Reach.of_run {check : σ → α → Bool} (hcheck : ∀ s a, check s a = true → ok s a) (acts : List α) {s s' : σ}
    (hs : machine.Reach ok s) (hrun : machine.run check acts s = some s') : machine.Reach ok s' := by
  induction acts generalizing s with
  | nil =>
    cases hrun
    exact hs
  | cons a rest ih =>
    rw [run] at hrun
    split at hrun
    · rename_i hpassed
      obtain ⟨mid, hmid, hrest⟩ := Option.bind_eq_some_iff.mp hrun
      exact ih (.step hs (hcheck s a hpassed) hmid) hrest
    · cases hrun

theorem Reach.exists_of_run {check : σ → α → Bool} (hcheck : ∀ s a, check s a = true → ok s a) (property : σ → Bool)
    (acts : List α) {s : σ} (hs : machine.initial s) (hrun : (machine.run check acts s).any property = true) :
    ∃ s, machine.Reach ok s ∧ property s = true := by
  obtain ⟨s', hs', hproperty⟩ := (Option.any_eq_true _ _).mp hrun
  exact ⟨s', Reach.of_run hcheck acts (.init hs) hs', hproperty⟩

end Automaton

/-! ## Collections -/

variable {α κ β : Type}

/-- The objects of a kind, each under its own key. -/
structure Collection (key : α → κ) where
  objects : List α
  once : (objects.map key).Nodup

namespace Collection

variable [DecidableEq κ] {key : α → κ}

def empty : Collection key := ⟨[], List.nodup_nil⟩

def find? (c : Collection key) (k : κ) : Option α := c.objects.find? fun object => key object = k

theorem once_filter (c : Collection key) (k : κ) :
    ((c.objects.filter fun object => key object ≠ k).map key).Nodup := c.once.sublist (List.filter_sublist.map key)

def remove (c : Collection key) (k : κ) : Collection key := ⟨c.objects.filter fun object => key object ≠ k, c.once_filter k⟩

def put (c : Collection key) (object : α) : Collection key where
  objects := object :: (c.remove (key object)).objects
  once := by
    rw [List.map_cons, List.nodup_cons]
    refine ⟨?_, (c.remove (key object)).once⟩
    intro hmem
    obtain ⟨other, hother, hkey⟩ := List.mem_map.mp hmem
    exact of_decide_eq_true (List.mem_filter.mp hother).2 hkey

variable (c : Collection key)

theorem find?_remove (k k' : κ) : (c.remove k).find? k' = if k' = k then none else c.find? k' := by
  rw [find?, remove, List.find?_filter]
  by_cases hk : k' = k
  · rw [if_pos hk, List.find?_eq_none]
    intro object _
    simp [hk]
  · rw [if_neg hk, find?]
    congr 1
    funext object
    by_cases hobject : key object = k'
    · simp [hobject, hk]
    · simp [hobject]

theorem find?_put (object : α) (k : κ) : (c.put object).find? k = if k = key object then some object else c.find? k := by
  rw [find?, put, List.find?_cons]
  by_cases hk : k = key object
  · simp [hk]
  · have hne : ¬key object = k := fun h => hk h.symm
    rw [if_neg hk]
    simp only [hne, decide_false]
    exact (c.find?_remove (key object) k).trans (if_neg hk)

theorem key_of_find? {k : κ} {object : α} (h : c.find? k = some object) : key object = k := by
  rw [find?] at h
  simpa using List.find?_some h

theorem mem_of_find? {k : κ} {object : α} (h : c.find? k = some object) : object ∈ c.objects := List.mem_of_find?_eq_some h

end Collection

/-! ## Feeds -/

/-- The events that have arrived and not been handled, and whether more will come. -/
structure Feed (α : Type) where
  connected : Bool
  pending : List (WatchEvent α)

/-- The object an event brings. -/
def WatchEvent.object? : WatchEvent α → Option α
  | .initApply object | .apply object | .delete object => some object
  | .init | .initDone => none

namespace Feed

def fresh : Feed α := ⟨false, []⟩

def tell (feed : Feed α) (event : WatchEvent α) : Feed α :=
  if feed.connected then { feed with pending := feed.pending ++ [event] } else feed

/-- Only the first events had been received. -/
def lose (feed : Feed α) (received : Nat) : Feed α := ⟨false, feed.pending.take received⟩

def list (feed : Feed α) (objects : List α) : Feed α := ⟨true, feed.pending ++ streamOf [.relist objects]⟩

/-- Nothing is left to be handled and nothing is missed. -/
def Drained (feed : Feed α) : Prop := feed.connected = true ∧ feed.pending = []

instance (feed : Feed α) : Decidable feed.Drained := inferInstanceAs (Decidable (_ ∧ _))

@[simp] theorem connected_tell (feed : Feed α) (event : WatchEvent α) : (feed.tell event).connected = feed.connected := by
  rw [tell]
  split <;> rfl

theorem pending_tell {feed : Feed α} (h : feed.connected = true) (event : WatchEvent α) :
    (feed.tell event).pending = feed.pending ++ [event] := by
  rw [tell, if_pos h]

theorem tell_of_lost {feed : Feed α} (h : feed.connected = false) (event : WatchEvent α) : feed.tell event = feed := by
  rw [tell, h]
  rfl

/-! ### What has been heard once everything is handled -/

section

variable [DecidableEq κ] (key : α → κ) (value : α → Option β)

/-- Whoever handles what is pending knows of every object of the collection what it says now. -/
def Faithful (feed : Feed α) (c : Collection key) (known : κ → Option β) : Prop :=
  feed.connected = true → ∀ k object, c.find? k = some object →
    feed.pending.foldl (hear key value k) (known k) = value object

variable {key value} {feed : Feed α} {c : Collection key} {known : κ → Option β}

theorem Faithful.of_lost (h : feed.connected = false) : feed.Faithful key value c known := by
  intro hconnected
  rw [h] at hconnected
  cases hconnected

theorem Faithful.put (h : feed.Faithful key value c known) (object : α) :
    (feed.tell (.apply object)).Faithful key value (c.put object) known := by
  intro hconnected k found hfound
  rw [connected_tell] at hconnected
  rw [pending_tell hconnected, List.foldl_concat, hear]
  rw [Collection.find?_put] at hfound
  by_cases hk : k = key object
  · rw [if_pos hk] at hfound
    cases hfound
    rw [if_pos hk.symm]
  · rw [if_neg hk] at hfound
    rw [if_neg (Ne.symm hk)]
    exact h hconnected k found hfound

theorem Faithful.remove (h : feed.Faithful key value c known) (object : α) :
    (feed.tell (.delete object)).Faithful key value (c.remove (key object)) known := by
  intro hconnected k found hfound
  rw [connected_tell] at hconnected
  rw [pending_tell hconnected, List.foldl_concat, hear]
  rw [Collection.find?_remove] at hfound
  by_cases hk : k = key object
  · rw [if_pos hk] at hfound
    cases hfound
  · rw [if_neg hk] at hfound
    rw [if_neg (Ne.symm hk)]
    exact h hconnected k found hfound

theorem listing_of_mem {objects : List α} (honce : (objects.map key).Nodup) {object : α} (h : object ∈ objects) :
    listing key value objects (key object) = value object := by
  cases hvalue : value object with
  | some b => exact (listing_eq_some honce).mpr ⟨object, h, rfl, hvalue⟩
  | none =>
    rw [← Option.not_isSome_iff_eq_none, Option.isSome_iff_exists]
    rintro ⟨b, hb⟩
    obtain ⟨other, hother, hkey, hb⟩ := (listing_eq_some honce).mp hb
    have hsame : other = object := List.inj_on_of_nodup_map honce hother h hkey
    rw [hsame, hvalue] at hb
    cases hb

/-- Whatever was missed, a listing makes up for it. -/
theorem Faithful.list : (feed.list c.objects).Faithful key value c known := by
  intro _ k object hobject
  have hmem := c.mem_of_find? hobject
  have hkey := c.key_of_find? hobject
  rw [Feed.list, List.foldl_append, heard_relist]
  rw [heard_of_listed (List.mem_map.mpr ⟨object, hmem, hkey⟩), ← hkey]
  exact listing_of_mem c.once hmem

theorem Faithful.handle {event : WatchEvent α} {rest : List (WatchEvent α)} (h : feed.Faithful key value c known)
    (hpending : feed.pending = event :: rest) {known' : κ → Option β}
    (hknown : ∀ k, known' k = hear key value k (known k) event) :
    Faithful key value { feed with pending := rest } c known' := by
  intro hconnected k object hobject
  have hheard := h hconnected k object hobject
  rw [hpending, List.foldl_cons, ← hknown] at hheard
  exact hheard

theorem Faithful.of_drained (h : feed.Faithful key value c known) (hdrained : feed.Drained) {k : κ} {object : α}
    (hobject : c.find? k = some object) : known k = value object := by
  have hheard := h hdrained.1 k object hobject
  rw [hdrained.2] at hheard
  exact hheard

end

/-! ### What is still to be reported -/

section

variable (about : α → Prop)

/-- Something of the kind will be reported: it is pending, or a listing is to come. -/
def Owes (feed : Feed α) : Prop :=
  feed.connected = false ∨ ∃ event ∈ feed.pending, ∃ object, event.object? = some object ∧ about object

variable {about} {feed : Feed α}

theorem owes_fresh : (fresh : Feed α).Owes about := .inl rfl

theorem owes_lose (received : Nat) : (feed.lose received).Owes about := .inl rfl

theorem Owes.tell (h : feed.Owes about) (event : WatchEvent α) : (feed.tell event).Owes about := by
  cases hconnected : feed.connected with
  | false =>
    rw [tell_of_lost hconnected]
    exact h
  | true =>
    rcases h with hlost | ⟨found, hfound, habout⟩
    · rw [hconnected] at hlost
      cases hlost
    · refine .inr ⟨found, ?_, habout⟩
      rw [pending_tell hconnected]
      exact List.mem_append_left _ hfound

theorem owes_tell {event : WatchEvent α} {object : α} (hevent : event.object? = some object) (habout : about object) :
    (feed.tell event).Owes about := by
  cases hconnected : feed.connected with
  | false =>
    rw [tell_of_lost hconnected]
    exact .inl hconnected
  | true =>
    refine .inr ⟨event, ?_, object, hevent, habout⟩
    rw [pending_tell hconnected]
    exact List.mem_concat_self

theorem owes_list {objects : List α} {object : α} (hobject : object ∈ objects) (habout : about object) :
    (feed.list objects).Owes about := by
  refine .inr ⟨.initApply object, ?_, object, rfl, habout⟩
  rw [list, streamOf_relist]
  refine List.mem_append_right _ (List.mem_cons_of_mem _ (List.mem_append_left _ ?_))
  exact List.mem_map_of_mem hobject

/-- Handling an event settles only what the event is about. -/
theorem Owes.handle {event : WatchEvent α} {rest : List (WatchEvent α)} (h : feed.Owes about)
    (hpending : feed.pending = event :: rest) (hother : ∀ object, event.object? = some object → ¬about object) :
    Owes about { feed with pending := rest } := by
  rcases h with hlost | ⟨found, hfound, object, hobject, habout⟩
  · exact .inl hlost
  · rw [hpending] at hfound
    rcases List.mem_cons.mp hfound with rfl | hrest
    · exact absurd habout (hother object hobject)
    · exact .inr ⟨found, hrest, object, hobject, habout⟩

theorem Drained.not_owes (h : feed.Drained) : ¬feed.Owes about := by
  rintro (hlost | ⟨event, hevent, -⟩)
  · rw [h.1] at hlost
    cases hlost
  · rw [h.2] at hevent
    cases hevent

end

end Feed

end FiveSpot.Interaction
