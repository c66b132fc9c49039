import FiveSpot.Interaction.Feed
import FiveSpot.Safety.NextTransition
import FiveSpot.Safety.ProviderStatus

/-! # Punctual providers

A provider asks for its next reconcile at the next transition, or after a while if there is none in sight. As long
as its timer fires in time, what it has published stays right until then.
-/

namespace FiveSpot

set_option autoImplicit false

open Interaction

namespace Constants

def providerErrorRequeueSecs : Nat := 30

end Constants

/-- A provider object, the clock and the timer of its controller. -/
structure TimedRun (Spec : Type) where
  object : ProviderObject Spec
  now : Time
  due : Time
  /-- The last reconcile succeeded, and the spec is what it was then. -/
  settled : Bool

inductive TimedStep (Spec : Type) where
  | edit (spec : Spec)
  | tick (nanos : Nat)
  | reconcile (applied : Bool)

section

variable {Spec : Type} [DecidableEq Spec]

namespace TimedRun

/-- An edit is reconciled at once, time does not pass the timer, and a reconcile may come at any time. -/
def step (p : Provider Spec) (s : TimedRun Spec) : TimedStep Spec → Option (TimedRun Spec)
  | .edit spec =>
    if spec = s.object.spec then some s
    else some { s with object := s.object.edit spec, due := s.now, settled := false }
  | .tick nanos => if s.now + nanos ≤ s.due then some { s with now := s.now + nanos } else none
  | .reconcile applied => match reconcileProvider p s.object s.now, applied with
    | .ok publication, true => some { s with
        object := s.object.publish publication.status
        due := s.now + publication.requeueAfter
        settled := true }
    | _, _ => some { s with due := s.now + nanosOf Constants.providerErrorRequeueSecs, settled := false }

end TimedRun

/-- A provider whose timers fire in time, from the creation of its object on. -/
def timed (p : Provider Spec) : Automaton (TimedRun Spec) (TimedStep Spec) where
  initial s := s.object.ns.isSome = true ∧ s.object.status = none ∧ s.settled = false
  step := TimedRun.step p

/-- What is read of the status is what the spec says now. -/
def RightNow (p : Provider Spec) (s : TimedRun Spec) : Prop :=
  ∃ active, p.isActiveAt s.object.spec s.now = .ok active ∧ (verdictFromStatus s.object.status).active? = some active

omit [DecidableEq Spec] in
/-- Until its timer is due, a settled provider is right: at every instant where the clock of the zone changes its
hour with the UTC hour, and but for the last hour with any constant offset. -/
structure Punctual (p : Provider Spec) (zone : Spec → Option (Time → Int)) (s : TimedRun Spec) : Prop where
  exact : (∀ offset, zone s.object.spec = some offset → ∀ start stop, OnTheHour offset start stop) →
    s.now < s.due → RightNow p s
  late : (∀ offset, zone s.object.spec = some offset → ∃ c, ∀ u, offset u = c) → s.now + hour ≤ s.due → RightNow p s

/-! ## What a settled provider has found -/

/-- The instant the provider asks to be woken at. -/
def wakeAt (start : Time) (next : Option Time) : Time :=
  match next with
  | some next => next
  | none => start + nanosOf Constants.providerFallbackRequeueSecs

structure Found (p : Provider Spec) (s : TimedRun Spec) (start : Time) (next : Option Time) (active : Bool) : Prop where
  begun : start ≤ s.now
  evaluated : p.isActiveAt s.object.spec start = .ok active
  transition : nextTransition p s.object.spec start = .ok next
  due : s.due = wakeAt start next
  shown : (verdictFromStatus s.object.status).active? = some active

structure TimedInvariant (p : Provider Spec) (s : TimedRun Spec) : Prop where
  namespaced : s.object.ns.isSome = true
  found : s.settled = true → ∃ start next active, Found p s start next active

variable {p : Provider Spec} {s s' : TimedRun Spec}

omit [DecidableEq Spec] in
theorem TimedInvariant.unsettled (h : s.object.ns.isSome = true) (hs : s.settled = false) : TimedInvariant p s := by
  refine ⟨h, fun hsettled => ?_⟩
  rw [hs] at hsettled
  cases hsettled

theorem TimedInvariant.tick (inv : TimedInvariant p s) {nanos : Nat} (h : s.step p (.tick nanos) = some s') :
    TimedInvariant p s' := by
  obtain ⟨-, hs'⟩ := Option.ite_none_right_eq_some.mp h
  cases hs'
  refine ⟨inv.namespaced, fun hsettled => ?_⟩
  obtain ⟨start, next, active, found⟩ := inv.found hsettled
  refine ⟨start, next, active, ?_, found.evaluated, found.transition, found.due, found.shown⟩
  exact le_trans found.begun (Int.le_add_of_nonneg_right (Int.natCast_nonneg nanos))

theorem TimedInvariant.reconcile (inv : TimedInvariant p s) {applied : Bool}
    (h : s.step p (.reconcile applied) = some s') : TimedInvariant p s' := by
  simp only [TimedRun.step] at h
  split at h
  · rename_i publication hpublication
    cases h
    obtain ⟨ns, hns⟩ := Option.isSome_iff_exists.mp inv.namespaced
    obtain ⟨active, next, hactive, hnext, rfl⟩ := (reconcileProvider_eq_ok_iff hns).mp hpublication
    refine ⟨inv.namespaced, fun _ => ⟨s.now, next, active, le_refl _, hactive, hnext, ?_, verdict_publish⟩⟩
    cases next with
    | some next => exact add_sub_cancel s.now next
    | none => rfl
  · cases h
    exact .unsettled inv.namespaced rfl

theorem TimedInvariant.step (inv : TimedInvariant p s) {a : TimedStep Spec} (h : s.step p a = some s') :
    TimedInvariant p s' := by
  cases a with
  | edit spec =>
    simp only [TimedRun.step] at h
    split at h
    · cases h
      exact inv
    · cases h
      refine .unsettled ?_ rfl
      rw [edit_ns]
      exact inv.namespaced
  | tick nanos => exact inv.tick h
  | reconcile applied => exact inv.reconcile h

theorem timed_invariant (h : (timed p).Reach (fun _ _ => True) s) : TimedInvariant p s :=
  h.invariant (fun _ hs => .unsettled hs.1 hs.2.2) fun _ _ _ inv _ hstep => inv.step hstep

/-! ## It stays right -/

/-- The fallback comes long before the search for a transition has ended. -/
theorem fallback_lt_searchEnd (start : Time) : start + nanosOf Constants.providerFallbackRequeueSecs < searchEnd start := by
  have hfloor := Sampling.lt_gridFloor_add hour_pos start
  rw [← wholeHour_eq] at hfloor
  simp only [searchEnd, Constants.providerTransitionHorizonHours, Constants.providerFallbackRequeueSecs, hour, nanosOf] at *
  push_cast
  change (_ : Int) < _
  omega

variable {zone : Spec → Option (Time → Int)} {spec : Spec} {start : Time} {next : Option Time}

omit [DecidableEq Spec] in
theorem Hourly.same_until_wake (hp : Hourly p zone)
    (hzone : ∀ offset, zone spec = some offset → ∀ start stop, OnTheHour offset start stop)
    (h : nextTransition p spec start = .ok next) {u : Time} (hstart : start ≤ u) (hu : u < wakeAt start next) :
    p.isActiveAt spec u = p.isActiveAt spec start := by
  cases next with
  | some next => exact (hp.flipFound h).exact (fun offset hoffset => hzone offset hoffset _ _) u hstart hu
  | none =>
    refine (hp.noFlip h).exact (fun offset hoffset => hzone offset hoffset _ _) u hstart ?_
    exact lt_trans hu (fallback_lt_searchEnd start)

omit [DecidableEq Spec] in
theorem Hourly.same_until_last_hour (hp : Hourly p zone)
    (hzone : ∀ offset, zone spec = some offset → ∃ c, ∀ u, offset u = c)
    (h : nextTransition p spec start = .ok next) {u : Time} (hstart : start ≤ u) (hu : u + hour ≤ wakeAt start next) :
    p.isActiveAt spec u = p.isActiveAt spec start := by
  cases next with
  | some next => exact (hp.flipFound h).late hzone u hstart hu
  | none =>
    refine hp.late hzone (nextTransition_eq_none h) u hstart ?_
    exact le_of_lt (lt_of_le_of_lt hu (fallback_lt_searchEnd start))

omit [DecidableEq Spec] in
theorem Found.rightNow {active : Bool} (found : Found p s start next active)
    (hsame : p.isActiveAt s.object.spec s.now = p.isActiveAt s.object.spec start) : RightNow p s :=
  ⟨active, hsame.trans found.evaluated, found.shown⟩

theorem Hourly.punctual (hp : Hourly p zone) (h : (timed p).Reach (fun _ _ => True) s) (hsettled : s.settled = true) :
    Punctual p zone s := by
  obtain ⟨start, next, active, found⟩ := (timed_invariant h).found hsettled
  constructor
  · intro hzone hnow
    rw [found.due] at hnow
    exact found.rightNow (hp.same_until_wake hzone found.transition found.begun hnow)
  · intro hzone hnow
    rw [found.due] at hnow
    exact found.rightNow (hp.same_until_last_hour hzone found.transition found.begun hnow)

end

def officeRun : TimedRun TimeBasedSpotScheduleSpec :=
  ⟨⟨"office", some "team", some 1, officeHours "UTC", none⟩, mondayAt 11400, mondayAt 11400, false⟩

end FiveSpot
