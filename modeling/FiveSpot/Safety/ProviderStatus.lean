import FiveSpot.Helpers.SpotSchedule
import FiveSpot.Providers.Reconcile
import Mathlib.Data.List.Induction

/-! # What a provider publishes and what is read of it

A history edits the spec of a provider object and reconciles it, each reconcile at some instant and with a
status patch that is applied or lost. A reconcile that cannot evaluate the spec publishes nothing, and so
leaves an earlier verdict in force.
-/

namespace FiveSpot

set_option autoImplicit false

inductive ProviderStep (Spec : Type) where
  | edit (spec : Spec)
  | reconcile (now : Time) (applied : Bool)

/-- The object, and what the last reconcile that came to an end of its own judged, and when. -/
structure ProviderRun (Spec : Type) where
  object : ProviderObject Spec
  judged : Option (Spec × Time)

/-- The object as the API server creates it. -/
def ProviderRun.created {Spec : Type} (name ns : String) (spec : Spec) : ProviderRun Spec :=
  ⟨⟨name, some ns, some 1, spec, none⟩, none⟩

section

variable {Spec : Type} [DecidableEq Spec] (p : Provider Spec)

/-- An edit that changes the spec raises the generation. -/
def ProviderObject.edit (object : ProviderObject Spec) (spec : Spec) : ProviderObject Spec :=
  if spec = object.spec then object
  else { object with spec := spec, generation := object.generation.map (· + 1) }

def ProviderObject.publish (object : ProviderObject Spec) (body : Json) : ProviderObject Spec :=
  { object with status := some (Json.mergePatch (object.status.getD .null) body) }

/-- A status patch that does not get through leaves no trace. -/
def ProviderRun.step (s : ProviderRun Spec) : ProviderStep Spec → ProviderRun Spec
  | .edit spec => { s with object := s.object.edit spec }
  | .reconcile now applied => match reconcileProvider p s.object now with
    | .error _ => { s with judged := some (s.object.spec, now) }
    | .ok publication =>
      if applied then ⟨s.object.publish publication.status, some (s.object.spec, now)⟩ else s

def ProviderRun.run (s : ProviderRun Spec) (steps : List (ProviderStep Spec)) : ProviderRun Spec :=
  steps.foldl (ProviderRun.step p) s

/-- Once the current spec has been reconciled, a verdict read from the status is what that spec says at the
instant of the last reconcile. -/
def ProviderRun.Sound (s : ProviderRun Spec) : Prop :=
  ∀ now, s.judged = some (s.object.spec, now) → ∀ active, (verdictFromStatus s.object.status).active? = some active →
    p.isActiveAt s.object.spec now = .ok active

/-- The reconcile evaluates the spec, or finds nothing published but what the spec says now. -/
def ProviderRun.Covered (s : ProviderRun Spec) : ProviderStep Spec → Prop
  | .edit _ => True
  | .reconcile now _ => (∃ next, nextTransition p s.object.spec now = .ok next) ∨
      ∀ active, publishedActive s.object.status = some active → p.isActiveAt s.object.spec now = .ok active

/-! ## What one publication leaves -/

variable {p} {object : ProviderObject Spec} {now : Time}

section

omit [DecidableEq Spec]

theorem readyConditionBlocks_of_conditions {status : Json} {active : Bool}
    (h : status.get "conditions" = some (.arr [readyCondition p active now])) : readyConditionBlocks status = false := by
  have hready : isReadyCondition (readyCondition p active now) = true := by rfl
  simp only [readyConditionBlocks, h, Option.bind_some, Json.asArray, List.find?_cons, hready]
  rfl

theorem verdict_of_fields {status : Json} {active : Bool} (hactive : status.get "active" = some (.bool active))
    (hblocks : readyConditionBlocks status = false) : (verdictFromStatus (some status)).active? = some active := by
  simp only [verdictFromStatus, hactive, Option.bind_some, Json.asBool, hblocks]
  cases active <;> rfl

theorem get_publish {active : Bool} {next : Option Time} {name : String} {value : Json}
    (hmem : (name, value) ∈ providerStatus p object active next now) (hvalue : value.isNull = false) :
    (Json.mergePatch (object.status.getD .null) (.obj (providerStatus p object active next now))).get name =
      some (Json.mergePatch (((Json.obj ((object.status.getD .null).asObject.getD [])).get name).getD .null) value) := by
  rw [Json.mergePatch]
  exact Json.get_mergeFields_of_mem hmem (nodup_providerStatus active next) hvalue

theorem publish_active {active : Bool} {next : Option Time} :
    publishedActive (object.publish (.obj (providerStatus p object active next now))).status = some active := by
  have hmem : ("active", .bool active) ∈ providerStatus p object active next now :=
    List.mem_append_left _ (List.mem_append_left _ List.mem_cons_self)
  have hget := get_publish hmem rfl
  simp only [publishedActive, ProviderObject.publish, Option.bind_some, hget]
  rfl

theorem publish_conditions {active : Bool} {next : Option Time} :
    (Json.mergePatch (object.status.getD .null) (.obj (providerStatus p object active next now))).get "conditions" =
      some (.arr [readyCondition p active now]) := by
  have hmem : ("conditions", .arr [readyCondition p active now]) ∈ providerStatus p object active next now := by
    simp [providerStatus]
  rw [get_publish hmem rfl, Json.mergePatch]

theorem verdict_publish {active : Bool} {next : Option Time} :
    (verdictFromStatus (object.publish (.obj (providerStatus p object active next now))).status).active? =
      some active := by
  have hactive : publishedActive (object.publish (.obj (providerStatus p object active next now))).status = some active :=
    publish_active
  refine verdict_of_fields ?_ (readyConditionBlocks_of_conditions publish_conditions)
  obtain ⟨value, hvalue, hbool⟩ := Option.bind_eq_some_iff.mp hactive
  obtain ⟨status, hstatus, hget⟩ := Option.bind_eq_some_iff.mp hvalue
  cases hstatus
  rw [hget]
  cases value with
  | bool b => cases hbool; rfl
  | _ => cases hbool

end

/-! ## Along a history -/

/-- Either nothing is published, or a value the verdict repeats. -/
structure WellPublished (s : ProviderRun Spec) : Prop where
  namespaced : ∃ ns, s.object.ns = some ns
  readable : (verdictFromStatus s.object.status).active? = publishedActive s.object.status

theorem edit_ns (spec : Spec) : (object.edit spec).ns = object.ns := by
  unfold ProviderObject.edit
  split <;> rfl

theorem edit_status (spec : Spec) : (object.edit spec).status = object.status := by
  unfold ProviderObject.edit
  split <;> rfl

/-- What a reconcile does to a run: the spec does not evaluate and nothing is published, or it does and the
patch is lost or applied. -/
theorem reconcile_cases (p : Provider Spec) {s : ProviderRun Spec} (hs : WellPublished s) (now : Time) (applied : Bool) :
    ((∀ next, nextTransition p s.object.spec now ≠ .ok next) ∧
      s.step p (.reconcile now applied) = { s with judged := some (s.object.spec, now) }) ∨
    ∃ active next, p.isActiveAt s.object.spec now = .ok active ∧ nextTransition p s.object.spec now = .ok next ∧
      (s.step p (.reconcile now applied) = s ∨ s.step p (.reconcile now applied) =
        ⟨s.object.publish (.obj (providerStatus p s.object active next now)), some (s.object.spec, now)⟩) := by
  obtain ⟨ns, hns⟩ := hs.namespaced
  simp only [ProviderRun.step]
  cases hr : reconcileProvider p s.object now with
  | error e =>
    left
    refine ⟨fun next hnext => ?_, rfl⟩
    obtain ⟨active, hactive⟩ := isActiveAt_of_nextTransition hnext
    have hok := (reconcileProvider_eq_ok_iff hns).mpr ⟨active, next, hactive, hnext, rfl⟩
    rw [hr] at hok
    cases hok
  | ok publication =>
    right
    obtain ⟨active, next, hactive, hnext, rfl⟩ := (reconcileProvider_eq_ok_iff hns).mp hr
    refine ⟨active, next, hactive, hnext, ?_⟩
    cases applied with
    | false => exact .inl rfl
    | true => exact .inr rfl

theorem WellPublished.step {s : ProviderRun Spec} (hs : WellPublished s) (step : ProviderStep Spec) :
    WellPublished (s.step p step) := by
  cases step with
  | edit spec =>
    constructor
    · simpa only [ProviderRun.step, edit_ns] using hs.namespaced
    · simpa only [ProviderRun.step, edit_status] using hs.readable
  | reconcile now applied =>
    rcases reconcile_cases p hs now applied with ⟨-, heq⟩ | ⟨active, next, -, -, heq | heq⟩
    · rw [heq]
      exact ⟨hs.namespaced, hs.readable⟩
    · rw [heq]
      exact hs
    · rw [heq]
      exact ⟨hs.namespaced, verdict_publish.trans publish_active.symm⟩

theorem WellPublished.run {s : ProviderRun Spec} (hs : WellPublished s) (steps : List (ProviderStep Spec)) :
    WellPublished (s.run p steps) := by
  induction steps generalizing s with
  | nil => exact hs
  | cons step steps ih => exact ih (hs.step step)

omit [DecidableEq Spec] in
theorem wellPublished_created (name ns : String) (spec : Spec) : WellPublished (ProviderRun.created name ns spec) :=
  ⟨⟨ns, rfl⟩, rfl⟩

/-- The value in force is what the judged spec says, whatever the current spec is. -/
def Judged (p : Provider Spec) (s : ProviderRun Spec) : Prop :=
  ∀ spec now, s.judged = some (spec, now) → ∀ active, publishedActive s.object.status = some active →
    p.isActiveAt spec now = .ok active

omit [DecidableEq Spec] in
theorem Judged.sound {s : ProviderRun Spec} (h : Judged p s) (hs : WellPublished s) : s.Sound p := by
  intro now hjudged active hverdict
  rw [hs.readable] at hverdict
  exact h _ _ hjudged active hverdict

theorem Judged.step {s : ProviderRun Spec} (h : Judged p s) (hs : WellPublished s) {step : ProviderStep Spec}
    (hcovered : s.Covered p step) : Judged p (s.step p step) := by
  cases step with
  | edit spec => simpa only [Judged, ProviderRun.step, edit_status] using h
  | reconcile now applied =>
    rcases reconcile_cases p hs now applied with ⟨hfails, heq⟩ | ⟨active, next, hactive, -, heq | heq⟩
    · rw [heq]
      rintro _ _ hjudged active hpublished
      cases hjudged
      rcases hcovered with ⟨next, hnext⟩ | hsame
      · exact absurd hnext (hfails next)
      · exact hsame active hpublished
    · rw [heq]
      exact h
    · rw [heq]
      rintro _ _ hjudged active' hpublished
      cases hjudged
      rw [publish_active] at hpublished
      cases hpublished
      exact hactive

theorem judged_of_covered (name ns : String) (spec : Spec) {steps : List (ProviderStep Spec)}
    (h : ∀ before step after, steps = before ++ step :: after →
      ((ProviderRun.created name ns spec).run p before).Covered p step) :
    Judged p ((ProviderRun.created name ns spec).run p steps) := by
  induction steps using List.reverseRecOn with
  | nil => exact fun _ _ hjudged => (nomatch hjudged)
  | append_singleton steps step ih =>
    have hbefore : Judged p ((ProviderRun.created name ns spec).run p steps) := by
      apply ih
      rintro before step' after rfl
      exact h before step' (after ++ [step]) (by rw [List.append_assoc, List.cons_append])
    rw [ProviderRun.run, List.foldl_append]
    exact hbefore.step ((wellPublished_created name ns spec).run steps) (h steps step [] rfl)

theorem covered_of_sound {s : ProviderRun Spec} (hs : WellPublished s) {step : ProviderStep Spec}
    (h : (s.step p step).Sound p) : s.Covered p step := by
  cases step with
  | edit spec => trivial
  | reconcile now applied =>
    rcases reconcile_cases p hs now applied with ⟨-, heq⟩ | ⟨active, next, -, hnext, -⟩
    · right
      intro active hpublished
      rw [heq] at h
      exact h now rfl active (hs.readable.trans hpublished)
    · exact .inl ⟨next, hnext⟩

/-- A provider's status is sound after every part of a history exactly when every reconcile of it is covered. -/
theorem sound_iff_covered (p : Provider Spec) (name ns : String) (spec : Spec) (steps : List (ProviderStep Spec)) :
    (∀ before after, steps = before ++ after → ((ProviderRun.created name ns spec).run p before).Sound p) ↔
      ∀ before step after, steps = before ++ step :: after →
        ((ProviderRun.created name ns spec).run p before).Covered p step := by
  have hwell := (wellPublished_created name ns spec).run (p := p)
  constructor
  · rintro h before step after rfl
    apply covered_of_sound (hwell before)
    have hsound := h (before ++ [step]) after (by rw [List.append_assoc, List.singleton_append])
    rwa [ProviderRun.run, List.foldl_append] at hsound
  · rintro h before after rfl
    refine (judged_of_covered name ns spec fun before' step after' heq => ?_).sound (hwell before)
    exact h before' step (after' ++ after) (by rw [heq, List.append_assoc, List.cons_append])

end

/-- Both providers: what is read of their status is sound along a history exactly when each reconcile
evaluates its spec, or finds nothing published but the value that spec has at that instant. -/
theorem provider_status_sound_iff (zones : Zones) (name ns : String) :
    (∀ (spec : TimeBasedSpotScheduleSpec) (steps : List (ProviderStep TimeBasedSpotScheduleSpec)),
      (∀ before after, steps = before ++ after →
        ((ProviderRun.created name ns spec).run (timeBased zones) before).Sound (timeBased zones)) ↔
      ∀ before step after, steps = before ++ step :: after →
        ((ProviderRun.created name ns spec).run (timeBased zones) before).Covered (timeBased zones) step) ∧
    ∀ (spec : CapitalMarketsScheduleSpec) (steps : List (ProviderStep CapitalMarketsScheduleSpec)),
      (∀ before after, steps = before ++ after →
        ((ProviderRun.created name ns spec).run (capitalMarkets zones) before).Sound (capitalMarkets zones)) ↔
      ∀ before step after, steps = before ++ step :: after →
        ((ProviderRun.created name ns spec).run (capitalMarkets zones) before).Covered (capitalMarkets zones) step :=
  ⟨sound_iff_covered (timeBased zones) name ns, sound_iff_covered (capitalMarkets zones) name ns⟩

/-! ## A timezone that does not exist -/

def utcOnly : Zones := fun name => if name = "UTC" then some fun _ => 0 else none

def alwaysOpen : TimeBasedSpotScheduleSpec := ⟨["mon-sun"], ["0-23"], "UTC", true⟩

def typoHistory : List (ProviderStep TimeBasedSpotScheduleSpec) :=
  [.reconcile 1767225600000000000 true, .edit { alwaysOpen with timezone := "Mars/Olympus_Mons" },
    .reconcile 1767225630000000000 true]

def typoRun : ProviderRun TimeBasedSpotScheduleSpec :=
  (ProviderRun.created "nights" "team" alwaysOpen).run (timeBased utcOnly) typoHistory

/-- An open schedule is edited to a timezone that does not exist. The failed reconcile leaves the old verdict
in force. -/
theorem stale_verdict_stays : (verdictFromStatus typoRun.object.status).active? = some true ∧
    ¬typoRun.Sound (timeBased utcOnly) := by
  have hjudged : typoRun.judged = some (typoRun.object.spec, 1767225630000000000) := by decide +kernel
  have hverdict : (verdictFromStatus typoRun.object.status).active? = some true := by decide +kernel
  refine ⟨hverdict, fun hsound => ?_⟩
  have hactive := hsound _ hjudged true hverdict
  have hspec : typoRun.object.spec = { alwaysOpen with timezone := "Mars/Olympus_Mons" } := by decide +kernel
  rw [hspec] at hactive
  cases hactive

end FiveSpot
