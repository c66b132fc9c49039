import Mathlib.Data.List.Induction
import FiveSpot.Agents.ReclaimAgent

/-! # The configuration of the reclaim agent

The scanner works with what the watch has last said about the ConfigMap. A deletion during a gap is not
reported, so an armed agent stays armed unless the relist finds a well-formed ConfigMap again.
-/

namespace FiveSpot.ReclaimAgent

set_option autoImplicit false

open Interaction

inductive ConfigStep where
  /-- The ConfigMap is created or updated while the watch is connected. -/
  | put (cm : ConfigMap)
  | remove
  /-- Changes while the watch is disconnected, in order, and the relist after them. -/
  | gap (changes : List (Option ConfigMap))

section

variable (toml : Toml)

/-- The ConfigMap as it is, and the last configuration the agent obtained since it came into existence. -/
structure ApiState where
  current : Option ConfigMap
  lastGood : Option Config

def ApiState.new : ApiState := ⟨none, none⟩

def ApiState.reading (s : ApiState) : Option (Option Config) :=
  s.current.bind fun cm => (configmapToConfig toml cm).toOption

def ApiState.obtain (s : ApiState) : ApiState := { s with lastGood := (s.reading toml).getD s.lastGood }

def ApiState.change (s : ApiState) : Option ConfigMap → ApiState
  | some cm => { s with current := some cm }
  | none => .new

def ApiState.step (s : ApiState) : ConfigStep → ApiState
  | .put cm => (s.change (some cm)).obtain toml
  | .remove => s.change none
  | .gap changes => (changes.foldl ApiState.change s).obtain toml

def ApiState.reports (s : ApiState) : ConfigStep → List (WatchEvent ConfigMap)
  | .put cm => streamOf [.apply cm]
  | .remove => streamOf (s.current.toList.map .delete)
  | .gap changes => streamOf [.relist (changes.foldl ApiState.change s).current.toList]

structure AgentRun where
  api : ApiState
  config : Option Config

def AgentRun.new : AgentRun := ⟨.new, none⟩

def AgentRun.step (s : AgentRun) (step : ConfigStep) : AgentRun where
  api := s.api.step toml step
  config := (s.api.reports step).foldl (applyEvent toml) s.config

def AgentRun.run (history : List ConfigStep) : AgentRun := history.foldl (AgentRun.step toml) .new

/-- The scanner sees the configuration of the ConfigMap as it is now; of a malformed one, the last good one. -/
def AgentRun.Follows (s : AgentRun) : Prop :=
  match s.api.current with
  | none => s.config = none
  | some cm => match configmapToConfig toml cm with
    | .ok parsed => s.config = parsed
    | .error _ => s.config = s.api.lastGood

def AlwaysFollows (history : List ConfigStep) : Prop :=
  ∀ before, before <+: history → (AgentRun.run toml before).Follows toml

/-- An agent that holds a configuration does not miss a deletion, unless a well-formed ConfigMap is back. -/
def DeletionsSeen (history : List ConfigStep) : Prop :=
  ∀ before changes, before ++ [.gap changes] <+: history → none ∈ changes →
    ((changes.foldl ApiState.change (AgentRun.run toml before).api).reading toml).isSome = true ∨
      (AgentRun.run toml before).api.lastGood = none

end

/-! ## One step -/

section

variable {toml : Toml}

/-- What was obtained belongs to the present ConfigMap. -/
structure ApiState.Sound (toml : Toml) (s : ApiState) : Prop where
  absent : s.current = none → s.lastGood = none
  obtained : ∀ parsed, s.reading toml = some parsed → s.lastGood = parsed

theorem ApiState.sound_new : ApiState.Sound toml .new := ⟨fun _ => rfl, fun _ h => (nomatch h)⟩

theorem ApiState.sound_obtain {s : ApiState} (h : s.current = none → s.lastGood = none) :
    (s.obtain toml).Sound toml := by
  constructor
  · intro hnone
    have hnone : s.current = none := hnone
    rw [obtain, reading, hnone]
    exact h hnone
  · intro parsed hparsed
    have hparsed : s.reading toml = some parsed := hparsed
    rw [obtain, hparsed]
    rfl

theorem ApiState.absent_changes {s : ApiState} (h : s.current = none → s.lastGood = none)
    (changes : List (Option ConfigMap)) :
    (changes.foldl ApiState.change s).current = none → (changes.foldl ApiState.change s).lastGood = none := by
  induction changes generalizing s with
  | nil => exact h
  | cons change changes ih =>
    apply ih
    cases change with
    | none => exact fun _ => rfl
    | some cm => exact fun hnone => (nomatch hnone)

theorem ApiState.Sound.step {s : ApiState} (h : s.Sound toml) (step : ConfigStep) : (s.step toml step).Sound toml := by
  cases step with
  | put cm => exact sound_obtain (absent_changes h.absent [some cm])
  | remove => exact sound_new
  | gap changes => exact sound_obtain (absent_changes h.absent changes)

theorem AgentRun.sound_run (history : List ConfigStep) : (AgentRun.run toml history).api.Sound toml := by
  induction history using List.reverseRecOn with
  | nil => exact ApiState.sound_new
  | append_singleton history step ih =>
    rw [run, List.foldl_append]
    exact ih.step step

theorem AgentRun.follows_iff {s : AgentRun} (h : s.api.Sound toml) : s.Follows toml ↔ s.config = s.api.lastGood := by
  unfold Follows
  split
  · rename_i hcurrent
    rw [h.absent hcurrent]
  · rename_i cm hcurrent
    split
    · rename_i parsed hparsed
      have hreading : s.api.reading toml = some parsed := by rw [ApiState.reading, hcurrent, Option.bind_some, hparsed]; rfl
      rw [h.obtained parsed hreading]
    · exact Iff.rfl

theorem relist_eq (config : Option Config) (s : ApiState) :
    (streamOf [.relist s.current.toList]).foldl (applyEvent toml) config = (s.reading toml).getD config := by
  rw [streamOf_relist, ApiState.reading]
  cases s.current with
  | none => rfl
  | some cm =>
    cases hparsed : configmapToConfig toml cm with
    | ok parsed => simp [applyEvent, hparsed, Except.toOption]
    | error e => simp [applyEvent, hparsed, Except.toOption]

theorem ApiState.lastGood_changes {changes : List (Option ConfigMap)} (h : none ∉ changes) (s : ApiState) :
    (changes.foldl ApiState.change s).lastGood = s.lastGood := by
  induction changes generalizing s with
  | nil => rfl
  | cons change changes ih =>
    rw [List.mem_cons, not_or] at h
    rw [List.foldl_cons, ih h.2]
    cases change with
    | none => exact absurd rfl h.1
    | some cm => rfl

theorem ApiState.lastGood_deleted {changes : List (Option ConfigMap)} (h : none ∈ changes) (s : ApiState) :
    (changes.foldl ApiState.change s).lastGood = none := by
  induction changes generalizing s with
  | nil => cases h
  | cons change changes ih =>
    rw [List.foldl_cons]
    by_cases htail : none ∈ changes
    · exact ih htail _
    · rw [lastGood_changes htail]
      rcases List.mem_cons.mp h with hhead | hmem
      · rw [← hhead]
        rfl
      · exact absurd hmem htail

theorem AgentRun.step_iff {s : AgentRun} (hsound : s.api.Sound toml) (hconfig : s.config = s.api.lastGood)
    (step : ConfigStep) : (s.step toml step).config = (s.step toml step).api.lastGood ↔
      ∀ changes, step = .gap changes → none ∈ changes →
        ((changes.foldl ApiState.change s.api).reading toml).isSome = true ∨ s.api.lastGood = none := by
  cases step with
  | put cm =>
    refine ⟨fun _ _ h => (nomatch h), fun _ => ?_⟩
    have hput : (s.step toml (.put cm)).config = applyEvent toml s.config (.apply cm) := rfl
    have hgood : (s.step toml (.put cm)).api.lastGood = ((configmapToConfig toml cm).toOption).getD s.api.lastGood := rfl
    rw [hput, hgood, hconfig, applyEvent]
    cases configmapToConfig toml cm with
    | ok parsed => rfl
    | error e => rfl
  | remove =>
    refine ⟨fun _ _ h => (nomatch h), fun _ => ?_⟩
    have hremove : (s.step toml .remove).config =
        (streamOf (s.api.current.toList.map .delete)).foldl (applyEvent toml) s.config := rfl
    have hgood : (s.step toml .remove).api.lastGood = none := rfl
    rw [hremove, hgood]
    cases hcurrent : s.api.current with
    | none => exact hconfig.trans (hsound.absent hcurrent)
    | some cm => rfl
  | gap changes =>
    have hgap : (s.step toml (.gap changes)).config =
        ((changes.foldl ApiState.change s.api).reading toml).getD s.api.lastGood := by
      rw [← hconfig]
      exact relist_eq s.config _
    have hgood : (s.step toml (.gap changes)).api.lastGood =
        ((changes.foldl ApiState.change s.api).reading toml).getD (changes.foldl ApiState.change s.api).lastGood := rfl
    rw [hgap, hgood]
    constructor
    · intro hsame changes' heq hdeleted
      cases heq
      rw [ApiState.lastGood_deleted hdeleted] at hsame
      cases hreading : (changes.foldl ApiState.change s.api).reading toml with
      | some parsed => exact .inl rfl
      | none =>
        rw [hreading] at hsame
        exact .inr hsame
    · intro h
      by_cases hdeleted : none ∈ changes
      · rw [ApiState.lastGood_deleted hdeleted]
        rcases h changes rfl hdeleted with hreading | hnone
        · obtain ⟨parsed, hparsed⟩ := Option.isSome_iff_exists.mp hreading
          rw [hparsed]
          rfl
        · rw [hnone]
      · rw [ApiState.lastGood_changes hdeleted]

/-- The configuration follows the ConfigMap all along if and only if no deletion is missed that matters. -/
theorem config_follows_iff (history : List ConfigStep) : AlwaysFollows toml history ↔ DeletionsSeen toml history := by
  induction history using List.reverseRecOn with
  | nil =>
    constructor
    · intro _ before changes hinitial
      exact absurd (List.prefix_nil.mp hinitial) (List.append_ne_nil_of_right_ne_nil _ (List.cons_ne_nil _ _))
    · intro _ before hinitial
      rw [List.prefix_nil.mp hinitial]
      exact rfl
  | append_singleton history step ih =>
    have hfollows : AlwaysFollows toml (history ++ [step]) ↔
        AlwaysFollows toml history ∧ (AgentRun.run toml (history ++ [step])).Follows toml := by
      constructor
      · intro h
        exact ⟨fun before hinitial => h before (hinitial.trans (List.prefix_append _ _)), h _ (List.prefix_refl _)⟩
      · rintro ⟨hbefore, hlast⟩ before hinitial
        rcases List.prefix_concat_iff.mp hinitial with rfl | hinitial
        · exact hlast
        · exact hbefore before hinitial
    have hseen : DeletionsSeen toml (history ++ [step]) ↔ DeletionsSeen toml history ∧ ∀ changes,
        step = .gap changes → none ∈ changes →
          ((changes.foldl ApiState.change (AgentRun.run toml history).api).reading toml).isSome = true ∨
            (AgentRun.run toml history).api.lastGood = none := by
      constructor
      · intro h
        refine ⟨fun before changes hinitial => h before changes (hinitial.trans (List.prefix_append _ _)), ?_⟩
        rintro changes rfl
        exact h history changes (List.prefix_refl _)
      · rintro ⟨hbefore, hlast⟩ before changes hinitial
        rcases List.prefix_concat_iff.mp hinitial with heq | hinitial
        · obtain ⟨rfl, hstep⟩ := List.append_inj' heq rfl
          exact hlast changes (List.cons.inj hstep).1.symm
        · exact hbefore before changes hinitial
    rw [hfollows, hseen, ih]
    refine and_congr_right fun h => ?_
    have hsound := @AgentRun.sound_run toml history
    have hconfig := (AgentRun.follows_iff hsound).mp (ih.mpr h history (List.prefix_refl _))
    rw [AgentRun.follows_iff (AgentRun.sound_run _), AgentRun.run, List.foldl_append]
    exact AgentRun.step_iff hsound hconfig step

end

/-! ## A ConfigMap deleted during a gap -/

/-- A `toml` crate that knows one text. -/
def demoToml : Toml where
  toText _ := ""
  fromStr s := if s = "match_commands = [\"java\"]" then .ok [("match_commands", .array [.string "java"])] else .error "expected"

def demoConfigMap : ConfigMap := ⟨some [(reclaimConfigDataKey, "match_commands = [\"java\"]")]⟩

theorem deleted_configMap_stays_armed : ¬∀ history, AlwaysFollows demoToml history := by
  intro hfollows
  have hgap := (config_follows_iff _).mp (hfollows [.put demoConfigMap, .gap [none]]) [.put demoConfigMap] [none]
    (List.prefix_refl _) (List.mem_singleton_self _)
  revert hgap
  decide

end FiveSpot.ReclaimAgent
