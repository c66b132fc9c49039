import FiveSpot.Model.Api
import FiveSpot.Model.MergePatch
import FiveSpot.Providers.Windows

/-! # The first-party providers (`src/providers`)

A provider evaluates its own spec at the current instant and publishes the result as `status.active`. The
two providers share their reconciler; they differ in how a spec is evaluated and in the texts of the
condition.
-/

namespace FiveSpot

set_option autoImplicit false

inductive ProviderError where
  | invalidTimezone (name : String)
  | window (text : String)
  | calendar (text : String)
  | unnamespaced
  | kube (e : KubeError)

def parseTimezone (zones : Zones) (name : String) : Except ProviderError (Time → Int) :=
  match zones name with
  | some offset => .ok offset
  | none => .error (.invalidTimezone name)

/-! ## Time based schedules -/

structure TimeBasedSpotScheduleSpec where
  daysOfWeek : List String
  hoursOfDay : List String
  timezone : String
  enabled : Bool
  deriving DecidableEq

/-- A disabled schedule is inactive, whatever else it says. -/
def TimeBasedSpotScheduleSpec.isActiveAt (zones : Zones) (spec : TimeBasedSpotScheduleSpec) (instant : Time) :
    Except ProviderError Bool :=
  if !spec.enabled then .ok false
  else do
    let offset ← parseTimezone zones spec.timezone
    let days ← (parseDayRanges spec.daysOfWeek).mapError .window
    let hours ← (parseHourRanges spec.hoursOfDay).mapError .window
    return days.contains (weekdayFromMonday (localSeconds offset instant)) &&
      hours.contains (hourOfDay (localSeconds offset instant))

/-! ## Exchange calendars -/

structure TradingSession where
  daysOfWeek : List String
  hoursOfDay : List String
  deriving DecidableEq

structure EarlyClose where
  date : String
  closeHour : UInt8
  deriving DecidableEq

structure CapitalMarketsScheduleSpec where
  timezone : String
  sessions : List TradingSession
  holidays : List String
  earlyCloses : List EarlyClose
  deriving DecidableEq

/-- Sessions are parsed one by one, and none after the first that is open. -/
def inSession (weekday hour : Nat) : List TradingSession → Except ProviderError Bool
  | [] => .ok false
  | session :: rest => do
    let days ← (parseDayRanges session.daysOfWeek).mapError .calendar
    let hours ← (parseHourRanges session.hoursOfDay).mapError .calendar
    if days.contains weekday && hours.contains hour then return true else inSession weekday hour rest

def closedEarly (spec : CapitalMarketsScheduleSpec) (date : String) (hour : Nat) : Bool :=
  match spec.earlyCloses.find? fun earlyClose => earlyClose.date == date with
  | some earlyClose => decide (earlyClose.closeHour.toNat < hour)
  | none => false

/-- On a holiday no session is looked at. -/
def CapitalMarketsScheduleSpec.isActiveAt (zones : Zones) (spec : CapitalMarketsScheduleSpec) (instant : Time) :
    Except ProviderError Bool := do
  let offset ← parseTimezone zones spec.timezone
  let seconds := localSeconds offset instant
  if spec.holidays.contains (dateText seconds) then return false
  else do
    let open_ ← inSession (weekdayFromMonday seconds) (hourOfDay seconds) spec.sessions
    return open_ && !closedEarly spec (dateText seconds) (hourOfDay seconds)

/-! ## The reconciler -/

structure Provider (Spec : Type) where
  isActiveAt : Spec → Time → Except ProviderError Bool
  openReason : String
  openMessage : String
  closedReason : String
  closedMessage : String

def timeBased (zones : Zones) : Provider TimeBasedSpotScheduleSpec where
  isActiveAt := TimeBasedSpotScheduleSpec.isActiveAt zones
  openReason := Constants.reasonTimeBasedWindowOpen
  openMessage := "schedule window open"
  closedReason := Constants.reasonTimeBasedWindowClosed
  closedMessage := "schedule window closed"

def capitalMarkets (zones : Zones) : Provider CapitalMarketsScheduleSpec where
  isActiveAt := CapitalMarketsScheduleSpec.isActiveAt zones
  openReason := Constants.reasonCapitalMarketsSessionOpen
  openMessage := "market session open"
  closedReason := Constants.reasonCapitalMarketsSessionClosed
  closedMessage := "market session closed"

structure ProviderObject (Spec : Type) where
  name : String
  ns : Option String
  generation : Option Int
  spec : Spec
  status : Option Json

def publishedActive (status : Option Json) : Option Bool :=
  (status.bind (Json.get "active")).bind Json.asBool

/-- The body of the status patch and the nanoseconds until the next reconcile. -/
structure Publication where
  status : Json
  requeueAfter : Int

section

variable {Spec : Type} (p : Provider Spec)

/-- The first of `n` instants, an hour apart, at which the activity differs from `current`. -/
def nextFlip (active : Time → Except ProviderError Bool) (current : Bool) :
    Nat → Time → Except ProviderError (Option Time)
  | 0, _ => .ok none
  | n + 1, candidate => do
    let there ← active candidate
    if there != current then return some candidate
    else nextFlip active current n (candidate + nanosOf 3600)

def wholeHour (instant : Time) : Time := instant - instant % nanosOf 3600

def nextTransition (spec : Spec) (start : Time) : Except ProviderError (Option Time) := do
  let current ← p.isActiveAt spec start
  nextFlip (p.isActiveAt spec) current Constants.providerTransitionHorizonHours (wholeHour start + nanosOf 3600)

/-- The time stamp is renewed when the published value changes. -/
def providerTransitionTime (previous : Option Json) (active : Bool) (now : Time) : Option String :=
  if (previous.map fun _ => (publishedActive previous).getD false) = some active then
    (previous.bind (Json.get "lastTransitionTime")).bind Json.asStr
  else some (toRfc3339 now)

def readyCondition (active : Bool) (now : Time) : Json :=
  .obj [("type", .str Constants.conditionTypeReady), ("status", .str Constants.conditionStatusTrue),
    ("reason", .str (if active then p.openReason else p.closedReason)),
    ("message", .str (if active then p.openMessage else p.closedMessage)),
    ("lastTransitionTime", .str (toRfc3339 now))]

def timeField (name : String) (time : Option String) : Json.Fields :=
  (time.map fun time => (name, Json.str time)).toList

def providerStatus (object : ProviderObject Spec) (active : Bool) (next : Option Time) (now : Time) : Json.Fields :=
  [("active", .bool active), ("observedGeneration", (object.generation.map Json.num).getD .null),
    ("conditions", .arr [readyCondition p active now])] ++
    timeField "lastTransitionTime" (providerTransitionTime object.status active now) ++
    timeField "nextTransitionTime" (next.map toRfc3339)

/-- What a reconcile asks for; its one request is the status patch. -/
def reconcileProvider (object : ProviderObject Spec) (now : Time) : Except ProviderError Publication := do
  match object.ns with
  | none => .error .unnamespaced
  | some _ => do
    let active ← p.isActiveAt object.spec now
    let next ← nextTransition p object.spec now
    return ⟨.obj (providerStatus p object active next now),
      match next with
      | some next => next - now
      | none => nanosOf Constants.providerFallbackRequeueSecs⟩

end

variable {Spec : Type} {p : Provider Spec} {object : ProviderObject Spec} {now : Time}

theorem isActiveAt_of_nextTransition {spec : Spec} {next : Option Time}
    (h : nextTransition p spec now = .ok next) : ∃ active, p.isActiveAt spec now = .ok active := by
  obtain ⟨active, hactive, -⟩ := Interaction.except_bind_eq_ok_iff.mp h
  exact ⟨active, hactive⟩

theorem reconcileProvider_eq_ok_iff {ns : String} (hns : object.ns = some ns) {publication : Publication} :
    reconcileProvider p object now = .ok publication ↔ ∃ active next,
      p.isActiveAt object.spec now = .ok active ∧ nextTransition p object.spec now = .ok next ∧
        publication = ⟨.obj (providerStatus p object active next now),
          match next with
          | some next => next - now
          | none => nanosOf Constants.providerFallbackRequeueSecs⟩ := by
  simp only [reconcileProvider, hns, Interaction.except_bind_eq_ok_iff]
  constructor
  · rintro ⟨active, hactive, next, hnext, heq⟩
    cases heq
    exact ⟨active, next, hactive, hnext, rfl⟩
  · rintro ⟨active, next, hactive, hnext, rfl⟩
    exact ⟨active, hactive, next, hnext, rfl⟩

theorem timeField_names (name : String) (time : Option String) :
    (timeField name time).map Prod.fst = if time.isSome then [name] else [] := by
  cases time <;> rfl

theorem nodup_providerStatus (active : Bool) (next : Option Time) :
    ((providerStatus p object active next now).map Prod.fst).Nodup := by
  simp only [providerStatus, List.map_append, timeField_names, List.map_cons, List.map_nil]
  split <;> split <;> decide

end FiveSpot
