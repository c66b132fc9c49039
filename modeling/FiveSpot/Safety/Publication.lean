import FiveSpot.Safety.ProviderStatus

/-! # What a provider's stored status says

A report is what a successful reconcile finds out. The status patch leaves out the next transition when there
is none, and merging such a patch keeps the one that is stored.
-/

namespace FiveSpot

set_option autoImplicit false

/-! ## Reports -/

/-- What a reconcile finds of an object at an instant. -/
structure ProviderReport where
  active : Bool
  generation : Option Int
  now : Time
  next : Option Time
  deriving DecidableEq

/-- The instant of the last report with which the activity changed, or else of the first. The newest stands first. -/
def lastFlip : List ProviderReport → Option Time
  | [] => none
  | [report] => some report.now
  | report :: previous :: rest =>
    if report.active = previous.active then lastFlip (previous :: rest) else some report.now

theorem lastFlip_cons (report : ProviderReport) (reports : List ProviderReport) :
    ∃ time, lastFlip (report :: reports) = some time := by
  induction reports generalizing report with
  | nil => exact ⟨report.now, rfl⟩
  | cons previous rest ih =>
    rw [lastFlip]
    split
    · exact ih previous
    · exact ⟨report.now, rfl⟩

/-- The fields of the status after these reports, of which `report` is the newest. -/
structure Shows (status : Option Json) (reports : List ProviderReport) (report : ProviderReport) : Prop where
  active : status.bind (Json.get "active") = some (.bool report.active)
  generation : status.bind (Json.get "observedGeneration") = report.generation.map Json.num
  next : status.bind (Json.get "nextTransitionTime") = (report.next.map toRfc3339).map Json.str
  change : status.bind (Json.get "lastTransitionTime") = ((lastFlip reports).map toRfc3339).map Json.str

/-- An object and the reports of its successful reconciles. -/
structure PublishedRun (Spec : Type) where
  object : ProviderObject Spec
  reports : List ProviderReport

def PublishedRun.created {Spec : Type} (name ns : String) (spec : Spec) : PublishedRun Spec :=
  ⟨⟨name, some ns, some 1, spec, none⟩, []⟩

/-- After each reconcile, and until the next, the status shows its report. -/
def PublishedRun.Current {Spec : Type} (s : PublishedRun Spec) : Prop :=
  ∀ report ∈ s.reports.head?, Shows s.object.status s.reports report

/-- No report without a next transition comes after one with it. -/
def NeverWithdrawn (reports : List ProviderReport) : Prop :=
  reports.Pairwise fun later earlier => earlier.next.isSome → later.next.isSome

section

variable {Spec : Type} [DecidableEq Spec] (p : Provider Spec)

def providerReport (object : ProviderObject Spec) (now : Time) : Except ProviderError ProviderReport := do
  let active ← p.isActiveAt object.spec now
  let next ← nextTransition p object.spec now
  return ⟨active, object.generation, now, next⟩

def PublishedRun.step (s : PublishedRun Spec) : ProviderStep Spec → PublishedRun Spec
  | .edit spec => { s with object := s.object.edit spec }
  | .reconcile now applied => match reconcileProvider p s.object now, providerReport p s.object now with
    | .ok publication, .ok report =>
      if applied then ⟨s.object.publish publication.status, report :: s.reports⟩ else s
    | _, _ => s

def PublishedRun.run (s : PublishedRun Spec) (steps : List (ProviderStep Spec)) : PublishedRun Spec :=
  steps.foldl (PublishedRun.step p) s

/-! ## One publication -/

variable {p} {object : ProviderObject Spec} {now : Time} {active : Bool} {next : Option Time}

section

omit [DecidableEq Spec]

theorem get_publish_null {name : String} (hmem : (name, .null) ∈ providerStatus p object active next now) :
    (Json.mergePatch (object.status.getD .null) (.obj (providerStatus p object active next now))).get name = none := by
  rw [Json.mergePatch_obj]
  exact Json.get_mergeFields_of_null hmem (nodup_providerStatus active next)

theorem get_publish_absent {name : String}
    (hnames : name ∉ (providerStatus p object active next now).map Prod.fst) :
    (Json.mergePatch (object.status.getD .null) (.obj (providerStatus p object active next now))).get name =
      (object.status.getD .null).get name := by
  rw [Json.mergePatch_obj, Json.get_mergeFields_of_not_mem hnames, Json.get_asObject]

theorem getD_null_get (status : Option Json) (name : String) :
    (status.getD .null).get name = status.bind (Json.get name) := by
  cases status <;> rfl

theorem publish_generation : (object.publish (.obj (providerStatus p object active next now))).status.bind
    (Json.get "observedGeneration") = object.generation.map Json.num := by
  have hmem : ("observedGeneration", (object.generation.map Json.num).getD .null) ∈
      providerStatus p object active next now := by simp [providerStatus]
  rw [ProviderObject.publish, Option.bind_some]
  cases hgeneration : object.generation with
  | none =>
    rw [hgeneration] at hmem
    exact get_publish_null hmem
  | some generation =>
    rw [hgeneration] at hmem
    rw [get_publish hmem rfl, Option.map_some, Option.getD_some, Json.mergePatch]

theorem publish_active_field : (object.publish (.obj (providerStatus p object active next now))).status.bind
    (Json.get "active") = some (.bool active) := by
  have hmem : ("active", .bool active) ∈ providerStatus p object active next now := by simp [providerStatus]
  rw [ProviderObject.publish, Option.bind_some, get_publish hmem rfl, Json.mergePatch]

/-- What the patch leaves out stays. -/
theorem publish_next : (object.publish (.obj (providerStatus p object active next now))).status.bind
    (Json.get "nextTransitionTime") =
      ((next.map toRfc3339).map Json.str).or (object.status.bind (Json.get "nextTransitionTime")) := by
  rw [ProviderObject.publish, Option.bind_some]
  cases next with
  | some next =>
    have hmem : ("nextTransitionTime", .str (toRfc3339 next)) ∈ providerStatus p object active (some next) now := by
      simp [providerStatus, timeField]
    rw [get_publish hmem rfl, Json.mergePatch]
    rfl
  | none =>
    have hnames : "nextTransitionTime" ∉ (providerStatus p object active none now).map Prod.fst := by
      simp only [providerStatus, List.map_append, timeField_names, List.map_cons, List.map_nil]
      split <;> decide
    rw [get_publish_absent hnames, getD_null_get]
    rfl

theorem publish_change : (object.publish (.obj (providerStatus p object active next now))).status.bind
    (Json.get "lastTransitionTime") = ((providerTransitionTime object.status active now).map Json.str).or
      (object.status.bind (Json.get "lastTransitionTime")) := by
  rw [ProviderObject.publish, Option.bind_some]
  cases htime : providerTransitionTime object.status active now with
  | some time =>
    have hmem : ("lastTransitionTime", .str time) ∈ providerStatus p object active next now := by
      simp [providerStatus, timeField, htime]
    rw [get_publish hmem rfl, Json.mergePatch]
    rfl
  | none =>
    have hnames : "lastTransitionTime" ∉ (providerStatus p object active next now).map Prod.fst := by
      simp only [providerStatus, List.map_append, timeField_names, htime, List.map_cons, List.map_nil, Option.isSome_none,
        Bool.false_eq_true, if_false]
      split <;> decide
    rw [get_publish_absent hnames, getD_null_get]
    rfl

end

/-! ## Along a history -/

/-- What has accumulated in the status: the newest report, but the newest next transition of all. -/
structure Accumulates (s : PublishedRun Spec) : Prop where
  namespaced : ∃ ns, s.object.ns = some ns
  unpublished : s.reports = [] → s.object.status = none
  newest : ∀ report ∈ s.reports.head?,
    Shows s.object.status s.reports { report with next := s.reports.findSome? ProviderReport.next }

omit [DecidableEq Spec] in
theorem accumulates_created (name ns : String) (spec : Spec) : Accumulates (PublishedRun.created name ns spec) :=
  ⟨⟨ns, rfl⟩, fun _ => rfl, fun _ h => nomatch h⟩

omit [DecidableEq Spec] in
/-- The stored time stamp is that of the last change. -/
theorem providerTransitionTime_eq {s : PublishedRun Spec} (hs : Accumulates s) {report : ProviderReport} :
    providerTransitionTime s.object.status report.active report.now =
      (lastFlip (report :: s.reports)).map toRfc3339 := by
  cases hreports : s.reports with
  | nil =>
    rw [hs.unpublished hreports]
    rfl
  | cons previous rest =>
    have hshows := hs.newest previous (by rw [hreports]; rfl)
    obtain ⟨status, hstatus, hactive⟩ := Option.bind_eq_some_iff.mp hshows.active
    have hpublished : publishedActive s.object.status = some previous.active := by
      rw [publishedActive, hshows.active]
      rfl
    have hchange : (s.object.status.bind (Json.get "lastTransitionTime")).bind Json.asStr =
        (lastFlip s.reports).map toRfc3339 := by
      rw [hshows.change]
      cases lastFlip s.reports <;> rfl
    rw [providerTransitionTime, hpublished, hchange, hreports, hstatus, lastFlip]
    simp only [Option.map_some, Option.getD_some, Option.some.injEq]
    by_cases hsame : previous.active = report.active
    · rw [if_pos hsame, if_pos hsame.symm]
    · rw [if_neg hsame, if_neg (Ne.symm hsame)]
      rfl

omit [DecidableEq Spec] in
theorem providerReport_eq_ok_iff {report : ProviderReport} : providerReport p object now = .ok report ↔
    ∃ active next, p.isActiveAt object.spec now = .ok active ∧ nextTransition p object.spec now = .ok next ∧
      report = ⟨active, object.generation, now, next⟩ := by
  simp only [providerReport, Interaction.except_bind_eq_ok_iff]
  constructor
  · rintro ⟨active, hactive, next, hnext, heq⟩
    cases heq
    exact ⟨active, next, hactive, hnext, rfl⟩
  · rintro ⟨active, next, hactive, hnext, rfl⟩
    exact ⟨active, hactive, next, hnext, rfl⟩

/-- A step adds a report and publishes it, or leaves reports and status as they are. -/
theorem published_step_cases {s : PublishedRun Spec} (hs : Accumulates s) (step : ProviderStep Spec) :
    ((s.step p step).reports = s.reports ∧ (s.step p step).object.status = s.object.status ∧
      (s.step p step).object.ns = s.object.ns) ∨
    ∃ report : ProviderReport, report.generation = s.object.generation ∧ s.step p step =
      ⟨s.object.publish (.obj (providerStatus p s.object report.active report.next report.now)), report :: s.reports⟩ := by
  cases step with
  | edit spec => exact .inl ⟨rfl, edit_status spec, edit_ns spec⟩
  | reconcile now applied =>
    obtain ⟨ns, hns⟩ := hs.namespaced
    simp only [PublishedRun.step]
    split
    · rename_i publication report hpublication hreport
      obtain ⟨active, next, hactive, hnext, rfl⟩ := (reconcileProvider_eq_ok_iff hns).mp hpublication
      obtain ⟨active', next', hactive', hnext', rfl⟩ := providerReport_eq_ok_iff.mp hreport
      rw [hactive] at hactive'
      rw [hnext] at hnext'
      cases hactive'
      cases hnext'
      cases applied with
      | false => exact .inl ⟨rfl, rfl, rfl⟩
      | true => exact .inr ⟨⟨active, s.object.generation, now, next⟩, rfl, rfl⟩
    · exact .inl ⟨rfl, rfl, rfl⟩

theorem Accumulates.step {s : PublishedRun Spec} (hs : Accumulates s) (step : ProviderStep Spec) :
    Accumulates (s.step p step) := by
  rcases published_step_cases (p := p) hs step with ⟨hreports, hstatus, hns⟩ | ⟨report, hgeneration, heq⟩
  · constructor
    · rw [hns]
      exact hs.namespaced
    · rw [hreports, hstatus]
      exact hs.unpublished
    · rw [hreports, hstatus]
      exact hs.newest
  · rw [heq]
    refine ⟨hs.namespaced, fun h => (nomatch h), fun newest hnewest => ?_⟩
    cases hnewest
    constructor
    · exact publish_active_field
    · rw [hgeneration]
      exact publish_generation
    · rw [publish_next, List.findSome?_cons]
      have hstored : s.object.status.bind (Json.get "nextTransitionTime") =
          ((s.reports.findSome? ProviderReport.next).map toRfc3339).map Json.str := by
        cases hreports : s.reports with
        | nil =>
          rw [hs.unpublished hreports]
          rfl
        | cons previous rest =>
          rw [← hreports]
          exact (hs.newest previous (by rw [hreports]; rfl)).next
      cases hnext : report.next with
      | some next => rfl
      | none => exact hstored
    · rw [publish_change, providerTransitionTime_eq hs]
      obtain ⟨time, htime⟩ := lastFlip_cons report s.reports
      rw [htime]
      rfl

theorem Accumulates.run {s : PublishedRun Spec} (hs : Accumulates s) (steps : List (ProviderStep Spec)) :
    Accumulates (s.run p steps) := by
  induction steps generalizing s with
  | nil => exact hs
  | cons step steps ih => exact ih (hs.step step)

omit [DecidableEq Spec] in
/-- The status is current when the newest report has a next transition or none of the reports has. -/
theorem current_cons_iff {s : PublishedRun Spec} (hs : Accumulates s) {report : ProviderReport}
    {older : List ProviderReport} (hreports : s.reports = report :: older) :
    s.Current ↔ ∀ earlier ∈ older, earlier.next.isSome → report.next.isSome := by
  have hnewest : ∀ newest ∈ s.reports.head?, report = newest := by
    rw [hreports]
    exact fun newest hmem => Option.some.inj hmem
  have hshows := hs.newest report (by rw [hreports]; rfl)
  have hstored := hshows.next
  rw [hreports, List.findSome?_cons] at hstored
  constructor
  · intro hcurrent earlier hearlier hsome
    rw [(hcurrent report (by rw [hreports]; rfl)).next] at hstored
    cases hnext : report.next with
    | some next => rfl
    | none =>
      rw [hnext] at hstored
      have hnone : older.findSome? ProviderReport.next = none := by simpa using hstored.symm
      rw [List.findSome?_eq_none_iff.mp hnone earlier hearlier] at hsome
      cases hsome
  · intro hnever newest hmem
    cases hnewest newest hmem
    refine ⟨hshows.active, hshows.generation, ?_, hshows.change⟩
    rw [hstored]
    cases hnext : report.next with
    | some next => rfl
    | none =>
      have hnone : older.findSome? ProviderReport.next = none := by
        rw [List.findSome?_eq_none_iff]
        intro earlier hearlier
        cases hsome : earlier.next with
        | none => rfl
        | some time =>
          have himpossible := hnever earlier hearlier (by rw [hsome]; rfl)
          rw [hnext] at himpossible
          cases himpossible
      rw [hnone]

/-- A provider's status is current along a history exactly when no next transition is withdrawn in it. -/
theorem current_iff_neverWithdrawn (p : Provider Spec) (name ns : String) (spec : Spec)
    (steps : List (ProviderStep Spec)) :
    (∀ before after, steps = before ++ after → ((PublishedRun.created name ns spec).run p before).Current) ↔
      NeverWithdrawn ((PublishedRun.created name ns spec).run p steps).reports := by
  induction steps using List.reverseRecOn with
  | nil =>
    constructor
    · exact fun _ => List.Pairwise.nil
    · intro _ before after heq
      rw [(List.append_eq_nil_iff.mp heq.symm).1]
      exact fun _ h => nomatch h
  | append_singleton steps step ih =>
    have hbefore := (accumulates_created name ns spec).run (p := p) steps
    have hlast : (PublishedRun.created name ns spec).run p (steps ++ [step]) =
        ((PublishedRun.created name ns spec).run p steps).step p step := by
      rw [PublishedRun.run, List.foldl_append]
      rfl
    have hprefixes : (∀ before after, steps ++ [step] = before ++ after →
        ((PublishedRun.created name ns spec).run p before).Current) ↔
        (∀ before after, steps = before ++ after → ((PublishedRun.created name ns spec).run p before).Current) ∧
          (((PublishedRun.created name ns spec).run p steps).step p step).Current := by
      constructor
      · intro h
        refine ⟨fun before after heq => h before (after ++ [step]) (by rw [heq, List.append_assoc]), ?_⟩
        rw [← hlast]
        exact h (steps ++ [step]) [] (List.append_nil _).symm
      · rintro ⟨h, hcurrent⟩ before after heq
        rcases List.prefix_concat_iff.mp ⟨after, heq.symm⟩ with rfl | ⟨rest, hrest⟩
        · rw [hlast]
          exact hcurrent
        · exact h before rest hrest.symm
    rw [hprefixes, ih, hlast]
    have hafter := hbefore.step (p := p) step
    rcases published_step_cases (p := p) hbefore step with ⟨hreports, hstatus, -⟩ | ⟨report, -, heq⟩
    · have hcurrent : (((PublishedRun.created name ns spec).run p steps).step p step).Current ↔
          ((PublishedRun.created name ns spec).run p steps).Current := by
        simp only [PublishedRun.Current, hreports, hstatus]
      rw [hreports, hcurrent, and_iff_left_of_imp]
      exact fun h => ih.mpr h steps [] (List.append_nil _).symm
    · have hreports : (((PublishedRun.created name ns spec).run p steps).step p step).reports =
          report :: ((PublishedRun.created name ns spec).run p steps).reports := by rw [heq]
      rw [current_cons_iff hafter hreports, hreports, NeverWithdrawn, NeverWithdrawn, List.pairwise_cons, and_comm]

end

/-- Both providers: the stored status is current along a history exactly when no reconcile that finds no next
transition comes after one that found one. -/
theorem published_status_current_iff (zones : Zones) (name ns : String) :
    (∀ (spec : TimeBasedSpotScheduleSpec) (steps : List (ProviderStep TimeBasedSpotScheduleSpec)),
      (∀ before after, steps = before ++ after →
        ((PublishedRun.created name ns spec).run (timeBased zones) before).Current) ↔
      NeverWithdrawn ((PublishedRun.created name ns spec).run (timeBased zones) steps).reports) ∧
    ∀ (spec : CapitalMarketsScheduleSpec) (steps : List (ProviderStep CapitalMarketsScheduleSpec)),
      (∀ before after, steps = before ++ after →
        ((PublishedRun.created name ns spec).run (capitalMarkets zones) before).Current) ↔
      NeverWithdrawn ((PublishedRun.created name ns spec).run (capitalMarkets zones) steps).reports :=
  ⟨current_iff_neverWithdrawn (timeBased zones) name ns, current_iff_neverWithdrawn (capitalMarkets zones) name ns⟩

/-! ## A schedule that is switched off -/

def officeSchedule : TimeBasedSpotScheduleSpec := ⟨["mon-fri"], ["9-17"], "UTC", true⟩

/-- Thursday, the first of January 2026, at midnight, and half a minute later. -/
def switchedOff : PublishedRun TimeBasedSpotScheduleSpec :=
  (PublishedRun.created "office" "team" officeSchedule).run (timeBased utcOnly)
    [.reconcile 1767225600000000000 true, .edit { officeSchedule with enabled := false },
      .reconcile 1767225630000000000 true]

/-- The schedule is off and will stay off, but nine o'clock is still announced. -/
theorem next_transition_outlives_schedule : switchedOff.reports.head? = some ⟨false, some 2, 1767225630000000000, none⟩ ∧
    switchedOff.object.status.bind (Json.get "nextTransitionTime") = some (.str "2026-01-01T09:00:00+00:00") ∧
    ¬switchedOff.Current := by
  have hnewest : switchedOff.reports.head? = some ⟨false, some 2, 1767225630000000000, none⟩ := by decide +kernel
  have hstored : switchedOff.object.status.bind (Json.get "nextTransitionTime") =
      some (.str "2026-01-01T09:00:00+00:00") := by decide +kernel
  refine ⟨hnewest, hstored, fun hcurrent => ?_⟩
  have hnext := (hcurrent _ hnewest).next
  rw [hstored] at hnext
  cases hnext

end FiveSpot
