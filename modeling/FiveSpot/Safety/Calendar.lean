import FiveSpot.Model.FirstEntry
import FiveSpot.Safety.ProviderStatus

/-! # Exchange calendars without order

A calendar that is read without regard to order is open outside its holidays, in one of its sessions, up to
the hour of every early close of the date. The evaluation goes through sessions and early closes in the order
in which they are listed, and one entry can hide the ones after it.
-/

namespace FiveSpot

set_option autoImplicit false

open Interaction

/-! ## The calendar as such -/

def TradingSession.Parses (session : TradingSession) : Prop :=
  (∃ days, parseDayRanges session.daysOfWeek = .ok days) ∧ ∃ hours, parseHourRanges session.hoursOfDay = .ok hours

def TradingSession.Covers (session : TradingSession) (weekday hour : Nat) : Prop :=
  (∃ days, parseDayRanges session.daysOfWeek = .ok days ∧ weekday ∈ days) ∧
    ∃ hours, parseHourRanges session.hoursOfDay = .ok hours ∧ hour ∈ hours

/-- An early close of this date with which the hour is still open. -/
def EarlyClose.Spares (close : EarlyClose) (hour : Nat) : Prop := hour ≤ close.closeHour.toNat

structure InCalendar (spec : CapitalMarketsScheduleSpec) (date : String) (weekday hour : Nat) : Prop where
  workday : date ∉ spec.holidays
  session : ∃ session ∈ spec.sessions, session.Covers weekday hour
  spared : ∀ close ∈ spec.earlyCloses, close.date = date → close.Spares hour

/-! ## What is decided by position -/

/-- The first early close of the date. -/
def FirstClose (date : String) (closes : List EarlyClose) (close : EarlyClose) : Prop :=
  ∃ before after, closes = before ++ close :: after ∧ (∀ other ∈ before, other.date ≠ date) ∧ close.date = date

/-- A session covers the hour, and the ones before it parse. -/
def OpensFirst (sessions : List TradingSession) (weekday hour : Nat) : Prop :=
  ∃ before session after, sessions = before ++ session :: after ∧ (∀ other ∈ before, other.Parses) ∧
    session.Covers weekday hour

/-- What one session decides: nothing when it parses and does not cover the hour. -/
def sessionVerdict (weekday hour : Nat) (session : TradingSession) : Option (Except ProviderError Bool) :=
  match (parseDayRanges session.daysOfWeek).mapError .calendar with
  | .error e => some (.error e)
  | .ok days => match (parseHourRanges session.hoursOfDay).mapError .calendar with
    | .error e => some (.error e)
    | .ok hours => if days.contains weekday && hours.contains hour then some (.ok true) else none

def closeVerdict (date : String) (hour : Nat) (close : EarlyClose) : Option Bool :=
  if close.date = date then some (decide (close.closeHour.toNat < hour)) else none

section

variable {weekday hour : Nat} {date : String} {session : TradingSession} {sessions : List TradingSession}
  {close : EarlyClose} {spec : CapitalMarketsScheduleSpec}

theorem sessionVerdict_of_covers (h : session.Covers weekday hour) :
    sessionVerdict weekday hour session = some (.ok true) := by
  obtain ⟨⟨days, hdays, hday⟩, hours, hhours, hhour⟩ := h
  simp [sessionVerdict, hdays, hhours, Except.mapError, hday, hhour]

theorem sessionVerdict_of_parses (h : session.Parses) (hcovers : ¬session.Covers weekday hour) :
    sessionVerdict weekday hour session = none := by
  obtain ⟨⟨days, hdays⟩, hours, hhours⟩ := h
  have hout : ¬(weekday ∈ days ∧ hour ∈ hours) := fun hin => hcovers ⟨⟨days, hdays, hin.1⟩, hours, hhours, hin.2⟩
  simpa [sessionVerdict, hdays, hhours, Except.mapError] using hout

theorem sessionVerdict_of_not_parses (weekday hour : Nat) (h : ¬session.Parses) :
    ∃ e, sessionVerdict weekday hour session = some (.error e) := by
  unfold sessionVerdict
  cases hdays : parseDayRanges session.daysOfWeek with
  | error e => exact ⟨_, rfl⟩
  | ok days =>
    cases hhours : parseHourRanges session.hoursOfDay with
    | error e => exact ⟨_, rfl⟩
    | ok hours => exact absurd ⟨⟨days, hdays⟩, hours, hhours⟩ h

theorem inSession_eq : inSession weekday hour sessions =
    (sessions.findSome? (sessionVerdict weekday hour)).getD (.ok false) := by
  induction sessions with
  | nil => rfl
  | cons session rest ih =>
    rw [inSession, List.findSome?_cons, sessionVerdict, ih]
    cases (parseDayRanges session.daysOfWeek).mapError ProviderError.calendar with
    | error e => rfl
    | ok days =>
      cases (parseHourRanges session.hoursOfDay).mapError ProviderError.calendar with
      | error e => rfl
      | ok hours =>
        dsimp only [bind, Except.bind]
        cases days.contains weekday && hours.contains hour <;> rfl

theorem closedEarly_eq : closedEarly spec date hour =
    (spec.earlyCloses.findSome? (closeVerdict date hour)).getD false := by
  unfold closedEarly
  induction spec.earlyCloses with
  | nil => rfl
  | cons close rest ih =>
    rw [List.find?_cons, List.findSome?_cons, closeVerdict]
    by_cases hdate : close.date = date
    · rw [if_pos hdate, beq_iff_eq.mpr hdate]
      rfl
    · rw [if_neg hdate, beq_false_of_ne hdate]
      exact ih

theorem closeVerdict_isSome : (closeVerdict date hour close).isSome ↔ close.date = date := by
  unfold closeVerdict
  split <;> simp_all

theorem closeVerdict_of_date (h : close.date = date) :
    closeVerdict date hour close = some (decide (close.closeHour.toNat < hour)) := if_pos h

theorem inSession_eq_true_iff : inSession weekday hour sessions = .ok true ↔ OpensFirst sessions weekday hour := by
  rw [inSession_eq]
  constructor
  · intro h
    cases hfound : sessions.findSome? (sessionVerdict weekday hour) with
    | none =>
      rw [hfound] at h
      cases h
    | some verdict =>
      rw [hfound] at h
      cases h
      obtain ⟨before, session, after, rfl, hverdict, hbefore⟩ := List.findSome?_eq_some_iff.mp hfound
      refine ⟨before, session, after, rfl, fun other hother => ?_, ?_⟩
      · by_contra hfails
        obtain ⟨e, he⟩ := sessionVerdict_of_not_parses weekday hour hfails
        rw [hbefore other hother] at he
        cases he
      · by_contra hcovers
        by_cases hparses : session.Parses
        · rw [sessionVerdict_of_parses hparses hcovers] at hverdict
          cases hverdict
        · obtain ⟨e, he⟩ := sessionVerdict_of_not_parses weekday hour hparses
          rw [he] at hverdict
          cases hverdict
  · rintro ⟨before, session, after, rfl, hbefore, hcovers⟩
    have hverdict := sessionVerdict_of_covers hcovers
    rw [List.findSome?_append]
    cases hfound : before.findSome? (sessionVerdict weekday hour) with
    | none =>
      rw [Option.none_or, List.findSome?_cons, hverdict]
      rfl
    | some verdict =>
      obtain ⟨other, hother, hearlier⟩ := List.exists_of_findSome?_eq_some hfound
      by_cases hother' : other.Covers weekday hour
      · rw [sessionVerdict_of_covers hother'] at hearlier
        cases hearlier
        rfl
      · rw [sessionVerdict_of_parses (hbefore other hother) hother'] at hearlier
        cases hearlier

theorem closes_first_iff {closes : List EarlyClose} :
    (closes.findSome? (closeVerdict date hour)).getD false = true ↔
      ∃ close, FirstClose date closes close ∧ ¬close.Spares hour := by
  constructor
  · intro h
    cases hfound : closes.findSome? (closeVerdict date hour) with
    | none =>
      rw [hfound] at h
      cases h
    | some verdict =>
      rw [hfound] at h
      cases h
      obtain ⟨before, close, after, hcloses, hverdict, hbefore⟩ := List.findSome?_eq_some_iff.mp hfound
      have hdate : close.date = date := closeVerdict_isSome.mp (Option.isSome_of_eq_some hverdict)
      rw [closeVerdict_of_date hdate, Option.some.injEq, decide_eq_true_eq] at hverdict
      refine ⟨close, ⟨before, after, hcloses, fun other hother hdate' => ?_, hdate⟩, Nat.not_le.mpr hverdict⟩
      have hsome : (closeVerdict date hour other).isSome := closeVerdict_isSome.mpr hdate'
      rw [hbefore other hother] at hsome
      cases hsome
  · rintro ⟨close, ⟨before, after, rfl, hbefore, hdate⟩, hcloses⟩
    have hnone : before.findSome? (closeVerdict date hour) = none :=
      List.findSome?_eq_none_iff.mpr fun other hother => if_neg (hbefore other hother)
    rw [List.findSome?_append, hnone, Option.none_or, List.findSome?_cons, closeVerdict_of_date hdate]
    exact decide_eq_true (Nat.not_le.mp hcloses)

theorem closedEarly_iff : closedEarly spec date hour = true ↔
    ∃ close, FirstClose date spec.earlyCloses close ∧ ¬close.Spares hour := by
  rw [closedEarly_eq, closes_first_iff]

end

/-! ## The result -/

/-- A date, a weekday and an hour on the clock of the schedule's timezone. -/
structure LocalHour where
  date : String
  weekday : Nat
  hour : Nat
  deriving DecidableEq

def CapitalMarketsScheduleSpec.localHour (zones : Zones) (spec : CapitalMarketsScheduleSpec) (instant : Time) :
    Option LocalHour :=
  (zones spec.timezone).map fun offset => ⟨dateText (localSeconds offset instant),
    weekdayFromMonday (localSeconds offset instant), hourOfDay (localSeconds offset instant)⟩

/-- With every session in order, the instant is active just when the calendar is open. -/
def MeetsCalendar (zones : Zones) (spec : CapitalMarketsScheduleSpec) (instant : Time) : Prop :=
  ∀ t ∈ spec.localHour zones instant, (∀ session ∈ spec.sessions, session.Parses) →
    (spec.isActiveAt zones instant = .ok true ↔ InCalendar spec t.date t.weekday t.hour)

/-- The result, value or error, does not depend on the order of the entries. -/
def OrderFree (zones : Zones) (spec : CapitalMarketsScheduleSpec) (instant : Time) : Prop :=
  ∀ sessions holidays closes, sessions.Perm spec.sessions → holidays.Perm spec.holidays → closes.Perm spec.earlyCloses →
    CapitalMarketsScheduleSpec.isActiveAt zones
      { spec with sessions := sessions, holidays := holidays, earlyCloses := closes } instant =
        spec.isActiveAt zones instant

/-- The first early close of the date leaves an hour open only when all of them do. -/
def LedByFirst (closes : List EarlyClose) (date : String) (hour : Nat) : Prop :=
  (∀ close, FirstClose date closes close → close.Spares hour) → ∀ close ∈ closes, close.date = date → close.Spares hour

/-- The early closes of the date agree on the hour. -/
def ClosesAgree (closes : List EarlyClose) (date : String) (hour : Nat) : Prop :=
  ∀ close ∈ closes, ∀ other ∈ closes, close.date = date → other.date = date → (close.Spares hour ↔ other.Spares hour)

/-- Put before the first early close of the date, which closes an hour in session, this one spares it. -/
structure Reopens (spec : CapitalMarketsScheduleSpec) (t : LocalHour) (before : List EarlyClose) (close : EarlyClose)
    (after : List EarlyClose) : Prop where
  workday : t.date ∉ spec.holidays
  session : OpensFirst spec.sessions t.weekday t.hour
  date : close.date = t.date
  spares : close.Spares t.hour
  leads : ∀ other ∈ before, other.date ≠ t.date
  closed : ∃ first, FirstClose t.date after first ∧ ¬first.Spares t.hour

/-- The evaluation once the clock has been read. -/
def calendarResult (spec : CapitalMarketsScheduleSpec) (t : LocalHour) : Except ProviderError Bool :=
  if spec.holidays.contains t.date then .ok false
  else (inSession t.weekday t.hour spec.sessions).map fun open_ => open_ && !closedEarly spec t.date t.hour

section

variable {zones : Zones} {spec : CapitalMarketsScheduleSpec} {instant : Time} {t : LocalHour}

/-- The clock is the same for every schedule in the timezone. -/
theorem isActiveAt_eq (other : CapitalMarketsScheduleSpec) (hother : other.timezone = spec.timezone)
    (ht : t ∈ spec.localHour zones instant) : other.isActiveAt zones instant = calendarResult other t := by
  obtain ⟨offset, hzone, rfl⟩ := Option.map_eq_some_iff.mp ht
  simp only [CapitalMarketsScheduleSpec.isActiveAt, parseTimezone, hother, hzone, calendarResult]
  dsimp only [bind, Except.bind]
  split
  · rfl
  · cases inSession (weekdayFromMonday (localSeconds offset instant)) (hourOfDay (localSeconds offset instant))
      other.sessions <;> rfl

theorem isActiveAt_of_unknown (other : CapitalMarketsScheduleSpec) (hother : other.timezone = spec.timezone)
    (hzone : spec.localHour zones instant = none) :
    other.isActiveAt zones instant = .error (.invalidTimezone spec.timezone) := by
  have hunknown : zones spec.timezone = none := Option.map_eq_none_iff.mp hzone
  simp only [CapitalMarketsScheduleSpec.isActiveAt, parseTimezone, hother, hunknown]
  rfl

theorem calendarResult_eq_true_iff : calendarResult spec t = .ok true ↔
    t.date ∉ spec.holidays ∧ OpensFirst spec.sessions t.weekday t.hour ∧ closedEarly spec t.date t.hour = false := by
  rw [calendarResult, ← inSession_eq_true_iff]
  by_cases hholiday : t.date ∈ spec.holidays
  · rw [if_pos (by simpa using hholiday)]
    simp [hholiday]
  · rw [if_neg (by simpa using hholiday)]
    cases inSession t.weekday t.hour spec.sessions with
    | error e => simp [Except.map]
    | ok open_ => cases open_ <;> simp [Except.map, hholiday]

theorem opensFirst_iff_of_parses (hparses : ∀ session ∈ spec.sessions, session.Parses) :
    OpensFirst spec.sessions t.weekday t.hour ↔ ∃ session ∈ spec.sessions, session.Covers t.weekday t.hour := by
  constructor
  · rintro ⟨before, session, after, hsessions, -, hcovers⟩
    exact ⟨session, by simp [hsessions], hcovers⟩
  · rintro ⟨session, hmem, hcovers⟩
    obtain ⟨before, after, hsessions⟩ := List.append_of_mem hmem
    exact ⟨before, session, after, hsessions, fun other hother => hparses other (by simp [hsessions, hother]), hcovers⟩

theorem closedEarly_eq_false_iff : closedEarly spec t.date t.hour = false ↔
    ∀ close, FirstClose t.date spec.earlyCloses close → close.Spares t.hour := by
  rw [← Bool.not_eq_true, closedEarly_iff]
  simp only [not_exists, not_and, not_not]

theorem meetsCalendar_iff : MeetsCalendar zones spec instant ↔ ∀ t ∈ spec.localHour zones instant,
    (∀ session ∈ spec.sessions, session.Parses) → t.date ∉ spec.holidays →
      (∃ session ∈ spec.sessions, session.Covers t.weekday t.hour) → LedByFirst spec.earlyCloses t.date t.hour := by
  refine forall₂_congr fun t ht => forall_congr' fun hparses => ?_
  rw [isActiveAt_eq spec rfl ht, calendarResult_eq_true_iff, opensFirst_iff_of_parses hparses, closedEarly_eq_false_iff]
  constructor
  · intro h hworkday hsession hspared
    exact (h.mp ⟨hworkday, hsession, hspared⟩).spared
  · intro h
    constructor
    · rintro ⟨hworkday, hsession, hspared⟩
      exact ⟨hworkday, hsession, h hworkday hsession hspared⟩
    · rintro ⟨hworkday, hsession, hspared⟩
      refine ⟨hworkday, hsession, ?_⟩
      rintro close ⟨before, after, hcloses, -, hdate⟩
      exact hspared close (by simp [hcloses]) hdate

/-! ## Order -/

theorem sessionVerdict_cases (weekday hour : Nat) (session : TradingSession) :
    sessionVerdict weekday hour session = none ∨ sessionVerdict weekday hour session = some (.ok true) ∨
      ∃ e, sessionVerdict weekday hour session = some (.error e) := by
  by_cases hparses : session.Parses
  · by_cases hcovers : session.Covers weekday hour
    · exact .inr (.inl (sessionVerdict_of_covers hcovers))
    · exact .inl (sessionVerdict_of_parses hparses hcovers)
  · exact .inr (.inr (sessionVerdict_of_not_parses weekday hour hparses))

theorem closesAgree_iff {closes : List EarlyClose} {date : String} {hour : Nat} :
    ClosesAgree closes date hour ↔ FirstEntry.Agree (closeVerdict date hour) closes := by
  refine forall₂_congr fun close _ => forall₂_congr fun other _ => ?_
  rw [closeVerdict_isSome, closeVerdict_isSome]
  refine forall₂_congr fun hclose hother => ?_
  rw [closeVerdict_of_date hclose, closeVerdict_of_date hother, Option.some.injEq, decide_eq_decide, ← Nat.not_le,
    ← Nat.not_le, not_iff_not]
  rfl

theorem calendarResult_perm {sessions : List TradingSession} {holidays : List String} {closes : List EarlyClose}
    (hsessions : sessions.Perm spec.sessions) (hholidays : holidays.Perm spec.holidays)
    (hcloses : closes.Perm spec.earlyCloses) (hagree : t.date ∉ spec.holidays →
      FirstEntry.Agree (sessionVerdict t.weekday t.hour) spec.sessions ∧
        ((∃ session ∈ spec.sessions, session.Covers t.weekday t.hour) →
          ClosesAgree spec.earlyCloses t.date t.hour)) :
    calendarResult { spec with sessions := sessions, holidays := holidays, earlyCloses := closes } t =
      calendarResult spec t := by
  have hcontains : holidays.contains t.date = spec.holidays.contains t.date := hholidays.contains_eq
  rw [calendarResult, calendarResult, hcontains]
  split
  · rfl
  · rename_i hworkday
    obtain ⟨hverdicts, hclosings⟩ := hagree (by simpa using hworkday)
    have hsame : inSession t.weekday t.hour sessions = inSession t.weekday t.hour spec.sessions := by
      rw [inSession_eq, inSession_eq, hverdicts.findSome?_perm hsessions]
    rw [hsame]
    cases hopen : inSession t.weekday t.hour spec.sessions with
    | error e => rfl
    | ok open_ =>
      cases open_ with
      | false => rfl
      | true =>
        obtain ⟨before, session, after, hlist, -, hcovers⟩ := inSession_eq_true_iff.mp hopen
        have hagree' := closesAgree_iff.mp (hclosings ⟨session, by simp [hlist], hcovers⟩)
        rw [closedEarly_eq, closedEarly_eq, hagree'.findSome?_perm hcloses]

/-- On a working day each session that decides can be put first, and then its verdict shows in the result. -/
theorem agree_of_orderFree (hfree : OrderFree zones spec instant) (ht : t ∈ spec.localHour zones instant)
    (hworkday : t.date ∉ spec.holidays) : FirstEntry.Agree (sessionVerdict t.weekday t.hour) spec.sessions := by
  have hresult : ∀ session ∈ spec.sessions, ∀ verdict, sessionVerdict t.weekday t.hour session = some verdict →
      verdict.map (fun open_ => open_ && !closedEarly spec t.date t.hour) = spec.isActiveAt zones instant := by
    intro session hmem verdict hverdict
    obtain ⟨sessions, hperm, hfirst⟩ :=
      FirstEntry.exists_perm_findSome? hmem (Option.isSome_of_eq_some hverdict)
    have hsame := hfree sessions spec.holidays spec.earlyCloses hperm .rfl .rfl
    rw [← hsame, isActiveAt_eq { spec with sessions := sessions } rfl ht, calendarResult,
      if_neg (by simpa using hworkday), inSession_eq, hfirst, hverdict]
    rfl
  intro a ha b hb hdecides hdecides'
  obtain ⟨verdict, hverdict⟩ := Option.isSome_iff_exists.mp hdecides
  obtain ⟨verdict', hverdict'⟩ := Option.isSome_iff_exists.mp hdecides'
  have hsame := (hresult a ha verdict hverdict).trans (hresult b hb verdict' hverdict').symm
  have hopen : ∀ session v, sessionVerdict t.weekday t.hour session = some (.ok v) → v = true := by
    intro session v hv
    rcases sessionVerdict_cases t.weekday t.hour session with h | h | ⟨e, h⟩
    · rw [h] at hv
      cases hv
    · rw [h] at hv
      cases hv
      rfl
    · rw [h] at hv
      cases hv
  rw [hverdict, hverdict']
  cases verdict with
  | error e =>
    cases verdict' with
    | error e' =>
      cases hsame
      rfl
    | ok v' => cases hsame
  | ok v =>
    cases verdict' with
    | error e' => cases hsame
    | ok v' => rw [hopen a v hverdict, hopen b v' hverdict']

theorem closesAgree_of_orderFree (hfree : OrderFree zones spec instant) (ht : t ∈ spec.localHour zones instant)
    (hworkday : t.date ∉ spec.holidays) (hcovers : ∃ session ∈ spec.sessions, session.Covers t.weekday t.hour) :
    ClosesAgree spec.earlyCloses t.date t.hour := by
  obtain ⟨session, hmem, hsession⟩ := hcovers
  have hverdict := sessionVerdict_of_covers hsession
  have hopen : inSession t.weekday t.hour spec.sessions = .ok true := by
    rw [inSession_eq, (agree_of_orderFree hfree ht hworkday).findSome?_eq hmem (Option.isSome_of_eq_some hverdict),
      hverdict]
    rfl
  have hresult : ∀ close ∈ spec.earlyCloses, ∀ closed, closeVerdict t.date t.hour close = some closed →
      spec.isActiveAt zones instant = .ok !closed := by
    intro close hclose closed hclosed
    obtain ⟨closes, hperm, hfirst⟩ := FirstEntry.exists_perm_findSome? hclose (Option.isSome_of_eq_some hclosed)
    have hsame := hfree spec.sessions spec.holidays closes .rfl .rfl hperm
    rw [← hsame, isActiveAt_eq { spec with earlyCloses := closes } rfl ht, calendarResult,
      if_neg (by simpa using hworkday), hopen, closedEarly_eq, hfirst, hclosed]
    rfl
  rw [closesAgree_iff]
  intro a ha b hb hdecides hdecides'
  obtain ⟨closed, hclosed⟩ := Option.isSome_iff_exists.mp hdecides
  obtain ⟨closed', hclosed'⟩ := Option.isSome_iff_exists.mp hdecides'
  have hsame := (hresult a ha closed hclosed).symm.trans (hresult b hb closed' hclosed')
  rw [hclosed, hclosed', Bool.not_inj (Except.ok.inj hsame)]

theorem orderFree_iff : OrderFree zones spec instant ↔ ∀ t ∈ spec.localHour zones instant, t.date ∉ spec.holidays →
    FirstEntry.Agree (sessionVerdict t.weekday t.hour) spec.sessions ∧
      ((∃ session ∈ spec.sessions, session.Covers t.weekday t.hour) → ClosesAgree spec.earlyCloses t.date t.hour) := by
  constructor
  · intro hfree t ht hworkday
    exact ⟨agree_of_orderFree hfree ht hworkday, closesAgree_of_orderFree hfree ht hworkday⟩
  · intro hagree sessions holidays closes hsessions hholidays hcloses
    cases hlocal : spec.localHour zones instant with
    | none =>
      rw [isActiveAt_of_unknown { spec with sessions := sessions, holidays := holidays, earlyCloses := closes } rfl hlocal,
        isActiveAt_of_unknown spec rfl hlocal]
    | some t =>
      rw [isActiveAt_eq { spec with sessions := sessions, holidays := holidays, earlyCloses := closes } rfl hlocal,
        isActiveAt_eq spec rfl hlocal]
      exact calendarResult_perm hsessions hholidays hcloses (hagree t hlocal)

/-! ## Additions -/

theorem active_of_holiday_added {holiday : String} {before after : List String}
    (hholidays : spec.holidays = before ++ after) (hactive : CapitalMarketsScheduleSpec.isActiveAt zones
      { spec with holidays := before ++ holiday :: after } instant = .ok true) :
    spec.isActiveAt zones instant = .ok true := by
  cases hlocal : spec.localHour zones instant with
  | none =>
    rw [isActiveAt_of_unknown { spec with holidays := before ++ holiday :: after } rfl hlocal] at hactive
    cases hactive
  | some t =>
    rw [isActiveAt_eq { spec with holidays := before ++ holiday :: after } rfl hlocal] at hactive
    obtain ⟨hworkday, hsession, hspared⟩ := calendarResult_eq_true_iff.mp hactive
    rw [isActiveAt_eq spec rfl hlocal, calendarResult_eq_true_iff]
    refine ⟨fun hmem => hworkday ?_, hsession, hspared⟩
    rw [hholidays] at hmem
    simp only [List.mem_append, List.mem_cons] at hmem ⊢
    exact hmem.imp id .inr

/-- Where an early close that is added spares an hour that was closed. -/
theorem reopened_iff {closes before after : List EarlyClose} (close : EarlyClose) (date : String) (hour : Nat)
    (hcloses : closes = before ++ after) :
    ((closes.findSome? (closeVerdict date hour)).getD false = true ∧
      ((before ++ close :: after).findSome? (closeVerdict date hour)).getD false = false) ↔
    close.date = date ∧ close.Spares hour ∧ (∀ other ∈ before, other.date ≠ date) ∧
      ∃ first, FirstClose date after first ∧ ¬first.Spares hour := by
  rw [hcloses, List.findSome?_append, List.findSome?_append, List.findSome?_cons, ← closes_first_iff]
  cases hbefore : before.findSome? (closeVerdict date hour) with
  | some closed =>
    obtain ⟨other, hother, hverdict⟩ := List.exists_of_findSome?_eq_some hbefore
    have hdate := closeVerdict_isSome.mp (Option.isSome_of_eq_some hverdict)
    simp only [Option.some_or, Option.getD_some]
    constructor
    · rintro ⟨hclosed, hnot⟩
      rw [hclosed] at hnot
      cases hnot
    · rintro ⟨-, -, hleads, -⟩
      exact absurd hdate (hleads other hother)
  | none =>
    have hleads : ∀ other ∈ before, other.date ≠ date := by
      intro other hother hdate
      have hsome : (closeVerdict date hour other).isSome := closeVerdict_isSome.mpr hdate
      rw [List.findSome?_eq_none_iff.mp hbefore other hother] at hsome
      cases hsome
    simp only [Option.none_or]
    by_cases hdate : close.date = date
    · rw [closeVerdict_of_date hdate, Option.getD_some, decide_eq_false_iff_not, Nat.not_lt]
      exact ⟨fun h => ⟨hdate, h.2, hleads, h.1⟩, fun h => ⟨h.2.2.2, h.2.1⟩⟩
    · have hnone : closeVerdict date hour close = none := if_neg hdate
      rw [hnone]
      constructor
      · rintro ⟨hclosed, hnot⟩
        rw [hclosed] at hnot
        cases hnot
      · rintro ⟨hdate', -⟩
        exact absurd hdate' hdate

theorem active_of_close_added_iff {close : EarlyClose} {before after : List EarlyClose}
    (hcloses : spec.earlyCloses = before ++ after) :
    (CapitalMarketsScheduleSpec.isActiveAt zones { spec with earlyCloses := before ++ close :: after } instant =
      .ok true → spec.isActiveAt zones instant = .ok true) ↔
        ∀ t ∈ spec.localHour zones instant, ¬Reopens spec t before close after := by
  cases hlocal : spec.localHour zones instant with
  | none =>
    rw [isActiveAt_of_unknown { spec with earlyCloses := before ++ close :: after } rfl hlocal,
      isActiveAt_of_unknown spec rfl hlocal]
    simp
  | some t =>
    rw [isActiveAt_eq { spec with earlyCloses := before ++ close :: after } rfl hlocal, isActiveAt_eq spec rfl hlocal,
      calendarResult_eq_true_iff, calendarResult_eq_true_iff, closedEarly_eq, closedEarly_eq]
    simp only [Option.mem_some_iff, forall_eq']
    have hreopened := reopened_iff close t.date t.hour hcloses
    constructor
    · rintro hkeeps ⟨hworkday, hsession, hdate, hspares, hleads, hclosed⟩
      obtain ⟨hbefore, hafter⟩ := hreopened.mpr ⟨hdate, hspares, hleads, hclosed⟩
      rw [(hkeeps ⟨hworkday, hsession, hafter⟩).2.2] at hbefore
      cases hbefore
    · rintro hnot ⟨hworkday, hsession, hafter⟩
      refine ⟨hworkday, hsession, Bool.eq_false_iff.mpr fun hbefore => hnot ?_⟩
      obtain ⟨hdate, hspares, hleads, hclosed⟩ := hreopened.mp ⟨hbefore, hafter⟩
      exact ⟨hworkday, hsession, hdate, hspares, hleads, hclosed⟩

end

/-- The evaluation against the calendar without order: it agrees when the first early close of the date decides
like all of them; it is free of order when the sessions that decide, and the early closes of the date of an open
session, agree; holidays never open an hour, and an early close does only when it comes before the one that
closed it. -/
theorem calendar_order_iff (zones : Zones) (spec : CapitalMarketsScheduleSpec) (instant : Time) :
    (MeetsCalendar zones spec instant ↔ ∀ t ∈ spec.localHour zones instant,
      (∀ session ∈ spec.sessions, session.Parses) → t.date ∉ spec.holidays →
        (∃ session ∈ spec.sessions, session.Covers t.weekday t.hour) → LedByFirst spec.earlyCloses t.date t.hour) ∧
    (OrderFree zones spec instant ↔ ∀ t ∈ spec.localHour zones instant, t.date ∉ spec.holidays →
      FirstEntry.Agree (sessionVerdict t.weekday t.hour) spec.sessions ∧
        ((∃ session ∈ spec.sessions, session.Covers t.weekday t.hour) → ClosesAgree spec.earlyCloses t.date t.hour)) ∧
    (∀ holiday before after, spec.holidays = before ++ after →
      CapitalMarketsScheduleSpec.isActiveAt zones { spec with holidays := before ++ holiday :: after } instant =
        .ok true → spec.isActiveAt zones instant = .ok true) ∧
    ∀ close before after, spec.earlyCloses = before ++ after →
      ((CapitalMarketsScheduleSpec.isActiveAt zones { spec with earlyCloses := before ++ close :: after } instant =
        .ok true → spec.isActiveAt zones instant = .ok true) ↔
          ∀ t ∈ spec.localHour zones instant, ¬Reopens spec t before close after) :=
  ⟨meetsCalendar_iff, orderFree_iff, fun _ _ _ => active_of_holiday_added, fun _ _ _ => active_of_close_added_iff⟩

/-! ## Two early closes of one date -/

def doubledClose : CapitalMarketsScheduleSpec where
  timezone := "UTC"
  sessions := [⟨["mon-fri"], ["9-16"]⟩]
  holidays := []
  earlyCloses := [⟨"2026-11-27", 16⟩, ⟨"2026-11-27", 12⟩]

/-- At two o'clock the market is open, two hours after its second early close; with the two the other way round
it is closed. -/
theorem second_close_ignored : ¬MeetsCalendar utcOnly doubledClose 1795788000000000000 ∧
    ¬OrderFree utcOnly doubledClose 1795788000000000000 := by
  have hlocal : doubledClose.localHour utcOnly 1795788000000000000 = some ⟨"2026-11-27", 4, 14⟩ := by decide +kernel
  have hactive : doubledClose.isActiveAt utcOnly 1795788000000000000 = .ok true :=
    except_eq_ok_of_toOption (by decide +kernel)
  constructor
  · intro hmeets
    have hparses : ∀ session ∈ doubledClose.sessions, session.Parses := by
      intro session hmem
      rw [List.mem_singleton.mp hmem]
      exact ⟨⟨[0, 1, 2, 3, 4], by decide⟩, [9, 10, 11, 12, 13, 14, 15, 16], by decide⟩
    have hopen := (hmeets _ hlocal hparses).mp hactive
    have hspared : (14 : Nat) ≤ 12 := hopen.spared ⟨"2026-11-27", 12⟩ (by decide) rfl
    omega
  · intro hfree
    have hswapped := hfree doubledClose.sessions [] [⟨"2026-11-27", 12⟩, ⟨"2026-11-27", 16⟩] .rfl .rfl
      (List.Perm.swap _ _ [])
    have hclosed : CapitalMarketsScheduleSpec.isActiveAt utcOnly
        { doubledClose with earlyCloses := [⟨"2026-11-27", 12⟩, ⟨"2026-11-27", 16⟩] } 1795788000000000000 = .ok false :=
      except_eq_ok_of_toOption (by decide +kernel)
    rw [hactive] at hswapped
    cases hswapped.symm.trans hclosed

end FiveSpot
