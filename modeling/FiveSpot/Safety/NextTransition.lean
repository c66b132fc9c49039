import FiveSpot.Model.Sampling
import FiveSpot.Providers.Reconcile

/-! # The next transition

`next_transition` samples the activity at whole UTC hours. What it looks at is the hour on a clock in the
schedule's timezone, so the samples are enough where both change together.
-/

namespace FiveSpot

set_option autoImplicit false

open Interaction Sampling

abbrev hour : Int := nanosOf 3600

/-- The hour on the clock of a zone, counted from the local epoch. -/
def localHour (offset : Time → Int) (instant : Time) : Int := localSeconds offset instant / 3600

/-- The clock of the zone goes on to another hour only when a UTC hour begins. -/
def OnTheHour (offset : Time → Int) (start stop : Time) : Prop := SteadyOn (localHour offset) hour start stop

/-- What a transition `next` that is found from `start` on tells about the activity. -/
structure FlipFound (active : Time → Except ProviderError Bool) (zone : Option (Time → Int)) (start next : Time) :
    Prop where
  later : start < next
  flips : ∃ now, active start = .ok now ∧ active next = .ok (!now)
  sampled : ∀ u, start ≤ u → u < next → u % hour = 0 → active u = active start
  exact : (∀ offset, zone = some offset → OnTheHour offset start next) →
    ∀ u, start ≤ u → u < next → active u = active start
  late : (∀ offset, zone = some offset → ∃ c, ∀ u, offset u = c) →
    ∀ u, start ≤ u → u + hour ≤ next → active u = active start

/-- What it means that no transition is found. -/
structure NoFlip (active : Time → Except ProviderError Bool) (zone : Option (Time → Int)) (start stop : Time) : Prop where
  sampled : ∀ u, start ≤ u → u < stop → u % hour = 0 → active u = active start
  exact : (∀ offset, zone = some offset → OnTheHour offset start stop) →
    ∀ u, start ≤ u → u < stop → active u = active start

/-- Where the search for a transition ends. -/
def searchEnd (start : Time) : Time := wholeHour start + (Constants.providerTransitionHorizonHours + 1) * hour

/-! ## The scan -/

theorem wholeHour_eq (t : Time) : wholeHour t = gridFloor hour t := rfl

theorem hour_pos : 0 < hour := by decide

section

variable {active : Time → Except ProviderError Bool} {current : Bool} {n : ℕ} {base : Time} {found : Option Time}

/-- The scan passes `k` samples that are as before. It ends there for lack of more, or at one that differs. -/
theorem nextFlip_spec (h : nextFlip active current n base = .ok found) :
    ∃ k : ℕ, (∀ j < k, active (base + j * hour) = .ok current) ∧
      (found = none ∧ k = n ∨ found = some (base + k * hour) ∧ active (base + k * hour) = .ok (!current)) := by
  induction n generalizing base with
  | zero =>
    cases h
    exact ⟨0, fun j hj => absurd hj (Nat.not_lt_zero j), .inl ⟨rfl, rfl⟩⟩
  | succ n ih =>
    have hsucc : ∀ j : ℕ, base + ((j + 1 : ℕ) : ℤ) * hour = base + hour + j * hour := by
      intro j
      push_cast
      ring
    have hzero : base + ((0 : ℕ) : ℤ) * hour = base := by simp
    obtain ⟨there, hthere, h⟩ := except_bind_eq_ok_iff.mp h
    split at h
    · rename_i hne
      cases h
      have hflip : there = !current := Bool.eq_not.mpr (bne_iff_ne.mp hne)
      refine ⟨0, fun j hj => absurd hj (Nat.not_lt_zero j), .inr ?_⟩
      rw [hzero, hthere, hflip]
      exact ⟨rfl, rfl⟩
    · rename_i heq
      have hsame : there = current := by simpa using heq
      obtain ⟨k, hbefore, hend⟩ := ih h
      refine ⟨k + 1, ?_, ?_⟩
      · rintro (_ | j) hj
        · rw [hzero, hthere, hsame]
        · rw [hsucc]
          exact hbefore j (Nat.lt_of_succ_lt_succ hj)
      · rw [hsucc]
        exact hend.imp (fun hnone => ⟨hnone.1, congrArg Nat.succ hnone.2⟩) id

end

section

variable {Spec : Type} {p : Provider Spec} {spec : Spec} {start next : Time}

/-- The samples lie between `start` and the hour in question. -/
theorem sampled_before {active : Time → Except ProviderError Bool} {current : Bool} {k : ℕ}
    (hstart : active start = .ok current)
    (hbefore : ∀ j < k, active (wholeHour start + hour + j * hour) = .ok current) :
    ∀ u, start ≤ u → u < wholeHour start + hour + k * hour → u % hour = 0 → active u = active start := by
  intro u hle hlt hgrid
  have hfloor : wholeHour start ≤ u := le_trans (gridFloor_le hour_pos start) hle
  obtain ⟨j, hj⟩ := exists_steps_of_grid (gridFloor_emod hour start) hgrid hfloor hour_pos
  cases j with
  | zero =>
    have hwhole : u = wholeHour start := by simpa [wholeHour_eq] using hj
    rw [le_antisymm hle (hwhole ▸ gridFloor_le hour_pos start)]
  | succ j =>
    have hu : u = wholeHour start + hour + j * hour := by
      rw [hj, wholeHour_eq]
      push_cast
      ring
    rw [hstart, hu]
    apply hbefore
    rw [hu] at hlt
    have hmul : (j : ℤ) * hour < k * hour := lt_of_add_lt_add_left hlt
    exact_mod_cast lt_of_mul_lt_mul_right hmul (le_of_lt hour_pos)

theorem nextTransition_eq_some (h : nextTransition p spec start = .ok (some next)) :
    start < next ∧ (∃ now, p.isActiveAt spec start = .ok now ∧ p.isActiveAt spec next = .ok (!now)) ∧
      ∀ u, start ≤ u → u < next → u % hour = 0 → p.isActiveAt spec u = p.isActiveAt spec start := by
  obtain ⟨current, hcurrent, h⟩ := except_bind_eq_ok_iff.mp h
  obtain ⟨k, hbefore, ⟨hnone, -⟩ | ⟨hnext, hflip⟩⟩ := nextFlip_spec h
  · cases hnone
  · cases hnext
    refine ⟨?_, ⟨current, hcurrent, hflip⟩, sampled_before hcurrent hbefore⟩
    have hk : 0 ≤ (k : ℤ) * hour := mul_nonneg (Int.natCast_nonneg k) (le_of_lt hour_pos)
    exact lt_of_lt_of_le (lt_gridFloor_add hour_pos start) (le_add_of_nonneg_right hk)

theorem nextTransition_eq_none (h : nextTransition p spec start = .ok none) :
    ∀ u, start ≤ u → u < searchEnd start → u % hour = 0 → p.isActiveAt spec u = p.isActiveAt spec start := by
  obtain ⟨current, hcurrent, h⟩ := except_bind_eq_ok_iff.mp h
  obtain ⟨k, hbefore, ⟨-, rfl⟩ | ⟨hsome, -⟩⟩ := nextFlip_spec h
  · have hend : searchEnd start =
        wholeHour start + hour + (Constants.providerTransitionHorizonHours : ℕ) * hour := by
      rw [searchEnd]
      ring
    rw [hend]
    exact sampled_before hcurrent hbefore
  · cases hsome

end

/-! ## What the activity depends on -/

theorem hourOfDay_localSeconds (offset : Time → Int) (t : Time) :
    hourOfDay (localSeconds offset t) = (localHour offset t % 24).toNat := by
  rw [hourOfDay, localHour]
  congr 1
  omega

theorem localDay_localSeconds (offset : Time → Int) (t : Time) :
    localDay (localSeconds offset t) = localHour offset t / 24 := by
  rw [localDay, localHour]
  omega

theorem weekdayFromMonday_localSeconds (offset : Time → Int) (t : Time) :
    weekdayFromMonday (localSeconds offset t) = ((localHour offset t / 24 + 3) % 7).toNat := by
  rw [weekdayFromMonday, localDay_localSeconds]

/-- A time based schedule looks at the hour of the week. -/
theorem timeBased_congr {zones : Zones} {spec : TimeBasedSpotScheduleSpec} {t u : Time}
    (h : ∀ offset, zones spec.timezone = some offset → localHour offset t % 168 = localHour offset u % 168) :
    (timeBased zones).isActiveAt spec t = (timeBased zones).isActiveAt spec u := by
  simp only [timeBased, TimeBasedSpotScheduleSpec.isActiveAt, parseTimezone]
  cases hzone : zones spec.timezone with
  | none => rfl
  | some offset =>
    have hweek := h offset hzone
    have hweekday : weekdayFromMonday (localSeconds offset t) = weekdayFromMonday (localSeconds offset u) := by
      rw [weekdayFromMonday_localSeconds, weekdayFromMonday_localSeconds]
      omega
    have hhour : hourOfDay (localSeconds offset t) = hourOfDay (localSeconds offset u) := by
      rw [hourOfDay_localSeconds, hourOfDay_localSeconds]
      omega
    dsimp only [bind, Except.bind]
    rw [hweekday, hhour]

/-- An exchange calendar looks at the date as well. -/
theorem capitalMarkets_congr {zones : Zones} {spec : CapitalMarketsScheduleSpec} {t u : Time}
    (h : ∀ offset, zones spec.timezone = some offset → localHour offset t = localHour offset u) :
    (capitalMarkets zones).isActiveAt spec t = (capitalMarkets zones).isActiveAt spec u := by
  simp only [capitalMarkets, CapitalMarketsScheduleSpec.isActiveAt, parseTimezone]
  cases hzone : zones spec.timezone with
  | none => rfl
  | some offset =>
    have hsame := h offset hzone
    have hdate : dateText (localSeconds offset t) = dateText (localSeconds offset u) := by
      rw [dateText, dateText, localDay_localSeconds, localDay_localSeconds, hsame]
    have hweekday : weekdayFromMonday (localSeconds offset t) = weekdayFromMonday (localSeconds offset u) := by
      rw [weekdayFromMonday_localSeconds, weekdayFromMonday_localSeconds, hsame]
    have hhour : hourOfDay (localSeconds offset t) = hourOfDay (localSeconds offset u) := by
      rw [hourOfDay_localSeconds, hourOfDay_localSeconds, hsame]
    dsimp only [bind, Except.bind]
    rw [hdate, hweekday, hhour]

/-- The activity of every spec is a function of the hour in its zone. -/
def Hourly {Spec : Type} (p : Provider Spec) (zone : Spec → Option (Time → Int)) : Prop :=
  ∀ spec t u, (∀ offset, zone spec = some offset → localHour offset t = localHour offset u) →
    p.isActiveAt spec t = p.isActiveAt spec u

theorem hourly_timeBased (zones : Zones) : Hourly (timeBased zones) fun spec => zones spec.timezone :=
  fun _ _ _ h => timeBased_congr fun offset hzone => congrArg (· % 168) (h offset hzone)

theorem hourly_capitalMarkets (zones : Zones) : Hourly (capitalMarkets zones) fun spec => zones spec.timezone :=
  fun _ _ _ h => capitalMarkets_congr h

section

variable {Spec : Type} {p : Provider Spec} {zone : Spec → Option (Time → Int)} {spec : Spec} {start stop : Time}

theorem Hourly.steadyOn (hp : Hourly p zone)
    (h : ∀ offset, zone spec = some offset → OnTheHour offset start stop) :
    SteadyOn (p.isActiveAt spec) hour start stop :=
  fun u hstart hstop => hp spec _ _ fun offset hoffset => h offset hoffset u hstart hstop

/-- With a constant offset the clock shows an hour that it also shows when the UTC hour begins or when it ends. -/
theorem localHour_mem {offset : Time → Int} {c : Int} (hoffset : ∀ u, offset u = c) {m u k : Int} (hm : m ≤ u)
    (hu : u < k) (hk : k ≤ m + hour) : localHour offset u = localHour offset m ∨ localHour offset u = localHour offset k := by
  simp only [localHour, localSeconds, hoffset, nanosOf] at hk ⊢
  omega

theorem Hourly.late (hp : Hourly p zone) (hzone : ∀ offset, zone spec = some offset → ∃ c, ∀ u, offset u = c)
    (hsampled : ∀ u, start ≤ u → u < stop → u % hour = 0 → p.isActiveAt spec u = p.isActiveAt spec start) :
    ∀ u, start ≤ u → u + hour ≤ stop → p.isActiveAt spec u = p.isActiveAt spec start := by
  intro u hstart hstop
  have hbelow : u < stop := lt_of_lt_of_le (lt_add_of_pos_right u hour_pos) hstop
  have hfloor := gridFloor_le hour_pos u
  have hceil := lt_gridFloor_add hour_pos u
  -- the UTC hour has begun at `m`, or the search has
  have hm : p.isActiveAt spec (max start (gridFloor hour u)) = p.isActiveAt spec start := by
    rcases le_total (gridFloor hour u) start with hle | hle
    · rw [max_eq_left hle]
    · rw [max_eq_right hle]
      exact hsampled _ hle (lt_of_le_of_lt hfloor hbelow) (gridFloor_emod hour u)
  rcases lt_or_ge (gridFloor hour u + hour) stop with hnext | hnext
  · have hk : p.isActiveAt spec (gridFloor hour u + hour) = p.isActiveAt spec start := by
      refine hsampled _ (le_of_lt (lt_of_le_of_lt hstart hceil)) hnext ?_
      rw [Int.add_emod_right, gridFloor_emod]
    cases hz : zone spec with
    | none =>
      refine (hp spec u start fun offset hoffset => ?_)
      rw [hz] at hoffset
      cases hoffset
    | some offset =>
      obtain ⟨c, hc⟩ := hzone offset hz
      have hone : ∀ v, localHour offset u = localHour offset v → p.isActiveAt spec u = p.isActiveAt spec v := by
        intro v hv
        refine hp spec u v fun offset' hoffset => ?_
        cases hz.symm.trans hoffset
        exact hv
      rcases localHour_mem hc (max_le hstart hfloor) hceil (add_le_add_left (le_max_right start _) hour) with hsame | hsame
      · rw [hone _ hsame, hm]
      · rw [hone _ hsame, hk]
  · have hgrid : gridFloor hour u = u :=
      le_antisymm hfloor (le_of_add_le_add_right (le_trans hstop hnext))
    exact hsampled u hstart hbelow (hgrid ▸ gridFloor_emod hour u)

theorem Hourly.flipFound (hp : Hourly p zone) {next : Time} (h : nextTransition p spec start = .ok (some next)) :
    FlipFound (p.isActiveAt spec) (zone spec) start next := by
  obtain ⟨hlater, hflips, hsampled⟩ := nextTransition_eq_some h
  refine ⟨hlater, hflips, hsampled, fun hzone => ?_, fun hzone => hp.late hzone hsampled⟩
  exact (hp.steadyOn hzone).eq_start hour_pos hsampled

theorem Hourly.noFlip (hp : Hourly p zone) (h : nextTransition p spec start = .ok none) :
    NoFlip (p.isActiveAt spec) (zone spec) start (searchEnd start) := by
  have hsampled := nextTransition_eq_none h
  exact ⟨hsampled, fun hzone => (hp.steadyOn hzone).eq_start hour_pos hsampled⟩

end

/-! ## Both providers -/

def TransitionSound {Spec : Type} (p : Provider Spec) (zone : Spec → Option (Time → Int)) : Prop :=
  ∀ spec start found, nextTransition p spec start = .ok found → match found with
    | some next => FlipFound (p.isActiveAt spec) (zone spec) start next
    | none => NoFlip (p.isActiveAt spec) (zone spec) start (searchEnd start)

/-- The transition is the next flip whatever the zone. -/
def ExactFlips {Spec : Type} (p : Provider Spec) : Prop :=
  ∀ spec start next, nextTransition p spec start = .ok (some next) → start < next ∧
    p.isActiveAt spec next ≠ p.isActiveAt spec start ∧
      ∀ u, start ≤ u → u < next → p.isActiveAt spec u = p.isActiveAt spec start

theorem Hourly.transitionSound {Spec : Type} {p : Provider Spec} {zone : Spec → Option (Time → Int)}
    (hp : Hourly p zone) : TransitionSound p zone := by
  intro spec start found h
  cases found with
  | some next => exact hp.flipFound h
  | none => exact hp.noFlip h

/-- A transition that is found is later, flips the activity, and no whole UTC hour before it does. Where the clock
of the zone changes its hour only with the UTC hour, no instant before it does; with any constant offset the
activity has flipped for less than an hour. -/
theorem next_transition_sound (zones : Zones) :
    TransitionSound (timeBased zones) (fun spec => zones spec.timezone) ∧
      TransitionSound (capitalMarkets zones) fun spec => zones spec.timezone :=
  ⟨(hourly_timeBased zones).transitionSound, (hourly_capitalMarkets zones).transitionSound⟩

/-! ### Office hours, in a zone of whole hours and in one of half hours -/

def officeHours (timezone : String) : TimeBasedSpotScheduleSpec := ⟨["mon-fri"], ["9-17"], timezone, true⟩

def utcAndIndia : Zones := fun name =>
  if name = "UTC" then some fun _ => 0 else if name = "Asia/Kolkata" then some fun _ => 19800 else none

/-- Monday, 2026-01-05, at so many seconds of the day. -/
def mondayAt (seconds : Int) : Time := nanosOf (1767571200 + seconds)

theorem next_transition_sound_utc : FlipFound ((timeBased utcAndIndia).isActiveAt (officeHours "UTC")) (utcAndIndia "UTC")
    (mondayAt 11400) (mondayAt 32400) :=
  (next_transition_sound utcAndIndia).1 (officeHours "UTC") (mondayAt 11400) (some (mondayAt 32400))
    (except_eq_ok_of_toOption (by decide +kernel))

/-- The office opens at 03:30 UTC. At 03:10 the next transition is 04:00. -/
theorem half_hour_zone_late : ¬∀ zones, ExactFlips (timeBased zones) ∧ ExactFlips (capitalMarkets zones) := by
  intro h
  have hfound : nextTransition (timeBased utcAndIndia) (officeHours "Asia/Kolkata") (mondayAt 11400) =
      .ok (some (mondayAt 14400)) := except_eq_ok_of_toOption (by decide +kernel)
  obtain ⟨-, -, hconstant⟩ := (h utcAndIndia).1 _ _ _ hfound
  have hopen : (timeBased utcAndIndia).isActiveAt (officeHours "Asia/Kolkata") (mondayAt 13500) = .ok true :=
    except_eq_ok_of_toOption (by decide +kernel)
  have hclosed : (timeBased utcAndIndia).isActiveAt (officeHours "Asia/Kolkata") (mondayAt 11400) = .ok false :=
    except_eq_ok_of_toOption (by decide +kernel)
  have hsame := hconstant (mondayAt 13500) (by decide) (by decide)
  rw [hopen, hclosed] at hsame
  cases hsame

/-! ## Offsets of whole hours -/

theorem hour_eq_of_wholeHour {u m k : Int} (hlow : m ≤ u) (hhigh : u - u % hour ≤ m) :
    (u / nanosOf 1 + 3600 * k) / 3600 = (m / nanosOf 1 + 3600 * k) / 3600 := by
  simp only [nanosOf] at hhigh ⊢
  omega

/-- Offsets of whole hours that change only when a UTC hour begins. -/
theorem onTheHour_of_wholeHours {offset : Time → Int} {start stop : Time}
    (h : ∀ u, start ≤ u → u < stop → offset u = offset (max start (wholeHour u)) ∧ 3600 ∣ offset u) :
    OnTheHour offset start stop := by
  intro u hstart hstop
  obtain ⟨hsame, k, hk⟩ := h u hstart hstop
  rw [hk] at hsame
  rw [← wholeHour_eq, localHour, localHour, localSeconds, localSeconds, hk, ← hsame]
  exact hour_eq_of_wholeHour (max_le hstart (gridFloor_le hour_pos u)) (le_max_right _ _)

def WholeHours (zone : Option (Time → Int)) : Prop := ∀ offset, zone = some offset → ∃ h, ∀ u, offset u = 3600 * h

section

variable {zones : Zones} {spec : TimeBasedSpotScheduleSpec}

theorem WholeHours.onTheHour {zone : Option (Time → Int)} (h : WholeHours zone) {start stop : Time} :
    ∀ offset, zone = some offset → OnTheHour offset start stop := by
  intro offset hoffset
  obtain ⟨c, hc⟩ := h offset hoffset
  apply onTheHour_of_wholeHours
  intro u _ _
  exact ⟨(hc u).trans (hc _).symm, c, hc u⟩

theorem WholeHours.periodic (h : WholeHours (zones spec.timezone)) :
    Function.Periodic ((timeBased zones).isActiveAt spec) ((168 : ℕ) * hour) := by
  intro u
  apply timeBased_congr
  intro offset hoffset
  obtain ⟨c, hc⟩ := h offset hoffset
  simp only [localHour, localSeconds, hc, nanosOf]
  push_cast
  omega

/-- Only the window and the zone can fail to parse, and they are the same at every instant. -/
theorem timeBased_evaluates {t : Time} {now : Bool} (h : (timeBased zones).isActiveAt spec t = .ok now) (u : Time) :
    ∃ there, (timeBased zones).isActiveAt spec u = .ok there := by
  simp only [timeBased, TimeBasedSpotScheduleSpec.isActiveAt] at h ⊢
  split
  · exact ⟨false, rfl⟩
  · rename_i henabled
    rw [if_neg henabled] at h
    obtain ⟨offset, hoffset, h⟩ := except_bind_eq_ok_iff.mp h
    obtain ⟨days, hdays, h⟩ := except_bind_eq_ok_iff.mp h
    obtain ⟨hours, hhours, -⟩ := except_bind_eq_ok_iff.mp h
    rw [hoffset, hdays, hhours]
    exact ⟨_, rfl⟩

theorem nextFlip_evaluates {active : Time → Except ProviderError Bool} (h : ∀ u, ∃ there, active u = .ok there)
    (current : Bool) (n : ℕ) (base : Time) : ∃ found, nextFlip active current n base = .ok found := by
  induction n generalizing base with
  | zero => exact ⟨none, rfl⟩
  | succ n ih =>
    obtain ⟨there, hthere⟩ := h base
    obtain ⟨found, hfound⟩ := ih (base + nanosOf 3600)
    rw [nextFlip, hthere]
    dsimp only [bind, Except.bind]
    split
    · exact ⟨_, rfl⟩
    · exact ⟨found, hfound⟩

/-- Eight days of samples tell about all time to come. -/
theorem horizon_covers_all_time {start : Time} (hzone : WholeHours (zones spec.timezone))
    (heval : ∃ now, (timeBased zones).isActiveAt spec start = .ok now) :
    ∃ found, nextTransition (timeBased zones) spec start = .ok found ∧
      (found = none ↔ ∀ u, start < u → (timeBased zones).isActiveAt spec u = (timeBased zones).isActiveAt spec start) ∧
      ∀ next, found = some next →
        IsLeast {u | start < u ∧ (timeBased zones).isActiveAt spec u ≠ (timeBased zones).isActiveAt spec start} next := by
  obtain ⟨now, hnow⟩ := heval
  obtain ⟨found, hscan⟩ := nextFlip_evaluates (timeBased_evaluates hnow) now Constants.providerTransitionHorizonHours
    (wholeHour start + hour)
  have hfound : nextTransition (timeBased zones) spec start = .ok found :=
    except_bind_eq_ok_iff.mpr ⟨now, hnow, hscan⟩
  have hsteady : ∀ stop, SteadyOn ((timeBased zones).isActiveAt spec) hour start stop :=
    fun stop => (hourly_timeBased zones).steadyOn hzone.onTheHour
  refine ⟨found, hfound, ?_, ?_⟩
  · constructor
    · rintro rfl u -
      obtain ⟨k, hbefore, ⟨-, rfl⟩ | ⟨hsome, -⟩⟩ := nextFlip_spec hscan
      · rw [hnow]
        -- a week of samples is in the horizon
        refine eq_of_periodic hour_pos (by decide) hzone.periodic (fun v => ?_) ?_
          (fun j hj => hbefore j (lt_trans hj (by decide))) u
        · refine hourly_timeBased zones spec v _ fun offset hoffset => ?_
          have honTheHour : OnTheHour offset (gridFloor hour v) (v + 1) := hzone.onTheHour offset hoffset
          have hfloor := honTheHour v (gridFloor_le hour_pos v) (lt_add_one v)
          rwa [max_self] at hfloor
        · rw [Int.add_emod_right]
          exact gridFloor_emod hour start
      · cases hsome
    · intro hsame
      cases found with
      | none => rfl
      | some next =>
        obtain ⟨hlater, ⟨now', hnow', hflip⟩, -⟩ := nextTransition_eq_some hfound
        rw [hsame next hlater, hnow'] at hflip
        cases now' <;> cases hflip
  · rintro next rfl
    obtain ⟨hlater, ⟨now', hnow', hflip⟩, hsampled⟩ := nextTransition_eq_some hfound
    refine (hsteady next).isLeast hour_pos hlater hsampled ?_
    rw [hflip, hnow']
    cases now' <;> exact nofun

end

theorem horizon_covers_all_time_utc : IsLeast {u | mondayAt 11400 < u ∧
    (timeBased utcAndIndia).isActiveAt (officeHours "UTC") u ≠
      (timeBased utcAndIndia).isActiveAt (officeHours "UTC") (mondayAt 11400)} (mondayAt 32400) := by
  have hzone : WholeHours (utcAndIndia (officeHours "UTC").timezone) := by
    intro offset hoffset
    cases hoffset
    exact ⟨0, fun _ => rfl⟩
  have hnow : (timeBased utcAndIndia).isActiveAt (officeHours "UTC") (mondayAt 11400) = .ok false :=
    except_eq_ok_of_toOption (by decide +kernel)
  obtain ⟨found, hfound, -, hleast⟩ := horizon_covers_all_time hzone ⟨false, hnow⟩
  have hnext : nextTransition (timeBased utcAndIndia) (officeHours "UTC") (mondayAt 11400) =
      .ok (some (mondayAt 32400)) := except_eq_ok_of_toOption (by decide +kernel)
  exact hleast _ (Except.ok.inj (hfound.symm.trans hnext))

end FiveSpot
