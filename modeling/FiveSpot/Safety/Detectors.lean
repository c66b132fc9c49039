import FiveSpot.Safety.ArgvMatching

/-! # The two detectors

The poll detector finds every matching process that is alive at one of its ticks. The netlink detector hears
of execs only, so a process that was there before its subscriber was opened goes unnoticed.
-/

namespace FiveSpot.ReclaimAgent

set_option autoImplicit false

def HostStep.ends : HostStep → Bool
  | .push _ | .restart => true
  | _ => false

/-- The configuration is armed after `before` and stays so for `window`, up to the next change. -/
structure Armed (trace before : List HostStep) (config : Config) (window : List HostStep) : Prop where
  split : ∃ after, trace = before ++ .push (some config) :: window ++ after ∧
    ∀ step, after.head? = some step → step.ends = true
  quiet : ∀ step ∈ window, step.ends = false

/-- Both detectors at the moment the configuration is armed. -/
def armedAt (before : List HostStep) (config : Config) : Detectors := Detectors.new.run (before ++ [.push (some config)])

/-- What the poll detector reports while a configuration is armed, the netlink detector reports no later than
the end of that time. -/
def NetlinkRefines (trace : List HostStep) : Prop :=
  ∀ before config window, Armed trace before config window → (armedAt before config).poll.reported = none →
    ((armedAt before config).run window).poll.reported ≠ none →
      ((armedAt before config).run window).netlink.reported ≠ none

def matching (config : Config) (pid : Nat) (process : Process) : Bool := (matchPid pid process.entry config).isSome

def Host.hasMatch (host : Host) (config : Config) : Prop :=
  ∃ pid process, host.lookup pid = some process ∧ matching config pid process = true

def FoundAlive (s : Detectors) (config : Config) (window : List HostStep) : Prop :=
  ∃ earlier later, window = earlier ++ .tick :: later ∧ (s.run earlier).host.hasMatch config

def ExecsLater (config : Config) (window : List HostStep) : Prop :=
  ∃ later pid process, .subscribe :: later <:+ window ∧ .exec pid process ∈ later ∧ matching config pid process = true

/-- Whenever a matching process is alive at a tick, one execs while that configuration is listened for, or the
netlink detector was already through. -/
def CaughtByExec (trace : List HostStep) : Prop :=
  ∀ before config window, Armed trace before config window → (armedAt before config).poll.reported = none →
    FoundAlive (armedAt before config) config window →
      (armedAt before config).netlink.reported ≠ none ∨ ExecsLater config window

/-! ## Scans -/

theorem Host.entry_eq {host : Host} {pid : Nat} {process : Process} (h : host.lookup pid = some process) :
    host.proc.entry pid = process.entry := by
  simp [Host.proc, h]

theorem matchPid_unreadable (pid : Nat) (config : Config) : matchPid pid ⟨none, none⟩ config = none := rfl

theorem scanProc_iff (host : Host) (config : Config) :
    ∃ found, scanProc host.proc config = .ok found ∧ (found ≠ none ↔ host.hasMatch config) := by
  refine ⟨_, scanProc_eq rfl, ?_⟩
  rw [Option.ne_none_iff_isSome, List.findSome?_isSome_iff]
  constructor
  · rintro ⟨pid, hpid, hmatch⟩
    cases hlookup : host.lookup pid with
    | none =>
      simp [Host.proc, hlookup, matchPid_unreadable] at hmatch
    | some process =>
      rw [Host.entry_eq hlookup] at hmatch
      exact ⟨pid, process, hlookup, hmatch⟩
  · rintro ⟨pid, process, hlookup, hmatch⟩
    refine ⟨pid, ?_, ?_⟩
    · have hmem : (pid, process) ∈ host := by
        obtain ⟨before, after, heq, -⟩ := List.lookup_eq_some_iff.mp hlookup
        rw [heq]
        exact List.mem_append_right _ List.mem_cons_self
      exact List.mem_map_of_mem hmem
    · rw [Host.entry_eq hlookup]
      exact hmatch

/-! ## While a configuration is armed -/

section

variable {config : Config} {s : Detectors} {window : List HostStep}

theorem Detectors.run_cons (s : Detectors) (step : HostStep) (window : List HostStep) :
    s.run (step :: window) = (s.step step).run window := rfl

theorem poll_step_of_ne {step : HostStep} (hquiet : step.ends = false) (htick : step ≠ .tick) :
    (s.step step).poll = s.poll := by
  cases step with
  | tick => exact absurd rfl htick
  | push _ => cases hquiet
  | restart => cases hquiet
  | _ => rfl

theorem poll_config_step {step : HostStep} (hquiet : step.ends = false) : (s.step step).poll.config = s.poll.config := by
  cases step with
  | push _ => cases hquiet
  | restart => cases hquiet
  | tick =>
    simp only [Detectors.step, Poll.step]
    split
    · split <;> rfl
    · rfl
  | _ => rfl

theorem poll_reported_step {step : HostStep} (hquiet : step.ends = false) (h : s.poll.reported ≠ none) :
    (s.step step).poll.reported ≠ none := by
  by_cases htick : step = .tick
  · subst htick
    obtain ⟨found, hfound⟩ := Option.ne_none_iff_exists'.mp h
    simp [Detectors.step, Poll.step, hfound]
  · rw [poll_step_of_ne hquiet htick]
    exact h

theorem poll_tick_iff (hconfig : s.poll.config = some config) (hreported : s.poll.reported = none) :
    (s.step .tick).poll.reported ≠ none ↔ s.host.hasMatch config := by
  obtain ⟨found, hscan, hiff⟩ := scanProc_iff s.host config
  rw [← hiff]
  simp [Detectors.step, Poll.step, Host.step, hconfig, hreported, hscan]

theorem poll_stays (hquiet : ∀ step ∈ window, step.ends = false) (h : s.poll.reported ≠ none) :
    (s.run window).poll.reported ≠ none := by
  induction window generalizing s with
  | nil => exact h
  | cons step window ih =>
    exact ih (fun step hstep => hquiet step (List.mem_cons_of_mem _ hstep))
      (poll_reported_step (hquiet step List.mem_cons_self) h)

theorem poll_reports_iff (hquiet : ∀ step ∈ window, step.ends = false) (hconfig : s.poll.config = some config)
    (hreported : s.poll.reported = none) : (s.run window).poll.reported ≠ none ↔ FoundAlive s config window := by
  induction window generalizing s with
  | nil =>
    constructor
    · exact fun h => absurd hreported h
    · rintro ⟨earlier, later, heq, -⟩
      exact absurd heq.symm (List.append_ne_nil_of_right_ne_nil _ (List.cons_ne_nil _ _))
  | cons step window ih =>
    have hhead := hquiet step List.mem_cons_self
    have htail : ∀ step ∈ window, step.ends = false := fun step hstep => hquiet step (List.mem_cons_of_mem _ hstep)
    have hconfig' : (s.step step).poll.config = some config := (poll_config_step hhead).trans hconfig
    have hsplit : FoundAlive s config (step :: window) ↔
        step = .tick ∧ s.host.hasMatch config ∨ FoundAlive (s.step step) config window := by
      constructor
      · rintro ⟨earlier, later, heq, hmatch⟩
        cases earlier with
        | nil =>
          obtain ⟨rfl, -⟩ := List.cons.inj heq
          exact .inl ⟨rfl, hmatch⟩
        | cons first earlier =>
          obtain ⟨rfl, rfl⟩ := List.cons.inj heq
          exact .inr ⟨earlier, later, rfl, hmatch⟩
      · rintro (⟨rfl, hmatch⟩ | ⟨earlier, later, rfl, hmatch⟩)
        · exact ⟨[], window, rfl, hmatch⟩
        · exact ⟨step :: earlier, later, rfl, hmatch⟩
    rw [hsplit, Detectors.run_cons]
    by_cases hnow : (s.step step).poll.reported = none
    · rw [ih htail hconfig' hnow]
      have hnone : ¬(step = .tick ∧ s.host.hasMatch config) := by
        rintro ⟨rfl, hmatch⟩
        exact (poll_tick_iff hconfig hreported).mpr hmatch hnow
      simp only [hnone, false_or]
    · have htick : step = .tick := by
        by_contra htick
        rw [poll_step_of_ne hhead htick] at hnow
        exact hnow hreported
      subst htick
      constructor
      · exact fun _ => .inl ⟨rfl, (poll_tick_iff hconfig hreported).mp hnow⟩
      · exact fun _ => poll_stays htail hnow

theorem netlink_config_step {step : HostStep} (hquiet : step.ends = false) :
    (s.step step).netlink.config = s.netlink.config := by
  cases step with
  | push _ => cases hquiet
  | restart => cases hquiet
  | exec pid process =>
    simp only [Detectors.step, Netlink.step]
    split <;> rfl
  | _ => rfl

theorem netlink_reported_step {step : HostStep} (hquiet : step.ends = false) (h : s.netlink.reported ≠ none) :
    (s.step step).netlink.reported ≠ none := by
  cases step with
  | push _ => cases hquiet
  | restart => cases hquiet
  | exec pid process =>
    obtain ⟨found, hfound⟩ := Option.ne_none_iff_exists'.mp h
    simp [Detectors.step, Netlink.step, hfound]
  | _ => exact h

theorem netlink_stays (hquiet : ∀ step ∈ window, step.ends = false) (h : s.netlink.reported ≠ none) :
    (s.run window).netlink.reported ≠ none := by
  induction window generalizing s with
  | nil => exact h
  | cons step window ih =>
    exact ih (fun step hstep => hquiet step (List.mem_cons_of_mem _ hstep))
      (netlink_reported_step (hquiet step List.mem_cons_self) h)

theorem netlink_exec_iff {pid : Nat} {process : Process} (hlistening : s.netlink.listening = some config)
    (hreported : s.netlink.reported = none) :
    (s.step (.exec pid process)).netlink.reported ≠ none ↔ matching config pid process = true := by
  have hentry : (s.host.step (.exec pid process)).proc.entry pid = process.entry := by
    apply Host.entry_eq
    simp [Host.step]
  rw [Option.ne_none_iff_isSome, matching]
  simp [Detectors.step, Netlink.step, hlistening, hreported, hentry]

theorem netlink_listening_iff (hquiet : ∀ step ∈ window, step.ends = false)
    (hconfig : s.netlink.config = some config) (hlistening : s.netlink.listening = some config)
    (hreported : s.netlink.reported = none) : (s.run window).netlink.reported ≠ none ↔
      ∃ pid process, .exec pid process ∈ window ∧ matching config pid process = true := by
  induction window generalizing s with
  | nil =>
    constructor
    · exact fun h => absurd hreported h
    · rintro ⟨pid, process, hmem, -⟩
      cases hmem
  | cons step window ih =>
    have hhead := hquiet step List.mem_cons_self
    have htail : ∀ step ∈ window, step.ends = false := fun step hstep => hquiet step (List.mem_cons_of_mem _ hstep)
    have hconfig' : (s.step step).netlink.config = some config := (netlink_config_step hhead).trans hconfig
    have hlistening' : (s.step step).netlink.listening = some config := by
      cases step with
      | push _ => cases hhead
      | restart => cases hhead
      | subscribe => exact hconfig
      | exec pid process =>
        simp only [Detectors.step, Netlink.step]
        split <;> exact hlistening
      | _ => exact hlistening
    rw [Detectors.run_cons]
    by_cases hnow : (s.step step).netlink.reported = none
    · rw [ih htail hconfig' hlistening' hnow]
      constructor
      · rintro ⟨pid, process, hmem, hmatch⟩
        exact ⟨pid, process, List.mem_cons_of_mem _ hmem, hmatch⟩
      · rintro ⟨pid, process, hmem, hmatch⟩
        rcases List.mem_cons.mp hmem with rfl | hmem
        · exact absurd hnow ((netlink_exec_iff hlistening hreported).mpr hmatch)
        · exact ⟨pid, process, hmem, hmatch⟩
    · refine ⟨fun _ => ?_, fun _ => netlink_stays htail hnow⟩
      cases step with
      | push _ => cases hhead
      | restart => cases hhead
      | exec pid process =>
        exact ⟨pid, process, List.mem_cons_self, (netlink_exec_iff hlistening hreported).mp hnow⟩
      | _ => exact absurd hreported hnow

theorem netlink_reports_iff (hquiet : ∀ step ∈ window, step.ends = false) (hconfig : s.netlink.config = some config)
    (hlistening : s.netlink.listening = none) (hreported : s.netlink.reported = none) :
    (s.run window).netlink.reported ≠ none ↔ ExecsLater config window := by
  induction window generalizing s with
  | nil =>
    constructor
    · exact fun h => absurd hreported h
    · rintro ⟨later, pid, process, hsuffix, -⟩
      cases List.suffix_nil.mp hsuffix
  | cons step window ih =>
    have hhead := hquiet step List.mem_cons_self
    have htail : ∀ step ∈ window, step.ends = false := fun step hstep => hquiet step (List.mem_cons_of_mem _ hstep)
    have hconfig' : (s.step step).netlink.config = some config := (netlink_config_step hhead).trans hconfig
    rw [Detectors.run_cons]
    by_cases hsubscribe : step = .subscribe
    · subst hsubscribe
      rw [netlink_listening_iff htail hconfig' hconfig hreported]
      constructor
      · rintro ⟨pid, process, hmem, hmatch⟩
        exact ⟨window, pid, process, List.suffix_refl _, hmem, hmatch⟩
      · rintro ⟨later, pid, process, hsuffix, hmem, hmatch⟩
        rcases List.suffix_cons_iff.mp hsuffix with heq | hsuffix
        · cases heq
          exact ⟨pid, process, hmem, hmatch⟩
        · exact ⟨pid, process, hsuffix.subset (List.mem_cons_of_mem _ hmem), hmatch⟩
    · have hsame : (s.step step).netlink = s.netlink := by
        cases step with
        | push _ => cases hhead
        | restart => cases hhead
        | subscribe => exact absurd rfl hsubscribe
        | exec pid process => simp [Detectors.step, Netlink.step, hreported, hlistening]
        | _ => rfl
      rw [ih htail hconfig' (by rw [hsame, hlistening]) (by rw [hsame, hreported])]
      constructor
      · rintro ⟨later, pid, process, hsuffix, hmem⟩
        exact ⟨later, pid, process, hsuffix.trans (List.suffix_cons _ _), hmem⟩
      · rintro ⟨later, pid, process, hsuffix, hmem⟩
        rcases List.suffix_cons_iff.mp hsuffix with heq | hsuffix
        · exact absurd (List.cons.inj heq).1.symm hsubscribe
        · exact ⟨later, pid, process, hsuffix, hmem⟩

end

/-! ## The detectors compared -/

theorem armedAt_config (before : List HostStep) (config : Config) :
    (armedAt before config).poll.config = some config ∧ (armedAt before config).netlink.config = some config ∧
      (armedAt before config).netlink.listening = none := by
  rw [armedAt, Detectors.run, List.foldl_append]
  exact ⟨rfl, rfl, rfl⟩

/-- For every trace: the netlink detector refines the poll detector if and only if every match the latter finds
is announced by an exec. -/
theorem netlink_refines_iff (trace : List HostStep) : NetlinkRefines trace ↔ CaughtByExec trace := by
  have hiff : ∀ before config window, Armed trace before config window → (armedAt before config).poll.reported = none →
      ((((armedAt before config).run window).poll.reported ≠ none →
          ((armedAt before config).run window).netlink.reported ≠ none) ↔
        (FoundAlive (armedAt before config) config window →
          (armedAt before config).netlink.reported ≠ none ∨ ExecsLater config window)) := by
    intro before config window harmed hpoll
    obtain ⟨hconfig, hnetlink, hlistening⟩ := armedAt_config before config
    rw [poll_reports_iff harmed.quiet hconfig hpoll]
    by_cases hreported : (armedAt before config).netlink.reported = none
    · rw [netlink_reports_iff harmed.quiet hnetlink hlistening hreported]
      simp [hreported]
    · simp only [netlink_stays harmed.quiet hreported, hreported, implies_true, ne_eq, not_false_eq_true, true_or]
  constructor
  · intro h before config window harmed hpoll
    exact (hiff before config window harmed hpoll).mp (h before config window harmed hpoll)
  · intro h before config window harmed hpoll
    exact (hiff before config window harmed hpoll).mpr (h before config window harmed hpoll)

/-! ## A process that was there before -/

def javaConfig : Config := ⟨["java"], [], Constants.defaultPollIntervalMs⟩

def javaProcess : Process := ⟨"java".toUTF8, ByteArray.empty⟩

/-- The process starts, and then the agent is armed. -/
theorem earlier_process_missed : ¬∀ trace, NetlinkRefines trace := by
  intro hrefines
  have harmed : Armed [.exec 7 javaProcess, .push (some javaConfig), .subscribe, .tick] [.exec 7 javaProcess] javaConfig
      [.subscribe, .tick] := by
    constructor
    · exact ⟨[], rfl, fun _ h => (nomatch h)⟩
    · decide
  have hmissed := hrefines _ [.exec 7 javaProcess] javaConfig [.subscribe, .tick] harmed (by decide)
  revert hmissed
  decide +kernel

end FiveSpot.ReclaimAgent
