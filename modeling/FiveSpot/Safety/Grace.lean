import FiveSpot.Safety.Objects

/-! # The grace period

The start of the grace period is recovered from the condition whose reason says so. A machine that
leaves `Active` because its schedule was disabled gets another reason, and with it no grace period.
-/

namespace FiveSpot

set_option autoImplicit false

open Interaction

/-! ## What is promised -/

def Effect.isTeardown : Effect → Bool
  | .delete _ | .drain _ _ | .evict _ => true
  | _ => false

def Event.teardown : Event → Option Time
  | .called time _ client call _ _ => if (effectOfCall client call).any Effect.isTeardown then some time else none
  | _ => none

/-- A teardown comes at least `timeout` seconds after the last phase write, which was `ShuttingDown`. -/
def GraceRespected (timeout : Nat) (e : Event) (earlier : List Event) : Prop :=
  ∀ time, e.teardown = some time → ∃ start conditions,
    lastPhase earlier = some ⟨.shuttingDown, conditions, start⟩ ∧ timeout * nanosPerSecond ≤ time - start

theorem graceRespected_of_not {timeout : Nat} {e : Event} {earlier : List Event} (h : e.teardown = none) :
    GraceRespected timeout e earlier := by
  intro time htime
  rw [h] at htime
  cases htime

/-! ## The runs -/

def parsesTo (text : String) (timeout : Nat) : Bool :=
  match parseDuration text with
  | .ok seconds => seconds == timeout
  | .error _ => false

theorem parsesTo_iff {text : String} {timeout : Nat} :
    parsesTo text timeout = true ↔ parseDuration text = .ok timeout := by
  unfold parsesTo
  cases parseDuration text <;> simp

/-- The clock never goes back, and no reconcile sees a kill switch, a deletion, a reclaim request or
another timeout. -/
def calmRun (timeout : Nat) (s : RunState) : RunAct → Bool
  | .interfere (.setClock time) => decide (s.world.now ≤ time)
  | .start => s.world.sm.all fun sm =>
      !sm.spec.killSwitch && !sm.deleting && parsesTo sm.spec.gracefulShutdownTimeout timeout
  | .answer fate => (nextCall s).all fun ⟨_, client, call⟩ => (requestAhead s.world fate client call).isNone
  | _ => true

/-- `Active` is not left because the schedule is disabled, unless there is no grace period anyway. -/
def leavesEnabled (timeout : Nat) (s : RunState) : RunAct → Bool
  | .answer _ => (nextCall s).all fun ⟨snap, _, call⟩ =>
      timeout == 0 || snap.sm.spec.enabled || call.phaseTarget != some .shuttingDown
  | _ => true

def graceGuard (timeout : Nat) (s : RunState) (a : RunAct) : Bool := calmRun timeout s a && leavesEnabled timeout s a

/-! ## The invariant -/

structure Calm (timeout : Nat) (snap : Snapshot) (t : List Obs) : Prop where
  kill : snap.sm.spec.killSwitch = false
  alive : snap.sm.deleting = false
  timeout : parseDuration snap.sm.spec.gracefulShutdownTimeout = .ok timeout
  unrequested : Unrequested t

/-- Clock values read before the first phase write lie between the last recorded phase write and now. -/
def ClocksBetween (now : Time) (log : List Event) (t : List Obs) : Prop :=
  ∀ time, .clock time ∈ t → time ≤ now ∧ (Unwritten t → ∀ record, lastPhase log = some record → record.time ≤ time)

structure GraceInvariant (timeout : Nat) (now : Time) (log : List Event)
    (pass : Option (Snapshot × List Obs)) : Prop where
  respected : Always (GraceRespected timeout) log
  past : ∀ record, lastPhase log = some record → record.time ≤ now
  stamped : ∀ record, lastPhase log = some record → record.target = .shuttingDown → timeout = 0 ∨
    ∃ message, record.conditions = [.new record.time Constants.conditionTypeReady Constants.conditionStatusTrue
      Constants.reasonGracePeriod message]
  calm : ∀ snap t, pass = some (snap, t) → Calm timeout snap t
  clocks : ∀ snap t, pass = some (snap, t) → ClocksBetween now log t

section

variable {timeout : Nat} {now : Time} {log : List Event} {pass : Option (Snapshot × List Obs)} {snap : Snapshot}
  {t : List Obs} {e : Event}

theorem ClocksBetween.cons {o : Obs} (h : ClocksBetween now log t) (ho : o.isLocal = false) :
    ClocksBetween now log (o :: t) := by
  intro time hmem
  rcases List.mem_cons.mp hmem with hnew | hold
  · rw [← hnew] at ho
    cases ho
  · exact ⟨(h time hold).1, fun hu => (h time hold).2 hu.tail⟩

theorem GraceInvariant.cons (h : GraceInvariant timeout now log pass) (hphase : e.phaseWrite = none)
    (hteardown : e.teardown = none) : GraceInvariant timeout now (e :: log) pass := by
  have hlast := lastPhase_cons_of_none hphase log
  refine ⟨h.respected.cons (graceRespected_of_not hteardown), ?_, ?_, h.calm, fun snap t hpass time hmem => ?_⟩
  · rw [hlast]
    exact h.past
  · rw [hlast]
    exact h.stamped
  · rw [hlast]
    exact h.clocks snap t hpass time hmem

theorem GraceInvariant.later {now' : Time} (h : GraceInvariant timeout now log pass) (hnow : now ≤ now') :
    GraceInvariant timeout now' log pass := by
  refine ⟨h.respected, fun record hrecord => Int.le_trans (h.past record hrecord) hnow, h.stamped, h.calm, ?_⟩
  intro snap t hpass time hmem
  exact ⟨Int.le_trans (h.clocks snap t hpass time hmem).1 hnow, (h.clocks snap t hpass time hmem).2⟩

end

/-! ## Enough time has passed -/

theorem le_sub_of_graceOver {start now : Int} {timeout : Nat} (hstart : start ≤ now)
    (h : graceOver start now timeout = true) : timeout * nanosPerSecond ≤ now - start := by
  have hnonneg : 0 ≤ now - start := by omega
  simp only [graceOver, elapsedSeconds, nanosPerSecond, Int.tdiv_eq_ediv_of_nonneg hnonneg, Bool.or_eq_true,
    decide_eq_true_eq] at h ⊢
  omega

/-- A shutdown handler that takes the grace period to be over is right. -/
theorem elapsed_of_shutDown {ctx : Context} {timeout : Nat} {w : World} {snap : Snapshot}
    {trace : List (Sigma Resp)} {ns : String} (hbase : Base w (some (snap, trace)))
    (h : GraceInvariant timeout w.now w.log (some (snap, observed trace)))
    (hshut : ShutDown ctx snap.sm ns (observed trace)) (hclean : Unmarked (observed trace)) :
    ∃ start conditions, lastPhase w.log = some ⟨.shuttingDown, conditions, start⟩ ∧
      timeout * nanosPerSecond ≤ w.now - start := by
  have hrecorded := (hbase.pass snap trace rfl).recorded hclean.unwritten
  have hphase := hrecorded.phase.symm.trans hshut.phase
  obtain ⟨⟨target, conditions, start⟩, hlast, rfl⟩ := Option.map_eq_some_iff.mp hphase
  refine ⟨start, conditions, hlast, ?_⟩
  have hpast := h.past _ hlast
  rcases h.stamped _ hlast rfl with rfl | ⟨message, hconditions⟩
  · rw [Int.natCast_zero, Int.zero_mul]
    exact Int.sub_nonneg.mpr hpast
  · obtain ⟨status, hstatus, hover⟩ := hshut.elapsed
    have hstart : graceStart status = some (.valid start) := by
      have hsame := hrecorded.conditions
      simp only [ScheduledMachine.conditions, hstatus, hlast, Option.map_some, Option.getD_some] at hsame
      rw [graceStart, hsame, show conditions = _ from hconditions]
      rfl
    rcases hover with hnone | ⟨start', timeout', time, hstart', htimeout', hclock, hover⟩
    · rw [hstart] at hnone
      cases hnone
    · cases hstart.symm.trans hstart'
      cases (h.calm snap _ rfl).timeout.symm.trans htimeout'
      obtain ⟨hnow, hafter⟩ := h.clocks snap _ rfl time hclock
      have helapsed := le_sub_of_graceOver (hafter hclean.unwritten _ hlast) hover
      exact Int.le_trans helapsed (Int.sub_le_sub_right hnow start)

theorem legal_teardown {ctx : Context} {timeout : Nat} {snap : Snapshot} {t : List Obs} {effect : Effect}
    (hcalm : Calm timeout snap t) (h : LegalFor ctx snap t effect) (heffect : effect.isTeardown = true) :
    ∃ ns, ShutDown (ctx.led snap.leader) snap.sm ns t ∧ Unmarked t := by
  have hunmarked : Untouched t → Unmarked t := by
    intro hu o ho hwrite
    obtain ⟨key, rfl⟩ := hu o ho hwrite
    exact ⟨key, .inl rfl⟩
  cases h with
  | deletionDelete path running owned =>
    have halive := hcalm.alive
    rw [path.deleting] at halive
    cases halive
  | killDelete path clean running owned =>
    have hkill := hcalm.kill
    rw [path.kill] at hkill
    cases hkill
  | reclaimDrain path marked => exact absurd path hcalm.unrequested.not_reclaimed
  | reclaimEvict path marked listed => exact absurd path hcalm.unrequested.not_reclaimed
  | reclaimDelete path marked owned => exact absurd path hcalm.unrequested.not_reclaimed
  | shutdownDrain path clean machine => exact ⟨_, path, hunmarked clean⟩
  | shutdownEvict path clean machine listed => exact ⟨_, path, hunmarked clean⟩
  | shutdownDelete path clean owned => exact ⟨_, path, clean⟩
  | _ => cases heffect

/-- The condition of a `ShuttingDown` write marks the start of the grace period, unless the schedule was
disabled. -/
theorem legal_shuttingDown {ctx : Context} {w : World} {snap : Snapshot} {trace : List (Sigma Resp)}
    {conditions : List Condition} (hbase : Base w (some (snap, trace)))
    (h : LegalFor ctx snap (observed trace) (.phase .shuttingDown conditions)) :
    snap.sm.spec.enabled = false ∨ ∃ message, conditions = [.new w.now Constants.conditionTypeReady
      Constants.conditionStatusTrue Constants.reasonGracePeriod message] := by
  cases h with
  | activeShutdown path phase clean cause stamp =>
    obtain ⟨now, rest, message, htrace, rfl⟩ := stamp
    have hnow := (hbase.pass snap trace rfl).clock now rest htrace
    cases henabled : snap.sm.spec.enabled with
    | false => exact .inl rfl
    | true =>
      rw [henabled, if_pos rfl] at cause
      exact .inr ⟨message, by rw [hnow, cause]⟩

theorem teardown_called {time t : Time} {bound : Option String} {client : Client} {call : ApiCall}
    {applied : Bool} {error : Option KubeError}
    (h : (Event.called time bound client call applied error).teardown = some t) :
    t = time ∧ ∃ effect, effectOfCall client call = some effect ∧ effect.isTeardown = true := by
  simp only [Event.teardown] at h
  split at h
  · rename_i hany
    cases h
    exact ⟨rfl, (Option.any_eq_true _ _).mp hany⟩
  · cases h

theorem graceInvariant_call {ctx : Context} {timeout : Nat} {w after : World} {snap : Snapshot} {client : Client}
    {call : ApiCall} {k : Resp (.api client call) → Prog Resp ReconcilerError Action} {trace : List (Sigma Resp)}
    {fate : Fate} {applied : Bool} {error : Option KubeError} (hbase : Base w (some (snap, trace)))
    (h : GraceInvariant timeout w.now w.log (some (snap, observed trace)))
    (hlegal : ∀ effect, effectOfCall client call = some effect → LegalFor ctx snap (observed trace) effect)
    (hok : graceGuard timeout ⟨w, some ⟨snap, .call (.api client call) k, trace⟩⟩ (.answer fate) = true)
    (ha : Answered w client call (serveApi w client call fate).1 after applied error) :
    GraceInvariant timeout w.now (.called w.now w.bound client call applied error :: w.log)
      (some (snap, obsOfCall client call (serveApi w client call fate).1 :: observed trace)) := by
  have hguard : (requestAhead w fate client call).isNone = true ∧
      (timeout = 0 ∨ snap.sm.spec.enabled = true ∨ call.phaseTarget ≠ some .shuttingDown) := by
    simpa [graceGuard, calmRun, leavesEnabled, nextCall, or_assoc] using hok
  obtain ⟨hunrequested, henabled⟩ := hguard
  have hcalm := h.calm snap _ rfl
  have hrespected : Always (GraceRespected timeout)
      (.called w.now w.bound client call applied error :: w.log) := by
    refine h.respected.cons fun time htime => ?_
    obtain ⟨rfl, effect, heffect, hteardown⟩ := teardown_called htime
    obtain ⟨ns, hshut, hclean⟩ := legal_teardown hcalm (hlegal effect heffect) hteardown
    exact elapsed_of_shutDown hbase h hshut hclean
  have hcalm' : Calm timeout snap (obsOfCall client call (serveApi w client call fate).1 :: observed trace) :=
    { hcalm with unrequested := hcalm.unrequested.call hunrequested }
  have hlocal := @obsOfCall_isLocal client call (serveApi w client call fate).1
  -- everything that is not a phase write leaves the last one as it is
  have hother : (Event.called w.now w.bound client call applied error).phaseWrite = none →
      GraceInvariant timeout w.now (.called w.now w.bound client call applied error :: w.log)
        (some (snap, obsOfCall client call (serveApi w client call fate).1 :: observed trace)) := by
    intro write
    have hlast := lastPhase_cons_of_none write w.log
    refine ⟨hrespected, hlast ▸ h.past, hlast ▸ h.stamped, fun snap' t hpass => ?_, fun snap' t hpass => ?_⟩
    · cases hpass
      exact hcalm'
    · cases hpass
      intro time hmem
      rw [hlast]
      exact (h.clocks snap _ rfl).cons hlocal time hmem
  cases callKind ha with
  | other obs write creates => exact hother write
  | create key effect obs write => exact hother write
  | phase target conditions done effect obs write creates done_applied =>
    cases applied with
    | false => exact hother write
    | true =>
      have hlast : lastPhase (.called w.now w.bound client call true error :: w.log) =
          some ⟨target, conditions, w.now⟩ := by
        rw [lastPhase_cons, write]
        rfl
      refine ⟨hrespected, fun record hrecord => ?_, fun record hrecord htarget => ?_, fun snap' t hpass => ?_,
        fun snap' t hpass => ?_⟩
      · cases hlast.symm.trans hrecord
        exact Int.le_refl _
      · cases hlast.symm.trans hrecord
        cases htarget
        rcases henabled with hzero | henabled | htarget
        · exact .inl hzero
        · rcases legal_shuttingDown hbase (hlegal _ effect) with hdisabled | hstamp
          · rw [hdisabled] at henabled
            cases henabled
          · exact .inr hstamp
        · exact absurd (phaseTarget_of_effect effect) htarget
      · cases hpass
        exact hcalm'
      · cases hpass
        intro time hmem
        refine ⟨((h.clocks snap _ rfl).cons hlocal time hmem).1, fun hu => ?_⟩
        exact absurd (List.mem_cons.mpr (.inl obs.symm)) (hu target done)

theorem interfere_now (e : Interference) (w : World) :
    (∃ time, e = .setClock time ∧ (interfere e w).now = time) ∨ w.now ≤ (interfere e w).now := by
  cases e with
  | setClock time => exact .inl ⟨time, rfl, rfl⟩
  | tick nanos => exact .inr (Int.le_add_of_nonneg_right (Int.natCast_nonneg nanos))
  | editSpec spec =>
    refine .inr ?_
    simp only [interfere]
    split <;> exact Int.le_refl _
  | requestDeletion =>
    refine .inr ?_
    simp only [interfere]
    split <;> exact Int.le_refl _
  | _ => exact .inr (Int.le_refl _)

theorem graceInvariant_keeps (ctx : Context) (timeout : Nat) :
    LogKeeps ctx (fun s a => graceGuard timeout s a = true) Base (GraceInvariant timeout) where
  base _ := ⟨always_nil, fun _ h => (nomatch h), fun _ h => (nomatch h), fun _ _ h => (nomatch h),
    fun _ _ h => (nomatch h)⟩
  pause w pass e _ h hok := by
    refine h.later ?_
    rcases interfere_now e w with ⟨time, rfl, htime⟩ | hle
    · rw [htime]
      simpa [graceGuard, calmRun, leavesEnabled] using hok
    · exact hle
  edit _ _ _ _ h _ := h.cons rfl rfl
  deletion _ _ _ h _ := h.cons rfl rfl
  start w sm _ h hsm hok := by
    obtain ⟨hrespected, hpast, hstamped, -, -⟩ := h.cons (e := .started w.now w.bound sm) rfl rfl
    refine ⟨hrespected, hpast, hstamped, fun snap t hpass => ?_, fun snap t hpass time hmem => ?_⟩
    · cases hpass
      have hguard : (sm.spec.killSwitch = false ∧ sm.deleting = false) ∧
          parsesTo sm.spec.gracefulShutdownTimeout timeout = true := by
        simpa [graceGuard, calmRun, leavesEnabled, hsm] using hok
      exact ⟨hguard.1.1, hguard.1.2, parsesTo_iff.mp hguard.2, fun _ _ hmem => (nomatch hmem)⟩
    · cases hpass
      cases hmem
  call _ _ _ _ _ _ _ _ _ _ hbase h hlegal hok ha := graceInvariant_call hbase h hlegal hok ha
  clock now log snap t h := by
    refine ⟨h.respected, h.past, h.stamped, fun snap' t' hpass => ?_, fun snap' t' hpass time hmem => ?_⟩
    · cases hpass
      exact { h.calm snap t rfl with unrequested := (h.calm snap t rfl).unrequested.cons nofun }
    · cases hpass
      rcases List.mem_cons.mp hmem with hnew | hold
      · cases hnew
        exact ⟨Int.le_refl _, fun _ => h.past⟩
      · exact ⟨(h.clocks snap t rfl time hold).1, fun hu => (h.clocks snap t rfl time hold).2 hu.tail⟩
  timeout now log snap t h := by
    obtain ⟨hrespected, hpast, hstamped, hcalm, hclocks⟩ := h.cons (e := .timedOut) rfl rfl
    refine ⟨hrespected, hpast, hstamped, fun snap' t' hpass => ?_, fun snap' t' hpass time hmem => ?_⟩
    · cases hpass
      exact { hcalm snap t rfl with unrequested := (hcalm snap t rfl).unrequested.cons nofun }
    · cases hpass
      rcases List.mem_cons.mp hmem with hnew | hold
      · cases hnew
      · exact ⟨(hclocks snap t rfl time hold).1, fun hu => (hclocks snap t rfl time hold).2 hu.tail⟩
  leave _ _ _ _ h := ⟨h.respected, h.past, h.stamped, fun _ _ h => (nomatch h), fun _ _ h => (nomatch h)⟩
  crash _ _ h := h.cons rfl rfl

/-- In every such run, whenever the Node is drained or an object deleted, the phase has been
`ShuttingDown` for the whole grace period. -/
theorem grace_period_respected {ctx : Context} {timeout : Nat} {s : RunState}
    (hs : (system ctx).Reach Fresh (fun s a => graceGuard timeout s a = true) s) {e : Event}
    {earlier : List Event} (hlog : e :: earlier <:+ s.world.log) {time : Time} (htime : e.teardown = some time) :
    ∃ start conditions, lastPhase earlier = some ⟨.shuttingDown, conditions, start⟩ ∧
      timeout * nanosPerSecond ≤ time - start :=
  ((graceInvariant_keeps ctx timeout).holds (fun _ => base_of_reach) hs).respected e earlier hlog time htime

/-! ## Two runs -/

/-- The window has closed; the objects of the machine are there. -/
def closedObject (key : ObjKey) : Option Json :=
  some (if key = scheduleResource.key "team" "work" then providerSays false else .obj [])

def closedEnv : Env := { demoEnv with object := closedObject }

/-- The machine becomes active, the window closes, and five minutes pass. -/
def shutDownAfterWindow : List RunAct :=
  .start :: answers 13 ++ [.finish, .interfere (.replace closedEnv .all), .start] ++ answers 7 ++
    [.finish, .interfere (.tick 300000000000), .start] ++ answers 6

/-- The machine becomes active and is disabled. -/
def shutDownAtOnce : List RunAct :=
  .start :: answers 13 ++ [.finish, .interfere (.editSpec disabledSpec), .start] ++ answers 6 ++
    [.finish, .start] ++ answers 5

def tornDown (property : Time → List Event → Bool) (s : RunState) : Bool :=
  match s.world.log with
  | e :: earlier => e.teardown.any fun time => property time earlier
  | [] => false

theorem tornDown_iff {property : Time → List Event → Bool} {s : RunState} (h : tornDown property s = true) :
    ∃ e earlier time, s.world.log = e :: earlier ∧ e.teardown = some time ∧ property time earlier = true := by
  unfold tornDown at h
  split at h
  · rename_i e earlier hlog
    obtain ⟨time, htime, hproperty⟩ := (Option.any_eq_true _ _).mp h
    exact ⟨e, earlier, time, hlog, htime, hproperty⟩
  · cases h

theorem grace_period_respected_window : ∃ (e : Event) (earlier : List Event) (time start : Time)
    (conditions : List Condition), e.teardown = some time ∧
      lastPhase earlier = some ⟨.shuttingDown, conditions, start⟩ ∧ 300 * nanosPerSecond ≤ time - start := by
  obtain ⟨s, hs, htorn⟩ := System.Reach.exists_of_runWith (system demoContext) (graceGuard 300)
    (tornDown fun _ _ => true) shutDownAfterWindow demoWorld_fresh (by decide +kernel)
  obtain ⟨e, earlier, time, hlog, htime, -⟩ := tornDown_iff htorn
  obtain ⟨start, conditions, hlast, helapsed⟩ :=
    grace_period_respected hs (hlog ▸ List.suffix_rfl : e :: earlier <:+ s.world.log) htime
  exact ⟨e, earlier, time, start, conditions, htime, hlast, helapsed⟩

/-- A machine whose schedule is disabled is torn down by the next reconcile. -/
theorem grace_period_skipped : ¬∀ s : RunState,
    (system demoContext).Reach Fresh (fun s a => calmRun 300 s a = true) s →
      ∀ e earlier, s.world.log = e :: earlier → ∀ time, e.teardown = some time → ∃ start conditions,
        lastPhase earlier = some ⟨.shuttingDown, conditions, start⟩ ∧ 300 * nanosPerSecond ≤ time - start := by
  intro hrespected
  obtain ⟨s, hs, htorn⟩ := System.Reach.exists_of_runWith (system demoContext) (calmRun 300)
    (tornDown fun time earlier => (lastPhase earlier).all fun record =>
      decide (time - record.time < 300 * nanosPerSecond)) shutDownAtOnce demoWorld_fresh (by decide +kernel)
  obtain ⟨e, earlier, time, hlog, htime, hhasty⟩ := tornDown_iff htorn
  obtain ⟨start, conditions, hlast, helapsed⟩ := hrespected s hs e earlier hlog time htime
  rw [hlast, Option.all_some, decide_eq_true_eq] at hhasty
  exact absurd helapsed (Int.not_le.mpr hhasty)

end FiveSpot
