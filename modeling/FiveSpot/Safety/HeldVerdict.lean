import FiveSpot.Cluster.LogInvariant
import FiveSpot.Interaction.Observer

/-! # The held verdict

While a provider is unresolved the last value in `status.spotSchedule.active` is held. That field does not
say which provider the value came from, and a verdict that could not be written is not in it.
-/

namespace FiveSpot

set_option autoImplicit false

open Interaction

/-- A reconcile has written what it knows about the schedule and goes on with that. -/
structure Decision where
  sm : ScheduledMachine
  status : SpotScheduleStatus
  /-- The last resolved verdict of the provider the resource named. -/
  last : Option Bool

/-- An unresolved verdict comes out active only if the provider's own last resolved verdict was. -/
def Decision.Sound (d : Decision) : Prop :=
  ∃ verdict time, d.status = spotScheduleStatus verdict d.sm.lastKnownSpotActive time ∧
    (verdict.isResolved = false → composeShouldBeActive verdict d.sm.lastKnownSpotActive = true → d.last = some true)

structure VerdictNotes where
  /-- What the pass in progress has read. -/
  sm : Option ScheduledMachine
  /-- The kind of the provider was just found. -/
  pinned : Bool
  /-- The last resolved verdict of each provider. -/
  last : SpotScheduleRef → Option Bool
  /-- The last resolved verdict that was written to the status, and whose it was. -/
  recorded : Option (SpotScheduleRef × Bool)
  /-- The provider said inactive, and that was not written. -/
  missed : SpotScheduleRef → Bool
  decisions : List Decision

namespace VerdictNotes

def empty : VerdictNotes := ⟨none, false, fun _ => none, none, fun _ => false, []⟩

def obtain (n : VerdictNotes) (verdict : SpotScheduleVerdict) : VerdictNotes :=
  match n.sm, verdict.active? with
  | some sm, some active =>
    { n with
      last := fun ref => if ref = sm.spec.schedule then some active else n.last ref
      missed := fun ref => if ref = sm.spec.schedule then !active else n.missed ref }
  | _, _ => n

/-- The provider is read right after its kind was found. -/
def observe (n : VerdictNotes) : Obs → VerdictNotes
  | .pinned => { n with pinned := true }
  | .object _ provider =>
    if n.pinned then { n with pinned := false }.obtain (verdictFromStatus (provider.get "status")) else n
  | _ => { n with pinned := false }

def publish (n : VerdictNotes) (status : SpotScheduleStatus) (applied done : Bool) : VerdictNotes :=
  match n.sm with
  | some sm =>
    let written := applied && status.resolved
    { n with
      recorded := if written then status.active.map fun active => (sm.spec.schedule, active) else n.recorded
      missed := fun ref => if written && ref = sm.spec.schedule then false else n.missed ref
      decisions := if done then ⟨sm, status, n.last sm.spec.schedule⟩ :: n.decisions else n.decisions }
  | none => n

end VerdictNotes

def World.carriedOut (w : World) : Bool :=
  match w.log with
  | .called _ _ _ _ applied _ :: _ => applied
  | _ => false

def verdictObserver : Observer Resp World Snapshot VerdictNotes where
  opened snap n := { n with sm := some snap.sm, pinned := false }
  served n
    | .api _ (.patchStatus _ _ (.spotSchedule status)), answer, after =>
      n.publish status after.carriedOut (succeeded answer)
    | .api client call, answer, _ => n.observe (obsOfCall client call answer)
    | _, _, _ => n

def watchedSystem (ctx : Context) : System Resp ReconcilerError Action (World × VerdictNotes) Snapshot Interference Fate :=
  (system ctx).observedBy verdictObserver

abbrev WatchedState := State Resp ReconcilerError Action (World × VerdictNotes) Snapshot

def FreshWatched (w : World × VerdictNotes) : Prop := Fresh w.1 ∧ w.2 = .empty

theorem reach_iff_watched {ctx : Context} {s : RunState} : (system ctx).Reach Fresh (fun _ _ => True) s ↔
    ∃ n, (watchedSystem ctx).Reach FreshWatched (fun _ _ => True) ⟨(s.world, n), s.pass⟩ := by
  constructor
  · exact fun hs => System.Reach.observed (System.annotates_observedBy _ _) VerdictNotes.empty hs
  · rintro ⟨n, hn⟩
    exact hn.forget (System.annotates_observedBy _ _) (fun _ hw => hw.1) fun _ _ _ => trivial

/-- When an unresolved verdict meets a held `true`, the value is the named provider's, and that provider has
not said inactive since. -/
def holdsOwn (s : WatchedState) : RunAct → Bool
  | .answer _ => (nextCall s.forget).all fun ⟨snap, _, call⟩ => match call with
    | .patchStatus _ _ (.spotSchedule status) =>
      status.resolved || snap.sm.lastKnownSpotActive != some true ||
        (s.world.2.recorded.map Prod.fst == some snap.sm.spec.schedule && !s.world.2.missed snap.sm.spec.schedule)
    | _ => true
  | _ => true

/-! ## The invariant -/

structure HeldPass (n : VerdictNotes) (snap : Snapshot) (t : List Obs) : Prop where
  sm : n.sm = some snap.sm
  held : .scheduled ∉ t → snap.sm.lastKnownSpotActive = n.recorded.map Prod.snd
  pinned : ∀ rest, t = .pinned :: rest → n.pinned = true
  verdict : ∀ verdict active, VerdictRead verdict t → verdict.active? = some active →
    n.last snap.sm.spec.schedule = some active

/-- The status holds what was recorded last, and a recorded `true` still stands unless something was missed. -/
structure HeldInvariant (w : World × VerdictNotes) (pass : Option (Snapshot × List (Sigma Resp))) : Prop where
  held : ∀ sm, w.1.sm = some sm → sm.lastKnownSpotActive = w.2.recorded.map Prod.snd
  own : ∀ ref, w.2.recorded = some (ref, true) → w.2.last ref = some true ∨ w.2.missed ref = true
  sound : ∀ d ∈ w.2.decisions, d.Sound
  pass : ∀ snap trace, pass = some (snap, trace) → HeldPass w.2 snap (observed trace)

theorem SpotScheduleVerdict.active?_eq_some_of_isResolved {verdict : SpotScheduleVerdict}
    (h : verdict.isResolved = true) : ∃ active, verdict.active? = some active := by
  cases verdict with
  | active generation => exact ⟨true, rfl⟩
  | inactive generation => exact ⟨false, rfl⟩
  | unresolved reason message => cases h

theorem SpotScheduleVerdict.active?_eq_none_of_isResolved {verdict : SpotScheduleVerdict}
    (h : verdict.isResolved = false) : verdict.active? = none := by
  cases verdict with
  | unresolved reason message => rfl
  | _ => cases h

theorem held_of_compose {verdict : SpotScheduleVerdict} {held : Option Bool} (hunresolved : verdict.isResolved = false)
    (hactive : composeShouldBeActive verdict held = true) : held = some true := by
  cases verdict with
  | unresolved reason message =>
    cases held with
    | none => cases hactive
    | some active =>
      cases active with
      | true => rfl
      | false => cases hactive
  | _ => cases hunresolved

/-! ### Notes of an answer -/

section

variable {n : VerdictNotes} {o : Obs}

@[simp] theorem obtain_sm (verdict : SpotScheduleVerdict) : (n.obtain verdict).sm = n.sm := by
  unfold VerdictNotes.obtain
  split <;> rfl

@[simp] theorem obtain_recorded (verdict : SpotScheduleVerdict) : (n.obtain verdict).recorded = n.recorded := by
  unfold VerdictNotes.obtain
  split <;> rfl

@[simp] theorem obtain_decisions (verdict : SpotScheduleVerdict) : (n.obtain verdict).decisions = n.decisions := by
  unfold VerdictNotes.obtain
  split <;> rfl

theorem last_obtain {sm : ScheduledMachine} {verdict : SpotScheduleVerdict} {active : Bool} (hsm : n.sm = some sm)
    (hactive : verdict.active? = some active) : (n.obtain verdict).last sm.spec.schedule = some active := by
  simp [VerdictNotes.obtain, hsm, hactive]

theorem own_obtain {verdict : SpotScheduleVerdict} {ref : SpotScheduleRef}
    (h : n.last ref = some true ∨ n.missed ref = true) :
    (n.obtain verdict).last ref = some true ∨ (n.obtain verdict).missed ref = true := by
  unfold VerdictNotes.obtain
  split
  · rename_i sm active _ _
    by_cases href : ref = sm.spec.schedule
    · cases active with
      | true => exact .inl (if_pos href)
      | false => exact .inr (if_pos href)
    · simpa [href] using h
  · exact h

theorem observe_cases (n : VerdictNotes) (o : Obs) :
    (∃ pinned, n.observe o = { n with pinned := pinned } ∧ (o = .pinned → pinned = true)) ∨
      ∃ key provider, o = .object key provider ∧
        n.observe o = { n with pinned := false }.obtain (verdictFromStatus (provider.get "status")) := by
  cases o with
  | object key provider =>
    by_cases hpinned : n.pinned = true
    · exact .inr ⟨key, provider, rfl, by simp [VerdictNotes.observe, hpinned]⟩
    · exact .inl ⟨n.pinned, if_neg hpinned, nofun⟩
  | pinned => exact .inl ⟨true, rfl, fun _ => rfl⟩
  | _ => exact .inl ⟨false, rfl, nofun⟩

theorem observe_sm : (n.observe o).sm = n.sm := by
  rcases observe_cases n o with ⟨pinned, h, -⟩ | ⟨key, provider, -, h⟩ <;> simp [h]

theorem observe_recorded : (n.observe o).recorded = n.recorded := by
  rcases observe_cases n o with ⟨pinned, h, -⟩ | ⟨key, provider, -, h⟩ <;> simp [h]

theorem observe_decisions : (n.observe o).decisions = n.decisions := by
  rcases observe_cases n o with ⟨pinned, h, -⟩ | ⟨key, provider, -, h⟩ <;> simp [h]

theorem own_observe {ref : SpotScheduleRef} (h : n.last ref = some true ∨ n.missed ref = true) :
    (n.observe o).last ref = some true ∨ (n.observe o).missed ref = true := by
  rcases observe_cases n o with ⟨pinned, hobserve, -⟩ | ⟨key, provider, -, hobserve⟩
  · simpa [hobserve] using h
  · rw [hobserve]
    exact own_obtain h

theorem HeldPass.observe {snap : Snapshot} {t : List Obs} (h : HeldPass n snap t) (ho : o.isLocal = false) :
    HeldPass (n.observe o) snap (o :: t) := by
  refine ⟨observe_sm.trans h.sm, fun hfirst => ?_, fun rest heq => ?_, fun verdict active hread hactive => ?_⟩
  · rw [observe_recorded]
    exact h.held fun hmem => hfirst (List.mem_cons_of_mem _ hmem)
  · cases heq
    rfl
  · rcases hread with ⟨key, provider, rest, heq, rfl⟩ | ⟨now, rest, heq, -⟩
    · cases heq
      have hpinned := h.pinned rest rfl
      rw [VerdictNotes.observe, if_pos hpinned]
      exact last_obtain (n := { n with pinned := false }) h.sm hactive
    · cases heq
      cases ho

end

/-! ### Steps -/

theorem served_of_ne {n : VerdictNotes} {client : Client} {call : ApiCall} {answer : Except KubeError call.Answer}
    {after : World} (h : ∀ ns name status, call ≠ .patchStatus ns name (.spotSchedule status)) :
    verdictObserver.served n (.api client call) answer after = n.observe (obsOfCall client call answer) := by
  cases call with
  | patchStatus ns name body =>
    cases body with
    | spotSchedule status => exact absurd rfl (h ns name status)
    | _ => rfl
  | _ => rfl

theorem carriedOut_eq {w after : World} {client : Client} {call : ApiCall} {answer : Except KubeError call.Answer}
    {applied : Bool} {error : Option KubeError} (ha : Answered w client call answer after applied error) :
    after.carriedOut = applied := by
  rw [World.carriedOut, ha.log]

section

variable {n : VerdictNotes} {sm : ScheduledMachine} {verdict : SpotScheduleVerdict} {time : Option Rfc3339}

theorem recorded_publish (hsm : n.sm = some sm) (hheld : sm.lastKnownSpotActive = n.recorded.map Prod.snd) (done : Bool) :
    ((n.publish (spotScheduleStatus verdict sm.lastKnownSpotActive time) true done).recorded).map Prod.snd =
      (spotScheduleStatus verdict sm.lastKnownSpotActive time).active.or sm.lastKnownSpotActive := by
  cases verdict with
  | unresolved reason message =>
    simp [VerdictNotes.publish, hsm, spotScheduleStatus, SpotScheduleVerdict.isResolved, SpotScheduleVerdict.active?, hheld]
  | _ => simp [VerdictNotes.publish, hsm, spotScheduleStatus, SpotScheduleVerdict.isResolved, SpotScheduleVerdict.active?]

theorem publish_sm (n : VerdictNotes) (status : SpotScheduleStatus) (applied done : Bool) :
    (n.publish status applied done).sm = n.sm := by
  unfold VerdictNotes.publish
  split <;> rfl

theorem publish_of_unapplied {status : SpotScheduleStatus} {done : Bool} :
    (n.publish status false done).recorded = n.recorded ∧ (n.publish status false done).last = n.last ∧
      (n.publish status false done).missed = n.missed := by
  unfold VerdictNotes.publish
  split <;> simp

theorem own_publish {applied done : Bool} {ref : SpotScheduleRef} (hsm : n.sm = some sm)
    (hverdict : verdict.isResolved = true → ∀ active, verdict.active? = some active → n.last sm.spec.schedule = some active)
    (hown : ∀ ref, n.recorded = some (ref, true) → n.last ref = some true ∨ n.missed ref = true)
    (hrecorded : (n.publish (spotScheduleStatus verdict sm.lastKnownSpotActive time) applied done).recorded =
      some (ref, true)) :
    (n.publish (spotScheduleStatus verdict sm.lastKnownSpotActive time) applied done).last ref = some true ∨
      (n.publish (spotScheduleStatus verdict sm.lastKnownSpotActive time) applied done).missed ref = true := by
  cases hwritten : applied && verdict.isResolved with
  | false =>
    simp only [VerdictNotes.publish, hsm, spotScheduleStatus, hwritten] at hrecorded ⊢
    exact hown ref hrecorded
  | true =>
    obtain ⟨rfl, hresolved⟩ := Bool.and_eq_true_iff.mp hwritten
    obtain ⟨active, hactive⟩ := SpotScheduleVerdict.active?_eq_some_of_isResolved hresolved
    simp only [VerdictNotes.publish, hsm, spotScheduleStatus, hresolved, hactive, Bool.and_self, if_true,
      Option.some_or, Option.map_some, Option.some.injEq, Prod.mk.injEq] at hrecorded ⊢
    obtain ⟨rfl, rfl⟩ := hrecorded
    exact .inl (hverdict hresolved true hactive)

theorem sound_publish {applied done : Bool} (hsm : n.sm = some sm)
    (hheld : sm.lastKnownSpotActive = n.recorded.map Prod.snd)
    (hown : ∀ ref, n.recorded = some (ref, true) → n.last ref = some true ∨ n.missed ref = true)
    (hsound : ∀ d ∈ n.decisions, d.Sound)
    (hnamed : verdict.isResolved = false → sm.lastKnownSpotActive = some true →
      n.recorded.map Prod.fst = some sm.spec.schedule ∧ n.missed sm.spec.schedule = false) :
    ∀ d ∈ (n.publish (spotScheduleStatus verdict sm.lastKnownSpotActive time) applied done).decisions, d.Sound := by
  have hnew : Decision.Sound ⟨sm, spotScheduleStatus verdict sm.lastKnownSpotActive time, n.last sm.spec.schedule⟩ := by
    refine ⟨verdict, time, rfl, fun hunresolved hactive => ?_⟩
    have hheldTrue := held_of_compose hunresolved hactive
    obtain ⟨hname, hmissed⟩ := hnamed hunresolved hheldTrue
    obtain ⟨⟨ref, active⟩, hrecorded, rfl⟩ := Option.map_eq_some_iff.mp hname
    have hactive : active = true := by
      rw [hheldTrue, hrecorded] at hheld
      exact (Option.some.inj hheld).symm
    subst hactive
    rcases hown _ hrecorded with hlast | hmiss
    · exact hlast
    · rw [hmissed] at hmiss
      cases hmiss
  intro d hd
  simp only [VerdictNotes.publish, hsm] at hd
  cases done with
  | false => exact hsound d hd
  | true =>
    rcases List.mem_cons.mp hd with rfl | hold
    · exact hnew
    · exact hsound d hold

end

theorem heldInvariant_publish {ctx : Context} {w after : World} {n : VerdictNotes} {snap : Snapshot}
    {trace : List (Sigma Resp)} {client : Client} {ns name : String} {status : SpotScheduleStatus} {fate : Fate}
    {k : Resp (.api client (.patchStatus ns name (.spotSchedule status))) → Prog Resp ReconcilerError Action}
    {answer : Except KubeError Unit} {applied : Bool} {error : Option KubeError}
    (h : HeldInvariant (w, n) (some (snap, trace))) (hlegal : LegalFor ctx snap (observed trace) (.schedule status))
    (hok : holdsOwn ⟨(w, n), some ⟨snap, .call (.api client (.patchStatus ns name (.spotSchedule status))) k, trace⟩⟩
      (.answer fate) = true)
    (ha : Answered w client (.patchStatus ns name (.spotSchedule status)) answer after applied error) :
    HeldInvariant (after, n.publish status applied (succeeded answer))
      (some (snap, ⟨.api client (.patchStatus ns name (.spotSchedule status)), answer⟩ :: trace)) := by
  obtain ⟨hsm, hheld, -, hverdict⟩ := h.pass snap trace rfl
  cases hlegal with
  | @spotStatus _ verdict time path clean first read =>
    have hheld : snap.sm.lastKnownSpotActive = n.recorded.map Prod.snd := hheld first
    refine ⟨fun sm' hsm' => ?_, fun ref hrecorded => ?_, ?_, fun snap' trace' hpass => ?_⟩
    · change after.sm = some sm' at hsm'
      rw [ha.sm] at hsm'
      cases applied with
      | false =>
        rw [publish_of_unapplied.1]
        exact h.held sm' hsm'
      | true =>
        obtain ⟨sm, hw, hon⟩ := Option.bind_eq_some_iff.mp hsm'
        rw [recorded_publish hsm hheld]
        have hbefore : sm.lastKnownSpotActive = n.recorded.map Prod.snd := h.held sm hw
        cases memoryEffect_onSm hon with
        | schedule hcall held _ =>
          cases hcall
          rw [held, hbefore, ← hheld]
        | taints hcall _ _ => cases hcall
        | kept plain _ => cases plain
    · exact own_publish hsm (fun hresolved active hactive => hverdict verdict active (read hresolved) hactive)
        h.own hrecorded
    · refine sound_publish hsm hheld h.own h.sound fun hunresolved hactive => ?_
      simpa [holdsOwn, nextCall, State.forget, spotScheduleStatus, hunresolved, hactive] using hok
    · cases hpass
      refine ⟨?_, fun hmem => ?_, ?_, ?_⟩
      · exact (publish_sm ..).trans hsm
      · exact absurd List.mem_cons_self hmem
      · intro rest heq
        cases heq
      · rintro verdict' active (⟨key, provider, rest, heq, -⟩ | ⟨now, rest, heq, -⟩) _ <;> cases heq

theorem heldInvariant_observe {w after : World} {n : VerdictNotes} {snap : Snapshot} {trace : List (Sigma Resp)}
    {client : Client} {call : ApiCall} {answer : Except KubeError call.Answer} {applied : Bool}
    {error : Option KubeError} (h : HeldInvariant (w, n) (some (snap, trace)))
    (hcall : ∀ ns name status, call ≠ .patchStatus ns name (.spotSchedule status))
    (ha : Answered w client call answer after applied error) :
    HeldInvariant (after, n.observe (obsOfCall client call answer)) (some (snap, ⟨.api client call, answer⟩ :: trace)) := by
  refine ⟨fun sm' hsm' => ?_, fun ref hrecorded => ?_, ?_, fun snap' trace' hpass => ?_⟩
  · change after.sm = some sm' at hsm'
    rw [ha.sm] at hsm'
    rw [observe_recorded]
    cases applied with
    | false => exact h.held sm' hsm'
    | true =>
      obtain ⟨sm, hw, hon⟩ := Option.bind_eq_some_iff.mp hsm'
      have hbefore : sm.lastKnownSpotActive = n.recorded.map Prod.snd := h.held sm hw
      cases memoryEffect_onSm hon with
      | schedule hschedule _ _ => exact absurd hschedule (hcall _ _ _)
      | taints _ held _ => exact held.trans hbefore
      | kept _ same => exact same.held.trans hbefore
  · rw [observe_recorded] at hrecorded
    exact own_observe (h.own ref hrecorded)
  · rw [observe_decisions]
    exact h.sound
  · cases hpass
    exact (h.pass snap trace rfl).observe (obsOfCall_isLocal answer)

theorem HeldInvariant.local {w after : World} {n : VerdictNotes} {snap : Snapshot} {trace : List (Sigma Resp)}
    {r : Req} {answer : Resp r} (h : HeldInvariant (w, n) (some (snap, trace))) (hsm : after.sm = w.sm)
    (hobs : ∀ o ∈ obsOf r answer, o.isLocal = true) :
    HeldInvariant (after, n) (some (snap, ⟨r, answer⟩ :: trace)) := by
  refine ⟨fun sm' hsm' => h.held sm' (hsm.symm.trans hsm'), h.own, h.sound, fun snap' trace' hpass => ?_⟩
  cases hpass
  obtain ⟨hread, hheld, hpinned, hverdict⟩ := h.pass snap trace rfl
  rw [observed_cons]
  cases ho : obsOf r answer with
  | none => exact ⟨hread, hheld, hpinned, hverdict⟩
  | some o =>
    have hlocal := hobs o ho
    change HeldPass n snap (o :: observed trace)
    refine ⟨hread, fun hfirst => hheld fun hmem => hfirst (List.mem_cons_of_mem _ hmem), fun rest heq => ?_, ?_⟩
    · cases heq
      cases hlocal
    · rintro verdict active (⟨key, provider, rest, heq, -⟩ | ⟨now, rest, heq, hprovider⟩) hactive
      · rw [(List.cons.inj heq).1] at hlocal
        cases hlocal
      · cases heq
        exact hverdict verdict active (.inl hprovider) hactive

theorem heldInvariant_serve {ctx : Context} {w : World} {n : VerdictNotes} {snap : Snapshot} {r : Req}
    {k : Resp r → Prog Resp ReconcilerError Action} {trace : List (Sigma Resp)} {fate : Fate}
    (h : HeldInvariant (w, n) (some (snap, trace))) (hallowed : (rules ctx snap).allowed (observed trace) r)
    (hok : holdsOwn ⟨(w, n), some ⟨snap, .call r k, trace⟩⟩ (.answer fate) = true) :
    HeldInvariant ((watchedSystem ctx).serve (w, n) r fate).2
      (some (snap, ⟨r, ((watchedSystem ctx).serve (w, n) r fate).1⟩ :: trace)) := by
  cases r with
  | api client call =>
    obtain ⟨applied, error, ha⟩ := exists_answered w client call fate
    by_cases hcall : ∃ ns name status, call = .patchStatus ns name (.spotSchedule status)
    · obtain ⟨ns, name, status, rfl⟩ := hcall
      have hpublish := heldInvariant_publish h (hallowed _ rfl) hok ha
      rw [← carriedOut_eq ha] at hpublish
      exact hpublish
    · have hcall : ∀ ns name status, call ≠ .patchStatus ns name (.spotSchedule status) :=
        fun ns name status heq => hcall ⟨ns, name, status, heq⟩
      have hobserve := heldInvariant_observe h hcall ha
      rw [← @served_of_ne _ _ _ _ (serve w (.api client call) fate).2 hcall] at hobserve
      exact hobserve
  | loc op =>
    refine h.local (performLocal_frame w op).1 fun o ho => ?_
    cases op with
    | utcNow => cases ho; rfl
    | _ => cases ho
  | timer seconds =>
    refine h.local (serve_timer_frame w seconds fate).1 fun o ho => ?_
    cases fate with
    | ok => cases ho
    | fail _ => cases ho; rfl
    | lost _ => cases ho; rfl

theorem HeldInvariant.leave {w : World × VerdictNotes} {pass : Option (Snapshot × List (Sigma Resp))}
    (h : HeldInvariant w pass) : HeldInvariant w none := ⟨h.held, h.own, h.sound, fun _ _ h => (nomatch h)⟩

theorem heldInvariant_keeps (ctx : Context) :
    (watchedSystem ctx).Keeps (rules ctx) (fun _ => []) FreshWatched (fun s a => holdsOwn s a = true)
      (fun _ _ => True) HeldInvariant where
  base := by
    rintro ⟨w, n⟩ ⟨hw, rfl⟩
    obtain ⟨sm, hsm, hstatus, -⟩ := hw.sm
    refine ⟨fun sm' hsm' => ?_, by rintro _ ⟨⟩, by rintro _ ⟨⟩, by rintro _ _ ⟨⟩⟩
    cases hsm.symm.trans hsm'
    rw [ScheduledMachine.lastKnownSpotActive, hstatus]
    rfl
  interfere := by
    rintro ⟨w, n⟩ pass e _ h _ _
    refine ⟨fun sm' hsm' => ?_, h.own, h.sound, h.pass⟩
    obtain ⟨sm, hsm, hsame⟩ := sameMemory_interfere hsm'
    exact hsame.held.trans (h.held sm hsm)
  start := by
    rintro ⟨w, n⟩ snap _ h hsnap _
    obtain ⟨sm, hsm, rfl⟩ := Option.map_eq_some_iff.mp hsnap
    refine ⟨h.held, h.own, h.sound, fun snap' trace' hpass => ?_⟩
    cases hpass
    refine ⟨rfl, fun _ => h.held sm hsm, by rintro _ ⟨⟩, ?_⟩
    rintro verdict active (⟨key, provider, rest, heq, -⟩ | ⟨now, rest, heq, -⟩) _ <;> cases heq
  answer := by
    rintro ⟨w, n⟩ snap r k trace f _ h hallowed hok
    rw [rules_after] at hallowed
    exact heldInvariant_serve h hallowed hok
  finish _ _ _ h := h.leave
  kill _ _ _ h := ⟨h.held, h.own, h.sound, by rintro _ _ ⟨⟩⟩

/-- In every such run, no unresolved provider was ever taken for active unless its own last word was. -/
theorem held_verdict_is_own {ctx : Context} {s : WatchedState}
    (hs : (watchedSystem ctx).Reach FreshWatched (fun s a => holdsOwn s a = true) s) :
    ∀ d ∈ s.world.2.decisions, d.Sound :=
  (System.Reach.invariant (watchedSystem ctx) (system_conforms ctx) (fun _ _ => trivial) (heldInvariant_keeps ctx) hs).sound

/-! ## Two runs -/

theorem Decision.Sound.last_eq {d : Decision} (h : d.Sound) (hunresolved : d.status.resolved = false)
    (hactive : d.status.active = some true) : d.last = some true := by
  obtain ⟨verdict, time, hstatus, hlast⟩ := h
  rw [hstatus] at hunresolved hactive
  have hnone := SpotScheduleVerdict.active?_eq_none_of_isResolved hunresolved
  have hheld : d.sm.lastKnownSpotActive = some true := by
    simpa [spotScheduleStatus, hnone] using hactive
  refine hlast hunresolved ?_
  cases verdict with
  | unresolved reason message => rw [hheld]; rfl
  | _ => cases hnone

/-- The provider is gone; the machine stays. -/
def providerGone : Env := { demoEnv with object := fun _ => none }

def otherProviderSpec : ScheduledMachineSpec := { demoSpec with schedule := { demoSpec.schedule with name := "other" } }

def heldActive (d : Decision) : Bool := !d.status.resolved && d.status.active == some true

def freshlyWatched : World × VerdictNotes := (demoWorld, .empty)

theorem freshlyWatched_fresh : FreshWatched freshlyWatched := ⟨demoWorld_fresh, rfl⟩

theorem held_verdict_is_own_gone : ∃ s : WatchedState, (∃ d ∈ s.world.2.decisions, heldActive d = true) ∧
    ∀ d ∈ s.world.2.decisions, d.Sound := by
  obtain ⟨s, hs, hheld⟩ := System.Reach.exists_of_runWith (watchedSystem demoContext) holdsOwn
    (fun s => s.world.2.decisions.any heldActive)
    (.start :: answers 13 ++ [.finish, .interfere (.replace providerGone .all), .start] ++ answers 3)
    freshlyWatched_fresh (by decide +kernel)
  exact ⟨s, List.any_eq_true.mp hheld, held_verdict_is_own hs⟩

/-- The resource is pointed at a provider that was never there, and the old provider's verdict is held. -/
theorem held_verdict_outlives_its_provider : ¬∀ s : WatchedState,
    (watchedSystem demoContext).Reach FreshWatched (fun _ _ => True) s → ∀ d ∈ s.world.2.decisions, d.Sound := by
  intro hsound
  obtain ⟨s, hs, hbad⟩ := System.Reach.exists_of_runWith (watchedSystem demoContext)
    (fun _ _ => true) (fun s => s.world.2.decisions.any fun d => heldActive d && d.last == none)
    (.start :: answers 13 ++ [.finish, .interfere (.editSpec otherProviderSpec), .start] ++ answers 3)
    freshlyWatched_fresh (by decide +kernel)
  obtain ⟨d, hd, hbad⟩ := List.any_eq_true.mp hbad
  obtain ⟨hheld, hnone⟩ := Bool.and_eq_true_iff.mp hbad
  obtain ⟨hunresolved, hactive⟩ := Bool.and_eq_true_iff.mp hheld
  have hlast := (hsound s (hs.mono _ fun _ _ _ => trivial) d hd).last_eq (by simpa using hunresolved) (eq_of_beq hactive)
  rw [eq_of_beq hnone] at hlast
  cases hlast

end FiveSpot
