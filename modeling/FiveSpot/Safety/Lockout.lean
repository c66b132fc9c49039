import FiveSpot.Safety.Objects

/-! # A disabled schedule stays without machine

Once the controller has set `spec.enabled` to `false`, only a user can set it back, and until then
nothing is created.
-/

namespace FiveSpot

set_option autoImplicit false

open Interaction

def Event.disables : Event → Bool
  | .called _ _ _ (.patchEnabled _ _ value) applied _ => applied && !value
  | _ => false

/-- The controller has disabled the schedule and no user has enabled it since. -/
def lockedOut : List Event → Bool
  | [] => false
  | .edited spec :: earlier => !spec.enabled && lockedOut earlier
  | e :: earlier => e.disables || lockedOut earlier

section

variable {log : List Event} {time : Time} {bound : Option String} {client : Client} {call : ApiCall}
  {applied : Bool} {error : Option KubeError}

theorem lockedOut_called : lockedOut (.called time bound client call applied error :: log) =
    ((Event.called time bound client call applied error).disables || lockedOut log) := rfl

theorem disables_called (h : (Event.called time bound client call applied error).disables = true) :
    effectOfCall client call = some (.enabled false) ∧
      (Event.called time bound client call applied error).phaseWrite = none := by
  cases call with
  | patchEnabled ns name value =>
    cases value with
    | false => exact ⟨rfl, rfl⟩
    | true => simp [Event.disables] at h
  | _ => cases h

theorem edited_of_lockedOut {later : List Event} {x : Event} {before : List Event} (hx : x.disables = true)
    (h : lockedOut (later ++ x :: before) = false) : ∃ spec, .edited spec ∈ later ∧ spec.enabled = true := by
  induction later with
  | nil => cases x <;> simp_all [lockedOut, Event.disables]
  | cons e later ih =>
    rw [List.cons_append] at h
    have hrest : lockedOut (later ++ x :: before) = false →
        ∃ spec, .edited spec ∈ e :: later ∧ spec.enabled = true := by
      intro hrest
      obtain ⟨spec, hmem, henabled⟩ := ih hrest
      exact ⟨spec, List.mem_cons_of_mem _ hmem, henabled⟩
    cases e with
    | edited spec =>
      cases henabled : spec.enabled with
      | true => exact ⟨spec, List.mem_cons_self, henabled⟩
      | false =>
        rw [lockedOut, henabled, Bool.not_false, Bool.true_and] at h
        exact hrest h
    | _ => exact hrest (Bool.or_eq_false_iff.mp h).2

end

theorem legal_enabled {ctx : Context} {snap : Snapshot} {t : List Obs} {value : Bool}
    (h : LegalFor ctx snap t (.enabled value)) : value = false := by
  cases h with
  | reclaimDisable path marked removed => rfl

/-! ## The resource is disabled -/

def Locked (w : World) (_ : Option (Snapshot × List (Sigma Resp))) : Prop :=
  lockedOut w.log = true → ∀ sm, w.sm = some sm → sm.spec.enabled = false

theorem locked_interfere {w : World} (e : Interference) (h : Locked w none) : Locked (interfere e w) none := by
  intro hlocked sm' hsm'
  obtain ⟨sm, hsm, hspec⟩ := interfere_spec hsm'
  rw [interfere_log] at hlocked
  rcases hspec with hspec | rfl
  · rw [hspec]
    refine h ?_ sm hsm
    cases e with
    | editSpec spec =>
      simp only [noted, hsm, Option.isSome_some, if_true, List.singleton_append, lockedOut] at hlocked
      exact (Bool.and_eq_true_iff.mp hlocked).2
    | requestDeletion => simpa [noted, hsm, lockedOut, Event.disables] using hlocked
    | _ => exact hlocked
  · simp only [noted, hsm, Option.isSome_some, if_true, List.singleton_append, lockedOut] at hlocked
    simpa using (Bool.and_eq_true_iff.mp hlocked).1

theorem locked_call {ctx : Context} {w after : World} {snap : Snapshot} {client : Client} {call : ApiCall}
    {trace : List (Sigma Resp)} {answer : Except KubeError call.Answer} {applied : Bool}
    {error : Option KubeError} (h : Locked w none)
    (hlegal : ∀ effect, effectOfCall client call = some effect → LegalFor ctx snap (observed trace) effect)
    (ha : Answered w client call answer after applied error) : Locked after none := by
  intro hlocked sm' hsm'
  rw [ha.log, lockedOut_called] at hlocked
  rw [ha.sm] at hsm'
  cases applied with
  | false =>
    have hnot : (Event.called w.now w.bound client call false error).disables = false := by
      cases call <;> rfl
    rw [hnot, Bool.false_or] at hlocked
    exact h hlocked sm' hsm'
  | true =>
    obtain ⟨sm, hsm, hon⟩ := Option.bind_eq_some_iff.mp hsm'
    rcases onSm_spec hon with hspec | ⟨ns, name, value, rfl, hspec⟩
    · rw [hspec]
      rcases Bool.or_eq_true_iff.mp hlocked with hdisables | hold
      · cases call with
        | patchEnabled ns name value =>
          cases hon
          cases legal_enabled (hlegal _ rfl)
          exact (congrArg ScheduledMachineSpec.enabled hspec).symm
        | _ => cases hdisables
      · exact h hold sm hsm
    · cases legal_enabled (hlegal _ rfl)
      rw [hspec]

theorem locked_keeps (ctx : Context) (ok : RunState → RunAct → Prop) :
    (system ctx).Keeps (rules ctx) (fun _ => []) Fresh ok (fun _ _ => True) Locked where
  base w hw := by
    intro hlocked
    rw [hw.log] at hlocked
    cases hlocked
  interfere _ _ e _ h _ _ := locked_interfere e h
  start _ _ _ h _ _ := h
  answer w snap r k trace f _ h hallowed _ := by
    rw [rules_after] at hallowed
    cases r with
    | api client call =>
      obtain ⟨applied, error, ha⟩ := exists_answered w client call f
      exact locked_call h hallowed ha
    | loc op =>
      obtain ⟨hsm, -, hlog, -, -⟩ := performLocal_frame w op
      intro hlocked sm' hsm'
      exact h (by rw [← hlog]; exact hlocked) sm' (by rw [← hsm]; exact hsm')
    | timer seconds =>
      obtain ⟨hsm, -, hfired⟩ := serve_timer_frame w seconds f
      intro hlocked sm' hsm'
      refine h ?_ sm' (by rw [← hsm]; exact hsm')
      change lockedOut (serve w (.timer seconds) f).2.log = true at hlocked
      rcases hfired with ⟨-, hlog⟩ | ⟨-, hlog⟩
      · rw [hlog] at hlocked
        exact hlocked
      · rw [hlog] at hlocked
        exact hlocked
  finish _ _ _ h := h
  kill _ _ _ h := h

theorem locked_of_reach {ctx : Context} {ok : RunState → RunAct → Prop} {s : RunState}
    (hs : (system ctx).Reach Fresh ok s) : Locked s.world (System.seen s.pass) :=
  System.Reach.invariant _ (system_conforms ctx) (fun _ _ => trivial) (locked_keeps ctx ok) hs

/-! ## Nothing is created -/

def CreatesUnlocked (e : Event) (earlier : List Event) : Prop :=
  ∀ key, e.effect = some (.create key) → lockedOut earlier = false

theorem createsUnlocked_of_none {e : Event} {earlier : List Event} (h : e.effect = none) :
    CreatesUnlocked e earlier := by
  intro key hkey
  rw [h] at hkey
  cases hkey

structure LockoutInvariant (log : List Event) (pass : Option (Snapshot × List Obs)) : Prop where
  creates : Always CreatesUnlocked log
  unlocked : ∀ snap t, pass = some (snap, t) → snap.sm.spec.enabled = true →
    (∀ value done, .enabled value done ∉ t) → lockedOut log = false

section

variable {log : List Event} {pass : Option (Snapshot × List Obs)} {snap : Snapshot} {t : List Obs} {e : Event}

theorem LockoutInvariant.cons (h : LockoutInvariant log pass) (heffect : e.effect = none)
    (hlocked : lockedOut log = false → lockedOut (e :: log) = false) : LockoutInvariant (e :: log) pass :=
  ⟨h.creates.cons (createsUnlocked_of_none heffect),
    fun snap t hpass henabled hnone => hlocked (h.unlocked snap t hpass henabled hnone)⟩

theorem LockoutInvariant.observe {o : Obs} (h : LockoutInvariant log (some (snap, t))) :
    LockoutInvariant log (some (snap, o :: t)) := by
  refine ⟨h.creates, fun snap' t' hpass henabled hnone => ?_⟩
  cases hpass
  exact h.unlocked snap t rfl henabled fun value done hmem => hnone value done (List.mem_cons_of_mem _ hmem)

end

theorem lockoutInvariant_call {ctx : Context} {w : World} {snap : Snapshot} {client : Client} {call : ApiCall}
    {trace : List (Sigma Resp)} {answer : Except KubeError call.Answer} {applied : Bool} {error : Option KubeError}
    (h : LockoutInvariant w.log (some (snap, observed trace)))
    (hlegal : ∀ effect, effectOfCall client call = some effect → LegalFor ctx snap (observed trace) effect) :
    LockoutInvariant (.called w.now w.bound client call applied error :: w.log)
      (some (snap, obsOfCall client call answer :: observed trace)) := by
  refine ⟨h.creates.cons fun key hkey => ?_, fun snap' t hpass henabled hnone => ?_⟩
  · obtain ⟨-, huntouched, -, henabled, -⟩ := legal_create (hlegal _ hkey)
    refine h.unlocked snap _ rfl henabled fun value done hmem => ?_
    obtain ⟨_, heq⟩ := huntouched _ hmem rfl
    cases heq
  · cases hpass
    have hold := h.unlocked snap _ rfl henabled fun value done hmem =>
      hnone value done (List.mem_cons_of_mem _ hmem)
    rw [lockedOut_called, hold, Bool.or_false]
    cases call with
    | patchEnabled ns name value => exact absurd List.mem_cons_self (hnone value (succeeded answer))
    | _ => rfl

theorem lockoutInvariant_keeps (ctx : Context) (ok : RunState → RunAct → Prop) :
    LogKeeps ctx ok Locked (fun _ => LockoutInvariant) where
  base _ := ⟨always_nil, fun _ _ h => (nomatch h)⟩
  pause _ _ _ _ h _ := h
  edit _ _ spec _ h _ := h.cons rfl fun hunlocked => by rw [lockedOut, hunlocked, Bool.and_false]
  deletion _ _ _ h _ := h.cons rfl id
  start w sm hlocked h hsm _ := by
    refine ⟨h.creates.cons (createsUnlocked_of_none rfl), fun snap t hpass henabled _ => ?_⟩
    cases hpass
    by_contra hnot
    rw [hlocked (Bool.of_not_eq_false hnot) sm hsm] at henabled
    cases henabled
  call _ _ _ _ _ _ _ _ _ _ _ h hlegal _ _ := lockoutInvariant_call h hlegal
  clock _ _ _ _ h := h.observe
  timeout _ _ _ _ h := (h.cons rfl id).observe
  leave _ _ _ _ h := ⟨h.creates, fun _ _ h => (nomatch h)⟩
  crash _ _ h := h.cons rfl id

theorem creates_unlocked {ctx : Context} {ok : RunState → RunAct → Prop} {s : RunState}
    (hs : (system ctx).Reach Fresh ok s) : Always CreatesUnlocked s.world.log :=
  ((lockoutInvariant_keeps ctx ok).holds (fun _ => locked_of_reach) hs).creates

end FiveSpot
