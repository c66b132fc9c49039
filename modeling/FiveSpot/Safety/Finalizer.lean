import FiveSpot.Safety.Objects

/-! # The finalizer

`handle_deletion` releases the finalizer once its cleanup is done, but whether there is anything to
clean up it decides from the recorded phase. Bootstrap and infrastructure objects have no owner
references, so what the cleanup leaves stays.
-/

namespace FiveSpot

set_option autoImplicit false

open Interaction

def ObjKey.isMachine (key : ObjKey) : Bool :=
  key.group == Constants.capiGroup && key.plural == Constants.capiResourceMachines

def EmbeddedClean (log : List Event) : Prop := ∀ key, key.isMachine = false → undeleted log key = false

def Event.releases : Event → Bool
  | .called _ _ _ (.patchFinalizers _ _ finalizers) applied _ =>
    applied && !finalizers.contains Constants.finalizerScheduledMachine
  | _ => false

/-- The last reconcile on record ran into its cleanup timeout. -/
def timedOutInPass : List Event → Bool
  | [] => false
  | .started _ _ _ :: _ => false
  | .timedOut :: _ => true
  | _ :: earlier => timedOutInPass earlier

section

variable {e : Event} {log : List Event}

theorem Clean.embedded (h : Clean log) : EmbeddedClean log := fun key _ => h key

theorem EmbeddedClean.cons (h : EmbeddedClean log) (he : e.creates = none) : EmbeddedClean (e :: log) :=
  fun key hkey => undeleted_cons_eq_false (h key hkey) (by rw [he]; rintro ⟨⟩)

theorem embeddedClean_iff : EmbeddedClean log ↔
    ∀ e ∈ log, ∀ key, e.creates = some key → key.isMachine = false → undeleted log key = false := by
  refine ⟨fun h _ _ key _ => h key, fun h key hkind => ?_⟩
  by_contra hkey
  obtain ⟨e, hmem, he⟩ := created_of_undeleted (Bool.of_not_eq_false hkey)
  exact hkey (h e hmem key he hkind)

instance (log : List Event) : Decidable (EmbeddedClean log) := decidable_of_iff _ embeddedClean_iff.symm

end

def reachesDeletion (ctx : Context) (sm : ScheduledMachine) : Bool := enters ctx sm && sm.deleting

theorem reachesDeletion_of_deleted {ctx : Context} {sm : ScheduledMachine} {ns : String}
    (h : Deleted ctx sm ns) : reachesDeletion ctx sm = true :=
  Bool.and_eq_true_iff.mpr ⟨enters_iff.mpr ⟨ns, h.toEntered⟩, h.deleting⟩

/-- A reconcile that handles a deletion starts in a phase in which it cleans up, or with no bootstrap
or infrastructure object left. -/
def deletesRunningOrClean (ctx : Context) (s : RunState) : RunAct → Bool
  | .start => s.world.sm.all fun sm =>
      !reachesDeletion (ctx.led s.world.leader) sm || runningPhase sm.phase ||
        decide (EmbeddedClean s.world.log)
  | _ => true

/-- If the finalizer went with this event, and not for a timeout, nothing was left. -/
def ReleasedClean (e : Event) (earlier : List Event) : Prop :=
  e.releases = true → timedOutInPass earlier = false → EmbeddedClean (e :: earlier)

theorem releasedClean_of_not {e : Event} {log : List Event} (he : e.releases = false) : ReleasedClean e log := by
  intro hreleases
  rw [he] at hreleases
  cases hreleases

structure FinalizerInvariant (ctx : Context) (log : List Event) (pass : Option (Snapshot × List Obs)) : Prop where
  released : Always ReleasedClean log
  deleting : ∀ snap t, pass = some (snap, t) →
    reachesDeletion (ctx.led snap.leader) snap.sm = true →
      runningPhase snap.sm.phase = true ∨ EmbeddedClean log
  timedOut : ∀ snap t, pass = some (snap, t) → .timedOut ∈ t → timedOutInPass log = true

section

variable {ctx : Context} {log : List Event} {pass : Option (Snapshot × List Obs)} {e : Event}

theorem FinalizerInvariant.cons (h : FinalizerInvariant ctx log pass) (hreleases : e.releases = false)
    (hcreates : e.creates = none) (htimed : timedOutInPass (e :: log) = timedOutInPass log) :
    FinalizerInvariant ctx (e :: log) pass := by
  refine ⟨h.released.cons (releasedClean_of_not hreleases), fun snap t hpass hreaches => ?_, fun snap t hpass hmem => ?_⟩
  · exact (h.deleting snap t hpass hreaches).imp id fun hclean => hclean.cons hcreates
  · rw [htimed]
    exact h.timedOut snap t hpass hmem

theorem releases_called {time : Time} {bound : Option String} {client : Client} {call : ApiCall}
    {applied : Bool} {error : Option KubeError}
    (h : (Event.called time bound client call applied error).releases = true) :
    ∃ finalizers, effectOfCall client call = some (.finalizers finalizers) ∧
      finalizers.contains Constants.finalizerScheduledMachine = false ∧
      (Event.called time bound client call applied error).creates = none := by
  cases call with
  | patchFinalizers ns name finalizers =>
    refine ⟨finalizers, rfl, ?_, rfl⟩
    simpa using (Bool.and_eq_true_iff.mp h).2
  | _ => cases h

theorem withFinalizer_contains (finalizers : List String) :
    (withFinalizer finalizers).contains Constants.finalizerScheduledMachine = true := by
  unfold withFinalizer
  split
  · assumption
  · simp

theorem legal_release {snap : Snapshot} {t : List Obs} {finalizers : List String}
    (h : LegalFor ctx snap t (.finalizers finalizers))
    (hgone : finalizers.contains Constants.finalizerScheduledMachine = false) :
    reachesDeletion (ctx.led snap.leader) snap.sm = true ∧
      (runningPhase snap.sm.phase = true → Removed ctx snap.sm t ∨ .timedOut ∈ t) := by
  cases h with
  | addFinalizer path alive =>
    rw [withFinalizer_contains] at hgone
    cases hgone
  | deletionRelease path done => exact ⟨reachesDeletion_of_deleted path, done⟩

theorem finalizerInvariant_call {w : World} {snap : Snapshot} {client : Client} {call : ApiCall}
    {trace : List (Sigma Resp)} {answer : Except KubeError call.Answer} {applied : Bool}
    {error : Option KubeError} (hknown : Known ctx w (some (snap, trace)))
    (h : FinalizerInvariant ctx w.log (some (snap, observed trace)))
    (hlegal : ∀ effect, effectOfCall client call = some effect → LegalFor ctx snap (observed trace) effect) :
    FinalizerInvariant ctx (.called w.now w.bound client call applied error :: w.log)
      (some (snap, obsOfCall client call answer :: observed trace)) := by
  -- a pass that handles a deletion creates nothing
  have hcreates : reachesDeletion (ctx.led snap.leader) snap.sm = true →
      (Event.called w.now w.bound client call applied error).creates = none := by
    intro hreaches
    by_contra hnone
    obtain ⟨key, hkey⟩ := Option.ne_none_iff_exists'.mp hnone
    obtain ⟨-, -, -, -, -, halive⟩ := legal_create (hlegal _ (creates_called hkey))
    simp [reachesDeletion, halive] at hreaches
  refine ⟨h.released.cons fun hreleases htimed => ?_, fun snap' t hpass hreaches => ?_,
    fun snap' t hpass hmem => ?_⟩
  · obtain ⟨finalizers, heffect, hgone, hnone⟩ := releases_called hreleases
    obtain ⟨hreaches, hdone⟩ := legal_release (hlegal _ heffect) hgone
    have hclean : EmbeddedClean w.log := by
      rcases h.deleting snap _ rfl hreaches with hrunning | hclean
      · rcases hdone hrunning with hremoved | htimer
        · exact ((hknown.2.pass snap trace rfl).clean hremoved).embedded
        · rw [h.timedOut snap _ rfl htimer] at htimed
          cases htimed
      · exact hclean
    exact hclean.cons hnone
  · cases hpass
    exact (h.deleting snap _ rfl hreaches).imp id fun hclean => hclean.cons (hcreates hreaches)
  · cases hpass
    rcases List.mem_cons.mp hmem with hnew | hold
    · exact absurd hnew.symm (obsOfCall_ne answer rfl)
    · exact h.timedOut snap _ rfl hold

end

/-- Runs with fixed templates in which a deletion finds the machine running, or nothing left. -/
def finalizerGuard (ctx : Context) (s : RunState) (a : RunAct) : Bool :=
  fixedTemplates s a && deletesRunningOrClean ctx s a

theorem finalizerInvariant_keeps (ctx : Context) :
    LogKeeps ctx (fun s a => finalizerGuard ctx s a = true) (Known ctx) (fun _ => FinalizerInvariant ctx) where
  base now := ⟨always_nil, fun _ _ h => (nomatch h), fun _ _ h => (nomatch h)⟩
  pause _ _ _ _ h _ := h
  edit _ _ _ _ h _ := h.cons rfl rfl rfl
  deletion _ _ _ h _ := h.cons rfl rfl rfl
  start w sm _ h hsm hok := by
    refine ⟨h.released.cons (releasedClean_of_not rfl), fun snap t hpass hreaches => ?_, fun snap t hpass hmem => ?_⟩
    · cases hpass
      have hguard : runningPhase sm.phase = true ∨ EmbeddedClean w.log := by
        simp only [finalizerGuard, deletesRunningOrClean, hsm, Option.all_some, Bool.and_eq_true, Bool.or_eq_true,
          Bool.not_eq_true', decide_eq_true_eq] at hok
        rcases hok.2 with (hnot | hrunning) | hclean
        · rw [hnot] at hreaches
          cases hreaches
        · exact .inl hrunning
        · exact .inr hclean
      exact hguard.imp id fun hclean => hclean.cons rfl
    · cases hpass
      cases hmem
  call _ _ _ _ _ _ _ _ _ _ hknown h hlegal _ _ := finalizerInvariant_call hknown h hlegal
  clock now log snap t h := by
    refine ⟨h.released, fun snap' t' hpass => ?_, fun snap' t' hpass hmem => ?_⟩
    · cases hpass
      exact h.deleting snap t rfl
    · cases hpass
      rcases List.mem_cons.mp hmem with hnew | hold
      · cases hnew
      · exact h.timedOut snap t rfl hold
  timeout now log snap t h := by
    refine ⟨h.released.cons (releasedClean_of_not rfl), fun snap' t' hpass hreaches => ?_, fun _ _ _ _ => rfl⟩
    cases hpass
    exact (h.deleting snap t rfl hreaches).imp id fun hclean => hclean.cons rfl
  leave _ _ _ _ h := ⟨h.released, fun _ _ h => (nomatch h), fun _ _ h => (nomatch h)⟩
  crash _ _ h := h.cons rfl rfl rfl

/-- In every such run, whenever the finalizer goes without a timeout, no bootstrap or infrastructure
object is left. -/
theorem finalizer_release_clean {ctx : Context} {s : RunState}
    (hs : (system ctx).Reach Fresh (fun s a => finalizerGuard ctx s a = true) s) {e : Event}
    {earlier : List Event} (hlog : e :: earlier <:+ s.world.log) (hreleases : e.releases = true)
    (htimed : timedOutInPass earlier = false) : EmbeddedClean (e :: earlier) := by
  have hfixed : ∀ s a, finalizerGuard ctx s a = true → fixedTemplates s a = true := by
    intro s a h
    exact (Bool.and_eq_true_iff.mp h).1
  have hinv := (finalizerInvariant_keeps ctx).holds (known_of_reach hfixed) hs
  exact hinv.released e earlier hlog hreleases htimed

/-! ## Two runs -/

/-- The machine becomes active, then the resource is deleted. -/
def deletedWhileActive : List RunAct :=
  .start :: answers 13 ++ [.finish, .interfere .requestDeletion, .start] ++ answers 7

/-- The controller dies after its creates, then the resource is deleted. -/
def deletedWhilePending : List RunAct :=
  .start :: answers 10 ++ [.kill, .interfere .requestDeletion, .start] ++ answers 1

def justReleased (s : RunState) : Bool :=
  match s.world.log with
  | e :: earlier => e.releases && !timedOutInPass earlier
  | [] => false

theorem justReleased_iff {s : RunState} (h : justReleased s = true) :
    ∃ e earlier, s.world.log = e :: earlier ∧ e.releases = true ∧ timedOutInPass earlier = false := by
  unfold justReleased at h
  split at h
  · rename_i e earlier hlog
    obtain ⟨hreleases, htimed⟩ := Bool.and_eq_true_iff.mp h
    exact ⟨e, earlier, hlog, hreleases, by simpa using htimed⟩
  · cases h

theorem finalizer_release_clean_active : ∃ (s : RunState) (e : Event) (earlier : List Event),
    s.world.log = e :: earlier ∧ e.releases = true ∧ EmbeddedClean (e :: earlier) := by
  obtain ⟨s, hs, hreleased⟩ := System.Reach.exists_of_runWith (system demoContext)
    (finalizerGuard demoContext) justReleased deletedWhileActive demoWorld_fresh (by decide +kernel)
  obtain ⟨e, earlier, hlog, hreleases, htimed⟩ := justReleased_iff hreleased
  exact ⟨s, e, earlier, hlog, hreleases,
    finalizer_release_clean hs (hlog ▸ List.suffix_rfl) hreleases htimed⟩

/-- The finalizer is gone, the bootstrap object is not. -/
theorem finalizer_release_leaves_bootstrap : ¬∀ s : RunState,
    (system demoContext).Reach Fresh (fun s a => fixedTemplates s a = true) s →
      ∀ e earlier, s.world.log = e :: earlier → e.releases = true → timedOutInPass earlier = false →
        EmbeddedClean (e :: earlier) := by
  intro hclean
  obtain ⟨s, hs, hleft⟩ := System.Reach.exists_of_runWith (system demoContext) fixedTemplates
    (fun s => justReleased s && !decide (EmbeddedClean s.world.log)) deletedWhilePending demoWorld_fresh
    (by decide +kernel)
  obtain ⟨hreleased, hleft⟩ := Bool.and_eq_true_iff.mp hleft
  obtain ⟨e, earlier, hlog, hreleases, htimed⟩ := justReleased_iff hreleased
  have hembedded := hclean s hs e earlier hlog hreleases htimed
  simp [hlog, hembedded] at hleft

end FiveSpot
