import FiveSpot.Cluster.LogInvariant

/-! # Active and alive

A create that is answered with `AlreadyExists` counts as done, and a deleted object is still there for a
while. So the objects behind a fresh `Active` are alive exactly as long as no create meets one that is on
its way out.
-/

namespace FiveSpot

set_option autoImplicit false

open Interaction

def LiveMachine (ctx : Context) (w : World) (sm : ScheduledMachine) : Prop :=
  ∃ bootstrap infra, embeddedKey ctx sm sm.spec.bootstrapSpec = some bootstrap ∧
    embeddedKey ctx sm sm.spec.infrastructureSpec = some infra ∧
    w.live (machineKey sm) = true ∧ w.live bootstrap = true ∧ w.live infra = true

/-- A create meets no object that is being deleted. -/
def createsAfresh (s : RunState) : RunAct → Bool
  | .answer _ => (nextCall s).all fun ⟨_, _, call⟩ => match call with
    | .create ar ns name _ => (s.world.env.object (ar.key ns name)).isNone || s.world.live (ar.key ns name)
    | _ => true
  | _ => true

/-- Nobody else deletes an owned object while a reconcile is on its way. -/
def sparesOwned (ctx : Context) (s : RunState) : RunAct → Bool
  | .interfere e => s.pass.all fun p =>
      (ownedKeys ctx p.snap.sm).all fun key => !s.world.live key || (interfere e s.world).live key
  | _ => true

def liveGuard (ctx : Context) (s : RunState) (a : RunAct) : Bool := createsAfresh s a && sparesOwned ctx s a

/-! ## What calls do to live objects -/

theorem live_addObject {w : World} {key key' : ObjKey} {value : Json} :
    (w.addObject key' value).live key = (w.live key || decide (key = key')) := by
  by_cases hkey : key = key' <;> simp [World.addObject, World.live, hkey]

theorem live_serveApi {w : World} {client : Client} {call : ApiCall} {key : ObjKey} (h : w.live key = true)
    (hcall : ∀ ar ns name, call ≠ .delete ar ns name) (fate : Fate) :
    (serveApi w client call fate).2.live key = true := by
  refine serveApi_keeps (P := fun w' => w'.live key = true) (fun _ _ h => h) h (fun answer after hperform => ?_) fate
  cases objectEffect_of_perform hperform with
  | created _ _ hafter => rw [hafter, live_addObject, h, Bool.true_or]
  | deleted hdelete _ _ => exact absurd hdelete (hcall _ _ _)
  | kept hobject hterminating _ =>
    rw [World.live, hobject, hterminating]
    exact h

theorem call_of_created {client : Client} {call : ApiCall} {answer : Except KubeError call.Answer} {key : ObjKey}
    (h : obsOfCall client call answer = .created key) :
    ∃ ar ns name body, call = .create ar ns name body ∧ ar.key ns name = key := by
  cases obsSource h with
  | created ar ns name body | existed ar ns name body => exact ⟨ar, ns, name, body, rfl, rfl⟩

/-- A create that counts as done leaves a live object, unless it met one that is being deleted. -/
theorem live_of_create {w : World} {client : Client} {ar : ApiResource} {ns name : String} {body : Json} {fate : Fate}
    (hobs : obsOfCall client (.create ar ns name body) (serveApi w client (.create ar ns name body) fate).1 =
      .created (ar.key ns name))
    (hfresh : w.env.object (ar.key ns name) = none ∨ w.live (ar.key ns name) = true) :
    (serveApi w client (.create ar ns name body) fate).2.live (ar.key ns name) = true := by
  have hserved := served w client (.create ar ns name body) fate
  generalize (serveApi w client (.create ar ns name body) fate).1 = answer at hobs hserved
  generalize (serveApi w client (.create ar ns name body) fate).2 = after at hserved ⊢
  cases hserved with
  | done hperform =>
    obtain ⟨-, -, rfl⟩ := create_eq_ok hperform
    change (w.addObject (ar.key ns name) body).live (ar.key ns name) = true
    simp [live_addObject]
  | refused hrefused =>
    change w.live (ar.key ns name) = true
    rcases hfresh with hnone | hlive
    · simp only [perform, hnone] at hrefused
      split at hrefused
      · cases hrefused
      · cases hrefused
        cases hobs
    · exact hlive
  | failed fault => simp [obsOfCall, fault.unspecific.2] at hobs
  | lost fault _ => simp [obsOfCall, fault.unspecific.2] at hobs

/-! ## The invariant -/

/-- The reconcile may still be about to record a fresh machine. -/
structure Provisioning (sm : ScheduledMachine) (t : List Obs) : Prop where
  phase : pendingLike sm.phase = true
  alive : sm.deleting = false
  kill : sm.spec.killSwitch = false
  clean : Untouched t

theorem Provisioning.no_delete {ctx : Context} {snap : Snapshot} {t : List Obs} (h : Provisioning snap.sm t)
    {key : ObjKey} : ¬LegalFor ctx snap t (.delete key) := by
  have hphase := h.phase
  intro hlegal
  cases hlegal with
  | deletionDelete path running owned =>
    have halive := h.alive
    rw [path.deleting] at halive
    cases halive
  | killDelete path clean running owned =>
    have hkill := h.kill
    rw [path.kill] at hkill
    cases hkill
  | reclaimDelete path marked owned =>
    obtain ⟨key, hkey⟩ := h.clean _ marked rfl
    cases hkey
  | shutdownDelete path clean owned =>
    rw [path.phase] at hphase
    cases hphase

/-- What a pass has seen created on the way to a fresh machine is alive. -/
def CreatedLive (ctx : Context) (w : World) (pass : Option (Snapshot × List (Sigma Resp))) : Prop :=
  ∀ snap trace, pass = some (snap, trace) → Provisioning snap.sm (observed trace) →
    ∀ key ∈ ownedKeys ctx snap.sm, .created key ∈ observed trace → w.live key = true

theorem Provisioning.tail {sm : ScheduledMachine} {o : Obs} {t : List Obs} (h : Provisioning sm (o :: t)) :
    Provisioning sm t := ⟨h.phase, h.alive, h.kill, h.clean.tail⟩

theorem createdLive_call {ctx : Context} {w : World} {client : Client} {call : ApiCall} {snap : Snapshot}
    {k : Resp (.api client call) → Prog Resp ReconcilerError Action} {trace : List (Sigma Resp)} {fate : Fate}
    (h : CreatedLive ctx w (some (snap, trace)))
    (hlegal : ∀ effect, effectOfCall client call = some effect → LegalFor ctx snap (observed trace) effect)
    (hok : createsAfresh ⟨w, some ⟨snap, .call (.api client call) k, trace⟩⟩ (.answer fate) = true) :
    CreatedLive ctx (serveApi w client call fate).2
      (some (snap, ⟨.api client call, (serveApi w client call fate).1⟩ :: trace)) := by
  rintro _ _ hpass hprov key howned hcreated
  cases hpass
  change Provisioning snap.sm (obsOfCall client call _ :: observed trace) at hprov
  rcases List.mem_cons.mp hcreated with hnew | hold
  · obtain ⟨ar, ns, name, body, rfl, rfl⟩ := call_of_created hnew.symm
    refine live_of_create hnew.symm ?_
    simpa [createsAfresh, nextCall] using hok
  · refine live_serveApi (h snap trace rfl hprov.tail key howned hold) (fun ar ns name hdelete => ?_) fate
    subst hdelete
    exact hprov.tail.no_delete (hlegal _ rfl)

theorem CreatedLive.local {ctx : Context} {w w' : World} {snap : Snapshot} {trace : List (Sigma Resp)} {r : Req}
    {answer : Resp r} (h : CreatedLive ctx w (some (snap, trace))) (henv : w'.env = w.env)
    (hr : ∀ o ∈ obsOf r answer, o.isWrite = false) : CreatedLive ctx w' (some (snap, ⟨r, answer⟩ :: trace)) := by
  rintro _ _ hpass hprov key howned hcreated
  cases hpass
  rw [observed_cons] at hprov hcreated
  have hprov' : Provisioning snap.sm (observed trace) :=
    ⟨hprov.phase, hprov.alive, hprov.kill, fun o ho => hprov.clean o (List.mem_append_right _ ho)⟩
  rw [World.live, henv]
  rcases List.mem_append.mp hcreated with hnew | hold
  · have hwrite := hr _ (Option.mem_toList.mp hnew)
    cases hwrite
  · exact h snap trace rfl hprov' key howned hold

theorem createdLive_keeps (ctx : Context) :
    (system ctx).Keeps (rules ctx) (fun _ => []) Fresh (fun s a => liveGuard ctx s a = true) (fun _ _ => True)
      (CreatedLive ctx) where
  base _ _ _ _ h := (nomatch h)
  interfere w pass e _ h _ hok := by
    rintro snap trace hpass hprov key howned hcreated
    have hlive := h snap trace hpass hprov key howned hcreated
    obtain _ | p := pass
    · cases hpass
    · cases hpass
      have hspares := (Bool.and_eq_true_iff.mp hok).2
      simp only [sparesOwned, Option.all_some, List.all_eq_true] at hspares
      change (interfere e w).live key = true
      simpa [hlive] using hspares key howned
  start w snap _ _ _ _ := by
    rintro _ _ hpass _ _ _ hcreated
    cases hpass
    cases hcreated
  answer w snap r k trace f _ h hallowed hok := by
    rw [rules_after] at hallowed
    cases r with
    | api client call => exact createdLive_call h hallowed (Bool.and_eq_true_iff.mp hok).1
    | loc op =>
      refine h.local (performLocal_frame w op).2.2.2.1 fun o ho => ?_
      exact Obs.isWrite_of_isRead (obsOf_isRead (r := .loc op) rfl ho)
    | timer seconds =>
      refine h.local (by cases f <;> rfl) fun o ho => ?_
      exact Obs.isWrite_of_isRead (obsOf_isRead (r := .timer seconds) rfl ho)
  finish _ _ _ _ _ _ h := (nomatch h)
  kill _ _ _ _ _ _ h := (nomatch h)

theorem liveMachine_of_named {ctx : Context} {w : World} {sm : ScheduledMachine} (hnamed : FullyNamed ctx sm)
    (hlive : ∀ key ∈ ownedKeys ctx sm, w.live key = true) : LiveMachine ctx w sm := by
  obtain ⟨bootstrap, hbootstrap⟩ := Option.isSome_iff_exists.mp hnamed.1
  obtain ⟨infra, hinfra⟩ := Option.isSome_iff_exists.mp hnamed.2
  refine ⟨bootstrap, infra, hbootstrap, hinfra, hlive _ List.mem_cons_self, hlive _ ?_, hlive _ ?_⟩
  · simp [ownedKeys, hbootstrap]
  · simp [ownedKeys, hinfra]

/-- In every such run, whenever `Active` is about to be recorded, a live machine stands behind it. -/
theorem active_means_live {ctx : Context} {s : RunState}
    (hs : (system ctx).Reach Fresh (fun s a => liveGuard ctx s a = true) s) {snap : Snapshot} {client : Client}
    {call : ApiCall} (hnext : nextCall s = some (snap, client, call)) (hactive : call.phaseTarget = some .active) :
    LiveMachine ctx s.world snap.sm := by
  obtain ⟨trace, hseen, hlegal⟩ := legal_of_nextCall hs hnext
  obtain ⟨conditions, heffect⟩ := @effect_of_phaseTarget client _ _ hactive
  have hinv := System.Reach.invariant _ (system_conforms ctx) (fun _ _ => trivial) (createdLive_keeps ctx) hs
  cases hlegal _ heffect with
  | pendingActive path phase clean named created stamp =>
    refine liveMachine_of_named named fun key howned => ?_
    exact hinv snap trace hseen ⟨phase, path.alive, path.kill, clean⟩ key howned (created key howned)

/-! ## Two runs -/

def recordsActive (s : RunState) : Bool :=
  (nextCall s).any fun next => next.2.2.phaseTarget == some .active

theorem recordsActive_iff {s : RunState} (h : recordsActive s = true) :
    ∃ snap client call, nextCall s = some (snap, client, call) ∧ call.phaseTarget = some .active := by
  obtain ⟨⟨snap, client, call⟩, hnext, htarget⟩ := (Option.any_eq_true _ _).mp h
  exact ⟨snap, client, call, hnext, eq_of_beq htarget⟩

theorem active_means_live_created : ∃ (s : RunState) (snap : Snapshot), s.pass.isSome = true ∧
    LiveMachine demoContext s.world snap.sm := by
  obtain ⟨s, hs, hrecords⟩ := System.Reach.exists_of_runWith (system demoContext) (liveGuard demoContext)
    (fun s => s.pass.isSome && recordsActive s) (.start :: answers 12) demoWorld_fresh (by decide +kernel)
  obtain ⟨hpass, hrecords⟩ := Bool.and_eq_true_iff.mp hrecords
  obtain ⟨snap, client, call, hnext, htarget⟩ := recordsActive_iff hrecords
  exact ⟨s, snap, hpass, active_means_live hs hnext htarget⟩

/-- Machine, bootstrap and infrastructure object stand; they may be on their way out. -/
def standingEnv (windowOpen doomed : Bool) : Env :=
  { demoEnv with
    object := fun key =>
      if key = scheduleResource.key "team" "work" then some (providerSays windowOpen) else some (.obj [])
    terminating := fun key => doomed && key != scheduleResource.key "team" "work" }

/-- The window closes and the machine is shut down. It opens again while the objects are still terminating. -/
def reopened : List RunAct :=
  .start :: answers 13 ++ [.finish, .interfere (.replace (standingEnv false false) .all), .start] ++ answers 7 ++
    [.finish, .interfere (.tick 301000000000), .start] ++ answers 11 ++
    [.finish, .interfere (.replace (standingEnv true true) .all), .start] ++ answers 7 ++
    [.finish, .start] ++ answers 11

/-- `Active` is about to be recorded, and the Machine is on its way out. -/
theorem active_over_terminating : ¬∀ s : RunState,
    (system demoContext).Reach Fresh (fun s a => sparesOwned demoContext s a = true) s → ∀ snap client call,
      nextCall s = some (snap, client, call) → call.phaseTarget = some .active →
        LiveMachine demoContext s.world snap.sm := by
  intro hlive
  obtain ⟨s, hs, hrecords⟩ := System.Reach.exists_of_runWith (system demoContext) (sparesOwned demoContext)
    (fun s => (nextCall s).any fun next =>
      next.2.2.phaseTarget == some .active && !s.world.live (machineKey next.1.sm)) reopened
    demoWorld_fresh (by decide +kernel)
  obtain ⟨⟨snap, client, call⟩, hnext, hbad⟩ := (Option.any_eq_true _ _).mp hrecords
  obtain ⟨htarget, hdoomed⟩ := Bool.and_eq_true_iff.mp hbad
  obtain ⟨_, _, -, -, hmachine, -⟩ := hlive s hs snap client call hnext (eq_of_beq htarget)
  rw [hmachine] at hdoomed
  cases hdoomed

end FiveSpot
