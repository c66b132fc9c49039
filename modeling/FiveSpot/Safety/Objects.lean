import FiveSpot.Cluster.LogInvariant

/-! # Objects of a run

In a run whose embedded resources are not edited, everything that was created and not deleted since
is among the objects the resource owns, and what a pass has seen deleted stays deleted: creates and
deletes never meet in one pass.
-/

namespace FiveSpot

set_option autoImplicit false

open Interaction

/-- Spec edits leave `bootstrapSpec` and `infrastructureSpec` alone. -/
def fixedTemplates (s : RunState) : RunAct → Bool
  | .interfere (.editSpec spec) => s.world.sm.all fun sm =>
      decide (spec.bootstrapSpec = sm.spec.bootstrapSpec) &&
        decide (spec.infrastructureSpec = sm.spec.infrastructureSpec)
  | _ => true

section

variable {e : Event} {log : List Event} {key : ObjKey}

theorem undeleted_cons_of_creates_none (he : e.creates = none) (h : undeleted (e :: log) key = true) :
    undeleted log key = true := by
  rw [undeleted, he] at h
  split at h
  · cases h
  · simpa using h

theorem undeleted_cons_eq_false (h : undeleted log key = false) (he : e.creates ≠ some key) :
    undeleted (e :: log) key = false := by
  rw [undeleted, if_neg he, h, ite_self]

theorem undeleted_cons_of_deletes (he : e.deletes = some key) : undeleted (e :: log) key = false := by
  rw [undeleted, if_pos he]

theorem undeleted_cons_or (h : undeleted (e :: log) key = true) :
    undeleted log key = true ∨ e.creates = some key := by
  by_cases he : e.creates = some key
  · exact .inr he
  · refine .inl ?_
    by_contra hnot
    rw [undeleted_cons_eq_false (Bool.eq_false_iff.mpr hnot) he] at h
    cases h

theorem undeleted_of_append {events : List Event} (he : ∀ event ∈ events, event.creates = none)
    (h : undeleted (events ++ log) key = true) : undeleted log key = true := by
  induction events with
  | nil => exact h
  | cons event events ih =>
    exact ih (fun e' he' => he e' (List.mem_cons_of_mem _ he'))
      (undeleted_cons_of_creates_none (he event List.mem_cons_self) h)

theorem Clean.cons (h : Clean log) (he : e.creates = none) : Clean (e :: log) :=
  fun key => undeleted_cons_eq_false (h key) (by rw [he]; exact nofun)

theorem created_of_undeleted (h : undeleted log key = true) : ∃ e ∈ log, e.creates = some key := by
  induction log with
  | nil => cases h
  | cons e log ih =>
    rcases undeleted_cons_or h with hold | hnew
    · obtain ⟨e', hmem, he'⟩ := ih hold
      exact ⟨e', List.mem_cons_of_mem _ hmem, he'⟩
    · exact ⟨e, List.mem_cons_self, hnew⟩

theorem clean_iff : Clean log ↔ ∀ e ∈ log, ∀ key, e.creates = some key → undeleted log key = false := by
  refine ⟨fun h _ _ key _ => h key, fun h key => ?_⟩
  by_contra hkey
  obtain ⟨e, hmem, he⟩ := created_of_undeleted (Bool.of_not_eq_false hkey)
  exact hkey (h e hmem key he)

instance (e : Event) (property : ObjKey → Prop) [DecidablePred property] :
    Decidable (∀ key, e.creates = some key → property key) :=
  match h : e.creates with
  | none => .isTrue (fun _ hkey => nomatch hkey)
  | some key => decidable_of_iff (property key)
      ⟨fun hkey _ heq => by cases heq; exact hkey, fun hall => hall key rfl⟩

instance (log : List Event) : Decidable (Clean log) := decidable_of_iff _ clean_iff.symm

end

theorem noted_creates {e : Interference} {w : World} : ∀ event ∈ noted e w, event.creates = none := by
  intro event hevent
  cases e with
  | editSpec spec =>
    simp only [noted] at hevent
    split at hevent
    · rw [List.mem_singleton.mp hevent]; rfl
    · cases hevent
  | requestDeletion =>
    simp only [noted] at hevent
    split at hevent
    · rw [List.mem_singleton.mp hevent]; rfl
    · cases hevent
  | _ => cases hevent

theorem creates_called {time : Time} {bound : Option String} {client : Client} {call : ApiCall} {applied : Bool}
    {error : Option KubeError} {key : ObjKey}
    (h : (Event.called time bound client call applied error).creates = some key) :
    effectOfCall client call = some (.create key) := by
  cases call with
  | create ar ns name body =>
    simp only [Event.creates] at h
    split at h
    · cases h
      rfl
    · cases h
  | _ => cases h

theorem deletes_of_cleared {w after : World} {client : Client} {call : ApiCall}
    {answer : Except KubeError call.Answer} {applied : Bool} {error : Option KubeError} {key : ObjKey}
    (ha : Answered w client call answer after applied error) (h : obsOfCall client call answer = .cleared key) :
    (Event.called w.now w.bound client call applied error).deletes = some key := by
  cases obsSource h with
  | deleted ar ns name a => simp [Event.deletes, ha.ok rfl]
  | missing ar ns name e he => simp [Event.deletes, ha.error e rfl, he]

inductive CallKind (w : World) (client : Client) (call : ApiCall) (answer : Except KubeError call.Answer)
    (applied : Bool) (error : Option KubeError) : Prop
  | phase (target : Phase) (conditions : List Condition) (done : Bool)
      (effect : effectOfCall client call = some (.phase target conditions))
      (obs : obsOfCall client call answer = .phase target done)
      (write : (Event.called w.now w.bound client call applied error).phaseWrite =
        if applied then some ⟨target, conditions, w.now⟩ else none)
      (creates : (Event.called w.now w.bound client call applied error).creates = none)
      (done_applied : done = true → applied = true)
  | create (key : ObjKey) (effect : effectOfCall client call = some (.create key))
      (obs : ∀ target done, obsOfCall client call answer ≠ .phase target done)
      (write : (Event.called w.now w.bound client call applied error).phaseWrite = none)
  | other (obs : ∀ target done, obsOfCall client call answer ≠ .phase target done)
      (write : (Event.called w.now w.bound client call applied error).phaseWrite = none)
      (creates : (Event.called w.now w.bound client call applied error).creates = none)

theorem callKind {w after : World} {client : Client} {call : ApiCall} {answer : Except KubeError call.Answer}
    {applied : Bool} {error : Option KubeError} (ha : Answered w client call answer after applied error) :
    CallKind w client call answer applied error := by
  have hnone : ∀ target done, call.phaseTarget = none → obsOfCall client call answer ≠ .phase target done := by
    intro target done htarget h
    cases obsSource h with
    | phase => cases htarget
  cases call with
  | patchStatus ns name body =>
    cases body with
    | phase target message conditions inSchedule ready =>
      exact .phase target conditions (succeeded answer) rfl rfl rfl rfl ha.ok
    | _ => exact .other (fun target done => hnone target done rfl) rfl rfl
  | create ar ns name body => exact .create (ar.key ns name) rfl (fun target done => hnone target done rfl) rfl
  | _ => exact .other (fun target done => hnone target done rfl) rfl rfl

theorem legal_create {ctx : Context} {snap : Snapshot} {t : List Obs} {key : ObjKey}
    (h : LegalFor ctx snap t (.create key)) :
    key ∈ ownedKeys ctx snap.sm ∧ Untouched t ∧ pendingLike snap.sm.phase = true ∧
      snap.sm.spec.enabled = true ∧ snap.sm.spec.killSwitch = false ∧ snap.sm.deleting = false := by
  cases h with
  | pendingCreate path phase enabled clean owned =>
    exact ⟨owned, clean, phase, enabled, path.kill, path.alive⟩

theorem Untouched.not_cleared {t : List Obs} (h : Untouched t) (key : ObjKey) : .cleared key ∉ t := by
  intro hmem
  obtain ⟨_, heq⟩ := h _ hmem rfl
  cases heq

theorem Untouched.unwritten {t : List Obs} (h : Untouched t) : Unwritten t := by
  intro target done hmem
  obtain ⟨_, heq⟩ := h _ hmem rfl
  cases heq

theorem Tainted.unwritten {t : List Obs} (h : Tainted t) : Unwritten t := by
  intro target done hmem
  rcases h _ hmem rfl with ⟨key, heq⟩ | ⟨client, node, done, heq⟩ <;> cases heq

theorem Unmarked.unwritten {t : List Obs} (h : Unmarked t) : Unwritten t := by
  intro target done hmem
  obtain ⟨_, heq | heq⟩ := h _ hmem rfl <;> cases heq

/-! ## Owned objects stay the same -/

theorem ownedKeys_congr {ctx : Context} {sm sm' : ScheduledMachine}
    (hname : sm'.metadata.name = sm.metadata.name) (hns : sm'.metadata.ns = sm.metadata.ns)
    (hbootstrap : sm'.spec.bootstrapSpec = sm.spec.bootstrapSpec)
    (hinfra : sm'.spec.infrastructureSpec = sm.spec.infrastructureSpec) :
    ownedKeys ctx sm' = ownedKeys ctx sm := by
  simp only [ownedKeys, embeddedKey, machineResource, ApiResource.key, hname, hns, hbootstrap, hinfra]

theorem ownedKeys_onSm {ctx : Context} {call : ApiCall} {sm sm' : ScheduledMachine}
    (h : call.onSm sm = some sm') : ownedKeys ctx sm' = ownedKeys ctx sm := by
  obtain ⟨hname, hns, -⟩ := onSm_identity h
  rcases onSm_spec h with hspec | ⟨_, _, _, -, hspec⟩
  · exact ownedKeys_congr hname hns (by rw [hspec]) (by rw [hspec])
  · exact ownedKeys_congr hname hns (by rw [hspec]) (by rw [hspec])

theorem ownedKeys_interfere {ctx : Context} {e : Interference} {w : World} {sm' : ScheduledMachine}
    {pass : Option (Pass Resp ReconcilerError Action Snapshot)}
    (hok : fixedTemplates ⟨w, pass⟩ (.interfere e) = true) (h : (interfere e w).sm = some sm') :
    ∃ sm, w.sm = some sm ∧ ownedKeys ctx sm' = ownedKeys ctx sm := by
  obtain ⟨sm, hsm, hcore, -⟩ := (interfere_frame e w).2 sm' h
  obtain ⟨sm₀, hsm₀, hspec⟩ := interfere_spec h
  cases hsm.symm.trans hsm₀
  refine ⟨sm, hsm, ?_⟩
  rcases hspec with hspec | rfl
  · exact ownedKeys_congr hcore.name hcore.ns (by rw [hspec]) (by rw [hspec])
  · have htemplates : sm'.spec.bootstrapSpec = sm.spec.bootstrapSpec ∧
        sm'.spec.infrastructureSpec = sm.spec.infrastructureSpec := by
      simpa [fixedTemplates, hsm] using hok
    exact ownedKeys_congr hcore.name hcore.ns htemplates.1 htemplates.2

/-! ## The invariant -/

structure PassTracked (ctx : Context) (w : World) (snap : Snapshot) (t : List Obs) : Prop where
  same : ∀ sm, w.sm = some sm → ownedKeys ctx sm = ownedKeys ctx snap.sm
  owned : ∀ key, undeleted w.log key = true → key ∈ ownedKeys ctx snap.sm
  cleared : ∀ key, .cleared key ∈ t → undeleted w.log key = false

structure Tracked (ctx : Context) (w : World) (pass : Option (Snapshot × List (Sigma Resp))) : Prop where
  owned : ∀ sm, w.sm = some sm → ∀ key, undeleted w.log key = true → key ∈ ownedKeys ctx sm
  pass : ∀ snap trace, pass = some (snap, trace) → PassTracked ctx w snap (observed trace)

/-- A pass that has seen every owned object deleted leaves nothing behind. -/
theorem PassTracked.clean {ctx : Context} {w : World} {snap : Snapshot} {t : List Obs}
    (h : PassTracked ctx w snap t) (hremoved : Removed ctx snap.sm t) : Clean w.log := by
  intro key
  by_contra hkey
  have hundeleted : undeleted w.log key = true := by simpa using hkey
  have hcleared := h.cleared key (hremoved key (h.owned key hundeleted))
  rw [hcleared] at hundeleted
  cases hundeleted

theorem tracked_call {ctx : Context} {w after : World} {client : Client} {call : ApiCall}
    {answer : Except KubeError call.Answer} {applied : Bool} {error : Option KubeError} {snap : Snapshot}
    {trace : List (Sigma Resp)} (h : Tracked ctx w (some (snap, trace)))
    (hlegal : ∀ effect, effectOfCall client call = some effect → LegalFor ctx snap (observed trace) effect)
    (ha : Answered w client call answer after applied error) :
    Tracked ctx after (some (snap, ⟨.api client call, answer⟩ :: trace)) := by
  obtain ⟨hsame, howned, hcleared⟩ := h.pass snap trace rfl
  have hsame' : ∀ sm, after.sm = some sm → ownedKeys ctx sm = ownedKeys ctx snap.sm := by
    intro sm hsm
    rw [ha.sm] at hsm
    cases applied with
    | false => exact hsame sm hsm
    | true =>
      obtain ⟨sm₀, hsm₀, hon⟩ := Option.bind_eq_some_iff.mp hsm
      exact (ownedKeys_onSm hon).trans (hsame sm₀ hsm₀)
  have howned' : ∀ key, undeleted after.log key = true → key ∈ ownedKeys ctx snap.sm := by
    intro key hkey
    rw [ha.log] at hkey
    rcases undeleted_cons_or hkey with hold | hnew
    · exact howned key hold
    · exact (legal_create (hlegal _ (creates_called hnew))).1
  refine ⟨fun sm hsm key hkey => hsame' sm hsm ▸ howned' key hkey, fun snap' trace' hpass => ?_⟩
  cases hpass
  refine ⟨hsame', howned', fun key hkey => ?_⟩
  rw [ha.log]
  rcases List.mem_cons.mp hkey with hnew | hold
  · exact undeleted_cons_of_deletes (deletes_of_cleared ha hnew.symm)
  · refine undeleted_cons_eq_false (hcleared key hold) fun hcreates => ?_
    exact (legal_create (hlegal _ (creates_called hcreates))).2.1.not_cleared key hold

/-- Nothing new is on record, and the resource still owns the same. -/
structure Quieter (ctx : Context) (w w' : World) : Prop where
  undeleted : ∀ key, undeleted w'.log key = true → undeleted w.log key = true
  same : ∀ sm', w'.sm = some sm' → ∃ sm, w.sm = some sm ∧ ownedKeys ctx sm' = ownedKeys ctx sm

theorem Quieter.of_sm_eq {ctx : Context} {w w' : World} (events : List Event)
    (hsm : w'.sm = w.sm) (hlog : w'.log = events ++ w.log) (he : ∀ event ∈ events, event.creates = none) :
    Quieter ctx w w' :=
  ⟨fun _ hkey => undeleted_of_append he (hlog ▸ hkey), fun sm' h => ⟨sm', hsm ▸ h, rfl⟩⟩

theorem PassTracked.quieter {ctx : Context} {w w' : World} {snap : Snapshot} {t : List Obs}
    (h : PassTracked ctx w snap t) (hq : Quieter ctx w w') : PassTracked ctx w' snap t := by
  refine ⟨fun sm' hsm' => ?_, fun key hkey => h.owned key (hq.undeleted key hkey), fun key hkey => ?_⟩
  · obtain ⟨sm, hsm, hkeys⟩ := hq.same sm' hsm'
    exact hkeys.trans (h.same sm hsm)
  · by_contra hnot
    have hold := hq.undeleted key (by simpa using hnot)
    rw [h.cleared key hkey] at hold
    cases hold

theorem Tracked.quieter {ctx : Context} {w w' : World} {pass : Option (Snapshot × List (Sigma Resp))}
    (h : Tracked ctx w pass) (hq : Quieter ctx w w') : Tracked ctx w' pass := by
  refine ⟨fun sm' hsm' key hkey => ?_, fun snap trace hpass => (h.pass snap trace hpass).quieter hq⟩
  obtain ⟨sm, hsm, hkeys⟩ := hq.same sm' hsm'
  exact hkeys ▸ h.owned sm hsm key (hq.undeleted key hkey)

theorem tracked_local {ctx : Context} {w : World} {snap : Snapshot} {trace : List (Sigma Resp)} (op : LocalOp)
    (h : Tracked ctx w (some (snap, trace))) :
    Tracked ctx (performLocal w op).2 (some (snap, ⟨.loc op, (performLocal w op).1⟩ :: trace)) := by
  obtain ⟨hsm, -, hlog, -, -⟩ := performLocal_frame w op
  have hq : Quieter ctx w (performLocal w op).2 := .of_sm_eq [] hsm hlog (fun _ h => (nomatch h))
  refine ⟨(h.quieter hq).owned, fun snap' trace' hpass => ?_⟩
  cases hpass
  obtain ⟨hsame, howned, hcleared⟩ := (h.pass snap trace rfl).quieter hq
  refine ⟨hsame, howned, fun key hkey => hcleared key ?_⟩
  cases op with
  | utcNow =>
    rcases List.mem_cons.mp hkey with hnew | hold
    · cases hnew
    · exact hold
  | _ => exact hkey

theorem tracked_timer {ctx : Context} {w : World} {snap : Snapshot} {trace : List (Sigma Resp)}
    (seconds : Nat) (fate : Fate) (h : Tracked ctx w (some (snap, trace))) :
    Tracked ctx (serve w (.timer seconds) fate).2
      (some (snap, ⟨.timer seconds, (serve w (.timer seconds) fate).1⟩ :: trace)) := by
  obtain ⟨hsm, -, hfired⟩ := serve_timer_frame w seconds fate
  have hq : Quieter ctx w (serve w (.timer seconds) fate).2 := by
    rcases hfired with ⟨-, hlog⟩ | ⟨-, hlog⟩
    · refine .of_sm_eq [.timedOut] hsm hlog fun event hevent => ?_
      rw [List.mem_singleton.mp hevent]
      rfl
    · exact .of_sm_eq [] hsm hlog (fun _ h => (nomatch h))
  refine ⟨(h.quieter hq).owned, fun snap' trace' hpass => ?_⟩
  cases hpass
  obtain ⟨hsame, howned, hcleared⟩ := (h.pass snap trace rfl).quieter hq
  refine ⟨hsame, howned, fun key hkey => hcleared key ?_⟩
  rw [observed_cons] at hkey
  rcases hfired with ⟨hanswer, -⟩ | ⟨hanswer, -⟩
  · rw [hanswer] at hkey
    rcases List.mem_cons.mp hkey with hnew | hold
    · cases hnew
    · exact hold
  · rw [hanswer] at hkey
    exact hkey

theorem tracked_keeps (ctx : Context) {ok : RunState → RunAct → Prop}
    (hok : ∀ s a, ok s a → fixedTemplates s a = true) :
    (system ctx).Keeps (rules ctx) (fun _ => []) Fresh ok (fun _ _ => True) (Tracked ctx) where
  base w hw := by
    refine ⟨fun sm _ key hkey => ?_, fun _ _ h => (nomatch h)⟩
    rw [hw.log] at hkey
    cases hkey
  interfere w pass e _ h _ hoks := by
    refine h.quieter ⟨fun key hkey => ?_, fun sm' hsm' => ownedKeys_interfere (hok _ _ hoks) hsm'⟩
    rw [show ((system ctx).interfere e w).log = _ from interfere_log e w] at hkey
    exact undeleted_of_append noted_creates hkey
  start w snap _ h hsnap _ := by
    obtain ⟨sm, hsm, rfl⟩ := Option.map_eq_some_iff.mp hsnap
    have hq : Quieter ctx w (w.record (.started w.now w.bound sm)) := by
      refine .of_sm_eq [.started w.now w.bound sm] rfl rfl fun event hevent => ?_
      rw [List.mem_singleton.mp hevent]
      rfl
    refine ⟨(h.quieter hq).owned, fun snap' trace hpass => ?_⟩
    cases hpass
    refine ⟨fun sm' hsm' => ?_, (h.quieter hq).owned sm hsm, fun key hkey => (nomatch hkey)⟩
    cases hsm.symm.trans hsm'
    rfl
  answer w snap r k trace f _ h hallowed _ := by
    rw [rules_after] at hallowed
    cases r with
    | api client call =>
      obtain ⟨applied, error, ha⟩ := exists_answered w client call f
      exact tracked_call h hallowed ha
    | loc op => exact tracked_local op h
    | timer seconds => exact tracked_timer seconds f h
  finish _ _ _ h := ⟨h.owned, fun _ _ h => (nomatch h)⟩
  kill w snap trace h := by
    have hq : Quieter ctx w { w.record .crashed with memory := .empty } := by
      refine .of_sm_eq [.crashed] rfl rfl fun event hevent => ?_
      rw [List.mem_singleton.mp hevent]
      rfl
    exact ⟨(h.quieter hq).owned, fun _ _ h => (nomatch h)⟩

theorem tracked_of_reach {ctx : Context} {ok : RunState → RunAct → Prop}
    (hok : ∀ s a, ok s a → fixedTemplates s a = true) {s : RunState} (hs : (system ctx).Reach Fresh ok s) :
    Tracked ctx s.world (System.seen s.pass) :=
  System.Reach.invariant _ (system_conforms ctx) (fun _ _ => trivial) (tracked_keeps ctx hok) hs

theorem phaseOf_called {w : World} {client : Client} {call : ApiCall} {error : Option KubeError}
    {target : Phase} {conditions : List Condition}
    (h : (Event.called w.now w.bound client call true error).phaseWrite =
      if true then some ⟨target, conditions, w.now⟩ else none) (log : List Event) :
    phaseOf (.called w.now w.bound client call true error :: log) = some target := by
  rw [phaseOf, lastPhase_cons, h]
  rfl

/-- What is known of every state of a run with fixed templates. -/
def Known (ctx : Context) (w : World) (pass : Option (Snapshot × List (Sigma Resp))) : Prop :=
  Base w pass ∧ Tracked ctx w pass

theorem known_of_reach {ctx : Context} {ok : RunState → RunAct → Prop}
    (hok : ∀ s a, ok s a → fixedTemplates s a = true) (s : RunState) (hs : (system ctx).Reach Fresh ok s) :
    Known ctx s.world (System.seen s.pass) := ⟨base_of_reach hs, tracked_of_reach hok hs⟩

end FiveSpot
