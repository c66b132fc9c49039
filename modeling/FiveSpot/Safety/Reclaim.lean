import FiveSpot.Safety.Lockout

/-! # Emergency reclaim

The reclaim is meant to be replayed from its annotation until the machine is removed and the schedule
disabled. The annotation lives on a Node that goes away with the machine, and the recovery arm then
takes both for done.
-/

namespace FiveSpot

set_option autoImplicit false

open Interaction

/-! ## The reclaim in progress -/

/-- What happened since `EmergencyRemove` was first written, as long as it is still recorded. -/
def currentReclaim : List Event → List Event
  | [] => []
  | e :: earlier => match e.phaseWrite with
    | some record => if record.target = .emergencyRemove then e :: currentReclaim earlier else []
    | none => if phaseOf earlier = some .emergencyRemove then e :: currentReclaim earlier else []

def disabledInReclaim (log : List Event) : Bool := (currentReclaim log).any Event.disables

def DeletedInReclaim (log : List Event) (key : ObjKey) : Prop := ∃ e ∈ currentReclaim log, e.deletes = some key

/-- Everything that a reconcile took the resource to own has been deleted in the current reclaim. -/
def RemovedInReclaim (ctx : Context) (log : List Event) : Prop :=
  ∃ time bound sm, .started time bound sm ∈ log ∧ ∀ key ∈ ownedKeys ctx sm, DeletedInReclaim log key

section

variable {e : Event} {log : List Event}

theorem currentReclaim_eq_nil (h : phaseOf log ≠ some .emergencyRemove) : currentReclaim log = [] := by
  cases log with
  | nil => rfl
  | cons e earlier =>
    rw [currentReclaim]
    cases hwrite : e.phaseWrite with
    | none =>
      rw [phaseOf_cons_of_none hwrite] at h
      exact if_neg h
    | some record =>
      refine if_neg fun htarget => h ?_
      rw [phaseOf, lastPhase_cons, hwrite, Option.some_or, Option.map_some, htarget]

theorem currentReclaim_cons_of_none (he : e.phaseWrite = none) (h : phaseOf log = some .emergencyRemove) :
    currentReclaim (e :: log) = e :: currentReclaim log := by
  rw [currentReclaim, he]
  exact if_pos h

theorem currentReclaim_mono (he : ∀ record, e.phaseWrite = some record → record.target = .emergencyRemove) :
    ∀ x ∈ currentReclaim log, x ∈ currentReclaim (e :: log) := by
  intro x hx
  cases hwrite : e.phaseWrite with
  | none =>
    by_cases hphase : phaseOf log = some .emergencyRemove
    · rw [currentReclaim_cons_of_none hwrite hphase]
      exact List.mem_cons_of_mem _ hx
    · rw [currentReclaim_eq_nil hphase] at hx
      cases hx
  | some record =>
    rw [currentReclaim, hwrite]
    simp only [he record hwrite, if_true]
    exact List.mem_cons_of_mem _ hx

theorem mem_currentReclaim_cons {x : Event} (h : x ∈ currentReclaim (e :: log)) :
    x = e ∨ x ∈ currentReclaim log := by
  rw [currentReclaim] at h
  split at h
  · split at h
    · exact List.mem_cons.mp h
    · cases h
  · split at h
    · exact List.mem_cons.mp h
    · cases h

theorem disabledInReclaim_mono (he : e.phaseWrite = none) (h : disabledInReclaim log = true) :
    disabledInReclaim (e :: log) = true := by
  obtain ⟨x, hx, hdisables⟩ := List.any_eq_true.mp h
  refine List.any_eq_true.mpr ⟨x, currentReclaim_mono (fun record hwrite => ?_) x hx, hdisables⟩
  rw [he] at hwrite
  cases hwrite

theorem disabledInReclaim_cons (h : disabledInReclaim (e :: log) = true) :
    (e.disables = true ∨ disabledInReclaim log = true) ∧
      ∀ record, e.phaseWrite = some record → record.target = .emergencyRemove := by
  obtain ⟨x, hx, hdisables⟩ := List.any_eq_true.mp h
  constructor
  · rcases mem_currentReclaim_cons hx with rfl | hold
    · exact .inl hdisables
    · exact .inr (List.any_eq_true.mpr ⟨x, hold, hdisables⟩)
  · intro record hwrite
    by_contra hother
    rw [currentReclaim, hwrite] at hx
    simp only [hother, if_false] at hx
    cases hx

theorem RemovedInReclaim.mono {ctx : Context} (h : RemovedInReclaim ctx log)
    (he : ∀ record, e.phaseWrite = some record → record.target = .emergencyRemove) :
    RemovedInReclaim ctx (e :: log) := by
  obtain ⟨time, bound, sm, hread, hdeleted⟩ := h
  refine ⟨time, bound, sm, List.mem_cons_of_mem _ hread, fun key hkey => ?_⟩
  obtain ⟨x, hx, hdeletes⟩ := hdeleted key hkey
  exact ⟨x, currentReclaim_mono he x hx, hdeletes⟩

end

/-! ## The runs -/

/-- A reconcile that starts in `EmergencyRemove` before the schedule was disabled still finds the
request on the Node. -/
def reclaimReplays (ctx : Context) (s : RunState) : RunAct → Bool
  | .start => s.world.sm.all fun sm =>
      !(looksForReclaim (ctx.led s.world.leader) sm && sm.phase == some .emergencyRemove) ||
        disabledInReclaim s.world.log || (reclaimNode sm).isSome
  | .answer fate => (nextCall s).all fun ⟨snap, client, call⟩ =>
      !(snap.sm.phase == some .emergencyRemove && reclaimRead snap.sm client call && fate.isOk) ||
        disabledInReclaim s.world.log || (requestAhead s.world fate client call).isSome
  | _ => true

/-! ## The invariant -/

/-- The pass will find the request, and so not take the recovery arm. -/
def Replays (sm : ScheduledMachine) (t : List Obs) : Prop :=
  ∃ node, reclaimNode sm = some node ∧
    ∀ found, .node .management node found ∈ t → (found.bind nodeReclaimRequest).isSome = true

structure ReclaimInvariant (ctx : Context) (log : List Event) (pass : Option (Snapshot × List Obs)) : Prop where
  removed : disabledInReclaim log = true → RemovedInReclaim ctx log
  read : ∀ snap t, pass = some (snap, t) → ∃ time bound, .started time bound snap.sm ∈ log
  cleared : ∀ snap t, pass = some (snap, t) → .phase .emergencyRemove true ∈ t →
    phaseOf log = some .emergencyRemove → (∀ key, .cleared key ∈ t → DeletedInReclaim log key) ∧
      (.enabled false true ∈ t → disabledInReclaim log = true)
  replays : ∀ snap t, pass = some (snap, t) → looksForReclaim (ctx.led snap.leader) snap.sm = true →
    snap.sm.phase = some .emergencyRemove → Untouched t → disabledInReclaim log = true ∨ Replays snap.sm t

section

variable {ctx : Context} {log : List Event} {pass : Option (Snapshot × List Obs)} {snap : Snapshot} {t : List Obs}
  {e : Event}

theorem ReclaimInvariant.cons (h : ReclaimInvariant ctx log pass) (hphase : e.phaseWrite = none)
    (hdisables : e.disables = false) : ReclaimInvariant ctx (e :: log) pass := by
  have hgoes : ∀ record, e.phaseWrite = some record → record.target = .emergencyRemove := by
    intro record hwrite
    rw [hphase] at hwrite
    cases hwrite
  refine ⟨fun hdisabled => ?_, fun snap t hpass => ?_, fun snap t hpass hmarked hreclaim => ?_,
    fun snap t hpass hlooks hstarted hclean => ?_⟩
  · rcases (disabledInReclaim_cons hdisabled).1 with hnew | hold
    · rw [hdisables] at hnew
      cases hnew
    · exact (h.removed hold).mono hgoes
  · obtain ⟨time, bound, hread⟩ := h.read snap t hpass
    exact ⟨time, bound, List.mem_cons_of_mem _ hread⟩
  · rw [phaseOf_cons_of_none hphase] at hreclaim
    obtain ⟨hcleared, hdisabled⟩ := h.cleared snap t hpass hmarked hreclaim
    refine ⟨fun key hkey => ?_, fun hmem => disabledInReclaim_mono hphase (hdisabled hmem)⟩
    obtain ⟨x, hx, hdeletes⟩ := hcleared key hkey
    exact ⟨x, currentReclaim_mono hgoes x hx, hdeletes⟩
  · exact (h.replays snap t hpass hlooks hstarted hclean).imp (disabledInReclaim_mono hphase) id

theorem Replays.cons {sm : ScheduledMachine} {o : Obs} (h : Replays sm t)
    (ho : ∀ node found, reclaimNode sm = some node → o = .node .management node found →
      (found.bind nodeReclaimRequest).isSome = true) : Replays sm (o :: t) := by
  obtain ⟨node, hnode, hfound⟩ := h
  refine ⟨node, hnode, fun found hmem => ?_⟩
  rcases List.mem_cons.mp hmem with hnew | hold
  · exact ho node found hnode hnew.symm
  · exact hfound found hold

theorem ReclaimInvariant.observe {o : Obs} (h : ReclaimInvariant ctx log (some (snap, t)))
    (ho : o.isLocal = true) : ReclaimInvariant ctx log (some (snap, o :: t)) := by
  have hold : ∀ o', o'.isLocal = false → o' ∈ o :: t → o' ∈ t := by
    intro o' hremote hmem
    rcases List.mem_cons.mp hmem with rfl | hmem
    · rw [hremote] at ho
      cases ho
    · exact hmem
  refine ⟨h.removed, fun snap' t' hpass => ?_, fun snap' t' hpass hmarked hreclaim => ?_,
    fun snap' t' hpass hlooks hstarted hclean => ?_⟩
  · cases hpass
    exact h.read snap t rfl
  · cases hpass
    obtain ⟨hcleared, hdisabled⟩ := h.cleared snap t rfl (hold _ rfl hmarked) hreclaim
    exact ⟨fun key hkey => hcleared key (hold _ rfl hkey), fun hmem => hdisabled (hold _ rfl hmem)⟩
  · cases hpass
    refine (h.replays snap t rfl hlooks hstarted hclean.tail).imp id fun hreplays => ?_
    refine hreplays.cons fun node found _ heq => ?_
    rw [heq] at ho
    cases ho

end

/-! ## Calls -/

theorem phaseOf_of_disabledInReclaim {log : List Event} (h : disabledInReclaim log = true) :
    phaseOf log = some .emergencyRemove := by
  by_contra hphase
  rw [disabledInReclaim, currentReclaim_eq_nil hphase] at h
  cases h

section

variable {ctx : Context} {w after : World} {snap : Snapshot} {client : Client} {call : ApiCall}
  {trace : List (Sigma Resp)} {answer : Except KubeError call.Answer} {applied : Bool} {error : Option KubeError}

theorem disables_of_obs (ha : Answered w client call answer after applied error)
    (h : obsOfCall client call answer = .enabled false true) :
    (Event.called w.now w.bound client call applied error).disables = true := by
  generalize hdone : true = done at h
  cases obsSource h with
  | enabled ns name value answer =>
    have happlied : applied = true := ha.ok hdone.symm
    rw [happlied, ← hdone]
    rfl

theorem legal_disable {t : List Obs} (h : LegalFor ctx snap t (.enabled false)) :
    .phase .emergencyRemove true ∈ t ∧ Removed ctx snap.sm t := by
  cases h with
  | reclaimDisable path marked removed => exact ⟨marked, removed⟩

theorem legal_mark {t : List Obs} {conditions : List Condition}
    (h : LegalFor ctx snap t (.phase .emergencyRemove conditions)) : Untouched t := by
  cases h with
  | reclaimMark path clean stamp => exact clean

theorem removed_call (h : ReclaimInvariant ctx w.log (some (snap, observed trace)))
    (hlegal : ∀ effect, effectOfCall client call = some effect → LegalFor ctx snap (observed trace) effect)
    (hdisabled : disabledInReclaim (.called w.now w.bound client call applied error :: w.log) = true) :
    RemovedInReclaim ctx (.called w.now w.bound client call applied error :: w.log) := by
  obtain ⟨hcase, hgoes⟩ := disabledInReclaim_cons hdisabled
  rcases hcase with hnew | hold
  · obtain ⟨heffect, hwrite⟩ := disables_called hnew
    obtain ⟨hmarked, hremoved⟩ := legal_disable (hlegal _ heffect)
    have hphase := phaseOf_of_disabledInReclaim hdisabled
    rw [phaseOf_cons_of_none hwrite] at hphase
    obtain ⟨hcleared, -⟩ := h.cleared snap _ rfl hmarked hphase
    obtain ⟨time, bound, hread⟩ := h.read snap _ rfl
    have hhere : RemovedInReclaim ctx w.log :=
      ⟨time, bound, snap.sm, hread, fun key hkey => hcleared key (hremoved key hkey)⟩
    exact hhere.mono hgoes
  · exact (h.removed hold).mono hgoes

theorem cleared_call (h : ReclaimInvariant ctx w.log (some (snap, observed trace)))
    (hlegal : ∀ effect, effectOfCall client call = some effect → LegalFor ctx snap (observed trace) effect)
    (ha : Answered w client call answer after applied error)
    (hmarked : .phase .emergencyRemove true ∈ obsOfCall client call answer :: observed trace)
    (hphase : phaseOf (.called w.now w.bound client call applied error :: w.log) = some .emergencyRemove) :
    (∀ key, .cleared key ∈ obsOfCall client call answer :: observed trace →
        DeletedInReclaim (.called w.now w.bound client call applied error :: w.log) key) ∧
      (.enabled false true ∈ obsOfCall client call answer :: observed trace →
        disabledInReclaim (.called w.now w.bound client call applied error :: w.log) = true) := by
  -- unless the call has just written the phase, the reclaim was already going on
  have hgoing : (Event.called w.now w.bound client call applied error).phaseWrite = none →
      .phase .emergencyRemove true ∈ observed trace → (∀ key,
        .cleared key ∈ obsOfCall client call answer :: observed trace →
          DeletedInReclaim (.called w.now w.bound client call applied error :: w.log) key) ∧
        (.enabled false true ∈ obsOfCall client call answer :: observed trace →
          disabledInReclaim (.called w.now w.bound client call applied error :: w.log) = true) := by
    intro hwrite hold
    rw [phaseOf_cons_of_none hwrite] at hphase
    have hreclaim := currentReclaim_cons_of_none hwrite hphase
    obtain ⟨hcleared, hdisabled⟩ := h.cleared snap _ rfl hold hphase
    refine ⟨fun key hkey => ?_, fun hmem => ?_⟩
    · rw [DeletedInReclaim, hreclaim]
      rcases List.mem_cons.mp hkey with hnew | hkey
      · exact ⟨_, List.mem_cons_self, deletes_of_cleared ha hnew.symm⟩
      · obtain ⟨x, hx, hdeletes⟩ := hcleared key hkey
        exact ⟨x, List.mem_cons_of_mem _ hx, hdeletes⟩
    · rw [disabledInReclaim, hreclaim, List.any_cons, Bool.or_eq_true]
      rcases List.mem_cons.mp hmem with hnew | hmem
      · exact .inl (disables_of_obs ha hnew.symm)
      · exact .inr (hdisabled hmem)
  cases callKind ha with
  | other obs write creates =>
    rcases List.mem_cons.mp hmarked with hnew | hold
    · exact absurd hnew.symm (obs _ _)
    · exact hgoing write hold
  | create key effect obs write =>
    rcases List.mem_cons.mp hmarked with hnew | hold
    · exact absurd hnew.symm (obs _ _)
    · exact hgoing write hold
  | phase target conditions done effect obs write creates done_applied =>
    cases applied with
    | false =>
      rcases List.mem_cons.mp hmarked with hnew | hold
      · rw [obs] at hnew
        cases hnew
        cases done_applied rfl
      · exact hgoing write hold
    | true =>
      rw [phaseOf_called write] at hphase
      cases hphase
      have hclean := legal_mark (hlegal _ effect)
      refine ⟨fun key hkey => ?_, fun hmem => ?_⟩
      · rw [obs] at hkey
        rcases List.mem_cons.mp hkey with hnew | hold
        · cases hnew
        · exact absurd hold (hclean.not_cleared key)
      · rw [obs] at hmem
        rcases List.mem_cons.mp hmem with hnew | hold
        · cases hnew
        · obtain ⟨_, heq⟩ := hclean _ hold rfl
          cases heq

end

theorem replays_call {ctx : Context} {w after : World} {snap : Snapshot} {client : Client}
    {call : ApiCall} {k : Resp (.api client call) → Prog Resp ReconcilerError Action} {trace : List (Sigma Resp)}
    {fate : Fate} {applied : Bool} {error : Option KubeError}
    (h : ReclaimInvariant ctx w.log (some (snap, observed trace)))
    (hok : reclaimReplays ctx ⟨w, some ⟨snap, .call (.api client call) k, trace⟩⟩ (.answer fate) = true)
    (ha : Answered w client call (serveApi w client call fate).1 after applied error)
    (hlooks : looksForReclaim (ctx.led snap.leader) snap.sm = true)
    (hstarted : snap.sm.phase = some .emergencyRemove)
    (hclean : Untouched (obsOfCall client call (serveApi w client call fate).1 :: observed trace)) :
    disabledInReclaim (.called w.now w.bound client call applied error :: w.log) = true ∨
      Replays snap.sm (obsOfCall client call (serveApi w client call fate).1 :: observed trace) := by
  have hwrite : (Event.called w.now w.bound client call applied error).phaseWrite = none := by
    cases callKind ha with
    | other obs write creates => exact write
    | create key effect obs write => exact write
    | phase target conditions done effect obs write creates done_applied =>
      obtain ⟨_, heq⟩ := hclean _ List.mem_cons_self (by rw [obs]; rfl)
      rw [obs] at heq
      cases heq
  rcases h.replays snap _ rfl hlooks hstarted hclean.tail with hdisabled | hreplays
  · exact .inl (disabledInReclaim_mono hwrite hdisabled)
  · cases hdisabled : disabledInReclaim w.log with
    | true => exact .inl (disabledInReclaim_mono hwrite hdisabled)
    | false =>
      refine .inr (hreplays.cons fun node found hnode hobs => ?_)
      obtain ⟨rfl, rfl, hfate, hfound⟩ := node_of_obs hobs
      simp only [reclaimReplays, nextCall, Option.bind_some, Option.all_some, hstarted, reclaimRead, hnode,
        hfate, hdisabled, requestAhead, hfound] at hok
      cases found with
      | none => simp at hok
      | some found =>
        cases hrequest : nodeReclaimRequest found with
        | none => simp [hrequest] at hok
        | some request => simp [hrequest]

theorem reclaimInvariant_keeps (ctx : Context) :
    LogKeeps ctx (fun s a => reclaimReplays ctx s a = true) Base (fun _ => ReclaimInvariant ctx) where
  base _ := ⟨fun h => (nomatch h), fun _ _ h => (nomatch h), fun _ _ h => (nomatch h), fun _ _ h => (nomatch h)⟩
  pause _ _ _ _ h _ := h
  edit _ _ _ _ h _ := h.cons rfl rfl
  deletion _ _ _ h _ := h.cons rfl rfl
  start w sm _ h hsm hok := by
    have hcons := h.cons (e := .started w.now w.bound sm) rfl rfl
    refine ⟨hcons.removed, fun snap t hpass => ?_, fun snap t hpass hmarked => ?_,
      fun snap t hpass hlooks hstarted _ => ?_⟩
    · cases hpass
      exact ⟨w.now, w.bound, List.mem_cons_self⟩
    · cases hpass
      cases hmarked
    · cases hpass
      simp only [reclaimReplays, hsm, Option.all_some, hlooks, hstarted] at hok
      cases hdisabled : disabledInReclaim w.log with
      | true => exact .inl (disabledInReclaim_mono rfl hdisabled)
      | false =>
        rw [hdisabled] at hok
        obtain ⟨node, hnode⟩ := Option.isSome_iff_exists.mp (by simpa using hok : (reclaimNode sm).isSome = true)
        exact .inr ⟨node, hnode, fun _ hmem => (nomatch hmem)⟩
  call w snap client call k trace fate after applied error _ h hlegal hok ha := by
    refine ⟨removed_call h hlegal, fun snap' t hpass => ?_, fun snap' t hpass hmarked hphase => ?_,
      fun snap' t hpass hlooks hstarted hclean => ?_⟩
    · cases hpass
      obtain ⟨time, bound, hread⟩ := h.read snap _ rfl
      exact ⟨time, bound, List.mem_cons_of_mem _ hread⟩
    · cases hpass
      exact cleared_call h hlegal ha hmarked hphase
    · cases hpass
      exact replays_call h hok ha hlooks hstarted hclean
  clock _ _ _ _ h := h.observe rfl
  timeout _ _ _ _ h := (h.cons rfl rfl).observe rfl
  leave _ _ _ _ h :=
    ⟨h.removed, fun _ _ h => (nomatch h), fun _ _ h => (nomatch h), fun _ _ h => (nomatch h)⟩
  crash _ _ h := h.cons rfl rfl

theorem disabled_of_legal {ctx : Context} {w : World} {snap : Snapshot} {trace : List (Sigma Resp)}
    {conditions : List Condition} (hbase : Base w (some (snap, trace)))
    (h : ReclaimInvariant ctx w.log (some (snap, observed trace)))
    (hlegal : LegalFor ctx snap (observed trace) (.phase .disabled conditions))
    (hphase : phaseOf w.log = some .emergencyRemove) : disabledInReclaim w.log = true := by
  cases hlegal with
  | reclaimDone path marked removed disabled stamp => exact (h.cleared snap _ rfl marked hphase).2 disabled
  | pendingDisabled path phase enabled clean stamp =>
    rw [((hbase.pass snap trace rfl).recorded clean.unwritten).phase, hphase] at phase
    cases phase
  | recover path phase clean stamp =>
    have hlooks : looksForReclaim (ctx.led snap.leader) snap.sm = true := by
      simp [looksForReclaim, isOrdinary_iff.mpr ⟨_, path.toOrdinary⟩, path.kill]
    rcases h.replays snap _ rfl hlooks phase clean with hdisabled | ⟨node, hnode, hfound⟩
    · exact hdisabled
    · obtain ⟨found, hmem, hnone⟩ := path.calm node hnode
      have hsome := hfound found hmem
      rw [hnone] at hsome
      cases hsome

/-- In every such run, a reclaim ends in `Disabled` only after the machine was removed and the schedule
disabled in it; and after a disabling patch nothing is created until a user enables the schedule. -/
theorem reclaim_breaks_loop {ctx : Context} {s : RunState}
    (hs : (system ctx).Reach Fresh (fun s a => reclaimReplays ctx s a = true) s) :
    (∀ snap client call, nextCall s = some (snap, client, call) → call.phaseTarget = some .disabled →
        phaseOf s.world.log = some .emergencyRemove →
          RemovedInReclaim ctx s.world.log ∧ disabledInReclaim s.world.log = true) ∧
      ∀ e later x before key, e :: (later ++ x :: before) <:+ s.world.log → e.effect = some (.create key) →
        x.disables = true → ∃ spec, .edited spec ∈ later ∧ spec.enabled = true := by
  have hinv := (reclaimInvariant_keeps ctx).holds (fun _ => base_of_reach) hs
  have hbase := base_of_reach hs
  refine ⟨fun snap client call hnext htarget hphase => ?_, fun e later x before key hlog hcreate hx => ?_⟩
  · obtain ⟨trace, hseen, hlegal⟩ := legal_of_nextCall hs hnext
    obtain ⟨conditions, heffect⟩ := @effect_of_phaseTarget client call _ htarget
    rw [hseen] at hinv hbase
    have hdisabled := disabled_of_legal hbase hinv (hlegal _ heffect) hphase
    exact ⟨hinv.removed hdisabled, hdisabled⟩
  · exact edited_of_lockedOut hx (creates_unlocked hs e _ hlog key hcreate)

/-! ## Two runs -/

def withoutMachine (key : ObjKey) : Option Json :=
  if key = machineKey demoMachine then none else runningObject .null key

def nodelessEnv : Env := { demoEnv with object := withoutMachine }

/-- The controller dies after it has deleted the Machine, and the Node disappears. -/
def reclaimedHalfway : List RunAct :=
  markedForReclaim ++ answers 12 ++ [.kill, .interfere (.replace nodelessEnv .all), .start] ++ answers 6

def endsReclaim (s : RunState) : Bool :=
  ((nextCall s).any fun ⟨_, _, call⟩ => call.phaseTarget == some .disabled) &&
    phaseOf s.world.log == some .emergencyRemove

theorem endsReclaim_iff {s : RunState} (h : endsReclaim s = true) :
    (∃ snap client call, nextCall s = some (snap, client, call) ∧ call.phaseTarget = some .disabled) ∧
      phaseOf s.world.log = some .emergencyRemove := by
  obtain ⟨hnext, hphase⟩ := Bool.and_eq_true_iff.mp h
  obtain ⟨⟨snap, client, call⟩, hnext, htarget⟩ := (Option.any_eq_true _ _).mp hnext
  exact ⟨⟨snap, client, call, hnext, eq_of_beq htarget⟩, eq_of_beq hphase⟩

theorem reclaim_breaks_loop_uninterrupted : ∃ s : RunState, endsReclaim s = true ∧
    RemovedInReclaim demoContext s.world.log ∧ disabledInReclaim s.world.log = true := by
  obtain ⟨s, hs, hends⟩ := System.Reach.exists_of_runWith (system demoContext) (reclaimReplays demoContext)
    endsReclaim (markedForReclaim ++ answers 19) demoWorld_fresh (by decide +kernel)
  obtain ⟨⟨snap, client, call, hnext, htarget⟩, hphase⟩ := endsReclaim_iff hends
  exact ⟨s, hends, (reclaim_breaks_loop hs).1 snap client call hnext htarget hphase⟩

/-- The recovery arm ends a reclaim in which the schedule was never disabled. -/
theorem reclaim_ends_enabled : ¬∀ s : RunState, (system demoContext).Reach Fresh (fun _ _ => True) s →
    ∀ snap client call, nextCall s = some (snap, client, call) → call.phaseTarget = some .disabled →
      phaseOf s.world.log = some .emergencyRemove →
        RemovedInReclaim demoContext s.world.log ∧ disabledInReclaim s.world.log = true := by
  intro hdone
  obtain ⟨s, hs, hproperty⟩ := System.Reach.exists_of_runWith (system demoContext) (fun _ _ => true)
    (fun s => endsReclaim s && !disabledInReclaim s.world.log) reclaimedHalfway demoWorld_fresh (by decide +kernel)
  obtain ⟨hends, henabled⟩ := Bool.and_eq_true_iff.mp hproperty
  obtain ⟨⟨snap, client, call, hnext, htarget⟩, hphase⟩ := endsReclaim_iff hends
  have hdisabled := (hdone s (hs.mono _ fun _ _ _ => trivial) snap client call hnext htarget hphase).2
  simp [hdisabled] at henabled

end FiveSpot
