import FiveSpot.Safety.Objects

/-! # Whose objects are deleted

Deletion goes by kind and name. It hits an object of somebody else whenever one stands where the
controller expects its own, be it that a create was answered with `AlreadyExists` or that the object came
later.
-/

namespace FiveSpot

set_option autoImplicit false

open Interaction

def Effect.drains : Effect → Bool
  | .drain _ _ | .evict _ => true
  | _ => false

/-- An effect deletes objects of the controller only, and drains no Node for the Machine of somebody else. -/
structure OnlyOwned (w : World) (effect : Effect) : Prop where
  deleted : ∀ key, effect = .delete key → (w.env.object key).isSome = true → w.made key = true
  drained : effect.drains = true → (w.env.object w.machine).isSome = true → w.made w.machine = true

/-- Whatever stands where the resource's objects belong was created for it. -/
def standsOwned (ctx : Context) (w : World) (sm : ScheduledMachine) : Bool :=
  (ownedKeys ctx sm).all fun key => !(w.env.object key).isSome || w.made key

/-- The reconcile of the resource removes a machine without looking at its Node. -/
def removesAtOnce (sm : ScheduledMachine) : Bool :=
  (sm.deleting || sm.spec.killSwitch) && runningPhase sm.phase || sm.phase == some .shuttingDown

/-- A reconcile that removes a machine begins with no foreign object in its way, or finds none when it reads
the reclaim request; and while one is under way none appears. -/
def removesOwned (ctx : Context) (s : RunState) : RunAct → Bool
  | .start => s.world.sm.all fun sm => !removesAtOnce sm || standsOwned ctx s.world sm
  | .answer fate => (nextCall s).all fun ⟨snap, client, call⟩ =>
      !(reclaimRead snap.sm client call && (requestAhead s.world fate client call).isSome) ||
        standsOwned ctx s.world snap.sm
  | .interfere e => s.pass.all fun p =>
      !standsOwned ctx s.world p.snap.sm || standsOwned ctx (interfere e s.world) p.snap.sm
  | _ => true

theorem standsOwned_iff {ctx : Context} {w : World} {sm : ScheduledMachine} : standsOwned ctx w sm = true ↔
    ∀ key ∈ ownedKeys ctx sm, (w.env.object key).isSome = true → w.made key = true := by
  simp only [standsOwned, List.all_eq_true, Bool.or_eq_true, Bool.not_eq_true', ← Bool.not_eq_true]
  exact forall₂_congr fun _ _ => by rw [or_iff_not_imp_left, not_not]

/-! ## The invariant -/

/-- The reconcile removes a machine, or has read a reclaim request. -/
def Removing (sm : ScheduledMachine) (t : List Obs) : Prop :=
  removesAtOnce sm = true ∨ ∃ node found, reclaimNode sm = some node ∧ .node .management node (some found) ∈ t ∧
    (nodeReclaimRequest found).isSome = true

/-- No foreign object is in the way of a reconcile that removes a machine. -/
def RemovesOwned (ctx : Context) (w : World) (pass : Option (Snapshot × List (Sigma Resp))) : Prop :=
  ∀ snap trace, pass = some (snap, trace) → Removing snap.sm (observed trace) → standsOwned ctx w snap.sm = true

theorem standsOwned_serveApi {ctx : Context} {w : World} {sm : ScheduledMachine} {client : Client} {call : ApiCall}
    (h : standsOwned ctx w sm = true) (fate : Fate) : standsOwned ctx (serveApi w client call fate).2 sm = true := by
  refine serveApi_keeps (P := fun w' => standsOwned ctx w' sm = true) (fun _ _ h => h) h (fun _ after hperform => ?_) fate
  rw [standsOwned_iff] at h ⊢
  intro key howned hpresent
  cases objectEffect_of_perform hperform with
  | @created ar ns name body _ _ hafter =>
    subst hafter
    by_cases hkey : key = ar.key ns name
    · simp [World.addObject, hkey]
    · simp only [World.addObject, hkey, if_false] at hpresent ⊢
      exact h key howned hpresent
  | deleted _ _ hafter =>
    subst hafter
    exact h key howned hpresent
  | kept hobject _ hmade =>
    rw [hobject] at hpresent
    rw [hmade]
    exact h key howned hpresent

theorem removesOwned_call {ctx : Context} {w : World} {client : Client} {call : ApiCall} {snap : Snapshot}
    {k : Resp (.api client call) → Prog Resp ReconcilerError Action} {trace : List (Sigma Resp)} {fate : Fate}
    (h : RemovesOwned ctx w (some (snap, trace)))
    (hok : removesOwned ctx ⟨w, some ⟨snap, .call (.api client call) k, trace⟩⟩ (.answer fate) = true) :
    RemovesOwned ctx (serveApi w client call fate).2
      (some (snap, ⟨.api client call, (serveApi w client call fate).1⟩ :: trace)) := by
  rintro _ _ hpass hremoving
  cases hpass
  apply standsOwned_serveApi
  rcases hremoving with hatOnce | ⟨node, found, hnode, hmem, hrequest⟩
  · exact h snap trace rfl (.inl hatOnce)
  · rcases List.mem_cons.mp hmem with hnew | hold
    · obtain ⟨rfl, rfl⟩ := call_of_node_obs hnew.symm
      have hahead := requestAhead_of_obs hnew.symm hrequest
      simpa [removesOwned, nextCall, reclaimRead, hnode, hahead] using hok
    · exact h snap trace rfl (.inr ⟨node, found, hnode, hold, hrequest⟩)

theorem RemovesOwned.local {ctx : Context} {w w' : World} {snap : Snapshot} {trace : List (Sigma Resp)} {r : Req}
    {answer : Resp r} (h : RemovesOwned ctx w (some (snap, trace)))
    (hw : w'.env = w.env ∧ w'.made = w.made) (hr : ∀ node found, obsOf r answer ≠ some (.node .management node found)) :
    RemovesOwned ctx w' (some (snap, ⟨r, answer⟩ :: trace)) := by
  rintro _ _ hpass hremoving
  cases hpass
  have hstands : standsOwned ctx w snap.sm = true := by
    refine h snap trace rfl (hremoving.imp id ?_)
    rintro ⟨node, found, hnode, hmem, hrequest⟩
    refine ⟨node, found, hnode, ?_, hrequest⟩
    rw [observed_cons] at hmem
    rcases List.mem_append.mp hmem with hnew | hold
    · exact absurd (Option.mem_toList.mp hnew) (hr _ _)
    · exact hold
  rw [standsOwned, hw.1, hw.2]
  exact hstands

theorem removesOwned_keeps (ctx : Context) :
    (system ctx).Keeps (rules ctx) (fun _ => []) Fresh (fun s a => removesOwned ctx s a = true) (fun _ _ => True)
      (RemovesOwned ctx) where
  base _ _ _ _ h := (nomatch h)
  interfere w pass e _ h _ hok := by
    rintro snap trace hpass hremoving
    have hstands := h snap trace hpass hremoving
    obtain _ | p := pass
    · cases hpass
    · cases hpass
      change standsOwned ctx (interfere e w) p.snap.sm = true
      simpa [removesOwned, hstands] using hok
  start w snap _ _ hsnap hok := by
    rintro _ _ hpass hremoving
    cases hpass
    obtain ⟨sm, hsm, rfl⟩ := Option.map_eq_some_iff.mp hsnap
    rcases hremoving with hatOnce | ⟨_, _, _, hmem, _⟩
    · change standsOwned ctx w sm = true
      simpa [removesOwned, hsm, hatOnce] using hok
    · cases hmem
  answer w snap r k trace f _ h _ hok := by
    cases r with
    | api client call => exact removesOwned_call h hok
    | loc op =>
      refine h.local (by cases op <;> exact ⟨rfl, rfl⟩) fun node found => ?_
      cases op <;> exact nofun
    | timer seconds =>
      refine h.local (by cases f <;> exact ⟨rfl, rfl⟩) fun node found => ?_
      simp only [obsOf]
      split <;> exact nofun
  finish _ _ _ _ _ _ h := (nomatch h)
  kill _ _ _ _ _ _ h := (nomatch h)

theorem removing_of_legal {ctx : Context} {snap : Snapshot} {t : List Obs} {effect : Effect}
    (h : LegalFor ctx snap t effect) (heffect : effect.drains = true ∨ ∃ key, effect = .delete key) :
    Removing snap.sm t := by
  have hreclaim : ∀ {ns node}, Reclaimed (ctx.led snap.leader) snap.sm ns node t → Removing snap.sm t := by
    intro ns node hpath
    obtain ⟨found, hmem, hrequest⟩ := hpath.requested
    exact .inr ⟨node, found, hpath.named, hmem, hrequest⟩
  cases h with
  | deletionDelete path running owned => exact .inl (by simp [removesAtOnce, path.deleting, running])
  | killDelete path clean running owned => exact .inl (by simp [removesAtOnce, path.kill, running])
  | reclaimDelete path marked owned => exact hreclaim path
  | reclaimDrain path marked => exact hreclaim path
  | reclaimEvict path marked listed => exact hreclaim path
  | shutdownDelete path clean owned => exact .inl (by simp [removesAtOnce, path.phase])
  | shutdownDrain path clean machine => exact .inl (by simp [removesAtOnce, path.phase])
  | shutdownEvict path clean machine listed => exact .inl (by simp [removesAtOnce, path.phase])
  | _ => rcases heffect with hdrains | ⟨_, hdelete⟩ <;> contradiction

theorem owned_of_legal_delete {ctx : Context} {snap : Snapshot} {t : List Obs} {key : ObjKey}
    (h : LegalFor ctx snap t (.delete key)) : key ∈ ownedKeys ctx snap.sm := by
  cases h with
  | deletionDelete path running owned => exact owned
  | killDelete path clean running owned => exact owned
  | reclaimDelete path marked owned => exact owned
  | shutdownDelete path clean owned => exact owned

/-- In every such run only what was created for the resource is deleted, and no Node is drained for the
Machine of somebody else. -/
theorem only_owned_removed {ctx : Context} {s : RunState}
    (hs : (system ctx).Reach Fresh (fun s a => removesOwned ctx s a = true) s) {snap : Snapshot} {client : Client}
    {call : ApiCall} {effect : Effect} (hnext : nextCall s = some (snap, client, call))
    (heffect : effectOfCall client call = some effect) : OnlyOwned s.world effect := by
  obtain ⟨trace, hseen, hlegal⟩ := legal_of_nextCall hs hnext
  have hinv := System.Reach.invariant _ (system_conforms ctx) (fun _ _ => trivial) (removesOwned_keeps ctx) hs
  have hstands : (effect.drains = true ∨ ∃ key, effect = .delete key) →
      ∀ key ∈ ownedKeys ctx snap.sm, (s.world.env.object key).isSome = true → s.world.made key = true := by
    intro hstrikes
    exact standsOwned_iff.mp (hinv snap trace hseen (removing_of_legal (hlegal _ heffect) hstrikes))
  constructor
  · rintro key rfl hpresent
    exact hstands (.inr ⟨key, rfl⟩) key (owned_of_legal_delete (hlegal _ heffect)) hpresent
  · intro hdrains hpresent
    have hmachine := ((base_of_reach hs).pass snap trace hseen).machine
    rw [← hmachine] at hpresent ⊢
    exact hstands (.inl hdrains) _ List.mem_cons_self hpresent

/-! ## Two runs -/

def shutDown : List RunAct :=
  .start :: answers 13 ++ [.finish, .interfere (.editSpec disabledSpec), .start] ++ answers 6 ++
    [.finish, .start] ++ answers 4

def deletesMachine (s : RunState) : Bool :=
  (nextCall s).any fun next => match next.2.2 with
    | .delete ar ns name => decide (ar.key ns name = machineKey demoMachine) &&
        (s.world.env.object (machineKey demoMachine)).isSome
    | _ => false

theorem deletesMachine_iff {s : RunState} (h : deletesMachine s = true) : ∃ snap client call,
    nextCall s = some (snap, client, call) ∧ effectOfCall client call = some (.delete (machineKey demoMachine)) ∧
      (s.world.env.object (machineKey demoMachine)).isSome = true := by
  obtain ⟨⟨snap, client, call⟩, hnext, hdeletes⟩ := (Option.any_eq_true _ _).mp h
  refine ⟨snap, client, call, hnext, ?_⟩
  cases call with
  | delete ar ns name =>
    obtain ⟨hkey, hpresent⟩ := Bool.and_eq_true_iff.mp hdeletes
    exact ⟨by rw [← of_decide_eq_true hkey]; rfl, hpresent⟩
  | _ => cases hdeletes

theorem only_owned_removed_shutdown : ∃ s : RunState,
    (s.world.env.object (machineKey demoMachine)).isSome = true ∧ s.world.made (machineKey demoMachine) = true := by
  obtain ⟨s, hs, hdeletes⟩ := System.Reach.exists_of_runWith (system demoContext) (removesOwned demoContext)
    deletesMachine shutDown demoWorld_fresh (by decide +kernel)
  obtain ⟨snap, client, call, hnext, heffect, hpresent⟩ := deletesMachine_iff hdeletes
  exact ⟨s, hpresent, (only_owned_removed hs hnext heffect).deleted _ rfl hpresent⟩

/-- The same cluster with a Machine of that name in it. -/
def takenWorld : World :=
  { demoWorld with env := { demoEnv with
      object := fun key => if key = machineKey demoMachine then some (machineOn "node-7") else demoEnv.object key } }

theorem takenWorld_fresh : Fresh takenWorld :=
  ⟨rfl, rfl, fun _ => rfl, fun _ _ => rfl, rfl, demoMachine, rfl, rfl, rfl, rfl⟩

/-- The Machine that was there before is about to be deleted. -/
theorem foreign_machine_deleted : ¬∀ s : RunState,
    (system demoContext).Reach Fresh (fun _ _ => True) s → ∀ snap client call effect,
      nextCall s = some (snap, client, call) → effectOfCall client call = some effect → OnlyOwned s.world effect := by
  intro howned
  obtain ⟨s, hs, hdeletes⟩ := System.Reach.exists_of_runWith (system demoContext) (fun _ _ => true)
    (fun s => deletesMachine s && !s.world.made (machineKey demoMachine)) (shutDown ++ answers 2) takenWorld_fresh
    (by decide +kernel)
  obtain ⟨hdeletes, hforeign⟩ := Bool.and_eq_true_iff.mp hdeletes
  obtain ⟨snap, client, call, hnext, heffect, hpresent⟩ := deletesMachine_iff hdeletes
  rw [(howned s (hs.mono _ fun _ _ _ => trivial) snap client call _ hnext heffect).deleted _ rfl hpresent] at hforeign
  cases hforeign

end FiveSpot
