import FiveSpot.Cluster.Run
import FiveSpot.Discipline.Reconcile

/-! # Reading the log

The state that matters is recovered from the log: the last phase written, which objects were
created and not deleted since. Every answered call adds one event, and the resource itself always
agrees with what the log says was written to it.
-/

namespace FiveSpot

set_option autoImplicit false

open Interaction

/-! ## What an event did -/

structure PhaseRecord where
  target : Phase
  conditions : List Condition
  time : Time

def Event.phaseWrite : Event → Option PhaseRecord
  | .called time _ _ (.patchStatus _ _ (.phase target _ conditions _ _)) applied _ =>
    if applied then some ⟨target, conditions, time⟩ else none
  | _ => none

def Event.creates : Event → Option ObjKey
  | .called _ _ _ (.create ar ns name _) applied _ => if applied then some (ar.key ns name) else none
  | _ => none

/-- A delete that took effect, or found nothing. -/
def Event.deletes : Event → Option ObjKey
  | .called _ _ _ (.delete ar ns name) applied error =>
    if applied || error.any KubeError.isNotFound then some (ar.key ns name) else none
  | _ => none

def lastPhase (log : List Event) : Option PhaseRecord := log.findSome? Event.phaseWrite

def phaseOf (log : List Event) : Option Phase := (lastPhase log).map (·.target)

/-- Created, and since then neither deleted nor found missing. -/
def undeleted : List Event → ObjKey → Bool
  | [], _ => false
  | e :: earlier, key =>
    if e.deletes = some key then false
    else if e.creates = some key then true
    else undeleted earlier key

def Clean (log : List Event) : Prop := ∀ key, undeleted log key = false

def Event.effect : Event → Option Effect
  | .called _ _ client call _ _ => effectOfCall client call
  | _ => none

/-! ## Moments of the log -/

/-- `P` was true of every event and what was on record before it. -/
def Always (P : Event → List Event → Prop) (log : List Event) : Prop :=
  ∀ e earlier, e :: earlier <:+ log → P e earlier

section

variable {P : Event → List Event → Prop} {e : Event} {log : List Event}

theorem always_nil : Always P [] :=
  fun e earlier h => absurd (List.suffix_nil.mp h) (List.cons_ne_nil e earlier)

theorem Always.suffix {later : List Event} (h : Always P later) (hlog : log <:+ later) : Always P log :=
  fun e earlier he => h e earlier (he.trans hlog)

theorem Always.tail (h : Always P (e :: log)) : Always P log := h.suffix (List.suffix_cons e log)

theorem Always.cons (h : Always P log) (he : P e log) : Always P (e :: log) := by
  intro e' earlier hsuffix
  rcases List.suffix_cons_iff.mp hsuffix with heq | hold
  · cases heq
    exact he
  · exact h e' earlier hold

end

/-! ## One answered call -/

/-- The ways a call can be answered. -/
inductive Served (w : World) (client : Client) (call : ApiCall) : Except KubeError call.Answer → World → Prop
  | done {answer : call.Answer} {after : World} (h : perform w client call = .ok (answer, after)) :
      Served w client call (.ok answer) (w.recordCall client call true none after)
  | refused {e : KubeError} (h : perform w client call = .error e) :
      Served w client call (.error e) (w.recordCall client call false (some e) w)
  | failed (fault : Fault) :
      Served w client call (.error fault.error) (w.recordCall client call false (some fault.error) w)
  | lost (fault : Fault) {answer : call.Answer} {after : World}
      (h : perform w client call = .ok (answer, after)) :
      Served w client call (.error fault.error) (w.recordCall client call true (some fault.error) after)

theorem served (w : World) (client : Client) (call : ApiCall) (fate : Fate) :
    Served w client call (serveApi w client call fate).1 (serveApi w client call fate).2 := by
  unfold serveApi
  split
  · exact .failed _
  · exact .done ‹_›
  · exact .refused ‹_›
  · exact .lost _ ‹_›
  · exact .failed _

theorem serveApi_keeps {P : World → Prop} {w : World} {client : Client} {call : ApiCall}
    (hrecord : ∀ w event, P w → P (w.record event)) (hw : P w)
    (hperform : ∀ answer after, perform w client call = .ok (answer, after) → P after) (fate : Fate) :
    P (serveApi w client call fate).2 := by
  have h := served w client call fate
  generalize (serveApi w client call fate).1 = answer at h
  generalize (serveApi w client call fate).2 = after at h ⊢
  cases h with
  | done h => exact hrecord _ _ (hperform _ _ h)
  | refused h => exact hrecord _ _ hw
  | failed fault => exact hrecord _ _ hw
  | lost fault h => exact hrecord _ _ (hperform _ _ h)

/-- What a call does to the resource when it is carried out. -/
def ApiCall.onSm : ApiCall → ScheduledMachine → Option ScheduledMachine
  | .patchStatus _ _ body, sm => some (sm.patchStatus body)
  | .patchFinalizers _ _ finalizers, sm => sm.setFinalizers finalizers
  | .patchEnabled _ _ value, sm => some (sm.setEnabled value)
  | _, sm => some sm

theorem orNotFound_eq_ok {α β : Type} {found : Option α} {f : α → β} {b : β}
    (h : orNotFound found f = .ok b) : ∃ a, found = some a ∧ f a = b := by
  cases found with
  | none => cases h
  | some a => cases h; exact ⟨a, rfl, rfl⟩

theorem create_eq_ok {w after : World} {client : Client} {ar : ApiResource} {ns name : String} {body : Json}
    {answer : Unit} (h : perform w client (.create ar ns name body) = .ok (answer, after)) :
    w.env.serves ar = true ∧ w.env.object (ar.key ns name) = none ∧ after = w.addObject (ar.key ns name) body := by
  simp only [perform] at h
  split at h
  · rename_i hserves
    split at h
    · cases h
    · rename_i hnone
      cases h
      exact ⟨hserves, hnone, rfl⟩
  · cases h

theorem object_of_stored {w : World} {ar : ApiResource} {ns name : String} {value : Json}
    (h : w.stored ar ns name = some value) : w.env.serves ar = true ∧ w.env.object (ar.key ns name) = some value := by
  unfold World.stored at h
  split at h
  · exact ⟨‹_›, h⟩
  · cases h

theorem applyNodeTaints_eq_ok {w after : World} {client : Client} {name ownership : String} {taints : List Taint}
    {answer : Unit} (h : perform w client (.applyNodeTaints name ownership taints) = .ok (answer, after)) :
    ∃ node, w.env.node client name = some node ∧ ∃ distinct : DistinctTaints taints,
      after = { w.setNode client name (node.setTaints ownership taints distinct) with
        ours := fun c n => if c = client ∧ n = name then
          taintsAfterApply node.taints (w.ours c n) (taints.map Taint.stored) else w.ours c n
        lost := (taintsLost node.taints (w.ours client name) (taints.map Taint.stored)).map (fun t => (client, name, t)) ++
          w.lost } := by
  simp only [perform] at h
  split at h
  · cases h
  · rename_i node hnode
    split at h
    · rename_i distinct
      cases h
      exact ⟨node, hnode, distinct, rfl⟩
    · cases h

theorem sm_of_findSm {w : World} {client : Client} {ns name : String} {sm : ScheduledMachine}
    (h : w.findSm client ns name = some sm) : w.sm = some sm := by
  unfold World.findSm at h
  split at h
  · exact (Option.filter_eq_some_iff.mp h).1
  · cases h

theorem perform_frame {w after : World} {client : Client} {call : ApiCall} {answer : call.Answer}
    (h : perform w client call = .ok (answer, after)) :
    after.sm = w.sm.bind call.onSm ∧ after.now = w.now ∧ after.log = w.log ∧ after.machine = w.machine := by
  have hsame : w.sm = w.sm.bind some := by cases w.sm <;> rfl
  cases call with
  | patchStatus ns name body =>
    obtain ⟨sm, hsm, heq⟩ := orNotFound_eq_ok h
    cases heq
    rw [sm_of_findSm hsm]
    exact ⟨rfl, rfl, rfl, rfl⟩
  | patchFinalizers ns name finalizers =>
    obtain ⟨sm, hsm, heq⟩ := orNotFound_eq_ok h
    cases heq
    rw [sm_of_findSm hsm]
    exact ⟨rfl, rfl, rfl, rfl⟩
  | patchEnabled ns name value =>
    obtain ⟨sm, hsm, heq⟩ := orNotFound_eq_ok h
    cases heq
    rw [sm_of_findSm hsm]
    exact ⟨rfl, rfl, rfl, rfl⟩
  | create ar ns name body =>
    obtain ⟨-, -, rfl⟩ := create_eq_ok h
    exact ⟨hsame, rfl, rfl, rfl⟩
  | deleteConfigMap ns name =>
    simp only [perform] at h
    split at h
    · cases h
      exact ⟨hsame, rfl, rfl, rfl⟩
    · cases h
  | applyNodeTaints name ownership taints =>
    obtain ⟨node, -, distinct, rfl⟩ := applyNodeTaints_eq_ok h
    exact ⟨hsame, rfl, rfl, rfl⟩
  | delete | get | pinnedKind | getSecret | getNode | patchNode =>
    obtain ⟨_, _, heq⟩ := orNotFound_eq_ok h
    cases heq
    exact ⟨hsame, rfl, rfl, rfl⟩
  | publishEvent | accessReview | listPods | deletePod | applyConfigMap | configMapExists |
    secretExists | namespaceExists =>
    cases h
    exact ⟨hsame, rfl, rfl, rfl⟩

theorem perform_static {w after : World} {client : Client} {call : ApiCall} {answer : call.Answer}
    (h : perform w client call = .ok (answer, after)) :
    after.env.serves = w.env.serves ∧ after.env.secret = w.env.secret ∧ after.memory = w.memory := by
  cases call with
  | create ar ns name body =>
    obtain ⟨-, -, rfl⟩ := create_eq_ok h
    exact ⟨rfl, rfl, rfl⟩
  | applyNodeTaints name ownership taints =>
    obtain ⟨node, -, distinct, rfl⟩ := applyNodeTaints_eq_ok h
    exact ⟨rfl, rfl, rfl⟩
  | deleteConfigMap ns name =>
    simp only [perform] at h
    split at h
    · cases h
      exact ⟨rfl, rfl, rfl⟩
    · cases h
  | patchStatus | patchFinalizers | patchEnabled | delete | get | pinnedKind | getSecret | getNode | patchNode =>
    obtain ⟨_, _, heq⟩ := orNotFound_eq_ok h
    cases heq
    exact ⟨rfl, rfl, rfl⟩
  | publishEvent | accessReview | listPods | deletePod | applyConfigMap | configMapExists |
    secretExists | namespaceExists =>
    cases h
    exact ⟨rfl, rfl, rfl⟩

/-- Only creates and deletes touch objects. -/
inductive ObjectEffect (w : World) (call : ApiCall) (after : World) : Prop
  | created {ar : ApiResource} {ns name : String} {body : Json} (call : call = .create ar ns name body)
      (absent : w.env.object (ar.key ns name) = none) (after : after = w.addObject (ar.key ns name) body)
  | deleted {ar : ApiResource} {ns name : String} (call : call = .delete ar ns name)
      (present : (w.env.object (ar.key ns name)).isSome = true) (after : after = w.terminate (ar.key ns name))
  | kept (object : after.env.object = w.env.object) (terminating : after.env.terminating = w.env.terminating)
      (made : after.made = w.made)

theorem objectEffect_of_perform {w after : World} {client : Client} {call : ApiCall} {answer : call.Answer}
    (h : perform w client call = .ok (answer, after)) : ObjectEffect w call after := by
  cases call with
  | create ar ns name body =>
    obtain ⟨-, habsent, hafter⟩ := create_eq_ok h
    exact .created rfl habsent hafter
  | delete ar ns name =>
    obtain ⟨object, hstored, heq⟩ := orNotFound_eq_ok h
    cases heq
    exact .deleted rfl (by rw [(object_of_stored hstored).2]; rfl) rfl
  | applyNodeTaints name ownership taints =>
    obtain ⟨node, -, distinct, rfl⟩ := applyNodeTaints_eq_ok h
    exact .kept rfl rfl rfl
  | deleteConfigMap ns name =>
    simp only [perform] at h
    split at h
    · cases h
      exact .kept rfl rfl rfl
    · cases h
  | patchStatus | patchFinalizers | patchEnabled | get | pinnedKind | getSecret | getNode | patchNode =>
    obtain ⟨_, _, heq⟩ := orNotFound_eq_ok h
    cases heq
    exact .kept rfl rfl rfl
  | publishEvent | accessReview | listPods | deletePod | applyConfigMap | configMapExists |
    secretExists | namespaceExists =>
    cases h
    exact .kept rfl rfl rfl

/-- What is on record about an answered call: the event, and how answer and resource fit it. -/
structure Answered (w : World) (client : Client) (call : ApiCall) (answer : Except KubeError call.Answer)
    (after : World) (applied : Bool) (error : Option KubeError) : Prop where
  log : after.log = .called w.now w.bound client call applied error :: w.log
  now : after.now = w.now
  sm : after.sm = if applied then w.sm.bind call.onSm else w.sm
  machine : after.machine = w.machine
  ok : succeeded answer = true → applied = true
  error : ∀ e, answer = .error e → error = some e

theorem exists_answered (w : World) (client : Client) (call : ApiCall) (fate : Fate) :
    ∃ applied error, Answered w client call (serve w (.api client call) fate).1
      (serve w (.api client call) fate).2 applied error := by
  change ∃ applied error, Answered w client call (serveApi w client call fate).1
    (serveApi w client call fate).2 applied error
  have h := served w client call fate
  generalize (serveApi w client call fate).1 = answer at h ⊢
  generalize (serveApi w client call fate).2 = after at h ⊢
  cases h with
  | done h =>
    obtain ⟨hsm, hnow, hlog, hmachine⟩ := perform_frame h
    exact ⟨true, none, congrArg _ hlog, hnow, hsm, hmachine, fun _ => rfl, fun _ he => (nomatch he)⟩
  | refused h => exact ⟨false, _, rfl, rfl, rfl, rfl, fun h => (nomatch h), fun _ he => by cases he; rfl⟩
  | failed fault => exact ⟨false, _, rfl, rfl, rfl, rfl, fun h => (nomatch h), fun _ he => by cases he; rfl⟩
  | lost fault h =>
    obtain ⟨hsm, hnow, hlog, hmachine⟩ := perform_frame h
    exact ⟨true, _, congrArg _ hlog, hnow, hsm, hmachine, fun h => (nomatch h), fun _ he => by cases he; rfl⟩

theorem performLocal_frame (w : World) (op : LocalOp) :
    (performLocal w op).2.sm = w.sm ∧ (performLocal w op).2.now = w.now ∧
      (performLocal w op).2.log = w.log ∧ (performLocal w op).2.env = w.env ∧
      (performLocal w op).2.ours = w.ours := by
  cases op <;> exact ⟨rfl, rfl, rfl, rfl, rfl⟩

theorem serve_loc_machine (w : World) (op : LocalOp) (fate : Fate) : (serve w (.loc op) fate).2.machine = w.machine := by
  cases op <;> rfl

theorem serve_timer_machine (w : World) (seconds : Nat) (fate : Fate) :
    (serve w (.timer seconds) fate).2.machine = w.machine := by
  cases fate <;> rfl

theorem serve_timer_frame (w : World) (seconds : Nat) (fate : Fate) :
    (serve w (.timer seconds) fate).2.sm = w.sm ∧ (serve w (.timer seconds) fate).2.now = w.now ∧
      ((serve w (.timer seconds) fate).1 = true ∧
          (serve w (.timer seconds) fate).2.log = .timedOut :: w.log ∨
        (serve w (.timer seconds) fate).1 = false ∧ (serve w (.timer seconds) fate).2.log = w.log) := by
  cases fate with
  | ok => exact ⟨rfl, rfl, .inr ⟨rfl, rfl⟩⟩
  | fail _ => exact ⟨rfl, rfl, .inl ⟨rfl, rfl⟩⟩
  | lost _ => exact ⟨rfl, rfl, .inl ⟨rfl, rfl⟩⟩

/-! ## The rules along a run -/

def rules (ctx : Context) (snap : Snapshot) : Monitor Resp (List Obs) :=
  discipline (ctx.led snap.leader) snap.sm

def observed (trace : List (Sigma Resp)) : List Obs := trace.flatMap fun event => (obsOf event.1 event.2).toList

@[simp] theorem observed_nil : observed [] = [] := rfl

@[simp] theorem observed_cons (r : Req) (answer : Resp r) (trace : List (Sigma Resp)) :
    observed (⟨r, answer⟩ :: trace) = (obsOf r answer).toList ++ observed trace := rfl

@[simp] theorem rules_after (ctx : Context) (snap : Snapshot) (trace : List (Sigma Resp)) :
    (rules ctx snap).after [] trace = observed trace := by
  induction trace with
  | nil => rfl
  | cons event trace ih =>
    obtain ⟨r, answer⟩ := event
    rw [Monitor.after_cons, ih]
    rfl

theorem system_conforms (ctx : Context) (snap : Snapshot) :
    Conforms (rules ctx snap) ((system ctx).program snap)
      (Outcome (ctx.led snap.leader) snap.sm) [] :=
  conforms_reconcileScheduledMachine _ _

end FiveSpot
