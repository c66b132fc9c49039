import FiveSpot.Cluster.Run
import FiveSpot.Retry

/-! # Revisits

Whatever a pass finds and however its calls are answered, it ends with a timer, unless another replica answers for the
resource or the resource is on its way out.
-/

namespace FiveSpot

set_option autoImplicit false

open Interaction

namespace Interaction.Prog

variable {Req : Type} {Resp : Req → Type} {ε ε' α β : Type}

/-- Every value the program can return, whatever the answers, satisfies `Q`. -/
def Returns (Q : α → Prop) : Prog Resp ε α → Prop
  | .pure a => Q a
  | .fail _ => True
  | .call _ k => ∀ answer, (k answer).Returns Q

theorem Returns.bind {Q : β → Prop} {P : α → Prop} {p : Prog Resp ε α} {f : α → Prog Resp ε β} (hp : p.Returns P)
    (hf : ∀ a, P a → (f a).Returns Q) : (p.bind f).Returns Q := by
  induction p with
  | pure a => exact hf a hp
  | fail e => trivial
  | call r k ih => exact fun answer => ih answer (hp answer)

theorem returns_any (p : Prog Resp ε α) : p.Returns fun _ => True := by
  induction p with
  | pure a => trivial
  | fail e => trivial
  | call r k ih => exact fun answer => ih answer

theorem returns_bind {Q : β → Prop} {p : Prog Resp ε α} {f : α → Prog Resp ε β} (hf : ∀ a, (f a).Returns Q) :
    (p.bind f).Returns Q := (returns_any p).bind fun a _ => hf a

theorem Returns.of_runs {Q : α → Prop} {W : Type} {serves : W → (r : Req) → Resp r → W → Prop} {p : Prog Resp ε α}
    (hp : p.Returns Q) {w w' : W} {x : Except ε α} (h : p.Runs serves w w' x) {a : α} (hx : x = .ok a) : Q a := by
  induction h with
  | pure b =>
    cases hx
    exact hp
  | fail e => cases hx
  | call _ _ ih => exact ih (hp _) hx

end Interaction.Prog

/-! ## What handlers return -/

/-- A pass that has work to do comes back after one of the two fixed intervals. -/
def Timed : Action → Prop
  | .requeue seconds => seconds = Constants.timerRequeueSecs ∨ seconds = Constants.errorRequeueSecs
  | .awaitChange => False

section

variable {ctx : Context} {sm : ScheduledMachine} {ns : String} {α : Type}

theorem timed_after (p : Ctl α) : (p.bind fun _ => .pure (.requeue Constants.timerRequeueSecs)).Returns Timed :=
  Prog.returns_bind fun _ => .inl rfl

theorem timed_after_error (p : Ctl α) : (p.bind fun _ => .pure (.requeue Constants.errorRequeueSecs)).Returns Timed :=
  Prog.returns_bind fun _ => .inr rfl

theorem timed_handlePendingPhase (shouldBeActive : Bool) : (handlePendingPhase ctx sm shouldBeActive).Returns Timed := by
  refine Prog.returns_bind fun ns => ?_
  split
  · exact timed_after _
  · split
    · exact timed_after _
    · refine Prog.returns_bind fun outcome => ?_
      cases outcome with
      | error e => exact timed_after_error _
      | ok => exact timed_after _

theorem timed_handleActivePhase (shouldBeActive : Bool) : (handleActivePhase ctx sm shouldBeActive).Returns Timed := by
  refine Prog.returns_bind fun ns => ?_
  split
  · exact timed_after _
  · split
    · exact timed_after _
    · exact timed_after _

theorem timed_handleShuttingDownPhase : (handleShuttingDownPhase ctx sm).Returns Timed := by
  refine Prog.returns_bind fun ns => Prog.returns_bind fun elapsed => ?_
  split
  · refine Prog.returns_bind fun _ => Prog.returns_bind fun outcome => ?_
    cases outcome with
    | error e => exact timed_after_error _
    | ok => exact timed_after _
  · exact .inl rfl

theorem timed_dispatchPhase (shouldBeActive : Bool) : (dispatchPhase ctx sm shouldBeActive).Returns Timed := by
  unfold dispatchPhase
  split
  · exact timed_handleActivePhase _
  · exact timed_handleShuttingDownPhase
  · refine Prog.returns_bind fun ns => ?_
    split
    · exact .inl rfl
    · split
      · exact .inl rfl
      · exact timed_after _
  · refine Prog.returns_bind fun ns => ?_
    split
    · exact timed_after _
    · exact .inl rfl
  · exact .inl rfl
  · exact Prog.returns_bind fun ns => timed_after _
  · exact timed_after_error _
  · exact timed_handlePendingPhase _
  · exact timed_handlePendingPhase _
  · exact timed_handlePendingPhase _

theorem timed_handleEmergencyRemove (nodeName : String) (request : ReclaimRequest) :
    (handleEmergencyRemove ctx sm nodeName request).Returns Timed := by
  refine Prog.returns_bind fun ns => Prog.returns_bind fun _ => Prog.returns_bind fun _ => Prog.returns_bind fun _ => ?_
  refine Prog.returns_bind fun child => Prog.returns_bind fun _ => Prog.returns_bind fun _ => Prog.returns_bind fun _ => ?_
  refine Prog.returns_bind fun _ => Prog.returns_bind fun _ => timed_after _

/-- A reclaim that is carried out ends the pass with its own timer. -/
theorem timed_checkEmergencyReclaim : (checkEmergencyReclaim ctx sm).Returns fun action => ∀ a ∈ action, Timed a := by
  have hnone : ∀ a ∈ (none : Option Action), Timed a := fun _ h => (nomatch h)
  unfold checkEmergencyReclaim
  split
  · exact hnone
  · refine Prog.returns_bind fun answer => ?_
    split
    · split
      · exact hnone
      · trivial
    · split
      · exact hnone
      · refine (timed_handleEmergencyRemove _ _).bind fun action haction a ha => ?_
        cases ha
        exact haction

theorem timed_reconcileInner : (reconcileInner ctx sm).Returns Timed := by
  refine Prog.returns_bind fun ns => Prog.returns_bind fun _ => ?_
  split
  · exact Prog.returns_bind fun ns => Prog.returns_bind fun _ => timed_after _
  · refine timed_checkEmergencyReclaim.bind fun action haction => ?_
    cases action with
    | some action => exact haction action rfl
    | none => exact Prog.returns_bind fun verdict => Prog.returns_bind fun _ => timed_dispatchPhase _

end

/-! ## When a pass comes back -/

/-- The resource is this replica's to reconcile. -/
def assigned (ctx : Context) (sm : ScheduledMachine) : Bool :=
  ctx.isLeader && shouldProcessResource ctx sm.metadata.name (sm.metadata.ns.getD "") sm.spec.priority

/-- How soon a pass over the resource returns to it, by the way it goes. -/
def ReturnsTo (ctx : Context) (sm : ScheduledMachine) (action : Action) : Prop :=
  if assigned ctx sm && !sm.deleting then
    if hasFinalizer sm then Timed action else action = .requeue 0
  else action = .awaitChange

theorem returnsTo_reconcileGuarded {ctx : Context} {sm : ScheduledMachine} {ns : String} (hns : sm.metadata.ns = some ns) :
    (reconcileGuarded ctx sm ns).Returns (ReturnsTo ctx sm) := by
  have hassigned : assigned ctx sm = (ctx.isLeader && shouldProcessResource ctx sm.metadata.name ns sm.spec.priority) := by
    rw [assigned, hns, Option.getD_some]
  unfold reconcileGuarded ReturnsTo
  rw [hassigned]
  cases ctx.isLeader with
  | false => exact rfl
  | true =>
    cases shouldProcessResource ctx sm.metadata.name ns sm.spec.priority with
    | false => exact rfl
    | true =>
      cases sm.deleting with
      | true => exact Prog.returns_bind fun _ => Prog.returns_bind fun _ => Prog.returns_bind fun _ => rfl
      | false =>
        cases hasFinalizer sm with
        | false => exact Prog.returns_bind fun _ => Prog.returns_bind fun _ => rfl
        | true => exact timed_reconcileInner

theorem returnsTo_reconcileScheduledMachine (ctx : Context) (sm : ScheduledMachine) :
    (reconcileScheduledMachine ctx sm).Returns (ReturnsTo ctx sm) := by
  unfold reconcileScheduledMachine
  rw [requireNamespace]
  cases hns : sm.metadata.ns with
  | none => trivial
  | some ns => exact returnsTo_reconcileGuarded hns

/-! ## Whatever happened before -/

/-- What the runtime does after a pass: the action it returned, or that of the error policy. -/
def FinishedPass.next (p : FinishedPass) (history : List FinishedPass) : Action :=
  match p.result with
  | .ok action => action
  | .error _ => requeueAfter history p.sm

theorem computeBackoffSecs_le (retryCount : Nat) : computeBackoffSecs retryCount ≤ Constants.maxBackoffSecs := by
  unfold computeBackoffSecs
  split
  · exact Nat.le_refl _
  · exact Nat.min_le_right _ _

theorem requeueAfter_bounded (history : List FinishedPass) (sm : ScheduledMachine) :
    ∃ seconds, requeueAfter history sm = .requeue seconds ∧ seconds ≤ Constants.maxBackoffSecs := by
  unfold requeueAfter errorPolicy
  split
  · exact ⟨_, rfl, by decide⟩
  · exact ⟨_, rfl, computeBackoffSecs_le _⟩

theorem Timed.bounded {action : Action} (h : Timed action) :
    ∃ seconds, action = .requeue seconds ∧ seconds ≤ Constants.maxBackoffSecs := by
  cases action with
  | awaitChange => cases h
  | requeue seconds =>
    refine ⟨seconds, rfl, ?_⟩
    rcases h with rfl | rfl <;> decide

/-- After any passes over any resources, and however the calls of this one were answered: the resource is left to its
next change exactly when the pass returned and another replica answers for the resource or it is being deleted. Otherwise
a timer brings the controller back within five minutes. -/
theorem revisited (history : List FinishedPass) (p : FinishedPass) :
    (p.next history = .awaitChange ↔ (assigned p.ctx p.sm && !p.sm.deleting) = false ∧ ∃ action, p.result = .ok action) ∧
      (p.next history ≠ .awaitChange → ∃ seconds, p.next history = .requeue seconds ∧ seconds ≤ Constants.maxBackoffSecs) := by
  have hreturns : ∀ action, p.result = .ok action → ReturnsTo p.ctx p.sm action :=
    fun action h => (returnsTo_reconcileScheduledMachine p.ctx p.sm).of_runs p.ends h
  cases hresult : p.result with
  | error e =>
    obtain ⟨seconds, hseconds, hbound⟩ := requeueAfter_bounded history p.sm
    have hnext : p.next history = .requeue seconds := by rw [FinishedPass.next, hresult, ← hseconds]
    rw [hnext]
    refine ⟨⟨fun h => (nomatch h), ?_⟩, fun _ => ⟨seconds, rfl, hbound⟩⟩
    rintro ⟨-, action, ⟨⟩⟩
  | ok action =>
    have hnext : p.next history = action := by rw [FinishedPass.next, hresult]
    have hto := hreturns action hresult
    rw [hnext]
    unfold ReturnsTo at hto
    cases hours : assigned p.ctx p.sm && !p.sm.deleting with
    | false =>
      rw [hours] at hto
      have hawait : action = .awaitChange := hto
      exact ⟨⟨fun _ => ⟨rfl, action, rfl⟩, fun _ => hawait⟩, fun hne => absurd hawait hne⟩
    | true =>
      rw [hours, if_pos rfl] at hto
      have hbounded : ∃ seconds, action = .requeue seconds ∧ seconds ≤ Constants.maxBackoffSecs := by
        split at hto
        · exact hto.bounded
        · exact ⟨0, hto, Nat.zero_le _⟩
      obtain ⟨seconds, rfl, hbound⟩ := hbounded
      refine ⟨⟨fun h => (nomatch h), ?_⟩, fun _ => ⟨seconds, rfl, hbound⟩⟩
      rintro ⟨⟨⟩, -⟩

end FiveSpot
