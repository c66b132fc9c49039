import FiveSpot.Discipline.Requests
import FiveSpot.Discipline.Seen

/-! # Helpers under the rules

One rule per helper of the reconciler: what the monitor has to allow for it, and what has been
observed when it returns.
-/

namespace FiveSpot

set_option autoImplicit false

open Interaction

variable {ctx : Context} {sm : ScheduledMachine} {t : List Obs} {α : Type}

theorem requireNamespace_eq_ok {ns' : String} (h : requireNamespace sm = .ok ns') :
    sm.metadata.ns = some ns' := by
  unfold requireNamespace at h
  split at h
  · rename_i hns
    cases h
    exact hns
  · cases h

/-! ## Where an observation comes from -/

inductive ObsSource (client : Client) : (call : ApiCall) → Except KubeError call.Answer → Obs → Prop
  | created (ar : ApiResource) (ns name : String) (body : Json) (a : Unit) :
      ObsSource client (.create ar ns name body) (.ok a) (.created (ar.key ns name))
  | existed (ar : ApiResource) (ns name : String) (body : Json) (e : KubeError) (he : e.isAlreadyExists = true) :
      ObsSource client (.create ar ns name body) (.error e) (.created (ar.key ns name))
  | deleted (ar : ApiResource) (ns name : String) (a : Unit) :
      ObsSource client (.delete ar ns name) (.ok a) (.cleared (ar.key ns name))
  | missing (ar : ApiResource) (ns name : String) (e : KubeError) (he : e.isNotFound = true) :
      ObsSource client (.delete ar ns name) (.error e) (.cleared (ar.key ns name))
  | phase (ns name : String) (target : Phase) (message : String) (conditions : List Condition) (inSchedule ready : Bool)
      (answer : Except KubeError Unit) :
      ObsSource client (.patchStatus ns name (.phase target message conditions inSchedule ready)) answer
        (.phase target (succeeded answer))
  | scheduled (ns name : String) (s : SpotScheduleStatus) (answer : Except KubeError Unit) :
      ObsSource client (.patchStatus ns name (.spotSchedule s)) answer .scheduled
  | recorded (ns name : String) (applied : List NodeTaint) (answer : Except KubeError Unit) :
      ObsSource client (.patchStatus ns name (.appliedNodeTaints applied)) answer (.recorded (succeeded answer))
  | enabled (ns name : String) (value : Bool) (answer : Except KubeError Unit) :
      ObsSource client (.patchEnabled ns name value) answer (.enabled value (succeeded answer))
  | node (name : String) (node : Node) : ObsSource client (.getNode name) (.ok node) (.node client name (some node))
  | noNode (name : String) (e : KubeError) (he : e.isNotFound = true) :
      ObsSource client (.getNode name) (.error e) (.node client name none)
  | object (ar : ApiResource) (ns name : String) (value : Json) :
      ObsSource client (.get ar ns name) (.ok value) (.object (ar.key ns name) value)
  | pods (node : String) (pods : List Pod) : ObsSource client (.listPods node) (.ok pods) (.pods client node)
  | pinned (group version kind : String) (ar : ApiResource) :
      ObsSource client (.pinnedKind group version kind) (.ok ar) .pinned
  | tainted (name ownership : String) (taints : List Taint) (answer : Except KubeError Unit) :
      ObsSource client (.applyNodeTaints name ownership taints) answer (.tainted client name (succeeded answer))
  | other (call : ApiCall) (answer : Except KubeError call.Answer) : ObsSource client call answer .other

theorem obsSource {client : Client} {call : ApiCall} {answer : Except KubeError call.Answer} {o : Obs}
    (h : obsOfCall client call answer = o) : ObsSource client call answer o := by
  subst h
  cases call with
  | create ar ns name body =>
    cases answer with
    | ok a => exact .created ar ns name body a
    | error e =>
      simp only [obsOfCall]
      split
      · exact .existed ar ns name body e ‹_›
      · exact .other _ _
  | delete ar ns name =>
    cases answer with
    | ok a => exact .deleted ar ns name a
    | error e =>
      simp only [obsOfCall]
      split
      · exact .missing ar ns name e ‹_›
      · exact .other _ _
  | getNode name =>
    cases answer with
    | ok node => exact .node name node
    | error e =>
      simp only [obsOfCall]
      split
      · exact .noNode name e ‹_›
      · exact .other _ _
  | patchStatus ns name body =>
    cases body with
    | phase target message conditions inSchedule ready =>
      exact .phase ns name target message conditions inSchedule ready answer
    | spotSchedule s => exact .scheduled ns name s answer
    | machineRefs providerId nodeRef => exact .other _ _
    | appliedNodeTaints applied => exact .recorded ns name applied answer
  | patchEnabled ns name value => exact .enabled ns name value answer
  | applyNodeTaints name ownership taints => exact .tainted name ownership taints answer
  | get ar ns name =>
    cases answer with
    | ok value => exact .object ar ns name value
    | error e => exact .other _ _
  | listPods node =>
    cases answer with
    | ok pods => exact .pods node pods
    | error e => exact .other _ _
  | pinnedKind group version kind =>
    cases answer with
    | ok ar => exact .pinned group version kind ar
    | error e => exact .other _ _
  | _ => exact .other _ _

/-! ## Requests without effect -/

abbrev Harmless (p : Ctl α) : Prop := p.Issues fun r => effectOf r = none

theorem permits_harmless : PermitsReads fun r => effectOf r = none where
  call _ _ heffect _ := heffect
  loc _ _ := rfl

theorem obsOfCall_isRead {client : Client} {call : ApiCall}
    (answer : Except KubeError call.Answer) (hcall : effectOfCall client call = none) :
    (obsOfCall client call answer).isRead = true := by
  generalize hobs : obsOfCall client call answer = o
  cases obsSource hobs with
  | node | noNode | object | pods | pinned | other => rfl
  | _ => cases hcall

theorem obsOf_isRead {r : Req} {answer : Resp r} {o : Obs} (hr : effectOf r = none)
    (ho : obsOf r answer = some o) : o.isRead = true := by
  cases r with
  | api client call =>
    cases ho
    exact obsOfCall_isRead answer hr
  | loc op =>
    cases op with
    | utcNow => cases ho; rfl
    | _ => cases ho
  | timer seconds =>
    cases answer with
    | true => cases ho; rfl
    | false => cases ho

theorem conforms_of_harmless {p : Ctl α} {Q : Except ReconcilerError α → List Obs → Prop}
    (hp : Harmless p) (hQ : ∀ x u, Read t u → Q x u) : Conforms (discipline ctx sm) p Q t := by
  refine conforms_of_issues Seen.refl Seen.trans (fun r hr u _ => ⟨?_, fun answer => ?_⟩) hp hQ
  · intro effect heffect
    rw [hr] at heffect
    cases heffect
  · cases ho : obsOf r answer with
    | none => simpa [discipline, ho] using Seen.refl u
    | some o => simpa [discipline, ho] using Seen.cons (obsOf_isRead hr ho) u

theorem conforms_bind_harmless {β : Type} {p : Ctl α} {f : α → Ctl β}
    {Q : Except ReconcilerError β → List Obs → Prop} (hp : Harmless p)
    (hok : ∀ a u, Read t u → Conforms (discipline ctx sm) (f a) Q u)
    (herror : ∀ e u, Read t u → Q (.error e) u) : Conforms (discipline ctx sm) (p.bind f) Q t := by
  rw [conforms_bind]
  refine conforms_of_harmless hp fun x u hu => ?_
  cases x with
  | ok a => exact hok a u hu
  | error e => exact herror e u hu

theorem conforms_bind_ofExcept {β : Type} {x : Except ReconcilerError α} {f : α → Ctl β}
    {Q : Except ReconcilerError β → List Obs → Prop}
    (hok : ∀ a, x = .ok a → Conforms (discipline ctx sm) (f a) Q t)
    (herror : ∀ e, x = .error e → Q (.error e) t) :
    Conforms (discipline ctx sm) ((Prog.ofExcept x).bind f) Q t := by
  rw [conforms_bind, conforms_ofExcept]
  cases x with
  | ok a => exact hok a rfl
  | error e => exact herror e rfl

@[simp] theorem conforms_bestEffort {p : Ctl α} {Q : Except ReconcilerError Unit → List Obs → Prop} :
    Conforms (discipline ctx sm) (bestEffort p) Q t ↔
      Conforms (discipline ctx sm) p (fun _ => Q (.ok ())) t := by
  rw [bestEffort, conforms_bind, conforms_attempt]
  rfl

theorem harmless_local (op : LocalOp) : Harmless (local_ op) := issues_local rfl

theorem harmless_recordReclaim (ns name : String) : Harmless (recordReclaim ns name) :=
  issues_recordReclaim permits_harmless (fun _ => rfl) ns name

theorem harmless_provisionReclaimAgentBestEffort (sm : ScheduledMachine) (nodeRef : Option NodeRef) :
    Harmless (provisionReclaimAgentBestEffort sm nodeRef) :=
  issues_withNode permits_harmless sm nodeRef fun _ _ => issues_reconcileReclaimAgentProvision (fun _ => id) _ _

theorem harmless_provisionKataConfigBestEffort (sm : ScheduledMachine) (nodeRef : Option NodeRef) :
    Harmless (provisionKataConfigBestEffort sm nodeRef) :=
  issues_withNode permits_harmless sm nodeRef fun _ _ =>
    (issues_reconcileKataConfigDelivery (fun _ => id) _ _).bind fun _ => trivial

end FiveSpot
