import FiveSpot.Helpers.Drain
import FiveSpot.Interaction.Trace

/-! # What a drain promises (`drain_node_with_timeout`, `evict_pod`, `should_evict_pod`, `cordon_node`)

A drain cordons the Node first and spares what is completed or belongs to a DaemonSet. When it returns, the other
pods are gone or on their way. It removes them with a plain DELETE, which asks no disruption budget.
-/

namespace FiveSpot

set_option autoImplicit false

open Interaction

/-! ## Pods and their removals -/

def Pod.key (pod : Pod) : String × String := (pod.ns.getD "default", pod.name.getD "unknown")

def Pod.completed (pod : Pod) : Bool := pod.phase == some "Succeeded" || pod.phase == some "Failed"

def Pod.ownedByDaemonSet (pod : Pod) : Bool := (pod.ownerKinds.getD []).contains "DaemonSet"

/-- The pod a step is meant to remove. -/
def removalOf : Sigma Resp → Option (String × String)
  | ⟨.api _ (.deletePod ns name _), _⟩ => some (ns, name)
  | _ => none

def accepted : Sigma Resp → Bool
  | ⟨.api _ (.deletePod _ _ _), .ok _⟩ => true
  | _ => false

/-- The pod had been gone before. -/
def alreadyGone : Sigma Resp → Bool
  | ⟨.api _ (.deletePod _ _ _), .error e⟩ => e.isNotFound
  | _ => false

/-- `exhausted` says, for the number of calls made so far, which pods have a disruption budget that allows no
disruption at that moment. -/
structure DrainContract (client : Client) (nodeName : String) (pods : List Pod) (exhausted : Nat → String × String → Bool)
    (steps : List (Sigma Resp)) (x : Except ReconcilerError Unit) : Prop where
  cordoned : ∀ (i : Nat) step key, steps[i]? = some step → removalOf step = some key →
    ∃ k < i, steps[k]? = some ⟨.api client (.patchNode nodeName cordonPatch), .ok ()⟩
  spared : ∀ step ∈ steps, ∀ key, removalOf step = some key →
    ∃ pod ∈ pods, pod.key = key ∧ pod.completed = false ∧ pod.ownedByDaemonSet = false
  budgets : ∀ (i : Nat) step key, steps[i]? = some step → removalOf step = some key → accepted step = true →
    exhausted i key = false
  complete : x = .ok () → ∀ pod ∈ pods, pod.completed = false → pod.ownedByDaemonSet = false →
    ∃ step ∈ steps, removalOf step = some pod.key ∧ (accepted step = true ∨ alreadyGone step = true)

/-- What has been listed of a Node is this. -/
def Lists (client : Client) (nodeName : String) (pods : List Pod) (steps : List (Sigma Resp)) : Prop :=
  ∀ listed, ⟨.api client (.listPods nodeName), .ok listed⟩ ∈ steps → listed = pods

/-- Whatever the calls are answered and however long they take. -/
def KeepsDrainContract (client : Client) (nodeName : String) (timeoutSecs : Nat) (pods : List Pod)
    (exhausted : Nat → String × String → Bool) : Prop :=
  ∀ steps x, (drainNodeWithTimeout client nodeName timeoutSecs).Yields steps x → Lists client nodeName pods steps →
    DrainContract client nodeName pods exhausted steps x

/-- The removal of the pod at place `j` comes after so many calls. -/
def removalIndex (j : Nat) : Nat := 2 * j + 4

/-! ## Single calls -/

section

variable {client : Client} {nodeName : String} {timeoutSecs start : Nat} {steps : List (Sigma Resp)}
  {x : Except ReconcilerError Unit}

theorem shouldEvictPod_iff {pod : Pod} :
    shouldEvictPod pod = true ↔ pod.completed = false ∧ pod.ownedByDaemonSet = false := by
  unfold shouldEvictPod Pod.completed Pod.ownedByDaemonSet
  split
  · rename_i hphase
    constructor
    · rintro ⟨⟩
    · rintro ⟨hcompleted, -⟩
      rw [Bool.or_eq_false_iff, beq_eq_false_iff_ne, beq_eq_false_iff_ne] at hcompleted
      exact (hphase.elim hcompleted.1 hcompleted.2).elim
  · rename_i hphase
    obtain ⟨hsucceeded, hfailed⟩ := not_or.mp hphase
    have hcompleted : (pod.phase == some "Succeeded" || pod.phase == some "Failed") = false :=
      Bool.or_eq_false_iff.mpr ⟨beq_eq_false_iff_ne.mpr hsucceeded, beq_eq_false_iff_ne.mpr hfailed⟩
    cases hkinds : pod.ownerKinds with
    | none => exact ⟨fun _ => ⟨hcompleted, rfl⟩, fun _ => rfl⟩
    | some kinds =>
      simp only [Option.getD_some, hcompleted, Bool.not_eq_true', true_and]

theorem yields_api_bind {call : ApiCall} {f : Except KubeError call.Answer → Ctl Unit} :
    ((api client call).bind f).Yields steps x ↔
      ∃ answer later, steps = ⟨.api client call, answer⟩ :: later ∧ (f answer).Yields later x :=
  Prog.yields_call_iff

theorem yields_local_bind {op : LocalOp} {f : op.Answer → Ctl Unit} :
    ((local_ op).bind f).Yields steps x ↔
      ∃ answer later, steps = ⟨.loc op, answer⟩ :: later ∧ (f answer).Yields later x :=
  Prog.yields_call_iff

/-- The error with which an eviction stops the drain, if it does. -/
def evictionError (podName nodeName : String) : Except KubeError Unit → Option ReconcilerError
  | .ok _ => none
  | .error e =>
    if e.isNotFound then none
    else if e.code = some Constants.httpTooManyRequests then
      some (.capiError s!"Pod {podName} eviction blocked by PodDisruptionBudget (HTTP 429) on node {nodeName}")
    else some (.capiError s!"Failed to evict pod {podName} from node {nodeName}: {e.text}")

theorem evictPod_eq (client : Client) (podName podNamespace nodeName : String) :
    evictPod client podName podNamespace nodeName =
      (api client (.deletePod podNamespace podName Constants.podEvictionGracePeriodSecs)).bind fun answer =>
        (evictionError podName nodeName answer).elim (.pure ()) .fail := by
  refine congrArg _ (funext fun answer => ?_)
  cases answer with
  | ok done => rfl
  | error e =>
    simp only [evictionError]
    split
    · rfl
    · split <;> rfl

theorem yields_evictPod_bind {podName podNamespace : String} {f : Unit → Ctl Unit} :
    ((evictPod client podName podNamespace nodeName).bind f).Yields steps x ↔
      ∃ answer later, steps = ⟨.api client (.deletePod podNamespace podName Constants.podEvictionGracePeriodSecs), answer⟩ :: later ∧
          (evictionError podName nodeName answer = none ∧ (f ()).Yields later x ∨
            ∃ e, evictionError podName nodeName answer = some e ∧ later = [] ∧ x = .error e) := by
  rw [evictPod_eq]
  refine Iff.trans Prog.yields_call_iff (exists_congr fun answer => exists_congr fun later => and_congr_right fun _ => ?_)
  simp only [Prog.pure_bind]
  cases herror : evictionError podName nodeName answer with
  | none =>
    simp only [Option.elim_none, Prog.pure_bind, true_and, reduceCtorEq, false_and, exists_false, or_false]
  | some e =>
    simp only [Option.elim_some, Prog.fail_bind, Prog.yields_fail_iff, reduceCtorEq, false_and, false_or,
      Option.some.injEq, exists_eq_left']

/-! ## The loop -/

theorem yields_evictPods_cons {pod : Pod} {pods : List Pod} :
    (evictPods client nodeName timeoutSecs start (pod :: pods)).Yields steps x ↔
      ∃ now later, steps = ⟨.loc .instantNow, now⟩ :: later ∧
        if timeoutSecs * nanosPerSecond.toNat ≤ now - start then
          (Prog.fail (.capiError s!"Node drain timeout exceeded for {nodeName}") : Ctl Unit).Yields later x
        else ((evictPod client (pod.name.getD "unknown") (pod.ns.getD "default") nodeName).bind fun _ =>
          evictPods client nodeName timeoutSecs start pods).Yields later x := by
  rw [evictPods]
  refine Iff.trans yields_local_bind (exists_congr fun now => exists_congr fun later => and_congr_right fun _ => ?_)
  split <;> rfl

theorem settled_of_evictionError {podName podNamespace : String} {answer : Except KubeError Unit} {grace : Nat}
    (h : evictionError podName nodeName answer = none) :
    accepted ⟨.api client (.deletePod podNamespace podName grace), answer⟩ = true ∨
      alreadyGone ⟨.api client (.deletePod podNamespace podName grace), answer⟩ = true := by
  cases answer with
  | ok done => exact .inl rfl
  | error e =>
    right
    simp only [evictionError] at h
    split at h
    · assumption
    · split at h <;> cases h

/-- The loop removes its pods in turn, with a look at the clock before each. -/
theorem removal_of_evictPods {pods : List Pod}
    (h : (evictPods client nodeName timeoutSecs start pods).Yields steps x) {i : Nat} {step : Sigma Resp}
    {key : String × String} (hstep : steps[i]? = some step) (hremoval : removalOf step = some key) :
    ∃ (j : Nat) (pod : Pod), pods[j]? = some pod ∧ pod.key = key ∧ i = 2 * j + 1 := by
  induction pods generalizing steps i with
  | nil =>
    obtain ⟨rfl, -⟩ := Prog.yields_pure_iff.mp h
    cases hstep
  | cons pod pods ih =>
    obtain ⟨now, later, rfl, hlater⟩ := yields_evictPods_cons.mp h
    cases i with
    | zero =>
      cases hstep
      cases hremoval
    | succ i =>
      rw [List.getElem?_cons_succ] at hstep
      split at hlater
      · obtain ⟨rfl, -⟩ := Prog.yields_fail_iff.mp hlater
        cases hstep
      · obtain ⟨answer, rest, rfl, hrest⟩ := yields_evictPod_bind.mp hlater
        cases i with
        | zero =>
          cases hstep
          exact ⟨0, pod, rfl, Option.some.inj hremoval, rfl⟩
        | succ i =>
          rw [List.getElem?_cons_succ] at hstep
          rcases hrest with ⟨-, hrest⟩ | ⟨e, -, rfl, -⟩
          · obtain ⟨j, pod', hpod, hkey, rfl⟩ := ih hrest hstep
            exact ⟨j + 1, pod', hpod, hkey, by omega⟩
          · cases hstep

theorem complete_of_evictPods {pods : List Pod}
    (h : (evictPods client nodeName timeoutSecs start pods).Yields steps (.ok ())) :
    ∀ pod ∈ pods, ∃ step ∈ steps, removalOf step = some pod.key ∧ (accepted step = true ∨ alreadyGone step = true) := by
  induction pods generalizing steps with
  | nil => exact fun _ hpod => absurd hpod List.not_mem_nil
  | cons pod pods ih =>
    obtain ⟨now, later, rfl, hlater⟩ := yields_evictPods_cons.mp h
    split at hlater
    · cases (Prog.yields_fail_iff.mp hlater).2
    · obtain ⟨answer, rest, rfl, hrest⟩ := yields_evictPod_bind.mp hlater
      rcases hrest with ⟨herror, hrest⟩ | ⟨e, -, -, hx⟩
      · intro pod' hpod'
        rcases List.mem_cons.mp hpod' with rfl | hpod'
        · exact ⟨_, List.mem_cons_of_mem _ List.mem_cons_self, rfl, settled_of_evictionError herror⟩
        · obtain ⟨step, hstep, hdone⟩ := ih hrest pod' hpod'
          exact ⟨step, List.mem_cons_of_mem _ (List.mem_cons_of_mem _ hstep), hdone⟩
      · cases hx

/-- The deadline is looked at first, so with no time at all nothing is removed. -/
theorem steps_of_evictPods_zero {pods : List Pod} (h : (evictPods client nodeName 0 start pods).Yields steps x)
    {i : Nat} {step : Sigma Resp} (hstep : steps[i]? = some step) : removalOf step = none := by
  cases pods with
  | nil =>
    obtain ⟨rfl, -⟩ := Prog.yields_pure_iff.mp h
    cases hstep
  | cons pod pods =>
    obtain ⟨now, later, rfl, hlater⟩ := yields_evictPods_cons.mp h
    rw [if_pos (by rw [Nat.zero_mul]; exact Nat.zero_le _)] at hlater
    obtain ⟨rfl, -⟩ := Prog.yields_fail_iff.mp hlater
    cases i with
    | zero =>
      cases hstep
      rfl
    | succ i => cases hstep

/-- Every removal is accepted and no time passes. -/
def smoothLoop (client : Client) (start : Nat) (pods : List Pod) : List (Sigma Resp) :=
  pods.flatMap fun pod => [⟨.loc .instantNow, start⟩,
    ⟨.api client (.deletePod (pod.ns.getD "default") (pod.name.getD "unknown") Constants.podEvictionGracePeriodSecs),
      .ok ()⟩]

theorem yields_smoothLoop (htimeout : timeoutSecs ≠ 0) (pods : List Pod) :
    (evictPods client nodeName timeoutSecs start pods).Yields (smoothLoop client start pods) (.ok ()) := by
  induction pods with
  | nil => exact .pure ()
  | cons pod pods ih =>
    refine yields_evictPods_cons.mpr ⟨start, _, rfl, ?_⟩
    rw [if_neg ?_]
    · exact yields_evictPod_bind.mpr ⟨.ok (), _, rfl, .inl ⟨rfl, ih⟩⟩
    · have hnanos : 0 < nanosPerSecond.toNat := by decide
      have hpositive := Nat.mul_pos (Nat.pos_of_ne_zero htimeout) hnanos
      omega

theorem getElem?_smoothLoop {pods : List Pod} {j : Nat} {pod : Pod} (h : pods[j]? = some pod) :
    (smoothLoop client start pods)[2 * j + 1]? = some
      ⟨.api client (.deletePod (pod.ns.getD "default") (pod.name.getD "unknown") Constants.podEvictionGracePeriodSecs),
        .ok ()⟩ := by
  induction pods generalizing j with
  | nil => cases h
  | cons first pods ih =>
    cases j with
    | zero =>
      cases h
      rfl
    | succ j => exact ih h

/-! ## The whole drain -/

theorem yields_orError_bind {α : Type} {f : KubeError → ReconcilerError} {answer : Except KubeError α}
    {g : α → Ctl Unit} : ((orError f answer).bind g).Yields steps x ↔
      (∃ a, answer = .ok a ∧ (g a).Yields steps x) ∨ ∃ e, answer = .error e ∧ steps = [] ∧ x = .error (f e) := by
  cases answer with
  | ok a =>
    simp only [orError, Prog.pure_bind, Except.ok.injEq, exists_eq_left', reduceCtorEq, false_and, exists_false, or_false]
  | error e =>
    simp only [orError, Prog.fail_bind, Prog.yields_fail_iff, Except.error.injEq, exists_eq_left', reduceCtorEq, false_and,
      exists_false, false_or]

/-- How a drain can go, up to its loop. -/
inductive DrainSteps (client : Client) (nodeName : String) (timeoutSecs : Nat) :
    List (Sigma Resp) → Except ReconcilerError Unit → Prop
  | uncordoned (e : KubeError) : DrainSteps client nodeName timeoutSecs
      [⟨.api client (.patchNode nodeName cordonPatch), .error e⟩]
      (.error (.capiError s!"Failed to cordon node {nodeName}: {e.text}"))
  | unlisted (e : KubeError) : DrainSteps client nodeName timeoutSecs
      [⟨.api client (.patchNode nodeName cordonPatch), .ok ()⟩, ⟨.api client (.listPods nodeName), .error e⟩]
      (.error (.capiError s!"Failed to list pods on node {nodeName}: {e.text}"))
  | nothing (pods : List Pod) (hnone : pods.filter shouldEvictPod = []) : DrainSteps client nodeName timeoutSecs
      [⟨.api client (.patchNode nodeName cordonPatch), .ok ()⟩, ⟨.api client (.listPods nodeName), .ok pods⟩] (.ok ())
  | evicting (pods : List Pod) (hsome : pods.filter shouldEvictPod ≠ []) (start : Nat) {later : List (Sigma Resp)}
      {x : Except ReconcilerError Unit}
      (hloop : (evictPods client nodeName timeoutSecs start (pods.filter shouldEvictPod)).Yields later x) :
      DrainSteps client nodeName timeoutSecs
        (⟨.api client (.patchNode nodeName cordonPatch), .ok ()⟩ :: ⟨.api client (.listPods nodeName), .ok pods⟩ ::
          ⟨.loc .instantNow, start⟩ :: later) x

theorem yields_drain_iff : (drainNodeWithTimeout client nodeName timeoutSecs).Yields steps x ↔
    DrainSteps client nodeName timeoutSecs steps x := by
  constructor
  · intro h
    obtain ⟨cordoned, later, rfl, hlater⟩ := Prog.yields_call_iff.mp h
    rcases yields_orError_bind.mp hlater with ⟨⟨⟩, rfl, hdone⟩ | ⟨e, rfl, rfl, rfl⟩
    · obtain ⟨listed, later, rfl, hlisted⟩ := yields_api_bind.mp hdone
      rcases yields_orError_bind.mp hlisted with ⟨pods, rfl, hpods⟩ | ⟨e, rfl, rfl, rfl⟩
      · cases hevict : pods.filter shouldEvictPod with
        | nil =>
          simp only [hevict] at hpods
          obtain ⟨rfl, rfl⟩ := Prog.yields_pure_iff.mp hpods
          exact .nothing pods hevict
        | cons pod rest =>
          simp only [hevict] at hpods
          obtain ⟨start, later, rfl, hloop⟩ := yields_local_bind.mp hpods
          exact .evicting pods (hevict ▸ List.cons_ne_nil _ _) start (hevict ▸ hloop)
      · exact .unlisted e
    · exact .uncordoned e
  · rintro (e | e | ⟨pods, hnone⟩ | ⟨pods, hsome, start, hloop⟩)
    · exact .call (.fail _)
    · refine .call (.call ?_)
      exact yields_orError_bind.mpr (.inr ⟨e, rfl, rfl, rfl⟩)
    · refine .call (.call ?_)
      refine yields_orError_bind.mpr (.inl ⟨pods, rfl, ?_⟩)
      simp only [hnone]
      exact .pure ()
    · refine .call (.call ?_)
      refine yields_orError_bind.mpr (.inl ⟨pods, rfl, ?_⟩)
      cases hevict : pods.filter shouldEvictPod with
      | nil => exact absurd hevict hsome
      | cons pod rest => exact yields_local_bind.mpr ⟨start, _, rfl, hevict ▸ hloop⟩

variable {pods : List Pod} {exhausted : Nat → String × String → Bool}

theorem mem_evicted {pod : Pod} : pod ∈ pods.filter shouldEvictPod ↔
    pod ∈ pods ∧ pod.completed = false ∧ pod.ownedByDaemonSet = false := by
  rw [List.mem_filter, shouldEvictPod_iff]

/-- Where the removals of a drain stand. -/
theorem removal_of_drain (h : DrainSteps client nodeName timeoutSecs steps x) (hlists : Lists client nodeName pods steps)
    {i : Nat} {step : Sigma Resp} {key : String × String} (hstep : steps[i]? = some step)
    (hremoval : removalOf step = some key) :
    steps[0]? = some ⟨.api client (.patchNode nodeName cordonPatch), .ok ()⟩ ∧ timeoutSecs ≠ 0 ∧
      ∃ (j : Nat) (pod : Pod), (pods.filter shouldEvictPod)[j]? = some pod ∧ pod.key = key ∧ i = removalIndex j := by
  cases h with
  | uncordoned e =>
    rcases List.mem_singleton.mp (List.mem_of_getElem? hstep) with rfl
    cases hremoval
  | unlisted e =>
    rcases List.mem_pair.mp (List.mem_of_getElem? hstep) with rfl | rfl <;> cases hremoval
  | nothing listed hnone =>
    rcases List.mem_pair.mp (List.mem_of_getElem? hstep) with rfl | rfl <;> cases hremoval
  | evicting listed hsome start hloop =>
    obtain rfl : listed = pods := hlists listed (List.mem_cons_of_mem _ List.mem_cons_self)
    obtain _ | _ | _ | i := i
    · cases hstep
      cases hremoval
    · cases hstep
      cases hremoval
    · cases hstep
      cases hremoval
    · refine ⟨rfl, ?_, ?_⟩
      · rintro rfl
        rw [steps_of_evictPods_zero hloop hstep] at hremoval
        cases hremoval
      · obtain ⟨j, pod, hpod, hkey, rfl⟩ := removal_of_evictPods hloop hstep hremoval
        exact ⟨j, pod, hpod, hkey, rfl⟩

theorem complete_of_drain (h : DrainSteps client nodeName timeoutSecs steps (.ok ()))
    (hlists : Lists client nodeName pods steps) {pod : Pod} (hpod : pod ∈ pods.filter shouldEvictPod) :
    ∃ step ∈ steps, removalOf step = some pod.key ∧ (accepted step = true ∨ alreadyGone step = true) := by
  generalize hx : (.ok () : Except ReconcilerError Unit) = x at h
  cases h with
  | uncordoned e => cases hx
  | unlisted e => cases hx
  | nothing listed hnone =>
    obtain rfl : listed = pods := hlists listed (List.mem_cons_of_mem _ List.mem_cons_self)
    rw [hnone] at hpod
    cases hpod
  | evicting listed hsome start hloop =>
    subst hx
    obtain rfl : listed = pods := hlists listed (List.mem_cons_of_mem _ List.mem_cons_self)
    obtain ⟨step, hstep, hdone⟩ := complete_of_evictPods hloop pod hpod
    exact ⟨step, List.mem_cons_of_mem _ (List.mem_cons_of_mem _ (List.mem_cons_of_mem _ hstep)), hdone⟩

/-- The contract, where the budgets allow each removal when it comes. -/
theorem contract_of_drain (h : DrainSteps client nodeName timeoutSecs steps x) (hlists : Lists client nodeName pods steps)
    (hallowed : timeoutSecs = 0 ∨ ∀ (j : Nat) pod, (pods.filter shouldEvictPod)[j]? = some pod →
      exhausted (removalIndex j) pod.key = false) : DrainContract client nodeName pods exhausted steps x where
  cordoned i step key hstep hremoval := by
    obtain ⟨hcordoned, -, j, pod, -, -, rfl⟩ := removal_of_drain h hlists hstep hremoval
    exact ⟨0, by rw [removalIndex]; omega, hcordoned⟩
  spared step hmem key hremoval := by
    obtain ⟨i, hstep⟩ := List.mem_iff_getElem?.mp hmem
    obtain ⟨-, -, j, pod, hpod, hkey, -⟩ := removal_of_drain h hlists hstep hremoval
    obtain ⟨hlisted, hspared⟩ := mem_evicted.mp (List.mem_of_getElem? hpod)
    exact ⟨pod, hlisted, hkey, hspared⟩
  budgets i step key hstep hremoval _ := by
    obtain ⟨-, htimeout, j, pod, hpod, rfl, rfl⟩ := removal_of_drain h hlists hstep hremoval
    exact hallowed.resolve_left htimeout j pod hpod
  complete hx pod hpod hcompleted howned := by
    subst hx
    exact complete_of_drain h hlists (mem_evicted.mpr ⟨hpod, hcompleted, howned⟩)

/-- Every call is answered as well as can be. -/
def smoothDrain (client : Client) (nodeName : String) (pods : List Pod) : List (Sigma Resp) :=
  ⟨.api client (.patchNode nodeName cordonPatch), .ok ()⟩ :: ⟨.api client (.listPods nodeName), .ok pods⟩ ::
    ⟨.loc .instantNow, 0⟩ :: smoothLoop client 0 (pods.filter shouldEvictPod)

theorem lists_smoothDrain (client : Client) (nodeName : String) (pods : List Pod) :
    Lists client nodeName pods (smoothDrain client nodeName pods) := by
  intro listed hmem
  rcases List.mem_cons.mp hmem with h | hmem
  · cases h
  rcases List.mem_cons.mp hmem with h | hmem
  · cases h
    rfl
  rcases List.mem_cons.mp hmem with h | hmem
  · cases h
  obtain ⟨pod, -, hpod⟩ := List.mem_flatMap.mp hmem
  rcases List.mem_pair.mp hpod with h | h <;> cases h

/-- Nothing keeps the drain from a pod whose budget is used up. -/
theorem allowed_of_keeps (hkeeps : KeepsDrainContract client nodeName timeoutSecs pods exhausted)
    (htimeout : timeoutSecs ≠ 0) {j : Nat} {pod : Pod} (hpod : (pods.filter shouldEvictPod)[j]? = some pod) :
    exhausted (removalIndex j) pod.key = false := by
  have hsome : pods.filter shouldEvictPod ≠ [] := fun hnone => by
    rw [hnone] at hpod
    cases hpod
  have hcontract := hkeeps (smoothDrain client nodeName pods) (.ok ())
    (yields_drain_iff.mpr (.evicting pods hsome 0 (yields_smoothLoop htimeout _)))
    (lists_smoothDrain client nodeName pods)
  exact hcontract.budgets (removalIndex j) _ pod.key (getElem?_smoothLoop hpod) rfl rfl

theorem drain_contract_iff (client : Client) (nodeName : String) (timeoutSecs : Nat) (pods : List Pod)
    (exhausted : Nat → String × String → Bool) : KeepsDrainContract client nodeName timeoutSecs pods exhausted ↔
      timeoutSecs = 0 ∨ ∀ (j : Nat) pod, (pods.filter shouldEvictPod)[j]? = some pod →
        exhausted (removalIndex j) pod.key = false := by
  constructor
  · intro hkeeps
    by_cases htimeout : timeoutSecs = 0
    · exact .inl htimeout
    · exact .inr fun j pod hpod => allowed_of_keeps hkeeps htimeout hpod
  · intro hallowed steps x hyields hlists
    exact contract_of_drain (yields_drain_iff.mp hyields) hlists hallowed

end

/-- A pod whose budget is used up from the start is removed all the same. -/
theorem budget_ignored : ¬∀ client nodeName timeoutSecs pods exhausted,
    KeepsDrainContract client nodeName timeoutSecs pods exhausted := by
  intro hkeeps
  let pod : Pod := ⟨some "db-0", some "prod", some "Running", none⟩
  have hpod : ([pod].filter shouldEvictPod)[0]? = some pod := rfl
  have hallowed : (decide (("prod", "db-0") = ("prod", "db-0"))) = false :=
    allowed_of_keeps (hkeeps .management "worker-1" 30 [pod] fun _ key => decide (key = ("prod", "db-0"))) (by decide) hpod
  exact absurd hallowed (by decide)

end FiveSpot
