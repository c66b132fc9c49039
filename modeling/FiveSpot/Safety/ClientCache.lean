import FiveSpot.Cluster.History
import FiveSpot.Interaction.Execution
import Mathlib.Data.Sigma.Basic

/-! # The cache of child clients

A cached client is found by its Secret and the Secret's version. The data key it was built from is not
part of that, so the cache answers correctly exactly if nobody asks for two data keys of one Secret.
-/

namespace FiveSpot

set_option autoImplicit false

open Interaction

abbrev SecretData := Option (List (String × Except String String))

/-- The value of a data key; a value that is not UTF-8 is an error. -/
def secretValue (data : SecretData) (key : String) : Option (Except String String) :=
  (data.bind fun data => data.find? fun entry => entry.1 == key).map Prod.snd

def requested (sm : ScheduledMachine) : Option (CacheKey × String) :=
  sm.metadata.ns.map fun ns => match sm.spec.kubeconfigSecretRef with
    | some ref => (⟨ns, ref.name⟩, ref.key)
    | none => (⟨ns, autoSecretName sm⟩, Constants.defaultKubeconfigSecretKey)

def Memory.evict (m : Memory) (key : CacheKey) : Memory :=
  { m with cache := m.cache.filter fun entry => entry.1 != key }

/-! ## Runs of the cache -/

inductive CacheAct where
  /-- The next caller is another resource. -/
  | turn (sm : ScheduledMachine)
  | update (ns name resourceVersion : String)
  | remove (ns name : String)
  | evict (key : CacheKey)

section

-- what a Secret holds at each of its versions: a version never comes back with other contents
variable (versions : CacheKey → String → SecretData)

def World.setSecret (w : World) (ns name : String) (secret : Option Secret) : World :=
  { w with env := { w.env with secret := fun n m => if n = ns ∧ m = name then secret else w.env.secret n m } }

def cacheAct : CacheAct → World → World
  | .turn sm, w => w.setSm (some sm)
  | .update ns name resourceVersion, w =>
    w.setSecret ns name (some ⟨some resourceVersion, versions ⟨ns, name⟩ resourceVersion⟩)
  | .remove ns name, w => w.setSecret ns name none
  | .evict key, w => { w with memory := w.memory.evict key }

/-- Resolve calls one after the other, with updates and evictions at any moment. -/
def cacheSystem : System Resp ReconcilerError ResolvedClient World ScheduledMachine CacheAct Fate where
  snapshot w := w.sm
  program sm := resolve sm
  opened _ w := w
  serve := serve
  interfere := cacheAct versions
  killed w := { w with memory := .empty }
  isLocal _ := false

/-- Every Secret holds what its version says. -/
def Versioned (w : World) : Prop :=
  ∀ ns name secret, w.env.secret ns name = some secret →
    ∃ resourceVersion, secret = ⟨some resourceVersion, versions ⟨ns, name⟩ resourceVersion⟩

structure ColdStart (w : World) : Prop where
  empty : w.memory.cache = []
  versioned : Versioned versions w

abbrev CacheState := State Resp ReconcilerError ResolvedClient World ScheduledMachine

/-- Only resources of `callers` call. -/
def calledBy (callers : ScheduledMachine → Prop) (s : CacheState) : Act CacheAct Fate → Prop
  | .start => ∀ sm, s.world.sm = some sm → callers sm
  | _ => True

def Got (key : CacheKey) (secret : Secret) (trace : List (Sigma Resp)) : Prop :=
  ⟨.api .management (.getSecret key.ns key.secretName), .ok secret⟩ ∈ trace

/-- What a call owes its caller once it is over. -/
structure Faithful (p : Pass Resp ReconcilerError ResolvedClient ScheduledMachine) : Prop where
  built : ∀ kubeconfig key resourceVersion, p.rest = .pure (.child kubeconfig key resourceVersion) →
    ∃ dataKey, requested p.snap = some (key, dataKey) ∧
      secretValue (versions key resourceVersion) dataKey = some (.ok kubeconfig)
  missing : ∀ key dataKey secret, requested p.snap = some (key, dataKey) → Got key secret p.trace →
    secretValue secret.data dataKey = none → (∀ r k, p.rest ≠ .call r k) →
    p.rest = .fail (.kubeconfigSecretMissingKey key.ns key.secretName dataKey)

end

/-- In every run with these callers every call keeps its promises. -/
def CacheCorrect (callers : ScheduledMachine → Prop) : Prop :=
  ∀ versions s, (cacheSystem versions).Reach (ColdStart versions) (calledBy callers) s →
    ∀ p, s.pass = some p → Faithful versions p

/-- Callers that ask for the same Secret ask for the same data key. -/
def OneKeyPerSecret (callers : ScheduledMachine → Prop) : Prop :=
  ∀ a b key dataKey dataKey', callers a → callers b → requested a = some (key, dataKey) →
    requested b = some (key, dataKey') → dataKey = dataKey'

/-! ## What a call does -/

/-- A client is only put into the cache under the Secret it was built from. -/
def cacheRules (sm : ScheduledMachine) : Monitor Resp (List (Sigma Resp)) where
  allowed t
    | .loc (.cacheInsert key kubeconfig resourceVersion) => ∃ dataKey secret, requested sm = some (key, dataKey) ∧
        Got key secret t ∧ secret.resourceVersion.getD "" = resourceVersion ∧
        secretValue secret.data dataKey = some (.ok kubeconfig)
    | _ => True
  observe t r answer := ⟨r, answer⟩ :: t

def Hit (key : CacheKey) (resourceVersion kubeconfig : String) (trace : List (Sigma Resp)) : Prop :=
  ⟨.loc (.cacheGet key resourceVersion), some kubeconfig⟩ ∈ trace

structure Ended (sm : ScheduledMachine) (x : Except ReconcilerError ResolvedClient) (t : List (Sigma Resp)) : Prop where
  child : ∀ kubeconfig key resourceVersion, x = .ok (.child kubeconfig key resourceVersion) →
    ∃ dataKey secret, requested sm = some (key, dataKey) ∧ Got key secret t ∧
      secret.resourceVersion.getD "" = resourceVersion ∧
      (secretValue secret.data dataKey = some (.ok kubeconfig) ∨ Hit key resourceVersion kubeconfig t)
  missing : ∀ key dataKey secret, requested sm = some (key, dataKey) → Got key secret t →
    secretValue secret.data dataKey = none →
    x = .error (.kubeconfigSecretMissingKey key.ns key.secretName dataKey) ∨
      ∃ kubeconfig, Hit key (secret.resourceVersion.getD "") kubeconfig t

theorem cacheRules_after (sm : ScheduledMachine) (trace : List (Sigma Resp)) : (cacheRules sm).after [] trace = trace := by
  induction trace with
  | nil => rfl
  | cons event trace ih =>
    obtain ⟨r, answer⟩ := event
    rw [Monitor.after_cons, ih]
    rfl

def LocalSince (t u : List (Sigma Resp)) : Prop := ∃ events, u = events ++ t ∧ ∀ event ∈ events, ∃ op, event.1 = .loc op

section

variable {t u v : List (Sigma Resp)}

theorem LocalSince.refl (t : List (Sigma Resp)) : LocalSince t t := ⟨[], rfl, fun _ h => (nomatch h)⟩

theorem LocalSince.cons (h : LocalSince t u) (op : LocalOp) (answer : op.Answer) :
    LocalSince t (⟨.loc op, answer⟩ :: u) := by
  obtain ⟨events, rfl, hevents⟩ := h
  refine ⟨⟨.loc op, answer⟩ :: events, rfl, fun event hevent => ?_⟩
  rcases List.mem_cons.mp hevent with rfl | hold
  · exact ⟨op, rfl⟩
  · exact hevents event hold

theorem LocalSince.mem (h : LocalSince t u) {event : Sigma Resp} (hevent : event ∈ t) : event ∈ u := by
  obtain ⟨events, rfl, -⟩ := h
  exact List.mem_append_right events hevent

theorem LocalSince.got (h : LocalSince t u) {key : CacheKey} {secret : Secret} (hgot : Got key secret u) :
    Got key secret t := by
  obtain ⟨events, rfl, hevents⟩ := h
  rcases List.mem_append.mp hgot with hnew | hold
  · obtain ⟨op, hop⟩ := hevents _ hnew
    cases hop
  · exact hold

end

section

variable {sm : ScheduledMachine} {ns name dataKey : String} {explicit : Bool}

theorem conforms_hookEvicted {key : Option CacheKey} {t u : List (Sigma Resp)}
    {Q : Except ReconcilerError Unit → List (Sigma Resp) → Prop} (hu : LocalSince t u)
    (hQ : ∀ v, LocalSince t v → Q (.ok ()) v) : Conforms (cacheRules sm) (hookEvicted key) Q u := by
  cases key with
  | none => exact hQ u hu
  | some key => exact ⟨trivial, fun answer => hQ _ (hu.cons (.hookEvicted key) answer)⟩

theorem conforms_buildChildClient {secret : Secret} {t u : List (Sigma Resp)}
    {Q : Except ReconcilerError ResolvedClient → List (Sigma Resp) → Prop}
    (hreq : requested sm = some (⟨ns, name⟩, dataKey)) (hgot : Got ⟨ns, name⟩ secret t) (hu : LocalSince t u)
    (hmissing : secretValue secret.data dataKey = none → Q (.error (.kubeconfigSecretMissingKey ns name dataKey)) u)
    (hinvalid : ∀ v reason, LocalSince t v → secretValue secret.data dataKey ≠ none →
      Q (.error (.kubeconfigInvalid ns name reason)) v)
    (hok : ∀ v kubeconfig, LocalSince t v → secretValue secret.data dataKey = some (.ok kubeconfig) →
      Q (.ok (.child kubeconfig ⟨ns, name⟩ (secret.resourceVersion.getD ""))) v) :
    Conforms (cacheRules sm) (buildChildClient ns name dataKey secret) Q u := by
  have hvalue : secretValue secret.data dataKey =
    (secret.data.bind fun data => data.find? fun entry => entry.1 == dataKey).map Prod.snd := rfl
  unfold buildChildClient
  rw [← hvalue]
  cases hread : secretValue secret.data dataKey with
  | none => exact hmissing hread
  | some value =>
    have hsome : secretValue secret.data dataKey ≠ none := by simp [hread]
    cases value with
    | error e => exact hinvalid u _ hu hsome
    | ok kubeconfig =>
      refine conforms_bind.mpr ⟨trivial, fun unusable => ?_⟩
      have hfirst := hu.cons (.buildClient kubeconfig) unusable
      rw [conforms_pure, continue_ok]
      cases unusable with
      | some reason => exact hinvalid _ _ hfirst hsome
      | none =>
        refine conforms_bind.mpr ⟨⟨dataKey, secret, hreq, hfirst.mem hgot, rfl, hread⟩, fun inserted => ?_⟩
        have hsecond := hfirst.cons (.cacheInsert ⟨ns, name⟩ kubeconfig (secret.resourceVersion.getD "")) inserted
        rw [conforms_pure, continue_ok]
        refine conforms_bind.mpr (conforms_hookEvicted hsecond fun v hv => ?_)
        refine conforms_bind.mpr (conforms_hookEvicted hv fun v hv => ?_)
        refine conforms_bind.mpr ⟨trivial, fun answer => ?_⟩
        exact hok _ kubeconfig (hv.cons (.hookResolved ⟨ns, name⟩ kubeconfig) answer) hread

/-- From the read of the Secret on. Only a Secret that could not be read is not found. -/
theorem conforms_buildOrGetCached {Q : Except ReconcilerError ResolvedClient → List (Sigma Resp) → Prop}
    (hreq : requested sm = some (⟨ns, name⟩, dataKey))
    (hunread : ∀ e t, (∀ secret, ¬Got ⟨ns, name⟩ secret t) → Q (.error e) t)
    (hended : ∀ x t, Ended sm x t → (∀ text, x ≠ .error (.notFound text)) → Q x t) :
    Conforms (cacheRules sm) (buildOrGetCached ns name dataKey explicit) Q [] := by
  refine conforms_bind.mpr ⟨trivial, fun answer => ?_⟩
  rw [conforms_pure, continue_ok]
  cases answer with
  | error e =>
    refine hunread _ _ fun secret hgot => ?_
    cases List.mem_singleton.mp hgot
  | ok secret =>
    refine ⟨trivial, fun cached => ?_⟩
    simp only [Prog.pure_bind]
    have hgot : Got ⟨ns, name⟩ secret [⟨.api .management (.getSecret ns name), .ok secret⟩] := List.mem_singleton.mpr rfl
    have honly : ∀ {u : List (Sigma Resp)} {secret' : Secret},
        LocalSince [⟨.api .management (.getSecret ns name), .ok secret⟩] u → Got ⟨ns, name⟩ secret' u →
          secret' = secret := by
      intro u secret' hu hgot'
      cases List.mem_singleton.mp (hu.got hgot')
      rfl
    have hsince := (LocalSince.refl [⟨.api .management (.getSecret ns name), .ok secret⟩]).cons
      (.cacheGet ⟨ns, name⟩ (secret.resourceVersion.getD "")) cached
    -- a request is the only one the resource makes
    have hsame : ∀ {key dataKey'}, requested sm = some (key, dataKey') → key = ⟨ns, name⟩ ∧ dataKey' = dataKey := by
      intro key dataKey' h
      cases hreq.symm.trans h
      exact ⟨rfl, rfl⟩
    cases cached with
    | some kubeconfig =>
      have hhit : Hit ⟨ns, name⟩ (secret.resourceVersion.getD "") kubeconfig
          [⟨.loc (.cacheGet ⟨ns, name⟩ (secret.resourceVersion.getD "")), some kubeconfig⟩,
            ⟨.api .management (.getSecret ns name), .ok secret⟩] := List.mem_cons_self
      refine hended _ _ ⟨fun kubeconfig' key resourceVersion heq => ?_, fun key dataKey' secret' hrequest hgot' _ => ?_⟩
        fun _ h => (nomatch h)
      · cases heq
        exact ⟨dataKey, secret, hreq, hsince.mem hgot, rfl, .inr hhit⟩
      · obtain ⟨rfl, rfl⟩ := hsame hrequest
        rw [honly hsince hgot']
        exact .inr ⟨kubeconfig, hhit⟩
    | none =>
      refine conforms_buildChildClient hreq hgot hsince (fun hnone => ?_) (fun v reason hv hsome => ?_)
        fun v kubeconfig hv hread => ?_
      · refine hended _ _ ⟨fun _ _ _ heq => (nomatch heq), fun key dataKey' secret' hrequest hgot' _ => ?_⟩
          fun _ h => (nomatch h)
        obtain ⟨rfl, rfl⟩ := hsame hrequest
        exact .inl rfl
      · refine hended _ _ ⟨fun _ _ _ heq => (nomatch heq), fun key dataKey' secret' hrequest hgot' hnone => ?_⟩
          fun _ h => (nomatch h)
        obtain ⟨rfl, rfl⟩ := hsame hrequest
        rw [honly hv hgot'] at hnone
        exact absurd hnone hsome
      · refine hended _ _ ⟨fun kubeconfig' key resourceVersion heq => ?_, fun key dataKey' secret' hrequest hgot' hnone => ?_⟩
          fun _ h => (nomatch h)
        · cases heq
          exact ⟨dataKey, secret, hreq, hv.mem hgot, rfl, .inl hread⟩
        · obtain ⟨rfl, rfl⟩ := hsame hrequest
          rw [honly hv hgot', hread] at hnone
          cases hnone

theorem conforms_resolve (sm : ScheduledMachine) : Conforms (cacheRules sm) (resolve sm) (Ended sm) [] := by
  have hnothing : ∀ {x : Except ReconcilerError ResolvedClient} {t : List (Sigma Resp)},
      (∀ kubeconfig key resourceVersion, x ≠ .ok (.child kubeconfig key resourceVersion)) →
      (∀ key dataKey secret, requested sm = some (key, dataKey) → ¬Got key secret t) → Ended sm x t :=
    fun hx ht => ⟨fun _ _ _ heq => absurd heq (hx _ _ _), fun key dataKey secret hreq hgot _ =>
      absurd hgot (ht key dataKey secret hreq)⟩
  unfold resolve
  cases hns : sm.metadata.ns with
  | none => exact hnothing (fun _ _ _ heq => (nomatch heq)) fun _ _ _ _ hgot => (nomatch hgot)
  | some ns =>
    dsimp only
    cases href : sm.spec.kubeconfigSecretRef with
    | some ref =>
      have hreq : requested sm = some (⟨ns, ref.name⟩, ref.key) := by simp [requested, hns, href]
      refine conforms_buildOrGetCached hreq (fun e t ht => ?_) fun x t hended _ => hended
      refine hnothing (fun _ _ _ heq => (nomatch heq)) fun key dataKey secret h => ?_
      cases hreq.symm.trans h
      exact ht secret
    | none =>
      have hreq : requested sm = some (⟨ns, autoSecretName sm⟩, Constants.defaultKubeconfigSecretKey) := by
        simp [requested, hns, href]
      refine conforms_bind.mpr (conforms_attempt.mpr (conforms_buildOrGetCached hreq (fun e t ht => ?_) fun x t hended hx => ?_))
      · have hunread : ∀ key dataKey secret, requested sm = some (key, dataKey) → ¬Got key secret t := by
          intro key dataKey secret h
          cases hreq.symm.trans h
          exact ht secret
        cases e with
        | notFound text => exact hnothing (fun _ _ _ heq => (nomatch heq)) hunread
        | _ => exact hnothing (fun _ _ _ heq => (nomatch heq)) hunread
      · cases x with
        | ok resolved => exact hended
        | error e =>
          cases e with
          | notFound text => exact absurd rfl (hx text)
          | _ => exact hended

end

/-! ## One key per Secret is enough -/

section

variable (versions : CacheKey → String → SecretData) (callers : ScheduledMachine → Prop)

/-- The client was built for one of the callers, from the Secret and version it stands under. -/
def Sourced (key : CacheKey) (kubeconfig resourceVersion : String) : Prop :=
  ∃ sm dataKey, callers sm ∧ requested sm = some (key, dataKey) ∧
    secretValue (versions key resourceVersion) dataKey = some (.ok kubeconfig)

structure CacheInvariant (w : World) (pass : Option (ScheduledMachine × List (Sigma Resp))) : Prop where
  versioned : Versioned versions w
  cache : ∀ key kubeconfig resourceVersion, (key, kubeconfig, resourceVersion) ∈ w.memory.cache →
    Sourced versions callers key kubeconfig resourceVersion
  caller : ∀ sm trace, pass = some (sm, trace) → callers sm
  got : ∀ sm trace, pass = some (sm, trace) → ∀ key secret, Got key secret trace →
    ∃ resourceVersion, secret = ⟨some resourceVersion, versions key resourceVersion⟩
  hits : ∀ sm trace, pass = some (sm, trace) → ∀ key resourceVersion kubeconfig,
    Hit key resourceVersion kubeconfig trace → Sourced versions callers key kubeconfig resourceVersion

end

section

variable {versions : CacheKey → String → SecretData} {callers : ScheduledMachine → Prop}

theorem serve_secret (w : World) (r : Req) (f : Fate) : (serve w r f).2.env.secret = w.env.secret := by
  cases r with
  | api client call =>
    exact serveApi_keeps (P := fun w' => w'.env.secret = w.env.secret) (fun _ _ h => h) rfl
      (fun _ _ h => (perform_static h).2.1) f
  | loc op => cases op <;> rfl
  | timer seconds => cases f <;> rfl

theorem mem_cache_serve {w : World} {r : Req} {f : Fate} {entry : CacheKey × String × String}
    (h : entry ∈ (serve w r f).2.memory.cache) :
    entry ∈ w.memory.cache ∨ r = .loc (.cacheInsert entry.1 entry.2.1 entry.2.2) := by
  cases r with
  | api client call =>
    have hsame : (serveApi w client call f).2.memory = w.memory :=
      serveApi_keeps (P := fun w' => w'.memory = w.memory) (fun _ _ h => h) rfl (fun _ _ h => (perform_static h).2.2) f
    exact .inl (hsame ▸ h)
  | timer seconds => cases f <;> exact .inl h
  | loc op =>
    cases op with
    | cacheGet key resourceVersion =>
      simp only [serve, performLocal, Memory.cacheGet] at h
      split at h
      · rename_i found hfound
        split at h
        · rcases List.mem_cons.mp h with rfl | hold
          · exact .inl (List.mem_of_find?_eq_some hfound)
          · exact .inl (List.mem_of_mem_filter hold)
        · exact .inl h
      · exact .inl h
    | cacheInsert key kubeconfig resourceVersion =>
      simp only [serve, performLocal, Memory.cacheInsert] at h
      rcases List.mem_cons.mp h with rfl | hold
      · exact .inr rfl
      · have hkept := List.mem_of_mem_filter hold
        split at hkept
        · exact .inl ((List.dropLast_sublist _).subset hkept)
        · exact .inl hkept
    | _ => exact .inl h

theorem mem_cache_of_cacheGet {w : World} {key : CacheKey} {resourceVersion kubeconfig : String} {f : Fate}
    (h : (serve w (.loc (.cacheGet key resourceVersion)) f).1 = some kubeconfig) :
    (key, kubeconfig, resourceVersion) ∈ w.memory.cache := by
  simp only [serve, performLocal, Memory.cacheGet] at h
  split at h
  · rename_i found hfound
    split at h
    · rename_i hversion
      have hkey : found.1 = key := by simpa using List.find?_some hfound
      have hmem := List.mem_of_find?_eq_some hfound
      obtain ⟨key', kubeconfig', version'⟩ := found
      cases h
      cases hkey
      cases hversion
      exact hmem
    · cases h
  · cases h

theorem secret_of_getSecret {w : World} {client : Client} {ns name : String} {secret : Secret} {f : Fate}
    (h : (serve w (.api client (.getSecret ns name)) f).1 = .ok secret) : w.env.secret ns name = some secret := by
  have hserved : Served w client (.getSecret ns name) (serve w (.api client (.getSecret ns name)) f).1
      (serve w (.api client (.getSecret ns name)) f).2 := served w client (.getSecret ns name) f
  generalize (serve w (.api client (.getSecret ns name)) f).2 = after at hserved
  rw [h] at hserved
  cases hserved with
  | done hperform =>
    obtain ⟨found, hfound, heq⟩ := orNotFound_eq_ok hperform
    cases heq
    exact hfound

theorem cacheInvariant_keeps (versions : CacheKey → String → SecretData) (callers : ScheduledMachine → Prop) :
    (cacheSystem versions).Keeps cacheRules (fun _ => []) (ColdStart versions) (calledBy callers)
      (fun _ _ => True) (CacheInvariant versions callers) where
  base w hw := by
    refine ⟨hw.versioned, fun _ _ _ h => ?_, fun _ _ h => (nomatch h), fun _ _ h => (nomatch h), fun _ _ h => (nomatch h)⟩
    rw [hw.empty] at h
    cases h
  interfere w pass e _ h _ _ := by
    cases e with
    | turn sm => exact ⟨h.versioned, h.cache, h.caller, h.got, h.hits⟩
    | evict key =>
      refine ⟨h.versioned, fun _ _ _ hmem => ?_, h.caller, h.got, h.hits⟩
      exact h.cache _ _ _ (List.mem_of_mem_filter hmem)
    | update ns name resourceVersion =>
      refine ⟨fun n m secret hsecret => ?_, h.cache, h.caller, h.got, h.hits⟩
      simp only [cacheSystem, cacheAct, World.setSecret] at hsecret
      split at hsecret
      · rename_i heq
        cases hsecret
        exact ⟨resourceVersion, by rw [heq.1, heq.2]⟩
      · exact h.versioned n m secret hsecret
    | remove ns name =>
      refine ⟨fun n m secret hsecret => ?_, h.cache, h.caller, h.got, h.hits⟩
      simp only [cacheSystem, cacheAct, World.setSecret] at hsecret
      split at hsecret
      · cases hsecret
      · exact h.versioned n m secret hsecret
  start w snap _ h hsnap hok := by
    refine ⟨h.versioned, h.cache, fun sm trace heq => ?_, fun sm trace heq _ _ hgot => ?_, fun sm trace heq _ _ _ hhit => ?_⟩
    · cases heq
      exact hok snap hsnap
    · cases heq
      cases hgot
    · cases heq
      cases hhit
  answer w snap r k trace f _ h hallowed _ := by
    rw [cacheRules_after] at hallowed
    have hversioned : Versioned versions (serve w r f).2 := by
      intro ns name secret hsecret
      rw [serve_secret] at hsecret
      exact h.versioned ns name secret hsecret
    refine ⟨hversioned, fun key kubeconfig resourceVersion hmem => ?_, fun sm trace' heq => ?_,
      fun sm trace' heq key secret hgot => ?_, fun sm trace' heq key resourceVersion kubeconfig hhit => ?_⟩
    · rcases mem_cache_serve hmem with hold | rfl
      · exact h.cache key kubeconfig resourceVersion hold
      · obtain ⟨dataKey, secret, hreq, hgot, hversion, hvalue⟩ := hallowed
        obtain ⟨rv, rfl⟩ := h.got snap trace rfl key secret hgot
        cases hversion
        exact ⟨snap, dataKey, h.caller snap trace rfl, hreq, hvalue⟩
    · cases heq
      exact h.caller snap trace rfl
    · cases heq
      rcases List.mem_cons.mp hgot with hnew | hold
      · obtain ⟨rfl, hanswer⟩ := Sigma.mk.inj_iff.mp hnew
        exact h.versioned key.ns key.secretName secret (secret_of_getSecret (eq_of_heq hanswer).symm)
      · exact h.got snap trace rfl key secret hold
    · cases heq
      rcases List.mem_cons.mp hhit with hnew | hold
      · obtain ⟨rfl, hanswer⟩ := Sigma.mk.inj_iff.mp hnew
        exact h.cache key kubeconfig resourceVersion (mem_cache_of_cacheGet (f := f) (eq_of_heq hanswer).symm)
      · exact h.hits snap trace rfl key resourceVersion kubeconfig hold
  finish w snap trace h := ⟨h.versioned, h.cache, fun _ _ h => (nomatch h), fun _ _ h => (nomatch h), fun _ _ h => (nomatch h)⟩
  kill w snap trace h := ⟨h.versioned, fun _ _ _ h => (nomatch h), fun _ _ h => (nomatch h), fun _ _ h => (nomatch h),
    fun _ _ h => (nomatch h)⟩

theorem ended_of_reach {s : CacheState}
    (hs : (cacheSystem versions).Reach (ColdStart versions) (calledBy callers) s)
    {p : Pass Resp ReconcilerError ResolvedClient ScheduledMachine} (hp : s.pass = some p)
    {x : Except ReconcilerError ResolvedClient} (hx : p.rest = Prog.ofExcept x) : Ended p.snap x p.trace := by
  have hconforms := System.Reach.passConforms _ conforms_resolve hs
  rw [hp] at hconforms
  simp only [System.PassConforms, hx, conforms_ofExcept, cacheRules_after] at hconforms
  exact hconforms

theorem cacheCorrect_of_oneKey (hone : OneKeyPerSecret callers) : CacheCorrect callers := by
  intro versions s hs p hp
  have hinvariant := System.Reach.invariant _ conforms_resolve (fun _ _ => trivial)
    (cacheInvariant_keeps versions callers) hs
  have hseen : System.seen s.pass = some (p.snap, p.trace) := by rw [hp]; rfl
  rw [hseen] at hinvariant
  have hcaller := hinvariant.caller _ _ rfl
  -- a client of the cache was built from the key that is asked for now
  have hhit : ∀ {key dataKey resourceVersion kubeconfig}, requested p.snap = some (key, dataKey) →
      Hit key resourceVersion kubeconfig p.trace →
        secretValue (versions key resourceVersion) dataKey = some (.ok kubeconfig) := by
    intro key dataKey resourceVersion kubeconfig hreq hhit
    obtain ⟨sm, dataKey', hsm, hreq', hvalue⟩ := hinvariant.hits _ _ rfl key resourceVersion kubeconfig hhit
    rw [hone _ _ _ _ _ hcaller hsm hreq hreq']
    exact hvalue
  refine ⟨fun kubeconfig key resourceVersion hrest => ?_, fun key dataKey secret hreq hgot hnone hover => ?_⟩
  · have hended := ended_of_reach hs hp (x := .ok (.child kubeconfig key resourceVersion)) hrest
    obtain ⟨dataKey, secret, hreq, hgot, rfl, hvalue⟩ := hended.child _ _ _ rfl
    refine ⟨dataKey, hreq, ?_⟩
    rcases hvalue with hbuilt | hcached
    · obtain ⟨resourceVersion, rfl⟩ := hinvariant.got _ _ rfl key secret hgot
      exact hbuilt
    · exact hhit hreq hcached
  · have hx : ∃ x, p.rest = Prog.ofExcept x := by
      cases hrest : p.rest with
      | pure a => exact ⟨.ok a, rfl⟩
      | fail e => exact ⟨.error e, rfl⟩
      | call r k => exact absurd hrest (hover r k)
    obtain ⟨x, hx⟩ := hx
    rcases (ended_of_reach hs hp hx).missing key dataKey secret hreq hgot hnone with rfl | ⟨kubeconfig, hcached⟩
    · exact hx
    · obtain ⟨resourceVersion, rfl⟩ := hinvariant.got _ _ rfl key secret hgot
      have hvalue := hhit hreq hcached
      rw [Option.getD_some, hnone] at hvalue
      cases hvalue

end

/-! ## Two keys of one Secret are too many -/

section

variable {sm : ScheduledMachine} {key : CacheKey} {dataKey : String} {secret : Secret} {w : World}

theorem exec_resolve (hreq : requested sm = some (key, dataKey)) {kubeconfig resourceVersion : String} {w' : World}
    (hrest : ∀ explicit, (buildOrGetCached key.ns key.secretName dataKey explicit).exec serve .ok w =
      (.ok (.child kubeconfig key resourceVersion), w')) :
    (resolve sm).exec serve .ok w = (.ok (.child kubeconfig key resourceVersion), w') := by
  obtain ⟨ns, hns, hrequest⟩ := Option.map_eq_some_iff.mp hreq
  unfold resolve
  rw [hns]
  dsimp only
  cases href : sm.spec.kubeconfigSecretRef with
  | some ref =>
    rw [href] at hrequest
    cases hrequest
    exact hrest true
  | none =>
    rw [href] at hrequest
    cases hrequest
    rw [Prog.bind_def, Prog.exec_bind, Prog.exec_attempt, hrest false]
    rfl

theorem exec_build (hsecret : w.env.secret key.ns key.secretName = some secret) (hempty : w.memory.cache = [])
    {kubeconfig : String} (hvalue : secretValue secret.data dataKey = some (.ok kubeconfig))
    (husable : w.env.unusable kubeconfig = none) : ∃ w', w'.env = w.env ∧
      w'.memory.cache = [(key, kubeconfig, secret.resourceVersion.getD "")] ∧
      ∀ explicit, (buildOrGetCached key.ns key.secretName dataKey explicit).exec serve .ok w =
        (.ok (.child kubeconfig key (secret.resourceVersion.getD "")), w') := by
  refine ⟨{ w.recordCall .management (.getSecret key.ns key.secretName) true none w with
    memory := { w.memory with cache := [(key, kubeconfig, secret.resourceVersion.getD "")] } }, rfl, rfl, fun explicit => ?_⟩
  have hread : (secret.data.bind fun data => data.find? fun entry => entry.1 == dataKey).map Prod.snd =
    some (.ok kubeconfig) := hvalue
  have hroom : ¬Constants.childClientCacheCap ≤ 0 := by decide
  simp [-Option.map_bind, buildOrGetCached, buildChildClient, api, local_, Prog.request, Prog.bind, Prog.exec, serve,
    serveApi, perform, orNotFound, hsecret, orError, performLocal, Memory.cacheGet, hempty, hread, husable,
    World.recordCall, World.record, Memory.cacheInsert, hroom, hookEvicted]

theorem exec_hit (hsecret : w.env.secret key.ns key.secretName = some secret) {kubeconfig : String}
    (hcache : w.memory.cache = [(key, kubeconfig, secret.resourceVersion.getD "")]) : ∃ w',
      ∀ explicit, (buildOrGetCached key.ns key.secretName dataKey explicit).exec serve .ok w =
        (.ok (.child kubeconfig key (secret.resourceVersion.getD "")), w') := by
  refine ⟨{ w.recordCall .management (.getSecret key.ns key.secretName) true none w with
    memory := { w.memory with cache := [(key, kubeconfig, secret.resourceVersion.getD "")] } }, fun explicit => ?_⟩
  simp [buildOrGetCached, api, local_, Prog.request, Prog.bind, Prog.exec, serve, serveApi, perform,
    orNotFound, hsecret, orError, performLocal, Memory.cacheGet, hcache, World.recordCall, World.record]

end

/-- A Secret with one data key, for the first of two callers. -/
def sharedWorld (sm : ScheduledMachine) (key : CacheKey) (dataKey : String) : World :=
  { demoWorld with
    sm := some sm
    env := { demoEnv with secret := fun ns name =>
      if (⟨ns, name⟩ : CacheKey) = key then some ⟨some "1", some [(dataKey, .ok "kubeconfig")]⟩ else none } }

/-- The second of two callers is given the client of the first. -/
theorem oneKey_of_cacheCorrect {callers : ScheduledMachine → Prop} (h : CacheCorrect callers) : OneKeyPerSecret callers := by
  intro a b key dataKey dataKey' ha hb hreq hreq'
  let versions : CacheKey → String → SecretData := fun _ _ => some [(dataKey, .ok "kubeconfig")]
  have hcold : ColdStart versions (sharedWorld a key dataKey) := by
    refine ⟨rfl, fun ns name secret hsecret => ?_⟩
    simp only [sharedWorld] at hsecret
    split at hsecret
    · cases hsecret
      exact ⟨"1", rfl⟩
    · cases hsecret
  have hsecret : (sharedWorld a key dataKey).env.secret key.ns key.secretName =
      some ⟨some "1", some [(dataKey, .ok "kubeconfig")]⟩ := if_pos rfl
  have hvalue : secretValue (some [(dataKey, .ok "kubeconfig")]) dataKey = some (.ok "kubeconfig") := by
    simp [secretValue]
  obtain ⟨w₁, henv, hcache, hbuild⟩ := exec_build hsecret rfl hvalue rfl
  have hfirst : (cacheSystem versions).Reach (ColdStart versions) (calledBy callers)
      ⟨sharedWorld a key dataKey, some ⟨a, resolve a, []⟩⟩ :=
    .step (.init hcold) (a := .start) (fun sm hsm => by cases hsm; exact ha) rfl
  obtain ⟨trace₁, hdone⟩ := hfirst.exec (f := .ok) (fun _ _ _ _ => trivial) (resolve a)
  have hexec₁ := exec_resolve hreq hbuild
  simp only [cacheSystem] at hdone
  rw [hexec₁] at hdone
  have hturn : (cacheSystem versions).Reach (ColdStart versions) (calledBy callers) ⟨w₁.setSm (some b), none⟩ :=
    .step (.step hdone (a := .finish) trivial rfl) (a := .interfere (.turn b)) trivial rfl
  have hsecond : (cacheSystem versions).Reach (ColdStart versions) (calledBy callers)
      ⟨w₁.setSm (some b), some ⟨b, resolve b, []⟩⟩ :=
    .step hturn (a := .start) (fun sm hsm => by cases hsm; exact hb) rfl
  have hstill : (w₁.setSm (some b)).env.secret key.ns key.secretName =
      some ⟨some "1", some [(dataKey, .ok "kubeconfig")]⟩ := by
    rw [← hsecret, ← henv]
    rfl
  obtain ⟨w₂, hhit⟩ := @exec_hit key dataKey' _ _ hstill _ hcache
  obtain ⟨trace₂, hended⟩ := hsecond.exec (f := .ok) (fun _ _ _ _ => trivial) (resolve b)
  have hexec₂ := exec_resolve hreq' hhit
  simp only [cacheSystem] at hended
  rw [hexec₂] at hended
  obtain ⟨dataKey'', hreq'', hbuilt⟩ := (h versions _ hended _ rfl).built _ _ _ rfl
  cases hreq'.symm.trans hreq''
  by_contra hne
  simp [versions, secretValue, hne] at hbuilt

/-- For every set of callers: the cache serves them correctly in every run if and only if callers of the
same Secret ask for the same data key. -/
theorem cache_correct_iff (callers : ScheduledMachine → Prop) : CacheCorrect callers ↔ OneKeyPerSecret callers :=
  ⟨oneKey_of_cacheCorrect, cacheCorrect_of_oneKey⟩

/-- The demo resource with an explicit reference to a data key. -/
def readerOf (dataKey : String) : ScheduledMachine :=
  { demoMachine with spec := { demoSpec with kubeconfigSecretRef := some ⟨"clusters", dataKey⟩ } }

/-- Two tenants with two keys of one Secret: the second gets a client for the cluster of the first. -/
theorem cache_confuses_keys : ¬CacheCorrect fun _ => True := by
  intro h
  have hsame := oneKey_of_cacheCorrect h (readerOf "blue") (readerOf "green") ⟨"team", "clusters"⟩ "blue" "green"
    trivial trivial rfl rfl
  revert hsame
  decide

end FiveSpot
