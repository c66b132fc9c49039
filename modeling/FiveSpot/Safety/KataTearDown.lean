import FiveSpot.Agents.KataNotes
import FiveSpot.Discipline.Helpers

/-! # The tear-down handshake

The controller takes back its reference and leaves the label; the agent removes the drop-in and then the label it
is scheduled by. The last patch does not look at the Node again: when a new reference has come in between, the
agent takes away the label of a delivery that is under way.
-/

namespace FiveSpot.KataAgent

set_option autoImplicit false

open Interaction

/-! ## The patches of the controller -/

/-- The requests that patch a Node patch this one, in one of the two ways. -/
def PatchesAsDelivery (nodeName : String) (r : Req) : Prop :=
  ∀ client name body, r = .api client (.patchNode name body) → name = nodeName ∧ ∃ kata, body = deliveryPatch kata

theorem delivery_issues (client : Client) (nodeName : String) (kata : Option KataConfig) :
    (reconcileKataConfigDelivery client nodeName kata).Issues (PatchesAsDelivery nodeName) := by
  have hpatch : ∀ kata', (api client (.patchNode nodeName (deliveryPatch kata'))).Issues (PatchesAsDelivery nodeName) := by
    intro kata'
    apply issues_api
    intro c name body h
    cases h
    exact ⟨rfl, kata', rfl⟩
  have hread : ∀ call : ApiCall, (∀ name body, call ≠ .patchNode name body) →
      (api client call).Issues (PatchesAsDelivery nodeName) := by
    intro call hcall
    apply issues_api
    intro c name body h
    cases h
    exact absurd rfl (hcall name body)
  unfold reconcileKataConfigDelivery
  split
  · exact (hpatch none).bind fun _ => (issues_orKubeError _).bind fun _ => trivial
  · rename_i kata
    have hpresent : (kataSourcePresent client kata).Issues (PatchesAsDelivery nodeName) := by
      unfold kataSourcePresent
      split
      · exact (hread _ (by intro _ _ h; cases h)).bind fun _ => issues_orKubeError _
      · exact (hread _ (by intro _ _ h; cases h)).bind fun _ => issues_orKubeError _
    refine hpresent.bind fun present => ?_
    split
    · exact (hpatch (some kata)).bind fun _ => (issues_orKubeError _).bind fun _ => trivial
    · refine (hread _ (by intro _ _ h; cases h)).bind fun _ => (issues_orKubeError _).bind fun _ => ?_
      exact (hpatch none).bind fun _ => (issues_orKubeError _).bind fun _ => trivial

/-! ## Runs -/

/-- Nobody but the controller and the agent acts on Node and drop-in. Within a tick the agent is stopped by being killed. -/
def undisturbed (s : RunState) : RunAct → Bool
  | .interfere (.drift _) => false
  | .interfere .stop => s.pass.isNone
  | _ => true

/-- The patch that removes the label takes effect while the reference is still absent. -/
def clearsInTime (s : RunState) : RunAct → Bool
  | .answer fate => match fate, s.pass with
    | .fail _, _ => true
    | _, some ⟨_, .call (.patchNode body) _, _⟩ => decide (body = clearOptinPatch → s.world.ref = none)
    | _, _ => true
  | _ => true

structure Bare (site : Site) : Prop where
  label : site.label = none
  ref : site.ref = none
  dest : site.dest = none
  idle : site.running = false

/-! ## The label stays as long as it is needed -/

/-- A reference, a drop-in and a delivery under way each have the label. -/
structure Guarded (node : Node) (dest : Option ByteArray) (t : Notes) : Prop where
  ref : annotationOf node Constants.kataConfigRefAnnotation ≠ none →
    StringMap.lookup Constants.kataConfigLabel node.labels = some Constants.kataConfigLabelEnabled
  dropIn : dest ≠ none → StringMap.lookup Constants.kataConfigLabel node.labels = some Constants.kataConfigLabelEnabled
  delivers : ∀ view, t.view = some view → view.ref ≠ none →
    StringMap.lookup Constants.kataConfigLabel node.labels = some Constants.kataConfigLabelEnabled
  absent : t.TearsDown → t.dest = some none → dest = none

section

variable {platform : Platform} {node : Node} {dest : Option ByteArray} {t : Notes}

theorem Guarded.between (h : Guarded node dest t) : Guarded node dest .none where
  ref := h.ref
  dropIn := h.dropIn
  delivers _ hview := nomatch hview
  absent := fun ⟨_, hview, _⟩ => nomatch hview

theorem Guarded.deliver (h : Guarded node dest t) (kata : KataConfig) :
    Guarded ((deliveryPatch (some kata)).apply node) dest t where
  ref _ := label_deliver node kata
  dropIn _ := label_deliver node kata
  delivers _ _ _ := label_deliver node kata
  absent := h.absent

theorem Guarded.withdraw (h : Guarded node dest t) : Guarded ((deliveryPatch none).apply node) dest t where
  ref href := absurd (ref_withdraw node) href
  dropIn := h.dropIn
  delivers := h.delivers
  absent := h.absent

theorem Guarded.clear (h : Guarded node dest t) (htears : t.TearsDown) (hdest : t.dest = some none)
    (href : annotationOf node Constants.kataConfigRefAnnotation = none) : Guarded (clearOptinPatch.apply node) dest t where
  ref hsome := absurd ((ref_clear node).trans href) hsome
  dropIn hsome := absurd (h.absent htears hdest) hsome
  delivers view hview hsome := by
    obtain ⟨view', hview', hnone⟩ := htears
    cases hview.symm.trans hview'
    exact absurd hnone hsome
  absent := h.absent

theorem Guarded.record (h : Guarded node dest t) (hash : String) : Guarded ((recordAppliedPatch hash).apply node) dest t where
  ref hsome := h.ref (by rwa [ref_record] at hsome)
  dropIn := h.dropIn
  delivers := h.delivers
  absent := h.absent

theorem Guarded.of_same {t' : Notes} (h : Guarded node dest t) (hview : t'.view = t.view)
    (hdest : t'.dest = some none → t.dest = some none) : Guarded node dest t' where
  ref := h.ref
  dropIn := h.dropIn
  delivers view hview' := h.delivers view (hview ▸ hview')
  absent := by
    rintro ⟨view, hview', href⟩ hnone
    exact h.absent ⟨view, hview ▸ hview', href⟩ (hdest hnone)

end

/-! ## Every answer keeps the label guarded -/

section

variable {platform : Platform} {site : Site} {t : Notes}

theorem guarded_patch {body : NodePatch} {fate : Fate} (hallowed : t.allows platform (.patchNode body))
    (htime : (∃ e, fate = .fail e) ∨ (body = clearOptinPatch → site.ref = none)) (h : Guarded site.node site.dest t) :
    Guarded (serve site (.patchNode body) fate).2.node (serve site (.patchNode body) fate).2.dest
      (t.observe platform (.patchNode body) (serve site (.patchNode body) fate).1) := by
  have hpatched : (∀ e, fate ≠ .fail e) → Guarded (body.apply site.node) site.dest t := by
    intro hfate
    obtain ⟨-, -, ⟨rfl, htears, hdest⟩ | ⟨hash, rfl, -⟩⟩ := hallowed
    · rcases htime with ⟨e, rfl⟩ | htime
      · exact absurd rfl (hfate e)
      · exact h.clear htears hdest (htime rfl)
    · exact h.record hash
  cases fate with
  | ok => exact (hpatched fun e h => nomatch h).of_same rfl id
  | fail e => exact h.of_same rfl id
  | lost e => exact (hpatched fun e h => nomatch h).of_same rfl id

theorem guarded_rename {fate : Fate} (hallowed : t.allows platform .renameTemp) (h : Guarded site.node site.dest t) :
    Guarded (serve site .renameTemp fate).2.node (serve site .renameTemp fate).2.dest
      (t.observe platform .renameTemp (serve site .renameTemp fate).1) := by
  obtain ⟨-, bytes, ⟨⟨view, hview, hkref⟩, -⟩, -⟩ := hallowed
  have href : view.ref ≠ none := by
    intro hnone
    rw [View.kataRef, hnone] at hkref
    cases hkref
  have hlabel := h.delivers view hview href
  have hview' : (t.observe platform .renameTemp (serve site .renameTemp fate).1).view = t.view := by
    cases (serve site .renameTemp fate).1 <;> rfl
  have hnode : (serve site .renameTemp fate).2.node = site.node := by
    rcases serve_after site .renameTemp fate with hsame | ⟨answer, hperform⟩
    · rw [hsame]
    · rw [renamed_eq hperform]
  rw [hnode]
  constructor
  · exact fun _ => hlabel
  · exact fun _ => hlabel
  · exact fun _ _ _ => hlabel
  · rintro ⟨view', hview₂, hnone⟩
    rw [hview', hview] at hview₂
    cases hview₂
    exact absurd hnone href

theorem guarded_serve {call : Call} {fate : Fate} (hallowed : t.allows platform call)
    (htime : ∀ body, call = .patchNode body → (∃ e, fate = .fail e) ∨ (body = clearOptinPatch → site.ref = none))
    (h : Guarded site.node site.dest t) :
    Guarded (serve site call fate).2.node (serve site call fate).2.dest
      (t.observe platform call (serve site call fate).1) := by
  cases call with
  | getNode =>
    have hview : ∀ view, View.of site.node = view → view.ref ≠ none →
        StringMap.lookup Constants.kataConfigLabel site.node.labels = some Constants.kataConfigLabelEnabled := by
      rintro view rfl href
      exact h.ref href
    cases hallowed
    cases fate with
    | ok => exact ⟨h.ref, h.dropIn, fun view hv => hview view (Option.some.inj hv), fun _ hdest => nomatch hdest⟩
    | fail e => exact h.of_same rfl id
    | lost e => exact h.of_same rfl id
  | patchNode body => exact guarded_patch hallowed (htime body rfl) h
  | renameTemp => exact guarded_rename hallowed h
  | readDest =>
    cases fate with
    | ok => exact ⟨h.ref, h.dropIn, h.delivers, fun _ hdest => Option.some.inj hdest⟩
    | fail e => exact h.of_same rfl id
    | lost e => exact h.of_same rfl id
  | removeDest =>
    cases fate with
    | ok => exact ⟨h.ref, (fun hdest => absurd rfl hdest), h.delivers, fun _ _ => rfl⟩
    | fail e => exact h.of_same rfl fun hdest => nomatch hdest
    | lost e => exact ⟨h.ref, (fun hdest => absurd rfl hdest), h.delivers, fun _ _ => rfl⟩
  | _ => cases fate <;> exact h.of_same rfl id

end

/-! ## Whole runs -/

section

variable (platform : Platform) (nodeName : String)

theorem guarded_keeps :
    (system platform nodeName).Keeps (fun _ => tickMonitor platform) (fun _ => Notes.none) Bare
      (fun s a => undisturbed s a = true ∧ clearsInTime s a = true) (fun _ _ => True)
      (fun site pass => Guarded site.node site.dest (notes platform (traceOf pass))) where
  base site hbare := by
    constructor
    · exact fun href => absurd hbare.ref href
    · exact fun hdest => absurd hbare.dest hdest
    · exact fun _ hview => nomatch hview
    · rintro ⟨_, hview, _⟩
      cases hview
  interfere site pass e _ h _ hok := by
    cases e with
    | deliver kata =>
      change Guarded (site.patched _).node (site.patched _).dest _
      rw [Site.patched_node, Site.patched_dest]
      exact h.deliver kata
    | withdraw =>
      change Guarded (site.patched _).node (site.patched _).dest _
      rw [Site.patched_node, Site.patched_dest]
      exact h.withdraw
    | putConfigMap ns name value =>
      change Guarded (site.putConfigMap ns name value).node (site.putConfigMap ns name value).dest _
      rcases site.putConfigMap_eq ns name value with heq | heq <;> rw [heq] <;> exact h
    | putSecret ns name value =>
      change Guarded (site.putSecret ns name value).node (site.putSecret ns name value).dest _
      rcases site.putSecret_eq ns name value with heq | heq <;> rw [heq] <;> exact h
    | boot => exact h
    | stop => exact h
    | drift dest => cases hok.1
  start site snap _ h _ _ := h
  answer site snap call k trace fate _ h hallowed hok := by
    apply guarded_serve hallowed _ h
    rintro body rfl
    cases fate with
    | fail e => exact .inl ⟨e, rfl⟩
    | ok => exact .inr (of_decide_eq_true hok.2)
    | lost e => exact .inr (of_decide_eq_true hok.2)
  finish _ _ _ h := h.between
  kill _ _ _ h := h.between

/-- When label and reference are gone and nobody is left to clean up, there is nothing to clean up, as long as the
label is never removed from under a new reference. -/
theorem teardown_leaves_nothing {s : RunState}
    (hs : (system platform nodeName).Reach Bare (fun s a => undisturbed s a = true ∧ clearsInTime s a = true) s)
    (hlabel : s.world.label = none) (_href : s.world.ref = none) (_hidle : s.world.running = false)
    (_hpass : s.pass = none) : s.world.dest = none := by
  have h := System.Reach.invariant (system platform nodeName) (fun _ => reconcileOnce_conforms nodeName)
    (fun _ _ => trivial) (guarded_keeps platform nodeName) hs
  by_contra hdest
  have hsome := h.dropIn hdest
  rw [Site.label] at hlabel
  rw [hlabel] at hsome
  cases hsome

end

/-! ## A run in which the label goes too early -/

def sampleKata : KataConfig := ⟨.configMap, "kata", "5spot-system", "kata.toml", "k0sworker.service"⟩

/-- `sha2` and `serde_json` on what the sample host sees. -/
def samplePlatform : Platform where
  digest bytes :=
    if bytes = "[kata]\n".toUTF8 then [0x93, 0xd1, 0xde, 0x43, 0xc4, 0x89, 0xc7, 0x97, 0xc5, 0xde, 0x00, 0xb7, 0x2f, 0x1c, 0xa8, 0x89, 0x37, 0x2d, 0x8a, 0xc2, 0xaa, 0xa9, 0x9d, 0x0b, 0x79, 0xd3, 0xa4, 0xd3, 0x01, 0xf4, 0x7b, 0x51]
    else [0x21, 0x6f, 0xac, 0x48, 0xab, 0xd5, 0x36, 0x66, 0xc0, 0x58, 0x4f, 0x4d, 0xaf, 0xe3, 0x95, 0xa8, 0xfd, 0x11,
      0x1f, 0x46, 0x6a, 0xf6, 0xd6, 0xa8, 0x47, 0x90, 0xfe, 0xab, 0x43, 0x80, 0x0d, 0x17]
  fromUtf8Lossy bytes := (String.fromUTF8? bytes).getD ""
  parseKataRef raw :=
    if raw = kataRefText sampleKata then .ok ⟨"5spot-system", "ConfigMap", "kata", "kata.toml", "k0sworker.service"⟩
    else .error "expected value at line 1 column 1"

def sampleNode : Node := ⟨[], none, false, [], none, distinctTaints_nil, isStored_nil⟩

def sampleSource (text : String) : Option ConfigMapData := some ⟨some [("kata.toml", text)]⟩

def sampleSite : Site where
  node := sampleNode
  sources := ⟨fun _ _ => sampleSource "[kata]\n", fun _ _ => none⟩
  dest := none
  temp := none
  running := false
  log := []

theorem sampleSite_bare : Bare sampleSite := ⟨rfl, rfl, rfl, rfl⟩

def answers (n : Nat) : List RunAct := List.replicate n (.answer .ok)

/-- The reference comes and goes, and with it a whole delivery and a whole tear-down. -/
def handshake : List RunAct :=
  [.interfere (.deliver sampleKata), .interfere .boot, .start] ++ answers 11 ++ [.finish, .interfere .withdraw, .start] ++
    answers 5 ++ [.finish, .interfere .stop]

def nothingLeft (s : RunState) : Bool :=
  s.world.label.isNone && s.world.ref.isNone && !s.world.running && s.pass.isNone

theorem nothingLeft_iff {s : RunState} (h : nothingLeft s = true) :
    s.world.label = none ∧ s.world.ref = none ∧ s.world.running = false ∧ s.pass = none := by
  simpa [nothingLeft, and_assoc] using h

theorem teardown_leaves_nothing_handshake : ∃ s : RunState, s.world.log ≠ [] ∧ s.world.dest = none := by
  obtain ⟨s, hs, hend⟩ := System.Reach.exists_of_runWith (system samplePlatform "worker-1")
    (fun s a => undisturbed s a && clearsInTime s a) (fun s => nothingLeft s && decide (s.world.log ≠ [])) handshake
    sampleSite_bare (by decide +kernel)
  obtain ⟨hleft, hlog⟩ := Bool.and_eq_true_iff.mp hend
  obtain ⟨hlabel, href, hidle, hpass⟩ := nothingLeft_iff hleft
  have hreach := System.Reach.mono (system samplePlatform "worker-1") (fun _ _ h => Bool.and_eq_true_iff.mp h) hs
  exact ⟨s, of_decide_eq_true hlog,
    teardown_leaves_nothing samplePlatform "worker-1" hreach hlabel href hidle hpass⟩

/-- A reference comes back between the removal of the drop-in and that of the label. The agent, which is being
stopped for want of a label, has time for one more delivery. -/
def reenabled : List RunAct :=
  [.interfere (.deliver sampleKata), .interfere .boot, .interfere .withdraw, .start] ++ answers 3 ++
    [.interfere (.deliver sampleKata), .answer .ok, .finish, .start] ++ answers 11 ++
    [.finish, .interfere .stop, .interfere .withdraw]

/-- The drop-in stays behind. -/
theorem reenabled_leaves_dropIn : ¬∀ s : RunState,
    (system samplePlatform "worker-1").Reach Bare (fun s a => undisturbed s a = true) s → s.world.label = none →
      s.world.ref = none → s.world.running = false → s.pass = none → s.world.dest = none := by
  intro hclean
  obtain ⟨s, hs, hend⟩ := System.Reach.exists_of_runWith (system samplePlatform "worker-1") undisturbed
    (fun s => nothingLeft s && s.world.dest.isSome) reenabled sampleSite_bare (by decide +kernel)
  obtain ⟨hleft, hdest⟩ := Bool.and_eq_true_iff.mp hend
  obtain ⟨hlabel, href, hidle, hpass⟩ := nothingLeft_iff hleft
  rw [hclean s hs hlabel href hidle hpass] at hdest
  cases hdest

end FiveSpot.KataAgent
