import FiveSpot.Model.ObjectText
import FiveSpot.Safety.KataSync
import FiveSpot.Safety.KataTearDown

/-! # Delivery from the spec to the host

The controller writes a reference to the source onto the Node as a text; the agent reads it back, fetches the object it
names and brings the drop-in of its host in line with it. The bytes of a Secret pass through a string on their way.
-/

namespace FiveSpot.KataAgent

set_option autoImplicit false

open Interaction

/-! ## What the agent relies on -/

/-- The field of a struct: it has to be there exactly once, and other members are ignored. -/
def memberOf (name : String) (members : List (String × String)) : Option String :=
  match members.filter fun member => member.1 == name with
  | [member] => some member.2
  | _ => none

/-- A reference written as a JSON object of strings. -/
def KataRef.ofText (text : String) : Option KataRef := do
  let members ← Text.readObject text
  let ns ← memberOf "namespace" members
  let kind ← memberOf "kind" members
  let name ← memberOf "name" members
  let key ← memberOf "key" members
  let restartService ← memberOf "restartService" members
  return ⟨ns, kind, name, key, restartService⟩

structure Platform.Documented (platform : Platform) : Prop where
  reads : ∀ text kref, KataRef.ofText text = some kref → platform.parseKataRef text = .ok kref
  /-- Bytes that are valid UTF-8 are not changed. -/
  keepsText : ∀ s : String, platform.fromUtf8Lossy s.toUTF8 = s

/-! ## What is delivered -/

structure SourceKey where
  kind : KataConfigSourceKind
  ns : String
  name : String
  deriving DecidableEq

/-- The object whose existence a call of the controller asks for. -/
def askedFor : ApiCall → Option SourceKey
  | .configMapExists ns name => some ⟨.configMap, ns, name⟩
  | .secretExists ns name => some ⟨.secret, ns, name⟩
  | _ => none

/-- The object a call of the agent reads. -/
def Call.source : Call → Option SourceKey
  | .getConfigMap ns name => some ⟨.configMap, ns, name⟩
  | .getSecret ns name => some ⟨.secret, ns, name⟩
  | _ => none

def refOf (kata : KataConfig) : KataRef := ⟨kata.ns, kata.kind.text, kata.name, kata.key, kata.restartService⟩

/-- The bytes under the key of the source's `data` map. -/
def stored (sources : Sources) (kata : KataConfig) : Option ByteArray :=
  match kata.kind with
  | .configMap => (((sources.configMap kata.ns kata.name).bind (·.data)).bind (StringMap.lookup kata.key)).map String.toUTF8
  | .secret => ((sources.secret kata.ns kata.name).bind (·.data)).bind (·.lookup kata.key)

/-- The Node has the reference as the controller's patch leaves it. -/
def Stamped (kata : KataConfig) (site : Site) : Prop :=
  ∃ node : Node, site.ref =
    annotationOf ((buildKataConfigRefAnnotationPatch (some kata)).apply node) Constants.kataConfigRefAnnotation

structure DeliversExactly (platform : Platform) (nodeName : String) (client : Client) (kata : KataConfig) (site : Site) :
    Prop where
  recovered : ∀ text, site.ref = some text → platform.parseKataRef text = .ok (refOf kata)
  /-- Whatever object a tick reads is the one the controller has asked for. -/
  sameObject : ∀ cut call k, Proceeds serve (alone Site) site (reconcileOnce platform nodeName) cut (.call call k) →
    ∀ key, call.source = some key → ∃ check rest, kataSourcePresent client kata = .call (.api client check) rest ∧
      askedFor check = some key
  onHost : ∀ after, Runs serve (alone Site) site (reconcileOnce platform nodeName) (.ok ()) after →
    after.dest = stored site.sources kata

/-- What the agent makes of the source. -/
def fetched (platform : Platform) (sources : Sources) (kata : KataConfig) : Option ByteArray :=
  match kata.kind with
  | .configMap => stored sources kata
  | .secret => (stored sources kata).map fun bytes => (platform.fromUtf8Lossy bytes).toUTF8

/-! ## The reference -/

section

variable {platform : Platform} {nodeName : String} {kata : KataConfig} {site after : Site}

theorem kataRefText_eq (kata : KataConfig) : kataRefText kata = Text.objectText
    [("key", kata.key), ("kind", kata.kind.text), ("name", kata.name), ("namespace", kata.ns),
      ("restartService", kata.restartService)] := by
  have hkey : "\x7b\"key\":".toList = '\x7b' :: ((Text.jsonString "key").toList ++ [':']) := by decide
  have hkind : ",\"kind\":".toList = ',' :: ((Text.jsonString "kind").toList ++ [':']) := by decide
  have hname : ",\"name\":".toList = ',' :: ((Text.jsonString "name").toList ++ [':']) := by decide
  have hns : ",\"namespace\":".toList = ',' :: ((Text.jsonString "namespace").toList ++ [':']) := by decide
  have hservice : ",\"restartService\":".toList = ',' :: ((Text.jsonString "restartService").toList ++ [':']) := by decide
  have hclose : "\x7d".toList = ['\x7d'] := by decide
  delta kataRefText
  refine String.toList_inj.mp ?_
  simp only [Text.objectText, String.toList_ofList, Text.membersText, Text.memberText, String.toList_append, hkey, hkind,
    hname, hns, hservice, hclose, List.append_assoc, List.cons_append, List.nil_append]

theorem ofText_kataRefText (kata : KataConfig) : KataRef.ofText (kataRefText kata) = some (refOf kata) := by
  rw [kataRefText_eq, KataRef.ofText, Text.readObject_objectText]
  rfl

theorem ref_of_stamped (h : Stamped kata site) : site.ref = some (kataRefText kata) := by
  obtain ⟨node, href⟩ := h
  rw [href, buildKataConfigRefAnnotationPatch, annotationOf_apply, if_pos rfl]
  rfl

/-! ## Undisturbed calls -/

theorem serve_ok_perform {call : Call} {fate : Fate} {answer : call.Answer} {r : Resp call × Site}
    (hserve : serve site call fate = r) (h : r.1 = .ok answer) : perform site call = .ok (answer, r.2) := by
  subst hserve
  unfold serve at h ⊢
  split at h
  · rename_i hperform
    cases h
    exact hperform
  · cases h
  · cases h
  · cases h
  · cases h

/-- A call that returns has been carried out. -/
theorem performed_of_ask {call : Call} {answer : call.Answer}
    (h : Runs serve (alone Site) site (ask call) (.ok answer) after) : perform site call = .ok (answer, after) := by
  obtain ⟨fate, hrest⟩ := h.of_call_alone
  generalize hserve : serve site call fate = r at hrest
  obtain ⟨reply, w⟩ := r
  cases reply with
  | ok given =>
    obtain ⟨hanswer, rfl⟩ := hrest.of_pure_alone
    cases hanswer
    exact serve_ok_perform hserve rfl
  | error e => cases hrest.of_fail_alone.1

theorem performed_of_askIn {context : String} {call : Call} {answer : call.Answer}
    (h : Runs serve (alone Site) site (askIn context call) (.ok answer) after) : perform site call = .ok (answer, after) := by
  obtain ⟨fate, hrest⟩ := h.of_call_alone
  generalize hserve : serve site call fate = r at hrest
  obtain ⟨reply, w⟩ := r
  cases reply with
  | ok given =>
    obtain ⟨hanswer, rfl⟩ := hrest.of_pure_alone
    cases hanswer
    exact serve_ok_perform hserve rfl
  | error e => cases hrest.of_fail_alone.1

/-! ## The sync -/

/-- What is left of a write once the parent directory is there. -/
theorem dest_of_atomicWrite {bytes : ByteArray}
    (h : Runs serve (alone Site) site (atomicWrite bytes) (.ok ()) after) : after.dest = some bytes := by
  obtain ⟨_, w, -, hclean⟩ := h.of_bind_ok
  obtain ⟨fate, hclean⟩ := hclean.of_call_alone
  obtain ⟨_, written, hwrite, hchmod⟩ := hclean.of_bind_ok
  obtain ⟨_, ready, hmode, hrename⟩ := hchmod.of_bind_ok
  have htemp : ready.temp = some bytes := by
    have hwritten := performed_of_ask hwrite
    have hready := performed_of_ask hmode
    cases hwritten
    cases hready
    rfl
  obtain ⟨fate, hrest⟩ := hrename.of_call_alone
  generalize hserve : serve ready .renameTemp fate = r at hrest
  obtain ⟨reply, w⟩ := r
  cases reply with
  | ok given =>
    obtain ⟨-, rfl⟩ := hrest.of_pure_alone
    have hdone : perform ready .renameTemp = .ok (given, after) := serve_ok_perform hserve rfl
    rw [renamed_eq hdone]
    exact htemp
  | error e =>
    obtain ⟨fate, hrest⟩ := hrest.of_call_alone
    cases hrest.of_fail_alone.1

variable {content : Option ByteArray}

theorem dest_of_syncContent {outcome : SyncOutcome}
    (hdigest : ∀ old new, site.dest = some old → content = some new → platform.digest old = platform.digest new → old = new)
    (h : Runs serve (alone Site) site (syncContent platform content) (.ok outcome) after) : after.dest = content := by
  rw [syncContent_eq] at h
  obtain ⟨dest, w, hread, hsync⟩ := h.of_bind_ok
  cases performed_of_ask hread
  generalize hdest : site.dest = dest at hdigest hsync
  cases content with
  | none =>
    cases dest with
    | none =>
      obtain ⟨-, rfl⟩ := hsync.of_pure_alone
      exact hdest
    | some old =>
      obtain ⟨removed, w, hremove, hrest⟩ := hsync.of_bind_ok
      cases performed_of_ask hremove
      obtain ⟨-, rfl⟩ := hrest.of_pure_alone
      rfl
  | some bytes =>
    unfold syncFrom at hsync
    by_cases hsame : dest.map (sha256Hex platform) = some (sha256Hex platform bytes)
    · simp only [decideAction, if_pos hsame] at hsync
      obtain ⟨-, rfl⟩ := hsync.of_pure_alone
      obtain ⟨old, rfl, hhash⟩ := Option.map_eq_some_iff.mp hsame
      rw [hdest, hdigest old bytes rfl rfl (hexText_injective hhash)]
    · simp only [decideAction, if_neg hsame] at hsync
      obtain ⟨_, w, hwrite, hrest⟩ := hsync.of_bind_ok
      obtain ⟨-, rfl⟩ := hrest.of_pure_alone
      exact dest_of_atomicWrite hwrite

/-! ## A tick with the reference -/

theorem state_of_readNodeState (hplatform : platform.Documented) (href : site.ref = some (kataRefText kata))
    {state : NodeState} (h : Runs serve (alone Site) site (readNodeState platform nodeName) (.ok state) after) :
    state.kataRef = some (refOf kata) ∧ after = site := by
  obtain ⟨node, w, hread, hrest⟩ := h.of_bind_ok
  cases performed_of_askIn hread
  have hraw : annotationOf site.node Constants.kataConfigRefAnnotation = some (kataRefText kata) := href
  simp only [hraw, hplatform.reads _ _ (ofText_kataRefText kata)] at hrest
  obtain ⟨hstate, rfl⟩ := hrest.of_pure_alone
  cases hstate
  exact ⟨rfl, rfl⟩

theorem fetchContent_configMap (platform : Platform) (h : kata.kind = .configMap) : fetchContent platform (refOf kata) =
    (ask (.getConfigMap kata.ns kata.name)).bind fun found => .pure ((refOf kata).inConfigMap found) := by
  rw [fetchContent, refOf, h]
  rfl

theorem fetchContent_secret (platform : Platform) (h : kata.kind = .secret) : fetchContent platform (refOf kata) =
    (ask (.getSecret kata.ns kata.name)).bind fun found => .pure ((refOf kata).inSecret platform found) := by
  rw [fetchContent, refOf, h]
  rfl

theorem content_of_fetchContent {text : Option String}
    (h : Runs serve (alone Site) site (fetchContent platform (refOf kata)) (.ok text) after) :
    text.map String.toUTF8 = fetched platform site.sources kata ∧ after = site := by
  unfold fetched stored
  cases hkind : kata.kind with
  | configMap =>
    rw [fetchContent_configMap platform hkind] at h
    obtain ⟨found, w, hread, hrest⟩ := h.of_bind_ok
    cases performed_of_ask hread
    obtain ⟨htext, rfl⟩ := hrest.of_pure_alone
    cases htext
    exact ⟨rfl, rfl⟩
  | secret =>
    rw [fetchContent_secret platform hkind] at h
    obtain ⟨found, w, hread, hrest⟩ := h.of_bind_ok
    cases performed_of_ask hread
    obtain ⟨htext, rfl⟩ := hrest.of_pure_alone
    cases htext
    exact ⟨Option.map_map _ _ _, rfl⟩

/-- Only patches and restarts activate. -/
theorem activate_issues {R : Call → Prop} (hpatch : ∀ body, R (.patchNode body))
    (hrestart : ∀ service intended, R (.restart service intended)) (prevHash : Option String)
    (intendedHash service : String) : (activate nodeName prevHash intendedHash service).Issues R := by
  unfold activate restartIfNeeded
  split
  · refine ⟨hpatch _, fun reply => ?_⟩
    cases reply with
    | ok answer =>
      refine ⟨hrestart _ _, fun reply => ?_⟩
      cases reply <;> trivial
    | error e => trivial
  · trivial

/-- The call leaves the drop-in alone. -/
def SparesDest (call : Call) : Prop := ∀ site fate, (serve site call fate).2.dest = site.dest

theorem sparesDest_of_perform {call : Call}
    (h : ∀ site answer after, perform site call = .ok (answer, after) → after.dest = site.dest) : SparesDest call := by
  intro site fate
  rcases serve_after site call fate with hsame | ⟨answer, hperform⟩
  · rw [hsame]
  · exact h site answer _ hperform

theorem activate_sparesDest (prevHash : Option String) (intendedHash service : String) :
    (activate nodeName prevHash intendedHash service).Issues SparesDest := by
  refine activate_issues (fun body => sparesDest_of_perform ?_) (fun service intended => sparesDest_of_perform ?_) _ _ _
  · intro site answer after h
    cases h
    rfl
  · intro site answer after h
    cases h
    rfl

theorem dest_of_tick (hplatform : platform.Documented) (href : site.ref = some (kataRefText kata))
    (hdigest : ∀ old new, site.dest = some old → fetched platform site.sources kata = some new →
      platform.digest old = platform.digest new → old = new)
    (h : Runs serve (alone Site) site (reconcileOnce platform nodeName) (.ok ()) after) :
    after.dest = fetched platform site.sources kata := by
  obtain ⟨state, w, hstate, hrest⟩ := h.of_bind_ok
  obtain ⟨hkref, rfl⟩ := state_of_readNodeState hplatform href hstate
  simp only [hkref] at hrest
  obtain ⟨_, resolved, hresolve, hdeliver⟩ := hrest.of_bind_ok
  cases performed_of_ask hresolve
  obtain ⟨text, fetchedAt, hfetch, hwrite⟩ := hdeliver.of_bind_ok
  obtain ⟨hcontent, rfl⟩ := content_of_fetchContent hfetch
  obtain ⟨outcome, synced, hsync, hactivate⟩ := hwrite.of_bind_ok
  rw [hcontent] at hsync
  refine hactivate.keeps (J := fun site => site.dest = _) (fun w call fate hcall hdest => ?_) (fun _ _ hact _ => hact.elim)
    (activate_sparesDest state.applied (intendedHashFor outcome) _) (dest_of_syncContent hdigest hsync)
  rw [hcall w fate]
  exact hdest

/-! ## The object that is read -/

def ReadsOnly (key : SourceKey) (call : Call) : Prop := ∀ read, call.source = some read → read = key

theorem readsOnly_of_none {key : SourceKey} {call : Call} (h : call.source = none) : ReadsOnly key call := by
  intro read hread
  rw [h] at hread
  cases hread

theorem issues_ask {R : Call → Prop} {call : Call} (h : R call) : (ask call).Issues R :=
  ⟨h, fun _ => Prog.issues_ofExcept R _⟩

theorem syncContent_readsOnly (key : SourceKey) (content : Option ByteArray) :
    (syncContent platform content).Issues (ReadsOnly key) := by
  have hwrite (bytes : ByteArray) : (atomicWrite bytes).Issues (ReadsOnly key) := by
    refine (issues_ask (readsOnly_of_none rfl)).bind fun _ => ⟨readsOnly_of_none rfl, fun _ => ?_⟩
    refine (issues_ask (readsOnly_of_none rfl)).bind fun _ => (issues_ask (readsOnly_of_none rfl)).bind fun _ => ?_
    refine ⟨readsOnly_of_none rfl, fun reply => ?_⟩
    cases reply with
    | ok done => trivial
    | error e => exact ⟨readsOnly_of_none rfl, fun _ => trivial⟩
  rw [syncContent_eq]
  refine (issues_ask (readsOnly_of_none rfl)).bind fun dest => ?_
  unfold syncFrom
  split
  · exact (hwrite _).bind fun _ => trivial
  · trivial
  · exact (issues_ask (readsOnly_of_none rfl)).bind fun _ => trivial
  · trivial

theorem fetchContent_readsOnly (kata : KataConfig) :
    (fetchContent platform (refOf kata)).Issues (ReadsOnly ⟨kata.kind, kata.ns, kata.name⟩) := by
  cases hkind : kata.kind with
  | configMap =>
    rw [fetchContent_configMap platform hkind]
    refine (issues_ask fun read hread => ?_).bind fun _ => trivial
    exact (Option.some.inj hread).symm
  | secret =>
    rw [fetchContent_secret platform hkind]
    refine (issues_ask fun read hread => ?_).bind fun _ => trivial
    exact (Option.some.inj hread).symm

theorem readNodeState_readsOnly (key : SourceKey) : (readNodeState platform nodeName).Issues (ReadsOnly key) := by
  unfold readNodeState
  refine Prog.Issues.bind ⟨readsOnly_of_none rfl, fun reply => ?_⟩ fun node => ?_
  · cases reply <;> trivial
  · split
    · trivial
    · split <;> trivial

theorem source_of_tick (hplatform : platform.Documented) (href : site.ref = some (kataRefText kata)) {cut : Site}
    {call : Call} {k : Resp call → Tick Unit}
    (h : Proceeds serve (alone Site) site (reconcileOnce platform nodeName) cut (.call call k)) :
    ReadsOnly ⟨kata.kind, kata.ns, kata.name⟩ call := by
  refine h.issues_bind (readNodeState_readsOnly _) fun state w hstate => ?_
  obtain ⟨hkref, -⟩ := state_of_readNodeState hplatform href hstate
  simp only [hkref]
  refine (issues_ask (readsOnly_of_none rfl)).bind fun _ => (fetchContent_readsOnly kata).bind fun text => ?_
  refine (syncContent_readsOnly _ _).bind fun outcome => ?_
  exact activate_issues (fun _ => readsOnly_of_none rfl) (fun _ _ => readsOnly_of_none rfl) _ _ _

/-! ## A tick completes when every call succeeds -/

theorem exec_ask_ok {call : Call} {answer : call.Answer} (h : perform site call = .ok (answer, after)) :
    (ask call).exec serve .ok site = (.ok answer, after) := by
  rw [ask, Prog.exec, (serve_of_perform h).1]
  rfl

theorem exec_askIn_ok {context : String} {call : Call} {answer : call.Answer} (h : perform site call = .ok (answer, after)) :
    (askIn context call).exec serve .ok site = (.ok answer, after) := by
  rw [askIn, Prog.exec, (serve_of_perform h).1]
  rfl

theorem exec_atomicWrite (bytes : ByteArray) (site : Site) :
    (atomicWrite bytes).exec serve .ok site = (.ok (), { site with dest := some bytes, temp := none }) := rfl

theorem exec_syncContent (platform : Platform) (content : Option ByteArray) (site : Site) :
    ∃ outcome after, (syncContent platform content).exec serve .ok site = (.ok outcome, after) := by
  have hread : perform site .readDest = .ok (site.dest, site) := rfl
  rw [syncContent_eq, Prog.exec_bind_ok (exec_ask_ok hread)]
  generalize site.dest = dest
  cases content with
  | none =>
    cases dest with
    | none => exact ⟨_, _, rfl⟩
    | some old => exact ⟨_, _, rfl⟩
  | some bytes =>
    unfold syncFrom
    by_cases hsame : dest.map (sha256Hex platform) = some (sha256Hex platform bytes)
    · simp only [decideAction, if_pos hsame]
      exact ⟨_, _, rfl⟩
    · simp only [decideAction, if_neg hsame]
      exact ⟨_, _, Prog.exec_bind_ok (exec_atomicWrite bytes site)⟩

theorem exec_activate (nodeName : String) (prevHash : Option String) (intendedHash service : String) (site : Site) :
    ∃ after, (activate nodeName prevHash intendedHash service).exec serve .ok site = (.ok (), after) := by
  unfold activate restartIfNeeded
  split
  · exact ⟨_, rfl⟩
  · exact ⟨_, rfl⟩

theorem tick_completes (hplatform : platform.Documented) (href : site.ref = some (kataRefText kata)) (nodeName : String) :
    ∃ after, Runs serve (alone Site) site (reconcileOnce platform nodeName) (.ok ()) after := by
  have hstate : (readNodeState platform nodeName).exec serve .ok site = (.ok ⟨some (refOf kata), site.applied⟩, site) := by
    have hread : perform site .getNode = .ok (site.node, site) := rfl
    have hraw : annotationOf site.node Constants.kataConfigRefAnnotation = some (kataRefText kata) := href
    unfold readNodeState
    rw [Prog.bind_def, Prog.exec_bind_ok (exec_askIn_ok hread)]
    simp only [hraw, hplatform.reads _ _ (ofText_kataRefText kata)]
    rfl
  have hfetch : ∃ text, (fetchContent platform (refOf kata)).exec serve .ok site = (.ok text, site) := by
    cases hkind : kata.kind with
    | configMap =>
      rw [fetchContent_configMap platform hkind]
      exact ⟨_, rfl⟩
    | secret =>
      rw [fetchContent_secret platform hkind]
      exact ⟨_, rfl⟩
  obtain ⟨text, hfetch⟩ := hfetch
  obtain ⟨outcome, synced, hsync⟩ := exec_syncContent platform (text.map String.toUTF8) site
  obtain ⟨after, hactivate⟩ := exec_activate nodeName site.applied (intendedHashFor outcome) kata.restartService synced
  have hresolve : perform site .resolveDest = .ok ((), site) := rfl
  have hexec : (reconcileOnce platform nodeName).exec serve .ok site = (.ok (), after) := by
    unfold reconcileOnce
    rw [Prog.bind_def, Prog.exec_bind_ok hstate]
    simp only
    rw [Prog.bind_def, Prog.exec_bind_ok (exec_ask_ok hresolve), Prog.bind_def, Prog.exec_bind_ok hfetch, Prog.bind_def,
      Prog.exec_bind_ok hsync]
    exact hactivate
  have hruns := Runs.of_exec serve (alone Site) .ok (reconcileOnce platform nodeName) site
  rw [hexec] at hruns
  exact ⟨after, hruns⟩

/-! ## The bytes -/

theorem fetched_eq_stored_iff (hplatform : platform.Documented) (sources : Sources) (kata : KataConfig) :
    fetched platform sources kata = stored sources kata ↔
      (kata.kind = .secret → ∀ bytes, stored sources kata = some bytes → bytes.IsValidUTF8) := by
  unfold fetched
  cases hkind : kata.kind with
  | configMap => exact ⟨fun _ => by rintro ⟨⟩, fun _ => rfl⟩
  | secret =>
    simp only [forall_const]
    cases stored sources kata with
    | none => exact ⟨fun _ => by rintro _ ⟨⟩, fun _ => rfl⟩
    | some bytes =>
      rw [Option.map_some, Option.some.injEq]
      constructor
      · intro hsame bytes' hbytes
        cases hbytes
        rw [← hsame]
        exact (platform.fromUtf8Lossy bytes).isValidUTF8
      · intro hvalid
        have hkeeps := hplatform.keepsText (String.fromUTF8 bytes (hvalid bytes rfl))
        have hbytes : (String.fromUTF8 bytes (hvalid bytes rfl)).toUTF8 = bytes := rfl
        rw [hbytes] at hkeeps
        rw [hkeeps]
        exact hbytes

end

/-! ## The delivery -/

theorem kata_delivery_exact_iff (platform : Platform) (hplatform : platform.Documented) (nodeName : String) (client : Client)
    (kata : KataConfig) (site : Site) (hstamped : Stamped kata site)
    (hdigest : ∀ old new, site.dest = some old → fetched platform site.sources kata = some new →
      platform.digest old = platform.digest new → old = new) :
    DeliversExactly platform nodeName client kata site ↔
      (kata.kind = .secret → ∀ bytes, stored site.sources kata = some bytes → bytes.IsValidUTF8) := by
  have href := ref_of_stamped hstamped
  rw [← fetched_eq_stored_iff hplatform]
  constructor
  · intro hdelivers
    obtain ⟨after, hruns⟩ := tick_completes hplatform href nodeName
    rw [← hdelivers.onHost after hruns]
    exact (dest_of_tick hplatform href hdigest hruns).symm
  · intro hsame
    refine ⟨fun text htext => ?_, fun cut call k hcut key hkey => ?_, fun after hruns => ?_⟩
    · rw [href] at htext
      cases htext
      exact hplatform.reads _ _ (ofText_kataRefText kata)
    · rw [source_of_tick hplatform href hcut key hkey]
      cases hkind : kata.kind with
      | configMap => exact ⟨.configMapExists kata.ns kata.name, _, by rw [kataSourcePresent, hkind]; rfl, rfl⟩
      | secret => exact ⟨.secretExists kata.ns kata.name, _, by rw [kataSourcePresent, hkind]; rfl, rfl⟩
    · rw [dest_of_tick hplatform href hdigest hruns, hsame]

/-- `sha2`, `String::from_utf8_lossy` and `serde_json` on what the sample host sees, and on a byte that is not UTF-8. -/
def deliveryPlatform : Platform where
  digest bytes :=
    if bytes = "\uFFFD".toUTF8 then [0x83, 0xd5, 0x44, 0xcc, 0xc2, 0x23, 0xc0, 0x57, 0xd2, 0xbf, 0x80, 0xd3, 0xf2, 0xa3,
      0x29, 0x82, 0xc3, 0x2c, 0x3c, 0x0d, 0xb8, 0xe2, 0x67, 0x48, 0x20, 0xda, 0x50, 0x64, 0x78, 0x3f, 0xb0, 0x97]
    else samplePlatform.digest bytes
  fromUtf8Lossy bytes := (String.fromUTF8? bytes).getD "\uFFFD"
  parseKataRef text := (KataRef.ofText text).elim (.error "invalid reference") .ok

theorem deliveryPlatform_documented : deliveryPlatform.Documented where
  reads text kref h := by
    simp only [deliveryPlatform, h, Option.elim]
  keepsText s := by
    have hread : String.fromUTF8? s.toUTF8 = some s := dif_pos s.isValidUTF8
    change (String.fromUTF8? s.toUTF8).getD "\uFFFD" = s
    rw [hread]
    rfl

def stampedSite (kata : KataConfig) (sources : Sources) : Site :=
  { sampleSite with node := (buildKataConfigRefAnnotationPatch (some kata)).apply sampleNode, sources := sources }

theorem stampedSite_stamped (kata : KataConfig) (sources : Sources) : Stamped kata (stampedSite kata sources) :=
  ⟨sampleNode, rfl⟩

theorem kata_delivery_exact_sample :
    DeliversExactly deliveryPlatform "worker-1" .management sampleKata (stampedSite sampleKata sampleSite.sources) :=
  (kata_delivery_exact_iff deliveryPlatform deliveryPlatform_documented "worker-1" .management sampleKata _
    (stampedSite_stamped sampleKata sampleSite.sources) (by rintro old new ⟨⟩)).mpr (by rintro ⟨⟩)

def secretKata : KataConfig := { sampleKata with kind := .secret }

/-- One byte under the key, and it is not UTF-8. -/
def byteSources : Sources := ⟨fun _ _ => none, fun _ _ => some ⟨some [("kata.toml", ⟨#[0xFF]⟩)]⟩⟩

/-- The drop-in gets three bytes. -/
theorem secret_byte_replaced :
    ¬DeliversExactly deliveryPlatform "worker-1" .management secretKata (stampedSite secretKata byteSources) := by
  intro hdelivers
  have href := ref_of_stamped (stampedSite_stamped secretKata byteSources)
  obtain ⟨after, hruns⟩ := tick_completes deliveryPlatform_documented href "worker-1"
  have hdest := dest_of_tick deliveryPlatform_documented href (by rintro old new ⟨⟩) hruns
  rw [hdelivers.onHost after hruns] at hdest
  have hsize := congrArg (Option.map ByteArray.size) hdest
  exact absurd hsize (by decide +kernel)

end FiveSpot.KataAgent
