import FiveSpot.Safety.KataTearDown

/-! # What is delivered gets activated

The hash of a content is recorded before the restart that activates it. A recorded hash therefore stands for a
restart as long as every recorded hash gets its restart; a failed restart is not tried again.
-/

namespace FiveSpot.KataAgent

set_option autoImplicit false

open Interaction

def lastRestart : List Event → Option (Option ByteArray)
  | [] => none
  | .restarted _ dest :: _ => some dest
  | _ :: log => lastRestart log

/-- The tick is over and has found nothing to do: it has returned after reading only. -/
def FoundInSync (s : RunState) : Prop :=
  ∃ trace, s.pass = some ⟨(), .pure (), trace⟩ ∧ ∀ event ∈ trace, event.1.isRead = true

/-- A tick that has found no reference and has removed the drop-in restarts the service before it removes the label. -/
def TearDownRestarts (trace : List (Sigma Resp)) : Prop :=
  ∀ answer earlier, ⟨.patchNode clearOptinPatch, answer⟩ :: earlier <:+ trace →
    (∃ node, ⟨.getNode, .ok node⟩ ∈ earlier ∧ annotationOf node Constants.kataConfigRefAnnotation = none) →
      ⟨.removeDest, .ok true⟩ ∈ earlier → ∃ service hash, ⟨.restart service hash, .ok ()⟩ ∈ earlier

structure Activated (s : RunState) : Prop where
  inSync : FoundInSync s → lastRestart s.world.log = some s.world.dest
  tearDown : ∀ pass, s.pass = some pass → TearDownRestarts pass.trace

/-- No restart fails, none is cut off between the record of its hash and the restart, no record is reported as failed
although it was made, and a tick that finds no reference finds no drop-in either. -/
def restartsFollow (s : RunState) : RunAct → Bool
  | .answer fate => match s.pass with
    | some ⟨_, .call call _, _⟩ => match call, fate with
      | .restart _ _, .fail _ => false
      | .patchNode body, .lost _ => decide (recordedHash body = none)
      | .getNode, .ok => decide (s.world.ref = none → s.world.dest = none)
      | _, _ => true
    | _ => true
  | .kill => match s.pass with
    | some ⟨_, .call (.restart _ _) _, _⟩ => false
    | _ => true
  | _ => true

section

variable (platform : Platform) (contents : Set ByteArray)

structure Sources.Within (sources : Sources) : Prop where
  configMap : ∀ (kref : KataRef) ns name text, kref.inConfigMap (sources.configMap ns name) = some text →
    text.toUTF8 ∈ contents
  secret : ∀ (kref : KataRef) ns name text, kref.inSecret platform (sources.secret ns name) = some text →
    text.toUTF8 ∈ contents

structure Unrecorded (site : Site) : Prop where
  applied : site.applied = none
  sources : site.sources.Within platform contents
  dest : ∀ bytes, site.dest = some bytes → bytes ∈ contents

def keepsWithin : RunAct → Prop
  | .interfere (.putConfigMap _ _ value) => ∀ (kref : KataRef) text, kref.inConfigMap value = some text →
      text.toUTF8 ∈ contents
  | .interfere (.putSecret _ _ value) => ∀ (kref : KataRef) text, kref.inSecret platform value = some text →
      text.toUTF8 ∈ contents
  | _ => True

/-! ## The invariant -/

structure Sound (site : Site) (trace : List (Sigma Resp)) : Prop where
  sources : site.sources.Within platform contents
  dest : ∀ bytes, site.dest = some bytes → bytes ∈ contents
  temp : ∀ bytes, (notes platform trace).temp = some bytes → site.temp = some bytes
  content : ∀ bytes, (notes platform trace).content = some (some bytes) → bytes ∈ contents
  known : ∀ dest, (notes platform trace).dest = some dest → site.dest = dest
  applied : (notes platform trace).patched = false → ∀ view, (notes platform trace).view = some view →
    site.applied = view.applied
  owed : ∀ hash, (notes platform trace).owed = some hash → site.applied = some hash
  /-- A recorded hash stands for a restart, or its restart comes next. -/
  active : ∀ hash, site.applied = some hash → (notes platform trace).owed = some hash ∨
    ∃ dest, lastRestart site.log = some dest ∧ hashOf platform dest = hash ∧ ∀ bytes, dest = some bytes → bytes ∈ contents
  empty : (notes platform trace).TearsDown → site.dest = none
  seen : ∀ node, ⟨.getNode, .ok node⟩ ∈ trace → (notes platform trace).view = some (View.of node)
  kept : (notes platform trace).TearsDown → ⟨.removeDest, .ok true⟩ ∉ trace

end

section

variable {platform : Platform} {contents : Set ByteArray} {site : Site} {trace : List (Sigma Resp)}

theorem Sound.between (h : Sound platform contents site trace) (howed : (notes platform trace).owed = none) :
    Sound platform contents site [] where
  sources := h.sources
  dest := h.dest
  temp _ htemp := nomatch htemp
  content _ hcontent := nomatch hcontent
  known _ hdest := nomatch hdest
  applied _ _ hview := nomatch hview
  owed _ howed := nomatch howed
  active hash happlied := by
    refine .inr ((h.active hash happlied).resolve_left ?_)
    rw [howed]
    exact fun hsome => nomatch hsome
  empty := fun ⟨_, hview, _⟩ => nomatch hview
  seen _ hmem := nomatch hmem
  kept := fun ⟨_, hview, _⟩ => nomatch hview

theorem Sound.quiet (h : Sound platform contents site trace) {site' : Site} {call : Call} {answer : Resp call}
    (hsources : site'.sources = site.sources) (hdest : site'.dest = site.dest) (hnode : site'.node = site.node)
    (hlog : site'.log = site.log)
    (htemp : ∀ bytes, ((notes platform trace).observe platform call answer).temp = some bytes → site'.temp = some bytes)
    (hknown : ∀ dest, ((notes platform trace).observe platform call answer).dest = some dest → site.dest = dest)
    (hcontent : ∀ bytes, ((notes platform trace).observe platform call answer).content = some (some bytes) → bytes ∈ contents)
    (hview : ((notes platform trace).observe platform call answer).view = (notes platform trace).view)
    (hpatched : ((notes platform trace).observe platform call answer).patched = false → (notes platform trace).patched = false)
    (howed : ((notes platform trace).observe platform call answer).owed = (notes platform trace).owed)
    (hseen : ∀ node, (⟨call, answer⟩ : Sigma Resp) ≠ ⟨.getNode, .ok node⟩)
    (hkept : (⟨call, answer⟩ : Sigma Resp) ≠ ⟨.removeDest, .ok true⟩) :
    Sound platform contents site' (⟨call, answer⟩ :: trace) where
  sources := hsources ▸ h.sources
  dest := hdest ▸ h.dest
  temp := htemp
  content := hcontent
  known dest hd := hdest.trans (hknown dest hd)
  applied hp view hv := by
    rw [Site.applied, hnode]
    exact h.applied (hpatched hp) view (hview ▸ hv)
  owed hash ho := by
    rw [Site.applied, hnode]
    exact h.owed hash (howed ▸ ho)
  active hash happlied := by
    rw [Site.applied, hnode] at happlied
    rw [hlog]
    exact (h.active hash happlied).imp (fun ho => howed.trans ho) id
  empty := by
    rintro ⟨view, hv, href⟩
    exact hdest.trans (h.empty ⟨view, hview ▸ hv, href⟩)
  seen node hmem := by
    rcases List.mem_cons.mp hmem with heq | hmem
    · exact absurd heq.symm (hseen node)
    · exact hview.trans (h.seen node hmem)
  kept := by
    rintro ⟨view, hv, href⟩ hmem
    rcases List.mem_cons.mp hmem with heq | hmem
    · exact hkept heq.symm
    · exact h.kept ⟨view, hview ▸ hv, href⟩ hmem

/-! ## Answers -/

theorem sound_fail (h : Sound platform contents site trace) {call : Call} (e : String)
    (hallowed : (notes platform trace).allows platform call) (hrestart : ∀ service hash, call ≠ .restart service hash) :
    Sound platform contents site (⟨call, .error e⟩ :: trace) := by
  have hnode : ∀ node, (⟨call, .error e⟩ : Sigma Resp) ≠ ⟨.getNode, .ok node⟩ := by
    intro node heq
    cases heq
  have hremove : (⟨call, .error e⟩ : Sigma Resp) ≠ ⟨.removeDest, .ok true⟩ := by
    intro heq
    cases heq
  cases call with
  | restart service hash => exact absurd rfl (hrestart service hash)
  | patchNode body =>
    exact h.quiet rfl rfl rfl rfl h.temp h.known h.content rfl (fun hp => nomatch hp) hallowed.2.1.symm hnode hremove
  | writeTemp bytes =>
    exact h.quiet rfl rfl rfl rfl (fun _ ht => nomatch ht) h.known h.content rfl id rfl hnode hremove
  | removeTemp => exact h.quiet rfl rfl rfl rfl (fun _ ht => nomatch ht) h.known h.content rfl id rfl hnode hremove
  | renameTemp =>
    exact h.quiet rfl rfl rfl rfl (fun _ ht => nomatch ht) (fun _ hd => nomatch hd) h.content rfl id rfl hnode hremove
  | removeDest => exact h.quiet rfl rfl rfl rfl h.temp (fun _ hd => nomatch hd) h.content rfl id rfl hnode hremove
  | _ => exact h.quiet rfl rfl rfl rfl h.temp h.known h.content rfl id rfl hnode hremove

theorem sound_getNode (h : Sound platform contents site trace) (hallowed : notes platform trace = .none)
    (hempty : site.ref = none → site.dest = none) :
    Sound platform contents site (⟨.getNode, .ok site.node⟩ :: trace) where
  sources := h.sources
  dest := h.dest
  temp := h.temp
  content := h.content
  known := h.known
  applied := by
    rintro _ view hview
    cases hview
    rfl
  owed := h.owed
  active := h.active
  empty := by
    rintro ⟨view, hview, href⟩
    cases hview
    exact hempty href
  seen node hmem := by
    rcases List.mem_cons.mp hmem with heq | hmem
    · cases heq
      rfl
    · cases hallowed.symm ▸ h.seen node hmem
  kept := by
    rintro - hmem
    rcases List.mem_cons.mp hmem with heq | hmem
    · cases heq
    · have hreads : trace.all (fun event => event.1.isRead) = true := by
        rw [← @reads_after platform trace, hallowed]
        rfl
      exact nomatch List.all_eq_true.mp hreads _ hmem

theorem sound_rename (h : Sound platform contents site trace) {site' : Site} {answer : Resp .renameTemp}
    (hallowed : (notes platform trace).allows platform .renameTemp)
    (hperform : perform site .renameTemp = .ok ((), site')) :
    Sound platform contents site' (⟨.renameTemp, answer⟩ :: trace) := by
  obtain ⟨-, bytes, ⟨⟨view, hview, hkref⟩, hcontent⟩, htemp⟩ := hallowed
  have hsite : site' = { site with dest := some bytes, temp := none } := by
    rw [perform_renameTemp, h.temp bytes htemp] at hperform
    cases hperform
    rfl
  subst hsite
  have hview' : ((notes platform trace).observe platform .renameTemp answer).view = (notes platform trace).view := by
    cases answer <;> rfl
  have hnot : ¬((notes platform trace).observe platform .renameTemp answer).TearsDown := by
    rintro ⟨view', hview₂, hnone⟩
    rw [hview', hview] at hview₂
    cases hview₂
    rw [View.kataRef, hnone] at hkref
    cases hkref
  constructor
  · exact h.sources
  · rintro b hb
    cases hb
    exact h.content bytes hcontent
  · intro b hb
    cases answer <;> cases hb
  · intro b hb
    cases answer <;> exact h.content b hb
  · intro dest hdest
    cases answer with
    | ok _ =>
      cases hdest
      exact htemp.symm
    | error e => cases hdest
  · intro hpatched view' hview₂
    cases answer <;> exact h.applied hpatched view' hview₂
  · intro hash howed
    cases answer <;> exact h.owed hash howed
  · intro hash happlied
    cases answer <;> exact h.active hash happlied
  · exact fun htears => absurd htears hnot
  · exact fun node hmem => hview'.trans (h.seen node (mem_earlier hmem (by rintro ⟨⟩)))
  · exact fun htears => absurd htears hnot

theorem sound_remove (h : Sound platform contents site trace) {answer : Resp .removeDest}
    (hanswer : ∀ removed, answer = .ok removed → removed = site.dest.isSome) :
    Sound platform contents { site with dest := none } (⟨.removeDest, answer⟩ :: trace) := by
  have hview : ((notes platform trace).observe platform .removeDest answer).view = (notes platform trace).view := by
    cases answer <;> rfl
  constructor
  · exact h.sources
  · exact fun _ hdest => nomatch hdest
  · intro bytes htemp
    cases answer <;> exact h.temp bytes htemp
  · intro bytes hcontent
    cases answer <;> exact h.content bytes hcontent
  · intro dest hdest
    cases answer <;> cases hdest
    rfl
  · intro hpatched view hview
    cases answer <;> exact h.applied hpatched view hview
  · intro hash howed
    cases answer <;> exact h.owed hash howed
  · intro hash happlied
    cases answer <;> exact h.active hash happlied
  · exact fun _ => rfl
  · exact fun node hmem => hview.trans (h.seen node (mem_earlier hmem (by rintro ⟨⟩)))
  · rintro ⟨view, hv, href⟩ hmem
    have htears : (notes platform trace).TearsDown := ⟨view, hview ▸ hv, href⟩
    rcases List.mem_cons.mp hmem with heq | hmem
    · cases heq
      -- there was nothing to remove
      have hsome := hanswer true rfl
      rw [h.empty htears] at hsome
      cases hsome
    · exact h.kept htears hmem

theorem sound_record (h : Sound platform contents site trace) (hash : String) :
    Sound platform contents (serve site (.patchNode (recordAppliedPatch hash)) .ok).2
      (⟨.patchNode (recordAppliedPatch hash), .ok ()⟩ :: trace) where
  sources := h.sources
  dest := h.dest
  temp := h.temp
  content := h.content
  known := h.known
  applied hpatched := nomatch hpatched
  owed hash' howed := by
    cases howed
    exact applied_record site.node hash
  active hash' happlied := by
    have hsame : hash = hash' := Option.some.inj ((applied_record site.node hash).symm.trans happlied)
    subst hsame
    exact .inl rfl
  empty := h.empty
  seen node hmem := h.seen node (mem_earlier hmem fun heq => nomatch heq)
  kept htears hmem := h.kept htears (mem_earlier hmem fun heq => nomatch heq)

theorem sound_clear (h : Sound platform contents site trace) {answer : Resp (.patchNode clearOptinPatch)} :
    Sound platform contents (serve site (.patchNode clearOptinPatch) .ok).2
      (⟨.patchNode clearOptinPatch, answer⟩ :: trace) := by
  constructor
  · exact h.sources
  · exact h.dest
  · intro bytes htemp
    cases answer <;> exact h.temp bytes htemp
  · intro bytes hcontent
    cases answer <;> exact h.content bytes hcontent
  · intro dest hdest
    cases answer <;> exact h.known dest hdest
  · intro hpatched
    cases answer <;> cases hpatched
  · intro hash howed
    cases answer <;> cases howed
  · intro hash happlied
    cases (applied_clear site.node).symm.trans happlied
  · rintro ⟨view, hview, href⟩
    cases answer <;> exact h.empty ⟨view, hview, href⟩
  · intro node hmem
    have hearlier := mem_earlier hmem fun heq => nomatch heq
    cases answer <;> exact h.seen node hearlier
  · rintro ⟨view, hview, href⟩ hmem
    have hearlier := mem_earlier hmem fun heq => nomatch heq
    cases answer <;> exact h.kept ⟨view, hview, href⟩ hearlier

theorem sound_restart (h : Sound platform contents site trace) {service hash : String}
    (hallowed : (notes platform trace).allows platform (.restart service hash)) {answer : Resp (.restart service hash)} :
    Sound platform contents (serve site (.restart service hash) .ok).2 (⟨.restart service hash, answer⟩ :: trace) := by
  obtain ⟨howed, dest, hdest, hhash⟩ := hallowed
  have happlied : site.applied = some hash := h.owed hash howed
  constructor
  · exact h.sources
  · exact h.dest
  · exact h.temp
  · exact h.content
  · exact h.known
  · exact h.applied
  · exact fun _ howed' => nomatch howed'
  · intro hash' happlied'
    cases happlied.symm.trans happlied'
    refine .inr ⟨site.dest, rfl, ?_, h.dest⟩
    rw [h.known dest hdest]
    exact hhash
  · exact h.empty
  · exact fun node hmem => h.seen node (mem_earlier hmem fun heq => nomatch heq)
  · exact fun htears hmem => h.kept htears (mem_earlier hmem fun heq => nomatch heq)

theorem sound_getConfigMap (h : Sound platform contents site trace) (ns name : String) :
    Sound platform contents site (⟨.getConfigMap ns name, .ok (site.sources.configMap ns name)⟩ :: trace) := by
  refine h.quiet rfl rfl rfl rfl h.temp h.known ?_ rfl id rfl (fun _ heq => nomatch heq) fun heq => nomatch heq
  intro bytes hcontent
  obtain ⟨kref, -, hfound⟩ := Option.map_eq_some_iff.mp hcontent
  obtain ⟨text, htext, rfl⟩ := Option.map_eq_some_iff.mp hfound
  exact h.sources.configMap kref ns name text htext

theorem sound_getSecret (h : Sound platform contents site trace) (ns name : String) :
    Sound platform contents site (⟨.getSecret ns name, .ok (site.sources.secret ns name)⟩ :: trace) := by
  refine h.quiet rfl rfl rfl rfl h.temp h.known ?_ rfl id rfl (fun _ heq => nomatch heq) fun heq => nomatch heq
  intro bytes hcontent
  obtain ⟨kref, -, hfound⟩ := Option.map_eq_some_iff.mp hcontent
  obtain ⟨text, htext, rfl⟩ := Option.map_eq_some_iff.mp hfound
  exact h.sources.secret kref ns name text htext

theorem sound_patch (h : Sound platform contents site trace) {body : NodePatch} {fate : Fate}
    (hallowed : (notes platform trace).allows platform (.patchNode body))
    (hlost : ∀ e, fate = .lost e → recordedHash body = none) :
    Sound platform contents (serve site (.patchNode body) fate).2
      (⟨.patchNode body, (serve site (.patchNode body) fate).1⟩ :: trace) := by
  have hbody := hallowed.2.2
  cases fate with
  | fail e => exact sound_fail h e hallowed fun _ _ heq => nomatch heq
  | ok =>
    obtain ⟨rfl, -, -⟩ | ⟨hash, rfl, -⟩ := hbody
    · exact sound_clear h
    · exact sound_record h hash
  | lost e =>
    obtain ⟨rfl, -, -⟩ | ⟨hash, rfl, -⟩ := hbody
    · exact sound_clear h
    · cases hlost e rfl

theorem sound_writeTemp (h : Sound platform contents site trace) {bytes : ByteArray} (answer : Resp (.writeTemp bytes)) :
    Sound platform contents { site with temp := some bytes } (⟨.writeTemp bytes, answer⟩ :: trace) := by
  cases answer with
  | ok _ =>
    exact h.quiet rfl rfl rfl rfl (fun _ htemp => htemp) h.known h.content rfl id rfl (fun _ heq => nomatch heq)
      fun heq => nomatch heq
  | error e =>
    exact h.quiet rfl rfl rfl rfl (fun _ htemp => nomatch htemp) h.known h.content rfl id rfl
      (fun _ heq => nomatch heq) fun heq => nomatch heq

theorem sound_removeTemp (h : Sound platform contents site trace) (answer : Resp .removeTemp) :
    Sound platform contents { site with temp := none } (⟨.removeTemp, answer⟩ :: trace) :=
  h.quiet rfl rfl rfl rfl (fun _ htemp => nomatch htemp) h.known h.content rfl id rfl (fun _ heq => nomatch heq)
    fun heq => nomatch heq

theorem perform_renameTemp_allowed (h : Sound platform contents site trace)
    (hallowed : (notes platform trace).allows platform .renameTemp) :
    ∃ renamed, perform site .renameTemp = .ok ((), renamed) := by
  obtain ⟨-, bytes, -, htemp⟩ := hallowed
  have hthere : site.temp ≠ none := by
    rw [h.temp bytes htemp]
    exact fun heq => nomatch heq
  obtain ⟨written, hwritten⟩ := Option.ne_none_iff_exists'.mp hthere
  rw [perform_renameTemp, hwritten]
  exact ⟨_, rfl⟩

/-- The node does what it is asked, and its answer arrives. -/
theorem sound_answered (h : Sound platform contents site trace) {call : Call}
    (hallowed : (notes platform trace).allows platform call)
    (hempty : call = .getNode → site.ref = none → site.dest = none) :
    Sound platform contents (serve site call .ok).2 (⟨call, (serve site call .ok).1⟩ :: trace) := by
  cases call with
  | patchNode body => exact sound_patch h hallowed fun e heq => nomatch heq
  | restart service hash => exact sound_restart h hallowed
  | renameTemp =>
    obtain ⟨renamed, hperform⟩ := perform_renameTemp_allowed h hallowed
    rw [(serve_of_perform hperform).1]
    exact sound_rename h hallowed hperform
  | removeDest => exact sound_remove h fun removed heq => (Except.ok.inj heq).symm
  | getNode => exact sound_getNode h hallowed (hempty rfl)
  | getConfigMap ns name => exact sound_getConfigMap h ns name
  | getSecret ns name => exact sound_getSecret h ns name
  | readDest =>
    exact h.quiet rfl rfl rfl rfl h.temp (fun _ hdest => Option.some.inj hdest) h.content rfl id rfl
      (fun _ heq => nomatch heq) fun heq => nomatch heq
  | writeTemp bytes => exact sound_writeTemp h _
  | removeTemp => exact sound_removeTemp h _
  | _ =>
    exact h.quiet rfl rfl rfl rfl h.temp h.known h.content rfl id rfl (fun _ heq => nomatch heq) fun heq => nomatch heq

/-- The node does what it is asked, and the answer is lost. A read is then as good as refused. -/
theorem sound_unanswered (h : Sound platform contents site trace) {call : Call} (e : String)
    (hallowed : (notes platform trace).allows platform call)
    (hlost : ∀ body, call = .patchNode body → recordedHash body = none) :
    Sound platform contents (serve site call (.lost e)).2 (⟨call, (serve site call (.lost e)).1⟩ :: trace) := by
  cases call with
  | patchNode body => exact sound_patch h hallowed fun _ _ => hlost body rfl
  | restart service hash => exact sound_restart h hallowed
  | renameTemp =>
    obtain ⟨renamed, hperform⟩ := perform_renameTemp_allowed h hallowed
    rw [(serve_of_perform hperform).2 e]
    exact sound_rename h hallowed hperform
  | removeDest => exact sound_remove h fun removed heq => nomatch heq
  | writeTemp bytes => exact sound_writeTemp h _
  | removeTemp => exact sound_removeTemp h _
  | _ => exact sound_fail h e hallowed fun _ _ heq => nomatch heq

theorem sound_serve (h : Sound platform contents site trace) {call : Call} {fate : Fate}
    (hallowed : (notes platform trace).allows platform call)
    (hempty : call = .getNode → fate = .ok → site.ref = none → site.dest = none)
    (hlost : ∀ body e, call = .patchNode body → fate = .lost e → recordedHash body = none)
    (hrestart : ∀ service hash e, call = .restart service hash → fate ≠ .fail e) :
    Sound platform contents (serve site call fate).2 (⟨call, (serve site call fate).1⟩ :: trace) := by
  cases fate with
  | ok => exact sound_answered h hallowed fun hcall => hempty hcall rfl
  | lost e => exact sound_unanswered h e hallowed fun body hcall => hlost body e hcall rfl
  | fail e => exact sound_fail h e hallowed fun service hash hcall => hrestart service hash e hcall rfl

/-! ## Whole runs -/

theorem sound_patched (h : Sound platform contents site trace) (kata : Option KataConfig) :
    Sound platform contents (site.patched (deliveryPatch kata)) trace := by
  have happlied : (site.patched (deliveryPatch kata)).applied = site.applied := by
    rw [Site.applied, Site.patched_node, applied_delivery]
    rfl
  have hsources : (site.patched (deliveryPatch kata)).sources = site.sources := by
    unfold Site.patched
    dsimp only
    split <;> rfl
  have htemp : (site.patched (deliveryPatch kata)).temp = site.temp := by
    unfold Site.patched
    dsimp only
    split <;> rfl
  have hlog : lastRestart (site.patched (deliveryPatch kata)).log = lastRestart site.log := by
    unfold Site.patched
    dsimp only
    split <;> rfl
  constructor
  · exact hsources ▸ h.sources
  · rw [Site.patched_dest]
    exact h.dest
  · rw [htemp]
    exact h.temp
  · exact h.content
  · rw [Site.patched_dest]
    exact h.known
  · rw [happlied]
    exact h.applied
  · rw [happlied]
    exact h.owed
  · rw [happlied, hlog]
    exact h.active
  · rw [Site.patched_dest]
    exact h.empty
  · exact h.seen
  · exact h.kept

theorem Sources.Within.setConfigMap {sources : Sources} (h : sources.Within platform contents) {ns name : String}
    {value : Option ConfigMapData}
    (hvalue : ∀ (kref : KataRef) text, kref.inConfigMap value = some text → text.toUTF8 ∈ contents) :
    (sources.setConfigMap ns name value).Within platform contents where
  configMap kref ns' name' text htext := by
    unfold Sources.setConfigMap at htext
    dsimp only at htext
    split at htext
    · exact hvalue kref text htext
    · exact h.configMap kref ns' name' text htext
  secret := h.secret

theorem Sources.Within.setSecret {sources : Sources} (h : sources.Within platform contents) {ns name : String}
    {value : Option SecretBytes}
    (hvalue : ∀ (kref : KataRef) text, kref.inSecret platform value = some text → text.toUTF8 ∈ contents) :
    (sources.setSecret ns name value).Within platform contents where
  configMap := h.configMap
  secret kref ns' name' text htext := by
    unfold Sources.setSecret at htext
    dsimp only at htext
    split at htext
    · exact hvalue kref text htext
    · exact h.secret kref ns' name' text htext

theorem Sound.withSources (h : Sound platform contents site trace) {sources : Sources}
    (hsources : sources.Within platform contents) : Sound platform contents (site.withSources sources) trace :=
  ⟨hsources, h.dest, h.temp, h.content, h.known, h.applied, h.owed, h.active, h.empty, h.seen, h.kept⟩

theorem Sound.setRunning (h : Sound platform contents site trace) (running : Bool) :
    Sound platform contents { site with running := running } trace :=
  ⟨h.sources, h.dest, h.temp, h.content, h.known, h.applied, h.owed, h.active, h.empty, h.seen, h.kept⟩

end

section

variable (platform : Platform) (nodeName : String) (contents : Set ByteArray)

/-- Nobody else touches Node and drop-in, the sources hold contents only, and restarts follow their records. -/
structure Careful (s : RunState) (a : RunAct) : Prop where
  undisturbed : undisturbed s a = true
  within : keepsWithin platform contents a
  restartsFollow : restartsFollow s a = true

theorem sound_sustains :
    (system platform nodeName).Sustains (fun _ => tickMonitor platform) (fun _ => Notes.none) (fun _ => TickEnds platform)
      (Unrecorded platform contents) (Careful platform contents) (fun _ _ => True)
      (fun site pass => Sound platform contents site (traceOf pass)) where
  base site h := by
    constructor
    · exact h.sources
    · exact h.dest
    · exact fun _ htemp => nomatch htemp
    · exact fun _ hcontent => nomatch hcontent
    · exact fun _ hdest => nomatch hdest
    · exact fun _ _ hview => nomatch hview
    · exact fun _ howed => nomatch howed
    · exact fun _ happlied => nomatch h.applied.symm.trans happlied
    · exact fun ⟨_, hview, _⟩ => nomatch hview
    · exact fun _ hmem => nomatch hmem
    · exact fun ⟨_, hview, _⟩ => nomatch hview
  interfere site pass e _ h _ hok := by
    have hwithin := hok.within
    cases e with
    | deliver kata => exact sound_patched h (some kata)
    | withdraw => exact sound_patched h none
    | putConfigMap ns name value =>
      change Sound platform contents (site.putConfigMap ns name value) _
      rcases site.putConfigMap_eq ns name value with heq | heq
      · rw [heq]
        exact h
      · rw [heq]
        exact h.withSources (h.sources.setConfigMap hwithin)
    | putSecret ns name value =>
      change Sound platform contents (site.putSecret ns name value) _
      rcases site.putSecret_eq ns name value with heq | heq
      · rw [heq]
        exact h
      · rw [heq]
        exact h.withSources (h.sources.setSecret hwithin)
    | boot => exact h.setRunning _
    | stop => exact h.setRunning false
    | drift dest => cases hok.undisturbed
  start _ _ _ h _ _ := h
  answer site _ call k trace fate _ h hallowed hok := by
    have hfollow := hok.restartsFollow
    apply sound_serve h hallowed
    · rintro rfl rfl
      exact of_decide_eq_true hfollow
    · rintro body e rfl rfl
      exact of_decide_eq_true hfollow
    · rintro service hash e rfl rfl
      cases hfollow
  finish site _ x trace h hend := by
    apply Sound.between h
    cases x with
    | ok _ => exact hend.1
    | error e => exact hend
  kill site _ rest trace h hconf hok := by
    have howed : (notes platform trace).owed = none := by
      cases howed : (notes platform trace).owed with
      | none => rfl
      | some hash =>
        obtain ⟨service, intended, k, rfl⟩ := restart_of_owed howed hconf
        cases hok.restartsFollow
    exact (Sound.between h howed).setRunning false

/-- In every such run a tick that finds nothing to do finds the content that the last restart has activated, and a
tear-down that has removed something restarts the service before it removes the label. -/
theorem delivered_is_activated (hdigest : Set.InjOn platform.digest contents) {s : RunState}
    (hs : (system platform nodeName).Reach (Unrecorded platform contents) (Careful platform contents) s) : Activated s := by
  have hsound := System.Reach.sustained (system platform nodeName) (fun _ => reconcileOnce_conforms nodeName)
    (fun _ _ => trivial) (sound_sustains platform nodeName contents) hs
  have hconforms := System.Reach.passConforms (system platform nodeName) (fun _ => reconcileOnce_conforms nodeName) hs
  constructor
  · rintro ⟨trace, hpass, hreads⟩
    rw [hpass] at hsound hconforms
    change Sound platform contents s.world trace at hsound
    have hend : TickEnds platform (.ok ()) (notes platform trace) := hconforms
    have hread : (notes platform trace).reads = true := by
      rw [reads_after]
      exact List.all_eq_true.mpr hreads
    obtain ⟨howed, hquiet⟩ := hend
    obtain ⟨hpatched, view, hash, hview, happlied, dest, hdest, hhash⟩ := hquiet hread
    have hrecorded : s.world.applied = some hash := (hsound.applied hpatched view hview).trans happlied
    rcases hsound.active hash hrecorded with hsome | ⟨dest', hlast, hhash', hwithin⟩
    · rw [howed] at hsome
      cases hsome
    · have hknown := hsound.known dest hdest
      have hsame : dest' = s.world.dest := by
        apply hashOf_inj hdigest hwithin hsound.dest
        rw [hhash', hknown, hhash]
      rw [hlast, hsame]
  · rintro ⟨_, rest, trace⟩ hpass answer earlier hsuffix ⟨node, hnode, href⟩ hremoved
    rw [hpass] at hsound
    change Sound platform contents s.world trace at hsound
    have hsub : ∀ event ∈ earlier, event ∈ trace := fun event hmem =>
      hsuffix.subset (List.mem_cons_of_mem _ hmem)
    have htears : (notes platform trace).TearsDown := ⟨View.of node, hsound.seen node (hsub _ hnode), href⟩
    exact absurd (hsub _ hremoved) (hsound.kept htears)

end

/-! ## A restart that fails -/

def sampleContents : Set ByteArray := {"[kata]\n".toUTF8}

theorem sampleSite_unrecorded : Unrecorded samplePlatform sampleContents sampleSite where
  applied := rfl
  sources := by
    constructor
    · intro kref ns name text htext
      have hlookup : StringMap.lookup kref.key [("kata.toml", "[kata]\n")] = some text := htext
      rw [StringMap.lookup_cons] at hlookup
      split at hlookup
      · cases hlookup
        rfl
      · cases hlookup
    · intro kref ns name text htext
      cases htext
  dest := fun _ hdest => nomatch hdest

theorem sampleContents_inj : Set.InjOn samplePlatform.digest sampleContents := by
  intro a ha b hb _
  exact Eq.trans ha (Eq.symm hb)

def keepsSources : RunAct → Bool
  | .interfere (.putConfigMap _ _ _) | .interfere (.putSecret _ _ _) => false
  | _ => true

theorem keepsWithin_of_keepsSources {a : RunAct} (h : keepsSources a = true) :
    keepsWithin samplePlatform sampleContents a := by
  unfold keepsSources at h
  unfold keepsWithin
  split <;> simp_all

def endsReading (s : RunState) : Bool :=
  match s.pass with
  | some ⟨_, .pure _, trace⟩ => trace.all fun event => event.1.isRead
  | _ => false

theorem foundInSync_of_endsReading {s : RunState} (h : endsReading s = true) : FoundInSync s := by
  unfold endsReading at h
  split at h
  · rename_i trace hpass
    exact ⟨trace, hpass, List.all_eq_true.mp h⟩
  · cases h

/-- A delivery, and the next tick. -/
def deliveredOnce (restart : Fate) : List RunAct :=
  [.interfere (.deliver sampleKata), .interfere .boot, .start] ++ answers 10 ++ [.answer restart, .finish, .start] ++ answers 4

theorem delivered_is_activated_once : ∃ s : RunState, FoundInSync s ∧ lastRestart s.world.log = some s.world.dest := by
  obtain ⟨s, hs, hend⟩ := System.Reach.exists_of_runWith (system samplePlatform "worker-1")
    (fun s a => undisturbed s a && restartsFollow s a && keepsSources a) endsReading (deliveredOnce .ok)
    sampleSite_unrecorded (by decide +kernel)
  have hcareful : ∀ (s : RunState) (a : RunAct), (undisturbed s a && restartsFollow s a && keepsSources a) = true →
      Careful samplePlatform sampleContents s a := by
    intro s a h
    obtain ⟨⟨hundisturbed, hfollow⟩, hkeeps⟩ := (Bool.and_eq_true_iff.mp h).imp Bool.and_eq_true_iff.mp id
    exact ⟨hundisturbed, keepsWithin_of_keepsSources hkeeps, hfollow⟩
  have hsync := foundInSync_of_endsReading hend
  have hreach := System.Reach.mono (system samplePlatform "worker-1") hcareful hs
  exact ⟨s, hsync, (delivered_is_activated samplePlatform "worker-1" sampleContents sampleContents_inj hreach).inSync hsync⟩

/-- The restart fails, and the next tick finds nothing left to do. -/
theorem failed_restart_forgotten : ¬∀ s : RunState,
    (system samplePlatform "worker-1").Reach (Unrecorded samplePlatform sampleContents)
      (fun s a => (undisturbed s a && keepsSources a) = true) s → Activated s := by
  intro hactivated
  obtain ⟨s, hs, hend⟩ := System.Reach.exists_of_runWith (system samplePlatform "worker-1")
    (fun s a => undisturbed s a && keepsSources a)
    (fun s => endsReading s && (lastRestart s.world.log).isNone) (deliveredOnce (.fail "exit status: 1"))
    sampleSite_unrecorded (by decide +kernel)
  obtain ⟨hreading, hnever⟩ := Bool.and_eq_true_iff.mp hend
  rw [(hactivated s hs).inSync (foundInSync_of_endsReading hreading)] at hnever
  cases hnever

end FiveSpot.KataAgent
