import FiveSpot.Interaction.Versions
import FiveSpot.Safety.KataTearDown

/-! # One restart per rollout

The hash of a content is recorded before the restart, so neither a killed restart nor a drop-in edited by hand leads
to another one. What is counted against the restarts are the edits of the reference and of the sources.
-/

namespace FiveSpot.KataAgent

set_option autoImplicit false

open Interaction

/-! ## The log -/

def Event.isRestart : Event → Bool
  | .restarted _ _ => true
  | _ => false

def Event.isRecord : Event → Bool
  | .recorded _ => true
  | _ => false

def refEdits (log : List Event) : Nat := log.countP fun event => decide (event = .editedRef)
def sourceEdits (log : List Event) : Nat := log.countP fun event => decide (event = .editedSource)
def restarts (log : List Event) : Nat := log.countP Event.isRestart
def records (log : List Event) : Nat := log.countP Event.isRecord

def lastRecorded : List Event → Option String
  | [] => none
  | .recorded hash :: _ => some hash
  | _ :: log => lastRecorded log

/-- The last record, if no restart has followed it. -/
def owedIn : List Event → Option String
  | [] => none
  | .recorded hash :: _ => some hash
  | .restarted _ _ :: _ => none
  | _ :: log => owedIn log

/-- Each record is of another hash than the one before, and each restart is for the record right before it. -/
def Orderly : List Event → Prop
  | [] => True
  | .recorded hash :: log => lastRecorded log ≠ some hash ∧ Orderly log
  | .restarted hash _ :: log => owedIn log = some hash ∧ Orderly log
  | _ :: log => Orderly log

theorem lastRecorded_of_owedIn {log : List Event} {hash : String} (h : owedIn log = some hash) :
    lastRecorded log = some hash := by
  induction log with
  | nil => cases h
  | cons event log ih =>
    cases event with
    | recorded _ => exact h
    | restarted _ _ => cases h
    | editedRef => exact ih h
    | editedSource => exact ih h

theorem Orderly.tail {event : Event} {log : List Event} (h : Orderly (event :: log)) : Orderly log := by
  cases event with
  | recorded _ => exact h.2
  | restarted _ _ => exact h.2
  | editedRef => exact h
  | editedSource => exact h

theorem Orderly.of_append {later log : List Event} (h : Orderly (later ++ log)) : Orderly log := by
  induction later with
  | nil => exact h
  | cons event later ih => exact ih h.tail

theorem Orderly.quiet {mid log : List Event} {hash : String} (h : Orderly (mid ++ log))
    (hlast : lastRecorded log = some hash) (howed : owedIn log = none) (hmid : ∀ event ∈ mid, event.isRestart = false)
    (hsame : ∀ other, .recorded other ∈ mid → other = hash) :
    lastRecorded (mid ++ log) = some hash ∧ owedIn (mid ++ log) = none := by
  induction mid with
  | nil => exact ⟨hlast, howed⟩
  | cons event mid ih =>
    have hrest := ih h.tail (fun e he => hmid e (List.mem_cons_of_mem _ he))
      fun other hother => hsame other (List.mem_cons_of_mem _ hother)
    cases event with
    | recorded other =>
      cases hsame other List.mem_cons_self
      exact absurd hrest.1 h.1
    | restarted _ _ => cases hmid _ List.mem_cons_self
    | editedRef => exact hrest
    | editedSource => exact hrest

theorem Orderly.recorded_between {later mid earlier : List Event} {hash hash' : String} {dest dest' : Option ByteArray}
    (h : Orderly (later ++ .restarted hash' dest' :: mid ++ .restarted hash dest :: earlier))
    (hmid : ∀ event ∈ mid, event.isRestart = false) : ∃ other, other ≠ hash ∧ .recorded other ∈ mid := by
  rw [List.append_assoc, List.cons_append] at h
  have hsecond := h.of_append
  have hfirst : Orderly (.restarted hash dest :: earlier) := hsecond.tail.of_append
  have hlast : lastRecorded earlier = some hash := lastRecorded_of_owedIn hfirst.1
  by_contra hnone
  have hsame : ∀ other, .recorded other ∈ mid → other = hash := by
    intro other hother
    by_contra hne
    exact hnone ⟨other, hne, hother⟩
  have hquiet := Orderly.quiet hsecond.2 hlast rfl hmid hsame
  cases hquiet.2.symm.trans hsecond.1

theorem Orderly.restarts_le {log : List Event} (h : Orderly log) :
    restarts log + (if (owedIn log).isSome then 1 else 0) ≤ records log := by
  induction log with
  | nil => exact Nat.le_refl 0
  | cons event log ih =>
    cases event with
    | recorded hash =>
      have := ih h.2
      simp only [restarts, records, List.countP_cons, Event.isRestart, Event.isRecord, owedIn] at this ⊢
      split at this <;> simp <;> omega
    | restarted hash dest =>
      have := ih h.2
      simp only [restarts, records, List.countP_cons, Event.isRestart, Event.isRecord, owedIn, h.1] at this ⊢
      simpa using this
    | editedRef => exact ih h
    | editedSource => exact ih h

theorem records_eq_zero {log : List Event} (h : lastRecorded log = none) : records log = 0 := by
  induction log with
  | nil => rfl
  | cons event log ih =>
    cases event with
    | recorded hash => cases h
    | restarted _ _ => exact ih h
    | editedRef => exact ih h
    | editedSource => exact ih h

/-! ## What a tick makes of reference and sources -/

def Site.refVersion (site : Site) : Version (Option String) := ⟨refEdits site.log, site.ref⟩
def Site.sourcesVersion (site : Site) : Version Sources := ⟨sourceEdits site.log, site.sources⟩

/-- A delivery that is there from the start counts like an edit. -/
def firstDelivery (site : Site) : Nat := if site.ref.isSome then 1 else 0

section

variable (platform : Platform)

def contentOf (sources : Sources) (kref : KataRef) : Option (Option ByteArray) :=
  if kref.kind = "ConfigMap" then some ((kref.inConfigMap (sources.configMap kref.ns kref.name)).map String.toUTF8)
  else if kref.kind = "Secret" then
    some ((kref.inSecret platform (sources.secret kref.ns kref.name)).map String.toUTF8)
  else none

def contentAt (ref : Option String) (sources : Sources) : Option (Option ByteArray) :=
  ((⟨ref, none⟩ : View).kataRef platform).bind (contentOf platform sources)

/-- The versions behind the last record account for all records so far, and those a tick has read come after them. -/
structure Accounted (origin site : Site) (trace : List (Sigma Resp)) (ref : Version (Option String))
    (sources : Version Sources) : Prop where
  fromOrigin : (⟨0, origin.ref⟩ : Version (Option String)).Before ref
  refBefore : ref.Before site.refVersion
  sourcesBefore : sources.Before site.sourcesVersion
  count : records site.log ≤ ref.edits + sources.edits + firstDelivery origin
  recorded : ∀ hash, site.applied = some hash →
    ∃ content, contentAt platform ref.value sources.value = some content ∧ hashOf platform content = hash
  read : ∀ view, (notes platform trace).view = some view → ∃ refRead : Version (Option String),
    refRead.value = view.ref ∧ ref.Before refRead ∧ refRead.Before site.refVersion ∧
      ∀ content, (notes platform trace).content = some content → ∃ sourcesRead : Version Sources,
        sources.Before sourcesRead ∧ sourcesRead.Before site.sourcesVersion ∧
          contentAt platform refRead.value sourcesRead.value = some content
  orderly : Orderly site.log
  applied : site.applied = lastRecorded site.log
  owed : ∀ hash, (notes platform trace).owed = some hash → owedIn site.log = some hash
  fresh : (notes platform trace).patched = false → ∀ view, (notes platform trace).view = some view →
    site.applied = view.applied

end

section

variable {platform : Platform} {origin site : Site} {trace : List (Sigma Resp)} {ref : Version (Option String)}
  {sources : Version Sources}

theorem Accounted.between (h : Accounted platform origin site trace ref sources) :
    Accounted platform origin site [] ref sources where
  fromOrigin := h.fromOrigin
  refBefore := h.refBefore
  sourcesBefore := h.sourcesBefore
  count := h.count
  recorded := h.recorded
  read _ hview := nomatch hview
  orderly := h.orderly
  applied := h.applied
  owed _ howed := nomatch howed
  fresh _ _ hview := nomatch hview

theorem Accounted.quiet (h : Accounted platform origin site trace ref sources) {site' : Site} {call : Call}
    {answer : Resp call} (hnode : site'.node = site.node) (hsources : site'.sources = site.sources)
    (hlog : site'.log = site.log)
    (hview : ((notes platform trace).observe platform call answer).view = (notes platform trace).view)
    (hcontent : ((notes platform trace).observe platform call answer).content = (notes platform trace).content)
    (howed : ∀ hash, ((notes platform trace).observe platform call answer).owed = some hash →
      (notes platform trace).owed = some hash)
    (hpatched : ((notes platform trace).observe platform call answer).patched = false →
      (notes platform trace).patched = false) :
    Accounted platform origin site' (⟨call, answer⟩ :: trace) ref sources := by
  have hrefVersion : site'.refVersion = site.refVersion := by rw [Site.refVersion, Site.ref, hnode, hlog]; rfl
  have hsourcesVersion : site'.sourcesVersion = site.sourcesVersion := by rw [Site.sourcesVersion, hsources, hlog]; rfl
  have happlied : site'.applied = site.applied := by rw [Site.applied, hnode]; rfl
  constructor
  · exact h.fromOrigin
  · exact hrefVersion ▸ h.refBefore
  · exact hsourcesVersion ▸ h.sourcesBefore
  · exact hlog ▸ h.count
  · exact happlied ▸ h.recorded
  · intro view hv
    obtain ⟨refRead, hvalue, hafter, hbefore, hread⟩ := h.read view (hview ▸ hv)
    refine ⟨refRead, hvalue, hafter, hrefVersion ▸ hbefore, fun content hc => ?_⟩
    rw [hsourcesVersion]
    exact hread content (hcontent ▸ hc)
  · exact hlog ▸ h.orderly
  · rw [happlied, hlog]
    exact h.applied
  · intro hash ho
    rw [hlog]
    exact h.owed hash (howed hash ho)
  · intro hp view hv
    rw [happlied]
    exact h.fresh (hpatched hp) view (hview ▸ hv)

/-! ## Answers -/

theorem accounted_getNode (h : Accounted platform origin site trace ref sources)
    (hallowed : notes platform trace = .none) :
    Accounted platform origin site (⟨.getNode, .ok site.node⟩ :: trace) ref sources where
  fromOrigin := h.fromOrigin
  refBefore := h.refBefore
  sourcesBefore := h.sourcesBefore
  count := h.count
  recorded := h.recorded
  read view hview := by
    cases hview
    refine ⟨site.refVersion, rfl, h.refBefore, .refl _, ?_⟩
    intro content hcontent
    change (notes platform trace).content = some content at hcontent
    rw [hallowed] at hcontent
    cases hcontent
  orderly := h.orderly
  applied := h.applied
  owed := h.owed
  fresh _ view hview := by
    cases hview
    rfl

theorem accounted_fetch (h : Accounted platform origin site trace ref sources) {call : Call} {answer : Resp call}
    {view : View} {kref : KataRef} (hview : (notes platform trace).view = some view)
    (hkref : view.kataRef platform = some kref)
    (hsame : (notes platform trace).observe platform call answer =
      { notes platform trace with content := contentOf platform site.sources kref }) :
    Accounted platform origin site (⟨call, answer⟩ :: trace) ref sources := by
  have hnotes : notes platform (⟨call, answer⟩ :: trace) =
      { notes platform trace with content := contentOf platform site.sources kref } := hsame
  constructor
  · exact h.fromOrigin
  · exact h.refBefore
  · exact h.sourcesBefore
  · exact h.count
  · exact h.recorded
  · intro view' hview'
    rw [hnotes] at hview' ⊢
    obtain ⟨refRead, hvalue, hafter, hbefore, -⟩ := h.read view' hview'
    refine ⟨refRead, hvalue, hafter, hbefore, fun content hcontent => ?_⟩
    refine ⟨site.sourcesVersion, h.sourcesBefore, .refl _, ?_⟩
    cases hview.symm.trans hview'
    have hparsed : (⟨refRead.value, none⟩ : View).kataRef platform = some kref := by
      rw [hvalue]
      exact hkref
    rw [contentAt, hparsed]
    exact hcontent
  · exact h.orderly
  · exact h.applied
  · rw [hnotes]
    exact h.owed
  · rw [hnotes]
    exact h.fresh

theorem refVersion_record (site : Site) (hash : String) :
    (serve site (.patchNode (recordAppliedPatch hash)) .ok).2.refVersion = site.refVersion := by
  have href : (serve site (.patchNode (recordAppliedPatch hash)) .ok).2.ref = site.ref := ref_record site.node hash
  rw [Site.refVersion, href]
  rfl

theorem Accounted.count_record (h : Accounted platform origin site trace ref sources) {refRead : Version (Option String)}
    {sourcesRead : Version Sources} {content : Option ByteArray} (hafter : ref.Before refRead)
    (hsources : sources.Before sourcesRead)
    (hcontent : contentAt platform refRead.value sourcesRead.value = some content)
    (hnew : site.applied ≠ some (hashOf platform content)) :
    records site.log + 1 ≤ refRead.edits + sourcesRead.edits + firstDelivery origin := by
  cases happlied : site.applied with
  | none =>
    have hzero : records site.log = 0 := records_eq_zero (h.applied.symm.trans happlied)
    by_cases hfirst : origin.ref = none
    · have hne : origin.ref ≠ refRead.value := by
        intro heq
        rw [← heq, hfirst, contentAt] at hcontent
        cases hcontent
      have hlt := (h.fromOrigin.trans hafter).lt_of_ne hne
      simp only at hlt
      omega
    · have hone : firstDelivery origin = 1 := if_pos (Option.ne_none_iff_isSome.mp hfirst)
      omega
  | some hash =>
    obtain ⟨last, hlast, hhash⟩ := h.recorded hash happlied
    have hdiffers : contentAt platform ref.value sources.value ≠ contentAt platform refRead.value sourcesRead.value := by
      rw [hlast, hcontent]
      intro heq
      apply hnew
      rw [happlied, ← hhash, Option.some.inj heq]
    have hlt := hafter.add_lt_of_ne (contentAt platform) hsources hdiffers
    have hcount := h.count
    omega

theorem accounted_record (h : Accounted platform origin site trace ref sources) {hash : String}
    (hpatched : (notes platform trace).patched = false) (hrecords : (notes platform trace).Records platform hash)
    {answer : Resp (.patchNode (recordAppliedPatch hash))} :
    ∃ ref' sources', Accounted platform origin (serve site (.patchNode (recordAppliedPatch hash)) .ok).2
      (⟨.patchNode (recordAppliedPatch hash), answer⟩ :: trace) ref' sources' := by
  obtain ⟨content, ⟨⟨view, hview, -⟩, hfetched⟩, rfl⟩ := hrecords.delivers
  have hnew : site.applied ≠ some (hashOf platform content) := by
    rw [h.fresh hpatched view hview]
    exact hrecords.fresh view hview
  obtain ⟨refRead, hvalue, hafter, hbefore, hread⟩ := h.read view hview
  obtain ⟨sourcesRead, hsources, hsourcesNow, hcontent⟩ := hread content hfetched
  refine ⟨refRead, sourcesRead, ?_⟩
  constructor
  · exact h.fromOrigin.trans hafter
  · rw [refVersion_record]
    exact hbefore
  · exact hsourcesNow
  · have hone : records (.recorded (hashOf platform content) :: site.log) = records site.log + 1 :=
      List.countP_cons_of_pos rfl
    change records (.recorded (hashOf platform content) :: site.log) ≤ _
    rw [hone]
    exact h.count_record hafter hsources hcontent hnew
  · intro hash happlied
    have hhash : hashOf platform content = hash := Option.some.inj ((applied_record site.node _).symm.trans happlied)
    exact ⟨content, hcontent, hhash⟩
  · intro view' hview'
    have hsame : view' = view := by
      cases answer <;> exact Option.some.inj (hview'.symm.trans hview)
    subst hsame
    refine ⟨refRead, hvalue, .refl _, ?_, fun content' hcontent' => ?_⟩
    · rw [refVersion_record]
      exact hbefore
    · have hsame : content' = content := by
        cases answer <;> exact Option.some.inj (hcontent'.symm.trans hfetched)
      subst hsame
      exact ⟨sourcesRead, .refl _, hsourcesNow, hcontent⟩
  · refine ⟨?_, h.orderly⟩
    change lastRecorded site.log ≠ _
    rw [← h.applied]
    exact hnew
  · exact applied_record site.node _
  · intro hash howed
    cases answer <;> cases howed
    rfl
  · intro hfalse
    cases answer <;> cases hfalse

theorem accounted_restart (h : Accounted platform origin site trace ref sources) {service hash : String}
    (howed : (notes platform trace).owed = some hash) {answer : Resp (.restart service hash)} :
    Accounted platform origin (serve site (.restart service hash) .ok).2 (⟨.restart service hash, answer⟩ :: trace)
      ref sources := by
  constructor
  · exact h.fromOrigin
  · exact h.refBefore
  · exact h.sourcesBefore
  · exact h.count
  · exact h.recorded
  · intro view hview
    cases answer <;> exact h.read view hview
  · exact ⟨h.owed hash howed, h.orderly⟩
  · exact h.applied
  · intro hash' howed'
    cases answer <;> cases howed'
  · intro hpatched view hview
    cases answer <;> exact h.fresh hpatched view hview

theorem accounted_fail (h : Accounted platform origin site trace ref sources) {site' : Site} {call : Call} {e : String}
    (hnode : site'.node = site.node) (hsources : site'.sources = site.sources) (hlog : site'.log = site.log) :
    Accounted platform origin site' (⟨call, .error e⟩ :: trace) ref sources := by
  cases call with
  | patchNode body => exact h.quiet hnode hsources hlog rfl rfl (fun _ howed => nomatch howed) fun hp => nomatch hp
  | restart service hash => exact h.quiet hnode hsources hlog rfl rfl (fun _ howed => nomatch howed) id
  | _ => exact h.quiet hnode hsources hlog rfl rfl (fun _ howed => howed) id

theorem accounted_serve (h : Accounted platform origin site trace ref sources) {call : Call} {fate : Fate}
    (hallowed : (notes platform trace).allows platform call)
    (hclear : call = .patchNode clearOptinPatch → ∃ e, fate = .fail e) :
    ∃ ref' sources', Accounted platform origin (serve site call fate).2 (⟨call, (serve site call fate).1⟩ :: trace)
      ref' sources' := by
  by_cases hfail : ∃ e, fate = .fail e
  · obtain ⟨e, rfl⟩ := hfail
    exact ⟨ref, sources, accounted_fail h rfl rfl rfl⟩
  cases call with
  | patchNode body =>
    obtain ⟨hpatched, -, ⟨rfl, -, -⟩ | ⟨hash, rfl, hrecords⟩⟩ := hallowed
    · exact absurd (hclear rfl) hfail
    · cases fate with
      | ok => exact accounted_record h hpatched hrecords
      | fail e => exact absurd ⟨e, rfl⟩ hfail
      | lost e => exact accounted_record h hpatched hrecords
  | restart service hash =>
    cases fate with
    | ok => exact ⟨ref, sources, accounted_restart h hallowed.1⟩
    | fail e => exact absurd ⟨e, rfl⟩ hfail
    | lost e => exact ⟨ref, sources, accounted_restart h hallowed.1⟩
  | getNode =>
    cases fate with
    | ok => exact ⟨ref, sources, accounted_getNode h hallowed⟩
    | fail e => exact absurd ⟨e, rfl⟩ hfail
    | lost e => exact ⟨ref, sources, accounted_fail h rfl rfl rfl⟩
  | getConfigMap ns name =>
    cases fate with
    | ok =>
      obtain ⟨-, -, view, kref, hview, hkref, hkind, rfl, rfl⟩ := hallowed
      refine ⟨ref, sources, accounted_fetch h hview hkref ?_⟩
      simp [Notes.observe, hview, hkref, contentOf, hkind, serve, perform]
    | fail e => exact absurd ⟨e, rfl⟩ hfail
    | lost e => exact ⟨ref, sources, accounted_fail h rfl rfl rfl⟩
  | getSecret ns name =>
    cases fate with
    | ok =>
      obtain ⟨-, -, view, kref, hview, hkref, hkind, rfl, rfl⟩ := hallowed
      refine ⟨ref, sources, accounted_fetch h hview hkref ?_⟩
      simp [Notes.observe, hview, hkref, contentOf, hkind, serve, perform]
    | fail e => exact absurd ⟨e, rfl⟩ hfail
    | lost e => exact ⟨ref, sources, accounted_fail h rfl rfl rfl⟩
  | renameTemp =>
    have hquiet : ∀ (answer : Resp .renameTemp) (site' : Site), site'.node = site.node → site'.sources = site.sources →
        site'.log = site.log → Accounted platform origin site' (⟨.renameTemp, answer⟩ :: trace) ref sources := by
      intro answer site' hnode hsources hlog
      cases answer <;> exact h.quiet hnode hsources hlog rfl rfl (fun _ howed => howed) id
    refine ⟨ref, sources, ?_⟩
    rcases serve_after site .renameTemp fate with hsame | ⟨answer, hperform⟩
    · exact hquiet _ _ (by rw [hsame]) (by rw [hsame]) (by rw [hsame])
    · have hafter := renamed_eq hperform
      exact hquiet _ _ (by rw [hafter]) (by rw [hafter]) (by rw [hafter])
  | _ =>
    cases fate with
    | ok => exact ⟨ref, sources, h.quiet rfl rfl rfl rfl rfl (fun _ howed => howed) id⟩
    | fail e => exact absurd ⟨e, rfl⟩ hfail
    | lost e => exact ⟨ref, sources, accounted_fail h rfl rfl rfl⟩

/-! ## Whole runs -/

theorem Accounted.edited (h : Accounted platform origin site trace ref sources) {site' : Site}
    (happlied : site'.applied = site.applied) (href : site.refVersion.Before site'.refVersion)
    (hsources : site.sourcesVersion.Before site'.sourcesVersion) (hrecords : records site'.log = records site.log)
    (horderly : Orderly site.log → Orderly site'.log) (hlast : lastRecorded site'.log = lastRecorded site.log)
    (howed : owedIn site'.log = owedIn site.log) : Accounted platform origin site' trace ref sources where
  fromOrigin := h.fromOrigin
  refBefore := h.refBefore.trans href
  sourcesBefore := h.sourcesBefore.trans hsources
  count := hrecords.symm ▸ h.count
  recorded := happlied ▸ h.recorded
  read view hview := by
    obtain ⟨refRead, hvalue, hafter, hbefore, hread⟩ := h.read view hview
    refine ⟨refRead, hvalue, hafter, hbefore.trans href, fun content hcontent => ?_⟩
    obtain ⟨sourcesRead, hsourcesRead, hnow, hat⟩ := hread content hcontent
    exact ⟨sourcesRead, hsourcesRead, hnow.trans hsources, hat⟩
  orderly := horderly h.orderly
  applied := happlied.trans (h.applied.trans hlast.symm)
  owed hash ho := howed.trans (h.owed hash ho)
  fresh hp view hv := happlied.trans (h.fresh hp view hv)

theorem accounted_patched (h : Accounted platform origin site trace ref sources) (kata : Option KataConfig) :
    Accounted platform origin (site.patched (deliveryPatch kata)) trace ref sources := by
  have happlied : (site.patched (deliveryPatch kata)).applied = site.applied := by
    rw [Site.applied, Site.patched_node, applied_delivery]
    rfl
  by_cases href : ({ site with node := (deliveryPatch kata).apply site.node } : Site).ref = site.ref
  · have hsite : site.patched (deliveryPatch kata) = { site with node := (deliveryPatch kata).apply site.node } :=
      if_pos href
    rw [hsite] at happlied ⊢
    refine h.edited happlied ⟨Nat.le_refl _, fun _ => href.symm⟩ (.refl _) rfl id rfl rfl
  · have hsite : site.patched (deliveryPatch kata) =
        { site with node := (deliveryPatch kata).apply site.node, log := .editedRef :: site.log } := if_neg href
    have hedits : refEdits (.editedRef :: site.log) = refEdits site.log + 1 := List.countP_cons_of_pos rfl
    have hsources : sourceEdits (.editedRef :: site.log) = sourceEdits site.log := List.countP_cons_of_neg (by decide)
    have hrecords : records (.editedRef :: site.log) = records site.log := List.countP_cons_of_neg (by decide)
    rw [hsite] at happlied ⊢
    refine h.edited happlied ?_ ?_ hrecords id rfl rfl
    · rw [Site.refVersion, Site.refVersion]
      dsimp only
      rw [hedits]
      exact .edit ⟨refEdits site.log, site.ref⟩ _
    · rw [Site.sourcesVersion, Site.sourcesVersion]
      dsimp only
      rw [hsources]
      exact .refl _

theorem accounted_withSources (h : Accounted platform origin site trace ref sources) (sources' : Sources) :
    Accounted platform origin (site.withSources sources') trace ref sources := by
  have hedits : sourceEdits (.editedSource :: site.log) = sourceEdits site.log + 1 := List.countP_cons_of_pos rfl
  have hrefs : refEdits (.editedSource :: site.log) = refEdits site.log := List.countP_cons_of_neg (by decide)
  have hrecords : records (.editedSource :: site.log) = records site.log := List.countP_cons_of_neg (by decide)
  refine h.edited rfl ?_ ?_ hrecords id rfl rfl
  · rw [Site.refVersion, Site.refVersion, Site.withSources]
    dsimp only
    rw [hrefs]
    exact .refl _
  · rw [Site.sourcesVersion, Site.sourcesVersion, Site.withSources]
    dsimp only
    rw [hedits]
    exact .edit ⟨sourceEdits site.log, site.sources⟩ _

end

/-- The label and with it the recorded hash are never removed. Within a tick the agent is stopped by being killed. -/
def betweenTearDowns (s : RunState) : RunAct → Bool
  | .answer fate => match fate, s.pass with
    | .fail _, _ => true
    | _, some ⟨_, .call (.patchNode body) _, _⟩ => decide (body ≠ clearOptinPatch)
    | _, _ => true
  | .interfere .stop => s.pass.isNone
  | _ => true

/-- Two restarts in a row are for different hashes, unless a hash whose restart never came was recorded in between;
and there are no more restarts than edits of the reference and of the sources, the first delivery included. -/
structure OncePerRollout (origin : Site) (log : List Event) : Prop where
  consecutive : ∀ later mid earlier hash hash' dest dest',
    log = later ++ .restarted hash' dest' :: mid ++ .restarted hash dest :: earlier →
      (∀ event ∈ mid, event.isRestart = false) → hash' = hash → ∃ other, other ≠ hash ∧ .recorded other ∈ mid
  count : restarts log ≤ refEdits log + sourceEdits log + firstDelivery origin

section

variable (platform : Platform) (nodeName : String) (origin : Site)

theorem accounted_keeps (happlied : origin.applied = none) (hlog : origin.log = []) :
    (system platform nodeName).Keeps (fun _ => tickMonitor platform) (fun _ => Notes.none) (· = origin)
      (fun s a => betweenTearDowns s a = true) (fun _ _ => True)
      (fun site pass => ∃ ref sources, Accounted platform origin site (traceOf pass) ref sources) where
  base site heq := by
    subst heq
    refine ⟨site.refVersion, site.sourcesVersion, ?_⟩
    constructor
    · exact ⟨Nat.zero_le _, fun _ => rfl⟩
    · exact .refl _
    · exact .refl _
    · rw [hlog]
      exact Nat.zero_le _
    · exact fun hash hsome => nomatch happlied.symm.trans hsome
    · exact fun _ hview => nomatch hview
    · rw [hlog]
      trivial
    · rw [happlied, hlog]
      rfl
    · exact fun _ howed => nomatch howed
    · exact fun _ _ hview => nomatch hview
  interfere site pass e _ h _ hok := by
    obtain ⟨ref, sources, h⟩ := h
    refine ⟨ref, sources, ?_⟩
    have hsame : ∀ site' : Site, site'.node = site.node → site'.sources = site.sources → site'.log = site.log →
        Accounted platform origin site' (traceOf (System.seen pass)) ref sources := by
      rintro ⟨node, sources', dest, temp, running, log⟩ rfl rfl rfl
      exact h.edited rfl (.refl _) (.refl _) rfl id rfl rfl
    cases e with
    | deliver kata => exact accounted_patched h (some kata)
    | withdraw => exact accounted_patched h none
    | putConfigMap ns name value =>
      change Accounted platform origin (site.putConfigMap ns name value) _ _ _
      rcases site.putConfigMap_eq ns name value with heq | heq
      · exact heq.symm ▸ h
      · exact heq.symm ▸ accounted_withSources h _
    | putSecret ns name value =>
      change Accounted platform origin (site.putSecret ns name value) _ _ _
      rcases site.putSecret_eq ns name value with heq | heq
      · exact heq.symm ▸ h
      · exact heq.symm ▸ accounted_withSources h _
    | boot => exact hsame _ rfl rfl rfl
    | stop => exact hsame _ rfl rfl rfl
    | drift dest => exact hsame _ rfl rfl rfl
  start _ _ _ h _ _ := h
  answer site snap call k trace fate _ h hallowed hok := by
    obtain ⟨ref, sources, h⟩ := h
    apply accounted_serve h hallowed
    rintro rfl
    cases fate with
    | fail e => exact ⟨e, rfl⟩
    | ok =>
      have hne : clearOptinPatch ≠ clearOptinPatch := of_decide_eq_true hok
      exact absurd rfl hne
    | lost e =>
      have hne : clearOptinPatch ≠ clearOptinPatch := of_decide_eq_true hok
      exact absurd rfl hne
  finish _ _ _ h := by
    obtain ⟨ref, sources, h⟩ := h
    exact ⟨ref, sources, h.between⟩
  kill site _ _ h := by
    obtain ⟨ref, sources, h⟩ := h
    exact ⟨ref, sources, h.between.edited rfl (.refl _) (.refl _) rfl id rfl rfl⟩

end

/-! ## A content that comes back -/

/-- The content changes and changes back; the agent is killed between record and restart of the second content. -/
def changedBack : List RunAct :=
  [.interfere (.deliver sampleKata), .interfere .boot, .start] ++ answers 11 ++
    [.finish, .interfere (.putConfigMap "5spot-system" "kata" (sampleSource "[plugins]\n")), .start] ++ answers 10 ++
    [.kill, .interfere (.putConfigMap "5spot-system" "kata" (sampleSource "[kata]\n")), .interfere .boot, .start] ++
    answers 11

def sampleHash (text : String) : String := sha256Hex samplePlatform text.toUTF8

def changedBackLog : List Event :=
  [.restarted (sampleHash "[kata]\n") (some "[kata]\n".toUTF8), .recorded (sampleHash "[kata]\n"), .editedSource,
    .recorded (sampleHash "[plugins]\n"), .editedSource,
    .restarted (sampleHash "[kata]\n") (some "[kata]\n".toUTF8), .recorded (sampleHash "[kata]\n"), .editedRef]

theorem changedBack_reaches : ∃ s : RunState, (system samplePlatform "worker-1").Reach (· = sampleSite)
    (fun s a => betweenTearDowns s a = true) s ∧ decide (s.world.log = changedBackLog) = true :=
  System.Reach.exists_of_runWith (system samplePlatform "worker-1") betweenTearDowns
    (fun s => decide (s.world.log = changedBackLog)) changedBack rfl (by decide +kernel)

end FiveSpot.KataAgent
