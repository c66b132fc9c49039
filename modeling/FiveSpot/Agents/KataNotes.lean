import Mathlib.Data.Set.Operations
import FiveSpot.Agents.KataAgent

/-! # What a tick knows and does

The notes of a tick are what it has read and written so far. They say which call may come next: a record has
the hash of what is on the host, a restart follows its record, and a tick without a reference never writes.
-/

namespace FiveSpot.KataAgent

set_option autoImplicit false

open Interaction

structure View where
  ref : Option String
  applied : Option String

structure Notes where
  view : Option View
  /-- What the source held. -/
  content : Option (Option ByteArray)
  temp : Option ByteArray
  dest : Option (Option ByteArray)
  patched : Bool
  /-- A hash is recorded and its restart comes next. -/
  owed : Option String
  reads : Bool

def Notes.none : Notes := ⟨.none, .none, .none, .none, false, .none, true⟩

def Call.isRead : Call → Bool
  | .getNode | .getConfigMap _ _ | .getSecret _ _ | .resolveDest | .readDest => true
  | _ => false

def View.of (node : Node) : View :=
  ⟨annotationOf node Constants.kataConfigRefAnnotation, annotationOf node Constants.kataConfigAppliedAnnotation⟩

def recordedHash (body : NodePatch) : Option String :=
  (body.annotations.lookup Constants.kataConfigAppliedAnnotation).join

section

variable (platform : Platform)

/-- The hash of what is, or is not, at a place. -/
def hashOf (content : Option ByteArray) : String := (content.map (sha256Hex platform)).getD absentHashMarker

def View.kataRef (view : View) : Option KataRef := view.ref.bind fun raw => (platform.parseKataRef raw).toOption

def Notes.observe (t : Notes) : (call : Call) → Resp call → Notes
  | .getNode, .ok node => { t with view := some (View.of node) }
  | .getConfigMap _ _, .ok found =>
    { t with content := (t.view.bind (View.kataRef platform)).map fun kref => (kref.inConfigMap found).map String.toUTF8 }
  | .getSecret _ _, .ok found =>
    { t with content := (t.view.bind (View.kataRef platform)).map fun kref => (kref.inSecret platform found).map String.toUTF8 }
  | .readDest, .ok dest => { t with dest := some dest }
  | .writeTemp bytes, .ok _ => { t with temp := some bytes, reads := false }
  | .writeTemp _, .error _ => { t with temp := .none, reads := false }
  | .removeTemp, _ => { t with temp := .none, reads := false }
  | .renameTemp, .ok _ => { t with dest := some t.temp, temp := .none, reads := false }
  | .renameTemp, .error _ => { t with dest := .none, temp := .none, reads := false }
  | .removeDest, .ok _ => { t with dest := some .none, reads := false }
  | .removeDest, .error _ => { t with dest := .none, reads := false }
  | .patchNode body, .ok _ => { t with patched := true, owed := recordedHash body, reads := false }
  | .patchNode _, .error _ => { t with patched := true, owed := .none, reads := false }
  | .restart _ _, _ => { t with owed := .none, reads := false }
  | call, _ => { t with reads := t.reads && call.isRead }

structure Notes.Delivers (t : Notes) (content : Option ByteArray) : Prop where
  ref : ∃ view, t.view = some view ∧ (view.kataRef platform).isSome = true
  content : t.content = some content

def Notes.TearsDown (t : Notes) : Prop := ∃ view, t.view = some view ∧ view.ref = .none

def Notes.OnHost (t : Notes) (hash : String) : Prop := ∃ dest, t.dest = some dest ∧ hashOf platform dest = hash

/-- The hash is that of the source and of the host, and not what was recorded before. -/
structure Notes.Records (t : Notes) (hash : String) : Prop where
  delivers : ∃ content, t.Delivers platform content ∧ hashOf platform content = hash
  onHost : t.OnHost platform hash
  fresh : ∀ view, t.view = some view → view.applied ≠ some hash

def Notes.allows (t : Notes) : Call → Prop
  | .getNode => t = .none
  | .patchNode body => t.patched = false ∧ t.owed = .none ∧
      ((body = clearOptinPatch ∧ t.TearsDown ∧ t.dest = some .none) ∨
        ∃ hash, body = recordAppliedPatch hash ∧ t.Records platform hash)
  | .getConfigMap ns name => t.owed = .none ∧ t.content = .none ∧ ∃ view kref, t.view = some view ∧
      view.kataRef platform = some kref ∧ kref.kind = "ConfigMap" ∧ kref.ns = ns ∧ kref.name = name
  | .getSecret ns name => t.owed = .none ∧ t.content = .none ∧ ∃ view kref, t.view = some view ∧
      view.kataRef platform = some kref ∧ kref.kind = "Secret" ∧ kref.ns = ns ∧ kref.name = name
  | .writeTemp bytes => t.owed = .none ∧ t.Delivers platform (some bytes)
  | .renameTemp => t.owed = .none ∧ ∃ bytes, t.Delivers platform (some bytes) ∧ t.temp = some bytes
  | .restart _ hash => t.owed = some hash ∧ t.OnHost platform hash
  | _ => t.owed = .none

def tickMonitor : Monitor Resp Notes := ⟨Notes.allows platform, Notes.observe platform⟩

/-- A tick ends with no restart owed; one that returns after reading only had found its hash recorded. -/
def TickEnds : Except String Unit → Notes → Prop
  | .ok _, t => t.owed = .none ∧ (t.reads = true → t.patched = false ∧
      ∃ view hash, t.view = some view ∧ view.applied = some hash ∧ t.OnHost platform hash)
  | .error _, t => t.owed = .none

end

variable {platform : Platform}

/-! ## Hashes -/

theorem hexDigit_inj : ∀ {m n : Nat}, m < 16 → n < 16 → hexDigit m = hexDigit n → m = n := by
  have h : ∀ m : Fin 16, ∀ n : Fin 16, hexDigit m = hexDigit n → m = n := by decide
  intro m n hm hn heq
  exact congrArg Fin.val (h ⟨m, hm⟩ ⟨n, hn⟩ heq)

theorem hexText_injective : Function.Injective hexText := by
  intro a b h
  have hchars := congrArg String.toList h
  rw [hexText, hexText, String.toList_ofList, String.toList_ofList] at hchars
  induction a generalizing b with
  | nil =>
    cases b with
    | nil => rfl
    | cons y b => cases hchars
  | cons x a ih =>
    cases b with
    | nil => cases hchars
    | cons y b =>
      simp only [List.flatMap_cons, List.cons_append, List.nil_append, List.cons.injEq] at hchars
      obtain ⟨hhigh, hlow, hrest⟩ := hchars
      have hx := x.toNat_lt
      have hy := y.toNat_lt
      have hdiv := hexDigit_inj (by omega) (by omega) hhigh
      have hmod := hexDigit_inj (by omega) (by omega) hlow
      have hbyte : x = y := UInt8.toNat_inj.mp (by omega)
      rw [hbyte, ih (congrArg String.ofList hrest) hrest]

/-- The marker for no drop-in is not a hash. -/
theorem hexText_ne_absent (bytes : List UInt8) : hexText bytes ≠ absentHashMarker := by
  intro h
  have hdigit : ∀ n : Fin 16, hexDigit n ≠ 's' := by decide
  have hmem : 's' ∈ (hexText bytes).toList := by
    rw [h]
    decide
  rw [hexText, String.toList_ofList, List.mem_flatMap] at hmem
  obtain ⟨byte, -, hchar⟩ := hmem
  have hbyte := byte.toNat_lt
  rcases List.mem_cons.mp hchar with heq | hchar
  · exact hdigit ⟨byte.toNat / 16, by omega⟩ heq.symm
  · exact hdigit ⟨byte.toNat % 16, by omega⟩ (List.mem_singleton.mp hchar).symm

theorem hashOf_inj {contents : Set ByteArray} (hdigest : Set.InjOn platform.digest contents) {a b : Option ByteArray}
    (ha : ∀ bytes, a = some bytes → bytes ∈ contents) (hb : ∀ bytes, b = some bytes → bytes ∈ contents)
    (h : hashOf platform a = hashOf platform b) : a = b := by
  cases a with
  | none =>
    cases b with
    | none => rfl
    | some b => exact absurd h.symm (hexText_ne_absent _)
  | some a =>
    cases b with
    | none => exact absurd h (hexText_ne_absent _)
    | some b => exact congrArg some (hdigest (ha a rfl) (hb b rfl) (hexText_injective h))
/-! ## Requests -/

theorem conforms_ask {call : Call} {Q : Except String call.Answer → Notes → Prop} {t : Notes} :
    Conforms (tickMonitor platform) (ask call) Q t ↔
      t.allows platform call ∧ ∀ answer, Q answer (t.observe platform call answer) := by
  rw [ask, conforms_call]
  exact and_congr_right fun _ => forall_congr' fun answer => conforms_ofExcept

theorem conforms_askIn {context : String} {call : Call} {Q : Except String call.Answer → Notes → Prop} {t : Notes}
    (hallowed : t.allows platform call) (hok : ∀ answer, Q (.ok answer) (t.observe platform call (.ok answer)))
    (herror : ∀ e, Q (.error context) (t.observe platform call (.error e))) :
    Conforms (tickMonitor platform) (askIn context call) Q t := by
  refine ⟨hallowed, fun answer => ?_⟩
  cases answer with
  | ok answer => exact hok answer
  | error e => exact herror e

/-! ## Bringing the host in line -/

/-- What a successful sync of a content leaves: the drop-in has the same hash. -/
structure Synced (platform : Platform) (source : Option ByteArray) (t : Notes) (outcome : SyncOutcome) (t' : Notes) : Prop where
  view : t'.view = t.view
  content : t'.content = t.content
  patched : t'.patched = t.patched
  onHost : t'.OnHost platform (hashOf platform source)
  absent : source = .none → t'.dest = some .none
  intended : intendedHashFor outcome = hashOf platform source

theorem atomicWrite_conforms {bytes : ByteArray} {t : Notes} (howed : t.owed = .none)
    (hdelivers : t.Delivers platform (some bytes)) :
    Conforms (tickMonitor platform) (atomicWrite bytes)
      (fun x t' => t'.owed = .none ∧ (x = .ok () → Synced platform (some bytes) t (.wrote (sha256Hex platform bytes)) t')) t := by
  rw [atomicWrite, Prog.bind_def, conforms_bind, conforms_ask]
  refine ⟨howed, ?_⟩
  rintro (e | parent)
  · exact ⟨howed, fun h => nomatch h⟩
  refine ⟨howed, fun leftover => ?_⟩
  rw [Prog.bind_def, conforms_bind, conforms_ask]
  refine ⟨⟨howed, hdelivers.ref, hdelivers.content⟩, ?_⟩
  rintro (e | written)
  · exact ⟨howed, fun h => nomatch h⟩
  rw [continue_ok, Prog.bind_def, conforms_bind, conforms_ask]
  refine ⟨howed, ?_⟩
  rintro (e | mode)
  · exact ⟨howed, fun h => nomatch h⟩
  refine ⟨⟨howed, bytes, ⟨hdelivers.ref, hdelivers.content⟩, rfl⟩, ?_⟩
  rintro (e | renamed)
  · exact ⟨howed, fun _ => ⟨howed, fun h => nomatch h⟩⟩
  · refine ⟨howed, fun _ => ?_⟩
    constructor
    · rfl
    · rfl
    · rfl
    · exact ⟨some bytes, rfl, rfl⟩
    · exact fun h => nomatch h
    · rfl

theorem syncContent_conforms {source : Option ByteArray} {t : Notes} (howed : t.owed = .none)
    (hsource : ∀ bytes, source = some bytes → t.Delivers platform (some bytes)) :
    Conforms (tickMonitor platform) (syncContent platform source)
      (fun x t' => t'.owed = .none ∧ ∀ outcome, x = .ok outcome → Synced platform source t outcome t') t := by
  rw [syncContent, Prog.bind_def, conforms_bind, conforms_ask]
  refine ⟨howed, ?_⟩
  rintro (e | dest)
  · exact ⟨howed, fun _ h => nomatch h⟩
  rw [continue_ok]
  cases source with
  | none =>
    cases dest with
    | none =>
      refine ⟨howed, fun outcome h => ?_⟩
      cases h
      exact ⟨rfl, rfl, rfl, ⟨.none, rfl, rfl⟩, fun _ => rfl, rfl⟩
    | some bytes =>
      change Conforms _ ((ask .removeDest).bind _) _ _
      rw [conforms_bind, conforms_ask]
      refine ⟨howed, ?_⟩
      rintro (e | removed)
      · exact ⟨howed, fun _ h => nomatch h⟩
      · refine ⟨howed, fun outcome h => ?_⟩
        cases h
        exact ⟨rfl, rfl, rfl, ⟨.none, rfl, rfl⟩, fun _ => rfl, rfl⟩
  | some bytes =>
    have hdelivers := hsource bytes rfl
    by_cases hsame : dest.map (sha256Hex platform) = some (sha256Hex platform bytes)
    · simp only [decideAction, if_pos hsame]
      refine ⟨howed, fun outcome h => ?_⟩
      cases h
      refine ⟨rfl, rfl, rfl, ⟨dest, rfl, ?_⟩, (fun h => nomatch h), ?_⟩
      · rw [hashOf, hsame]
        rfl
      · rw [hsame]
        rfl
    · simp only [decideAction, if_neg hsame]
      rw [Prog.bind_def, conforms_bind]
      have hread : (t.observe platform .readDest (.ok dest)).owed = .none := howed
      have hdelivers' : (t.observe platform .readDest (.ok dest)).Delivers platform (some bytes) :=
        ⟨hdelivers.ref, hdelivers.content⟩
      refine (atomicWrite_conforms hread hdelivers').mono ?_
      rintro (e | written) t' ⟨howed', hsynced⟩
      · exact ⟨howed', fun _ h => nomatch h⟩
      · refine ⟨howed', fun outcome h => ?_⟩
        cases h
        have h' := hsynced rfl
        exact ⟨h'.view, h'.content, h'.patched, h'.onHost, (fun h => nomatch h), h'.intended⟩

/-! ## The whole tick -/

theorem activate_conforms {nodeName service hash : String} {t : Notes} {view : View} (howed : t.owed = .none)
    (hpatched : t.patched = false) (hview : t.view = some view)
    (hdelivers : ∃ content, t.Delivers platform content ∧ hashOf platform content = hash)
    (hhost : t.OnHost platform hash) :
    Conforms (tickMonitor platform) (activate nodeName view.applied hash service) (TickEnds platform) t := by
  unfold activate
  split
  · rename_i hneeds
    have hfresh : view.applied ≠ some hash := by simpa [needsRestart] using hneeds
    have hrecords : t.Records platform hash := by
      refine ⟨hdelivers, hhost, ?_⟩
      intro view' hview'
      cases hview.symm.trans hview'
      exact hfresh
    rw [Prog.bind_def, conforms_bind, recordApplied]
    apply conforms_askIn
    · exact ⟨hpatched, howed, .inr ⟨hash, rfl, hrecords⟩⟩
    · intro answer
      rw [continue_ok, Prog.bind_def, conforms_bind, restartIfNeeded, if_pos hneeds, Prog.bind_def, conforms_bind]
      apply conforms_askIn
      · exact ⟨rfl, hhost⟩
      · exact fun _ => ⟨rfl, fun h => nomatch h⟩
      · exact fun _ => rfl
    · exact fun _ => rfl
  · rename_i hneeds
    have happlied : view.applied = some hash := by simpa [needsRestart] using hneeds
    exact ⟨howed, fun _ => ⟨hpatched, view, hash, hview, happlied, hhost⟩⟩

theorem fetchContent_conforms {kref : KataRef} {t : Notes} {view : View} (howed : t.owed = .none)
    (hview : t.view = some view) (hkref : view.kataRef platform = some kref) (hcontent : t.content = .none) :
    Conforms (tickMonitor platform) (fetchContent platform kref)
      (fun x t' => t'.owed = .none ∧ ∀ content, x = .ok content →
        t' = { t with content := some (content.map String.toUTF8) }) t := by
  have hobserved : t.view.bind (View.kataRef platform) = some kref := by rw [hview, Option.bind_some, hkref]
  unfold fetchContent
  split
  · rename_i hkind
    rw [Prog.bind_def, conforms_bind, conforms_ask]
    refine ⟨⟨howed, hcontent, view, kref, hview, hkref, hkind, rfl, rfl⟩, ?_⟩
    rintro (e | found)
    · exact ⟨howed, fun _ h => nomatch h⟩
    · refine ⟨howed, fun content h => ?_⟩
      cases h
      simp only [Notes.observe, hobserved, Option.map_some]
  split
  · rename_i hkind
    rw [Prog.bind_def, conforms_bind, conforms_ask]
    refine ⟨⟨howed, hcontent, view, kref, hview, hkref, hkind, rfl, rfl⟩, ?_⟩
    rintro (e | found)
    · exact ⟨howed, fun _ h => nomatch h⟩
    · refine ⟨howed, fun content h => ?_⟩
      cases h
      simp only [Notes.observe, hobserved, Option.map_some]
  · exact ⟨howed, fun _ h => nomatch h⟩

theorem tearDown_conforms {nodeName : String} {t : Notes} (howed : t.owed = .none) (hpatched : t.patched = false)
    (htears : t.TearsDown) :
    Conforms (tickMonitor platform) ((syncContent platform none).bind fun _ => clearOptin nodeName)
      (TickEnds platform) t := by
  have hsource : ∀ bytes, (Option.none : Option ByteArray) = some bytes → t.Delivers platform (some bytes) := by
    intro bytes h
    cases h
  rw [conforms_bind]
  refine (syncContent_conforms howed hsource).mono ?_
  rintro (e | outcome) t' ⟨howed', hsynced⟩
  · exact howed'
  · have h := hsynced outcome rfl
    obtain ⟨view, hview, href⟩ := htears
    rw [continue_ok, clearOptin]
    apply conforms_askIn
    · exact ⟨h.patched.trans hpatched, howed', .inl ⟨rfl, ⟨view, h.view.trans hview, href⟩, h.absent rfl⟩⟩
    · exact fun _ => ⟨rfl, fun hreads => nomatch hreads⟩
    · exact fun _ => rfl

theorem deliver_conforms {nodeName : String} {kref : KataRef} {view : View} {t : Notes} (howed : t.owed = .none)
    (hpatched : t.patched = false) (hcontent : t.content = .none) (hview : t.view = some view)
    (hkref : view.kataRef platform = some kref) :
    Conforms (tickMonitor platform)
      ((fetchContent platform kref).bind fun content => (syncContent platform (content.map String.toUTF8)).bind
        fun outcome => activate nodeName view.applied (intendedHashFor outcome) kref.restartService)
      (TickEnds platform) t := by
  rw [conforms_bind]
  refine (fetchContent_conforms howed hview hkref hcontent).mono ?_
  rintro (e | content) t₁ ⟨howed₁, hfetched⟩
  · exact howed₁
  obtain rfl := hfetched content rfl
  have hsome : (view.kataRef platform).isSome = true := Option.isSome_of_eq_some hkref
  rw [continue_ok, conforms_bind]
  refine (syncContent_conforms howed₁ fun bytes hbytes => ⟨⟨view, hview, hsome⟩, congrArg some hbytes⟩).mono ?_
  rintro (e | outcome) t₂ ⟨howed₂, hsynced⟩
  · exact howed₂
  have h := hsynced outcome rfl
  rw [continue_ok, h.intended]
  have hview₂ : t₂.view = some view := h.view.trans hview
  refine activate_conforms howed₂ (h.patched.trans hpatched) hview₂ ⟨_, ⟨⟨view, hview₂, hsome⟩, h.content⟩, rfl⟩ h.onHost

theorem reconcileOnce_conforms (nodeName : String) :
    Conforms (tickMonitor platform) (reconcileOnce platform nodeName) (TickEnds platform) .none := by
  rw [reconcileOnce, Prog.bind_def, conforms_bind, readNodeState, Prog.bind_def, conforms_bind]
  apply conforms_askIn
  · rfl
  · intro node
    rw [continue_ok]
    split
    · rename_i href
      rw [Prog.pure_def, conforms_pure, continue_ok, Prog.bind_def, conforms_bind, conforms_ask]
      refine ⟨rfl, ?_⟩
      rintro (e | dest)
      · rfl
      · exact tearDown_conforms rfl rfl ⟨View.of node, rfl, href⟩
    · rename_i raw href
      split
      · rename_i kref hparsed
        have hkref : (View.of node).kataRef platform = some kref := by
          simp [View.kataRef, View.of, href, hparsed, Except.toOption]
        rw [Prog.pure_def, conforms_pure, continue_ok]
        dsimp only
        rw [Prog.bind_def, conforms_bind, conforms_ask]
        refine ⟨rfl, ?_⟩
        rintro (e | dest)
        · rfl
        · exact deliver_conforms rfl rfl rfl rfl hkref
      · rfl
  · exact fun _ => rfl

/-! ## Notes and traces -/

abbrev notes (platform : Platform) (trace : List (Sigma Resp)) : Notes := (tickMonitor platform).after .none trace

theorem mem_earlier {event last : Sigma Resp} {trace : List (Sigma Resp)} (hmem : event ∈ last :: trace)
    (hcall : event.1 ≠ last.1) : event ∈ trace :=
  List.mem_of_ne_of_mem (fun heq => hcall (congrArg Sigma.fst heq)) hmem

theorem reads_observe (t : Notes) (call : Call) (answer : Resp call) :
    (t.observe platform call answer).reads = (t.reads && call.isRead) := by
  cases call <;> cases answer <;> simp [Notes.observe, Call.isRead]

theorem reads_after (trace : List (Sigma Resp)) :
    (notes platform trace).reads = trace.all fun event => event.1.isRead := by
  induction trace with
  | nil => rfl
  | cons event earlier ih =>
    obtain ⟨call, answer⟩ := event
    rw [List.all_cons, ← ih, Bool.and_comm]
    exact reads_observe _ call answer

/-- While a restart is owed the tick cannot end, and has no other call to make. -/
theorem restart_of_owed {t : Notes} {hash : String} (howed : t.owed = some hash) {rest : Tick Unit}
    (h : Conforms (tickMonitor platform) rest (TickEnds platform) t) :
    ∃ service intended k, rest = .call (.restart service intended) k := by
  cases rest with
  | pure _ =>
    rw [conforms_pure, TickEnds, howed] at h
    cases h.1
  | fail e =>
    rw [conforms_fail, TickEnds, howed] at h
    cases h
  | call call k =>
    have hallowed : t.allows platform call := h.1
    cases call with
    | restart service intended => exact ⟨service, intended, k, rfl⟩
    | getNode =>
      rw [Notes.allows] at hallowed
      rw [hallowed] at howed
      cases howed
    | patchNode body => exact nomatch howed.symm.trans hallowed.2.1
    | getConfigMap ns name => exact nomatch howed.symm.trans hallowed.1
    | getSecret ns name => exact nomatch howed.symm.trans hallowed.1
    | writeTemp bytes => exact nomatch howed.symm.trans hallowed.1
    | renameTemp => exact nomatch howed.symm.trans hallowed.1
    | _ => exact nomatch howed.symm.trans hallowed

/-! ## Runs -/

abbrev RunState := State Resp String Unit Site Unit
abbrev RunAct := Act Interference Fate

def traceOf : Option (Unit × List (Sigma Resp)) → List (Sigma Resp)
  | .none => []
  | some (_, trace) => trace

theorem serve_of_perform {site after : Site} {call : Call} {answer : call.Answer}
    (h : perform site call = .ok (answer, after)) :
    serve site call .ok = (.ok answer, after) ∧ ∀ e, serve site call (.lost e) = (.error e, after) := by
  constructor
  · simp only [serve, h]
  · intro e
    simp only [serve, h]

theorem serve_after (site : Site) (call : Call) (fate : Fate) :
    (serve site call fate).2 = site ∨ ∃ answer, perform site call = .ok (answer, (serve site call fate).2) := by
  unfold serve
  split
  · rename_i hperform
    exact .inr ⟨_, hperform⟩
  · exact .inl rfl
  · exact .inl rfl
  · rename_i hperform
    exact .inr ⟨_, hperform⟩
  · exact .inl rfl

end FiveSpot.KataAgent
