import FiveSpot.Interaction.Undisturbed
import FiveSpot.Safety.KataDelivery

/-! # The agent settles its host

Whatever a host, its leftovers and the record on its Node look like: one tick in which every call works brings them in line
with what the Node asks for, and the ticks after it touch nothing.
-/

namespace FiveSpot.KataAgent

set_option autoImplicit false

open Interaction

/-! ## What a Node asks for -/

inductive Demand where
  | tearDown
  | deliver (content : Option ByteArray)
  /-- The reference cannot be read, or is to an unknown kind. -/
  | unclear

section

variable (platform : Platform) (site : Site)

def demandOf : Except String KataRef → Demand
  | .error _ => .unclear
  | .ok kref =>
    if kref.kind = "ConfigMap" then
      .deliver ((kref.inConfigMap (site.sources.configMap kref.ns kref.name)).map String.toUTF8)
    else if kref.kind = "Secret" then
      .deliver ((kref.inSecret platform (site.sources.secret kref.ns kref.name)).map String.toUTF8)
    else .unclear

def demand : Demand :=
  match site.ref with
  | none => .tearDown
  | some raw => demandOf platform site (platform.parseKataRef raw)

/-- The site afterwards is as the Node asked for. A restart comes after its hash was recorded, with the content in place. -/
def Meets (after : Site) : Demand → Prop
  | .unclear => after = site
  | .tearDown => after.dest = none ∧ after.label = none ∧ after.applied = none ∧ after.log = site.log
  | .deliver content => after.dest.map (sha256Hex platform) = content.map (sha256Hex platform) ∧
      after.applied = some (hashOf platform content) ∧
      after.log = if site.applied = some (hashOf platform content) then site.log
        else .restarted (hashOf platform content) after.dest :: .recorded (hashOf platform content) :: site.log

/-! ## What a tick makes of a site -/

def Site.synced (content : Option ByteArray) : Site :=
  if site.dest.map (sha256Hex platform) = content.map (sha256Hex platform) then site
  else { site with dest := content, temp := if content.isSome then none else site.temp }

def Site.activated (hash : String) : Site :=
  if site.applied = some hash then site
  else { site with node := (recordAppliedPatch hash).apply site.node,
                   log := .restarted hash site.dest :: .recorded hash :: site.log }

def Site.cleared : Site := { site with node := clearOptinPatch.apply site.node }

def Site.settled : Site :=
  match demand platform site with
  | .unclear => site
  | .tearDown => (site.synced platform none).cleared
  | .deliver content => (site.synced platform content).activated (hashOf platform content)

end

section

variable {platform : Platform} {nodeName : String} {site after : Site}

/-! ## Executing a tick -/

theorem exec_syncContent_eq (platform : Platform) (site : Site) (content : Option ByteArray) : ∃ outcome,
    (syncContent platform content).exec serve .ok site = (.ok outcome, site.synced platform content) ∧
      intendedHashFor outcome = hashOf platform content := by
  unfold syncContent Site.synced
  rw [Prog.bind_def, Prog.exec_bind_ok (exec_ask_ok rfl)]
  cases content with
  | none =>
    cases hdest : site.dest with
    | none =>
      simp only [Option.map_none, decideAction, Option.isSome_none, Bool.false_eq_true, if_false, if_true]
      exact ⟨.unchanged none, rfl, rfl⟩
    | some old =>
      simp only [Option.map_some, Option.map_none, decideAction, Option.isSome_some, if_true, reduceCtorEq, if_false]
      refine ⟨.deleted, ?_, rfl⟩
      rw [Prog.bind_def, Prog.exec_bind_ok (exec_ask_ok rfl)]
      rfl
  | some bytes =>
    by_cases hsame : site.dest.map (sha256Hex platform) = some (sha256Hex platform bytes)
    · simp only [decideAction, hsame, Option.map_some, if_true]
      exact ⟨.unchanged (some (sha256Hex platform bytes)), rfl, rfl⟩
    · simp only [decideAction, hsame, Option.map_some, if_false, Option.isSome_some, if_true]
      refine ⟨.wrote (sha256Hex platform bytes), ?_, rfl⟩
      rw [Prog.bind_def, Prog.exec_bind_ok (exec_atomicWrite bytes site)]
      rfl

theorem exec_activate_eq (hash service : String) :
    (activate nodeName site.applied hash service).exec serve .ok site = (.ok (), site.activated hash) := by
  unfold activate Site.activated
  by_cases hknown : site.applied = some hash
  · rw [if_pos hknown, needsRestart, hknown, bne_self_eq_false, if_neg Bool.false_ne_true]
    rfl
  · have hneeds : needsRestart site.applied hash = true := bne_iff_ne.mpr hknown
    rw [if_neg hknown, if_pos hneeds, Prog.bind_def, recordApplied, Prog.exec_bind_ok (exec_askIn_ok rfl), Prog.bind_def,
      restartIfNeeded, if_pos hneeds, Prog.bind_def, Prog.exec_bind_ok (Prog.exec_bind_ok (exec_askIn_ok rfl))]
    rfl

theorem exec_readNodeState_none (href : site.ref = none) :
    (readNodeState platform nodeName).exec serve .ok site = (.ok ⟨none, site.applied⟩, site) := by
  have hread : annotationOf site.node Constants.kataConfigRefAnnotation = none := href
  unfold readNodeState
  rw [Prog.bind_def, Prog.exec_bind_ok (exec_askIn_ok rfl)]
  simp only [hread]
  rfl

theorem exec_readNodeState {raw : String} {kref : KataRef} (href : site.ref = some raw)
    (hparse : platform.parseKataRef raw = .ok kref) :
    (readNodeState platform nodeName).exec serve .ok site = (.ok ⟨some kref, site.applied⟩, site) := by
  have hread : annotationOf site.node Constants.kataConfigRefAnnotation = some raw := href
  unfold readNodeState
  rw [Prog.bind_def, Prog.exec_bind_ok (exec_askIn_ok rfl)]
  simp only [hread, hparse]
  rfl

theorem exec_deliver {content : Option String} {service : String} :
    Prog.exec serve .ok (do
      let outcome ← syncContent platform (content.map String.toUTF8)
      activate nodeName site.applied (intendedHashFor outcome) service) site =
        (.ok (), (site.synced platform (content.map String.toUTF8)).activated
          (hashOf platform (content.map String.toUTF8))) := by
  obtain ⟨outcome, hsync, hhash⟩ := exec_syncContent_eq platform site (content.map String.toUTF8)
  have happlied : (site.synced platform (content.map String.toUTF8)).applied = site.applied := by
    unfold Site.synced
    split <;> rfl
  rw [Prog.bind_def, Prog.exec_bind_ok hsync, hhash, ← happlied]
  exact exec_activate_eq _ _

theorem exec_reconcileOnce (platform : Platform) (nodeName : String) (site : Site) :
    ∃ x, (reconcileOnce platform nodeName).exec serve .ok site = (x, site.settled platform) := by
  unfold reconcileOnce Site.settled demand
  cases href : site.ref with
  | none =>
    obtain ⟨outcome, hsync, -⟩ := exec_syncContent_eq platform site none
    rw [Prog.bind_def, Prog.exec_bind_ok (exec_readNodeState_none href)]
    dsimp only
    rw [Prog.bind_def, Prog.exec_bind_ok (exec_ask_ok rfl), Prog.bind_def, Prog.exec_bind_ok hsync]
    exact ⟨.ok (), exec_askIn_ok rfl⟩
  | some raw =>
    cases hparse : platform.parseKataRef raw with
    | error e =>
      have hread : annotationOf site.node Constants.kataConfigRefAnnotation = some raw := href
      rw [Prog.bind_def, readNodeState, Prog.bind_def, Prog.exec_bind, Prog.exec_bind_ok (exec_askIn_ok rfl)]
      simp only [hread, hparse]
      exact ⟨_, rfl⟩
    | ok kref =>
      rw [Prog.bind_def, Prog.exec_bind_ok (exec_readNodeState href hparse)]
      dsimp only
      rw [Prog.bind_def, Prog.exec_bind_ok (exec_ask_ok rfl), Prog.bind_def]
      simp only [hparse, demandOf, fetchContent]
      by_cases hconfigMap : kref.kind = "ConfigMap"
      · rw [if_pos hconfigMap, if_pos hconfigMap, Prog.exec_bind_ok (Prog.exec_bind_ok (exec_ask_ok rfl))]
        exact ⟨.ok (), exec_deliver⟩
      · rw [if_neg hconfigMap, if_neg hconfigMap]
        by_cases hsecret : kref.kind = "Secret"
        · rw [if_pos hsecret, if_pos hsecret, Prog.exec_bind_ok (Prog.exec_bind_ok (exec_ask_ok rfl))]
          exact ⟨.ok (), exec_deliver⟩
        · rw [if_neg hsecret, if_neg hsecret]
          exact ⟨_, rfl⟩

theorem tick_eq (hrunning : site.running = true) : (system platform nodeName).tick .ok site = site.settled platform := by
  obtain ⟨x, hexec⟩ := exec_reconcileOnce platform nodeName site
  have hsnap : (system platform nodeName).snapshot site = some () := if_pos hrunning
  rw [System.tick, hsnap]
  exact congrArg Prod.snd hexec

/-! ## What a tick leaves -/

theorem synced_dest (content : Option ByteArray) :
    (site.synced platform content).dest.map (sha256Hex platform) = content.map (sha256Hex platform) := by
  unfold Site.synced
  split
  · assumption
  · rfl

theorem synced_frame (platform : Platform) (site : Site) (content : Option ByteArray) :
    (site.synced platform content).node = site.node ∧
    (site.synced platform content).sources = site.sources ∧ (site.synced platform content).running = site.running ∧
      (site.synced platform content).log = site.log := by
  unfold Site.synced
  split <;> exact ⟨rfl, rfl, rfl, rfl⟩

theorem synced_of_same {content : Option ByteArray}
    (h : site.dest.map (sha256Hex platform) = content.map (sha256Hex platform)) : site.synced platform content = site := by
  rw [Site.synced, if_pos h]

theorem activated_of_applied {hash : String} (h : site.applied = some hash) : site.activated hash = site := by
  rw [Site.activated, if_pos h]

theorem applied_activated (hash : String) : (site.activated hash).applied = some hash := by
  unfold Site.activated
  split
  · assumption
  · exact applied_record site.node hash

theorem activated_frame (site : Site) (hash : String) : (site.activated hash).dest = site.dest ∧
    (site.activated hash).sources = site.sources ∧ (site.activated hash).running = site.running ∧
      (site.activated hash).ref = site.ref := by
  unfold Site.activated
  split
  · exact ⟨rfl, rfl, rfl, rfl⟩
  · exact ⟨rfl, rfl, rfl, ref_record site.node hash⟩

theorem log_activated (hash : String) : (site.activated hash).log =
    if site.applied = some hash then site.log else .restarted hash site.dest :: .recorded hash :: site.log := by
  unfold Site.activated
  split <;> rfl

theorem ref_cleared : site.cleared.ref = site.ref := ref_clear site.node

theorem label_cleared : site.cleared.label = none := by
  change StringMap.lookup _ (mergeKeys site.node.labels [(Constants.kataConfigLabel, none)]) = none
  rw [lookup_mergeKeys, if_pos rfl]

theorem erase_erase (m : StringMap) (key : String) : StringMap.erase key (StringMap.erase key m) = StringMap.erase key m := by
  rw [StringMap.erase, StringMap.erase, List.filter_filter]
  simp only [Bool.and_self]

theorem cleared_cleared : site.cleared.cleared = site.cleared := by
  simp only [Site.cleared, clearOptinPatch, NodePatch.apply, mergeKeys, List.foldl_cons, List.foldl_nil, erase_erase,
    List.isEmpty_cons, Bool.false_eq_true, if_false, Option.getD_some, Option.getD_none]

theorem demand_congr (href : after.ref = site.ref) (hsources : after.sources = site.sources) :
    demand platform after = demand platform site := by
  have hof : ∀ parsed, demandOf platform after parsed = demandOf platform site parsed := by
    intro parsed
    cases parsed <;> simp only [demandOf, hsources]
  unfold demand
  rw [href]
  cases site.ref with
  | none => rfl
  | some raw => exact hof _

/-- A tick changes neither the reference nor the sources. -/
theorem demand_settled (platform : Platform) (site : Site) : demand platform (site.settled platform) = demand platform site := by
  refine demand_congr ?_ ?_
  · unfold Site.settled
    cases demand platform site with
    | unclear => rfl
    | tearDown =>
      obtain ⟨hnode, -⟩ := synced_frame platform site none
      exact ref_cleared.trans (congrArg (annotationOf · Constants.kataConfigRefAnnotation) hnode)
    | deliver content =>
      obtain ⟨hnode, -⟩ := synced_frame platform site content
      obtain ⟨-, -, -, href⟩ := activated_frame (site.synced platform content) (hashOf platform content)
      exact href.trans (congrArg (annotationOf · Constants.kataConfigRefAnnotation) hnode)
  · unfold Site.settled
    cases demand platform site with
    | unclear => rfl
    | tearDown =>
      obtain ⟨-, hsources, -⟩ := synced_frame platform site none
      exact hsources
    | deliver content =>
      obtain ⟨-, hsources, -⟩ := synced_frame platform site content
      obtain ⟨-, hsame, -⟩ := activated_frame (site.synced platform content) (hashOf platform content)
      exact hsame.trans hsources

theorem settled_settled : (site.settled platform).settled platform = site.settled platform := by
  have hdemand := demand_settled platform site
  cases hcase : demand platform site with
  | unclear => simp only [Site.settled, hcase]
  | tearDown =>
    have hsettled : site.settled platform = (site.synced platform none).cleared := by rw [Site.settled, hcase]
    rw [Site.settled, hdemand, hcase]
    dsimp only
    have hsame : (site.synced platform none).cleared.synced platform none = (site.synced platform none).cleared :=
      synced_of_same (synced_dest none)
    rw [hsettled, hsame, cleared_cleared]
  | deliver content =>
    have hsettled : site.settled platform = (site.synced platform content).activated (hashOf platform content) := by
      rw [Site.settled, hcase]
    obtain ⟨hdest, -⟩ := activated_frame (site.synced platform content) (hashOf platform content)
    rw [Site.settled, hdemand, hcase]
    dsimp only
    rw [hsettled, synced_of_same (by rw [hdest]; exact synced_dest content), activated_of_applied (applied_activated _)]

theorem meets_settled : Meets platform site (site.settled platform) (demand platform site) := by
  cases hcase : demand platform site with
  | unclear => simp only [Meets, Site.settled, hcase]
  | tearDown =>
    obtain ⟨-, -, -, hlog⟩ := synced_frame platform site none
    rw [Site.settled, hcase]
    refine ⟨?_, label_cleared, applied_clear _, hlog⟩
    exact Option.map_eq_none_iff.mp (synced_dest none)
  | deliver content =>
    obtain ⟨hnode, -, -, hlog⟩ := synced_frame platform site content
    obtain ⟨hdest, -⟩ := activated_frame (site.synced platform content) (hashOf platform content)
    have happlied : (site.synced platform content).applied = site.applied :=
      congrArg (annotationOf · Constants.kataConfigAppliedAnnotation) hnode
    rw [Site.settled, hcase]
    refine ⟨?_, applied_activated _, ?_⟩
    · rw [hdest]
      exact synced_dest content
    · rw [log_activated, hdest, happlied, hlog]

theorem running_settled : (site.settled platform).running = site.running := by
  unfold Site.settled
  cases demand platform site with
  | unclear => rfl
  | tearDown =>
    obtain ⟨-, -, hrunning, -⟩ := synced_frame platform site none
    exact hrunning
  | deliver content =>
    obtain ⟨-, -, hrunning, -⟩ := synced_frame platform site content
    obtain ⟨-, -, hsame, -⟩ := activated_frame (site.synced platform content) (hashOf platform content)
    exact hsame.trans hrunning

/-- With every call successful and nobody else at work, the first tick brings the host to what its Node asks for, whatever it
was like before. From then on ticks leave host, Node and service alone. -/
theorem kata_settles (platform : Platform) (nodeName : String) (site : Site) (hrunning : site.running = true) :
    ∃ settled, Meets platform site settled (demand platform site) ∧
      (system platform nodeName).Rounds (fun w => w = site) (fun _ a => System.undisturbed .ok a) 1 ⟨settled, none⟩ ∧
      ∀ n w, n ≠ 0 → (system platform nodeName).Rounds (fun w => w = site) (fun _ a => System.undisturbed .ok a) n ⟨w, none⟩ →
        w = settled := by
  have hsettles : (system platform nodeName).tick .ok ((system platform nodeName).tick .ok site) =
      (system platform nodeName).tick .ok site := by
    rw [tick_eq hrunning, tick_eq (running_settled.trans hrunning), settled_settled]
  have hrounds : ∀ n w, n ≠ 0 →
      (system platform nodeName).Rounds (fun w => w = site) (fun _ a => System.undisturbed .ok a) n ⟨w, none⟩ →
        w = site.settled platform := by
    intro n w hn h
    have htick : (system platform nodeName).tick .ok site = site.settled platform := tick_eq hrunning
    rw [← htick]
    exact System.Rounds.settles hsettles hn h
  refine ⟨site.settled platform, meets_settled, ?_, hrounds⟩
  have hstart : (system platform nodeName).Rounds (fun w => w = site) (fun _ a => System.undisturbed .ok a) 0
      ⟨site, some ⟨(), reconcileOnce platform nodeName, []⟩⟩ := by
    have hstep : (system platform nodeName).step .start ⟨site, none⟩ =
        some ⟨site, some ⟨(), reconcileOnce platform nodeName, []⟩⟩ := by
      have hsnap : (system platform nodeName).snapshot site = some () := if_pos hrunning
      rw [System.step, hsnap]
      rfl
    have hbegin : (system platform nodeName).Rounds (fun w => w = site) (fun _ a => System.undisturbed .ok a) 0
        ⟨site, none⟩ := .init rfl
    have hok : System.undisturbed Fate.ok (Act.start : Act Interference Fate) := trivial
    exact .step hbegin hok hstep
  have hfinish : System.undisturbed Fate.ok (Act.finish : Act Interference Fate) := trivial
  obtain ⟨w, -, hw⟩ := System.Rounds.return (P := fun _ => True) (system platform nodeName) (fun _ _ _ _ _ _ => rfl)
    (fun _ _ _ => trivial) (fun _ => hfinish) (reconcileOnce platform nodeName) [] site trivial hstart
  rwa [hrounds 1 w Nat.one_ne_zero hw] at hw

end

/-- A drop-in that nobody asks for any more. -/
def leftoverSite : Site := { sampleSite with running := true, dest := some "[kata]\n".toUTF8 }

theorem leftover_settles : ∃ settled, Meets samplePlatform leftoverSite settled (demand samplePlatform leftoverSite) ∧
    (system samplePlatform "worker-1").Rounds (fun w => w = leftoverSite) (fun _ a => System.undisturbed .ok a) 1
      ⟨settled, none⟩ ∧
    ∀ n w, n ≠ 0 → (system samplePlatform "worker-1").Rounds (fun w => w = leftoverSite)
      (fun _ a => System.undisturbed .ok a) n ⟨w, none⟩ → w = settled :=
  kata_settles samplePlatform "worker-1" leftoverSite rfl

end FiveSpot.KataAgent
