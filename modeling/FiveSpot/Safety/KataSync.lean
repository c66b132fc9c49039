import FiveSpot.Interaction.Crash
import FiveSpot.Agents.KataNotes

/-! # The sync of the drop-in on the disk (`sync_content`, `atomic_write`, `remove_if_present`)

The directory of the drop-in as a process finds it: other files, leftovers of earlier runs and perhaps nothing at
all. Every operation on it may fail, may take effect and still report an error, and a write may get only some of its
bytes out; the process may be killed after any of them.
-/

namespace FiveSpot.KataAgent

set_option autoImplicit false

open Interaction

/-! ## The directory -/

structure HostFile where
  bytes : ByteArray
  mode : Nat
  deriving DecidableEq

/-- `none` when the directory is not there. -/
abbrev HostDir : Type := Option (String → Option HostFile)

def HostDir.file (dir : HostDir) (name : String) : Option HostFile := dir.bind fun files => files name

def HostDir.content (dir : HostDir) (name : String) : Option ByteArray := (dir.file name).map HostFile.bytes

def HostDir.set (dir : HostDir) (name : String) (file : Option HostFile) : HostDir :=
  dir.map fun files => Function.update files name file

def destFileMode : Nat := 0o644

def tempSuffix : String := "5spot-tmp"

def tempPathFor (fileName : Option String) (pid : Nat) : String :=
  fileName.getD "kata-config" ++ "." ++ tempSuffix ++ "." ++ toString pid

/-- What the process works with: the name it writes to, its own id and the mode new files get. -/
structure Process where
  dest : String
  pid : Nat
  newMode : Nat

def Process.temp (process : Process) : String := tempPathFor (some process.dest) process.pid

def notFound : String := "No such file or directory"

/-- `fs::write` of these bytes: an existing file is truncated and keeps its mode. -/
def HostDir.write (dir : HostDir) (name : String) (newMode : Nat) (bytes : ByteArray) : HostDir :=
  dir.set name (some ⟨bytes, ((dir.file name).map HostFile.mode).getD newMode⟩)

inductive DiskFate where
  | ok
  | fail (error : String)
  /-- It took effect, but an error is reported. -/
  | lost (error : String)
  /-- As many bytes of a write got out. -/
  | short (count : Nat) (error : String)

def performOnDisk (process : Process) (dir : HostDir) : (call : Call) → Except String (call.Answer × HostDir)
  | .readDest => .ok (dir.content process.dest, dir)
  | .createParent => .ok ((), some (dir.getD fun _ => none))
  | .removeTemp => match dir.file process.temp with
    | some _ => .ok ((), dir.set process.temp none)
    | none => .error notFound
  | .writeTemp bytes => match dir with
    | some _ => .ok ((), dir.write process.temp process.newMode bytes)
    | none => .error notFound
  | .chmodTemp => match dir.file process.temp with
    | some file => .ok ((), dir.set process.temp (some { file with mode := destFileMode }))
    | none => .error notFound
  | .renameTemp => match dir.file process.temp with
    | some file => .ok ((), (dir.set process.temp none).set process.dest (some file))
    | none => .error notFound
  | .removeDest => .ok ((dir.file process.dest).isSome, dir.set process.dest none)
  | .getNode => .error "not a file operation"
  | .patchNode _ => .error "not a file operation"
  | .getConfigMap _ _ => .error "not a file operation"
  | .getSecret _ _ => .error "not a file operation"
  | .resolveDest => .error "not a file operation"
  | .restart _ _ => .error "not a file operation"

def serveOnDisk (process : Process) (dir : HostDir) (call : Call) : DiskFate → Resp call × HostDir
  | .ok => match performOnDisk process dir call with
    | .ok (answer, after) => (.ok answer, after)
    | .error e => (.error e, dir)
  | .fail e => (.error e, dir)
  | .lost e => match performOnDisk process dir call with
    | .ok (_, after) => (.error e, after)
    | .error _ => (.error e, dir)
  | .short count e => match call with
    | .writeTemp bytes => (.error e, dir.write process.temp process.newMode (bytes.extract 0 count))
    | _ => (.error e, dir)

def SyncOutcome.hash : SyncOutcome → Option String
  | .wrote hash => some hash
  | .deleted => none
  | .unchanged hash => hash

/-- Operations that do not touch the destination. -/
def Call.preparatory : Call → Bool
  | .renameTemp | .removeDest => false
  | _ => true

/-- Apart from the temporary file everything is as before. -/
def Untouched (process : Process) (before dir : HostDir) : Prop :=
  ∀ name, name ≠ process.temp → dir.file name = before.file name

/-- Apart from the temporary file everything is as before, or it is the destination with the content complete. -/
def Intact (process : Process) (before : HostDir) (content : Option ByteArray) (dir : HostDir) : Prop :=
  ∀ name, name ≠ process.temp → dir.file name = before.file name ∨ name = process.dest ∧ dir.content name = content

/-! ## Names -/

variable {platform : Platform} {process : Process} {dir : HostDir}

theorem Process.temp_ne_dest (process : Process) : process.temp ≠ process.dest := by
  intro h
  have hlength := congrArg String.length h
  simp only [Process.temp, tempPathFor, Option.getD_some, String.length_append] at hlength
  have hdot : ".".length = 1 := by decide
  omega

/-- The name of the temporary file ends with a digit. -/
theorem Process.temp_not_toml (process : Process) : Text.endsWith process.temp ".toml" = false := by
  rw [Bool.eq_false_iff, Ne, Text.endsWith_iff]
  intro hsuffix
  have htoml : ".toml".toList = ".tom".toList ++ ['l'] := by decide
  have hlast : 'l' ∈ (toString process.pid).toList.getLast? := by
    have hdigits : (toString process.pid).toList ≠ [] := by
      rw [Nat.toString_eq_repr, Nat.toList_repr]
      exact Nat.toDigits_ne_nil
    rw [Process.temp, tempPathFor, String.toList_append, htoml] at hsuffix
    obtain ⟨front, hfront⟩ := hsuffix
    have hgetLast := congrArg List.getLast? hfront
    rw [← List.append_assoc, List.getLast?_concat, List.getLast?_append_of_ne_nil _ hdigits] at hgetLast
    exact hgetLast.symm
  have hmem := List.mem_of_getLast? hlast
  rw [Nat.toString_eq_repr, Nat.toList_repr] at hmem
  exact absurd (Nat.isDigit_of_mem_toDigits (by decide) (by decide) hmem) (by decide)

/-! ## Operations -/

theorem HostDir.file_set_of_ne {name other : String} (h : other ≠ name) (file : Option HostFile) :
    (dir.set name file).file other = dir.file other := by
  cases dir with
  | none => rfl
  | some files => exact Function.update_of_ne h file files

theorem HostDir.file_set_self {name : String} {old : HostFile} (h : dir.file name = some old) (file : Option HostFile) :
    (dir.set name file).file name = file := by
  cases dir with
  | none => cases h
  | some files => exact Function.update_self name file files

theorem HostDir.file_createParent (dir : HostDir) (name : String) :
    HostDir.file (some (dir.getD fun _ => none)) name = dir.file name := by
  cases dir <;> rfl

theorem serve_untouched {call : Call} (hcall : call.preparatory = true) (fate : DiskFate) :
    Untouched process dir (serveOnDisk process dir call fate).2 := by
  intro name hname
  have hperform : ∀ answer after, performOnDisk process dir call = .ok (answer, after) →
      after.file name = dir.file name := by
    intro answer after h
    cases call with
    | readDest =>
      cases h
      rfl
    | createParent =>
      cases h
      exact dir.file_createParent name
    | removeTemp =>
      simp only [performOnDisk] at h
      split at h
      · cases h
        exact HostDir.file_set_of_ne hname none
      · cases h
    | writeTemp bytes =>
      simp only [performOnDisk] at h
      split at h
      · cases h
        exact HostDir.file_set_of_ne hname _
      · cases h
    | chmodTemp =>
      simp only [performOnDisk] at h
      split at h
      · cases h
        exact HostDir.file_set_of_ne hname _
      · cases h
    | renameTemp | removeDest => cases hcall
    | getNode | patchNode | getConfigMap | getSecret | resolveDest | restart => cases h
  cases fate with
  | ok =>
    simp only [serveOnDisk]
    split
    · rename_i h
      exact hperform _ _ h
    · rfl
  | fail e => rfl
  | lost e =>
    simp only [serveOnDisk]
    split
    · rename_i h
      exact hperform _ _ h
    · rfl
  | short count e =>
    simp only [serveOnDisk]
    split
    · exact HostDir.file_set_of_ne hname _
    · rfl

theorem serve_ok {call : Call} {fate : DiskFate} {answer : call.Answer}
    (h : (serveOnDisk process dir call fate).1 = .ok answer) :
    performOnDisk process dir call = .ok (answer, (serveOnDisk process dir call fate).2) := by
  cases fate with
  | ok =>
    simp only [serveOnDisk] at h ⊢
    split at h
    · rename_i hperform
      cases h
      rw [hperform]
    · cases h
  | fail e => cases h
  | lost e =>
    simp only [serveOnDisk] at h
    split at h <;> cases h
  | short count e =>
    simp only [serveOnDisk] at h
    split at h <;> cases h

theorem content_of_write {bytes : ByteArray} {fate : DiskFate}
    (h : (serveOnDisk process dir (.writeTemp bytes) fate).1 = .ok ()) :
    (serveOnDisk process dir (.writeTemp bytes) fate).2.content process.temp = some bytes := by
  have hperform := serve_ok h
  generalize (serveOnDisk process dir (.writeTemp bytes) fate).2 = after at hperform
  cases dir with
  | none => cases hperform
  | some files =>
    cases hperform
    exact congrArg (Option.map HostFile.bytes) (Function.update_self process.temp _ files)

theorem file_of_chmod {bytes : ByteArray} {fate : DiskFate} (hcontent : dir.content process.temp = some bytes)
    (h : (serveOnDisk process dir .chmodTemp fate).1 = .ok ()) :
    (serveOnDisk process dir .chmodTemp fate).2.file process.temp = some ⟨bytes, destFileMode⟩ := by
  have hperform := serve_ok h
  generalize (serveOnDisk process dir .chmodTemp fate).2 = after at hperform
  obtain ⟨file, hfile, rfl⟩ := Option.map_eq_some_iff.mp hcontent
  simp only [performOnDisk, hfile] at hperform
  cases hperform
  exact HostDir.file_set_self hfile _

/-- The temporary file in the place of the destination. -/
def HostDir.moved (process : Process) (dir : HostDir) (file : HostFile) : HostDir :=
  (dir.set process.temp none).set process.dest (some file)

theorem HostDir.moved_dest {file : HostFile} (hfile : dir.file process.temp = some file) :
    (dir.moved process file).file process.dest = some file := by
  cases dir with
  | none => cases hfile
  | some files => exact Function.update_self process.dest _ _

theorem HostDir.moved_untouched {file : HostFile} {name : String} (htemp : name ≠ process.temp)
    (hdest : name ≠ process.dest) : (dir.moved process file).file name = dir.file name := by
  rw [HostDir.moved, HostDir.file_set_of_ne hdest, HostDir.file_set_of_ne htemp]

theorem serve_rename {file : HostFile} (hfile : dir.file process.temp = some file) (fate : DiskFate) :
    serveOnDisk process dir .renameTemp fate = (.ok (), dir.moved process file) ∨
      ∃ e, serveOnDisk process dir .renameTemp fate = (.error e, dir) ∨
        serveOnDisk process dir .renameTemp fate = (.error e, dir.moved process file) := by
  have hperform : performOnDisk process dir .renameTemp = .ok ((), dir.moved process file) := by
    simp only [performOnDisk, hfile]
    rfl
  cases fate with
  | ok =>
    left
    simp only [serveOnDisk, hperform]
  | fail e => exact .inr ⟨e, .inl rfl⟩
  | lost e =>
    refine .inr ⟨e, .inr ?_⟩
    simp only [serveOnDisk, hperform]
  | short count e => exact .inr ⟨e, .inl rfl⟩

/-! ## The sequence of operations -/

theorem survives_ask {J : HostDir → Prop} {call : Call} {Q : Except String call.Answer → HostDir → Prop} :
    Survives (serveOnDisk process) J (ask call) Q dir ↔ J dir ∧ ∀ fate,
      J (serveOnDisk process dir call fate).2 ∧
        Q (serveOnDisk process dir call fate).1 (serveOnDisk process dir call fate).2 := by
  rw [ask, survives_call]
  exact and_congr_right fun _ => forall_congr' fun fate => survives_ofExcept

variable {before : HostDir} {content : Option ByteArray}

theorem Untouched.intact (h : Untouched process before dir) : Intact process before content dir :=
  fun name hname => .inl (h name hname)

theorem Untouched.step (h : Untouched process before dir) (call : Call)
    (hcall : call.preparatory = true) (fate : DiskFate) : Untouched process before (serveOnDisk process dir call fate).2 :=
  fun name hname => (serve_untouched hcall fate name hname).trans (h name hname)

theorem Untouched.moved {file : HostFile} (h : Untouched process before dir)
    (hfile : dir.file process.temp = some file) : Intact process before (some file.bytes) (dir.moved process file) := by
  intro name htemp
  by_cases hdest : name = process.dest
  · refine .inr ⟨hdest, ?_⟩
    rw [hdest, HostDir.content, HostDir.moved_dest hfile]
    rfl
  · exact .inl ((HostDir.moved_untouched htemp hdest).trans (h name htemp))

theorem Intact.removeTemp (h : Intact process before content dir) (fate : DiskFate) :
    Intact process before content (serveOnDisk process dir .removeTemp fate).2 := by
  intro name hname
  have hsame : (serveOnDisk process dir .removeTemp fate).2.file name = dir.file name := serve_untouched rfl fate name hname
  rw [HostDir.content, hsame]
  exact h name hname

/-- The rename and, when it fails, the removal of the temporary file. -/
theorem rename_survives {file : HostFile} (h : Untouched process before dir)
    (hfile : dir.file process.temp = some file) :
    Survives (serveOnDisk process) (Intact process before (some file.bytes))
      (Prog.call .renameTemp fun
        | .ok _ => .pure ()
        | .error e => Prog.call .removeTemp fun _ => .fail e : Tick Unit)
      (fun x after => x = .ok () → after.file process.dest = some file) dir := by
  refine ⟨h.intact, fun fate => ?_⟩
  rcases serve_rename hfile fate with heq | ⟨e, heq | heq⟩
  · rw [heq]
    exact ⟨h.moved hfile, fun _ => HostDir.moved_dest hfile⟩
  · rw [heq]
    exact ⟨h.intact, fun fate => ⟨h.intact.removeTemp fate, by rintro ⟨⟩⟩⟩
  · rw [heq]
    exact ⟨h.moved hfile, fun fate => ⟨(h.moved hfile).removeTemp fate, by rintro ⟨⟩⟩⟩

theorem atomicWrite_survives (bytes : ByteArray) (h : Untouched process before dir) :
    Survives (serveOnDisk process) (Intact process before (some bytes)) (atomicWrite bytes)
      (fun x after => x = .ok () → after.file process.dest = some ⟨bytes, destFileMode⟩) dir := by
  unfold atomicWrite
  have hparent : Survives (serveOnDisk process) (Intact process before (some bytes)) (ask .createParent)
      (fun _ after => Untouched process before after) dir :=
    survives_ask.mpr ⟨h.intact, fun fate => ⟨(h.step .createParent rfl fate).intact, h.step .createParent rfl fate⟩⟩
  refine hparent.bind (fun _ made hmade => ?_) (fun _ _ _ => by rintro ⟨⟩)
  refine ⟨hmade.intact, fun fate => ?_⟩
  have hclean := hmade.step .removeTemp rfl fate
  generalize (serveOnDisk process made .removeTemp fate).2 = clean at hclean
  have hwrite : Survives (serveOnDisk process) (Intact process before (some bytes)) (ask (.writeTemp bytes))
      (fun x after => Untouched process before after ∧ (x = .ok () → after.content process.temp = some bytes)) clean := by
    refine survives_ask.mpr ⟨hclean.intact, fun fate => ?_⟩
    have hstep := hclean.step (.writeTemp bytes) rfl fate
    exact ⟨hstep.intact, hstep, content_of_write⟩
  refine hwrite.bind (fun _ written hwritten => ?_) (fun _ _ _ => by rintro ⟨⟩)
  have hchmod : Survives (serveOnDisk process) (Intact process before (some bytes)) (ask .chmodTemp)
      (fun x after => Untouched process before after ∧
        (x = .ok () → after.file process.temp = some ⟨bytes, destFileMode⟩)) written := by
    refine survives_ask.mpr ⟨hwritten.1.intact, fun fate => ?_⟩
    have hstep := hwritten.1.step .chmodTemp rfl fate
    exact ⟨hstep.intact, hstep, file_of_chmod (hwritten.2 rfl)⟩
  refine hchmod.bind (fun _ ready hready => ?_) (fun _ _ _ => by rintro ⟨⟩)
  exact rename_survives hready.1 (hready.2 rfl)

/-- What a sync that returns leaves. -/
structure InSync (platform : Platform) (process : Process) (content : Option ByteArray) (outcome : SyncOutcome)
    (after : HostDir) : Prop where
  content : after.content process.dest = content
  hash : outcome.hash = (after.content process.dest).map (sha256Hex platform)

theorem serve_removeDest (fate : DiskFate) :
    Intact process dir none (serveOnDisk process dir .removeDest fate).2 ∧
      ∀ removed, (serveOnDisk process dir .removeDest fate).1 = .ok removed →
        (serveOnDisk process dir .removeDest fate).2.content process.dest = none := by
  have hdest : (dir.set process.dest none).content process.dest = none := by
    cases dir with
    | none => rfl
    | some files => exact congrArg (Option.map HostFile.bytes) (Function.update_self process.dest none files)
  have hgone : Intact process dir none (dir.set process.dest none) := by
    intro name htemp
    by_cases hname : name = process.dest
    · exact .inr ⟨hname, hname ▸ hdest⟩
    · exact .inl (HostDir.file_set_of_ne hname none)
  have hhere : Intact process dir none dir := fun name _ => .inl rfl
  cases fate with
  | ok => exact ⟨hgone, fun _ _ => hdest⟩
  | fail e => exact ⟨hhere, by rintro _ ⟨⟩⟩
  | lost e => exact ⟨hgone, by rintro _ ⟨⟩⟩
  | short count e => exact ⟨hhere, by rintro _ ⟨⟩⟩

theorem serve_readDest (process : Process) (dir : HostDir) (fate : DiskFate) :
    serveOnDisk process dir .readDest fate = (.ok (dir.content process.dest), dir) ∨
      ∃ e, serveOnDisk process dir .readDest fate = (.error e, dir) := by
  cases fate with
  | ok => exact .inl rfl
  | fail e => exact .inr ⟨e, rfl⟩
  | lost e => exact .inr ⟨e, rfl⟩
  | short count e => exact .inr ⟨e, rfl⟩

/-- What is left of a sync once the destination is read. -/
def syncFrom (platform : Platform) (content dest : Option ByteArray) : Tick SyncOutcome :=
  match decideAction platform content (dest.map (sha256Hex platform)), content with
  | .write, some bytes => do
    atomicWrite bytes
    return .wrote (sha256Hex platform bytes)
  | .write, none => .fail "Write action implies the content is present"
  | .delete, _ => do
    let _ ← ask .removeDest
    return .deleted
  | .noOp, _ => return .unchanged (dest.map (sha256Hex platform))

theorem syncContent_eq : syncContent platform content = (ask .readDest).bind (syncFrom platform content) := rfl

theorem syncFrom_survives
    (hinj : ∀ old new, dir.content process.dest = some old → content = some new →
      platform.digest old = platform.digest new → old = new) :
    Survives (serveOnDisk process) (Intact process dir content) (syncFrom platform content (dir.content process.dest))
      (fun x after => ∀ outcome, x = .ok outcome → InSync platform process content outcome after) dir := by
  have hhere : Untouched process dir dir := fun name _ => rfl
  generalize hdest : dir.content process.dest = dest at hinj ⊢
  cases content with
  | none =>
    cases dest with
    | none =>
      refine ⟨hhere.intact, fun outcome h => ?_⟩
      cases h
      exact ⟨hdest, hdest ▸ rfl⟩
    | some old =>
      have hremove : Survives (serveOnDisk process) (Intact process dir none) (ask .removeDest)
          (fun x after => ∀ removed, x = .ok removed → after.content process.dest = none) dir :=
        survives_ask.mpr ⟨hhere.intact, serve_removeDest⟩
      refine Survives.bind (hremove.mono fun x after hafter hx => And.intro hafter hx) ?_ (fun _ _ _ _ h => by cases h)
      intro removed after hafter
      refine ⟨hafter.1, fun outcome h => ?_⟩
      cases h
      have hgone := hafter.2 removed rfl
      exact ⟨hgone, hgone ▸ rfl⟩
  | some bytes =>
    unfold syncFrom
    by_cases hsame : dest.map (sha256Hex platform) = some (sha256Hex platform bytes)
    · simp only [decideAction, if_pos hsame]
      refine ⟨hhere.intact, fun outcome h => ?_⟩
      cases h
      obtain ⟨old, rfl, hhash⟩ := Option.map_eq_some_iff.mp hsame
      have heq : old = bytes := hinj old bytes rfl rfl (hexText_injective hhash)
      exact ⟨heq ▸ hdest, hdest ▸ rfl⟩
    · simp only [decideAction, if_neg hsame]
      have hwrite := (atomicWrite_survives bytes hhere).mono fun x after hafter hx => And.intro hafter hx
      refine Survives.bind hwrite ?_ (fun _ _ _ _ h => by cases h)
      intro _ after hafter
      refine ⟨hafter.1, fun outcome h => ?_⟩
      cases h
      have hcontent : after.content process.dest = some bytes := by rw [HostDir.content, hafter.2 rfl]; rfl
      exact ⟨hcontent, hcontent ▸ rfl⟩

theorem syncContent_survives
    (hinj : ∀ old new, dir.content process.dest = some old → content = some new →
      platform.digest old = platform.digest new → old = new) :
    Survives (serveOnDisk process) (Intact process dir content) (syncContent platform content)
      (fun x after => ∀ outcome, x = .ok outcome → InSync platform process content outcome after) dir := by
  have hhere : Intact process dir content dir := fun name _ => .inl rfl
  have hread : Survives (serveOnDisk process) (Intact process dir content) (ask .readDest)
      (fun x after => ∀ dest, x = .ok dest → dest = dir.content process.dest ∧ after = dir) dir := by
    refine survives_ask.mpr ⟨hhere, fun fate => ?_⟩
    rcases serve_readDest process dir fate with heq | ⟨e, heq⟩
    · rw [heq]
      refine ⟨hhere, fun dest h => ?_⟩
      cases h
      exact ⟨rfl, rfl⟩
    · rw [heq]
      exact ⟨hhere, by rintro _ ⟨⟩⟩
  rw [syncContent_eq]
  refine hread.bind (fun dest after hafter => ?_) (fun _ _ _ _ h => by cases h)
  obtain ⟨rfl, rfl⟩ := hafter dest rfl
  exact syncFrom_survives hinj

/-! ## Calls after the first -/

/-- When the destination has the content, there is nothing to do. -/
theorem syncFrom_same (content : Option ByteArray) :
    syncFrom platform content content = .pure (.unchanged (content.map (sha256Hex platform))) := by
  cases content with
  | none => rfl
  | some bytes =>
    have hnoOp : decideAction platform (some bytes) (Option.map (sha256Hex platform) (some bytes)) = .noOp :=
      if_pos rfl
    unfold syncFrom
    rw [hnoOp]
    rfl

theorem syncContent_again (hsame : dir.content process.dest = content) :
    Runs (serveOnDisk process) (alone HostDir) dir (syncContent platform content)
        (.ok (.unchanged (content.map (sha256Hex platform)))) dir ∧
      ∀ x after, Runs (serveOnDisk process) (alone HostDir) dir (syncContent platform content) x after →
        after = dir ∧ (x = .ok (.unchanged (content.map (sha256Hex platform))) ∨ ∃ e, x = .error e) := by
  have hsurvives : Survives (serveOnDisk process) (· = dir) (syncContent platform content)
      (fun x after => after = dir ∧ (x = .ok (.unchanged (content.map (sha256Hex platform))) ∨ ∃ e, x = .error e)) dir := by
    rw [syncContent_eq]
    refine ⟨rfl, fun fate => ?_⟩
    rcases serve_readDest process dir fate with heq | ⟨e, heq⟩
    · rw [heq, hsame]
      simp only [Prog.ofExcept, Prog.pure_bind, syncFrom_same]
      exact ⟨rfl, rfl, .inl rfl⟩
    · rw [heq]
      exact ⟨rfl, rfl, .inr ⟨e, rfl⟩⟩
  refine ⟨?_, fun x after hrun => hsurvives.runs hrun⟩
  rw [syncContent_eq]
  refine .call .ok ?_
  change Runs _ _ dir (syncFrom platform content (dir.content process.dest)) _ dir
  rw [hsame, syncFrom_same]
  exact .pure

theorem exec_ask (call : Call) {answer : call.Answer} {after : HostDir}
    (h : performOnDisk process dir call = .ok (answer, after)) :
    (ask call).exec (serveOnDisk process) .ok dir = (.ok answer, after) := by
  have hserve : serveOnDisk process dir call .ok = (.ok answer, after) := by simp only [serveOnDisk, h]
  rw [ask, Prog.exec, hserve]
  rfl

theorem atomicWrite_exec (process : Process) (dir : HostDir) (bytes : ByteArray) :
    ∃ after, (atomicWrite bytes).exec (serveOnDisk process) .ok dir = (.ok (), after) := by
  obtain ⟨files, hclean⟩ : ∃ files,
      (serveOnDisk process (some (dir.getD fun _ => none)) .removeTemp .ok).2 = some files := by
    simp only [serveOnDisk, performOnDisk]
    cases HostDir.file (some (dir.getD fun _ => none)) process.temp with
    | none => exact ⟨_, rfl⟩
    | some file => exact ⟨_, rfl⟩
  generalize hwritten : HostDir.write (some files) process.temp process.newMode bytes = written
  obtain ⟨file, hfile⟩ : ∃ file, written.file process.temp = some file := by
    rw [← hwritten]
    exact ⟨_, Function.update_self process.temp _ files⟩
  generalize hready : written.set process.temp (some { file with mode := destFileMode }) = ready
  have htemp : ready.file process.temp = some { file with mode := destFileMode } := hready ▸ HostDir.file_set_self hfile _
  refine ⟨ready.moved process { file with mode := destFileMode }, ?_⟩
  have hwrite : performOnDisk process (some files) (.writeTemp bytes) = .ok ((), written) := by rw [← hwritten]; rfl
  have hchmod : performOnDisk process written .chmodTemp = .ok ((), ready) := by
    simp only [performOnDisk, hfile, hready]
  have hrename : serveOnDisk process ready .renameTemp .ok =
      (.ok (), ready.moved process { file with mode := destFileMode }) := by
    simp only [serveOnDisk, performOnDisk, htemp]
    rfl
  unfold atomicWrite
  rw [Prog.bind_def, Prog.exec_bind_ok (exec_ask .createParent rfl), Prog.exec, hclean, Prog.bind_def,
    Prog.exec_bind_ok (exec_ask _ hwrite), Prog.bind_def, Prog.exec_bind_ok (exec_ask _ hchmod), Prog.exec, hrename]
  rfl

/-- With every operation successful a sync returns, whatever earlier calls have left behind. -/
theorem syncContent_returns (platform : Platform) (process : Process) (content : Option ByteArray) (dir : HostDir) :
    ∃ outcome after, Runs (serveOnDisk process) (alone HostDir) dir (syncContent platform content) (.ok outcome) after := by
  have hreturns : ∃ outcome after, (syncContent platform content).exec (serveOnDisk process) .ok dir = (.ok outcome, after) := by
    rw [syncContent_eq]
    change ∃ outcome after, (syncFrom platform content (dir.content process.dest)).exec (serveOnDisk process) .ok dir =
      (.ok outcome, after)
    generalize dir.content process.dest = dest
    cases content with
    | none =>
      cases dest with
      | none => exact ⟨_, _, rfl⟩
      | some old => exact ⟨_, _, rfl⟩
    | some bytes =>
      unfold syncFrom
      by_cases hsame : dest.map (sha256Hex platform) = some (sha256Hex platform bytes)
      · simp only [decideAction, if_pos hsame]
        exact ⟨_, _, rfl⟩
      · simp only [decideAction, if_neg hsame]
        obtain ⟨after, hexec⟩ := atomicWrite_exec process dir bytes
        exact ⟨_, after, Prog.exec_bind_ok hexec⟩
  obtain ⟨outcome, after, hexec⟩ := hreturns
  have hrun := Runs.of_exec (serveOnDisk process) (alone HostDir) .ok (syncContent platform content) dir
  rw [hexec] at hrun
  exact ⟨outcome, after, hrun⟩

/-! ## The sync -/

theorem sync_content_crash_atomic (platform : Platform) (process : Process) (content : Option ByteArray) (dir : HostDir)
    (hinj : ∀ old new, dir.content process.dest = some old → content = some new →
      platform.digest old = platform.digest new → old = new) :
    (∀ cut rest, Proceeds (serveOnDisk process) (alone HostDir) dir (syncContent platform content) cut rest →
      (cut.file process.dest = dir.file process.dest ∨ cut.content process.dest = content) ∧
        ∀ name, Text.endsWith name ".toml" = true →
          cut.file name = dir.file name ∨ name = process.dest ∧ cut.content name = content) ∧
      ∀ outcome after, Runs (serveOnDisk process) (alone HostDir) dir (syncContent platform content) (.ok outcome) after →
        after.content process.dest = content ∧
          outcome.hash = (after.content process.dest).map (sha256Hex platform) ∧
          ∀ again : Process, again.dest = process.dest →
            Runs (serveOnDisk again) (alone HostDir) after (syncContent platform content) (.ok (.unchanged outcome.hash)) after ∧
              ∀ x later, Runs (serveOnDisk again) (alone HostDir) after (syncContent platform content) x later →
                later = after ∧ (x = .ok (.unchanged outcome.hash) ∨ ∃ e, x = .error e) := by
  have hsurvives := syncContent_survives hinj
  constructor
  · intro cut rest hcut
    have hintact := hsurvives.proceeds hcut
    constructor
    · exact (hintact process.dest process.temp_ne_dest.symm).imp_right And.right
    · intro name hname
      refine hintact name ?_
      rintro rfl
      rw [process.temp_not_toml] at hname
      cases hname
  · intro outcome after hrun
    have hsync := hsurvives.runs hrun outcome rfl
    refine ⟨hsync.content, hsync.hash, fun again hagain => ?_⟩
    rw [hsync.hash, hsync.content]
    exact syncContent_again (hagain ▸ hsync.content)

/-- The content of a host whose drop-in is replaced, with a digest that keeps every byte. -/
theorem sync_content_crash_atomic_replaced :
    let platform : Platform := ⟨fun bytes => bytes.data.toList, fun _ => "", fun _ => .error "not used"⟩
    let process : Process := ⟨"kata.toml", 7, 0o600⟩
    let dir : HostDir := some fun name => if name = "kata.toml" then some ⟨"old".toUTF8, 0o644⟩ else none
    ∀ cut rest, Proceeds (serveOnDisk process) (alone HostDir) dir (syncContent platform (some "new".toUTF8)) cut rest →
      cut.content "kata.toml" = some "old".toUTF8 ∨ cut.content "kata.toml" = some "new".toUTF8 := by
  intro platform process dir cut rest hcut
  have hatomic := sync_content_crash_atomic platform process (some "new".toUTF8) dir
    (fun old new _ _ h => ByteArray.ext (Array.toList_inj.mp h))
  refine (hatomic.1 cut rest hcut).1.imp_left fun hfile => ?_
  rw [HostDir.content, hfile]
  rfl

end FiveSpot.KataAgent
