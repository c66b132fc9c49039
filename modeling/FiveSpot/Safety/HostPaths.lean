import FiveSpot.Model.FileTree
import FiveSpot.Model.Lines

/-! # The confinement of the drop-in (`confine_dest_path`)

The destination is checked as a text and then on the disk: its directory is made, and where that leads to must lie in
the directory of the service. On the way to it the links are followed, and made is made.
-/

namespace FiveSpot.KataAgent

set_option autoImplicit false

open FileTree

/-! ## Paths as texts -/

def kataConfigDestBase : String := "/etc/k0s/"

def destFileSuffix : String := ".toml"

def trimStartSlashes (s : String) : String := String.ofList (s.toList.dropWhile (· == '/'))

/-- The components of a path; empty parts and `.` are none. -/
def components (s : String) : List (Seg String) :=
  (Text.split '/' s).filterMap fun part =>
    if part = "" ∨ part = "." then none else if part = ".." then some .up else some (.name part)

/-- `Path::join` of a path that does not begin with a slash. -/
def join (root : PathName String) (relative : String) : PathName String :=
  ⟨root.absolute, root.segs ++ components relative⟩

def parentOf (path : PathName String) : Option (PathName String) :=
  if path.segs = [] then none else some ⟨path.absolute, path.segs.dropLast⟩

def fileNameOf (path : PathName String) : Option String :=
  match path.segs.getLast? with
  | some (.name n) => some n
  | _ => none

/-! ## The check -/

inductive IoError where
  | permissionDenied (text : String)
  | os (errno : Errno)
  deriving DecidableEq

def deny (destPath why : String) : IoError :=
  .permissionDenied ("refusing destPath " ++ Text.quoted destPath ++ ": " ++ why ++ " (ADR 0005 confines kata writes to " ++
    kataConfigDestBase ++ "*.toml)")

def nonCanonical (destPath : String) : Bool :=
  ((Text.split '/' destPath).drop 1).any fun part => part == "" || part == "." || part == ".."

/-- The physical pass. -/
def confineOnDisk (kernel : Kernel String) (cwd : List String) (t : DirTree String) (destPath : String)
    (parent base : PathName String) (fileName : String) : Except IoError (PathName String) × DirTree String :=
  match t.createDirAll kernel cwd parent with
  | (.error e, t₁) => (.error (.os e), t₁)
  | (.ok _, t₁) => match t₁.createDirAll kernel cwd base with
    | (.error e, t₂) => (.error (.os e), t₂)
    | (.ok _, t₂) => match t₂.canonicalize kernel cwd parent, t₂.canonicalize kernel cwd base with
      | .error e, _ => (.error (.os e), t₂)
      | .ok _, .error e => (.error (.os e), t₂)
      | .ok canonParent, .ok canonBase =>
        if canonBase.isSuffixOf canonParent then (.ok (PathName.ofPlace (fileName :: canonParent)), t₂)
        else (.error (deny destPath "resolves outside the allowed base (symlink?)"), t₂)

def confineDestPath (kernel : Kernel String) (cwd : List String) (t : DirTree String) (hostRoot : PathName String)
    (destPath : String) : Except IoError (PathName String) × DirTree String :=
  if !Text.startsWith destPath kataConfigDestBase then (.error (deny destPath "outside the allowed base"), t)
  else if !Text.endsWith destPath destFileSuffix then (.error (deny destPath "not a .toml drop-in"), t)
  else if nonCanonical destPath then (.error (deny destPath "non-canonical path segment"), t)
  else
    let full := join hostRoot (trimStartSlashes destPath)
    match parentOf full, fileNameOf full with
    | none, _ => (.error (deny destPath "no parent directory"), t)
    | some _, none => (.error (deny destPath "no file name"), t)
    | some parent, some fileName =>
      confineOnDisk kernel cwd t destPath parent (join hostRoot (trimStartSlashes kataConfigDestBase)) fileName

/-! ## What it promises -/

/-- `<host_root>/etc/k0s`. -/
def destBase (hostRoot : PathName String) : PathName String := join hostRoot (trimStartSlashes kataConfigDestBase)

def lastSegment (destPath : String) : String := (Text.split '/' destPath).getLastD ""

/-- The path leads to this place, all links followed. -/
def LeadsTo (t : DirTree String) (cwd : List String) (path : PathName String) (place : List String) : Prop :=
  ∃ links, t.resolve linkLimit (path.start cwd) path.segs = .ok (links, place)

/-- The returned path, in the tree as it is then. -/
structure Confined (t : DirTree String) (cwd : List String) (hostRoot : PathName String) (destPath : String)
    (p : PathName String) : Prop where
  inside : ∃ parent resolved base, parentOf p = some parent ∧ LeadsTo t cwd parent resolved ∧
    LeadsTo t cwd (destBase hostRoot) base ∧ base <:+ resolved
  fileName : fileNameOf p = some (lastSegment destPath)
  suffix : Text.endsWith (lastSegment destPath) ".toml" = true

/-- Nothing outside the resolved base differs. -/
def ChangedInside (before after : DirTree String) (cwd : List String) (base : PathName String) : Prop :=
  ∀ place, after.entry place ≠ before.entry place →
    ∃ resolved, LeadsTo after cwd base resolved ∧ resolved <:+ place

def FailsClosed (kernel : Kernel String) (cwd : List String) (t : DirTree String) (hostRoot : PathName String)
    (destPath : String) : Prop :=
  ∀ e, (confineDestPath kernel cwd t hostRoot destPath).1 = .error e →
    ChangedInside t (confineDestPath kernel cwd t hostRoot destPath).2 cwd (destBase hostRoot)

/-- The text passes the lexical checks. -/
def canonicalDest (destPath : String) : Bool :=
  Text.startsWith destPath kataConfigDestBase && Text.endsWith destPath destFileSuffix && !nonCanonical destPath

/-- The directories of the destination below `/etc/k0s`. -/
def destDirs (destPath : String) : List String := ((Text.split '/' destPath).drop 3).dropLast

def destParent (hostRoot : PathName String) (destPath : String) : PathName String :=
  ⟨hostRoot.absolute, (destBase hostRoot).segs ++ (destDirs destPath).map .name⟩

/-- A directory that has to be made, with the way behind it, does no harm: it is not made, it lies inside the base, or
the base itself is missing and with it everything is made, or it is the base. -/
def Harmless (kernel : Kernel String) (cwd : List String) (t : DirTree String) (hostRoot : PathName String)
    (destPath : String) (first : List String) (rest : List (Seg String)) : Prop :=
  kernel.refuses first = true ∨ (∃ base, LeadsTo t cwd (destBase hostRoot) base ∧ base <:+ first) ∨
    (∀ base, ¬LeadsTo t cwd (destBase hostRoot) base) ∧ ∃ names, rest = names.map .name ∧
      (names = destDirs destPath ∨ ∀ place ∈ below first names, kernel.refuses place = false)

/-- The text is refused, the kernel does not take the path, or the first directory that is missing does no harm. -/
def MakesInside (kernel : Kernel String) (cwd : List String) (t : DirTree String) (hostRoot : PathName String)
    (destPath : String) : Prop :=
  canonicalDest destPath = true → kernel.takes (destParent hostRoot destPath) = true → ∀ first rest,
    t.firstMissing (hostRoot.start cwd) [] (destParent hostRoot destPath).segs = some (first, rest) →
      Harmless kernel cwd t hostRoot destPath first rest

/-- Where the base is missing, the way to it does not turn back behind the first missing directory. -/
def Straight (cwd : List String) (t : DirTree String) (hostRoot : PathName String) (destPath : String) : Prop :=
  ∀ first rest, t.firstMissing (hostRoot.start cwd) [] (destParent hostRoot destPath).segs = some (first, rest) →
    (∃ base, LeadsTo t cwd (destBase hostRoot) base) ∨ .up ∉ rest

/-! ## The lexical pass -/

section

variable {hostRoot : PathName String} {destPath : String}

theorem destBase_segs (hostRoot : PathName String) :
    destBase hostRoot = ⟨hostRoot.absolute, hostRoot.segs ++ [.name "etc", .name "k0s"]⟩ := by
  have hcomponents : components (trimStartSlashes kataConfigDestBase) = [.name "etc", .name "k0s"] := by decide
  rw [destBase, join, hcomponents]

theorem components_plain {s : String} (hplain : ((Text.split '/' s).any fun part => part == "" || part == "." || part == "..") = false) :
    components s = (Text.split '/' s).map .name := by
  rw [components]
  generalize Text.split '/' s = parts at hplain ⊢
  induction parts with
  | nil => rfl
  | cons part parts ih =>
    simp only [List.any_cons, Bool.or_eq_false_iff, beq_eq_false_iff_ne] at hplain
    obtain ⟨⟨⟨hempty, hdot⟩, hup⟩, hparts⟩ := hplain
    rw [List.filterMap_cons_some (b := .name part), List.map_cons, ih hparts]
    rw [if_neg (not_or.mpr ⟨hempty, hdot⟩), if_neg hup]

theorem split_cons {letters tail : List Char} (h : '/' ∉ letters) :
    Text.split '/' (String.ofList (letters ++ '/' :: tail)) = String.ofList letters :: Text.split '/' (String.ofList tail) := by
  rw [Text.split, Text.split, String.toList_ofList, String.toList_ofList, Text.splitList_eq_splitOn,
    Text.splitList_eq_splitOn, List.splitOn_append_cons_self_of_not_mem h]
  rfl

theorem split_ne_nil (s : String) : Text.split '/' s ≠ [] := by
  rw [Text.split, Text.splitList_eq_splitOn]
  exact fun h => List.splitOn_ne_nil _ _ (List.map_eq_nil_iff.mp h)

theorem endsWith_of_split {s fileName : String} {init : List String} (hparts : Text.split '/' s = init ++ [fileName])
    (hend : Text.endsWith s ".toml" = true) : Text.endsWith fileName ".toml" = true := by
  rw [Text.endsWith_iff] at hend ⊢
  have hlists := congrArg (List.map String.toList) hparts
  rw [Text.split, List.map_map, List.map_append, List.map_singleton] at hlists
  have hid : (String.toList ∘ String.ofList) = id := funext fun cs => String.toList_ofList
  rw [hid, List.map_id] at hlists
  exact Text.suffix_of_splitList_eq hlists hend (by decide)

/-- The destination of a text that passes. -/
theorem segments_of_canonical (h : canonicalDest destPath = true) :
    Text.endsWith (lastSegment destPath) ".toml" = true ∧ components (trimStartSlashes destPath) =
      [.name "etc", .name "k0s"] ++ (destDirs destPath).map .name ++ [.name (lastSegment destPath)] := by
  rw [canonicalDest, Bool.and_eq_true, Bool.and_eq_true, Bool.not_eq_true'] at h
  obtain ⟨⟨hstart, hend⟩, hplain⟩ := h
  obtain ⟨tail, htail⟩ := Text.startsWith_iff.mp hstart
  have hbase : kataConfigDestBase.toList = '/' :: ['e', 't', 'c', '/', 'k', '0', 's', '/'] := by decide
  rw [hbase] at htail
  have htrim : trimStartSlashes destPath = String.ofList (['e', 't', 'c'] ++ '/' :: (['k', '0', 's'] ++ '/' :: tail)) := by
    rw [trimStartSlashes, htail]
    rfl
  have hdest : destPath = String.ofList ([] ++ '/' :: (['e', 't', 'c'] ++ '/' :: (['k', '0', 's'] ++ '/' :: tail))) := by
    rw [← String.toList_inj, htail, String.toList_ofList]
    rfl
  generalize hparts : Text.split '/' (String.ofList tail) = parts
  have hnil : parts ≠ [] := hparts ▸ split_ne_nil _
  have hsplit : Text.split '/' destPath = "" :: "etc" :: "k0s" :: parts := by
    rw [hdest, split_cons (by simp), split_cons (by simp), split_cons (by simp), hparts]
  have hsplitTrim : Text.split '/' (trimStartSlashes destPath) = "etc" :: "k0s" :: parts := by
    rw [htrim, split_cons (by simp), split_cons (by simp), hparts]
  have hlast : lastSegment destPath = parts.getLast hnil := by
    rw [lastSegment, hsplit, List.getLastD_eq_getLast?, List.getLast?_eq_some_getLast (List.cons_ne_nil _ _)]
    simp [List.getLast_cons hnil]
  have hdirs : destDirs destPath = parts.dropLast := by rw [destDirs, hsplit]; rfl
  have hwhole : parts = parts.dropLast ++ [parts.getLast hnil] := (List.dropLast_concat_getLast hnil).symm
  constructor
  · rw [hlast]
    have hends : Text.split '/' destPath = ("" :: "etc" :: "k0s" :: parts.dropLast) ++ [parts.getLast hnil] := by
      rw [hsplit, List.cons_append, List.cons_append, List.cons_append, ← hwhole]
    exact endsWith_of_split hends hend
  · have hnames : parts.map Seg.name = parts.dropLast.map Seg.name ++ [Seg.name (parts.getLast hnil)] := by
      rw [← List.map_singleton, ← List.map_append, ← hwhole]
    rw [components_plain, hsplitTrim, hlast, hdirs, List.append_assoc, ← hnames]
    · rfl
    · rw [hsplitTrim]
      rw [nonCanonical, hsplit] at hplain
      exact hplain

theorem parentOf_full (h : canonicalDest destPath = true) :
    parentOf (join hostRoot (trimStartSlashes destPath)) = some (destParent hostRoot destPath) := by
  rw [parentOf, join, (segments_of_canonical h).2, if_neg (by simp), destParent, destBase_segs, ← List.append_assoc,
    ← List.append_assoc, List.dropLast_concat]

theorem fileNameOf_full (h : canonicalDest destPath = true) :
    fileNameOf (join hostRoot (trimStartSlashes destPath)) = some (lastSegment destPath) := by
  rw [fileNameOf, join, (segments_of_canonical h).2, ← List.append_assoc, List.getLast?_concat]

/-- What is left of the function once the text has passed. -/
theorem confineDestPath_canonical (kernel : Kernel String) (cwd : List String) (t : DirTree String) (hostRoot : PathName String)
    (h : canonicalDest destPath = true) : confineDestPath kernel cwd t hostRoot destPath =
      confineOnDisk kernel cwd t destPath (destParent hostRoot destPath) (destBase hostRoot) (lastSegment destPath) := by
  have hchecks := h
  rw [canonicalDest, Bool.and_eq_true, Bool.and_eq_true, Bool.not_eq_true'] at hchecks
  obtain ⟨⟨hstart, hend⟩, hplain⟩ := hchecks
  rw [confineDestPath, hstart, hend, hplain]
  simp only [parentOf_full h, fileNameOf_full h]
  rfl

/-- A text that does not pass changes nothing. -/
theorem confineDestPath_refused (kernel : Kernel String) (cwd : List String) (t : DirTree String) (hostRoot : PathName String)
    (h : canonicalDest destPath = false) : ∃ e, confineDestPath kernel cwd t hostRoot destPath = (.error e, t) := by
  rw [confineDestPath]
  cases hstart : Text.startsWith destPath kataConfigDestBase with
  | false => exact ⟨_, rfl⟩
  | true =>
    cases hend : Text.endsWith destPath destFileSuffix with
    | false => exact ⟨_, rfl⟩
    | true =>
      cases hplain : nonCanonical destPath with
      | true => exact ⟨_, rfl⟩
      | false =>
        rw [canonicalDest, hstart, hend, hplain] at h
        cases h

end

/-! ## The physical pass -/

section

variable {kernel : Kernel String} {cwd : List String} {t : DirTree String} {hostRoot : PathName String} {destPath : String}

theorem start_destParent (hostRoot : PathName String) (destPath : String) (cwd : List String) :
    (destParent hostRoot destPath).start cwd = hostRoot.start cwd := rfl

theorem start_destBase (hostRoot : PathName String) (cwd : List String) :
    (destBase hostRoot).start cwd = hostRoot.start cwd := by
  rw [destBase_segs]
  rfl

/-- The tree as `create_dir_all` of the parent leaves it, and whether it could make all of it. -/
def madeFor (kernel : Kernel String) (cwd : List String) (t : DirTree String) (hostRoot : PathName String)
    (destPath : String) : Except Errno Unit × DirTree String :=
  DirTree.makeAll kernel (hostRoot.start cwd) t [] (destParent hostRoot destPath).segs

/-- The second `create_dir_all` finds everything there. -/
theorem confineOnDisk_cases (cwd : List String) (t : DirTree String)
    (htakes : kernel.takes (destParent hostRoot destPath) = true) (fileName : String) :
    (∃ e, (madeFor kernel cwd t hostRoot destPath).1 = .error e ∧
      confineOnDisk kernel cwd t destPath (destParent hostRoot destPath) (destBase hostRoot) fileName =
        (.error (.os e), (madeFor kernel cwd t hostRoot destPath).2)) ∨
    (madeFor kernel cwd t hostRoot destPath).1 = .ok () ∧ ∃ parent base,
      (madeFor kernel cwd t hostRoot destPath).2.dirAt (hostRoot.start cwd) (destParent hostRoot destPath).segs = some parent ∧
      (madeFor kernel cwd t hostRoot destPath).2.dirAt (hostRoot.start cwd) (destBase hostRoot).segs = some base ∧
      confineOnDisk kernel cwd t destPath (destParent hostRoot destPath) (destBase hostRoot) fileName =
        (if base.2.isSuffixOf parent.2 then .ok (PathName.ofPlace (fileName :: parent.2))
          else .error (deny destPath "resolves outside the allowed base (symlink?)"),
        (madeFor kernel cwd t hostRoot destPath).2) := by
  have hbase : kernel.takes (destBase hostRoot) = true := by
    refine kernel.takes_append (destBase hostRoot) ((destDirs destPath).map .name) ?_
    rw [← htakes, destParent, destBase_segs]
  have hmade : t.createDirAll kernel cwd (destParent hostRoot destPath) = madeFor kernel cwd t hostRoot destPath := by
    rw [DirTree.createDirAll, if_pos htakes, start_destParent, madeFor]
  have hok (hsegs : (destParent hostRoot destPath).segs ≠ [])
      (h : (madeFor kernel cwd t hostRoot destPath).1 = .ok ()) :
      ((madeFor kernel cwd t hostRoot destPath).2.dirAt (hostRoot.start cwd) (destParent hostRoot destPath).segs).isSome :=
    DirTree.dirAt_of_makeAll (fun hnil => absurd hnil hsegs) h
  unfold confineOnDisk
  rw [hmade]
  generalize madeFor kernel cwd t hostRoot destPath = r at hok ⊢
  obtain ⟨outcome, t₁⟩ := r
  cases outcome with
  | error e => exact .inl ⟨e, rfl, rfl⟩
  | ok done =>
    right
    have hnonempty : (destParent hostRoot destPath).segs ≠ [] := by
      rw [destParent, destBase_segs]
      simp
    obtain ⟨parent, hparent⟩ := Option.isSome_iff_exists.mp (hok hnonempty rfl)
    have hparent' := hparent
    rw [destParent] at hparent'
    obtain ⟨base, hbaseAt, -⟩ := DirTree.dirAt_of_append hparent'
    refine ⟨rfl, parent, base, hparent, hbaseAt, ?_⟩
    have hagain : t₁.createDirAll kernel cwd (destBase hostRoot) = (.ok (), t₁) := by
      rw [DirTree.createDirAll, if_pos hbase, start_destBase]
      exact DirTree.makeAll_of_dirAt hbaseAt
    have hcanonParent : t₁.canonicalize kernel cwd (destParent hostRoot destPath) = .ok parent.2 := by
      rw [DirTree.canonicalize, if_pos htakes, start_destParent, (DirTree.dirAt_eq_some_iff.mp hparent).1]
      rfl
    have hcanonBase : t₁.canonicalize kernel cwd (destBase hostRoot) = .ok base.2 := by
      rw [DirTree.canonicalize, if_pos hbase, start_destBase, (DirTree.dirAt_eq_some_iff.mp hbaseAt).1]
      rfl
    simp only [hagain, hcanonParent, hcanonBase]
    split <;> rfl

theorem confined_of_ok {p : PathName String} (h : (confineDestPath kernel cwd t hostRoot destPath).1 = .ok p) :
    Confined (confineDestPath kernel cwd t hostRoot destPath).2 cwd hostRoot destPath p := by
  cases hcanonical : canonicalDest destPath with
  | false =>
    obtain ⟨e, he⟩ := confineDestPath_refused kernel cwd t hostRoot hcanonical
    rw [he] at h
    cases h
  | true =>
    rw [confineDestPath_canonical kernel cwd t hostRoot hcanonical] at h ⊢
    cases htakes : kernel.takes (destParent hostRoot destPath) with
    | false =>
      simp [confineOnDisk, DirTree.createDirAll, htakes] at h
    | true =>
      rcases confineOnDisk_cases cwd t htakes (lastSegment destPath) with
        ⟨e, -, heq⟩ | ⟨-, parent, base, hparent, hbase, heq⟩
      · rw [heq] at h
        cases h
      · rw [heq] at h ⊢
        simp only at h ⊢
        split at h
        · rename_i hsuffix
          cases h
          obtain ⟨hresolve, hdir⟩ := DirTree.dirAt_eq_some_iff.mp hbase
          refine ⟨⟨PathName.ofPlace parent.2, parent.2, base.2, ?_, ?_, ?_, ?_⟩, ?_, ?_⟩
          · simp [parentOf, PathName.ofPlace]
          · exact ⟨linkLimit, DirTree.resolve_ofPlace (DirTree.dirAt_eq_some_iff.mp hparent).2⟩
          · refine ⟨base.1, ?_⟩
            rw [start_destBase]
            exact hresolve
          · exact List.isSuffixOf_iff_suffix.mp hsuffix
          · simp [fileNameOf, PathName.ofPlace]
          · exact (segments_of_canonical hcanonical).1
        · cases h

/-! ## What is made -/

/-- The way to the parent, split at the first missing directory. -/
structure Missing (t : DirTree String) (cwd : List String) (hostRoot : PathName String) (destPath : String)
    (front : List (Seg String)) (n : String) (rest : List (Seg String)) (links : Nat) (place : List String) : Prop where
  split : (destParent hostRoot destPath).segs = front ++ .name n :: rest
  leads : t.dirAt (hostRoot.start cwd) front = some (links, place)
  free : t.entry (n :: place) = none
  made : ∀ kernel, madeFor kernel cwd t hostRoot destPath =
    DirTree.makeAll kernel (hostRoot.start cwd) t front (.name n :: rest)

variable {front rest : List (Seg String)} {n : String} {links : Nat} {place : List String}

theorem missing_of_first (cwd : List String) (hostRoot : PathName String) {first : List String}
    (h : t.firstMissing (hostRoot.start cwd) [] (destParent hostRoot destPath).segs = some (first, rest)) :
    ∃ front n links place, first = n :: place ∧ Missing t cwd hostRoot destPath front n rest links place := by
  obtain ⟨front, n, place, links, hsplit, hfirst, hleads, hfree, hmade⟩ := DirTree.of_firstMissing h
  exact ⟨front, n, links, place, hfirst, hsplit, hleads, hfree, hmade⟩

/-- The missing directory is behind the base, or on the way to it. -/
theorem Missing.behind_or_before (h : Missing t cwd hostRoot destPath front n rest links place) :
    (∃ mid, front = (destBase hostRoot).segs ++ mid ∧ (destDirs destPath).map .name = mid ++ .name n :: rest) ∨
      ∃ mid, (destBase hostRoot).segs = front ++ .name n :: mid ∧ rest = mid ++ (destDirs destPath).map .name := by
  rcases List.append_eq_append_iff.mp h.split with ⟨mid, hfront, hdirs⟩ | ⟨mid, hbase, hrest⟩
  · exact .inl ⟨mid, hfront, hdirs⟩
  · cases mid with
    | nil => exact .inl ⟨[], by rw [hbase, List.append_nil, List.append_nil], hrest.symm⟩
    | cons seg mid =>
      obtain ⟨hseg, htail⟩ := List.cons.inj hrest
      subst hseg
      exact .inr ⟨mid, hbase, htail⟩

/-- Behind the base the base is there, and only names are left. -/
theorem Missing.behind (h : Missing t cwd hostRoot destPath front n rest links place) {mid : List (Seg String)}
    (hfront : front = (destBase hostRoot).segs ++ mid) (hdirs : (destDirs destPath).map .name = mid ++ .name n :: rest) :
    (∃ base, LeadsTo t cwd (destBase hostRoot) base ∧ t.entry base = some .dir) ∧
      ∃ names : List String, rest = names.map .name := by
  constructor
  · have hleads := h.leads
    rw [hfront] at hleads
    obtain ⟨base, hbase, -⟩ := DirTree.dirAt_of_append hleads
    obtain ⟨hresolve, hdir⟩ := DirTree.dirAt_eq_some_iff.mp hbase
    refine ⟨base.2, ⟨base.1, ?_⟩, hdir⟩
    rw [start_destBase]
    exact hresolve
  · obtain ⟨_, names, -, -, hnames⟩ := List.map_eq_append_iff.mp hdirs
    obtain ⟨_, names, -, -, hnames⟩ := List.map_eq_cons_iff.mp hnames
    exact ⟨names, hnames.symm⟩

/-- On the way to the base the base is not there yet. -/
theorem Missing.before (h : Missing t cwd hostRoot destPath front n rest links place) {mid : List (Seg String)}
    (hbase : (destBase hostRoot).segs = front ++ .name n :: mid) (base : List String) :
    ¬LeadsTo t cwd (destBase hostRoot) base := by
  rintro ⟨links', hresolve⟩
  obtain ⟨hfront, hdir⟩ := DirTree.dirAt_eq_some_iff.mp h.leads
  rw [start_destBase, hbase, DirTree.resolve_append_of_ok hfront, DirTree.resolve_stop (DirTree.look_missing hdir h.free)] at hresolve
  cases hresolve

theorem madeFor_of_refused (h : Missing t cwd hostRoot destPath front n rest links place)
    (hrefuses : kernel.refuses (n :: place) = true) :
    madeFor kernel cwd t hostRoot destPath = (.error .refused, t) := by
  rw [h.made, DirTree.makeAll_of_free h.leads (DirTree.dirAt_eq_some_iff.mp h.leads).2 h.free, if_pos hrefuses]

/-- What `create_dir_all` leaves when it has made the first missing directory. -/
structure Made (kernel : Kernel String) (cwd : List String) (t : DirTree String) (hostRoot : PathName String)
    (destPath : String) (front : List (Seg String)) (first : List String) (links : Nat) (n : String)
    (names : List String) : Prop where
  grows : t.Extends (madeFor kernel cwd t hostRoot destPath).2
  changed : ∀ p, (madeFor kernel cwd t hostRoot destPath).2.entry p ≠ t.entry p → first <:+ p
  there : (madeFor kernel cwd t hostRoot destPath).2.entry first = some .dir
  plain : ∀ p, (madeFor kernel cwd t hostRoot destPath).2.entry (p ++ first) = none ∨
    (madeFor kernel cwd t hostRoot destPath).2.entry (p ++ first) = some .dir
  leads : (madeFor kernel cwd t hostRoot destPath).2.dirAt (hostRoot.start cwd) (front ++ [.name n]) = some (links, first)
  all : (∀ p ∈ below first names, kernel.refuses p = false) → (madeFor kernel cwd t hostRoot destPath).1 = .ok () ∧
    (madeFor kernel cwd t hostRoot destPath).2.dirAt (hostRoot.start cwd) (destParent hostRoot destPath).segs =
      some (links, names.reverse ++ first)
  stopped : ∀ p ∈ below first names, kernel.refuses p = true →
    (madeFor kernel cwd t hostRoot destPath).1 = .error .refused

theorem made_of_missing {names : List String} (h : Missing t cwd hostRoot destPath front n (names.map .name) links place)
    (hmakes : kernel.refuses (n :: place) = false) :
    Made kernel cwd t hostRoot destPath front (n :: place) links n names := by
  have hdir : t.entry place = some .dir := (DirTree.dirAt_eq_some_iff.mp h.leads).2
  have hfirst := DirTree.dirAt_withDir (n := n) h.leads hdir h.free
  have hgrown := DirTree.makeAll_names kernel hfirst (DirTree.free_withDir hdir h.free) names
  have hext := DirTree.extends_withDir hdir h.free
  have hmade : madeFor kernel cwd t hostRoot destPath = DirTree.makeAll kernel (hostRoot.start cwd)
      (t.withDir n place hdir) (front ++ [.name n]) (names.map .name) := by
    rw [h.made, DirTree.makeAll_of_free h.leads hdir h.free, hmakes]
    rfl
  have hchanged : ∀ p, (madeFor kernel cwd t hostRoot destPath).2.entry p ≠ t.entry p →
      n :: place <:+ p ∧ (madeFor kernel cwd t hostRoot destPath).2.entry p = some .dir := by
    intro p hp
    rw [hmade] at hp ⊢
    by_cases hsame : p = n :: place
    · rw [hsame]
      exact ⟨List.suffix_rfl, hgrown.grows _ _ (DirTree.entry_withDir_self hdir)⟩
    · rw [← DirTree.entry_withDir_of_ne hdir hsame] at hp
      exact ⟨suffix_of_mem_below (hgrown.changed p hp), hgrown.dirs p hp⟩
  refine ⟨?_, fun p hp => (hchanged p hp).1, ?_, fun p => ?_, ?_, fun hall => ?_, ?_⟩
  · rw [hmade]
    exact hext.trans hgrown.grows
  · rw [hmade]
    exact hgrown.grows _ _ (DirTree.entry_withDir_self hdir)
  · by_cases hsame : (madeFor kernel cwd t hostRoot destPath).2.entry (p ++ n :: place) = t.entry (p ++ n :: place)
    · rw [hsame]
      exact .inl (DirTree.entry_append_of_none h.free p)
    · exact .inr (hchanged _ hsame).2
  · rw [hmade]
    exact DirTree.dirAt_mono hgrown.grows hfirst
  · rw [hmade, h.split]
    obtain ⟨hok, hleads⟩ := hgrown.made hall
    rw [List.append_assoc] at hleads
    exact ⟨hok, hleads⟩
  · rw [hmade]
    exact hgrown.stopped

/-! ## When it fails closed -/

theorem ChangedInside.refl (t : DirTree String) (cwd : List String) (base : PathName String) : ChangedInside t t cwd base :=
  fun _ h => absurd rfl h

theorem tree_of_confine (hcanonical : canonicalDest destPath = true)
    (htakes : kernel.takes (destParent hostRoot destPath) = true) :
    (confineDestPath kernel cwd t hostRoot destPath).2 = (madeFor kernel cwd t hostRoot destPath).2 := by
  rw [confineDestPath_canonical kernel cwd t hostRoot hcanonical]
  rcases confineOnDisk_cases cwd t htakes (lastSegment destPath) with
    ⟨e, -, heq⟩ | ⟨-, parent, base, -, -, heq⟩ <;>
  rw [heq]

theorem leadsTo_of_base {t' : DirTree String} (hext : t.Extends t') {base : List String}
    (h : LeadsTo t cwd (destBase hostRoot) base) : LeadsTo t' cwd (destBase hostRoot) base := by
  obtain ⟨links, hresolve⟩ := h
  exact ⟨links, DirTree.resolve_mono hext hresolve⟩

theorem LeadsTo.unique {path : PathName String} {a b : List String} (ha : LeadsTo t cwd path a) (hb : LeadsTo t cwd path b) :
    a = b := by
  obtain ⟨links, ha⟩ := ha
  obtain ⟨links', hb⟩ := hb
  rw [ha] at hb
  exact congrArg Prod.snd (Except.ok.inj hb)

theorem names_of_not_up {segs : List (Seg String)} (h : .up ∉ segs) : ∃ names : List String, segs = names.map .name := by
  induction segs with
  | nil => exact ⟨[], rfl⟩
  | cons seg segs ih =>
    obtain ⟨hseg, hsegs⟩ := not_or.mp (List.mem_cons.not.mp h)
    obtain ⟨names, rfl⟩ := ih hsegs
    cases seg with
    | name n => exact ⟨n :: names, rfl⟩
    | up => exact absurd rfl hseg

/-- A way on which everything could be made leads into the base. -/
theorem base_of_made {names mids : List String} (hmade : Made kernel cwd t hostRoot destPath front (n :: place) links n names)
    (hbase : (destBase hostRoot).segs = front ++ .name n :: mids.map .name) (hnames : names = mids ++ destDirs destPath)
    (hall : ∀ p ∈ below (n :: place) names, kernel.refuses p = false) :
    LeadsTo (madeFor kernel cwd t hostRoot destPath).2 cwd (destBase hostRoot) (mids.reverse ++ n :: place) := by
  have hparent := (DirTree.dirAt_eq_some_iff.mp (hmade.all hall).2).2
  have hmids : (madeFor kernel cwd t hostRoot destPath).2.entry (mids.reverse ++ n :: place) = some .dir := by
    refine DirTree.entry_of_suffix hparent ?_
    rw [hnames, List.reverse_append, List.append_assoc]
    exact List.suffix_append _ _
  refine ⟨links, ?_⟩
  have hsplit : front ++ .name n :: mids.map .name = (front ++ [.name n]) ++ mids.map Seg.name := by simp
  rw [start_destBase, hbase, hsplit, DirTree.resolve_append_of_ok (DirTree.dirAt_eq_some_iff.mp hmade.leads).1]
  exact DirTree.resolve_names mids hmids

theorem failsClosed_of_makesInside (h : MakesInside kernel cwd t hostRoot destPath) :
    FailsClosed kernel cwd t hostRoot destPath := by
  intro e he
  cases hcanonical : canonicalDest destPath with
  | false =>
    obtain ⟨e', heq⟩ := confineDestPath_refused kernel cwd t hostRoot hcanonical
    rw [heq]
    exact .refl t cwd _
  | true =>
    cases htakes : kernel.takes (destParent hostRoot destPath) with
    | false =>
      rw [confineDestPath_canonical kernel cwd t hostRoot hcanonical]
      simp only [confineOnDisk, DirTree.createDirAll, htakes]
      exact .refl t cwd _
    | true =>
      rw [tree_of_confine hcanonical htakes]
      rw [confineDestPath_canonical kernel cwd t hostRoot hcanonical] at he
      cases hfirst : t.firstMissing (hostRoot.start cwd) [] (destParent hostRoot destPath).segs with
      | none =>
        rw [madeFor, DirTree.makeAll_of_none hfirst]
        exact .refl t cwd _
      | some missing =>
        obtain ⟨first, rest⟩ := missing
        obtain ⟨front, n, links, place, rfl, hmissing⟩ := missing_of_first cwd hostRoot hfirst
        have hharmless := h hcanonical htakes _ _ hfirst
        cases hrefuses : kernel.refuses (n :: place) with
        | true =>
          rw [madeFor_of_refused hmissing hrefuses]
          exact .refl t cwd _
        | false =>
          rcases hharmless with hrefused | ⟨base, hleads, hinside⟩ | ⟨hnobase, names, rfl, hway⟩
          · rw [hrefuses] at hrefused
            cases hrefused
          · rcases hmissing.behind_or_before with ⟨mid, hfront, hdirs⟩ | ⟨mid, hbase, -⟩
            · obtain ⟨-, names, rfl⟩ := hmissing.behind hfront hdirs
              have hmade := made_of_missing hmissing hrefuses
              exact fun p hp => ⟨base, leadsTo_of_base hmade.grows hleads, hinside.trans (hmade.changed p hp)⟩
            · exact absurd hleads (hmissing.before hbase base)
          · have hmade := made_of_missing hmissing hrefuses
            rcases hmissing.behind_or_before with ⟨mid, hfront, hdirs⟩ | ⟨mid, hbase, hrest⟩
            · obtain ⟨⟨base, hleads, -⟩, -⟩ := hmissing.behind hfront hdirs
              exact absurd hleads (hnobase base)
            · obtain ⟨mids, dirs, hnames, rfl, hdirs⟩ := List.map_eq_append_iff.mp hrest
              obtain rfl : dirs = destDirs destPath :=
                List.map_injective_iff.mpr (fun a b hab => Seg.name.inj hab) hdirs
              rcases hway with hdirsOnly | hall
              · have hmids : mids = [] := by
                  rw [hdirsOnly] at hnames
                  exact List.append_left_eq_self.mp hnames.symm
                subst hmids
                refine fun p hp => ⟨n :: place, ⟨links, ?_⟩, hmade.changed p hp⟩
                rw [start_destBase, hbase]
                exact (DirTree.dirAt_eq_some_iff.mp hmade.leads).1
              · have hbaseLeads := base_of_made hmade hbase hnames hall
                obtain ⟨hok, hparentAt⟩ := hmade.all hall
                rcases confineOnDisk_cases cwd t htakes (lastSegment destPath) with
                  ⟨e', herror, -⟩ | ⟨-, parent, base, hparent, hbaseAt, heq⟩
                · rw [hok] at herror
                  cases herror
                · rw [hparentAt] at hparent
                  cases hparent
                  have hbaseAt' : LeadsTo (madeFor kernel cwd t hostRoot destPath).2 cwd (destBase hostRoot) base.2 := by
                    refine ⟨base.1, ?_⟩
                    rw [start_destBase]
                    exact (DirTree.dirAt_eq_some_iff.mp hbaseAt).1
                  have hsuffix : base.2.isSuffixOf (names.reverse ++ n :: place) = true := by
                    rw [List.isSuffixOf_iff_suffix, hbaseAt'.unique hbaseLeads, hnames, List.reverse_append, List.append_assoc]
                    exact List.suffix_append _ _
                  rw [heq] at he
                  simp only [hsuffix, if_true] at he
                  cases he

/-- A run that ends with an error has made the first missing directory all the same. -/
theorem inside_of_error {e : IoError} {names : List String}
    (hclosed : FailsClosed kernel cwd t hostRoot destPath)
    (hmissing : Missing t cwd hostRoot destPath front n (names.map .name) links place)
    (hmakes : kernel.refuses (n :: place) = false) (hcanonical : canonicalDest destPath = true)
    (htakes : kernel.takes (destParent hostRoot destPath) = true)
    (herror : (confineDestPath kernel cwd t hostRoot destPath).1 = .error e) :
    ∃ base, LeadsTo (madeFor kernel cwd t hostRoot destPath).2 cwd (destBase hostRoot) base ∧ base <:+ n :: place := by
  have hchanged := hclosed e herror
  rw [tree_of_confine hcanonical htakes] at hchanged
  refine hchanged (n :: place) ?_
  rw [(made_of_missing hmissing hmakes).there, hmissing.free]
  rintro ⟨⟩

/-- Behind a base that is there the first missing directory has to lie in it. -/
theorem inside_of_failsClosed {base : List String} (names : List String)
    (hclosed : FailsClosed kernel cwd t hostRoot destPath)
    (hmissing : Missing t cwd hostRoot destPath front n (names.map .name) links place)
    (hmakes : kernel.refuses (n :: place) = false) (hcanonical : canonicalDest destPath = true)
    (htakes : kernel.takes (destParent hostRoot destPath) = true)
    (hleads : LeadsTo t cwd (destBase hostRoot) base) (hdir : t.entry base = some .dir) : base <:+ n :: place := by
  have hmade := made_of_missing hmissing hmakes
  have hleads' := leadsTo_of_base hmade.grows hleads
  have hconfine := confineDestPath_canonical kernel cwd t hostRoot hcanonical
  by_contra houtside
  have herror : ∃ e, (confineDestPath kernel cwd t hostRoot destPath).1 = .error e := by
    rcases confineOnDisk_cases cwd t htakes (lastSegment destPath) with
      ⟨e, -, heq⟩ | ⟨hok, parent, found, hparent, hfound, heq⟩
    · exact ⟨.os e, by rw [hconfine, heq]⟩
    · have hall : ∀ p ∈ below (n :: place) names, kernel.refuses p = false := by
        intro p hp
        rw [Bool.eq_false_iff]
        intro hrefuses
        rw [hmade.stopped p hp hrefuses] at hok
        cases hok
      rw [(hmade.all hall).2] at hparent
      cases hparent
      have hsame : found.2 = base := by
        refine LeadsTo.unique ⟨found.1, ?_⟩ hleads'
        rw [start_destBase]
        exact (DirTree.dirAt_eq_some_iff.mp hfound).1
      have hnot : found.2.isSuffixOf (names.reverse ++ n :: place) = false := by
        rw [Bool.eq_false_iff, Ne, List.isSuffixOf_iff_suffix, hsame]
        intro hsuffix
        rcases List.suffix_or_suffix_of_suffix hsuffix (List.suffix_append names.reverse (n :: place)) with hin | ⟨more, hmore⟩
        · exact houtside hin
        · rw [← hmore, DirTree.entry_append_of_none hmissing.free] at hdir
          cases hdir
      exact ⟨deny destPath "resolves outside the allowed base (symlink?)", by rw [hconfine, heq, hnot]; rfl⟩
  obtain ⟨e, herror⟩ := herror
  obtain ⟨found, hfound, hinside⟩ := inside_of_error hclosed hmissing hmakes hcanonical htakes herror
  rw [hfound.unique hleads'] at hinside
  exact houtside hinside

/-- On the way to a base that is not there, either everything can be made or only the base is missing. -/
theorem way_of_failsClosed {mid : List (Seg String)} {names : List String}
    (hclosed : FailsClosed kernel cwd t hostRoot destPath)
    (hmissing : Missing t cwd hostRoot destPath front n (names.map .name) links place)
    (hmakes : kernel.refuses (n :: place) = false) (hcanonical : canonicalDest destPath = true)
    (htakes : kernel.takes (destParent hostRoot destPath) = true)
    (hbase : (destBase hostRoot).segs = front ++ .name n :: mid)
    (hrest : names.map .name = mid ++ (destDirs destPath).map Seg.name) :
    names = destDirs destPath ∨ ∀ p ∈ below (n :: place) names, kernel.refuses p = false := by
  have hmade := made_of_missing hmissing hmakes
  obtain ⟨mids, dirs, hnames, rfl, hdirs⟩ := List.map_eq_append_iff.mp hrest
  obtain rfl : dirs = destDirs destPath := List.map_injective_iff.mpr (fun a b hab => Seg.name.inj hab) hdirs
  by_contra hneither
  obtain ⟨hmore, hrefused⟩ := not_or.mp hneither
  simp only [not_forall] at hrefused
  obtain ⟨p, hp, hrefuses⟩ := hrefused
  have hstopped := hmade.stopped p hp (by simpa using hrefuses)
  have herror : ∃ e, (confineDestPath kernel cwd t hostRoot destPath).1 = .error e := by
    rcases confineOnDisk_cases cwd t htakes (lastSegment destPath) with ⟨e, -, heq⟩ | ⟨hok, -⟩
    · exact ⟨.os e, by rw [confineDestPath_canonical kernel cwd t hostRoot hcanonical, heq]⟩
    · rw [hstopped] at hok
      cases hok
  obtain ⟨e, herror⟩ := herror
  obtain ⟨found, ⟨links', hfound⟩, hinside⟩ := inside_of_error hclosed hmissing hmakes hcanonical htakes herror
  have hsplit : front ++ .name n :: mids.map .name = (front ++ [.name n]) ++ mids.map Seg.name := by simp
  rw [start_destBase, hbase, hsplit, DirTree.resolve_append_of_ok (DirTree.dirAt_eq_some_iff.mp hmade.leads).1] at hfound
  have hplace := congrArg Prod.snd (DirTree.eq_of_resolve_names hmade.plain hfound)
  simp only at hplace
  have hlength := hinside.length_le
  rw [hplace, List.length_append, List.length_reverse] at hlength
  have hmids : mids = [] := List.length_eq_zero_iff.mp (by omega)
  rw [hmids, List.nil_append] at hnames
  exact hmore hnames

theorem makesInside_of_failsClosed (hstraight : Straight cwd t hostRoot destPath)
    (hclosed : FailsClosed kernel cwd t hostRoot destPath) : MakesInside kernel cwd t hostRoot destPath := by
  intro hcanonical htakes first rest hfirst
  obtain ⟨front, n, links, place, rfl, hmissing⟩ := missing_of_first cwd hostRoot hfirst
  cases hmakes : kernel.refuses (n :: place) with
  | true => exact .inl hmakes
  | false =>
    right
    rcases hmissing.behind_or_before with ⟨mid, hfront, hdirs⟩ | ⟨mid, hbase, hrest⟩
    · obtain ⟨⟨base, hleads, hdir⟩, names, rfl⟩ := hmissing.behind hfront hdirs
      exact .inl ⟨base, hleads, inside_of_failsClosed names hclosed hmissing hmakes hcanonical htakes hleads hdir⟩
    · have hnobase := hmissing.before hbase
      rcases hstraight _ _ hfirst with ⟨base, hleads⟩ | hup
      · exact absurd hleads (hnobase base)
      · obtain ⟨names, rfl⟩ := names_of_not_up hup
        exact .inr ⟨hnobase, names, rfl, way_of_failsClosed hclosed hmissing hmakes hcanonical htakes hbase hrest⟩

end

/-! ## The confinement -/

theorem confine_dest_path_confined (kernel : Kernel String) (cwd : List String) (t : DirTree String)
    (hostRoot : PathName String) (destPath : String) :
    (∀ p, (confineDestPath kernel cwd t hostRoot destPath).1 = .ok p →
      Confined (confineDestPath kernel cwd t hostRoot destPath).2 cwd hostRoot destPath p) ∧
      (MakesInside kernel cwd t hostRoot destPath → FailsClosed kernel cwd t hostRoot destPath) ∧
      (Straight cwd t hostRoot destPath →
        (FailsClosed kernel cwd t hostRoot destPath ↔ MakesInside kernel cwd t hostRoot destPath)) :=
  ⟨fun _ h => confined_of_ok h, failsClosed_of_makesInside,
    fun hstraight => ⟨makesInside_of_failsClosed hstraight, failsClosed_of_makesInside⟩⟩

/-! ### A link that leads out -/

def freeKernel : Kernel String := ⟨fun _ => false, fun _ => true, fun _ _ _ => rfl⟩

/-- `/etc/k0s/sub` is a link to `/outside`. -/
def linkedEntry (place : List String) : Option (Entry String) :=
  if place = [] ∨ place = ["etc"] ∨ place = ["k0s", "etc"] ∨ place = ["outside"] then some .dir
  else if place = ["sub", "k0s", "etc"] then some (.link ⟨true, [.name "outside"]⟩)
  else none

def linkedTree : DirTree String where
  entry := linkedEntry
  root := rfl
  inDir n place h := by
    unfold linkedEntry at h
    split at h
    · rename_i hdir
      rcases hdir with hdir | hdir | hdir | hdir <;> cases hdir <;> rfl
    · split at h
      · rename_i hlink
        cases hlink
        rfl
      · exact absurd rfl h

theorem linked_dir {place : List String} (h : place = [] ∨ place = ["etc"] ∨ place = ["k0s", "etc"] ∨ place = ["outside"]) :
    linkedTree.entry place = some .dir :=
  if_pos h

theorem linked_base : linkedTree.dirAt [] [.name "etc", .name "k0s"] = some (40, ["k0s", "etc"]) :=
  DirTree.dirAt_eq_some_iff.mpr ⟨DirTree.resolve_names ["etc", "k0s"] (linked_dir (by simp)), linked_dir (by simp)⟩

theorem linked_out : linkedTree.dirAt [] [.name "etc", .name "k0s", .name "sub"] = some (39, ["outside"]) := by
  have hsub : linkedTree.resolve 40 ["k0s", "etc"] [.name "sub"] = .ok (39, ["outside"]) := by
    have hlook : linkedTree.look ["k0s", "etc"] (.name "sub") = .jump ⟨true, [.name "outside"]⟩ := by
      have hlink : linkedTree.entry ["sub", "k0s", "etc"] = some (.link ⟨true, [.name "outside"]⟩) := by
        simp [linkedTree, linkedEntry]
      simp only [DirTree.look, linked_dir (Or.inr (Or.inr (Or.inl rfl))), hlink]
    have hfollow : linkedTree.resolve 39 [] [.name "outside"] = .ok (39, ["outside"]) :=
      DirTree.resolve_names ["outside"] (linked_dir (by simp))
    simp only [DirTree.resolve, DirTree.advance, hlook] at hfollow ⊢
    exact hfollow
  refine DirTree.dirAt_eq_some_iff.mpr ⟨?_, linked_dir (by simp)⟩
  have hbase := (DirTree.dirAt_eq_some_iff.mp linked_base).1
  exact (DirTree.resolve_append_of_ok hbase [.name "sub"]).trans hsub

theorem linked_missing : linkedTree.firstMissing [] [] [.name "etc", .name "k0s", .name "sub", .name "deep"] =
    some (["deep", "outside"], []) := by
  have hetc : linkedTree.dirAt [] [.name "etc"] = some (40, ["etc"]) :=
    DirTree.dirAt_eq_some_iff.mpr ⟨DirTree.resolve_names ["etc"] (linked_dir (by simp)), linked_dir (by simp)⟩
  have hfree : linkedTree.entry ["deep", "outside"] = none := by simp [linkedTree, linkedEntry]
  have hdeep := DirTree.dirAt_missing linked_out hfree
  have hfirst := DirTree.freeAt_eq_some_iff.mpr ⟨39, "deep", ["outside"], rfl, linked_out, hfree, rfl⟩
  simp only [List.cons_append, List.nil_append] at hdeep
  simp only [DirTree.firstMissing, List.nil_append, List.cons_append, hetc, linked_base, linked_out, hdeep, hfirst,
    Option.isSome_some, Option.isSome_none, if_true, Bool.false_eq_true, if_false, Option.map_some]

/-- `/outside/deep` is made before the destination is refused. -/
theorem made_through_link : ¬FailsClosed freeKernel [] linkedTree ⟨true, []⟩ "/etc/k0s/sub/deep/kata.toml" := by
  intro hclosed
  have hparent : (destParent ⟨true, []⟩ "/etc/k0s/sub/deep/kata.toml").segs =
      [.name "etc", .name "k0s", .name "sub", .name "deep"] := by decide
  have hfirst := linked_missing
  rw [← hparent] at hfirst
  obtain ⟨front, n, links, place, hplace, hmissing⟩ := missing_of_first [] ⟨true, []⟩ hfirst
  obtain ⟨rfl, rfl⟩ := List.cons.inj hplace
  obtain ⟨hbase, hdir⟩ := DirTree.dirAt_eq_some_iff.mp linked_base
  have hleads : LeadsTo linkedTree [] (destBase ⟨true, []⟩) ["k0s", "etc"] := by
    refine ⟨40, ?_⟩
    rw [destBase_segs]
    exact hbase
  have hinside := inside_of_failsClosed [] hclosed hmissing rfl (by decide) rfl hleads hdir
  exact absurd (List.isSuffixOf_iff_suffix.mpr hinside) (by decide)

end FiveSpot.KataAgent
