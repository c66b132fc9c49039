import Mathlib.Data.List.Infix
import Mathlib.Logic.Function.Basic

/-! # Directory trees with symbolic links

Paths are walked from a directory, links on the way are followed up to a limit, and missing directories can be made
one after the other. A place in the tree is the list of names from it up to the root.
-/

namespace FiveSpot.FileTree

set_option autoImplicit false

variable {Name : Type}

inductive Seg (Name : Type) where
  | name (n : Name)
  /-- `..` -/
  | up
  deriving DecidableEq

structure PathName (Name : Type) where
  absolute : Bool
  segs : List (Seg Name)
  deriving DecidableEq

inductive Entry (Name : Type) where
  | dir
  | file
  | link (target : PathName Name)
  deriving DecidableEq

structure DirTree (Name : Type) where
  entry : List Name → Option (Entry Name)
  root : entry [] = some .dir
  inDir : ∀ n place, entry (n :: place) ≠ none → entry place = some .dir

inductive Errno where
  | notFound
  | notADirectory
  | tooManyLinks
  | alreadyExists
  | refused
  | invalid
  deriving DecidableEq

/-- What the kernel says no to, apart from what the tree decides: directories it does not make, because of their
name, a full disk or a read-only mount, and paths it does not take at all. -/
structure Kernel (Name : Type) where
  refuses : List Name → Bool
  takes : PathName Name → Bool
  takes_append : ∀ path segs, takes ⟨path.absolute, path.segs ++ segs⟩ = true → takes path = true

def linkLimit : Nat := 40

/-- Where a path begins, for a process in `cwd`. -/
def PathName.start (path : PathName Name) (cwd : List Name) : List Name := if path.absolute then [] else cwd

/-- The absolute path of a place. -/
def PathName.ofPlace (place : List Name) : PathName Name := ⟨true, place.reverse.map .name⟩

namespace DirTree

/-- What one part of a path leads to. -/
inductive Look (Name : Type) where
  | stop (e : Errno)
  | go (place : List Name)
  | jump (target : PathName Name)

def look (t : DirTree Name) (place : List Name) (seg : Seg Name) : Look Name :=
  match t.entry place, seg with
  | some .dir, .up => .go place.tail
  | some .dir, .name n => match t.entry (n :: place) with
    | none => .stop .notFound
    | some (.link target) => .jump target
    | some _ => .go (n :: place)
  | _, _ => .stop .notADirectory

/-- A walk up to the next link, which `follow` takes up; it keeps the number of links that may still be followed. -/
def advance (t : DirTree Name) (links : Nat) (follow : List Name → List (Seg Name) → Except Errno (Nat × List Name)) :
    List Name → List (Seg Name) → Except Errno (Nat × List Name)
  | place, [] => .ok (links, place)
  | place, seg :: rest => match t.look place seg with
    | .stop e => .error e
    | .go next => advance t links follow next rest
    | .jump target => follow (target.start place) (target.segs ++ rest)

def resolve (t : DirTree Name) : Nat → List Name → List (Seg Name) → Except Errno (Nat × List Name)
  | 0 => t.advance 0 fun _ _ => .error .tooManyLinks
  | links + 1 => t.advance (links + 1) (t.resolve links)

/-- The directory a path leads to. -/
def dirAt (t : DirTree Name) (place : List Name) (segs : List (Seg Name)) : Option (Nat × List Name) :=
  match t.resolve linkLimit place segs with
  | .ok (links, found) => match t.entry found with
    | some .dir => some (links, found)
    | _ => none
  | .error _ => none

section

variable [DecidableEq Name]

/-- The tree with a new directory. -/
def withDir (t : DirTree Name) (n : Name) (place : List Name) (hplace : t.entry place = some .dir) : DirTree Name where
  entry := Function.update t.entry (n :: place) (some .dir)
  root := by
    rw [Function.update_of_ne (List.cons_ne_nil n place).symm]
    exact t.root
  inDir m above h := by
    by_cases hsame : m :: above = n :: place
    · cases hsame
      rw [Function.update_of_ne (List.cons_ne_self n place).symm]
      exact hplace
    · rw [Function.update_of_ne hsame] at h
      by_cases habove : above = n :: place
      · rw [habove, Function.update_self]
      · rw [Function.update_of_ne habove]
        exact t.inDir m above h

/-- `mkdir` of the last part of a path. -/
def mkdir (t : DirTree Name) (kernel : Kernel Name) (place : List Name) (done : List (Seg Name)) (seg : Seg Name) :
    Except Errno (DirTree Name) :=
  match t.resolve linkLimit place done, seg with
  | .error e, _ => .error e
  | .ok _, .up => .error .alreadyExists
  | .ok (_, parent), .name n =>
    if hplace : t.entry parent = some .dir then
      if t.entry (n :: parent) = none then
        if kernel.refuses (n :: parent) then .error .refused else .ok (t.withDir n parent hplace)
      else .error .alreadyExists
    else .error .notADirectory

/-- Each part of the path is made that is not a directory yet. -/
def makeAll (kernel : Kernel Name) (place : List Name) :
    DirTree Name → List (Seg Name) → List (Seg Name) → Except Errno Unit × DirTree Name
  | t, _, [] => (.ok (), t)
  | t, done, seg :: rest =>
    if (t.dirAt place (done ++ [seg])).isSome then makeAll kernel place t (done ++ [seg]) rest
    else match t.mkdir kernel place done seg with
      | .ok made => makeAll kernel place made (done ++ [seg]) rest
      | .error e => (.error e, t)

/-- `create_dir_all`: what was made before an error stays. -/
def createDirAll (t : DirTree Name) (kernel : Kernel Name) (cwd : List Name) (path : PathName Name) :
    Except Errno Unit × DirTree Name :=
  if kernel.takes path then makeAll kernel (path.start cwd) t [] path.segs else (.error .invalid, t)

def canonicalize (t : DirTree Name) (kernel : Kernel Name) (cwd : List Name) (path : PathName Name) :
    Except Errno (List Name) :=
  if kernel.takes path then (t.resolve linkLimit (path.start cwd) path.segs).map Prod.snd else .error .invalid

/-- The place of the last part of a path, where it is free. -/
def freeAt (t : DirTree Name) (place : List Name) (done : List (Seg Name)) : Seg Name → Option (List Name)
  | .up => none
  | .name n => (t.dirAt place done).bind fun parent =>
    if t.entry (n :: parent.2) = none then some (n :: parent.2) else none

/-- The first directory on the way that is missing, where nothing else stands in the way, and the way behind it. -/
def firstMissing (t : DirTree Name) (place : List Name) :
    List (Seg Name) → List (Seg Name) → Option (List Name × List (Seg Name))
  | _, [] => none
  | done, seg :: rest =>
    if (t.dirAt place (done ++ [seg])).isSome then firstMissing t place (done ++ [seg]) rest
    else (t.freeAt place done seg).map fun first => (first, rest)

end

end DirTree

/-- The places below `place` on a way of names. -/
def below (place : List Name) : List Name → List (List Name)
  | [] => []
  | n :: names => (n :: place) :: below (n :: place) names

namespace DirTree

/-! ## Walks -/

variable {t t' : DirTree Name} {links : Nat} {place found : List Name} {segs : List (Seg Name)}

theorem resolve_nil : t.resolve links place [] = .ok (links, place) := by
  cases links <;> rfl

theorem advance_append {follow : List Name → List (Seg Name) → Except Errno (Nat × List Name)}
    (hself : t.resolve links = t.advance links follow)
    (hfollow : ∀ place a b, follow place (a ++ b) = (follow place a).bind fun r => t.resolve r.1 r.2 b)
    (place : List Name) (a b : List (Seg Name)) :
    t.advance links follow place (a ++ b) = (t.advance links follow place a).bind fun r => t.resolve r.1 r.2 b := by
  induction a generalizing place with
  | nil =>
    change t.advance links follow place b = t.resolve links place b
    rw [hself]
  | cons seg a ih =>
    simp only [List.cons_append, advance]
    cases t.look place seg with
    | stop e => rfl
    | go next => exact ih next
    | jump target =>
      simp only [← List.append_assoc]
      exact hfollow _ _ _

theorem resolve_append (t : DirTree Name) (links : Nat) (place : List Name) (a b : List (Seg Name)) :
    t.resolve links place (a ++ b) = (t.resolve links place a).bind fun r => t.resolve r.1 r.2 b := by
  induction links generalizing place a b with
  | zero => exact advance_append rfl (fun _ _ _ => rfl) place a b
  | succ links ih => exact advance_append rfl ih place a b

theorem resolve_append_of_ok {r : Nat × List Name} (h : t.resolve links place segs = .ok r) (rest : List (Seg Name)) :
    t.resolve links place (segs ++ rest) = t.resolve r.1 r.2 rest := by
  rw [resolve_append, h]
  rfl

theorem look_name {n : Name} (hplace : t.entry place = some .dir) {e : Entry Name}
    (he : t.entry (n :: place) = some e) (hplain : ∀ target, e ≠ .link target) :
    t.look place (.name n) = .go (n :: place) := by
  cases e with
  | dir => simp only [look, hplace, he]
  | file => simp only [look, hplace, he]
  | link target => exact absurd rfl (hplain target)

theorem look_missing {n : Name} (hplace : t.entry place = some .dir) (hfree : t.entry (n :: place) = none) :
    t.look place (.name n) = .stop .notFound := by
  simp only [look, hplace, hfree]

theorem resolve_go {seg : Seg Name} (h : t.look place seg = .go found) (rest : List (Seg Name)) :
    t.resolve links place (seg :: rest) = t.resolve links found rest := by
  cases links <;>
  · simp only [resolve, advance, h]

theorem resolve_stop {seg : Seg Name} {e : Errno} (h : t.look place seg = .stop e) (rest : List (Seg Name)) :
    t.resolve links place (seg :: rest) = .error e := by
  cases links <;>
  · simp only [resolve, advance, h]

/-! ## Growing trees -/

/-- Whatever was there still is. -/
def Extends (t t' : DirTree Name) : Prop := ∀ place e, t.entry place = some e → t'.entry place = some e

theorem Extends.refl (t : DirTree Name) : t.Extends t := fun _ _ h => h

theorem Extends.trans {t₁ t₂ t₃ : DirTree Name} (h : t₁.Extends t₂) (h' : t₂.Extends t₃) : t₁.Extends t₃ :=
  fun place e he => h' place e (h place e he)

theorem look_mono (hext : t.Extends t') {seg : Seg Name} (h : ∀ e, t.look place seg ≠ .stop e) :
    t'.look place seg = t.look place seg := by
  cases hplace : t.entry place with
  | none => exact absurd (by simp only [look, hplace]) (h .notADirectory)
  | some e =>
    have hplace' := hext _ _ hplace
    cases e with
    | file => exact absurd (by simp only [look, hplace]) (h .notADirectory)
    | link target => exact absurd (by simp only [look, hplace]) (h .notADirectory)
    | dir =>
      cases seg with
      | up => simp only [look, hplace, hplace']
      | name n =>
        cases hentry : t.entry (n :: place) with
        | none => exact absurd (look_missing hplace hentry) (h .notFound)
        | some e => simp only [look, hplace, hplace', hentry, hext _ _ hentry]

theorem advance_mono (hext : t.Extends t') {follow follow' : List Name → List (Seg Name) → Except Errno (Nat × List Name)}
    (hfollow : ∀ place segs r, follow place segs = .ok r → follow' place segs = .ok r) {r : Nat × List Name}
    (h : t.advance links follow place segs = .ok r) : t'.advance links follow' place segs = .ok r := by
  induction segs generalizing place with
  | nil => exact h
  | cons seg segs ih =>
    simp only [advance] at h ⊢
    cases hlook : t.look place seg with
    | stop e =>
      rw [hlook] at h
      cases h
    | go next =>
      rw [look_mono hext (by rw [hlook]; rintro e ⟨⟩), hlook]
      rw [hlook] at h
      exact ih h
    | jump target =>
      rw [look_mono hext (by rw [hlook]; rintro e ⟨⟩), hlook]
      rw [hlook] at h
      exact hfollow _ _ _ h

theorem resolve_mono (hext : t.Extends t') {r : Nat × List Name} (h : t.resolve links place segs = .ok r) :
    t'.resolve links place segs = .ok r := by
  induction links generalizing place segs r with
  | zero => exact advance_mono hext (fun _ _ _ h => h) h
  | succ links ih => exact advance_mono hext (fun _ _ _ h => ih h) h

theorem dirAt_eq_some_iff {r : Nat × List Name} : t.dirAt place segs = some r ↔
    t.resolve linkLimit place segs = .ok r ∧ t.entry r.2 = some .dir := by
  unfold dirAt
  split
  · rename_i links found hresolve
    split
    · rename_i hdir
      rw [hresolve, Option.some.injEq, Except.ok.injEq]
      constructor
      · rintro rfl
        exact ⟨rfl, hdir⟩
      · exact And.left
    · rename_i hdir
      constructor
      · rintro ⟨⟩
      · rintro ⟨hr, hentry⟩
        rw [hresolve] at hr
        cases hr
        exact absurd hentry hdir
  · rename_i e hresolve
    rw [hresolve]
    constructor
    · rintro ⟨⟩
    · rintro ⟨⟨⟩, -⟩

theorem dirAt_mono (hext : t.Extends t') {r : Nat × List Name} (h : t.dirAt place segs = some r) :
    t'.dirAt place segs = some r := by
  rw [dirAt_eq_some_iff] at h ⊢
  exact ⟨resolve_mono hext h.1, hext _ _ h.2⟩

/-- Nothing is below what is not there. -/
theorem entry_append_of_none (h : t.entry place = none) (names : List Name) : t.entry (names ++ place) = none := by
  induction names with
  | nil => exact h
  | cons n names ih =>
    by_contra hentry
    have habove := t.inDir n (names ++ place) hentry
    rw [ih] at habove
    cases habove

theorem entry_of_suffix {above : List Name} (h : t.entry place = some .dir) (habove : above <:+ place) :
    t.entry above = some .dir := by
  obtain ⟨names, rfl⟩ := habove
  cases hentry : t.entry above with
  | none =>
    rw [entry_append_of_none hentry] at h
    cases h
  | some e =>
    cases names with
    | nil => exact hentry ▸ h
    | cons n names =>
      induction names generalizing n with
      | nil => exact hentry ▸ t.inDir n above (by rw [List.cons_append, List.nil_append] at h; rw [h]; rintro ⟨⟩)
      | cons m names ih => exact ih m (t.inDir n _ (by rw [List.cons_append] at h; rw [h]; rintro ⟨⟩))

/-- A way of names to an existing directory. -/
theorem resolve_names (names : List Name) (h : t.entry (names.reverse ++ place) = some .dir) :
    t.resolve links place (names.map .name) = .ok (links, names.reverse ++ place) := by
  induction names generalizing place with
  | nil => exact resolve_nil
  | cons n names ih =>
    rw [List.reverse_cons, List.append_assoc, List.singleton_append] at h ⊢
    have hn : t.entry (n :: place) = some .dir := entry_of_suffix h (List.suffix_append _ _)
    rw [List.map_cons, resolve_go (look_name (entry_of_suffix hn (List.suffix_cons n place)) hn (by rintro _ ⟨⟩))]
    exact ih h

/-- The absolute path of an existing place leads there. -/
theorem resolve_ofPlace (hplace : t.entry place = some .dir) :
    t.resolve links [] (PathName.ofPlace place).segs = .ok (links, place) := by
  have hdir : t.entry (place.reverse.reverse ++ []) = some .dir := by simpa using hplace
  rw [PathName.ofPlace, resolve_names place.reverse hdir, List.reverse_reverse, List.append_nil]

/-- A way of names among directories goes down. -/
theorem eq_of_resolve_names {names : List Name} {r : Nat × List Name}
    (hplain : ∀ p : List Name, t.entry (p ++ place) = none ∨ t.entry (p ++ place) = some .dir)
    (h : t.resolve links place (names.map .name) = .ok r) : r = (links, names.reverse ++ place) := by
  induction names generalizing place with
  | nil =>
    rw [List.map_nil, resolve_nil] at h
    exact (Except.ok.inj h).symm
  | cons n names ih =>
    have hdir : t.entry place = some .dir := by
      rcases hplain [] with hnone | hdir
      · rw [List.map_cons, resolve_stop (e := .notADirectory) (by simp only [look]; rw [List.nil_append] at hnone; rw [hnone])] at h
        cases h
      · exact hdir
    rcases hplain [n] with hnone | hn
    · rw [List.map_cons, resolve_stop (look_missing hdir hnone)] at h
      cases h
    · rw [List.map_cons, resolve_go (look_name hdir hn (by rintro _ ⟨⟩))] at h
      rw [List.reverse_cons, List.append_assoc]
      refine ih (fun p => ?_) h
      have hp := hplain (p ++ [n])
      rw [List.append_assoc] at hp
      exact hp

theorem entry_of_resolve_cons {seg : Seg Name} {rest : List (Seg Name)} {r : Nat × List Name}
    (h : t.resolve links place (seg :: rest) = .ok r) : t.entry place = some .dir := by
  by_contra hdir
  have hstop : t.look place seg = .stop .notADirectory := by
    unfold look
    split
    · rename_i hentry
      exact absurd hentry hdir
    · rename_i hentry
      exact absurd hentry hdir
    · rfl
  rw [resolve_stop hstop] at h
  cases h

/-- What leads to a directory leads through directories. -/
theorem dirAt_of_append {a b : List (Seg Name)} {r : Nat × List Name} (h : t.dirAt place (a ++ b) = some r) :
    ∃ s, t.dirAt place a = some s ∧ t.resolve s.1 s.2 b = .ok r := by
  obtain ⟨hresolve, hdir⟩ := dirAt_eq_some_iff.mp h
  cases ha : t.resolve linkLimit place a with
  | error e =>
    rw [resolve_append, ha] at hresolve
    cases hresolve
  | ok s =>
    rw [resolve_append_of_ok ha] at hresolve
    refine ⟨s, dirAt_eq_some_iff.mpr ⟨ha, ?_⟩, hresolve⟩
    cases b with
    | nil =>
      rw [resolve_nil] at hresolve
      cases hresolve
      exact hdir
    | cons seg b => exact entry_of_resolve_cons hresolve

/-! ## New directories -/

variable {n : Name} {parent : List Name} {done rest : List (Seg Name)}

theorem dirAt_missing {links : Nat} (hdone : t.dirAt place done = some (links, parent))
    (hfree : t.entry (n :: parent) = none) : t.dirAt place (done ++ [.name n]) = none := by
  obtain ⟨hresolve, hdir⟩ := dirAt_eq_some_iff.mp hdone
  rw [Option.eq_none_iff_forall_ne_some]
  intro r hr
  have hfound := (dirAt_eq_some_iff.mp hr).1
  rw [resolve_append_of_ok hresolve, resolve_stop (look_missing hdir hfree)] at hfound
  cases hfound

theorem freeAt_eq_some_iff {seg : Seg Name} {first : List Name} : t.freeAt place done seg = some first ↔
    ∃ links n parent, seg = .name n ∧ t.dirAt place done = some (links, parent) ∧ t.entry (n :: parent) = none ∧
      first = n :: parent := by
  cases seg with
  | up =>
    constructor
    · rintro ⟨⟩
    · rintro ⟨_, _, _, ⟨⟩, -⟩
  | name m =>
    rw [freeAt, Option.bind_eq_some_iff]
    constructor
    · rintro ⟨⟨links, parent⟩, hdone, h⟩
      split at h
      · rename_i hfree
        exact ⟨links, m, parent, rfl, hdone, hfree, (Option.some.inj h).symm⟩
      · cases h
    · rintro ⟨links, n, parent, hname, hdone, hfree, rfl⟩
      cases hname
      exact ⟨(links, parent), hdone, if_pos hfree⟩

variable [DecidableEq Name] {kernel : Kernel Name}

theorem entry_withDir_self (hparent : t.entry parent = some .dir) :
    (t.withDir n parent hparent).entry (n :: parent) = some .dir := Function.update_self ..

theorem entry_withDir_of_ne (hparent : t.entry parent = some .dir) (h : place ≠ n :: parent) :
    (t.withDir n parent hparent).entry place = t.entry place := Function.update_of_ne h ..

theorem extends_withDir (hparent : t.entry parent = some .dir) (hfree : t.entry (n :: parent) = none) :
    t.Extends (t.withDir n parent hparent) := by
  intro place e h
  have hne : place ≠ n :: parent := by
    rintro rfl
    rw [hfree] at h
    cases h
  rw [entry_withDir_of_ne hparent hne]
  exact h

theorem free_withDir (hparent : t.entry parent = some .dir) (hfree : t.entry (n :: parent) = none) (m : Name) :
    (t.withDir n parent hparent).entry (m :: n :: parent) = none := by
  rw [entry_withDir_of_ne hparent (List.cons_ne_self m _)]
  exact entry_append_of_none hfree [m]

theorem dirAt_withDir {links : Nat} (hdone : t.dirAt place done = some (links, parent))
    (hparent : t.entry parent = some .dir) (hfree : t.entry (n :: parent) = none) :
    (t.withDir n parent hparent).dirAt place (done ++ [.name n]) = some (links, n :: parent) := by
  have hext := extends_withDir hparent hfree
  obtain ⟨hresolve, -⟩ := dirAt_eq_some_iff.mp (dirAt_mono hext hdone)
  refine dirAt_eq_some_iff.mpr ⟨?_, entry_withDir_self hparent⟩
  rw [resolve_append_of_ok hresolve,
    resolve_go (look_name (hext _ _ hparent) (entry_withDir_self hparent) (by rintro _ ⟨⟩)), resolve_nil]

theorem mkdir_of_free {links : Nat} (hdone : t.dirAt place done = some (links, parent))
    (hparent : t.entry parent = some .dir) (hfree : t.entry (n :: parent) = none) :
    t.mkdir kernel place done (.name n) =
      if kernel.refuses (n :: parent) then .error .refused else .ok (t.withDir n parent hparent) := by
  unfold mkdir
  rw [(dirAt_eq_some_iff.mp hdone).1]
  simp only [dif_pos hparent, if_pos hfree]

/-- `mkdir` makes what is missing and nothing else. -/
theorem of_mkdir_ok {seg : Seg Name} {made : DirTree Name} (h : t.mkdir kernel place done seg = .ok made) :
    ∃ links n parent, ∃ hparent : t.entry parent = some .dir, seg = .name n ∧
      t.dirAt place done = some (links, parent) ∧ t.entry (n :: parent) = none ∧ made = t.withDir n parent hparent := by
  unfold mkdir at h
  split at h
  · cases h
  · cases h
  · rename_i links parent n hresolve
    split at h
    · rename_i hparent
      split at h
      · rename_i hfree
        split at h
        · cases h
        · cases h
          exact ⟨links, n, parent, hparent, rfl, dirAt_eq_some_iff.mpr ⟨hresolve, hparent⟩, hfree, rfl⟩
      · cases h
    · cases h

/-! ## All the directories of a path -/

theorem makeAll_of_dir {seg : Seg Name} (h : (t.dirAt place (done ++ [seg])).isSome = true) :
    makeAll kernel place t done (seg :: rest) = makeAll kernel place t (done ++ [seg]) rest := by
  rw [makeAll, if_pos h]

theorem makeAll_of_free {links : Nat} (hdone : t.dirAt place done = some (links, parent))
    (hparent : t.entry parent = some .dir) (hfree : t.entry (n :: parent) = none) :
    makeAll kernel place t done (.name n :: rest) =
      if kernel.refuses (n :: parent) then (.error .refused, t)
      else makeAll kernel place (t.withDir n parent hparent) (done ++ [.name n]) rest := by
  rw [makeAll, dirAt_missing hdone hfree, mkdir_of_free hdone hparent hfree]
  by_cases hrefuses : kernel.refuses (n :: parent) = true
  · simp only [hrefuses, if_true]
    rfl
  · simp only [hrefuses]
    rfl

/-- Where nothing is missing, or something else stands in the way, the tree stays as it is. -/
theorem makeAll_of_none {segs : List (Seg Name)} (h : t.firstMissing place done segs = none) :
    (makeAll kernel place t done segs).2 = t := by
  induction segs generalizing done with
  | nil => rfl
  | cons seg segs ih =>
    rw [firstMissing] at h
    rw [makeAll]
    split
    · rename_i hdir
      rw [if_pos hdir] at h
      exact ih h
    · rename_i hdir
      rw [if_neg hdir] at h
      split
      · rename_i made hmkdir
        obtain ⟨links, n, parent, -, rfl, hdone, hfree, -⟩ := of_mkdir_ok hmkdir
        rw [freeAt_eq_some_iff.mpr ⟨links, n, parent, rfl, hdone, hfree, rfl⟩] at h
        cases h
      · rfl

/-- When all directories are made, the path leads to one. -/
theorem dirAt_of_makeAll {segs : List (Seg Name)} (hdone : segs = [] → (t.dirAt place done).isSome = true)
    (h : (makeAll kernel place t done segs).1 = .ok ()) :
    ((makeAll kernel place t done segs).2.dirAt place (done ++ segs)).isSome = true := by
  induction segs generalizing t done with
  | nil =>
    rw [List.append_nil]
    exact hdone rfl
  | cons seg segs ih =>
    rw [makeAll] at h ⊢
    split at h
    · rename_i hdir
      rw [if_pos hdir]
      simpa using ih (fun _ => hdir) h
    · rename_i hdir
      rw [if_neg hdir]
      split at h
      · rename_i made hmkdir
        obtain ⟨links, n, parent, hparent, rfl, hdone, hfree, rfl⟩ := of_mkdir_ok hmkdir
        simpa using ih (fun _ => by rw [dirAt_withDir hdone hparent hfree]; rfl) h
      · cases h

/-- Where all directories are there, none is made. -/
theorem makeAll_of_dirAt {segs : List (Seg Name)} {r : Nat × List Name} (h : t.dirAt place (done ++ segs) = some r) :
    makeAll kernel place t done segs = (.ok (), t) := by
  induction segs generalizing done with
  | nil => rfl
  | cons seg segs ih =>
    have hsplit : done ++ seg :: segs = (done ++ [seg]) ++ segs := by simp
    rw [hsplit] at h
    obtain ⟨s, hs, -⟩ := dirAt_of_append h
    rw [makeAll_of_dir (by rw [hs]; rfl)]
    exact ih h

/-- What is missing first, and what comes before it. -/
theorem of_firstMissing {segs : List (Seg Name)} {first : List Name} (h : t.firstMissing place done segs = some (first, rest)) :
    ∃ front n parent links, segs = front ++ .name n :: rest ∧ first = n :: parent ∧
      t.dirAt place (done ++ front) = some (links, parent) ∧ t.entry (n :: parent) = none ∧
      ∀ kernel, makeAll kernel place t done segs = makeAll kernel place t (done ++ front) (.name n :: rest) := by
  induction segs generalizing done with
  | nil => cases h
  | cons seg segs ih =>
    rw [firstMissing] at h
    split at h
    · rename_i hdir
      obtain ⟨front, n, parent, links, rfl, hfirst, hdone, hfree, hmake⟩ := ih h
      refine ⟨seg :: front, n, parent, links, rfl, hfirst, ?_, hfree, fun kernel => ?_⟩
      · rw [← hdone, List.append_assoc]
        rfl
      · rw [makeAll_of_dir hdir, hmake kernel, List.append_assoc]
        rfl
    · obtain ⟨first', hfirst, heq⟩ := Option.map_eq_some_iff.mp h
      obtain ⟨links, n, parent, rfl, hdone, hfree, rfl⟩ := freeAt_eq_some_iff.mp hfirst
      cases heq
      exact ⟨[], n, parent, links, rfl, rfl, by rw [List.append_nil]; exact hdone, hfree, fun kernel => by
        rw [List.append_nil]⟩

/-- What becomes of a way of names none of which is there yet. -/
structure Grown (kernel : Kernel Name) (place : List Name) (t : DirTree Name) (done : List (Seg Name)) (links : Nat)
    (from_ : List Name) (names : List Name) (outcome : Except Errno Unit) (t' : DirTree Name) : Prop where
  grows : t.Extends t'
  changed : ∀ p, t'.entry p ≠ t.entry p → p ∈ below from_ names
  dirs : ∀ p, t'.entry p ≠ t.entry p → t'.entry p = some .dir
  made : (∀ p ∈ below from_ names, kernel.refuses p = false) →
    outcome = .ok () ∧ t'.dirAt place (done ++ names.map .name) = some (links, names.reverse ++ from_)
  stopped : ∀ p ∈ below from_ names, kernel.refuses p = true → outcome = .error .refused

theorem makeAll_names (kernel : Kernel Name) {links : Nat} {from_ : List Name} (hdone : t.dirAt place done = some (links, from_))
    (hfree : ∀ n, t.entry (n :: from_) = none) (names : List Name) :
    Grown kernel place t done links from_ names (makeAll kernel place t done (names.map .name)).1
      (makeAll kernel place t done (names.map .name)).2 := by
  induction names generalizing t done from_ with
  | nil =>
    refine ⟨Extends.refl t, fun p h => absurd rfl h, fun p h => absurd rfl h, fun _ => ⟨rfl, ?_⟩,
      fun p h => absurd h List.not_mem_nil⟩
    rw [List.map_nil, List.append_nil]
    exact hdone
  | cons n names ih =>
    have hparent := (dirAt_eq_some_iff.mp hdone).2
    rw [List.map_cons, makeAll_of_free hdone hparent (hfree n)]
    by_cases hrefuses : kernel.refuses (n :: from_) = true
    · rw [if_pos hrefuses]
      refine ⟨Extends.refl t, fun p h => absurd rfl h, fun p h => absurd rfl h, fun hnone => ?_, fun _ _ _ => rfl⟩
      rw [hnone _ List.mem_cons_self] at hrefuses
      cases hrefuses
    · rw [if_neg hrefuses]
      have hgrown := ih (dirAt_withDir hdone hparent (hfree n)) (free_withDir hparent (hfree n))
      refine ⟨(extends_withDir hparent (hfree n)).trans hgrown.grows, fun p h => ?_, fun p h => ?_, fun hnone => ?_,
        fun p hp hr => ?_⟩
      · by_cases hp : p = n :: from_
        · exact hp ▸ List.mem_cons_self
        · rw [← entry_withDir_of_ne hparent hp] at h
          exact List.mem_cons_of_mem _ (hgrown.changed p h)
      · by_cases hp : p = n :: from_
        · exact hp ▸ hgrown.grows _ _ (entry_withDir_self hparent)
        · rw [← entry_withDir_of_ne hparent hp] at h
          exact hgrown.dirs p h
      · obtain ⟨hok, hdir⟩ := hgrown.made fun p hp => hnone p (List.mem_cons_of_mem _ hp)
        refine ⟨hok, ?_⟩
        rw [List.map_cons, List.reverse_cons, List.append_assoc, List.singleton_append, ← hdir, List.append_assoc]
        rfl
      · rcases List.mem_cons.mp hp with rfl | hp
        · exact absurd hr hrefuses
        · exact hgrown.stopped p hp hr

end DirTree

theorem suffix_of_mem_below {place found : List Name} {names : List Name} (h : found ∈ below place names) :
    place <:+ found := by
  induction names generalizing place with
  | nil => cases h
  | cons n names ih =>
    rcases List.mem_cons.mp h with rfl | h
    · exact List.suffix_cons n place
    · exact (List.suffix_cons n place).trans (ih h)

end FiveSpot.FileTree
