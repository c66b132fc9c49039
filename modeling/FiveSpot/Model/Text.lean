import Mathlib.Algebra.Group.Int.Defs
import Mathlib.Algebra.Group.Nat.Defs
import Mathlib.Data.List.Basic

/-! # Text operations of the Rust standard library

Strings are read as their lists of characters. Byte offsets never matter below: every
split happens at an ASCII character.
-/

namespace FiveSpot.Text

set_option autoImplicit false

/-- The Unicode White_Space property, which `str::trim` uses. -/
def isWhitespace (c : Char) : Bool :=
  let n := c.toNat
  (9 ≤ n && n ≤ 13) || n == 32 || n == 0x85 || n == 0xA0 || n == 0x1680 ||
    (0x2000 ≤ n && n ≤ 0x200A) || n == 0x2028 || n == 0x2029 || n == 0x202F || n == 0x205F || n == 0x3000

def trimList (cs : List Char) : List Char :=
  ((cs.dropWhile isWhitespace).reverse.dropWhile isWhitespace).reverse

def trim (s : String) : String := String.ofList (trimList s.toList)

def isAscii (s : String) : Bool := s.toList.all fun c => decide (c.toNat < 128)

def isAsciiAlphanumeric (c : Char) : Bool :=
  ('a' ≤ c && c ≤ 'z') || ('A' ≤ c && c ≤ 'Z') || ('0' ≤ c && c ≤ '9')

def startsWith (s pre : String) : Bool := pre.toList.isPrefixOf s.toList

def endsWith (s suf : String) : Bool := suf.toList.isSuffixOf s.toList

def splitOnceList (sep : Char) : List Char → Option (List Char × List Char)
  | [] => none
  | c :: cs => if c = sep then some ([], cs) else (splitOnceList sep cs).map fun p => (c :: p.1, p.2)

def splitOnce (sep : Char) (s : String) : Option (String × String) :=
  (splitOnceList sep s.toList).map fun p => (String.ofList p.1, String.ofList p.2)

def rsplitOnce (sep : Char) (s : String) : Option (String × String) :=
  (splitOnceList sep s.toList.reverse).map fun p => (String.ofList p.2.reverse, String.ofList p.1.reverse)

/-- All the parts between occurrences of `sep`, at least one. -/
def splitList (sep : Char) : List Char → List (List Char)
  | [] => [[]]
  | c :: cs => match splitList sep cs with
    | [] => [[c]]
    | part :: parts => if c = sep then [] :: part :: parts else (c :: part) :: parts

def split (sep : Char) (s : String) : List String := (splitList sep s.toList).map String.ofList

theorem startsWith_iff {s pre : String} : startsWith s pre = true ↔ ∃ rest, s.toList = pre.toList ++ rest := by
  rw [startsWith, List.isPrefixOf_iff_prefix]
  exact ⟨fun ⟨rest, h⟩ => ⟨rest, h.symm⟩, fun ⟨rest, h⟩ => ⟨rest, h.symm⟩⟩

theorem endsWith_iff {s suf : String} : endsWith s suf = true ↔ suf.toList <:+ s.toList := List.isSuffixOf_iff_suffix

theorem splitList_eq_splitOn (sep : Char) (cs : List Char) : splitList sep cs = cs.splitOn sep := by
  induction cs with
  | nil => rfl
  | cons c cs ih =>
    rw [List.splitOn_cons_eq_if_modifyHead, splitList, ih]
    obtain ⟨part, parts, hparts⟩ := List.exists_cons_of_ne_nil (List.splitOn_ne_nil sep cs)
    rw [hparts]
    simp only [beq_iff_eq, List.modifyHead_cons]

theorem not_mem_of_mem_splitList {sep : Char} {cs part : List Char} (h : part ∈ splitList sep cs) : sep ∉ part := by
  induction cs generalizing part with
  | nil =>
    rw [List.mem_singleton.mp h]
    exact List.not_mem_nil
  | cons c cs ih =>
    rw [splitList] at h
    split at h
    · rename_i hnil
      rw [splitList_eq_splitOn] at hnil
      exact absurd hnil (List.splitOn_ne_nil sep cs)
    · rename_i first rest hparts
      rw [hparts] at ih
      split at h
      · rcases List.mem_cons.mp h with rfl | hmem
        · exact List.not_mem_nil
        · exact ih hmem
      · rename_i hc
        rcases List.mem_cons.mp h with rfl | hmem
        · rw [List.mem_cons, not_or]
          exact ⟨Ne.symm hc, ih List.mem_cons_self⟩
        · exact ih (List.mem_cons_of_mem first hmem)

theorem splitList_eq_pair_iff {sep : Char} {cs l r : List Char} :
    splitList sep cs = [l, r] ↔ cs = l ++ sep :: r ∧ sep ∉ l ∧ sep ∉ r := by
  constructor
  · intro h
    have hcs : [sep].intercalate (cs.splitOn sep) = cs := List.intercalate_splitOn sep
    rw [← splitList_eq_splitOn, h] at hcs
    have hl : l ∈ splitList sep cs := h ▸ List.mem_cons_self
    have hr : r ∈ splitList sep cs := h ▸ List.mem_cons_of_mem l List.mem_cons_self
    refine ⟨?_, not_mem_of_mem_splitList hl, not_mem_of_mem_splitList hr⟩
    rw [← hcs]
    simp [List.intercalate]
  · rintro ⟨rfl, hl, hr⟩
    rw [splitList_eq_splitOn, List.splitOn_append_cons_self_of_not_mem hl, List.splitOn_eq_singleton hr]

theorem split_eq_pair_iff {sep : Char} {s first second : String} :
    split sep s = [first, second] ↔
      s.toList = first.toList ++ sep :: second.toList ∧ sep ∉ first.toList ∧ sep ∉ second.toList := by
  rw [← splitList_eq_pair_iff, split]
  constructor
  · intro h
    have hlists := congrArg (List.map String.toList) h
    simpa [Function.comp_def] using hlists
  · intro h
    rw [h]
    simp

theorem splitOnceList_eq_none {sep : Char} {cs : List Char} : splitOnceList sep cs = none ↔ sep ∉ cs := by
  induction cs with
  | nil => simp [splitOnceList]
  | cons c cs ih =>
    rw [splitOnceList, List.mem_cons, not_or, ← ih]
    split
    · rename_i hc
      simp [hc]
    · rename_i hc
      simp [Ne.symm hc]

theorem splitOnceList_append {sep : Char} {l : List Char} (hl : sep ∉ l) (r : List Char) :
    splitOnceList sep (l ++ sep :: r) = some (l, r) := by
  induction l with
  | nil => simp [splitOnceList]
  | cons c cs ih =>
    rw [List.mem_cons, not_or] at hl
    simp [splitOnceList, Ne.symm hl.1, ih hl.2]

theorem not_mem_of_splitOnceList {sep : Char} {cs l r : List Char}
    (h : splitOnceList sep cs = some (l, r)) : sep ∉ l := by
  induction cs generalizing l with
  | nil => simp [splitOnceList] at h
  | cons c cs ih =>
    simp only [splitOnceList] at h
    split at h
    · cases h
      exact List.not_mem_nil
    · rename_i hc
      obtain ⟨⟨l', r'⟩, hsplit, heq⟩ := Option.map_eq_some_iff.mp h
      cases heq
      rw [List.mem_cons, not_or]
      exact ⟨Ne.symm hc, ih hsplit⟩

theorem eq_append_of_splitOnceList {sep : Char} {cs l r : List Char}
    (h : splitOnceList sep cs = some (l, r)) : cs = l ++ sep :: r := by
  induction cs generalizing l with
  | nil => cases h
  | cons c cs ih =>
    rw [splitOnceList] at h
    split at h
    · rename_i hc
      cases h
      rw [hc, List.nil_append]
    · obtain ⟨⟨l', r'⟩, hsplit, heq⟩ := Option.map_eq_some_iff.mp h
      cases heq
      rw [ih hsplit, List.cons_append]

theorem splitOnce_of_startsWith {sep : Char} {s pre : String} (hpre : sep ∉ pre.toList)
    (h : startsWith s (pre ++ sep.toString) = true) : ∃ rest, splitOnce sep s = some (pre, rest) := by
  obtain ⟨rest, hs⟩ := startsWith_iff.mp h
  have hlist : s.toList = pre.toList ++ sep :: rest := by
    rw [hs]
    simp [Char.toString]
  refine ⟨String.ofList rest, ?_⟩
  rw [splitOnce, hlist, splitOnceList_append hpre, Option.map_some, String.ofList_toList]

theorem rsplitOnce_append {sep : Char} {g v : String} (hv : sep ∉ v.toList) :
    rsplitOnce sep (g ++ sep.toString ++ v) = some (g, v) := by
  have hlist : (g ++ sep.toString ++ v).toList.reverse = v.toList.reverse ++ sep :: g.toList.reverse := by
    simp [String.toList_append, Char.toString]
  rw [rsplitOnce, hlist, splitOnceList_append (by simpa using hv)]
  simp

theorem not_mem_of_rsplitOnce {sep : Char} {s g v : String} (h : rsplitOnce sep s = some (g, v)) :
    sep ∉ v.toList := by
  obtain ⟨⟨l, r⟩, hsplit, heq⟩ := Option.map_eq_some_iff.mp h
  cases heq
  simpa using not_mem_of_splitOnceList hsplit

theorem utf8Size_of_isAscii {s : String} (hs : isAscii s = true) {c : Char} (hc : c ∈ s.toList) : c.utf8Size = 1 := by
  have hlt : c.toNat < 128 := of_decide_eq_true (List.all_eq_true.mp hs c hc)
  rw [Char.utf8Size_eq_one_iff, UInt32.le_iff_toNat_le]
  exact Nat.le_of_lt_succ hlt

/-- Bytes and code points are the same of an ASCII text. -/
theorem utf8ByteSize_of_isAscii {s : String} (hs : isAscii s = true) : s.utf8ByteSize = s.length := by
  have hsize : ∀ c ∈ s.toList, c.utf8Size = 1 := fun c hc => utf8Size_of_isAscii hs hc
  clear hs
  obtain ⟨cs, rfl⟩ : ∃ cs, s = String.ofList cs := ⟨s.toList, (String.ofList_toList).symm⟩
  rw [String.toList_ofList] at hsize
  induction cs with
  | nil => rfl
  | cons c cs ih =>
    obtain ⟨hc, hcs⟩ := List.forall_mem_cons.mp hsize
    have hcons : String.ofList (c :: cs) = String.singleton c ++ String.ofList cs := by
      rw [← String.toList_inj]
      simp
    rw [hcons, String.utf8ByteSize_append, String.utf8ByteSize_singleton, hc, ih hcs]
    simp [Nat.add_comm]

theorem eq_append_of_rsplitOnce {sep : Char} {s g v : String} (h : rsplitOnce sep s = some (g, v)) :
    s.toList = g.toList ++ sep :: v.toList := by
  obtain ⟨⟨l, r⟩, hsplit, heq⟩ := Option.map_eq_some_iff.mp h
  cases heq
  rw [← List.reverse_inj, eq_append_of_splitOnceList hsplit]
  simp

def digit (c : Char) : Option Nat :=
  if '0' ≤ c ∧ c ≤ '9' then some (c.toNat - '0'.toNat) else none

def parseDigits : List Char → Nat → Option Nat
  | [], acc => some acc
  | c :: cs, acc => (digit c).bind fun d => parseDigits cs (10 * acc + d)

/-- `str::parse` for an unsigned type of the given width: an optional `+`, at least one
decimal digit, nothing else, and a value that fits. -/
def parseUnsigned (width : Nat) (s : String) : Option Nat :=
  let body := match s.toList with
    | '+' :: cs => cs
    | cs => cs
  match body with
  | [] => none
  | _ => (parseDigits body 0).filter fun n => decide (n < 2 ^ width)

/-- Debug formatting `{:?}` of a string, for texts made of printable characters. -/
def quoted (s : String) : String := "\"" ++ s ++ "\""

def hexDigit (n : Nat) : Char := "0123456789abcdef".toList.getD n '0'

/-- One character of a JSON string, escaped as `serde_json` does it. -/
def jsonChar (c : Char) : List Char :=
  if c = '"' then ['\\', '"']
  else if c = '\\' then ['\\', '\\']
  else if c.toNat = 8 then ['\\', 'b']
  else if c.toNat = 9 then ['\\', 't']
  else if c.toNat = 10 then ['\\', 'n']
  else if c.toNat = 12 then ['\\', 'f']
  else if c.toNat = 13 then ['\\', 'r']
  else if c.toNat < 32 then ['\\', 'u', '0', '0', hexDigit (c.toNat / 16), hexDigit (c.toNat % 16)]
  else [c]

def jsonString (s : String) : String := String.ofList ('"' :: s.toList.flatMap jsonChar ++ ['"'])

/-- What `str::to_lowercase` does. The Unicode tables are the standard library's; on ASCII
text it is the ASCII mapping. -/
structure Lowercase where
  apply : String → String
  ascii : ∀ s, isAscii s = true → apply s = String.ofList (s.toList.map Char.toLower)

/-- The lowercase map restricted to ASCII letters, as a concrete instance. -/
def Lowercase.asciiOnly : Lowercase where
  apply s := String.ofList (s.toList.map Char.toLower)
  ascii _ _ := rfl

end FiveSpot.Text
