import FiveSpot.Model.Text
import Mathlib.Data.List.Basic
import Mathlib.Data.List.DropRight

/-! # Lines and words of a text

`str::lines` and `str::split_whitespace`, and texts that are written line by line.
-/

namespace FiveSpot.Text

set_option autoImplicit false

def stripCarriageReturn (line : List Char) : List Char :=
  if line.getLast? = some '\r' then line.dropLast else line

/-- The last part is a line of its own unless it is empty, and it keeps a carriage return. -/
def closeLines : List (List Char) → List (List Char)
  | [] => []
  | [last] => if last = [] then [] else [last]
  | part :: part' :: parts => stripCarriageReturn part :: closeLines (part' :: parts)

def lines (cs : List Char) : List (List Char) := closeLines (cs.splitOn '\n')

def splitWhitespace (cs : List Char) : List (List Char) := (cs.splitOnP isWhitespace).filter (· ≠ [])

def isBlank (cs : List Char) : Bool := cs.all isWhitespace

def isWord (cs : List Char) : Bool := !cs.isEmpty && cs.all fun c => !isWhitespace c

variable {gap word cs : List Char}

/-! ## Trimming -/

section

variable {pre post word' : List Char}

theorem dropWhile_append_word (hpre : isBlank pre = true) (hword : isWord word = true) :
    (pre ++ (word ++ cs)).dropWhile isWhitespace = word ++ cs := by
  induction pre with
  | nil =>
    cases word with
    | nil => cases hword
    | cons c word =>
      have hc : isWhitespace c = false := by simp_all [isWord]
      rw [List.nil_append, List.cons_append, List.dropWhile_cons_of_neg (by simp [hc])]
  | cons b pre ih =>
    rw [isBlank, List.all_cons, Bool.and_eq_true] at hpre
    rw [List.cons_append, List.dropWhile_cons_of_pos hpre.1, ih hpre.2]

theorem isBlank_reverse : isBlank cs.reverse = isBlank cs := List.all_reverse

theorem isWord_reverse : isWord cs.reverse = isWord cs := by
  rw [isWord, isWord, List.all_reverse, List.isEmpty_reverse]

theorem dropWhile_of_initial {p : Char → Bool} {l m : List Char} (hinitial : l <+: m) (hm : m.dropWhile p = m) :
    l.dropWhile p = l := by
  cases l with
  | nil => rfl
  | cons c l =>
    obtain ⟨r, rfl⟩ := hinitial
    rw [List.dropWhile_cons]
    split
    · rename_i hc
      rw [List.cons_append, List.dropWhile_cons, if_pos hc] at hm
      have hlength := congrArg List.length hm
      have hle := (List.dropWhile_sublist p (l := l ++ r)).length_le
      rw [List.length_cons] at hlength
      omega
    · rfl

theorem trim_trim (s : String) : trim (trim s) = trim s := by
  have hlist : trimList (trimList s.toList) = trimList s.toList := by
    change ((s.toList.dropWhile isWhitespace).rdropWhile isWhitespace |>.dropWhile isWhitespace).rdropWhile
      isWhitespace = (s.toList.dropWhile isWhitespace).rdropWhile isWhitespace
    rw [dropWhile_of_initial (List.rdropWhile_prefix _ _) (List.dropWhile_idempotent _ _), List.rdropWhile_idempotent]
  rw [trim, trim, String.toList_ofList, hlist]

theorem trimList_append (hpre : isBlank pre = true) (hpost : isBlank post = true) (hword : isWord word = true)
    (hword' : isWord word' = true) : trimList (pre ++ (word ++ gap ++ word') ++ post) = word ++ gap ++ word' := by
  have hleft : (pre ++ (word ++ gap ++ word') ++ post).dropWhile isWhitespace = word ++ (gap ++ (word' ++ post)) := by
    simp only [List.append_assoc]
    exact dropWhile_append_word hpre hword
  have hreverse : (word ++ (gap ++ (word' ++ post))).reverse =
      post.reverse ++ (word'.reverse ++ (gap.reverse ++ word.reverse)) := by
    simp only [List.reverse_append, List.append_assoc]
  rw [← isBlank_reverse] at hpost
  rw [← isWord_reverse] at hword'
  rw [trimList, hleft, hreverse, dropWhile_append_word hpost hword']
  simp only [List.reverse_append, List.reverse_reverse, List.append_assoc]

theorem trimList_concat {c : Char} (hc : isWhitespace c = true) : trimList (cs ++ [c]) = trimList cs := by
  rw [trimList, trimList, List.dropWhile_append]
  split
  · rename_i hempty
    rw [List.isEmpty_iff.mp hempty, List.dropWhile_cons_of_pos hc, List.dropWhile_nil]
  · rw [List.reverse_append, List.reverse_singleton, List.singleton_append, List.dropWhile_cons_of_pos hc]

theorem trimList_stripCarriageReturn : trimList (stripCarriageReturn cs) = trimList cs := by
  unfold stripCarriageReturn
  split
  · rename_i hlast
    obtain ⟨init, rfl⟩ := List.getLast?_eq_some_iff.mp hlast
    rw [List.dropLast_concat, trimList_concat (by decide)]
  · rfl

end

/-! ## Words -/

theorem splitWhitespace_blank_append (hgap : isBlank gap = true) :
    splitWhitespace (gap ++ cs) = splitWhitespace cs := by
  induction gap with
  | nil => rfl
  | cons c gap ih =>
    rw [isBlank, List.all_cons, Bool.and_eq_true] at hgap
    have hsplit : (c :: (gap ++ cs)).splitOnP isWhitespace = [] :: (gap ++ cs).splitOnP isWhitespace :=
      List.splitOnP_append_cons [] (gap ++ cs) hgap.1
    rw [← ih hgap.2, List.cons_append, splitWhitespace, hsplit]
    rfl

theorem splitWhitespace_word (hword : isWord word = true) : splitWhitespace word = [word] := by
  rw [isWord, Bool.and_eq_true] at hword
  rw [splitWhitespace, List.splitOnP_eq_singleton (by simpa using hword.2)]
  simpa using hword.1

theorem splitWhitespace_word_append (hword : isWord word = true) (hgap : isBlank gap = true) (hne : gap ≠ []) :
    splitWhitespace (word ++ gap ++ cs) = word :: splitWhitespace cs := by
  cases gap with
  | nil => exact absurd rfl hne
  | cons c gap =>
    rw [isBlank, List.all_cons, Bool.and_eq_true] at hgap
    have hsplit : (word ++ c :: (gap ++ cs)).splitOnP isWhitespace =
        word.splitOnP isWhitespace ++ (gap ++ cs).splitOnP isWhitespace :=
      List.splitOnP_append_cons word (gap ++ cs) hgap.1
    have hhead : (word.splitOnP isWhitespace).filter (· ≠ []) = [word] := splitWhitespace_word hword
    rw [List.append_assoc, List.cons_append, splitWhitespace, hsplit, List.filter_append, hhead, List.singleton_append]
    exact congrArg (word :: ·) (splitWhitespace_blank_append hgap.2)

/-! ## Lines -/

/-- For a reader that looks at a line without the blanks around it, line ends are just separators. -/
theorem filterMap_lines {α : Type} {read : List Char → Option α} (hread : read [] = none)
    (htrim : ∀ line, read (stripCarriageReturn line) = read line) :
    (lines cs).filterMap read = (cs.splitOn '\n').filterMap read := by
  have hclose : ∀ parts, (closeLines parts).filterMap read = parts.filterMap read := by
    intro parts
    fun_induction closeLines parts with
    | case1 => rfl
    | case2 => simp [hread]
    | case3 last hne => rfl
    | case4 part part' parts ih => rw [List.filterMap_cons, htrim, ih, List.filterMap_cons (a := part)]
  exact hclose _

/-- A text of the given lines. The last one may end without a line break. -/
def unlines (parts : List (List Char)) (finalNewline : Bool) : List Char :=
  ['\n'].intercalate (if finalNewline then parts ++ [[]] else parts)

theorem filterMap_lines_unlines {α : Type} {read : List Char → Option α} {parts : List (List Char)}
    {finalNewline : Bool} (hread : read [] = none) (htrim : ∀ line, read (stripCarriageReturn line) = read line)
    (hparts : ∀ part ∈ parts, '\n' ∉ part) :
    (lines (unlines parts finalNewline)).filterMap read = parts.filterMap read := by
  rw [filterMap_lines hread htrim, unlines]
  cases finalNewline with
  | true =>
    rw [if_pos rfl, List.splitOn_intercalate '\n' _ (by simp), List.filterMap_append]
    · simp [hread]
    · intro part hpart
      rcases List.mem_append.mp hpart with hpart | hpart
      · exact hparts part hpart
      · rw [List.mem_singleton.mp hpart]
        exact List.not_mem_nil
  | false =>
    rw [if_neg Bool.false_ne_true]
    cases parts with
    | nil => simp [hread]
    | cons part parts => rw [List.splitOn_intercalate '\n' hparts (by simp)]

/-- A suffix without separators is a suffix of the last part. -/
theorem suffix_of_splitList_eq {sep : Char} {cs suf last : List Char} {init : List (List Char)}
    (hparts : splitList sep cs = init ++ [last]) (hsuf : suf <:+ cs) (hsep : sep ∉ suf) : suf <:+ last := by
  induction cs generalizing init with
  | nil =>
    rw [List.suffix_nil.mp hsuf]
    exact List.nil_suffix
  | cons c cs ih =>
    rw [splitList] at hparts
    split at hparts
    · rename_i hnil
      rw [splitList_eq_splitOn] at hnil
      exact absurd hnil (List.splitOn_ne_nil sep cs)
    · rename_i part parts hrest
      have hmem : suf = c :: cs ∨ suf <:+ cs := List.suffix_cons_iff.mp hsuf
      split at hparts
      · rename_i hc
        rcases hmem with rfl | hsuf
        · exact absurd (hc ▸ List.mem_cons_self) hsep
        · cases init with
          | nil => simp at hparts
          | cons first init => exact ih (hrest.trans (List.cons.inj hparts).2) hsuf
      · cases init with
        | nil =>
          obtain ⟨rfl, rfl⟩ := List.cons.inj hparts
          rw [splitList_eq_splitOn] at hrest
          have hcs : cs = part := by
            have hjoin : [sep].intercalate (cs.splitOn sep) = cs := List.intercalate_splitOn sep
            rw [← hjoin, hrest]
            simp
          rw [← hcs]
          exact hsuf
        | cons first init =>
          obtain ⟨-, hparts⟩ := List.cons.inj hparts
          rcases hmem with rfl | hsuf
          · rw [splitList_eq_splitOn, List.splitOn_eq_singleton (fun h => hsep (List.mem_cons_of_mem _ h))] at hrest
            rw [(List.cons.inj hrest).2.symm] at hparts
            simp at hparts
          · have hrest' : splitList sep cs = (part :: init) ++ [last] := by
              rw [hrest, hparts]
              rfl
            exact ih hrest' hsuf

end FiveSpot.Text
