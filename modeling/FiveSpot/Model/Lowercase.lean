import FiveSpot.Model.Text

/-! # Lower-casing by character

`str::to_lowercase` replaces every character by one or more. Only a capital sigma looks at its surroundings.
-/

namespace FiveSpot.Text

set_option autoImplicit false

/-! ## Replacing every element -/

section

variable {α β : Type}

/-- Replaces every element, given what stands before and after it. -/
def mapInPlace (f : List α → α → List α → List β) (before : List α) : List α → List β
  | [] => []
  | a :: after => f before a after ++ mapInPlace f (before ++ [a]) after

variable {f : List α → α → List α → List β} {g : α → β} {before l : List α}

theorem mapInPlace_eq_map (h : ∀ pre, ∀ a ∈ l, ∀ post, f pre a post = [g a]) : mapInPlace f before l = l.map g := by
  induction l generalizing before with
  | nil => rfl
  | cons a after ih =>
    rw [mapInPlace, h before a List.mem_cons_self after, ih fun pre a' ha' => h pre a' (List.mem_cons_of_mem _ ha')]
    rfl

/-- Nothing is replaced by nothing, so the text does not get shorter. -/
theorem length_le_mapInPlace (hf : ∀ pre a post, f pre a post ≠ []) (before l : List α) :
    l.length ≤ (mapInPlace f before l).length := by
  induction l generalizing before with
  | nil => exact Nat.le_refl 0
  | cons a after ih =>
    have hhead := List.length_pos_iff.mpr (hf before a after)
    have htail := ih (before ++ [a])
    rw [mapInPlace, List.length_append, List.length_cons]
    omega

theorem mapInPlace_eq_map_iff (hf : ∀ pre a post, f pre a post ≠ [])
    (hplain : ∀ pre a post pre' post', f pre a post = [g a] → f pre' a post' = [g a]) :
    mapInPlace f before l = l.map g ↔ ∀ pre, ∀ a ∈ l, ∀ post, f pre a post = [g a] := by
  refine ⟨fun h => ?_, mapInPlace_eq_map⟩
  induction l generalizing before with
  | nil => exact fun _ _ ha => nomatch ha
  | cons a after ih =>
    rw [mapInPlace, List.map_cons] at h
    have hlength := congrArg List.length h
    have htail := length_le_mapInPlace hf (before ++ [a]) after
    have hhead := List.length_pos_iff.mpr (hf before a after)
    rw [List.length_append, List.length_cons, List.length_map] at hlength
    obtain ⟨b, hb⟩ := List.length_eq_one_iff.mp (show (f before a after).length = 1 by omega)
    rw [hb] at h
    obtain ⟨rfl, hrest⟩ := List.cons.inj h
    rintro pre a' (_ | ⟨_, ha'⟩) post
    · exact hplain before a after pre post hb
    · exact ih hrest pre a' ha' post

end

/-! ## The table -/

def capitalSigma : Char := Char.ofNat 0x3A3

def smallSigma : Char := Char.ofNat 0x3C3

def finalSigma : Char := Char.ofNat 0x3C2

/-- The lowercase mapping of characters, and whether a sigma between two texts ends a word. -/
structure LowercaseTable where
  mapping : Char → List Char
  endsWord : List Char → List Char → Bool
  ascii : ∀ c, c.toNat < 128 → mapping c = [c.toLower]
  nonempty : ∀ c, mapping c ≠ []
  sigma : mapping capitalSigma = [smallSigma]

theorem toLower_of_not_ascii {c : Char} (hc : 128 ≤ c.toNat) : c.toLower = c := by
  unfold Char.toLower
  split
  · rename_i hupper
    have hle : c.toNat ≤ 90 := hupper.2
    omega
  · rfl

namespace LowercaseTable

variable (table : LowercaseTable)

def lowerAt (before : List Char) (c : Char) (after : List Char) : List Char :=
  if c = capitalSigma ∧ table.endsWord before after = true then [finalSigma] else table.mapping c

/-- `str::to_lowercase` -/
def toLowercase (s : String) : String := String.ofList (mapInPlace table.lowerAt [] s.toList)

/-- No character beyond ASCII has another lowercase. -/
def Unfolded (s : String) : Prop := ∀ c ∈ s.toList, 128 ≤ c.toNat → table.mapping c = [c]

theorem lowerAt_ne_nil (before : List Char) (c : Char) (after : List Char) : table.lowerAt before c after ≠ [] := by
  unfold lowerAt
  split
  · exact List.cons_ne_nil _ _
  · exact table.nonempty c

/-- A capital sigma becomes another letter wherever it stands. -/
theorem lowerAt_eq_toLower_iff {before after : List Char} {c : Char} :
    table.lowerAt before c after = [c.toLower] ↔ table.mapping c = [c.toLower] := by
  unfold lowerAt
  split
  · rename_i hsigma
    rw [hsigma.1, table.sigma]
    decide
  · exact Iff.rfl

theorem unfolded_iff {s : String} : table.Unfolded s ↔ ∀ c ∈ s.toList, table.mapping c = [c.toLower] := by
  refine forall₂_congr fun c _ => ⟨fun h => ?_, fun h hc => ?_⟩
  · by_cases hc : c.toNat < 128
    · exact table.ascii c hc
    · rw [h (Nat.not_lt.mp hc), toLower_of_not_ascii (Nat.not_lt.mp hc)]
  · rw [h, toLower_of_not_ascii hc]

theorem unfolded_of_isAscii {s : String} (hs : isAscii s = true) : table.Unfolded s := by
  intro c hc hlarge
  have hsmall := of_decide_eq_true (List.all_eq_true.mp hs c hc)
  omega

theorem toLowercase_eq_iff {s : String} :
    table.toLowercase s = String.ofList (s.toList.map Char.toLower) ↔ table.Unfolded s := by
  rw [toLowercase, String.ofList_inj, mapInPlace_eq_map_iff table.lowerAt_ne_nil, unfolded_iff]
  · simp only [lowerAt_eq_toLower_iff]
    exact ⟨fun h c hc => h [] c hc [], fun h _ c hc _ => h c hc⟩
  · intro pre c post pre' post' h
    exact table.lowerAt_eq_toLower_iff.mpr (table.lowerAt_eq_toLower_iff.mp h)

def lowercase : Lowercase where
  apply := table.toLowercase
  ascii _ hs := table.toLowercase_eq_iff.mpr (table.unfolded_of_isAscii hs)

end LowercaseTable

end FiveSpot.Text
