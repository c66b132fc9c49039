import FiveSpot.Helpers.TaintValidation
import FiveSpot.Model.Patterns

/-! # The grammar of a taint

What the byte loops of the validation accept, in terms of framed words.
-/

namespace FiveSpot

set_option autoImplicit false

open Interaction Pattern

/-- `[a-zA-Z0-9]([-a-zA-Z0-9.]*[a-zA-Z0-9])?` of at most 63 characters -/
structure TaintName (cs : List Char) : Prop where
  framed : Framed alphanumeric ('-' :: '.' :: alphanumeric) cs
  short : cs.length ≤ taintNameMaxLen

structure TaintLabel (cs : List Char) : Prop where
  framed : Framed alphanumeric ('-' :: alphanumeric) cs
  short : cs.length ≤ taintNameMaxLen

structure TaintPrefixWord (cs : List Char) : Prop where
  labels : ∀ label ∈ cs.splitOn '.', TaintLabel label
  short : cs.length ≤ taintPrefixMaxLen

def ReservedKey (key : String) : Prop :=
  ∃ pre ∈ reservedTaintPrefixOwn :: reservedK8sTaintPrefixes, Text.startsWith key pre = true

/-- `[prefix/]name`, split at the first slash. -/
def TaintKeyWord (key : String) : Prop :=
  match Text.splitOnceList '/' key.toList with
  | some (pre, name) => TaintPrefixWord pre ∧ TaintName name
  | none => TaintName key.toList

section

variable {s key : String} {pre name : List Char}

theorem alphanumeric_subset_inner : ∀ c ∈ alphanumeric, c ∈ '-' :: '.' :: alphanumeric := by
  intro c hc
  simp [hc]

theorem isQualifiedName_iff : isQualifiedName s = true ↔ Framed alphanumeric ('-' :: '.' :: alphanumeric) s.toList := by
  have hsub := alphanumeric_subset_inner
  rw [isQualifiedName]
  cases s.toList with
  | nil => simp [not_framed_nil]
  | cons first rest =>
    rcases List.eq_nil_or_concat rest with rfl | ⟨middle, last, rfl⟩
    · rw [framed_singleton hsub, mem_alphanumeric]
    · rw [List.concat_eq_append, framed_cons_concat hsub]
      have hlast : (middle ++ [last]).getLast?.any Text.isAsciiAlphanumeric = Text.isAsciiAlphanumeric last := by
        rw [List.getLast?_concat, Option.any_some]
      have hmiddle : (middle ++ [last]).dropLast = middle := List.dropLast_concat
      have hne : middle ++ [last] ≠ [] := List.append_ne_nil_of_right_ne_nil middle (List.cons_ne_nil last [])
      obtain ⟨second, rest, hrest⟩ := List.exists_cons_of_ne_nil hne
      rw [hrest] at hlast hmiddle ⊢
      simp only [hlast, hmiddle, Bool.and_eq_true, List.all_eq_true, Bool.or_eq_true, beq_iff_eq, List.mem_cons,
        mem_alphanumeric, and_assoc]
      refine and_congr_right fun _ => and_congr_right fun _ => forall₂_congr fun c _ => ?_
      rw [or_assoc, or_comm, or_assoc]

/-- Accepted words are ASCII, so that their bytes are their characters. -/
theorem bytes_of_all (others : List Char) (hothers : (others.all fun c => decide (c.toNat < 128)) = true)
    (hall : ∀ c ∈ s.toList, c ∈ others ++ alphanumeric) : s.utf8ByteSize = s.toList.length := by
  rw [String.length_toList]
  apply Text.utf8ByteSize_of_isAscii
  rw [Text.isAscii, List.all_eq_true]
  intro c hc
  rw [decide_eq_true_eq]
  rcases List.mem_append.mp (hall c hc) with hc | hc
  · exact of_decide_eq_true (List.all_eq_true.mp hothers c hc)
  · exact ascii_of_mem_alphanumeric hc

theorem bytes_of_name (h : Framed alphanumeric ('-' :: '.' :: alphanumeric) s.toList) : s.utf8ByteSize = s.toList.length :=
  bytes_of_all ['-', '.'] (by decide) h.all

theorem bytes_of_label (hall : ∀ c ∈ s.toList, c ∈ '-' :: alphanumeric) : s.utf8ByteSize = s.toList.length :=
  bytes_of_all ['-'] (by decide) hall

theorem bytes_of_labels (hlabels : ∀ label ∈ s.toList.splitOn '.', TaintLabel label) : s.utf8ByteSize = s.toList.length := by
  refine bytes_of_all ['.', '-'] (by decide) fun c hc => ?_
  rcases eq_or_mem_of_splitOn '.' hc with rfl | ⟨label, hlabel, hc⟩
  · exact List.mem_cons_self
  · exact List.mem_cons_of_mem _ ((hlabels label hlabel).framed.all c hc)

theorem isDnsLabel_iff : isDnsLabel s = true ↔ TaintLabel s.toList := by
  rw [isDnsLabel]
  simp only [Bool.and_eq_true, decide_eq_true_eq, List.all_eq_true, Option.any_eq_true, Bool.or_eq_true, beq_iff_eq,
    ← mem_alphanumeric]
  constructor
  · rintro ⟨⟨⟨⟨-, hshort⟩, a, hfirst, ha⟩, b, hlast, hb⟩, hall⟩
    have hall' : ∀ c ∈ s.toList, c ∈ '-' :: alphanumeric := fun c hc => List.mem_cons.mpr (hall c hc).symm
    exact ⟨⟨⟨a, ha, hfirst⟩, ⟨b, hb, hlast⟩, hall'⟩, bytes_of_label hall' ▸ hshort⟩
  · rintro ⟨h, hshort⟩
    obtain ⟨a, ha, hfirst⟩ := h.first
    obtain ⟨b, hb, hlast⟩ := h.last
    refine ⟨⟨⟨⟨?_, (bytes_of_label h.all).symm ▸ hshort⟩, a, hfirst, ha⟩, b, hlast, hb⟩, ?_⟩
    · rw [Bool.not_eq_true', ← Bool.not_eq_true, String.isEmpty_iff]
      rintro rfl
      exact h.ne_nil rfl
    · intro c hc
      exact (List.mem_cons.mp (h.all c hc)).symm

theorem taintName_iff : TaintName s.toList ↔ s ≠ "" ∧ s.utf8ByteSize ≤ taintNameMaxLen ∧ isQualifiedName s = true := by
  rw [isQualifiedName_iff]
  constructor
  · intro h
    refine ⟨?_, ?_, h.framed⟩
    · rintro rfl
      exact h.framed.ne_nil rfl
    · rw [bytes_of_name h.framed]
      exact h.short
  · rintro ⟨-, hshort, hframed⟩
    refine ⟨hframed, ?_⟩
    rw [← bytes_of_name hframed]
    exact hshort

theorem validateTaintName_iff : validateTaintName key s = .ok () ↔ TaintName s.toList := by
  rw [validateTaintName, taintName_iff]
  by_cases hsize : (s.isEmpty || decide (taintNameMaxLen < s.utf8ByteSize)) = true
  · rw [if_pos hsize]
    rw [Bool.or_eq_true, String.isEmpty_iff, decide_eq_true_eq] at hsize
    refine iff_of_false nofun ?_
    rintro ⟨hne, hshort, -⟩
    rcases hsize with h | h
    · exact hne h
    · omega
  · rw [if_neg hsize]
    rw [Bool.or_eq_true, String.isEmpty_iff, decide_eq_true_eq, not_or, Nat.not_lt] at hsize
    cases hname : isQualifiedName s <;> simp [hsize]

theorem isDnsSubdomain_iff : isDnsSubdomain s = true ↔ TaintPrefixWord s.toList := by
  have hall : (Text.split '.' s).all isDnsLabel = true ↔ ∀ label ∈ s.toList.splitOn '.', TaintLabel label := by
    rw [Text.split, Text.splitList_eq_splitOn, List.all_eq_true, List.forall_mem_map]
    simp only [isDnsLabel_iff, String.toList_ofList]
  have hne : (∀ label ∈ s.toList.splitOn '.', TaintLabel label) → s.isEmpty = false := by
    intro hlabels
    rw [← Bool.not_eq_true, String.isEmpty_iff]
    rintro rfl
    exact (hlabels [] (by decide)).framed.ne_nil rfl
  rw [isDnsSubdomain]
  constructor
  · intro h
    split at h
    · cases h
    · rename_i hsize
      rw [Bool.or_eq_true, not_or, decide_eq_true_eq, Nat.not_lt] at hsize
      have hlabels := hall.mp h
      exact ⟨hlabels, bytes_of_labels hlabels ▸ hsize.2⟩
  · rintro ⟨hlabels, hshort⟩
    rw [hne hlabels, bytes_of_labels hlabels, Bool.false_or, if_neg (by simpa using hshort)]
    exact hall.mpr hlabels

theorem validateTaintPrefix_iff : validateTaintPrefix key (some s) = .ok () ↔ TaintPrefixWord s.toList := by
  rw [← isDnsSubdomain_iff, validateTaintPrefix]
  cases hsub : isDnsSubdomain s with
  | false => split <;> simp
  | true =>
    rw [isDnsSubdomain] at hsub
    split at hsub
    · cases hsub
    · rename_i hsize
      rw [if_neg hsize]
      simp

theorem not_reserved_iff : ¬ ReservedKey key ↔ Text.startsWith key reservedTaintPrefixOwn = false ∧
    reservedK8sTaintPrefixes.find? (fun pre => Text.startsWith key pre) = none := by
  rw [ReservedKey, List.find?_eq_none]
  simp only [List.exists_mem_cons_iff, not_or, Bool.not_eq_true, not_exists, not_and]

theorem validateTaintKey_iff : validateTaintKey key = .ok () ↔ ¬ ReservedKey key ∧ TaintKeyWord key := by
  rw [not_reserved_iff, validateTaintKey, TaintKeyWord, Text.splitOnce]
  by_cases hempty : key.isEmpty = true
  · rw [if_pos hempty]
    rw [String.isEmpty_iff] at hempty
    subst hempty
    exact iff_of_false (by rintro ⟨⟩) fun h => h.2.framed.ne_nil rfl
  rw [if_neg hempty]
  cases hown : Text.startsWith key reservedTaintPrefixOwn with
  | true => simp
  | false =>
    rw [if_neg Bool.false_ne_true]
    cases hk8s : reservedK8sTaintPrefixes.find? fun pre => Text.startsWith key pre with
    | some pre => simp
    | none =>
      cases hsplit : Text.splitOnceList '/' key.toList with
      | none => simp [validateTaintPrefix, bind, Except.bind, validateTaintName_iff]
      | some p =>
        obtain ⟨pre, name⟩ := p
        have hword : validateTaintPrefix key (some (String.ofList pre)) = .ok () ↔ TaintPrefixWord pre := by
          rw [validateTaintPrefix_iff, String.toList_ofList]
        have hname : validateTaintName key (String.ofList name) = .ok () ↔ TaintName name := by
          rw [validateTaintName_iff, String.toList_ofList]
        simp only [Option.map_some, except_bind_eq_ok_iff, ← hword, ← hname]
        constructor
        · rintro ⟨_, hpre, hname⟩
          exact ⟨⟨trivial, trivial⟩, hpre, hname⟩
        · rintro ⟨-, hpre, hname⟩
          exact ⟨(), hpre, hname⟩

theorem validateTaintValue_iff : validateTaintValue s = .ok () ↔ s = "" ∨ TaintName s.toList := by
  rw [validateTaintValue, taintName_iff]
  by_cases hempty : s.isEmpty = true
  · rw [if_pos hempty]
    exact iff_of_true rfl (Or.inl (String.isEmpty_iff.mp hempty))
  · rw [if_neg hempty]
    rw [String.isEmpty_iff] at hempty
    by_cases hlong : taintNameMaxLen < s.utf8ByteSize
    · rw [if_pos hlong]
      refine iff_of_false nofun ?_
      rintro (h | ⟨-, hshort, -⟩)
      · exact hempty h
      · omega
    · rw [if_neg hlong]
      cases hname : isQualifiedName s <;> simp [hempty, Nat.not_lt.mp hlong]

end

end FiveSpot
