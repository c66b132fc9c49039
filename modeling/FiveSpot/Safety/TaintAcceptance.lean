import FiveSpot.Helpers.TaintGrammar
import FiveSpot.Model.Encodings

/-! # The taints that are accepted

The grammar of a list of taints as it is documented, and that the validation accepts exactly this; and the byte loops
of the source, which agree with the checks on characters.
-/

namespace FiveSpot

set_option autoImplicit false

open Pattern Encodings

/-! ## Bytes -/

/-- `u8::is_ascii_alphanumeric` -/
def isAlphanumericByte (b : UInt8) : Bool := (0x61 ≤ b && b ≤ 0x7A) || (0x41 ≤ b && b ≤ 0x5A) || (0x30 ≤ b && b ≤ 0x39)

/-- `is_qualified_name`, check by check. -/
def isQualifiedNameBytes (bytes : List UInt8) : Bool :=
  if bytes.isEmpty then false
  else if !bytes.head?.any isAlphanumericByte then false
  else if bytes.length == 1 then true
  else if !bytes.getLast?.any isAlphanumericByte then false
  else ((bytes.take (bytes.length - 1)).drop 1).all fun b => isAlphanumericByte b || b == 0x2D || b == 0x2E

/-- The closure of `is_dns_subdomain`. -/
def isDnsLabelBytes (bytes : List UInt8) : Bool :=
  !bytes.isEmpty && decide (bytes.length ≤ taintNameMaxLen) && bytes.head?.any isAlphanumericByte &&
    bytes.getLast?.any isAlphanumericByte && bytes.all fun b => isAlphanumericByte b || b == 0x2D

section

variable {s : String} {bytes : List UInt8}

theorem isAsciiAlphanumeric_ofNat (b : UInt8) : Text.isAsciiAlphanumeric (Char.ofNat b.toNat) = isAlphanumericByte b := by
  have hb := toNat_ofNat_byte b
  have hlo (c : Char) : c ≤ Char.ofNat b.toNat ↔ c.toNat ≤ b.toNat := by
    rw [Char.le_def, UInt32.le_iff_toNat_le]
    change c.toNat ≤ (Char.ofNat b.toNat).toNat ↔ _
    rw [hb]
  have hhi (c : Char) : Char.ofNat b.toNat ≤ c ↔ b.toNat ≤ c.toNat := by
    rw [Char.le_def, UInt32.le_iff_toNat_le]
    change (Char.ofNat b.toNat).toNat ≤ c.toNat ↔ _
    rw [hb]
  rw [Text.isAsciiAlphanumeric, isAlphanumericByte, Bool.eq_iff_iff]
  simp only [Bool.or_eq_true, Bool.and_eq_true, decide_eq_true_eq, UInt8.le_iff_toNat_le, hlo, hhi]
  rfl

theorem mem_alphanumeric_ofNat {b : UInt8} : Char.ofNat b.toNat ∈ alphanumeric ↔ isAlphanumericByte b = true := by
  rw [mem_alphanumeric, isAsciiAlphanumeric_ofNat]

theorem ofNat_byte_eq_iff {b : UInt8} {c : Char} (h : c.toNat < 256) : Char.ofNat b.toNat = c ↔ b = UInt8.ofNat c.toNat := by
  constructor
  · rintro rfl
    rw [toNat_ofNat_byte, UInt8.ofNat_toNat]
  · rintro rfl
    rw [UInt8.toNat_ofNat', Nat.mod_eq_of_lt h, Char.ofNat_toNat]

theorem isQualifiedNameBytes_iff :
    isQualifiedNameBytes bytes = true ↔ Framed alphanumeric ('-' :: '.' :: alphanumeric) (charsOf bytes) := by
  have hsub := alphanumeric_subset_inner
  have hinner (b : UInt8) : Char.ofNat b.toNat ∈ '-' :: '.' :: alphanumeric ↔
      (isAlphanumericByte b || b == 0x2D || b == 0x2E) = true := by
    have hdash : Char.ofNat b.toNat = '-' ↔ b = 0x2D := ofNat_byte_eq_iff (by decide)
    have hdot : Char.ofNat b.toNat = '.' ↔ b = 0x2E := ofNat_byte_eq_iff (by decide)
    simp only [List.mem_cons, Bool.or_eq_true, beq_iff_eq, mem_alphanumeric_ofNat, hdash, hdot]
    rw [← or_assoc, or_comm, ← or_assoc]
  rw [isQualifiedNameBytes]
  cases bytes with
  | nil => simp [charsOf, not_framed_nil]
  | cons first rest =>
    rcases List.eq_nil_or_concat rest with rfl | ⟨middle, last, rfl⟩
    · rw [charsOf, List.map_singleton, framed_singleton hsub, mem_alphanumeric_ofNat]
      cases hfirst : isAlphanumericByte first <;> simp [hfirst]
    · rw [List.concat_eq_append, charsOf, List.map_cons, List.map_append, List.map_singleton, framed_cons_concat hsub,
        mem_alphanumeric_ofNat, mem_alphanumeric_ofNat, List.forall_mem_map]
      have hlast : (first :: (middle ++ [last])).getLast? = some last := by
        rw [← List.cons_append, List.getLast?_concat]
      have hmiddle : ((first :: (middle ++ [last])).take ((first :: (middle ++ [last])).length - 1)).drop 1 = middle := by
        rw [← List.dropLast_eq_take, ← List.cons_append, List.dropLast_concat]
        rfl
      have hlength : ((first :: (middle ++ [last])).length == 1) = false := by simp
      rw [hlast, hmiddle, hlength]
      simp only [hinner]
      cases hfirst : isAlphanumericByte first <;> cases hend : isAlphanumericByte last <;> simp [hfirst, hend]

theorem isDnsLabelBytes_iff : isDnsLabelBytes bytes = true ↔
    Framed alphanumeric ('-' :: alphanumeric) (charsOf bytes) ∧ bytes.length ≤ taintNameMaxLen := by
  have hinner (b : UInt8) : Char.ofNat b.toNat ∈ '-' :: alphanumeric ↔ (isAlphanumericByte b || b == 0x2D) = true := by
    have hdash : Char.ofNat b.toNat = '-' ↔ b = 0x2D := ofNat_byte_eq_iff (by decide)
    rw [List.mem_cons, Bool.or_eq_true, beq_iff_eq, mem_alphanumeric_ofNat, hdash, or_comm]
  have hends (end_ : Option UInt8) : end_.any isAlphanumericByte = true ↔
      ∃ c ∈ alphanumeric, end_.map (fun b => Char.ofNat b.toNat) = some c := by
    cases end_ with
    | none => simp
    | some b =>
      rw [Option.any_some, ← mem_alphanumeric_ofNat]
      constructor
      · intro hb
        exact ⟨_, hb, rfl⟩
      · rintro ⟨c, hc, heq⟩
        cases heq
        exact hc
  rw [isDnsLabelBytes]
  simp only [Bool.and_eq_true, decide_eq_true_eq, hends, List.all_eq_true, ← hinner]
  constructor
  · rintro ⟨⟨⟨⟨-, hshort⟩, hfirst⟩, hlast⟩, hall⟩
    exact ⟨⟨by rwa [charsOf, List.head?_map], by rwa [charsOf, List.getLast?_map], by rwa [charsOf, List.forall_mem_map]⟩,
      hshort⟩
  · rintro ⟨⟨hfirst, hlast, hall⟩, hshort⟩
    rw [charsOf, List.head?_map] at hfirst
    rw [charsOf, List.getLast?_map] at hlast
    rw [charsOf, List.forall_mem_map] at hall
    refine ⟨⟨⟨⟨?_, hshort⟩, hfirst⟩, hlast⟩, hall⟩
    cases bytes with
    | nil => obtain ⟨c, -, ⟨⟩⟩ := hfirst
    | cons b bytes => rfl

/-- Where the characters that a text's bytes are read as are all plain, they are its characters. -/
theorem framed_utf8Bytes_iff {ends inner : List Char} (hinner : ∀ c ∈ inner, c.toNat < 128) :
    Framed ends inner (charsOf (utf8Bytes s)) ↔ Framed ends inner s.toList := by
  constructor
  · intro h
    have hbytes : ∀ b ∈ utf8Bytes s, b.toNat < 128 := by
      intro b hb
      rw [← toNat_ofNat_byte]
      exact hinner _ (h.all _ (List.mem_map_of_mem hb))
    rw [← charsOf_utf8Bytes hbytes]
    exact h
  · intro h
    have hascii : Text.isAscii s = true := by
      rw [Text.isAscii, List.all_eq_true]
      intro c hc
      exact decide_eq_true (hinner c (h.all c hc))
    rw [charsOf_utf8Bytes (isAscii_iff_utf8Bytes.mp hascii)]
    exact h

/-- The loops over the bytes and the checks on the characters are one. -/
theorem isQualifiedName_eq_bytes (s : String) : isQualifiedName s = isQualifiedNameBytes (utf8Bytes s) := by
  have hinner : ∀ c ∈ '-' :: '.' :: alphanumeric, c.toNat < 128 := by
    intro c hc
    simp only [List.mem_cons] at hc
    rcases hc with rfl | rfl | hc
    · decide
    · decide
    · exact ascii_of_mem_alphanumeric hc
  rw [Bool.eq_iff_iff, isQualifiedName_iff, isQualifiedNameBytes_iff, framed_utf8Bytes_iff hinner]

theorem length_utf8Bytes (s : String) : (utf8Bytes s).length = s.utf8ByteSize := rfl

theorem isDnsLabel_eq_bytes (s : String) : isDnsLabel s = isDnsLabelBytes (utf8Bytes s) := by
  have hinner : ∀ c ∈ '-' :: alphanumeric, c.toNat < 128 := by
    intro c hc
    rcases List.mem_cons.mp hc with rfl | hc
    · decide
    · exact ascii_of_mem_alphanumeric hc
  rw [Bool.eq_iff_iff, isDnsLabel_iff, isDnsLabelBytes_iff, framed_utf8Bytes_iff hinner, length_utf8Bytes]
  constructor
  · rintro ⟨hframed, hshort⟩
    exact ⟨hframed, (bytes_of_label hframed.all).symm ▸ hshort⟩
  · rintro ⟨hframed, hshort⟩
    exact ⟨hframed, bytes_of_label hframed.all ▸ hshort⟩

end

/-! ## The grammar -/

/-- `[a-zA-Z0-9]([-a-zA-Z0-9.]*[a-zA-Z0-9])?` -/
def taintNamePattern : RegularExpression Char := framed alphanumeric ('-' :: '.' :: alphanumeric)

structure NameForm (s : String) : Prop where
  pattern : s.toList ∈ taintNamePattern.matches'
  nonempty : 1 ≤ s.utf8ByteSize
  short : s.utf8ByteSize ≤ 63

structure LabelForm (s : String) : Prop where
  symbols : ∀ c ∈ s.toList, Text.isAsciiAlphanumeric c = true ∨ c = '-'
  first : ∃ c, s.toList.head? = some c ∧ Text.isAsciiAlphanumeric c = true
  last : ∃ c, s.toList.getLast? = some c ∧ Text.isAsciiAlphanumeric c = true
  nonempty : 1 ≤ s.utf8ByteSize
  short : s.utf8ByteSize ≤ 63

structure PrefixForm (s : String) : Prop where
  labels : ∃ labels, labels ≠ [] ∧ s = ".".intercalate labels ∧ ∀ label ∈ labels, LabelForm label
  short : s.utf8ByteSize ≤ 253

/-- `[prefix/]name` -/
def KeyForm (key : String) : Prop := NameForm key ∨ ∃ pre name, key = pre ++ "/" ++ name ∧ PrefixForm pre ∧ NameForm name

structure TaintForm (t : NodeTaint) : Prop where
  key : KeyForm t.key
  unreserved : ∀ pre ∈ ["5spot.finos.org/", "node.kubernetes.io/", "node-role.kubernetes.io/", "kubernetes.io/"],
    Text.startsWith t.key pre = false
  value : ∀ v, t.value = some v → v = "" ∨ NameForm v

structure InTaintGrammar (taints : List NodeTaint) : Prop where
  forms : ∀ t ∈ taints, TaintForm t
  distinct : taints.Pairwise fun t u => ¬(t.key = u.key ∧ t.effect = u.effect)

/-! ## What is accepted -/

section

variable {s key : String}

theorem one_le_utf8ByteSize (h : s.toList ≠ []) : 1 ≤ s.utf8ByteSize := by
  rw [Nat.one_le_iff_ne_zero, Ne, String.utf8ByteSize_eq_zero_iff]
  rintro rfl
  exact h rfl

theorem nameForm_iff : NameForm s ↔ TaintName s.toList := by
  have hsub := alphanumeric_subset_inner
  constructor
  · rintro ⟨hpattern, -, hshort⟩
    have hframed := (mem_framed hsub).mp hpattern
    exact ⟨hframed, bytes_of_name hframed ▸ hshort⟩
  · rintro ⟨hframed, hshort⟩
    exact ⟨(mem_framed hsub).mpr hframed, one_le_utf8ByteSize hframed.ne_nil, (bytes_of_name hframed).symm ▸ hshort⟩

theorem labelForm_iff : LabelForm s ↔ TaintLabel s.toList := by
  constructor
  · rintro ⟨hsymbols, ⟨a, hfirst, ha⟩, ⟨b, hlast, hb⟩, -, hshort⟩
    have hframed : Framed alphanumeric ('-' :: alphanumeric) s.toList := by
      refine ⟨⟨a, mem_alphanumeric.mpr ha, hfirst⟩, ⟨b, mem_alphanumeric.mpr hb, hlast⟩, fun c hc => ?_⟩
      rw [List.mem_cons, mem_alphanumeric, or_comm]
      exact hsymbols c hc
    exact ⟨hframed, bytes_of_label hframed.all ▸ hshort⟩
  · rintro ⟨hframed, hshort⟩
    obtain ⟨a, ha, hfirst⟩ := hframed.first
    obtain ⟨b, hb, hlast⟩ := hframed.last
    refine ⟨fun c hc => ?_, ⟨a, hfirst, mem_alphanumeric.mp ha⟩, ⟨b, hlast, mem_alphanumeric.mp hb⟩,
      one_le_utf8ByteSize hframed.ne_nil, (bytes_of_label hframed.all).symm ▸ hshort⟩
    rw [or_comm, ← mem_alphanumeric, ← List.mem_cons]
    exact hframed.all c hc

theorem not_mem_of_framed {inner cs : List Char} {c : Char} (h : Framed alphanumeric inner cs) (hc : c ∉ inner) : c ∉ cs :=
  fun hmem => hc (h.all c hmem)

theorem dot_not_mem_label {cs : List Char} (h : TaintLabel cs) : '.' ∉ cs := not_mem_of_framed h.framed (by decide)

theorem slash_not_mem_name {cs : List Char} (h : TaintName cs) : '/' ∉ cs := not_mem_of_framed h.framed (by decide)

theorem prefixForm_iff : PrefixForm s ↔ TaintPrefixWord s.toList := by
  constructor
  · rintro ⟨⟨labels, hne, hs, hlabels⟩, hshort⟩
    have hsplit : s.toList.splitOn '.' = labels.map String.toList := by
      rw [hs, String.toList_intercalate]
      refine List.splitOn_intercalate '.' (List.forall_mem_map.mpr fun label hlabel => ?_) (by simpa using hne)
      exact dot_not_mem_label (labelForm_iff.mp (hlabels label hlabel))
    have hwords : ∀ label ∈ s.toList.splitOn '.', TaintLabel label := by
      rw [hsplit, List.forall_mem_map]
      exact fun label hlabel => labelForm_iff.mp (hlabels label hlabel)
    exact ⟨hwords, bytes_of_labels hwords ▸ hshort⟩
  · rintro ⟨hwords, hshort⟩
    refine ⟨⟨(s.toList.splitOn '.').map String.ofList, ?_, ?_, ?_⟩, (bytes_of_labels hwords).symm ▸ hshort⟩
    · rw [Ne, List.map_eq_nil_iff]
      exact List.splitOn_ne_nil '.' s.toList
    · rw [← String.toList_inj, String.toList_intercalate, List.map_map]
      have hid : (String.toList ∘ String.ofList) = id := funext fun cs => String.toList_ofList
      rw [hid, List.map_id]
      exact (List.intercalate_splitOn '.').symm
    · rw [List.forall_mem_map]
      intro label hlabel
      rw [labelForm_iff, String.toList_ofList]
      exact hwords label hlabel

theorem slash_not_mem_word {cs : List Char} (h : TaintPrefixWord cs) : '/' ∉ cs := by
  intro hmem
  rcases eq_or_mem_of_splitOn '.' hmem with heq | ⟨label, hlabel, hmem⟩
  · exact absurd heq (by decide)
  · exact not_mem_of_framed (h.labels label hlabel).framed (by decide) hmem

theorem toList_slash (pre name : String) : (pre ++ "/" ++ name).toList = pre.toList ++ '/' :: name.toList := by
  rw [String.toList_append, String.toList_append, List.append_assoc]
  rfl

/-- Neither part has a slash, so that the first slash of a key is the one between its parts. -/
theorem keyForm_iff : KeyForm key ↔ TaintKeyWord key := by
  rw [TaintKeyWord]
  constructor
  · rintro (hname | ⟨pre, name, rfl, hpre, hname⟩)
    · have hword := nameForm_iff.mp hname
      rw [Text.splitOnceList_eq_none.mpr (slash_not_mem_name hword)]
      exact hword
    · have hword := prefixForm_iff.mp hpre
      rw [toList_slash, Text.splitOnceList_append (slash_not_mem_word hword)]
      exact ⟨hword, nameForm_iff.mp hname⟩
  · cases hsplit : Text.splitOnceList '/' key.toList with
    | none => exact fun hword => .inl (nameForm_iff.mpr hword)
    | some parts =>
      rintro ⟨hpre, hname⟩
      refine .inr ⟨String.ofList parts.1, String.ofList parts.2, ?_, ?_, ?_⟩
      · rw [← String.toList_inj, toList_slash, Text.eq_append_of_splitOnceList hsplit, String.toList_ofList,
          String.toList_ofList]
      · rw [prefixForm_iff, String.toList_ofList]
        exact hpre
      · rw [nameForm_iff, String.toList_ofList]
        exact hname

theorem unreserved_iff : ¬ReservedKey key ↔
    ∀ pre ∈ ["5spot.finos.org/", "node.kubernetes.io/", "node-role.kubernetes.io/", "kubernetes.io/"],
      Text.startsWith key pre = false := by
  rw [ReservedKey]
  simp only [not_exists, not_and, Bool.not_eq_true]
  rfl

theorem accepted_iff_form {t : NodeTaint} : t.Accepted ↔ TaintForm t := by
  rw [NodeTaint.accepted_iff, validateTaintKey_iff, unreserved_iff, ← keyForm_iff]
  simp only [validateTaintValue_iff, ← nameForm_iff]
  constructor
  · rintro ⟨⟨hunreserved, hkey⟩, hvalue⟩
    exact ⟨hkey, hunreserved, hvalue⟩
  · rintro ⟨hkey, hunreserved, hvalue⟩
    exact ⟨⟨hunreserved, hkey⟩, hvalue⟩

theorem distinctEntries_iff {taints : List NodeTaint} :
    DistinctEntries taints ↔ taints.Pairwise fun t u => ¬(t.key = u.key ∧ t.effect = u.effect) := by
  rw [DistinctEntries, List.Nodup, List.pairwise_map]
  simp only [Ne, Prod.mk.injEq]

end

theorem validateNodeTaints_iff_grammar {taints : List NodeTaint} :
    validateNodeTaints taints = .ok () ↔ InTaintGrammar taints := by
  rw [validateNodeTaints_iff, distinctEntries_iff]
  simp only [accepted_iff_form]
  exact ⟨fun h => ⟨h.1, h.2⟩, fun h => ⟨h.forms, h.distinct⟩⟩

theorem InTaintGrammar.perm {taints reordered : List NodeTaint} (h : InTaintGrammar taints)
    (hperm : taints.Perm reordered) : InTaintGrammar reordered where
  forms t ht := h.forms t (hperm.mem_iff.mpr ht)
  distinct := hperm.pairwise h.distinct fun hne heq => hne ⟨heq.1.symm, heq.2.symm⟩

theorem taint_grammar_exact (taints : List NodeTaint) :
    (validateNodeTaints taints = .ok () ↔ InTaintGrammar taints) ∧ ∀ reordered, taints.Perm reordered →
      (validateNodeTaints reordered = .ok () ↔ validateNodeTaints taints = .ok ()) := by
  refine ⟨validateNodeTaints_iff_grammar, fun reordered hperm => ?_⟩
  rw [validateNodeTaints_iff_grammar, validateNodeTaints_iff_grammar]
  exact ⟨fun h => h.perm hperm.symm, fun h => h.perm hperm⟩

end FiveSpot
