import Mathlib.Data.List.Infix
import FiveSpot.Model.Text

/-! # Texts and their bytes

A text as its UTF-8 bytes, bytes read as characters one by one, and where the two agree.
-/

namespace FiveSpot.Encodings

set_option autoImplicit false

def utf8Bytes (s : String) : List UInt8 := s.toUTF8.data.toList

/-- One byte a character, where the characters allow it. -/
def latin1Bytes (cs : List Char) : List UInt8 := cs.map fun c => UInt8.ofNat c.toNat

def isLatin1 (cs : List Char) : Bool := cs.all fun c => decide (c.toNat < 256)

/-- Bytes read as characters, `b as char`. -/
def charsOf (bytes : List UInt8) : List Char := bytes.map fun b => Char.ofNat b.toNat

theorem utf8Bytes_eq (s : String) : utf8Bytes s = s.toList.flatMap String.utf8EncodeChar := by
  rw [utf8Bytes, String.toUTF8_eq_toByteArray, ← String.utf8Encode_toList, List.utf8Encode, List.data_toByteArray]

theorem toNat_ofNat_byte (b : UInt8) : (Char.ofNat b.toNat).toNat = b.toNat := by
  have hb : b.toNat < 256 := b.toNat_lt
  have hvalid : b.toNat.isValidChar := .inl (by omega)
  rw [Char.ofNat, dif_pos hvalid]
  rfl

theorem charsOf_latin1Bytes {cs : List Char} (h : isLatin1 cs = true) : charsOf (latin1Bytes cs) = cs := by
  rw [charsOf, latin1Bytes, List.map_map]
  refine (List.map_congr_left fun c hc => ?_).trans (List.map_id cs)
  have hlt : c.toNat < 256 := of_decide_eq_true (List.all_eq_true.mp h c hc)
  change Char.ofNat (UInt8.ofNat c.toNat).toNat = c
  rw [UInt8.toNat_ofNat', Nat.mod_eq_of_lt hlt, Char.ofNat_toNat]

theorem latin1Bytes_charsOf (bytes : List UInt8) : latin1Bytes (charsOf bytes) = bytes := by
  rw [charsOf, latin1Bytes, List.map_map]
  refine (List.map_congr_left fun b _ => ?_).trans (List.map_id bytes)
  change UInt8.ofNat (Char.ofNat b.toNat).toNat = b
  rw [toNat_ofNat_byte, UInt8.ofNat_toNat]

theorem isLatin1_charsOf (bytes : List UInt8) : isLatin1 (charsOf bytes) = true := by
  rw [isLatin1, charsOf, List.all_eq_true]
  intro c hc
  obtain ⟨b, -, rfl⟩ := List.mem_map.mp hc
  rw [toNat_ofNat_byte]
  exact decide_eq_true b.toNat_lt

/-- Searching the characters that the bytes are read as is searching the bytes, one to a character. -/
theorem infix_charsOf_iff {cs : List Char} {bytes : List UInt8} :
    cs <:+: charsOf bytes ↔ isLatin1 cs = true ∧ latin1Bytes cs <:+: bytes := by
  constructor
  · intro h
    obtain ⟨block, hblock, rfl⟩ := List.infix_map_iff.mp h
    refine ⟨isLatin1_charsOf block, ?_⟩
    change latin1Bytes (charsOf block) <:+: bytes
    rwa [latin1Bytes_charsOf]
  · rintro ⟨hlatin1, hblock⟩
    exact List.infix_map_iff.mpr ⟨latin1Bytes cs, hblock, (charsOf_latin1Bytes hlatin1).symm⟩

theorem isLatin1_of_isAscii {s : String} (h : Text.isAscii s = true) : isLatin1 s.toList = true := by
  rw [isLatin1, List.all_eq_true]
  intro c hc
  have hlt : c.toNat < 128 := of_decide_eq_true (List.all_eq_true.mp h c hc)
  exact decide_eq_true (by omega)

/-- An ASCII text has one byte a character either way. -/
theorem utf8Bytes_of_isAscii {s : String} (h : Text.isAscii s = true) : utf8Bytes s = latin1Bytes s.toList := by
  rw [utf8Bytes_eq, latin1Bytes, List.map_eq_flatMap]
  refine List.flatMap_congr fun c hc => ?_
  rw [String.utf8EncodeChar_eq_singleton (Text.utf8Size_of_isAscii h hc)]
  rfl

theorem utf8Bytes_inj {s t : String} : utf8Bytes s = utf8Bytes t ↔ s = t := by
  rw [utf8Bytes, utf8Bytes, Array.toList_inj, ← ByteArray.ext_iff]
  exact String.toByteArray_inj

/-- A text of which every byte is ASCII is the text that its bytes are read as. -/
theorem charsOf_utf8Bytes {s : String} (h : ∀ b ∈ utf8Bytes s, b.toNat < 128) : charsOf (utf8Bytes s) = s.toList := by
  have hascii : Text.isAscii (String.ofList (charsOf (utf8Bytes s))) = true := by
    rw [Text.isAscii, String.toList_ofList, List.all_eq_true]
    intro c hc
    obtain ⟨b, hb, rfl⟩ := List.mem_map.mp hc
    rw [toNat_ofNat_byte]
    exact decide_eq_true (h b hb)
  have hbytes := utf8Bytes_of_isAscii hascii
  rw [String.toList_ofList, latin1Bytes_charsOf, utf8Bytes_inj] at hbytes
  rw [← String.toList_ofList (l := charsOf (utf8Bytes s)), hbytes]

theorem isAscii_iff_utf8Bytes {s : String} : Text.isAscii s = true ↔ ∀ b ∈ utf8Bytes s, b.toNat < 128 := by
  constructor
  · intro h b hb
    rw [utf8Bytes_of_isAscii h] at hb
    obtain ⟨c, hc, rfl⟩ := List.mem_map.mp hb
    have hlt : c.toNat < 128 := of_decide_eq_true (List.all_eq_true.mp h c hc)
    rw [UInt8.toNat_ofNat', Nat.mod_eq_of_lt (by omega)]
    exact hlt
  · intro h
    rw [Text.isAscii, ← charsOf_utf8Bytes h, List.all_eq_true]
    intro c hc
    obtain ⟨b, hb, rfl⟩ := List.mem_map.mp hc
    rw [toNat_ofNat_byte]
    exact decide_eq_true (h b hb)

end FiveSpot.Encodings
