import Mathlib.Algebra.Order.Ring.Nat
import Mathlib.Data.List.Basic

/-! # Slices that may panic

`str::split_at`, which wants the boundary of a character, and slices of bytes, which want bounds. `none` is the
panic.
-/

namespace FiveSpot.Slices

set_option autoImplicit false

/-- `str::len`. -/
def byteLen (cs : List Char) : Nat := (cs.map Char.utf8Size).sum

def splitAt : List Char → Nat → Option (List Char × List Char)
  | cs, 0 => some ([], cs)
  | [], _ + 1 => none
  | c :: cs, mid + 1 =>
    if c.utf8Size ≤ mid + 1 then (splitAt cs (mid + 1 - c.utf8Size)).map fun parts => (c :: parts.1, parts.2) else none

@[simp] theorem byteLen_nil : byteLen [] = 0 := rfl

@[simp] theorem byteLen_cons (c : Char) (cs : List Char) : byteLen (c :: cs) = c.utf8Size + byteLen cs := by
  simp [byteLen]

@[simp] theorem byteLen_append (l r : List Char) : byteLen (l ++ r) = byteLen l + byteLen r := by
  simp [byteLen]

theorem splitAt_byteLen (l r : List Char) : splitAt (l ++ r) (byteLen l) = some (l, r) := by
  induction l with
  | nil => cases r <;> rfl
  | cons c cs ih =>
    obtain ⟨n, hn⟩ : ∃ n, byteLen (c :: cs) = n + 1 :=
      Nat.exists_eq_succ_of_ne_zero (by have := c.utf8Size_pos; rw [byteLen_cons]; omega)
    have hrest : n + 1 - c.utf8Size = byteLen cs := by
      rw [← hn, byteLen_cons, Nat.add_sub_cancel_left]
    have hfits : c.utf8Size ≤ n + 1 := by
      rw [← hn, byteLen_cons]
      exact Nat.le_add_right _ _
    rw [hn, List.cons_append, splitAt, if_pos hfits, hrest, ih]
    rfl

/-- A text whose last character is one byte long can be cut one byte before its end. -/
theorem splitAt_last {value : List Char} {last : Char} (hlast : last.utf8Size = 1) :
    splitAt (value ++ [last]) (byteLen (value ++ [last]) - 1) = some (value, [last]) := by
  rw [byteLen_append, byteLen_cons, byteLen_nil, hlast, Nat.add_zero, Nat.add_sub_cancel]
  exact splitAt_byteLen value [last]

/-! ## Bytes -/

def slice (bytes : List UInt8) (start stop : Nat) : Option (List UInt8) :=
  if start ≤ stop ∧ stop ≤ bytes.length then some ((bytes.drop start).take (stop - start)) else none

/-- The number with these little-endian bytes. -/
def leNat : List UInt8 → Nat
  | [] => 0
  | b :: bs => b.toNat + 256 * leNat bs

/-- `to_le_bytes` of a number of `width` bytes. -/
def leBytes : Nat → Nat → List UInt8
  | 0, _ => []
  | width + 1, n => UInt8.ofNat n :: leBytes width (n / 256)

/-- `from_le_bytes` of a slice, which has to have the width of the number. -/
def fromLeBytes (width : Nat) (bytes : List UInt8) : Option Nat := if bytes.length = width then some (leNat bytes) else none

/-- The number of `width` bytes at an offset; bytes past the end count as none. -/
def word (bytes : List UInt8) (offset width : Nat) : Nat := leNat ((bytes.drop offset).take width)

variable {bytes l r : List UInt8} {offset width n : Nat}

@[simp] theorem length_leBytes (width n : Nat) : (leBytes width n).length = width := by
  induction width generalizing n with
  | zero => rfl
  | succ width ih => rw [leBytes, List.length_cons, ih]

theorem leNat_leBytes (h : n < 256 ^ width) : leNat (leBytes width n) = n := by
  induction width generalizing n with
  | zero =>
    rw [Nat.pow_zero] at h
    exact (Nat.lt_one_iff.mp h).symm
  | succ width ih =>
    have hrest : n / 256 < 256 ^ width := by
      rw [Nat.pow_succ] at h
      exact Nat.div_lt_of_lt_mul (by rwa [Nat.mul_comm])
    rw [leBytes, leNat, ih hrest, UInt8.toNat_ofNat']
    exact Nat.mod_add_div n 256

theorem fromLeBytes_slice (h : offset + width ≤ bytes.length) :
    (slice bytes offset (offset + width)).bind (fromLeBytes width) = some (word bytes offset width) := by
  have hlength : ((bytes.drop offset).take width).length = width := by
    rw [List.length_take, List.length_drop]
    omega
  rw [slice, if_pos ⟨Nat.le_add_right _ _, h⟩, Nat.add_sub_cancel_left, Option.bind_some, fromLeBytes, if_pos hlength]
  rfl

theorem word_append_left (h : offset + width ≤ l.length) (r : List UInt8) : word (l ++ r) offset width = word l offset width := by
  rw [word, word, List.drop_append_of_le_length (by omega), List.take_append_of_le_length]
  rw [List.length_drop]
  omega

theorem word_drop_take {start size : Nat} (h : offset + width ≤ size) :
    word ((bytes.drop start).take size) offset width = word bytes (start + offset) width := by
  rw [word, word, List.drop_take, List.take_take, List.drop_drop, Nat.min_eq_left (by omega)]

theorem word_append_right (l r : List UInt8) (offset width : Nat) : word (l ++ r) (l.length + offset) width = word r offset width := by
  rw [word, word, List.drop_length_add_append]

theorem word_leBytes (h : n < 256 ^ width) (r : List UInt8) : word (leBytes width n ++ r) 0 width = n := by
  have hlength : (leBytes width n).length = width := length_leBytes width n
  rw [word_append_left (by omega), word, List.drop_zero, List.take_of_length_le (Nat.le_of_eq hlength), leNat_leBytes h]

theorem word_skip {k : Nat} (h : k ≤ offset) (n : Nat) (r : List UInt8) :
    word (leBytes k n ++ r) offset width = word r (offset - k) width := by
  obtain ⟨d, rfl⟩ := Nat.exists_eq_add_of_le h
  have hright := word_append_right (leBytes k n) r d width
  rw [length_leBytes] at hright
  rw [hright, Nat.add_sub_cancel_left]

end FiveSpot.Slices
