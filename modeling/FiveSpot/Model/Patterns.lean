import FiveSpot.Model.Text
import Mathlib.Computability.RegularExpressions

/-! # Shapes of regular expressions

Character classes and the forms that patterns of names are made of, each with the texts it matches in full.
-/

namespace FiveSpot.Pattern

set_option autoImplicit false

open RegularExpression

section

variable {α : Type} {P Q : RegularExpression α} {sep a b : α} {cs ends inner ends' inner' w x : List α}

/-! ## Classes and options -/

def oneOf (cs : List α) : RegularExpression α := cs.foldr (fun c rest => .char c + rest) 0

/-- `P?` -/
def opt (P : RegularExpression α) : RegularExpression α := P + 1

/-- `P+` -/
def oneOrMore (P : RegularExpression α) : RegularExpression α := P * star P

theorem mem_oneOf : x ∈ (oneOf cs).matches' ↔ ∃ c ∈ cs, x = [c] := by
  induction cs with
  | nil =>
    simp only [List.not_mem_nil, false_and, exists_false, iff_false]
    exact Language.notMem_zero x
  | cons c cs ih =>
    rw [oneOf, List.foldr_cons, matches'_add, Language.mem_add, matches'_char]
    rw [List.exists_mem_cons_iff]
    exact or_congr Iff.rfl ih

theorem mem_opt : x ∈ (opt P).matches' ↔ x ∈ P.matches' ∨ x = [] := by
  rw [opt, matches'_add, Language.mem_add, matches'_epsilon, Language.mem_one]

theorem mem_star_oneOf : x ∈ (star (oneOf cs)).matches' ↔ ∀ c ∈ x, c ∈ cs := by
  rw [matches'_star, Language.mem_kstar]
  constructor
  · rintro ⟨words, rfl, hwords⟩ c hc
    obtain ⟨word, hword, hc⟩ := List.mem_flatten.mp hc
    obtain ⟨d, hd, rfl⟩ := mem_oneOf.mp (hwords word hword)
    rw [List.mem_singleton.mp hc]
    exact hd
  · intro hall
    refine ⟨x.map ([·]), ?_, ?_⟩
    · rw [← List.flatMap_def, List.flatMap_singleton']
    · intro word hword
      obtain ⟨c, hc, rfl⟩ := List.mem_map.mp hword
      exact mem_oneOf.mpr ⟨c, hall c hc, rfl⟩

theorem mem_oneOrMore_oneOf : x ∈ (oneOrMore (oneOf cs)).matches' ↔ x ≠ [] ∧ ∀ c ∈ x, c ∈ cs := by
  rw [oneOrMore, matches'_mul, Language.mem_mul]
  constructor
  · rintro ⟨_, hfirst, rest, hrest, rfl⟩
    obtain ⟨c, hc, rfl⟩ := mem_oneOf.mp hfirst
    refine ⟨List.cons_ne_nil c rest, ?_⟩
    rw [List.singleton_append, List.forall_mem_cons]
    exact ⟨hc, mem_star_oneOf.mp hrest⟩
  · rintro ⟨hne, hall⟩
    cases x with
    | nil => exact absurd rfl hne
    | cons c rest =>
      rw [List.forall_mem_cons] at hall
      exact ⟨[c], mem_oneOf.mpr ⟨c, hall.1, rfl⟩, rest, mem_star_oneOf.mpr hall.2, rfl⟩

/-- The word `w` and nothing else. -/
def literal (w : List α) : RegularExpression α := w.foldr (fun c rest => .char c * rest) 1

theorem mem_literal : x ∈ (literal w).matches' ↔ x = w := by
  induction w generalizing x with
  | nil =>
    rw [literal, List.foldr_nil, matches'_epsilon]
    exact Language.mem_one x
  | cons c w ih =>
    rw [literal, List.foldr_cons, matches'_mul, Language.mem_mul]
    constructor
    · rintro ⟨_, rfl, rest, hrest, rfl⟩
      rw [ih.mp hrest]
      rfl
    · rintro rfl
      exact ⟨[c], rfl, w, ih.mpr rfl, rfl⟩

/-! ## Framed words, `E(M*E)?` -/

def framed (ends inner : List α) : RegularExpression α := oneOf ends * opt (star (oneOf inner) * oneOf ends)

structure Framed (ends inner x : List α) : Prop where
  first : ∃ c ∈ ends, x.head? = some c
  last : ∃ c ∈ ends, x.getLast? = some c
  all : ∀ c ∈ x, c ∈ inner

theorem not_framed_nil : ¬ Framed ends inner [] := by
  rintro ⟨⟨c, -, hc⟩, -, -⟩
  cases hc

theorem framed_singleton (hsub : ∀ c ∈ ends, c ∈ inner) : Framed ends inner [a] ↔ a ∈ ends := by
  constructor
  · rintro ⟨⟨c, hc, heq⟩, -, -⟩
    cases heq
    exact hc
  · intro ha
    refine ⟨⟨a, ha, rfl⟩, ⟨a, ha, rfl⟩, ?_⟩
    intro c hc
    rw [List.mem_singleton.mp hc]
    exact hsub a ha

theorem framed_cons_concat (hsub : ∀ c ∈ ends, c ∈ inner) :
    Framed ends inner (a :: (x ++ [b])) ↔ a ∈ ends ∧ b ∈ ends ∧ ∀ c ∈ x, c ∈ inner := by
  constructor
  · rintro ⟨⟨c, hc, hfirst⟩, ⟨d, hd, hlast⟩, hall⟩
    rw [List.head?_cons, Option.some.injEq] at hfirst
    rw [← List.cons_append, List.getLast?_concat, Option.some.injEq] at hlast
    subst hfirst hlast
    exact ⟨hc, hd, fun c hc => hall c (List.mem_cons_of_mem a (List.mem_append_left _ hc))⟩
  · rintro ⟨ha, hb, hall⟩
    refine ⟨⟨a, ha, rfl⟩, ⟨b, hb, ?_⟩, ?_⟩
    · rw [← List.cons_append, List.getLast?_concat]
    · intro c hc
      rw [List.mem_cons, List.mem_append, List.mem_singleton] at hc
      rcases hc with rfl | hc | rfl
      · exact hsub c ha
      · exact hall c hc
      · exact hsub c hb

theorem Framed.mono (h : Framed ends inner x) (hends : ∀ c ∈ ends, c ∈ ends') (hinner : ∀ c ∈ x, c ∈ inner → c ∈ inner') :
    Framed ends' inner' x := by
  obtain ⟨⟨a, ha, hfirst⟩, ⟨b, hb, hlast⟩, hall⟩ := h
  exact ⟨⟨a, hends a ha, hfirst⟩, ⟨b, hends b hb, hlast⟩, fun c hc => hinner c hc (hall c hc)⟩

theorem Framed.ne_nil (h : Framed ends inner x) : x ≠ [] := fun hx => not_framed_nil (hx ▸ h)

theorem mem_framed (hsub : ∀ c ∈ ends, c ∈ inner) : x ∈ (framed ends inner).matches' ↔ Framed ends inner x := by
  rw [framed, matches'_mul, Language.mem_mul]
  constructor
  · rintro ⟨_, hfirst, rest, hrest, rfl⟩
    obtain ⟨a, ha, rfl⟩ := mem_oneOf.mp hfirst
    rcases mem_opt.mp hrest with hrest | rfl
    · obtain ⟨middle, hmiddle, _, hlast, rfl⟩ := Language.mem_mul.mp hrest
      obtain ⟨b, hb, rfl⟩ := mem_oneOf.mp hlast
      exact (framed_cons_concat hsub).mpr ⟨ha, hb, mem_star_oneOf.mp hmiddle⟩
    · exact (framed_singleton hsub).mpr ha
  · intro h
    cases x with
    | nil => exact absurd h not_framed_nil
    | cons a rest =>
      rcases List.eq_nil_or_concat rest with rfl | ⟨middle, b, rfl⟩
      · have ha := (framed_singleton hsub).mp h
        exact ⟨[a], mem_oneOf.mpr ⟨a, ha, rfl⟩, [], mem_opt.mpr (Or.inr rfl), rfl⟩
      · rw [List.concat_eq_append] at h ⊢
        obtain ⟨ha, hb, hall⟩ := (framed_cons_concat hsub).mp h
        refine ⟨[a], mem_oneOf.mpr ⟨a, ha, rfl⟩, middle ++ [b], mem_opt.mpr (Or.inl ?_), rfl⟩
        exact Language.append_mem_mul (mem_star_oneOf.mpr hall) (mem_oneOf.mpr ⟨b, hb, rfl⟩)

/-! ## Parts between separators, `P(,P)*` -/

def separated (sep : α) (P : RegularExpression α) : RegularExpression α := P * star (.char sep * P)

theorem mem_star_separated : x ∈ (star (.char sep * P)).matches' ↔
    ∃ parts : List (List α), x = parts.flatMap (sep :: ·) ∧ ∀ part ∈ parts, part ∈ P.matches' := by
  rw [matches'_star, Language.mem_kstar]
  constructor
  · rintro ⟨words, rfl, hwords⟩
    induction words with
    | nil => exact ⟨[], rfl, fun _ hpart => absurd hpart List.not_mem_nil⟩
    | cons word words ih =>
      rw [List.forall_mem_cons] at hwords
      obtain ⟨parts, hparts, hall⟩ := ih hwords.2
      obtain ⟨_, rfl, part, hpart, rfl⟩ := Language.mem_mul.mp hwords.1
      refine ⟨part :: parts, ?_, List.forall_mem_cons.mpr ⟨hpart, hall⟩⟩
      rw [List.flatten_cons, hparts, List.flatMap_cons, List.singleton_append]
  · rintro ⟨parts, rfl, hall⟩
    refine ⟨parts.map (sep :: ·), List.flatMap_def, ?_⟩
    intro word hword
    obtain ⟨part, hpart, rfl⟩ := List.mem_map.mp hword
    exact Language.append_mem_mul (a := [sep]) rfl (hall part hpart)

theorem intercalate_cons (first : List α) (parts : List (List α)) :
    [sep].intercalate (first :: parts) = first ++ parts.flatMap (sep :: ·) := by
  induction parts generalizing first with
  | nil => rw [List.intercalate_singleton, List.flatMap_nil, List.append_nil]
  | cons part parts ih =>
    rw [List.intercalate_cons_cons, ih, List.flatMap_cons]
    simp only [List.append_assoc, List.cons_append, List.nil_append]

theorem eq_or_mem_of_splitOn [DecidableEq α] (sep : α) (h : a ∈ x) : a = sep ∨ ∃ part ∈ x.splitOn sep, a ∈ part := by
  obtain ⟨first, parts, hsplit⟩ := List.exists_cons_of_ne_nil (List.splitOn_ne_nil sep x)
  have hx : [sep].intercalate (x.splitOn sep) = x := List.intercalate_splitOn sep
  rw [← hx, hsplit, intercalate_cons, List.mem_append, List.mem_flatMap] at h
  rw [hsplit]
  rcases h with hfirst | ⟨part, hpart, ha⟩
  · exact Or.inr ⟨first, List.mem_cons_self, hfirst⟩
  · rcases List.mem_cons.mp ha with rfl | ha
    · exact Or.inl rfl
    · exact Or.inr ⟨part, List.mem_cons_of_mem first hpart, ha⟩

theorem mem_separated [DecidableEq α] (hP : ∀ part ∈ P.matches', sep ∉ part) :
    x ∈ (separated sep P).matches' ↔ ∀ part ∈ x.splitOn sep, part ∈ P.matches' := by
  rw [separated, matches'_mul, Language.mem_mul]
  constructor
  · rintro ⟨first, hfirst, _, hrest, rfl⟩
    obtain ⟨parts, rfl, hall⟩ := mem_star_separated.mp hrest
    have hparts : ∀ part ∈ first :: parts, part ∈ P.matches' := List.forall_mem_cons.mpr ⟨hfirst, hall⟩
    rw [← intercalate_cons, List.splitOn_intercalate sep (fun part hpart => hP part (hparts part hpart))
      (List.cons_ne_nil first parts)]
    exact hparts
  · intro hall
    obtain ⟨first, parts, hsplit⟩ := List.exists_cons_of_ne_nil (List.splitOn_ne_nil sep x)
    rw [hsplit, List.forall_mem_cons] at hall
    refine ⟨first, hall.1, parts.flatMap (sep :: ·), mem_star_separated.mpr ⟨parts, rfl, hall.2⟩, ?_⟩
    rw [← intercalate_cons, ← hsplit, List.intercalate_splitOn]

/-! ## An optional part in front, `(P/)?Q` -/

def preceded (sep : α) (P Q : RegularExpression α) : RegularExpression α := opt (P * .char sep) * Q

theorem mem_preceded : x ∈ (preceded sep P Q).matches' ↔
    x ∈ Q.matches' ∨ ∃ p ∈ P.matches', ∃ q ∈ Q.matches', x = p ++ sep :: q := by
  rw [preceded, matches'_mul, Language.mem_mul]
  constructor
  · rintro ⟨front, hfront, q, hq, rfl⟩
    rcases mem_opt.mp hfront with hfront | rfl
    · obtain ⟨p, hp, _, rfl, rfl⟩ := Language.mem_mul.mp hfront
      refine Or.inr ⟨p, hp, q, hq, ?_⟩
      rw [List.append_assoc, List.singleton_append]
    · exact Or.inl hq
  · rintro (hq | ⟨p, hp, q, hq, rfl⟩)
    · exact ⟨[], mem_opt.mpr (Or.inr rfl), x, hq, rfl⟩
    · refine ⟨p ++ [sep], mem_opt.mpr (Or.inl ?_), q, hq, ?_⟩
      · exact Language.append_mem_mul (b := [sep]) hp rfl
      · rw [List.append_assoc, List.singleton_append]

end

/-! ## Characters -/

/-- `lo-hi` in a class -/
def charRange (lo hi : Char) : List Char := (List.range (hi.toNat + 1 - lo.toNat)).map fun i => Char.ofNat (lo.toNat + i)

theorem toNat_ofNat {n : Nat} (hn : n < 0xd800) : (Char.ofNat n).toNat = n := by
  rw [Char.ofNat, dif_pos (Or.inl hn)]
  rfl

theorem mem_charRange {c lo hi : Char} (hhi : hi.toNat < 0xd800) : c ∈ charRange lo hi ↔ lo ≤ c ∧ c ≤ hi := by
  rw [charRange, List.mem_map, Char.le_def, Char.le_def, UInt32.le_iff_toNat_le, UInt32.le_iff_toNat_le]
  change _ ↔ lo.toNat ≤ c.toNat ∧ c.toNat ≤ hi.toNat
  constructor
  · rintro ⟨i, hi', rfl⟩
    rw [List.mem_range] at hi'
    rw [toNat_ofNat (by omega)]
    omega
  · rintro ⟨hlo, hle⟩
    refine ⟨c.toNat - lo.toNat, List.mem_range.mpr (by omega), ?_⟩
    rw [Nat.add_sub_cancel' hlo, Char.ofNat_toNat]

def lower : List Char := charRange 'a' 'z'

def upper : List Char := charRange 'A' 'Z'

def digits : List Char := charRange '0' '9'

def alphanumeric : List Char := upper ++ lower ++ digits

theorem mem_digits {c : Char} : c ∈ digits ↔ '0' ≤ c ∧ c ≤ '9' := mem_charRange (by decide)

theorem mem_alphanumeric {c : Char} : c ∈ alphanumeric ↔ Text.isAsciiAlphanumeric c = true := by
  have hlower : c ∈ lower ↔ 'a' ≤ c ∧ c ≤ 'z' := mem_charRange (by decide)
  have hupper : c ∈ upper ↔ 'A' ≤ c ∧ c ≤ 'Z' := mem_charRange (by decide)
  simp only [alphanumeric, List.mem_append, hlower, hupper, mem_digits, Text.isAsciiAlphanumeric, Bool.or_eq_true,
    Bool.and_eq_true, decide_eq_true_eq]
  rw [or_comm (a := 'A' ≤ c ∧ c ≤ 'Z')]

theorem ascii_of_mem_alphanumeric {c : Char} (h : c ∈ alphanumeric) : c.toNat < 128 := by
  rw [mem_alphanumeric] at h
  simp only [Text.isAsciiAlphanumeric, Bool.or_eq_true, Bool.and_eq_true, decide_eq_true_eq, Char.le_def,
    UInt32.le_iff_toNat_le] at h
  have hz : 'z'.val.toNat = 122 := rfl
  have hZ : 'Z'.val.toNat = 90 := rfl
  have h9 : '9'.val.toNat = 57 := rfl
  change c.val.toNat < 128
  omega

end FiveSpot.Pattern
