import Mathlib.Data.List.Basic
import FiveSpot.Model.Text

/-! # JSON objects of strings as texts

The compact text of an object all of whose values are strings, and a reader for such objects: every escape, white
space wherever it is allowed, the members in the order of the text. A reader takes what it needs and leaves the rest.
-/

namespace FiveSpot.Text

set_option autoImplicit false

/-! ## Writing -/

def memberText (member : String × String) : List Char :=
  (jsonString member.1).toList ++ ':' :: (jsonString member.2).toList

/-- The members behind the opening brace. -/
def membersText : List (String × String) → List Char
  | [] => ['\x7d']
  | [member] => memberText member ++ ['\x7d']
  | member :: members => memberText member ++ ',' :: membersText members

def objectText (members : List (String × String)) : String := String.ofList ('\x7b' :: membersText members)

/-! ## Reading -/

def hexValue (c : Char) : Option Nat :=
  if '0' ≤ c ∧ c ≤ '9' then some (c.toNat - 48)
  else if 'a' ≤ c ∧ c ≤ 'f' then some (c.toNat - 87)
  else if 'A' ≤ c ∧ c ≤ 'F' then some (c.toNat - 55)
  else none

/-- Four hexadecimal digits. -/
def readUnit : List Char → Option (Nat × List Char)
  | a :: b :: c :: d :: rest => do
    let high ← hexValue a
    let next ← hexValue b
    let low ← hexValue c
    let last ← hexValue d
    return (((high * 16 + next) * 16 + low) * 16 + last, rest)
  | _ => none

def isHighSurrogate (unit : Nat) : Bool := 0xD800 ≤ unit && unit < 0xDC00
def isLowSurrogate (unit : Nat) : Bool := 0xDC00 ≤ unit && unit < 0xE000

/-- Two escapes stand for one character beyond the first plane. -/
def readSecondUnit (high : Nat) : List Char → Option (Char × List Char)
  | '\\' :: 'u' :: text => do
    let (low, rest) ← readUnit text
    if isLowSurrogate low then some (Char.ofNat (0x10000 + (high - 0xD800) * 0x400 + (low - 0xDC00)), rest) else none
  | _ => none

def readUnicode (text : List Char) : Option (Char × List Char) := do
  let (unit, rest) ← readUnit text
  if isHighSurrogate unit then readSecondUnit unit rest
  else if isLowSurrogate unit then none
  else some (Char.ofNat unit, rest)

def shortEscape (c : Char) : Option Char :=
  if c = '"' ∨ c = '\\' ∨ c = '/' then some c
  else if c = 'b' then some (Char.ofNat 8)
  else if c = 't' then some (Char.ofNat 9)
  else if c = 'n' then some (Char.ofNat 10)
  else if c = 'f' then some (Char.ofNat 12)
  else if c = 'r' then some (Char.ofNat 13)
  else none

def readEscape : List Char → Option (Char × List Char)
  | [] => none
  | c :: rest => if c = 'u' then readUnicode rest else (shortEscape c).map fun escaped => (escaped, rest)

/-- One character of a string, escaped or not. -/
def readChar : List Char → Option (Char × List Char)
  | [] => none
  | c :: rest => if c = '\\' then readEscape rest else if c = '"' ∨ c.toNat < 32 then none else some (c, rest)

/-- A string behind its opening quote. -/
def readString : Nat → List Char → Option (List Char × List Char)
  | 0, _ => none
  | _ + 1, '"' :: rest => some ([], rest)
  | fuel + 1, text => do
    let (c, rest) ← readChar text
    let (cs, rest) ← readString fuel rest
    return (c :: cs, rest)

def isSpace (c : Char) : Bool := c = ' ' || c = '\t' || c = '\n' || c = '\r'

def skipSpace (text : List Char) : List Char := text.dropWhile isSpace

def expect (c : Char) (text : List Char) : Option (List Char) :=
  match skipSpace text with
  | [] => none
  | d :: rest => if d = c then some rest else none

def readQuoted (text : List Char) : Option (String × List Char) := do
  let rest ← expect '"' text
  let (cs, rest) ← readString (rest.length + 1) rest
  return (String.ofList cs, rest)

def readMember (text : List Char) : Option ((String × String) × List Char) := do
  let (name, rest) ← readQuoted text
  let rest ← expect ':' rest
  let (value, rest) ← readQuoted rest
  return ((name, value), rest)

def readMembers : Nat → List Char → Option (List (String × String) × List Char)
  | 0, _ => none
  | fuel + 1, text => do
    let (member, rest) ← readMember text
    match expect ',' rest, expect '\x7d' rest with
    | some rest, _ => do
      let (members, rest) ← readMembers fuel rest
      return (member :: members, rest)
    | none, some rest => return ([member], rest)
    | none, none => none

def readObject (text : String) : Option (List (String × String)) := do
  let rest ← expect '\x7b' text.toList
  let (members, rest) ← match expect '\x7d' rest with
    | some rest => some ([], rest)
    | none => readMembers (rest.length + 1) rest
  if (skipSpace rest).isEmpty then some members else none

/-! ## What is written is read back -/

theorem hexValue_hexDigit {n : Nat} (h : n < 16) : hexValue (hexDigit n) = some n := by
  have hall : ∀ n : Fin 16, hexValue (hexDigit n) = some n.val := by decide
  exact hall ⟨n, h⟩

theorem readUnit_of_values {a b c d : Char} {high next low last : Nat} (ha : hexValue a = some high)
    (hb : hexValue b = some next) (hc : hexValue c = some low) (hd : hexValue d = some last) (rest : List Char) :
    readUnit (a :: b :: c :: d :: rest) = some (((high * 16 + next) * 16 + low) * 16 + last, rest) := by
  simp only [readUnit, ha, hb, hc, hd]
  rfl

/-- A control character, written with four digits. -/
theorem readUnicode_control {n : Nat} (h : n < 32) (rest : List Char) :
    readUnicode ('0' :: '0' :: hexDigit (n / 16) :: hexDigit (n % 16) :: rest) = some (Char.ofNat n, rest) := by
  have hvalue : ((0 * 16 + 0) * 16 + n / 16) * 16 + n % 16 = n := by omega
  have hzero : hexValue '0' = some 0 := rfl
  have hlow : hexValue (hexDigit (n / 16)) = some (n / 16) := hexValue_hexDigit (by omega)
  have hlast : hexValue (hexDigit (n % 16)) = some (n % 16) := hexValue_hexDigit (by omega)
  have hunit := readUnit_of_values hzero hzero hlow hlast rest
  rw [hvalue] at hunit
  have hhigh : isHighSurrogate n = false := by
    rw [isHighSurrogate, Bool.and_eq_false_iff]
    exact .inl (decide_eq_false (by omega))
  have hlow : isLowSurrogate n = false := by
    rw [isLowSurrogate, Bool.and_eq_false_iff]
    exact .inl (decide_eq_false (by omega))
  simp only [readUnicode, hunit, Option.bind_eq_bind, Option.bind_some, hhigh, hlow]
  rfl

theorem readChar_short {c escaped : Char} (hu : c ≠ 'u') (h : shortEscape c = some escaped) (rest : List Char) :
    readChar ('\\' :: c :: rest) = some (escaped, rest) := by
  simp only [readChar, readEscape, if_pos, if_neg hu, h, Option.map_some]

theorem readChar_jsonChar (c : Char) (rest : List Char) : readChar (jsonChar c ++ rest) = some (c, rest) := by
  have hcode {n : Nat} (h : c.toNat = n) : Char.ofNat n = c := by rw [← h, Char.ofNat_toNat]
  unfold jsonChar
  split
  · rename_i h
    subst h
    exact readChar_short (by decide) rfl rest
  split
  · rename_i h
    subst h
    exact readChar_short (by decide) rfl rest
  split
  · rename_i h
    exact hcode h ▸ readChar_short (by decide) rfl rest
  split
  · rename_i h
    exact hcode h ▸ readChar_short (by decide) rfl rest
  split
  · rename_i h
    exact hcode h ▸ readChar_short (by decide) rfl rest
  split
  · rename_i h
    exact hcode h ▸ readChar_short (by decide) rfl rest
  split
  · rename_i h
    exact hcode h ▸ readChar_short (by decide) rfl rest
  split
  · rename_i h
    have hread := readUnicode_control h rest
    rw [Char.ofNat_toNat] at hread
    simp only [List.cons_append, List.nil_append, readChar, readEscape, if_pos, hread]
  · rename_i hquote hslash _ _ _ _ _ hplain
    have hprintable : ¬(c = '"' ∨ c.toNat < 32) := not_or.mpr ⟨hquote, hplain⟩
    simp only [List.cons_append, List.nil_append, readChar, if_neg hslash, if_neg hprintable]

/-- No written character begins like the closing quote. -/
theorem jsonChar_head (c : Char) : ∃ first more, jsonChar c = first :: more ∧ first ≠ '"' := by
  unfold jsonChar
  repeat' split
  all_goals first
    | exact ⟨_, _, rfl, by decide⟩
    | exact ⟨_, _, rfl, by assumption⟩

theorem readString_written (cs rest : List Char) (fuel : Nat) (hfuel : cs.length < fuel) :
    readString fuel (cs.flatMap jsonChar ++ '"' :: rest) = some (cs, rest) := by
  induction cs generalizing fuel with
  | nil =>
    obtain ⟨fuel, rfl⟩ := Nat.exists_eq_add_one_of_ne_zero (Nat.ne_of_gt hfuel)
    rfl
  | cons c cs ih =>
    obtain ⟨fuel, rfl⟩ := Nat.exists_eq_add_one_of_ne_zero (Nat.ne_zero_of_lt hfuel)
    have hrest := ih fuel (Nat.lt_of_succ_lt_succ hfuel)
    have hchar := readChar_jsonChar c (cs.flatMap jsonChar ++ '"' :: rest)
    obtain ⟨first, more, hfirst, hquote⟩ := jsonChar_head c
    rw [List.flatMap_cons, List.append_assoc]
    rw [hfirst, List.cons_append] at hchar ⊢
    rw [readString.eq_3 _ _ (fun _ h => hquote (List.cons.inj h).1), hchar]
    simp only [Option.bind_eq_bind, Option.bind_some, hrest]
    rfl

theorem length_le_written (cs : List Char) : cs.length ≤ (cs.flatMap jsonChar).length := by
  induction cs with
  | nil => exact Nat.le_refl 0
  | cons c cs ih =>
    obtain ⟨first, more, hfirst, -⟩ := jsonChar_head c
    rw [List.flatMap_cons, hfirst, List.length_append, List.length_cons, List.length_cons]
    omega

theorem expect_here {c : Char} (h : isSpace c = false) (rest : List Char) : expect c (c :: rest) = some rest := by
  rw [expect, skipSpace, List.dropWhile_cons_of_neg (by rw [h]; exact Bool.false_ne_true)]
  exact if_pos rfl

theorem expect_other {c d : Char} (h : isSpace d = false) (hne : d ≠ c) (rest : List Char) : expect c (d :: rest) = none := by
  rw [expect, skipSpace, List.dropWhile_cons_of_neg (by rw [h]; exact Bool.false_ne_true)]
  exact if_neg hne

theorem readQuoted_jsonString (s : String) (rest : List Char) :
    readQuoted ((jsonString s).toList ++ rest) = some (s, rest) := by
  have hwritten : (jsonString s).toList ++ rest = '"' :: (s.toList.flatMap jsonChar ++ '"' :: rest) := by
    rw [jsonString, String.toList_ofList]
    simp
  have hfuel : s.toList.length < (s.toList.flatMap jsonChar ++ '"' :: rest).length + 1 := by
    have hlength := length_le_written s.toList
    rw [List.length_append]
    omega
  have hread := readString_written s.toList rest _ hfuel
  rw [hwritten, readQuoted, expect_here rfl]
  simp only [Option.bind_eq_bind, Option.bind_some, hread, String.ofList_toList]
  rfl

theorem expect_colon (rest : List Char) : expect ':' (':' :: rest) = some rest := expect_here rfl rest

theorem readMember_memberText (member : String × String) (rest : List Char) :
    readMember (memberText member ++ rest) = some (member, rest) := by
  rw [memberText, List.append_assoc, List.cons_append, readMember, readQuoted_jsonString]
  simp only [Option.bind_eq_bind, Option.bind_some, expect_colon, readQuoted_jsonString]
  rfl

theorem membersText_cons_cons (member next : String × String) (members : List (String × String)) :
    membersText (member :: next :: members) = memberText member ++ ',' :: membersText (next :: members) := rfl

theorem readMembers_membersText {members : List (String × String)} (hsome : members ≠ []) (rest : List Char) (fuel : Nat)
    (hfuel : members.length < fuel) : readMembers fuel (membersText members ++ rest) = some (members, rest) := by
  induction members generalizing fuel with
  | nil => exact absurd rfl hsome
  | cons member members ih =>
    obtain ⟨fuel, rfl⟩ := Nat.exists_eq_add_one_of_ne_zero (Nat.ne_zero_of_lt hfuel)
    have hmore : members.length < fuel := Nat.lt_of_succ_lt_succ hfuel
    cases members with
    | nil =>
      have hcomma : expect ',' ('\x7d' :: rest) = none := expect_other rfl (by decide) rest
      have hclose : expect '\x7d' ('\x7d' :: rest) = some rest := expect_here rfl rest
      rw [membersText, List.append_assoc, List.singleton_append, readMembers, readMember_memberText]
      simp only [Option.bind_eq_bind, Option.bind_some, hcomma, hclose]
      rfl
    | cons next members =>
      have hcomma : expect ',' (',' :: (membersText (next :: members) ++ rest)) = some (membersText (next :: members) ++ rest) :=
        expect_here rfl _
      have hrest := ih (List.cons_ne_nil next members) fuel hmore
      rw [membersText_cons_cons, List.append_assoc, List.cons_append, readMembers, readMember_memberText]
      simp only [Option.bind_eq_bind, Option.bind_some, hcomma, hrest]
      rfl

theorem memberText_head (member : String × String) : ∃ more, memberText member = '"' :: more := by
  rw [memberText, jsonString, String.toList_ofList]
  exact ⟨_, rfl⟩

theorem length_le_membersText (members : List (String × String)) : members.length ≤ (membersText members).length := by
  induction members with
  | nil => exact Nat.zero_le _
  | cons member members ih =>
    cases members with
    | nil =>
      rw [membersText, List.length_append]
      exact Nat.le_add_left 1 _
    | cons next members =>
      rw [membersText_cons_cons]
      simp only [List.length_append, List.length_cons] at ih ⊢
      omega

theorem readObject_objectText (members : List (String × String)) : readObject (objectText members) = some members := by
  rw [objectText, readObject, String.toList_ofList, expect_here rfl]
  cases members with
  | nil => rfl
  | cons member members =>
    have hopen : expect '\x7d' (membersText (member :: members)) = none := by
      obtain ⟨more, hmore⟩ := memberText_head member
      cases members with
      | nil =>
        rw [membersText, hmore]
        exact expect_other rfl (by decide) _
      | cons next members =>
        rw [membersText_cons_cons, hmore]
        exact expect_other rfl (by decide) _
    have hfuel := Nat.lt_succ_of_le (length_le_membersText (member :: members))
    have hread := readMembers_membersText (List.cons_ne_nil member members) [] _ hfuel
    rw [List.append_nil] at hread
    simp only [Option.bind_eq_bind, Option.bind_some, hopen, hread]
    rfl

end FiveSpot.Text
