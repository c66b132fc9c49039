import FiveSpot.Model.Text

/-! # JSON values

Objects are association lists; the first entry of a name is the one that counts. String
maps are kept sorted by key, as a `BTreeMap` iterates them.
-/

namespace FiveSpot

set_option autoImplicit false

inductive Json where
  | null
  | bool (b : Bool)
  | num (n : Int)
  | str (s : String)
  | arr (items : List Json)
  | obj (fields : List (String × Json))

namespace Json

def get (name : String) : Json → Option Json
  | .obj fields => (fields.find? fun field => field.1 == name).map Prod.snd
  | _ => none

def asStr : Json → Option String
  | .str s => some s
  | _ => none

def asBool : Json → Option Bool
  | .bool b => some b
  | _ => none

/-- A number that fits into 64 signed bits. -/
def asI64 : Json → Option Int
  | .num n => if -(2 ^ 63) ≤ n ∧ n < 2 ^ 63 then some n else none
  | _ => none

def asArray : Json → Option (List Json)
  | .arr items => some items
  | _ => none

def isNull : Json → Bool
  | .null => true
  | _ => false

def asObject : Json → Option (List (String × Json))
  | .obj fields => some fields
  | _ => none

/-! Equality of nested values is decided structurally. -/

mutual

def beq : Json → Json → Bool
  | .null, .null => true
  | .bool a, .bool b => a == b
  | .num a, .num b => a == b
  | .str a, .str b => a == b
  | .arr a, .arr b => beqItems a b
  | .obj a, .obj b => beqFields a b
  | _, _ => false

def beqItems : List Json → List Json → Bool
  | [], [] => true
  | a :: as, b :: bs => beq a b && beqItems as bs
  | _, _ => false

def beqFields : List (String × Json) → List (String × Json) → Bool
  | [], [] => true
  | (k, a) :: as, (l, b) :: bs => k == l && beq a b && beqFields as bs
  | _, _ => false

end

mutual

theorem eq_of_beq : (a b : Json) → beq a b = true → a = b
  | .null, b, h => by cases b <;> simp_all [beq]
  | .bool a, b, h => by cases b <;> simp_all [beq]
  | .num a, b, h => by cases b <;> simp_all [beq]
  | .str a, b, h => by cases b <;> simp_all [beq]
  | .arr a, b, h => by
    cases b with
    | arr b => rw [eq_of_beqItems a b (by simpa [beq] using h)]
    | _ => simp [beq] at h
  | .obj a, b, h => by
    cases b with
    | obj b => rw [eq_of_beqFields a b (by simpa [beq] using h)]
    | _ => simp [beq] at h

theorem eq_of_beqItems : (a b : List Json) → beqItems a b = true → a = b
  | [], b, h => by cases b <;> simp_all [beqItems]
  | x :: xs, b, h => by
    cases b with
    | nil => simp [beqItems] at h
    | cons y ys =>
      simp only [beqItems, Bool.and_eq_true] at h
      rw [eq_of_beq x y h.1, eq_of_beqItems xs ys h.2]

theorem eq_of_beqFields : (a b : List (String × Json)) → beqFields a b = true → a = b
  | [], b, h => by cases b <;> simp_all [beqFields]
  | (k, x) :: xs, b, h => by
    cases b with
    | nil => simp [beqFields] at h
    | cons y ys =>
      obtain ⟨l, y⟩ := y
      simp only [beqFields, Bool.and_eq_true, beq_iff_eq] at h
      rw [h.1.1, eq_of_beq x y h.1.2, eq_of_beqFields xs ys h.2]

end

mutual

theorem beq_refl : (a : Json) → beq a a = true
  | .null => rfl
  | .bool a => by simp [beq]
  | .num a => by simp [beq]
  | .str a => by simp [beq]
  | .arr a => by simpa [beq] using beqItems_refl a
  | .obj a => by simpa [beq] using beqFields_refl a

theorem beqItems_refl : (a : List Json) → beqItems a a = true
  | [] => rfl
  | x :: xs => by simp [beqItems, beq_refl x, beqItems_refl xs]

theorem beqFields_refl : (a : List (String × Json)) → beqFields a a = true
  | [] => rfl
  | (k, x) :: xs => by simp [beqFields, beq_refl x, beqFields_refl xs]

end

instance : DecidableEq Json := fun a b =>
  if h : beq a b = true then isTrue (eq_of_beq a b h)
  else isFalse fun heq => h (heq ▸ beq_refl a)

end Json

abbrev StringMap := List (String × String)

namespace StringMap

def insert (key value : String) : StringMap → StringMap
  | [] => [(key, value)]
  | (k, v) :: rest =>
    if k = key then (key, value) :: rest
    else if key < k then (key, value) :: (k, v) :: rest
    else (k, v) :: insert key value rest

def lookup (key : String) (m : StringMap) : Option String :=
  (m.find? fun entry => entry.1 == key).map Prod.snd

def erase (key : String) (m : StringMap) : StringMap := m.filter fun entry => entry.1 != key

def toJson (m : StringMap) : Json := .obj (m.map fun entry => (entry.1, .str entry.2))

/-- A map read back from JSON; every value has to be a string. -/
def ofJson : Json → Option StringMap
  | .obj fields => fields.mapM fun field => field.2.asStr.map fun s => (field.1, s)
  | _ => none

theorem lookup_cons (key k v : String) (m : StringMap) :
    lookup key ((k, v) :: m) = if k = key then some v else lookup key m := by
  by_cases h : k = key <;> simp [lookup, h]

theorem lookup_insert_of_ne {key other : String} (h : other ≠ key) (value : String) (m : StringMap) :
    (m.insert key value).lookup other = m.lookup other := by
  induction m with
  | nil => simp [insert, Ne.symm h, lookup]
  | cons entry rest ih =>
    obtain ⟨k, v⟩ := entry
    simp only [insert]
    split
    · rename_i hk
      rw [lookup_cons, lookup_cons, hk, if_neg (Ne.symm h), if_neg (Ne.symm h)]
    · split
      · rw [lookup_cons, if_neg (Ne.symm h)]
      · rw [lookup_cons, lookup_cons, ih]

theorem lookup_insert_self (key value : String) (m : StringMap) : (m.insert key value).lookup key = some value := by
  induction m with
  | nil => simp [insert, lookup_cons]
  | cons entry rest ih =>
    obtain ⟨k, v⟩ := entry
    simp only [insert]
    split
    · rw [lookup_cons, if_pos rfl]
    · rename_i hk
      split
      · rw [lookup_cons, if_pos rfl]
      · rw [lookup_cons, if_neg hk, ih]

theorem mem_of_mem_insert {key value : String} {m : StringMap} {entry : String × String}
    (h : entry ∈ m.insert key value) : entry = (key, value) ∨ entry ∈ m := by
  induction m with
  | nil => exact .inl (List.mem_singleton.mp h)
  | cons head rest ih =>
    obtain ⟨k, v⟩ := head
    simp only [insert] at h
    split at h
    · rcases List.mem_cons.mp h with rfl | hrest
      · exact .inl rfl
      · exact .inr (List.mem_cons_of_mem _ hrest)
    · split at h
      · exact List.mem_cons.mp h
      · rcases List.mem_cons.mp h with rfl | hrest
        · exact .inr List.mem_cons_self
        · exact (ih hrest).imp_right (List.mem_cons_of_mem _)

theorem lookup_erase_self (key : String) (m : StringMap) : (m.erase key).lookup key = none := by
  simp [lookup, erase]

theorem lookup_erase_of_ne {key other : String} (h : other ≠ key) (m : StringMap) :
    (m.erase key).lookup other = m.lookup other := by
  induction m with
  | nil => rfl
  | cons entry rest ih =>
    obtain ⟨k, v⟩ := entry
    simp only [erase, List.filter_cons] at ih ⊢
    split
    · rw [lookup_cons, lookup_cons, ih]
    · rename_i hk
      have hkey : k = key := by simpa using hk
      rw [ih, lookup_cons, hkey, if_neg (Ne.symm h)]

theorem ofJson_toJson (m : StringMap) : ofJson m.toJson = some m := by
  induction m with
  | nil => rfl
  | cons entry rest ih =>
    simp only [ofJson, toJson] at ih ⊢
    rw [List.map_cons, List.mapM_cons, ih]
    rfl

end StringMap

end FiveSpot
