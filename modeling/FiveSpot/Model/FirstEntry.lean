import Mathlib.Data.List.Basic

/-! # Collecting items by key

Items are folded into an ordered map. The first item of a key that makes an entry decides it; later items of
the key are passed over.
-/

namespace FiveSpot.FirstEntry

set_option autoImplicit false

variable {κ α σ : Type}

def step [Ord κ] (key : α → κ) (entry : α → Option σ) (map : Std.TreeMap κ σ) (item : α) : Std.TreeMap κ σ :=
  if map.contains (key item) then map
  else match entry item with
    | some s => map.insert (key item) s
    | none => map

def collect [Ord κ] (key : α → κ) (entry : α → Option σ) (items : List α) : Std.TreeMap κ σ :=
  items.foldl (step key entry) ∅

section

variable [DecidableEq κ] {key : α → κ} {entry : α → Option σ}

/-- What an item contributes to a key. -/
def entryAt (key : α → κ) (entry : α → Option σ) (k : κ) (item : α) : Option σ :=
  if key item = k then entry item else none

theorem entryAt_eq_some {k : κ} {item : α} {s : σ} :
    entryAt key entry k item = some s ↔ key item = k ∧ entry item = some s := by
  unfold entryAt
  split <;> simp_all

theorem findSome?_isSome_iff {items : List α} {k : κ} : (items.findSome? (entryAt key entry k)).isSome ↔
    ∃ item ∈ items, key item = k ∧ (entry item).isSome := by
  rw [List.findSome?_isSome_iff]
  simp only [Option.isSome_iff_exists, entryAt_eq_some, exists_and_left]

end

/-! ## Items that decide alike -/

/-- All items that decide, decide the same. -/
def Agree (decision : α → Option σ) (items : List α) : Prop :=
  ∀ a ∈ items, ∀ b ∈ items, (decision a).isSome → (decision b).isSome → decision a = decision b

section

variable {decision : α → Option σ} {items items' : List α} {a : α}

theorem Agree.perm (h : Agree decision items) (hperm : items'.Perm items) : Agree decision items' :=
  fun a ha b hb => h a (hperm.mem_iff.mp ha) b (hperm.mem_iff.mp hb)

theorem Agree.findSome?_eq (h : Agree decision items) (ha : a ∈ items) (hdecides : (decision a).isSome) :
    items.findSome? decision = decision a := by
  have hsome : (items.findSome? decision).isSome := List.findSome?_isSome_iff.mpr ⟨a, ha, hdecides⟩
  obtain ⟨s, hs⟩ := Option.isSome_iff_exists.mp hsome
  obtain ⟨first, hfirst, hdecision⟩ := List.exists_of_findSome?_eq_some hs
  rw [hs, ← hdecision]
  exact h first hfirst a ha (hdecision ▸ rfl) hdecides

/-- Then their order does not matter. -/
theorem Agree.findSome?_perm (h : Agree decision items) (hperm : items'.Perm items) :
    items'.findSome? decision = items.findSome? decision := by
  by_cases hnone : ∀ a ∈ items, decision a = none
  · rw [List.findSome?_eq_none_iff.mpr hnone,
      List.findSome?_eq_none_iff.mpr fun a ha => hnone a (hperm.mem_iff.mp ha)]
  · obtain ⟨a, ha⟩ := not_forall.mp hnone
    obtain ⟨ha, hdecides⟩ := Classical.not_imp.mp ha
    have hsome : (decision a).isSome := Option.ne_none_iff_isSome.mp hdecides
    rw [h.findSome?_eq ha hsome, (h.perm hperm).findSome?_eq (hperm.mem_iff.mpr ha) hsome]

/-- Otherwise each of them can be put first. -/
theorem exists_perm_findSome? (ha : a ∈ items) (hdecides : (decision a).isSome) :
    ∃ items' : List α, items'.Perm items ∧ items'.findSome? decision = decision a := by
  obtain ⟨before, after, rfl⟩ := List.append_of_mem ha
  exact ⟨a :: (before ++ after), List.perm_middle.symm, List.findSome?_cons_of_isSome hdecides⟩

end

variable [Ord κ] [DecidableEq κ] [Std.TransOrd κ] [Std.LawfulEqOrd κ] {key : α → κ} {entry : α → Option σ}
  {items items' : List α}

theorem getElem?_step (map : Std.TreeMap κ σ) (item : α) (k : κ) :
    (step key entry map item)[k]? = map[k]?.or (entryAt key entry k item) := by
  have hcontains : map.contains (key item) = map[key item]?.isSome := Std.TreeMap.contains_eq_isSome_getElem?
  unfold step entryAt
  rw [hcontains]
  by_cases hkey : key item = k
  · subst hkey
    rw [if_pos rfl]
    cases hold : map[key item]? with
    | some s => simp only [Option.isSome_some, if_true, hold, Option.some_or]
    | none =>
      rw [Option.isSome_none, if_neg Bool.false_ne_true, Option.none_or]
      cases entry item with
      | some s => simp
      | none => exact hold
  · rw [if_neg hkey, Option.or_none]
    split
    · rfl
    · cases entry item with
      | some s => simp [Std.TreeMap.getElem?_insert, hkey]
      | none => rfl

theorem getElem?_collect (k : κ) : (collect key entry items)[k]? = items.findSome? (entryAt key entry k) := by
  have hfold : ∀ map : Std.TreeMap κ σ,
      (items.foldl (step key entry) map)[k]? = map[k]?.or (items.findSome? (entryAt key entry k)) := by
    induction items with
    | nil => intro map; simp
    | cons item items ih =>
      intro map
      rw [List.foldl_cons, ih, getElem?_step, Option.or_assoc, List.findSome?_cons]
      cases entryAt key entry k item <;> rfl
  rw [collect, hfold]
  simp

theorem mem_toList_collect {k : κ} {s : σ} :
    (k, s) ∈ (collect key entry items).toList ↔ items.findSome? (entryAt key entry k) = some s := by
  rw [Std.TreeMap.mem_toList_iff_getElem?_eq_some, getElem?_collect]

/-! ## Entries that are made from the key alone -/

def keyed (key : α → κ) (keep : α → Bool) (make : κ → σ) (item : α) : Option σ :=
  if keep item then some (make (key item)) else none

variable {keep keep' : α → Bool} {make : κ → σ}

omit [Ord κ] [DecidableEq κ] [Std.TransOrd κ] [Std.LawfulEqOrd κ] in
theorem isSome_keyed {item : α} : (keyed key keep make item).isSome = keep item := by
  unfold keyed
  cases keep item <;> rfl

omit [Ord κ] [Std.TransOrd κ] [Std.LawfulEqOrd κ] in
theorem eq_make {k : κ} {s : σ} (h : items.findSome? (entryAt key (keyed key keep make) k) = some s) : s = make k := by
  obtain ⟨item, -, hitem⟩ := List.exists_of_findSome?_eq_some h
  obtain ⟨rfl, hs⟩ := entryAt_eq_some.mp hitem
  unfold keyed at hs
  split at hs
  · exact (Option.some.inj hs).symm
  · cases hs

theorem mem_values_collect {s : σ} : s ∈ (collect key (keyed key keep make) items).toList.map Prod.snd ↔
    ∃ item ∈ items, keep item = true ∧ s = make (key item) := by
  constructor
  · intro h
    obtain ⟨⟨k, s⟩, hmem, rfl⟩ := List.mem_map.mp h
    have hfound := mem_toList_collect.mp hmem
    obtain ⟨item, hitem, rfl, hkeep⟩ := findSome?_isSome_iff.mp (Option.isSome_of_eq_some hfound)
    rw [isSome_keyed] at hkeep
    exact ⟨item, hitem, hkeep, eq_make hfound⟩
  · rintro ⟨item, hitem, hkeep, rfl⟩
    have hfound : (items.findSome? (entryAt key (keyed key keep make) (key item))).isSome :=
      findSome?_isSome_iff.mpr ⟨item, hitem, rfl, isSome_keyed.trans hkeep⟩
    obtain ⟨s, hfound⟩ := Option.isSome_iff_exists.mp hfound
    rw [← eq_make hfound]
    exact List.mem_map_of_mem (mem_toList_collect.mpr hfound)

/-- The order of the items does not matter, nor which of several items of one key is kept. -/
theorem toList_collect_congr (hkeys : ∀ k, (∃ item ∈ items, key item = k ∧ keep item = true) ↔
      ∃ item ∈ items', key item = k ∧ keep' item = true) :
    (collect key (keyed key keep make) items).toList = (collect key (keyed key keep' make) items').toList := by
  apply Std.TreeMap.equiv_iff_toList_eq.mp
  apply Std.TreeMap.Equiv.of_forall_constGet?_eq
  intro k
  rw [getElem?_collect, getElem?_collect]
  have hsome : (items.findSome? (entryAt key (keyed key keep make) k)).isSome ↔
      (items'.findSome? (entryAt key (keyed key keep' make) k)).isSome := by
    rw [findSome?_isSome_iff, findSome?_isSome_iff]
    simp only [isSome_keyed]
    exact hkeys k
  cases hs : items.findSome? (entryAt key (keyed key keep make) k) with
  | none =>
    rw [hs] at hsome
    exact (Option.not_isSome_iff_eq_none.mp fun h => absurd (hsome.mpr h) (by simp)).symm
  | some s =>
    rw [hs] at hsome
    obtain ⟨s', hs'⟩ := Option.isSome_iff_exists.mp (hsome.mp rfl)
    rw [hs', eq_make hs, eq_make hs']

end FiveSpot.FirstEntry
