import FiveSpot.Model.Lines
import FiveSpot.Providers.Windows

/-! # The grammar of day and hour ranges

Both parsers read numbers in writing, alone or with a dash between two of them. What they return is the union
of the cyclic intervals that are written.
-/

namespace FiveSpot

set_option autoImplicit false

open Interaction

/-! ## Cyclic intervals -/

/-- Going round a circle of `m` numbers from `start` on, `n` comes no later than `stop`. -/
def Cyclic (m start stop n : Nat) : Prop := ∃ k ≤ (stop + m - start) % m, n = (start + k) % m

section

variable {m start stop n : Nat}

theorem Cyclic.lt (hm : 0 < m) (h : Cyclic m start stop n) : n < m := by
  obtain ⟨k, -, rfl⟩ := h
  exact Nat.mod_lt _ hm

theorem cyclic_of_le (hle : start ≤ stop) (hstop : stop < m) : Cyclic m start stop n ↔ start ≤ n ∧ n ≤ stop := by
  have hlength : (stop + m - start) % m = stop - start := by
    rw [Nat.sub_add_comm hle, Nat.add_mod_right, Nat.mod_eq_of_lt (by omega)]
  rw [Cyclic, hlength]
  constructor
  · rintro ⟨k, hk, rfl⟩
    rw [Nat.mod_eq_of_lt (by omega)]
    omega
  · rintro ⟨hlow, hhigh⟩
    refine ⟨n - start, by omega, ?_⟩
    rw [Nat.mod_eq_of_lt (by omega)]
    omega

theorem cyclic_of_lt (hlt : stop < start) (hstart : start < m) :
    Cyclic m start stop n ↔ start ≤ n ∧ n < m ∨ n ≤ stop := by
  have hlength : (stop + m - start) % m = stop + m - start := Nat.mod_eq_of_lt (by omega)
  rw [Cyclic, hlength]
  constructor
  · rintro ⟨k, hk, rfl⟩
    rcases Nat.lt_or_ge (start + k) m with hbelow | habove
    · rw [Nat.mod_eq_of_lt hbelow]
      omega
    · rw [Nat.mod_eq_sub_mod habove, Nat.mod_eq_of_lt (by omega)]
      omega
  · rintro (⟨hlow, hhigh⟩ | hwrapped)
    · refine ⟨n - start, by omega, ?_⟩
      rw [Nat.mod_eq_of_lt (by omega)]
      omega
    · refine ⟨n + m - start, by omega, ?_⟩
      rw [Nat.mod_eq_sub_mod (by omega), Nat.mod_eq_of_lt (by omega)]
      omega

theorem mem_wrappedRange_iff {last : Nat} (hstart : start ≤ last) (hstop : stop ≤ last) :
    n ∈ wrappedRange last start stop ↔ Cyclic (last + 1) start stop n := by
  unfold wrappedRange
  split
  · rename_i hle
    rw [cyclic_of_le hle (by omega), List.mem_range'_1]
    omega
  · rename_i hlt
    rw [cyclic_of_lt (by omega) (by omega), List.mem_append, List.mem_range'_1, List.mem_range]
    omega

theorem wrappedRange_self (last n : Nat) : wrappedRange last n n = [n] := by
  simp [wrappedRange]

end

/-! ## Parts -/

/-- A number, or two with a dash between them and blanks around it. -/
inductive Spells (number : String → Nat → Prop) (part : String) : Nat → Nat → Prop
  | single {n : Nat} (written : number part n) : Spells number part n n
  | range {first second : String} {start stop : Nat} (dash : part.toList = first.toList ++ '-' :: second.toList)
      (from_ : number (Text.trim first) start) (to_ : number (Text.trim second) stop) : Spells number part start stop

/-- The same without blanks around the dash. -/
inductive SpellsTightly (number : String → Nat → Prop) (part : String) : Nat → Nat → Prop
  | single {n : Nat} (written : number part n) : SpellsTightly number part n n
  | range {first second : String} {start stop : Nat} (dash : part.toList = first.toList ++ '-' :: second.toList)
      (from_ : number first start) (to_ : number second stop) : SpellsTightly number part start stop

def IsDay (name : String) (day : Nat) : Prop := (name, day) ∈ dayMapping

/-- What `u8::from_str` reads, up to 23. -/
def IsHour (text : String) (hour : Nat) : Prop := Text.parseUnsigned 8 text = some hour ∧ hour ≤ maxHour

section

variable {cs : List Char} {c : Char} {part first second : String}

theorem mem_dropWhile_of_not {p : Char → Bool} (hc : c ∈ cs) (hp : p c = false) : c ∈ cs.dropWhile p := by
  induction cs with
  | nil => cases hc
  | cons d cs ih =>
    rw [List.dropWhile_cons]
    split
    · rename_i hd
      rcases List.mem_cons.mp hc with rfl | hc
      · rw [hp] at hd
        cases hd
      · exact ih hc
    · exact hc

theorem mem_trim_of_not_blank (hc : c ∈ part.toList) (hblank : Text.isWhitespace c = false) :
    c ∈ (Text.trim part).toList := by
  rw [Text.trim, String.toList_ofList, Text.trimList, List.mem_reverse]
  exact mem_dropWhile_of_not (List.mem_reverse.mpr (mem_dropWhile_of_not hc hblank)) hblank

theorem not_dash_of_trim (h : '-' ∉ (Text.trim part).toList) : '-' ∉ part.toList :=
  fun hmem => h (mem_trim_of_not_blank hmem (by decide))

theorem split_of_dash (dash : part.toList = first.toList ++ '-' :: second.toList)
    (hfirst : '-' ∉ (Text.trim first).toList) (hsecond : '-' ∉ (Text.trim second).toList) :
    Text.split '-' part = [first, second] :=
  Text.split_eq_pair_iff.mpr ⟨dash, not_dash_of_trim hfirst, not_dash_of_trim hsecond⟩

end

/-! ## Days -/

section

variable {part name : String} {day start stop : Nat} {days : List Nat}

theorem dayNumber_eq_ok_iff : dayNumber name = .ok day ↔ IsDay name day := by
  constructor
  · intro h
    unfold dayNumber at h
    split at h
    · rename_i entry hfound
      cases h
      have hname : entry.1 = name := by simpa using List.find?_some hfound
      rw [IsDay, ← hname]
      exact List.mem_of_find?_eq_some hfound
    · cases h
  · intro h
    simp only [IsDay, dayMapping, List.mem_cons, List.not_mem_nil, or_false, Prod.mk.injEq] at h
    rcases h with ⟨rfl, rfl⟩ | ⟨rfl, rfl⟩ | ⟨rfl, rfl⟩ | ⟨rfl, rfl⟩ | ⟨rfl, rfl⟩ | ⟨rfl, rfl⟩ | ⟨rfl, rfl⟩ <;> rfl

theorem IsDay.no_dash (h : IsDay name day) : '-' ∉ name.toList := by
  have hall : ∀ entry ∈ dayMapping, '-' ∉ entry.1.toList := by decide
  exact hall _ h

theorem parseDayPart_eq_ok_iff : parseDayPart part = .ok days ↔
    ∃ start stop, Spells IsDay part start stop ∧ days = wrappedRange maxDay start stop := by
  unfold parseDayPart
  constructor
  · intro h
    split at h
    · split at h
      · rename_i first second hsplit
        obtain ⟨hpart, -, -⟩ := Text.split_eq_pair_iff.mp hsplit
        obtain ⟨start, hstart, h⟩ := except_bind_eq_ok_iff.mp h
        obtain ⟨stop, hstop, h⟩ := except_bind_eq_ok_iff.mp h
        cases h
        exact ⟨start, stop, .range hpart (dayNumber_eq_ok_iff.mp hstart) (dayNumber_eq_ok_iff.mp hstop), rfl⟩
      · cases h
    · cases hday : dayNumber part with
      | error e =>
        rw [hday] at h
        cases h
      | ok day =>
        rw [hday] at h
        cases h
        exact ⟨day, day, .single (dayNumber_eq_ok_iff.mp hday), (wrappedRange_self maxDay day).symm⟩
  · rintro ⟨start, stop, hspells, rfl⟩
    cases hspells with
    | single written =>
      rw [if_neg (by simpa using written.no_dash), dayNumber_eq_ok_iff.mpr written, wrappedRange_self]
      rfl
    | @range first second _ _ dash from_ to_ =>
      have hsplit := split_of_dash dash from_.no_dash to_.no_dash
      have hdash : part.toList.contains '-' = true := by simp [dash]
      rw [if_pos hdash, hsplit]
      dsimp only
      rw [dayNumber_eq_ok_iff.mpr from_, dayNumber_eq_ok_iff.mpr to_]
      rfl

end

/-! ## Hours -/

section

variable {part text : String} {hour start stop : Nat} {hours : List Nat}

theorem digit_of_parseDigits {cs : List Char} {acc n : Nat} (h : Text.parseDigits cs acc = some n) :
    ∀ c ∈ cs, (Text.digit c).isSome = true := by
  induction cs generalizing acc with
  | nil => exact fun c hc => nomatch hc
  | cons d cs ih =>
    obtain ⟨value, hvalue, hrest⟩ := Option.bind_eq_some_iff.mp h
    intro c hc
    rcases List.mem_cons.mp hc with rfl | hc
    · rw [hvalue]
      rfl
    · exact ih hrest c hc

theorem parseUnsigned_chars {width n : Nat} (h : Text.parseUnsigned width text = some n) :
    ∀ c ∈ text.toList, c = '+' ∨ (Text.digit c).isSome = true := by
  unfold Text.parseUnsigned at h
  dsimp only at h
  split at h
  · cases h
  · obtain ⟨hdigits, -⟩ := Option.filter_eq_some_iff.mp h
    have hall := digit_of_parseDigits hdigits
    intro c hc
    split at hall
    · rename_i cs htext
      rw [htext] at hc
      exact (List.mem_cons.mp hc).imp id (hall c)
    · exact .inr (hall c hc)

theorem IsHour.no_dash (h : IsHour text hour) : '-' ∉ text.toList := by
  intro hmem
  rcases parseUnsigned_chars h.1 '-' hmem with heq | hdigit
  · cases heq
  · cases hdigit

theorem IsHour.nonempty (h : IsHour text hour) : text.toList ≠ [] := by
  intro hnil
  have hparse := h.1
  rw [Text.parseUnsigned, hnil] at hparse
  cases hparse

theorem hourNumber_eq_ok_iff : hourNumber text = .ok hour ↔ Text.parseUnsigned 8 (Text.trim text) = some hour := by
  unfold hourNumber
  cases Text.parseUnsigned 8 (Text.trim text) <;> simp

/-- A number comes before the dash, so the part does not begin with one. -/
theorem not_startsWith_dash {first second : String} (dash : part.toList = first.toList ++ '-' :: second.toList)
    (hfirst : IsHour (Text.trim first) hour) : Text.startsWith part "-" = false := by
  have hne : first.toList ≠ [] := by
    intro hnil
    apply hfirst.nonempty
    rw [Text.trim, hnil]
    rfl
  obtain ⟨c, cs, hcs⟩ := List.exists_cons_of_ne_nil hne
  rw [Bool.eq_false_iff]
  intro hstarts
  obtain ⟨rest, hrest⟩ := Text.startsWith_iff.mp hstarts
  rw [dash, hcs] at hrest
  have hc : c = '-' := (List.cons.inj hrest).1
  apply not_dash_of_trim hfirst.no_dash
  rw [hcs, hc]
  exact List.mem_cons_self

theorem spells_of_parseHourPart (htrim : Text.trim part = part) (h : parseHourPart part = .ok hours) :
    ∃ start stop, Spells IsHour part start stop ∧ hours = wrappedRange maxHour start stop := by
  unfold parseHourPart at h
  split at h
  · split at h
    · rename_i first second hsplit
      obtain ⟨hpart, -, -⟩ := Text.split_eq_pair_iff.mp hsplit
      obtain ⟨start, hstart, h⟩ := except_bind_eq_ok_iff.mp h
      obtain ⟨stop, hstop, h⟩ := except_bind_eq_ok_iff.mp h
      split at h
      · cases h
      · rename_i hbounds
        rw [not_or, Nat.not_lt, Nat.not_lt] at hbounds
        cases h
        exact ⟨start, stop, .range hpart ⟨hourNumber_eq_ok_iff.mp hstart, hbounds.1⟩
          ⟨hourNumber_eq_ok_iff.mp hstop, hbounds.2⟩, rfl⟩
    · cases h
  · obtain ⟨hour, hhour, h⟩ := except_bind_eq_ok_iff.mp h
    split at h
    · cases h
    · rename_i hbound
      cases h
      have hparse := hourNumber_eq_ok_iff.mp hhour
      rw [htrim] at hparse
      exact ⟨hour, hour, .single ⟨hparse, Nat.not_lt.mp hbound⟩, (wrappedRange_self maxHour hour).symm⟩

theorem parseHourPart_eq_ok_iff (htrim : Text.trim part = part) : parseHourPart part = .ok hours ↔
    ∃ start stop, Spells IsHour part start stop ∧ hours = wrappedRange maxHour start stop := by
  refine ⟨spells_of_parseHourPart htrim, ?_⟩
  rintro ⟨start, stop, hspells, rfl⟩
  unfold parseHourPart
  cases hspells with
  | single written =>
    have hnone : (part.toList.contains '-' && !Text.startsWith part "-") = false := by
      rw [Bool.and_eq_false_iff]
      exact .inl (by simpa using written.no_dash)
    have hparse : hourNumber part = .ok start := hourNumber_eq_ok_iff.mpr (htrim.symm ▸ written.1)
    rw [hnone, if_neg Bool.false_ne_true, hparse, wrappedRange_self]
    exact if_neg (Nat.not_lt.mpr written.2)
  | @range first second _ _ dash from_ to_ =>
    have hsplit := split_of_dash dash from_.no_dash to_.no_dash
    have hrange : (part.toList.contains '-' && !Text.startsWith part "-") = true := by
      rw [not_startsWith_dash dash from_]
      simp [dash]
    rw [hrange, if_pos rfl, hsplit]
    dsimp only
    rw [hourNumber_eq_ok_iff.mpr from_.1, hourNumber_eq_ok_iff.mpr to_.1]
    exact if_neg (by rw [not_or, Nat.not_lt, Nat.not_lt]; exact ⟨from_.2, to_.2⟩)

end

/-! ## Lists of parts -/

/-- The comma-separated parts of all entries. -/
def rangeParts (specs : List String) : List String := specs.flatMap fun spec => (Text.split ',' spec).map Text.trim

section

variable {ε α β : Type} {f : α → Except ε β} {l : List α}

theorem exists_ok_mapM_iff : (∃ r, l.mapM f = .ok r) ↔ ∀ a ∈ l, ∃ b, f a = .ok b := by
  induction l with
  | nil => exact ⟨fun _ a ha => (nomatch ha), fun _ => ⟨[], rfl⟩⟩
  | cons a l ih =>
    simp only [List.mapM_cons, except_bind_eq_ok_iff, List.forall_mem_cons, ← ih]
    constructor
    · rintro ⟨-, b, hb, bs, hbs, -⟩
      exact ⟨⟨b, hb⟩, bs, hbs⟩
    · rintro ⟨⟨b, hb⟩, bs, hbs⟩
      exact ⟨b :: bs, b, hb, bs, hbs, rfl⟩

theorem mem_iff_of_mapM {r : List β} (h : l.mapM f = .ok r) (b : β) : b ∈ r ↔ ∃ a ∈ l, f a = .ok b := by
  induction l generalizing r with
  | nil =>
    cases h
    simp
  | cons a l ih =>
    rw [List.mapM_cons] at h
    obtain ⟨first, hfirst, h⟩ := except_bind_eq_ok_iff.mp h
    obtain ⟨rest, hrest, h⟩ := except_bind_eq_ok_iff.mp h
    cases h
    simp only [List.mem_cons, exists_eq_or_imp, ih hrest, hfirst, Except.ok.injEq]
    rw [@eq_comm _ b]

end

section

variable {parsePart : String → Except String (List Nat)} {specs specs' : List String} {result result' : List Nat}

theorem exists_ok_parseRanges_iff : (∃ result, parseRanges parsePart specs = .ok result) ↔
    ∀ part ∈ rangeParts specs, ∃ numbers, parsePart part = .ok numbers := by
  rw [← exists_ok_mapM_iff, parseRanges, ← rangeParts]
  cases (rangeParts specs).mapM parsePart with
  | error e => simp [Except.map]
  | ok lists => simp [Except.map]

theorem mem_iff_of_parseRanges (h : parseRanges parsePart specs = .ok result) (n : Nat) :
    n ∈ result ↔ ∃ part ∈ rangeParts specs, ∃ numbers, parsePart part = .ok numbers ∧ n ∈ numbers := by
  rw [parseRanges, ← rangeParts] at h
  cases hlists : (rangeParts specs).mapM parsePart with
  | error e =>
    rw [hlists] at h
    cases h
  | ok lists =>
    rw [hlists] at h
    cases h
    rw [List.mem_flatten]
    constructor
    · rintro ⟨numbers, hnumbers, hn⟩
      obtain ⟨part, hpart, hok⟩ := (mem_iff_of_mapM hlists numbers).mp hnumbers
      exact ⟨part, hpart, numbers, hok, hn⟩
    · rintro ⟨part, hpart, numbers, hok, hn⟩
      exact ⟨numbers, (mem_iff_of_mapM hlists numbers).mpr ⟨part, hpart, hok⟩, hn⟩

end

/-! ## Both parsers -/

/-- What a parser of ranges round a circle of `m` numbers reads. -/
structure ReadsRanges (number : String → Nat → Prop) (m : Nat) (parse : List String → Except String (List Nat)) :
    Prop where
  accepts : ∀ specs, (∃ result, parse specs = .ok result) ↔
    ∀ part ∈ rangeParts specs, ∃ start stop, Spells number part start stop
  union : ∀ specs result, parse specs = .ok result → ∀ n, n ∈ result ↔
    ∃ part ∈ rangeParts specs, ∃ start stop, Spells number part start stop ∧ Cyclic m start stop n
  below : ∀ specs result, parse specs = .ok result → ∀ n ∈ result, n < m
  grouping : ∀ specs specs', rangeParts specs = rangeParts specs' → parse specs = parse specs'
  order : ∀ specs specs', (∀ part, part ∈ rangeParts specs ↔ part ∈ rangeParts specs') →
    ∀ result, parse specs = .ok result → ∃ result', parse specs' = .ok result' ∧ ∀ n, n ∈ result ↔ n ∈ result'

section

variable {number : String → Nat → Prop} {parsePart : String → Except String (List Nat)} {last : Nat}

/-- Of a part without blanks at its ends, the interval that it spells. -/
def ReadsPart (number : String → Nat → Prop) (last : Nat) (parsePart : String → Except String (List Nat)) : Prop :=
  ∀ part numbers, Text.trim part = part → (parsePart part = .ok numbers ↔
    ∃ start stop, Spells number part start stop ∧ numbers = wrappedRange last start stop)

theorem trim_of_mem_rangeParts {specs : List String} {part : String} (h : part ∈ rangeParts specs) :
    Text.trim part = part := by
  obtain ⟨spec, -, hmem⟩ := List.mem_flatMap.mp h
  obtain ⟨raw, -, rfl⟩ := List.mem_map.mp hmem
  exact Text.trim_trim raw

theorem Spells.le {part : String} {start stop : Nat} (hnumber : ∀ text n, number text n → n ≤ last)
    (h : Spells number part start stop) : start ≤ last ∧ stop ≤ last := by
  cases h with
  | single written => exact ⟨hnumber _ _ written, hnumber _ _ written⟩
  | range dash from_ to_ => exact ⟨hnumber _ _ from_, hnumber _ _ to_⟩

theorem ReadsPart.accepts (hpart : ReadsPart number last parsePart) (specs : List String) :
    (∃ result, parseRanges parsePart specs = .ok result) ↔
      ∀ part ∈ rangeParts specs, ∃ start stop, Spells number part start stop := by
  rw [exists_ok_parseRanges_iff]
  refine forall₂_congr fun part hmem => ?_
  constructor
  · rintro ⟨numbers, hok⟩
    obtain ⟨start, stop, hspells, -⟩ := (hpart part numbers (trim_of_mem_rangeParts hmem)).mp hok
    exact ⟨start, stop, hspells⟩
  · rintro ⟨start, stop, hspells⟩
    exact ⟨_, (hpart part _ (trim_of_mem_rangeParts hmem)).mpr ⟨start, stop, hspells, rfl⟩⟩

theorem ReadsPart.union (hpart : ReadsPart number last parsePart) (hnumber : ∀ text n, number text n → n ≤ last)
    {specs : List String} {result : List Nat} (h : parseRanges parsePart specs = .ok result) (n : Nat) : n ∈ result ↔
      ∃ part ∈ rangeParts specs, ∃ start stop, Spells number part start stop ∧ Cyclic (last + 1) start stop n := by
  rw [mem_iff_of_parseRanges h]
  refine exists_congr fun part => and_congr_right fun hmem => ?_
  constructor
  · rintro ⟨numbers, hok, hn⟩
    obtain ⟨start, stop, hspells, rfl⟩ := (hpart part numbers (trim_of_mem_rangeParts hmem)).mp hok
    obtain ⟨hstart, hstop⟩ := hspells.le hnumber
    exact ⟨start, stop, hspells, (mem_wrappedRange_iff hstart hstop).mp hn⟩
  · rintro ⟨start, stop, hspells, hcyclic⟩
    obtain ⟨hstart, hstop⟩ := hspells.le hnumber
    exact ⟨_, (hpart part _ (trim_of_mem_rangeParts hmem)).mpr ⟨start, stop, hspells, rfl⟩,
      (mem_wrappedRange_iff hstart hstop).mpr hcyclic⟩

/-- It is enough to know what one part means. -/
theorem ReadsPart.readsRanges (hpart : ReadsPart number last parsePart) (hnumber : ∀ text n, number text n → n ≤ last) :
    ReadsRanges number (last + 1) (parseRanges parsePart) where
  accepts := hpart.accepts
  union _ _ h := hpart.union hnumber h
  below specs result h n hn := by
    obtain ⟨part, -, start, stop, -, hcyclic⟩ := (hpart.union hnumber h n).mp hn
    exact hcyclic.lt (Nat.succ_pos last)
  grouping specs specs' hsame := by
    rw [parseRanges, parseRanges, ← rangeParts, ← rangeParts, hsame]
  order specs specs' hsame result h := by
    have haccepted := (hpart.accepts specs).mp ⟨result, h⟩
    obtain ⟨result', h'⟩ := (hpart.accepts specs').mpr fun part hmem => haccepted part ((hsame part).mpr hmem)
    refine ⟨result', h', fun n => ?_⟩
    rw [hpart.union hnumber h, hpart.union hnumber h']
    exact exists_congr fun part => and_congr_left fun _ => hsame part

end

/-- Both parsers read the union of the cyclic intervals that the parts spell. -/
theorem ranges_read : ReadsRanges IsDay 7 parseDayRanges ∧ ReadsRanges IsHour 24 parseHourRanges := by
  have hday : ReadsPart IsDay maxDay parseDayPart := fun _ _ _ => parseDayPart_eq_ok_iff
  have hhour : ReadsPart IsHour maxHour parseHourPart := fun _ _ htrim => parseHourPart_eq_ok_iff htrim
  constructor
  · exact hday.readsRanges fun name day hname => dayNumber_le (dayNumber_eq_ok_iff.mpr hname)
  · exact hhour.readsRanges fun text hour hwritten => hwritten.2

/-- Blanks around the dash are accepted too. -/
theorem blanks_around_dash_accepted : ¬ ∀ specs, (∃ days, parseDayRanges specs = .ok days) ↔
    ∀ part ∈ rangeParts specs, ∃ start stop, SpellsTightly IsDay part start stop := by
  intro hgrammar
  have hparts : rangeParts ["mon - fri"] = ["mon - fri"] := by decide
  have hok : parseDayRanges ["mon - fri"] = .ok [0, 1, 2, 3, 4] := by decide
  obtain ⟨start, stop, hspells⟩ := (hgrammar ["mon - fri"]).mp ⟨_, hok⟩ "mon - fri" (hparts ▸ List.mem_singleton_self _)
  cases hspells with
  | single written =>
    have hday : dayNumber "mon - fri" = .ok start := dayNumber_eq_ok_iff.mpr written
    cases hday
  | @range first second _ _ dash from_ to_ =>
    have hsplit : Text.split '-' "mon - fri" = [first, second] :=
      Text.split_eq_pair_iff.mpr ⟨dash, from_.no_dash, to_.no_dash⟩
    have hpieces : Text.split '-' "mon - fri" = ["mon ", " fri"] := by decide
    have hfirst : first = "mon " := (List.cons.inj (hsplit.symm.trans hpieces)).1
    rw [hfirst] at from_
    have hday : dayNumber "mon " = .ok start := dayNumber_eq_ok_iff.mpr from_
    cases hday

end FiveSpot
