import FiveSpot.Helpers.Validation
import FiveSpot.Model.Slices

/-! # Durations

`parse_duration` once more, cut byte by byte as the source cuts it: it panics on no text, and it accepts
exactly the numerals with a unit that stay within a day.
-/

namespace FiveSpot

set_option autoImplicit false

/-- The unit as the text that is left of the cut. -/
def unitOfText (unit : List Char) : Option Nat :=
  match unit with
  | [c] => unitSeconds c
  | _ => none

/-- `parse_duration` with its `split_at(len - 1)`; `none` is a panic. -/
def parseDurationAtBytes (text : String) : Option (Except ReconcilerError Nat) :=
  let durationStr := Text.trim text
  if durationStr.isEmpty then some (.error (.invalidConfig "Empty duration string"))
  else if !Text.isAscii durationStr then
    some (.error (.invalidConfig s!"Invalid duration (non-ASCII): {Text.quoted durationStr}"))
  else (Slices.splitAt durationStr.toList (Slices.byteLen durationStr.toList - 1)).map fun parts =>
    match Text.parseUnsigned 64 (String.ofList parts.1) with
    | none => .error (.invalidConfig s!"Invalid duration value: {durationStr}")
    | some value => match unitOfText parts.2 with
      | none => .error (.invalidConfig
          ("Invalid duration unit: '" ++ String.ofList parts.2 ++ "'. Use 's', 'm', or 'h'"))
      | some multiplier =>
        if 2 ^ 64 ≤ value * multiplier then
          .error (.invalidConfig ("Duration overflow: '" ++ durationStr ++ "' exceeds representable range"))
        else if Constants.maxDurationSecs < value * multiplier then
          .error (.invalidConfig
            s!"Duration {value * multiplier}s exceeds maximum of {Constants.maxDurationSecs}s (24h)")
        else .ok (value * multiplier)

/-- The text of a duration: a numeral for `u64`, a unit, and at most a day. -/
structure SpellsDuration (s : String) (seconds : Nat) : Prop where
  ascii : Text.isAscii s = true
  spelled : ∃ numeral unit value multiplier, s.toList = numeral ++ [unit] ∧
    Text.parseUnsigned 64 (String.ofList numeral) = some value ∧ unitSeconds unit = some multiplier ∧
      seconds = value * multiplier
  bounded : seconds ≤ Constants.maxDurationSecs

/-- `as i64` of a `u64`. -/
def castI64 (n : Nat) : Int := (BitVec.ofNat 64 n).toInt

variable {text : String}

theorem parseDurationAtBytes_eq (text : String) : parseDurationAtBytes text = some (parseDuration text) := by
  unfold parseDurationAtBytes parseDuration
  generalize Text.trim text = s
  dsimp only
  rcases List.eq_nil_or_concat s.toList with hnil | ⟨value, unit, hs⟩
  · have hempty : s.isEmpty = true := by
      rw [String.isEmpty_iff, ← String.toList_inj, hnil]
      rfl
    rw [hempty, hnil]
    rfl
  · have hne : s.isEmpty = false := by
      rw [Bool.eq_false_iff]
      intro hempty
      rw [String.isEmpty_iff.mp hempty] at hs
      simp at hs
    rw [hne]
    simp only [Bool.false_eq_true, if_false]
    by_cases hascii : Text.isAscii s = true
    · have hunit : unit.utf8Size = 1 := Text.utf8Size_of_isAscii hascii (by rw [hs]; simp)
      rw [hs, List.concat_eq_append, Slices.splitAt_last hunit]
      simp only [hascii, Bool.not_true, Bool.false_eq_true, if_false, Option.map_some, List.reverse_append,
        List.reverse_singleton, List.singleton_append, List.reverse_reverse, unitOfText]
      rfl
    · rw [hs]
      simp [hascii]

/-- What the parser accepts, and what it makes of it. -/
theorem parseDuration_eq_ok_iff {seconds : Nat} :
    parseDuration text = .ok seconds ↔ SpellsDuration (Text.trim text) seconds := by
  unfold parseDuration
  generalize Text.trim text = s
  dsimp only
  constructor
  · intro h
    split at h
    · cases h
    · rename_i unit value hs
      split at h
      · cases h
      · rename_i hascii
        split at h
        · cases h
        · rename_i n hn
          split at h
          · cases h
          · rename_i m hm
            split at h
            · cases h
            · split at h
              · cases h
              · rename_i hday
                cases h
                refine ⟨by simpa using hascii, ⟨value.reverse, unit, n, m, ?_, hn, hm, rfl⟩, Nat.not_lt.mp hday⟩
                rw [← List.reverse_inj, hs]
                simp
  · rintro ⟨hascii, ⟨numeral, unit, n, m, hs, hn, hm, rfl⟩, hday⟩
    have hsmall : ¬2 ^ 64 ≤ n * m := by
      have hcap : Constants.maxDurationSecs = 86400 := rfl
      omega
    simp only [hs, List.reverse_append, List.reverse_singleton, List.singleton_append, hascii, Bool.not_true,
      Bool.false_eq_true, if_false, List.reverse_reverse, hn, hm, if_neg hsmall, if_neg (Nat.not_lt.mpr hday)]

theorem castI64_of_le {seconds : Nat} (h : seconds ≤ Constants.maxDurationSecs) : castI64 seconds = seconds := by
  have hcap : Constants.maxDurationSecs = 86400 := rfl
  have hmod : (BitVec.ofNat 64 seconds).toNat = seconds := by
    rw [BitVec.toNat_ofNat]
    omega
  rw [castI64, BitVec.toInt_eq_toNat_of_lt (by omega), hmod]

/-- `parse_duration` returns for every text, accepts exactly the durations of at most a day, and the grace
period compares what it returns without loss. -/
theorem duration_parsed_exactly (text : String) :
    parseDurationAtBytes text = some (parseDuration text) ∧
      (∀ seconds, parseDuration text = .ok seconds ↔ SpellsDuration (Text.trim text) seconds) ∧
      ((∀ seconds, ¬SpellsDuration (Text.trim text) seconds) ↔ ∃ e, parseDuration text = .error e) ∧
      ∀ seconds, parseDuration text = .ok seconds → castI64 seconds = seconds ∧ ∀ start now : Time,
        graceOver start now seconds =
          (decide (elapsedSeconds now start < 0) || decide (castI64 seconds ≤ elapsedSeconds now start)) := by
  refine ⟨parseDurationAtBytes_eq text, fun seconds => parseDuration_eq_ok_iff, ?_, fun seconds hok => ?_⟩
  · constructor
    · intro hnone
      cases hparse : parseDuration text with
      | ok seconds => exact absurd (parseDuration_eq_ok_iff.mp hparse) (hnone seconds)
      | error e => exact ⟨e, rfl⟩
    · rintro ⟨e, he⟩ seconds hspells
      rw [parseDuration_eq_ok_iff.mpr hspells] at he
      cases he
  · have hcast := castI64_of_le (parseDuration_eq_ok_iff.mp hok).bounded
    refine ⟨hcast, fun start now => ?_⟩
    rw [hcast]
    rfl

end FiveSpot
