import FiveSpot.Interaction.Program
import FiveSpot.Model.Crd

/-! # Day and hour windows

Day and hour lists of a schedule are read as sets of numbers, and an instant as a date, a weekday and an
hour in the schedule's timezone. The timezone database is a parameter.
-/

namespace FiveSpot

set_option autoImplicit false

open Interaction

/-! ## Ranges (`src/crd.rs`) -/

def dayMapping : List (String × Nat) :=
  [("mon", 0), ("tue", 1), ("wed", 2), ("thu", 3), ("fri", 4), ("sat", 5), ("sun", 6)]

def maxDay : Nat := 6
def maxHour : Nat := 23

/-- The numbers of a range; one that runs backwards wraps around after `last`. -/
def wrappedRange (last start stop : Nat) : List Nat :=
  if start ≤ stop then List.range' start (stop + 1 - start)
  else List.range' start (last + 1 - start) ++ List.range (stop + 1)

def dayNumber (name : String) : Except String Nat :=
  match dayMapping.find? fun entry => entry.1 == name with
  | some entry => .ok entry.2
  | none => .error s!"Invalid day: {name}"

def parseDayPart (part : String) : Except String (List Nat) :=
  if part.toList.contains '-' then match Text.split '-' part with
    | [start, stop] => do
      let startNum ← dayNumber (Text.trim start)
      let endNum ← dayNumber (Text.trim stop)
      return wrappedRange maxDay startNum endNum
    | _ => .error s!"Invalid day range: {part}"
  else (dayNumber part).map fun day => [day]

/-- An hour as `u8::from_str` reads it; the error shows the text before it was trimmed. -/
def hourNumber (text : String) : Except String Nat :=
  match Text.parseUnsigned 8 (Text.trim text) with
  | some hour => .ok hour
  | none => .error s!"Invalid hour: {text}"

/-- A leading dash makes no range. -/
def parseHourPart (part : String) : Except String (List Nat) :=
  if part.toList.contains '-' && !Text.startsWith part "-" then match Text.split '-' part with
    | [start, stop] => do
      let startHour ← hourNumber start
      let endHour ← hourNumber stop
      if maxHour < startHour ∨ maxHour < endHour then .error s!"Hours must be 0-23, got: {part}"
      else return wrappedRange maxHour startHour endHour
    | _ => .error s!"Invalid hour range: {part}"
  else do
    let hour ← hourNumber part
    if maxHour < hour then .error s!"Hour must be 0-23, got: {hour}"
    else return [hour]

/-- Every comma-separated part of every entry, in order; the first part that does not parse is the error. -/
def parseRanges (parsePart : String → Except String (List Nat)) (specs : List String) : Except String (List Nat) :=
  ((specs.flatMap fun spec => (Text.split ',' spec).map Text.trim).mapM parsePart).map List.flatten

def parseDayRanges (daySpecs : List String) : Except String (List Nat) := parseRanges parseDayPart daySpecs

def parseHourRanges (hourSpecs : List String) : Except String (List Nat) := parseRanges parseHourPart hourSpecs

theorem dayNumber_le {name : String} {day : Nat} (h : dayNumber name = .ok day) : day ≤ maxDay := by
  unfold dayNumber at h
  split at h
  · rename_i entry hfound
    cases h
    have hall : ∀ entry ∈ dayMapping, entry.2 ≤ maxDay := by decide
    exact hall entry (List.mem_of_find?_eq_some hfound)
  · cases h

/-! ## Local time -/

/-- For a timezone name the seconds east of UTC at each instant, if the name is known. -/
abbrev Zones := String → Option (Time → Int)

def nanosOf (seconds : Int) : Int := seconds * 1000000000

/-- Seconds on the clock of a zone with this offset, counted from the local epoch. -/
def localSeconds (offset : Time → Int) (instant : Time) : Int := instant / nanosOf 1 + offset instant

def localDay (seconds : Int) : Int := seconds / 86400

/-- Days since Monday; the epoch was a Thursday. -/
def weekdayFromMonday (seconds : Int) : Nat := ((localDay seconds + 3) % 7).toNat

def hourOfDay (seconds : Int) : Nat := (seconds % 86400 / 3600).toNat

/-- Year, month and day of a day number, in the proleptic Gregorian calendar. Eras of 400 years are
counted from the first of March of year 0. -/
def civilFromDays (day : Int) : Int × Nat × Nat :=
  let shifted := day + 719468
  let dayOfEra := (shifted % 146097).toNat
  let yearOfEra := (dayOfEra - dayOfEra / 1460 + dayOfEra / 36524 - dayOfEra / 146096) / 365
  let dayOfYear := dayOfEra - (365 * yearOfEra + yearOfEra / 4 - yearOfEra / 100)
  let shiftedMonth := (5 * dayOfYear + 2) / 153
  let month := if shiftedMonth < 10 then shiftedMonth + 3 else shiftedMonth - 9
  (yearOfEra + shifted / 146097 * 400 + (if month ≤ 2 then 1 else 0), month,
    dayOfYear - (153 * shiftedMonth + 2) / 5 + 1)

def padded (width n : Nat) : String :=
  let digits := Nat.toDigits 10 n
  String.ofList (List.replicate (width - digits.length) '0' ++ digits)

/-- Four digits, with a sign outside the years 0 to 9999. -/
def yearText (year : Int) : String :=
  if 0 ≤ year ∧ year ≤ 9999 then padded 4 year.toNat
  else if 0 ≤ year then "+" ++ padded 4 year.toNat
  else "-" ++ padded 4 (-year).toNat

def dateText (seconds : Int) : String :=
  let (year, month, day) := civilFromDays (localDay seconds)
  yearText year ++ "-" ++ padded 2 month ++ "-" ++ padded 2 day

/-- The fraction of a second with as many digits, in threes, as it needs. -/
def fractionText (nanos : Nat) : String :=
  if nanos = 0 then ""
  else if nanos % 1000000 = 0 then "." ++ padded 3 (nanos / 1000000)
  else if nanos % 1000 = 0 then "." ++ padded 6 (nanos / 1000)
  else "." ++ padded 9 nanos

/-- `DateTime<Utc>::to_rfc3339`. -/
def toRfc3339 (instant : Time) : String :=
  let seconds := instant / nanosOf 1
  let ofDay := (seconds % 86400).toNat
  dateText seconds ++ "T" ++ padded 2 (ofDay / 3600) ++ ":" ++ padded 2 (ofDay % 3600 / 60) ++ ":" ++
    padded 2 (ofDay % 60) ++ fractionText (instant % nanosOf 1).toNat ++ "+00:00"

example : toRfc3339 1767225600123000000 = "2026-01-01T00:00:00.123+00:00" := by decide +kernel

end FiveSpot
