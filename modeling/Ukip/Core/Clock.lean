import Mathlib.Data.Int.Basic

/-!
# Timestamps

A UTC timestamp is its number of microseconds since 1970-01-01, the resolution
of the datetime columns.
-/

namespace Ukip.Core.Clock

abbrev Time := Int

def seconds (count : Int) : Int := 1000000 * count

def minutes (count : Int) : Int := seconds (60 * count)

/-- `replace(microsecond=0)` -/
def withoutMicroseconds (time : Time) : Time := time - time % 1000000

structure CivilDate where
  year : Int
  month : Int
  day : Int

/-- Proleptic Gregorian date of a day number, in 400-year eras that start on
the first of March. -/
def civilDate (days : Int) : CivilDate :=
  let shifted := days + 719468
  let era := shifted / 146097
  let dayOfEra := shifted - era * 146097
  let yearOfEra := (dayOfEra - dayOfEra / 1460 + dayOfEra / 36524 - dayOfEra / 146096) / 365
  let dayOfYear := dayOfEra - (365 * yearOfEra + yearOfEra / 4 - yearOfEra / 100)
  let monthFromMarch := (5 * dayOfYear + 2) / 153
  let month := if monthFromMarch < 10 then monthFromMarch + 3 else monthFromMarch - 9
  { year := yearOfEra + era * 400 + if month ≤ 2 then 1 else 0
    month := month
    day := dayOfYear - (153 * monthFromMarch + 2) / 5 + 1 }

def padded (width : Nat) (number : Int) : String :=
  let digits := (Nat.repr number.toNat).toList
  String.ofList (List.replicate (width - digits.length) '0' ++ digits)

/-- `isoformat()` of a timestamp without microseconds; `offset` is empty for a
naive value and `+00:00` for an aware one. -/
def isoformat (offset : String) (time : Time) : String :=
  let total := time / 1000000
  let date := civilDate (total / 86400)
  let inDay := total % 86400
  padded 4 date.year ++ "-" ++ padded 2 date.month ++ "-" ++ padded 2 date.day ++ "T" ++
    padded 2 (inDay / 3600) ++ ":" ++ padded 2 (inDay % 3600 / 60) ++ ":" ++
    padded 2 (inDay % 60) ++ offset

/-- The occurrence the migration tests use: 12 July 2026, 09:00. -/
example : isoformat "" (seconds 1783846800) = "2026-07-12T09:00:00" := by decide

end Ukip.Core.Clock
