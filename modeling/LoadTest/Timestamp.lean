/-!
# LoadTest.Timestamp

Moments in time and their calendar text in UTC, as in `2026-03-01T12:00:00.250+00:00`. The calendar is
the Gregorian one, extended to all years: **eras of 400 years have 146097 days each,** and a year is
counted from March, so that a leap day ends it. Years outside 0 to 9999 are written with a sign.
-/

namespace LoadTest

/-- A moment: seconds since the start of 1970 and the nanoseconds after that second. -/
structure Timestamp where
  seconds : Int
  nanos : Nat
  deriving DecidableEq

/-- A day of the calendar. -/
structure CalendarDay where
  year : Int
  month : Nat
  day : Nat
  deriving DecidableEq

/-- The day that is so many days after the first of January 1970. -/
def CalendarDay.ofDays (days : Int) : CalendarDay :=
  let shifted := days + 719468
  let era := shifted.fdiv 146097
  let dayOfEra := (shifted.fmod 146097).toNat
  let yearOfEra := (dayOfEra - dayOfEra / 1460 + dayOfEra / 36524 - dayOfEra / 146096) / 365
  let dayOfYear := dayOfEra - (365 * yearOfEra + yearOfEra / 4 - yearOfEra / 100)
  let monthFromMarch := (5 * dayOfYear + 2) / 153
  let month := if monthFromMarch < 10 then monthFromMarch + 3 else monthFromMarch - 9
  { year := yearOfEra + era * 400 + (if month ≤ 2 then 1 else 0)
    month
    day := dayOfYear - (153 * monthFromMarch + 2) / 5 + 1 }

namespace Timestamp

/-- A number with zeros in front of it up to a width. -/
def padded (width n : Nat) : String :=
  let digits := Nat.toDigits 10 n
  String.ofList (List.replicate (width - digits.length) '0' ++ digits)

/-- The year of four digits at least. -/
def yearText (year : Int) : String :=
  if 0 ≤ year ∧ year ≤ 9999 then padded 4 year.toNat
  else (if year < 0 then "-" else "+") ++ padded 4 year.natAbs

/-- The part of a second in as few groups of three digits as are needed. -/
def fractionText (nanos : Nat) : String :=
  if nanos = 0 then ""
  else if nanos % 1_000_000 = 0 then "." ++ padded 3 (nanos / 1_000_000)
  else if nanos % 1_000 = 0 then "." ++ padded 6 (nanos / 1_000)
  else "." ++ padded 9 nanos

/-- The moment as text. -/
def text (t : Timestamp) : String :=
  let day := CalendarDay.ofDays (t.seconds.fdiv 86400)
  let second := (t.seconds.fmod 86400).toNat
  yearText day.year ++ "-" ++ padded 2 day.month ++ "-" ++ padded 2 day.day ++ "T"
    ++ padded 2 (second / 3600) ++ ":" ++ padded 2 (second / 60 % 60) ++ ":" ++ padded 2 (second % 60)
    ++ fractionText t.nanos ++ "+00:00"

end Timestamp

end LoadTest
