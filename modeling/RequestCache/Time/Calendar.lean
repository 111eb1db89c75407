/-
# Calendar text

How an instant is written out: the proleptic Gregorian date and the time of day in universal
time, with as many digits of the second as are needed, in groups of three.
-/
import RequestCache.Time.Instant

namespace RequestCache

/-- A day of the Gregorian calendar. -/
structure CalendarDay where
  /-- The year; the year before year one is year zero. -/
  year : Int
  /-- The month, from one. -/
  month : Nat
  /-- The day of the month, from one. -/
  day : Nat
deriving DecidableEq

namespace CalendarDay

/-- The day that lies `days` after 1 January 1970.  Years are counted from March, so that the
leap day is the last of its year, and a cycle of 400 years has 146097 days. -/
def ofEpochDay (days : Int) : CalendarDay :=
  let shifted := days + 719468
  let cycle := shifted / 146097
  let dayOfCycle := (shifted % 146097).toNat
  let yearOfCycle :=
    (dayOfCycle - dayOfCycle / 1460 + dayOfCycle / 36524 - dayOfCycle / 146096) / 365
  let dayOfYear := dayOfCycle - (365 * yearOfCycle + yearOfCycle / 4 - yearOfCycle / 100)
  let monthFromMarch := (5 * dayOfYear + 2) / 153
  let month := if monthFromMarch < 10 then monthFromMarch + 3 else monthFromMarch - 9
  { year := yearOfCycle + cycle * 400 + (if month ≤ 2 then 1 else 0)
    month := month
    day := dayOfYear - (153 * monthFromMarch + 2) / 5 + 1 }

end CalendarDay

/-- The digits of `n`, filled up with zeros on the left to `width` places. -/
def paddedDigits (width n : Nat) : String :=
  let digits := toString n
  String.ofList (List.replicate (width - digits.length) '0') ++ digits

/-- A year of four digits stands alone; any other has a sign. -/
def yearText (year : Int) : String :=
  if 0 ≤ year ∧ year ≤ 9999 then paddedDigits 4 year.toNat
  else (if year < 0 then "-" else "+") ++ paddedDigits 4 year.natAbs

/-- The fraction of a second: nothing, or three, six or nine digits. -/
def fractionText (nanos : Nat) : String :=
  if nanos = 0 then ""
  else if nanos % 1000000 = 0 then "." ++ paddedDigits 3 (nanos / 1000000)
  else if nanos % 1000 = 0 then "." ++ paddedDigits 6 (nanos / 1000)
  else "." ++ paddedDigits 9 nanos

/-- Date and time of day of an instant, in universal time. -/
def Instant.text (t : Instant) : String :=
  let day := CalendarDay.ofEpochDay (t.seconds / 86400)
  let second := (t.seconds % 86400).toNat
  yearText day.year ++ "-" ++ paddedDigits 2 day.month ++ "-" ++ paddedDigits 2 day.day ++ "T"
    ++ paddedDigits 2 (second / 3600) ++ ":" ++ paddedDigits 2 (second / 60 % 60) ++ ":"
    ++ paddedDigits 2 (second % 60) ++ fractionText t.subsecond ++ "Z"

/-- A decimal fraction without the zeros at its end. -/
def trimmedFraction (width n : Nat) : String :=
  let digits := (paddedDigits width n).toList.reverse.dropWhile (· = '0')
  if digits.isEmpty then "" else "." ++ String.ofList digits.reverse

/-- A span in the largest unit of which it has at least one: seconds, milliseconds,
microseconds or nanoseconds. -/
def Span.text (d : Span) : String :=
  if 0 < d.seconds then toString d.seconds ++ trimmedFraction 9 d.subsecond ++ "s"
  else if 1000000 ≤ d.subsecond then
    toString (d.subsecond / 1000000) ++ trimmedFraction 6 (d.subsecond % 1000000) ++ "ms"
  else if 1000 ≤ d.subsecond then
    toString (d.subsecond / 1000) ++ trimmedFraction 3 (d.subsecond % 1000) ++ "µs"
  else toString d.subsecond ++ "ns"

end RequestCache
