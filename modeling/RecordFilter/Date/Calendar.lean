import RecordFilter.Value

/-! # The calendar

Dates of the proleptic Gregorian calendar and times of day, and the point in time they denote in
UTC. Days are counted from 1 January 1970. -/

namespace RecordFilter

/-- Whether a year has a 29 February. -/
def isLeapYear (year : Int) : Bool := year % 4 == 0 && (year % 100 != 0 || year % 400 == 0)

/-- The number of days of a month, zero if there is no such month. -/
def daysInMonth (year : Int) : Nat → Nat
  | 1 | 3 | 5 | 7 | 8 | 10 | 12 => 31
  | 4 | 6 | 9 | 11 => 30
  | 2 => if isLeapYear year then 29 else 28
  | _ => 0

/-- The days from the start of year 1 to the start of a year. -/
def daysBeforeYear (year : Int) : Int :=
  let past := year - 1
  365 * past + past / 4 - past / 100 + past / 400

/-- The days from the start of a year to the start of a month. -/
def daysBeforeMonth (year : Int) : Nat → Nat
  | 0 => 0
  | month + 1 => daysBeforeMonth year month + daysInMonth year month

/-- A date. -/
structure CivilDate where
  year : Int
  month : Nat
  day : Nat
  deriving DecidableEq, Repr

namespace CivilDate

/-- The first and the last year that dates are kept for. -/
def minYear : Int := -262143

@[inherit_doc minYear]
def maxYear : Int := 262142

/-- Whether there is such a day in the calendar, in a year that dates are kept for. -/
def isValid (d : CivilDate) : Bool :=
  minYear ≤ d.year && d.year ≤ maxYear && 1 ≤ d.day && d.day ≤ daysInMonth d.year d.month

/-- The number of days from 1 January 1970 to a date. -/
def epochDay (d : CivilDate) : Int :=
  daysBeforeYear d.year + daysBeforeMonth d.year d.month + d.day - 719163

/-- Midnight of a date in UTC. -/
def midnight (d : CivilDate) : Timestamp := .ofSeconds (d.epochDay * 86400)

end CivilDate

/-- A time of day. Second 60 is a leap second, which counts as the first of the next minute. -/
structure ClockTime where
  hour : Nat
  minute : Nat
  second : Nat
  deriving DecidableEq, Repr

namespace ClockTime

/-- The seconds from midnight. -/
def seconds (c : ClockTime) : Nat := (c.hour * 60 + c.minute) * 60 + c.second

end ClockTime

/-- The point in time of a date and a time of day in a zone that is `offset` seconds east of UTC. -/
def Timestamp.ofLocal (date : CivilDate) (time : ClockTime) (offset : Int) : Timestamp :=
  .ofSeconds (date.epochDay * 86400 + time.seconds - offset)

end RecordFilter
