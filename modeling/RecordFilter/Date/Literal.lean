import RecordFilter.Date.Offset
import RecordFilter.Text.Upper

/-! # Date literals

A date literal starts with a mark that tells its form, in either case: `L` for a count of
milliseconds, `DTZ` for date, time and zone, `DT` for date and time, `D` for a date and `T` for a
time on 1 January 1970. Forms without a zone are read in the zone of the caller. -/

namespace RecordFilter

/-- The forms of a date literal other than a count of milliseconds. -/
inductive DateForm where
  | zoned
  | dateTime
  | date
  | time
  deriving DecidableEq, Repr

/-- The form that the mark of a date literal in capitals tells, and what follows the mark. A longer
mark goes before its own beginnings. -/
def DateForm.ofCapitals? : Text → Option (DateForm × Text)
  | 'D' :: 'T' :: 'Z' :: t => some (zoned, t)
  | 'D' :: 'T' :: t => some (dateTime, t)
  | 'D' :: t => some (date, t)
  | 'T' :: t => some (time, t)
  | _ => none

namespace DateLiteral

/-- Midnight. -/
def midnight : ClockTime := ⟨0, 0, 0⟩

/-- The first day of 1970. -/
def epoch : CivilDate := ⟨1970, 1, 1⟩

/-- Read a date, a time and the offset of their zone: `2020-01-01T12:30:00+0100`. -/
def scanZoned : Scan (CivilDate × ClockTime × Int) := do
  let date ← Scan.date
  Scan.literal 'T'
  let time ← Scan.time
  Scan.blanks
  let offset ← Offset.scan Offset.looseSeparator
  return (date, time, offset)

/-- Read a date and a time: `2020-01-01 12:30:00`. -/
def scanDateTime : Scan (CivilDate × ClockTime) := do
  let date ← Scan.date
  Scan.blanks
  let time ← Scan.time
  return (date, time)

/-- The point in time of a date and a time in a zone. The day in UTC must be one that dates are kept
for; a leap second belongs to the day of the second before it. -/
def inZone (date : CivilDate) (time : ClockTime) (offset : Int) : Except DateFault Timestamp := do
  let date ← date.check
  let offset ← Offset.check offset
  let second : Int := { time with second := min time.second 59 }.seconds
  let day := date.epochDay + (second - offset) / 86400
  if (CivilDate.mk CivilDate.minYear 1 1).epochDay ≤ day ∧
      day ≤ (CivilDate.mk CivilDate.maxYear 12 31).epochDay then
    return .ofLocal date time offset
  else throw .impossible

/-- Read what follows the mark of a form. -/
def readForm (offset : Int) (t : Text) : DateForm → Except DateFault Timestamp
  | .zoned => do
    let (date, time, zone) ← scanZoned.complete t
    inZone date time zone
  | .dateTime => do
    let (date, time) ← scanDateTime.complete t
    let date ← date.check
    return .ofLocal date time offset
  | .date => do
    let date ← Scan.date.complete t
    let date ← date.check
    return .ofLocal date midnight offset
  | .time => do
    let time ← Scan.time.complete t
    return .ofLocal epoch time offset

/-- Read a date literal in the zone that is `offset` seconds east of UTC. -/
def read (offset : Int) (literal : Text) : Except QueryError Timestamp :=
  match literal.upper with
  | 'L' :: t => ((SignedInteger.read t).map Timestamp.mk).mapError (.invalidEpochMillis literal)
  | capitals =>
    match DateForm.ofCapitals? capitals with
    | some (form, t) => (readForm offset t form).mapError (.invalidDate literal)
    | none => .error (.missingDateFormat literal)

end DateLiteral

end RecordFilter
