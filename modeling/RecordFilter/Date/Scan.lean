import RecordFilter.Date.Calendar
import RecordFilter.Error
import RecordFilter.Text.Blank

/-! # Scanning dates and times

A scanner takes what it reads off the start of a text, or says why it cannot. White space may stand
before every number, a number may have fewer digits than its field is wide, and the bounds of a
field are checked as soon as it is read. -/

namespace RecordFilter

/-- A scanner: it reads the start of a text and leaves the rest. -/
abbrev Scan (α : Type) := StateT Text (Except DateFault) α

namespace Scan

/-- Read one given character. -/
def literal (c : Char) : Scan Unit := fun
  | [] => throw .tooShort
  | d :: t => if d = c then return ((), t) else throw .invalid

/-- Pass over white space. -/
def blanks : Scan Unit := fun t => return ((), t.trimStart)

/-- Read a number of at least one digit and at most `width`, or any number of digits if there is no
width. -/
def number (width : Option Nat) : Scan Nat := fun t =>
  match t with
  | [] => throw .tooShort
  | c :: _ =>
    if c.isDigit then
      let digits := t.takeWhile Char.isDigit
      let digits := width.elim digits digits.take
      return (digitsValue digits, t.drop digits.length)
    else throw .invalid

/-- Read a number of exactly so many digits. -/
def fixedNumber (width : Nat) : Scan Nat := fun t =>
  let digits := t.take width
  if digits.length < width then throw .tooShort
  else if digits.all Char.isDigit then return (digitsValue digits, t.drop width)
  else throw .invalid

/-- Pass on a number that lies within bounds. -/
def within (low high : Int) (n : Int) : Scan Int :=
  if low ≤ n ∧ n ≤ high then return n else throw .outOfRange

/-- Read a field of at most two digits whose value lies within bounds. -/
def field (low high : Nat) : Scan Nat := do
  blanks
  let n ← number (some 2)
  if low ≤ n ∧ n ≤ high then return n else throw .outOfRange

/-- The least year that the field can hold. -/
def minYearField : Int := -0x80000000

/-- The greatest year that the field can hold. -/
def maxYearField : Int := 0x7FFFFFFF

/-- Read a year: at most four digits, or a sign and any number of digits. -/
def year : Scan Int := do
  blanks
  match ← get with
  | '-' :: t =>
    set t
    let n ← number none
    within minYearField maxYearField (-n)
  | '+' :: t =>
    set t
    let n ← number none
    within minYearField maxYearField n
  | _ =>
    let n ← number (some 4)
    return n

/-- Read a date, `year-month-day`. -/
def date : Scan CivilDate := do
  let year ← year
  literal '-'
  let month ← field 1 12
  literal '-'
  let day ← field 1 31
  return ⟨year, month, day⟩

/-- Read a time of day, `hour:minute:second`. -/
def time : Scan ClockTime := do
  let hour ← field 0 23
  literal ':'
  let minute ← field 0 59
  literal ':'
  let second ← field 0 60
  return ⟨hour, minute, second⟩

/-- Run a scanner on a text that it has to use up. -/
def complete {α : Type} (scan : Scan α) (t : Text) : Except DateFault α := do
  let (a, rest) ← scan t
  if rest.isEmpty then return a else throw .trailing

end Scan

/-- Pass on a date that is in the calendar. -/
def CivilDate.check (d : CivilDate) : Except DateFault CivilDate :=
  if d.isValid then .ok d else .error .outOfRange

end RecordFilter
