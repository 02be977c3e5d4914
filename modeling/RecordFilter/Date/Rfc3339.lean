import RecordFilter.Date.Offset

/-! # RFC 3339 timestamps

The date and time format of RFC 3339, with fields of fixed width. Between date and time there may
also be a space, and digits of a second beyond the third are cut off. -/

namespace RecordFilter.Rfc3339

/-- Read a date. -/
def date : Scan CivilDate := do
  let year ← Scan.fixedNumber 4
  Scan.literal '-'
  let month ← Scan.fixedNumber 2
  Scan.literal '-'
  let day ← Scan.fixedNumber 2
  return ⟨year, month, day⟩

/-- Read the character between date and time. -/
def divider : Scan Unit := fun
  | [] => throw .tooShort
  | c :: t => if c = 'T' ∨ c = 't' ∨ c = ' ' then return ((), t) else throw .invalid

/-- Read a time of day. -/
def time : Scan ClockTime := do
  let hour ← Scan.fixedNumber 2
  Scan.literal ':'
  let minute ← Scan.fixedNumber 2
  Scan.literal ':'
  let second ← Scan.fixedNumber 2
  if hour ≤ 23 ∧ minute ≤ 59 ∧ second ≤ 60 then return ⟨hour, minute, second⟩
  else throw .outOfRange

/-- Read the fraction of a second, in milliseconds, zero if there is none. -/
def fraction : Scan Nat := fun
  | '.' :: t =>
    let (digits, rest) := spanDigits t
    if digits.isEmpty then throw .invalid
    else return (digitsValue (digits.take 3) * tenTo (3 - digits.length), rest)
  | t => return (0, t)

/-- Read the offset: `Z`, or hours and minutes with a colon between them. -/
def offset : Scan Int := fun
  | 'Z' :: t | 'z' :: t => return (0, t)
  | t => Offset.scan (Scan.literal ':') t

/-- Read all fields. -/
def fields : Scan (CivilDate × ClockTime × Nat × Int) := do
  let date ← date
  divider
  let time ← time
  let millis ← fraction
  let offset ← offset
  return (date, time, millis, offset)

/-- Read a timestamp. The offset is less than a day. -/
def read (t : Text) : Except DateFault Timestamp := do
  let (date, time, millis, offset) ← fields.complete t
  let date ← date.check
  let offset ← Offset.check offset
  return ⟨(Timestamp.ofLocal date time offset).millis + millis⟩

end RecordFilter.Rfc3339
