import RecordFilter.Date.Scan

/-! # Zone offsets

An offset is a number of seconds east of UTC. It is written as a sign, two digits of hours, a
separator that may be missing, and two digits of minutes. -/

namespace RecordFilter.Offset

/-- The sign of an offset, true if it is west of UTC. The mathematical minus is a sign too. -/
def sign : Scan Bool := fun
  | [] => throw .tooShort
  | '+' :: t => return (false, t)
  | '-' :: t => return (true, t)
  | '−' :: t => return (true, t)
  | _ => throw .invalid

/-- The next two characters. A single ASCII character is too little; a single other one is wrong
already, whatever might follow. -/
def pair : Scan (Char × Char) := fun
  | [] => throw .tooShort
  | [c] => throw (if c.toNat < 0x80 then .tooShort else .invalid)
  | a :: b :: t => return ((a, b), t)

/-- Two digits of hours. -/
def hours : Scan Nat := do
  let (a, b) ← pair
  if a.isDigit && b.isDigit then return digitsValue [a, b] else throw .invalid

/-- Two digits of minutes, below sixty. -/
def minutes : Scan Nat := do
  let (a, b) ← pair
  if a.isDigit && b.isDigit then
    if a < '6' then return digitsValue [a, b] else throw .outOfRange
  else throw .invalid

/-- Between hours and minutes: colons and white space, as many as there are. -/
def looseSeparator : Scan Unit := fun t => return ((), t.dropWhile fun c => c = ':' || isBlank c)

/-- Read an offset with a given separator. -/
def scan (separator : Scan Unit) : Scan Int := do
  let west ← sign
  let hours ← hours
  separator
  let minutes ← minutes
  let seconds : Int := hours * 3600 + minutes * 60
  return if west then -seconds else seconds

/-- Pass on an offset of less than a day. -/
def check (seconds : Int) : Except DateFault Int :=
  if -86400 < seconds ∧ seconds < 86400 then .ok seconds else .error .outOfRange

/-- Read the offset option: `Z` or `UTC` in any case, or a written offset. What follows the minutes
is not looked at. -/
def read (t : Text) : Except DateFault Int := do
  if Text.isWordIgnoringAsciiCase ['z'] t || Text.isWordIgnoringAsciiCase ['u', 't', 'c'] t then
    return 0
  else
    let (seconds, _) ← scan looseSeparator t
    check seconds

/-- The wording of a refused offset option. -/
def faultMessage (t : Text) (fault : DateFault) : String :=
  "invalid offset " ++ quoted t ++ ": expected ±HH:MM (" ++ fault.message ++ ")"

end RecordFilter.Offset
