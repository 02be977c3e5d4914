import RecordFilter.Number.Decimal

/-! # Signed 64-bit integers as text

Digits are taken from left to right after an optional sign, and the first character that is no digit
or that leads out of the range decides the fault. -/

namespace RecordFilter

/-- Why a text is not a signed 64-bit integer. -/
inductive IntegerFault where
  | empty
  | invalidDigit
  | tooLarge
  | tooSmall
  deriving DecidableEq, Repr

/-- The wording of a fault. -/
def IntegerFault.message : IntegerFault → String
  | .empty => "cannot parse integer from empty string"
  | .invalidDigit => "invalid digit found in string"
  | .tooLarge => "number too large to fit in target type"
  | .tooSmall => "number too small to fit in target type"

namespace SignedInteger

/-- The greatest absolute value of a signed 64-bit integer of the given sign. -/
def bound (negative : Bool) : Nat := if negative then 0x8000000000000000 else 0x7FFFFFFFFFFFFFFF

/-- Read digits after those of `n`. -/
def readDigits (negative : Bool) (n : Nat) : Text → Except IntegerFault Nat
  | [] => return n
  | c :: t =>
    if c.isDigit then
      let m := n * 10 + digitValue c
      if bound negative < m then throw (if negative then .tooSmall else .tooLarge)
      else readDigits negative m t
    else throw .invalidDigit

/-- Read a text as a signed 64-bit integer. -/
def read (t : Text) : Except IntegerFault Int := do
  if t.isEmpty then throw .empty
  let (negative, digits) := spanSign t
  if digits.isEmpty then throw .invalidDigit
  let n ← readDigits negative 0 digits
  return if negative then -n else n

end SignedInteger

end RecordFilter
