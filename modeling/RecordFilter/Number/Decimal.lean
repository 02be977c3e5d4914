import RecordFilter.Number.Binary64
import RecordFilter.Text.Basic

/-! # Decimal numerals

Reading a text as a binary64 number: an optional sign, then `inf`, `infinity` or `nan` in any case,
or decimal digits with an optional fraction and an optional exponent. The value is rounded once,
correctly. -/

namespace RecordFilter

/-- Why a text is not a number. -/
inductive NumberFault where
  | empty
  | invalid
  deriving DecidableEq, Repr

/-- The wording of a fault. -/
def NumberFault.message : NumberFault → String
  | .empty => "cannot parse float from empty string"
  | .invalid => "invalid float literal"

/-- The value of a decimal digit. -/
def digitValue (c : Char) : Nat := c.toNat - 0x30

/-- The number that a row of decimal digits stands for. -/
def digitsValue (digits : Text) : Nat := digits.foldl (fun n c => n * 10 + digitValue c) 0

/-- The digits at the start of a text, and what follows them. -/
def spanDigits (t : Text) : Text × Text := (t.takeWhile Char.isDigit, t.dropWhile Char.isDigit)

/-- The sign at the start of a text, true if it is a minus, and what follows it. -/
def spanSign : Text → Bool × Text
  | '-' :: t => (true, t)
  | '+' :: t => (false, t)
  | t => (false, t)

/-- A decimal number `digits * 10 ^ exponent`. -/
structure Decimal where
  digits : Nat
  exponent : Int
  deriving DecidableEq, Repr

namespace Decimal

/-- The exponent that the end of a numeral gives: zero if it is empty, else the integer after an
`e` in either case. -/
def exponentPart? : Text → Option Int
  | [] => some 0
  | c :: t =>
    if c = 'e' ∨ c = 'E' then
      let (negative, digits) := spanSign t
      if digits.isEmpty || !digits.all Char.isDigit then none
      else some (if negative then -digitsValue digits else digitsValue digits)
    else none

/-- The fraction digits at the start of a text that follows the whole part of a numeral, and what
follows them. -/
def fractionPart : Text → Text × Text
  | '.' :: t => spanDigits t
  | t => ([], t)

/-- Read an unsigned numeral. It has a digit before or after the point. -/
def read? (t : Text) : Option Decimal := do
  let (whole, afterWhole) := spanDigits t
  let (fraction, rest) := fractionPart afterWhole
  if whole.isEmpty && fraction.isEmpty then failure
  let exponent ← exponentPart? rest
  return ⟨digitsValue (whole ++ fraction), exponent - fraction.length⟩

/-- The magnitude nearest to a decimal number. A number of at least `10 ^ 309` is beyond the
greatest finite magnitude, and one below `10 ^ (-330)` under half of the least; so no large power
is ever computed for these. -/
def magnitude (d : Decimal) : Magnitude :=
  if d.digits = 0 then .zero
  else if 309 ≤ d.exponent then .infinity
  else if d.exponent + d.digits.log2 + 1 < -330 then .zero
  else .round (d.digits * tenTo d.exponent.toNat) (tenTo (-d.exponent).toNat)

end Decimal

/-- Read a text as a binary64 number. -/
def Binary64.read (t : Text) : Except NumberFault Binary64 :=
  if t.isEmpty then throw .empty
  else
    let (negative, body) := spanSign t
    if Text.isWordIgnoringAsciiCase ['i', 'n', 'f'] body ||
        Text.isWordIgnoringAsciiCase ['i', 'n', 'f', 'i', 'n', 'i', 't', 'y'] body then
      return signed negative .infinity
    else if Text.isWordIgnoringAsciiCase ['n', 'a', 'n'] body then return nan
    else match Decimal.read? body with
      | some d => return signed negative d.magnitude
      | none => throw .invalid

end RecordFilter
