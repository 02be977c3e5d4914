import RecordFilter.Number.Power

/-! # Magnitudes of binary64 numbers

The absolute value of an IEEE 754 binary64 number is kept as its *code*: the 63 bits under the sign
bit, read as a natural number. Codes and values have the same order, so comparing two numbers is
comparing their codes, and rounding to the next number is adding one. Infinity has the greatest
code; rounding a value beyond the greatest finite number gives it.

All arithmetic here is exact arithmetic on natural numbers, followed by one rounding to the nearest
code, a tie going to the even one. -/

namespace RecordFilter

/-- The code of infinity: an exponent field of all ones over an empty fraction. -/
def infinityCode : Nat := 0x7FF0000000000000

/-- Two to the 52nd: the number of codes in a range, and the least significand of a normal
number. -/
def hiddenBit : Nat := 0x10000000000000

/-- The absolute value of a binary64 number other than NaN. -/
structure Magnitude where
  /-- The 63 bits under the sign bit. -/
  code : Nat
  code_le : code ≤ infinityCode := by decide
  deriving DecidableEq

/-- The quotient of two numbers, rounded to the nearest integer, a tie going to the even one. -/
def roundHalfEven (numerator denominator : Nat) : Nat :=
  let quotient := numerator / denominator
  let twice := 2 * (numerator % denominator)
  if twice < denominator then quotient
  else if denominator < twice then quotient + 1
  else quotient + quotient % 2

/-- The exponent of the greatest power of two that is not above the quotient of two positive
numbers. -/
def binaryLog (numerator denominator : Nat) : Int :=
  let guess : Int := numerator.log2 - denominator.log2
  if denominator * twoTo guess.toNat ≤ numerator * twoTo (-guess).toNat then guess else guess - 1

namespace Magnitude

/-- Zero. -/
def zero : Magnitude := ⟨0, by decide⟩

/-- Infinity. -/
def infinity : Magnitude := ⟨infinityCode, Nat.le_refl _⟩

/-- The magnitude with a given code, or infinity if the code is beyond it. -/
def ofCode (n : Nat) : Magnitude := ⟨min n infinityCode, Nat.min_le_right ..⟩

/-- Whether a magnitude is a finite number. -/
def isFinite (m : Magnitude) : Bool := m.code < infinityCode

/-- The integer significand of a finite magnitude, whose value is `significand * 2 ^ exponent`. -/
def significand (m : Magnitude) : Nat :=
  if m.code < hiddenBit then m.code else m.code % hiddenBit + hiddenBit

/-- The binary exponent that belongs to the significand. -/
def exponent (m : Magnitude) : Int :=
  if m.code < hiddenBit then -1074 else (m.code / hiddenBit : Nat) - 1075

/-- The numerator of a finite magnitude as a quotient of natural numbers. -/
def numerator (m : Magnitude) : Nat := m.significand * twoTo m.exponent.toNat

/-- The denominator of a finite magnitude as a quotient of natural numbers. -/
def denominator (m : Magnitude) : Nat := twoTo (-m.exponent).toNat

/-- The magnitude nearest to a quotient of natural numbers. The quotient is counted in units of the
last place: the units start a new code range at every power of two from `2 ^ 52` units upward. -/
def round (numerator denominator : Nat) : Magnitude :=
  if numerator = 0 then zero
  else
    let exponent := max (binaryLog numerator denominator - 52) (-1074)
    let units := roundHalfEven (numerator * twoTo (-exponent).toNat)
      (denominator * twoTo exponent.toNat)
    ofCode (units + (exponent + 1074).toNat * hiddenBit)

/-- The magnitude nearest to a natural number. -/
def ofNat (n : Nat) : Magnitude := round n 1

/-- The product of two finite magnitudes, rounded. -/
def mul (a b : Magnitude) : Magnitude :=
  round (a.numerator * b.numerator) (a.denominator * b.denominator)

/-- The quotient of two finite magnitudes, the second not zero, rounded. -/
def div (a b : Magnitude) : Magnitude :=
  round (a.numerator * b.denominator) (a.denominator * b.numerator)

/-- The integer part of a finite magnitude. -/
def truncate (m : Magnitude) : Nat := m.numerator / m.denominator

@[simp] theorem round_zero (denominator : Nat) : round 0 denominator = zero := by
  simp [round]

end Magnitude

end RecordFilter
