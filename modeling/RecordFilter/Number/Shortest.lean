import RecordFilter.Number.Decimal

/-! # Shortest decimal form

The decimal number that is written for a finite magnitude: of all that round to the magnitude, one
on the coarsest grid of powers of ten; of these the nearest to it, and of two equally near ones the
one whose last digit is even. A coarser grid means fewer digits, and the digits found never end
in a zero. -/

namespace RecordFilter.Magnitude

/-- Four times the significand, the scale on which the bounds of the numbers that round to a
magnitude are integers. -/
def quarters (m : Magnitude) : Nat := 4 * m.significand

/-- The lower bound, in quarters of the last place, of the numbers that round to a magnitude. Below
a power of two the places are half as wide, save at the least exponent. -/
def lowerQuarters (m : Magnitude) : Nat :=
  if m.significand = hiddenBit ∧ -1074 < m.exponent then m.quarters - 1 else m.quarters - 2

/-- The upper bound, in quarters of the last place, of the numbers that round to a magnitude. -/
def upperQuarters (m : Magnitude) : Nat := m.quarters + 2

/-- The digits `d` for which `d * 10 ^ exponent` is a shortest form on the grid of that power of
ten, if the grid has a number that rounds to the magnitude. -/
def digitsOnGrid? (m : Magnitude) (exponent : Int) : Option Nat :=
  let scale := m.exponent - 2
  let unit := twoTo scale.toNat * tenTo (-exponent).toNat
  let grid := twoTo (-scale).toNat * tenTo exponent.toNat
  let rounds (d : Nat) : Bool :=
    if m.significand % 2 = 0 then
      m.lowerQuarters * unit ≤ d * grid && d * grid ≤ m.upperQuarters * unit
    else m.lowerQuarters * unit < d * grid && d * grid < m.upperQuarters * unit
  let below := m.quarters * unit / grid
  let twice := 2 * (m.quarters * unit % grid)
  let nearest := if twice < grid then below else if grid < twice then below + 1
    else below + below % 2
  let other := if nearest = below then below + 1 else below
  if rounds nearest then some nearest
  else if rounds other then some other
  else none

/-- The first grid, from `10 ^ exponent` down, that has a number which rounds to the magnitude. -/
def shortestFrom (m : Magnitude) (exponent : Int) : Nat → Decimal
  | 0 => ⟨m.significand, m.exponent⟩
  | grids + 1 =>
    match m.digitsOnGrid? exponent with
    | some digits => ⟨digits, exponent⟩
    | none => shortestFrom m (exponent - 1) grids

/-- The shortest decimal form of a finite magnitude other than zero. Such a magnitude lies between
`10 ^ (-324)` and `10 ^ 309`, and seventeen digits always suffice. -/
def shortest (m : Magnitude) : Decimal := m.shortestFrom 309 650

end RecordFilter.Magnitude
