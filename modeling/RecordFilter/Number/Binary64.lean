import RecordFilter.Number.Magnitude

/-! # Binary64 numbers

A number of the IEEE 754 binary64 format is NaN or has a sign and a magnitude. The order is the IEEE
one: the two zeros are equal, and NaN is neither equal to, below nor above any number. -/

namespace RecordFilter

/-- A binary64 number; the many NaNs of the format are one. -/
inductive Binary64 where
  | nan
  | signed (negative : Bool) (magnitude : Magnitude)
  deriving DecidableEq

namespace Binary64

/-- The value of the sign bit. -/
def signBit : Nat := 0x8000000000000000

/-- The number whose 64 bits are those of `bits`. -/
def ofBits (bits : UInt64) : Binary64 :=
  let code := bits.toNat % signBit
  if h : code ≤ infinityCode then signed (signBit ≤ bits.toNat) ⟨code, h⟩ else nan

/-- The 64 bits of a number other than NaN. -/
def bits? : Binary64 → Option UInt64
  | nan => none
  | signed negative m => some (UInt64.ofNat (m.code + if negative then signBit else 0))

/-- The number whose single-precision form has the 32 bits `bits`: every such number is one of
binary64 too. -/
def ofSingleBits (bits : UInt32) : Binary64 :=
  let negative := decide (0x80000000 ≤ bits.toNat)
  let field := bits.toNat / 0x800000 % 0x100
  let fraction := bits.toNat % 0x800000
  if field = 255 then if fraction = 0 then signed negative .infinity else nan
  else if field = 0 then signed negative (.round fraction (twoTo 149))
  else signed negative (.round ((fraction + 0x800000) * twoTo (field - 1)) (twoTo 149))

/-- The number nearest to an integer. -/
def ofInt (n : Int) : Binary64 := signed (n < 0) (.ofNat n.natAbs)

/-- The place of a number in the order: its signed code, in which the two zeros coincide. -/
def key? : Binary64 → Option Int
  | nan => none
  | signed negative m => some (if negative then -m.code else m.code)

/-- The order of two numbers, unless one is NaN. -/
def compare? (x y : Binary64) : Option Ordering := do
  let a ← x.key?
  let b ← y.key?
  return compare a b

/-- Equality as IEEE 754 has it: the zeros are equal, NaN equals nothing. -/
def equal (x y : Binary64) : Bool := x.compare? y == some .eq

/-- The order relation, false if either number is NaN. -/
def le (x y : Binary64) : Bool := (x.compare? y).any Ordering.isLE

/-- The integer part of a finite number, cut off toward zero. -/
def truncate? : Binary64 → Option Int
  | nan => none
  | signed negative m =>
    if m.isFinite then some (if negative then -m.truncate else m.truncate) else none

@[simp] theorem compare?_nan_left (y : Binary64) : compare? nan y = none := rfl

@[simp] theorem compare?_nan_right (x : Binary64) : compare? x nan = none := by
  cases x <;> rfl

/-- Two numbers are in no order exactly if one of them is NaN. -/
theorem compare?_eq_none_iff {x y : Binary64} : x.compare? y = none ↔ x = nan ∨ y = nan := by
  cases x <;> cases y <;> simp [compare?, key?]

/-- Two numbers taken the other way round are in the contrary order. -/
theorem compare?_swap (x y : Binary64) : (x.compare? y).map Ordering.swap = y.compare? x := by
  cases x with
  | nan => rw [compare?_nan_left, compare?_nan_right, Option.map_none]
  | signed negative m =>
    cases y with
    | nan => rfl
    | signed negative' m' => exact congrArg some (Int.compare_swap ..)

/-- One number is at most another if that is at least the one. -/
theorem le_eq_any (x y : Binary64) : x.le y = (y.compare? x).any Ordering.isGE := by
  rw [le, ← compare?_swap y x, Option.any_map]
  simp only [Ordering.isLE_swap]

end Binary64

end RecordFilter
