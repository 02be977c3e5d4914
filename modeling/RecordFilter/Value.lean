import RecordFilter.Number.Binary64
import RecordFilter.Number.Width
import RecordFilter.Text.Basic

/-! # Values

What a field of a record can hold. Equality of values is structural: the three kinds of number stay
apart, and two binary64 numbers are compared as IEEE 754 has it. -/

namespace RecordFilter

/-- A point in time, in milliseconds from the start of 1970 in UTC. -/
structure Timestamp where
  millis : Int
  deriving DecidableEq

/-- The order of two points in time. -/
def Timestamp.compare (s t : Timestamp) : Ordering := Ord.compare s.millis t.millis

/-- Points in time are equal if neither is before the other. -/
theorem Timestamp.compare_eq_eq_iff {s t : Timestamp} : s.compare t = .eq ↔ s = t := by
  obtain ⟨m⟩ := s
  obtain ⟨n⟩ := t
  simp [compare]

/-- Two points in time taken the other way round are in the contrary order. -/
theorem Timestamp.compare_swap (s t : Timestamp) : (s.compare t).swap = t.compare s :=
  Int.compare_swap ..

/-- The point in time a number of seconds after the start of 1970. That the milliseconds fit 64 bits
is left to the caller. -/
def Timestamp.ofSeconds (seconds : Int) : Timestamp := ⟨seconds * 1000⟩

/-- A number, which keeps the form it was given in. -/
inductive Number where
  | signed (n : Int64)
  | unsigned (n : UInt64)
  | float (x : Binary64)
  deriving DecidableEq

namespace Number

/-- The binary64 number nearest to a number, in which all comparisons are made. -/
def toBinary64 : Number → Binary64
  | signed n => .ofInt n.toInt
  | unsigned n => .ofInt n.toNat
  | float x => x

/-- Only NaN is nearest to NaN. -/
theorem toBinary64_eq_nan_iff {n : Number} : n.toBinary64 = .nan ↔ n = .float .nan := by
  cases n <;> simp [toBinary64, Binary64.ofInt]

/-- Structural equality. -/
def equal : Number → Number → Bool
  | signed m, signed n => m == n
  | unsigned m, unsigned n => m == n
  | float x, float y => x.equal y
  | _, _ => false

/-- An integer that has a signed or, failing that, an unsigned form of 64 bits. -/
def ofInt? (n : Int) : Option Number :=
  if fitsSigned n then some (signed (Int64.ofInt n))
  else if fitsUnsigned n then some (unsigned (UInt64.ofNat n.toNat))
  else none

end Number

/-- The value of a field. -/
inductive Value where
  | null
  | text (s : Text)
  | bool (b : Bool)
  | number (n : Number)
  | instant (t : Timestamp)
  | sequence (items : List Value)

/-- The six kinds of value. -/
inductive Value.Kind where
  | null
  | text
  | bool
  | number
  | instant
  | sequence
  deriving DecidableEq

namespace Value

/-- All kinds, in their fixed order. -/
def Kind.all : List Kind := [.null, .text, .bool, .number, .instant, .sequence]

/-- The name of a kind. -/
def Kind.name : Kind → String
  | .null => "null"
  | .text => "text"
  | .bool => "bool"
  | .number => "number"
  | .instant => "instant"
  | .sequence => "sequence"

/-- The kind of a value. -/
def kind : Value → Kind
  | null => .null
  | text _ => .text
  | bool _ => .bool
  | number _ => .number
  | instant _ => .instant
  | sequence _ => .sequence

/-- The text of a text. -/
def text? : Value → Option Text
  | text s => some s
  | _ => none

/-- The truth value of a truth value. -/
def bool? : Value → Option Bool
  | bool b => some b
  | _ => none

/-- The number of a number. -/
def number? : Value → Option Number
  | number n => some n
  | _ => none

/-- The point in time of an instant. -/
def instant? : Value → Option Timestamp
  | instant t => some t
  | _ => none

/-- The elements of a sequence. -/
def items? : Value → Option (List Value)
  | sequence items => some items
  | _ => none

/-- The word for a truth value. -/
def boolText (b : Bool) : Text := if b then ['t', 'r', 'u', 'e'] else ['f', 'a', 'l', 's', 'e']

/-- The text that a text or a truth value is compared as. -/
def textForm? : Value → Option Text
  | text s => some s
  | bool b => some (boolText b)
  | _ => none

mutual

/-- Structural equality. -/
def equal : Value → Value → Bool
  | null, null => true
  | text s, text t => s == t
  | bool b, bool c => b == c
  | number m, number n => m.equal n
  | instant s, instant t => s == t
  | sequence xs, sequence ys => equalItems xs ys
  | _, _ => false

/-- Structural equality of two rows of elements. -/
def equalItems : List Value → List Value → Bool
  | [], [] => true
  | x :: xs, y :: ys => equal x y && equalItems xs ys
  | _, _ => false

end

end Value

end RecordFilter
