import RecordFilter.Text.Basic

/-! # Operators

The eight comparison operators. An operator is found by its token, and the order in which tokens
are looked for settles which operator a comparison has. -/

namespace RecordFilter

/-- A comparison operator. -/
inductive Operator where
  /-- Equal, letters in any case. -/
  | equal
  /-- Equal, letters in the same case. -/
  | equalCase
  /-- Not equal, letters in the same case. -/
  | notEqualCase
  /-- Not equal, letters in any case. -/
  | notEqual
  /-- Greater or equal. -/
  | atLeast
  /-- Less or equal. -/
  | atMost
  /-- Greater. -/
  | above
  /-- Less. -/
  | below
  deriving DecidableEq, Repr

namespace Operator

/-- All operators, in the order in which they are looked for. -/
def priority : List Operator :=
  [equal, equalCase, notEqualCase, notEqual, atLeast, atMost, above, below]

/-- The token of an operator. -/
def token : Operator → Text
  | equal => ['=', '=']
  | equalCase => ['=', '#', '=']
  | notEqualCase => ['!', '#', '=']
  | notEqual => ['!', '=']
  | atLeast => ['>', '=']
  | atMost => ['<', '=']
  | above => ['>']
  | below => ['<']

/-- The operator with a given token. -/
def ofToken? (t : Text) : Option Operator := priority.find? (·.token == t)

/-- Whether an operator asks for equality or its contrary. -/
def isEquality : Operator → Bool
  | equal | equalCase | notEqualCase | notEqual => true
  | _ => false

/-- Whether an operator asks for the contrary of equality. -/
def isNegated : Operator → Bool
  | notEqualCase | notEqual => true
  | _ => false

/-- Whether an operator compares letters in any case. -/
def ignoresCase : Operator → Bool
  | equal | notEqual => true
  | _ => false

/-- Whether a relational operator holds of two things in the given order. No operator of equality
holds of any. -/
def holds : Operator → Ordering → Bool
  | atLeast, .gt | atLeast, .eq => true
  | atMost, .lt | atMost, .eq => true
  | above, .gt => true
  | below, .lt => true
  | _, _ => false

end Operator

end RecordFilter
