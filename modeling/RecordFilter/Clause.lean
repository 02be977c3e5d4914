import RecordFilter.Date.Literal
import RecordFilter.Glob
import RecordFilter.Literal
import RecordFilter.Operator

/-! # Clauses

A clause is one comparison, a field name, an operator and a literal. How the literal is read depends
on the value of the field:

* null: equality asks for the word `null`;
* text and truth values: equality takes a glob, a substring in brackets or an alternation;
* numbers and instants: equality takes a number or a date, or a range of them, and the relational
  operators a number or a date;
* sequences: some element has to match.

Equality looks at the elements of a sequence from left to right and stops at the first that matches;
an element that cannot be compared fails the clause. A relational operator never fails on an
element: the literal is read beforehand, as a number and as a date, and an element for which it
could not be read does not match. -/

namespace RecordFilter

/-- The settings of an evaluation. -/
structure Settings where
  /-- The zone of date literals without one, in seconds east of UTC. -/
  offset : Int := 0
  /-- Whether control characters may be named in literals. -/
  unescape : Bool := false
  deriving DecidableEq, Repr

/-- A comparison. -/
structure Clause where
  /-- The name of the field. -/
  selector : Text
  operator : Operator
  /-- The literal, not yet decoded. -/
  literal : Text
  deriving DecidableEq, Repr

namespace Clause

/-- Split a comparison at its operator: the first in the order of priority whose token occurs, at
its first occurrence. -/
def parse? (fragment : Text) : Option Clause :=
  Operator.priority.findSome? fun operator =>
    (Text.breakAt? operator.token fragment).map fun (selector, literal) =>
      ⟨selector, operator, literal⟩

/-- Read a decoded literal as a number, which may stand between white space. -/
def readNumber (literal : Text) : Except QueryError Binary64 :=
  (Binary64.read literal.trim).mapError (.invalidNumber literal)

/-! ## Equality -/

/-- Whether a value lies within the bounds of a range, or equals the literal if it is no range. The
upper bound is read only for a value that is not below the lower one. -/
def inRange {α : Type} (c : Clause) (read : Text → Except QueryError α) (le equal : α → α → Bool)
    (value : α) (decoded : Text) : Except QueryError Bool := do
  match ← Literal.range c.selector decoded with
  | some (low, high) =>
    if le (← read low) value then return le value (← read high) else return false
  | none => return equal value (← read decoded)

/-- Equality of a number. -/
def numberEquals (c : Clause) (n : Number) (decoded : Text) : Except QueryError Bool :=
  c.inRange readNumber Binary64.le Binary64.equal n.toBinary64 decoded

/-- Equality of an instant. -/
def instantEquals (c : Clause) (s : Settings) (t : Timestamp) (decoded : Text) :
    Except QueryError Bool :=
  c.inRange (DateLiteral.read s.offset) (fun a b => (a.compare b).isLE) (· == ·) t decoded

/-- Equality of a text. The alternatives of an alternation are tried in order; brackets ask for a
substring, and failing that the literal is taken as it stands, brackets included. -/
def textEquals (c : Clause) (s : Settings) (decoded text : Text) : Except QueryError Bool :=
  let ignoreCase := c.operator.ignoresCase
  match Literal.alternation? c.literal with
  | some alternation => alternation.options.anyM fun option => do
    let glob ← Literal.decode s.unescape option
    return if alternation.contains then Glob.contains ignoreCase glob text
      else Glob.equals ignoreCase glob text
  | none =>
    let inside := (Literal.bracketed? c.literal).isSome &&
      (Literal.bracketed? decoded).any fun inner => Glob.contains ignoreCase inner text
    return inside || Glob.equals ignoreCase decoded text

/-- What the literal `*` says of an element of a sequence that is text or a truth value: whether it
is not empty. Of anything else, and under any other literal, this says nothing. -/
def starHit? (c : Clause) (item : Value) : Option Bool :=
  if c.literal = ['*'] then item.textForm?.map fun t => !t.isEmpty else none

mutual

/-- Equality of a value, given the decoded literal. -/
def equalsDecoded (c : Clause) (s : Settings) (decoded : Text) : Value → Except QueryError Bool
  | .null => return decoded == ['n', 'u', 'l', 'l']
  | .text t => c.textEquals s decoded t
  | .bool b => c.textEquals s decoded (Value.boolText b)
  | .number n => c.numberEquals n decoded
  | .instant t => c.instantEquals s t decoded
  | .sequence items => equalsSome c s decoded items

/-- Equality of some element, tried from left to right. -/
def equalsSome (c : Clause) (s : Settings) (decoded : Text) :
    List Value → Except QueryError Bool
  | [] => return false
  | item :: items => do
    let hit ← match c.starHit? item with
      | some hit => pure hit
      | none => equalsDecoded c s decoded item
    if hit then return true else equalsSome c s decoded items

end

/-- Equality of a value. The empty literal equals the empty text without further ado. -/
def equals (c : Clause) (s : Settings) (value : Value) : Except QueryError Bool :=
  match value, c.literal with
  | .text t, [] => return t.isEmpty
  | _, _ => do
    let decoded ← Literal.decode s.unescape c.literal
    c.equalsDecoded s decoded value

/-! ## Order -/

/-- Whether the operator holds of a number and the number of the literal. NaN stands in no order. -/
def numberRelates (operator : Operator) (n : Number) (literal : Binary64) : Bool :=
  (n.toBinary64.compare? literal).any operator.holds

/-- Whether the operator holds of an instant and the instant of the literal. -/
def instantRelates (operator : Operator) (t literal : Timestamp) : Bool :=
  operator.holds (t.compare literal)

/-- A literal read beforehand in the ways in which the elements of a sequence may need it. -/
structure Readings where
  number? : Option Binary64
  instant? : Option Timestamp

/-- Read a decoded literal as a number and as a date. -/
def Readings.of (s : Settings) (decoded : Text) : Readings :=
  ⟨(readNumber decoded).toOption, (DateLiteral.read s.offset decoded).toOption⟩

mutual

/-- Whether the operator holds of an element and the reading that fits it. -/
def relatesReadings (operator : Operator) (readings : Readings) : Value → Bool
  | .number n => readings.number?.any (numberRelates operator n)
  | .instant t => readings.instant?.any (instantRelates operator t)
  | .sequence items => relatesSome operator readings items
  | .null | .text _ | .bool _ => false

/-- Whether the operator holds of some element. -/
def relatesSome (operator : Operator) (readings : Readings) : List Value → Bool
  | [] => false
  | item :: items => relatesReadings operator readings item || relatesSome operator readings items

end

/-- The relational operators. They hold of no null, text or truth value. -/
def relates (c : Clause) (s : Settings) (value : Value) : Except QueryError Bool :=
  match value, c.literal with
  | .text _, [] => return false
  | _, _ => do
    let decoded ← Literal.decode s.unescape c.literal
    match value with
    | .null | .text _ | .bool _ => return false
    | .number n => return numberRelates c.operator n (← readNumber decoded)
    | .instant t => return instantRelates c.operator t (← DateLiteral.read s.offset decoded)
    | .sequence items => return relatesSome c.operator (.of s decoded) items

/-- Whether a clause matches the value of its field. -/
def matchesValue (c : Clause) (s : Settings) (value : Value) : Except QueryError Bool :=
  if c.operator.isEquality then return (← c.equals s value) != c.operator.isNegated
  else c.relates s value

end Clause

end RecordFilter
