import RecordFilter.Date.Rfc3339
import RecordFilter.Date.Literal
import RecordFilter.ErrorChain
import RecordFilter.Json.Printer
import RecordFilter.Record

/-! # Records from JSON objects

Every member of an object becomes a field. The fields named as instants must hold points in time,
which are given as a count of milliseconds, as an RFC 3339 timestamp or as a date literal; null
stands for a missing one, and arrays are read element by element. Any other field keeps its JSON
value, except that an object becomes the text of its compact form. -/

namespace RecordFilter

mutual

/-- The value of a JSON document. -/
def Json.toValue : Json → Value
  | .null => .null
  | .bool b => .bool b
  | .number n => .number n
  | .string s => .text s
  | .array items => .sequence (Json.toValues items)
  | .object members => .text (Json.render (.object members))

/-- The values of the elements of an array. -/
def Json.toValues : List Json → List Value
  | [] => []
  | item :: items => item.toValue :: Json.toValues items

end

/-- Why a JSON document is not a point in time. -/
inductive InstantFault where
  /-- A number is out of the range of milliseconds. -/
  | outOfRange (n : Number)
  /-- A text is neither a timestamp nor a date literal. -/
  | notDate (text : Text) (e : QueryError)
  /-- The document is of another type. -/
  | wrongType (json : Json)

/-- The layers of a fault. -/
def InstantFault.chain : InstantFault → ErrorChain
  | .outOfRange n =>
    [.message (String.ofList (Json.numberText n) ++ " is out of range for epoch milliseconds")]
  | .notDate text e =>
    .message (quoted text ++ " is neither RFC 3339 nor a date literal") :: e.chain
  | .wrongType json => [.message ("found " ++ json.description)]

/-- A field that should hold a point in time and does not. -/
structure FieldError where
  name : Text
  fault : InstantFault

/-- The layers of a field error. -/
def FieldError.chain (e : FieldError) : ErrorChain :=
  .message ("Field " ++ quoted e.name ++ ": not a date") :: e.fault.chain

namespace Timestamp

/-- The point in time a number of milliseconds after the start of 1970. The count must fit into 64
bits once its fraction is cut off. -/
def ofNumber? (n : Number) : Option Timestamp :=
  match n with
  | .signed n => some ⟨n.toInt⟩
  | .unsigned n => fitting n.toNat
  | .float x => x.truncate?.bind fitting
where
  /-- A count of milliseconds that fits. -/
  fitting (millis : Int) : Option Timestamp :=
    if fitsSigned millis then some ⟨millis⟩ else none

/-- The point in time a text denotes: an RFC 3339 timestamp, or else a date literal. -/
def ofText (offset : Int) (t : Text) : Except QueryError Timestamp :=
  match Rfc3339.read t with
  | .ok instant => .ok instant
  | .error _ => DateLiteral.read offset t

end Timestamp

mutual

/-- Read a JSON document as points in time. -/
def Json.toInstant (offset : Int) : Json → Except InstantFault Value
  | .null => .ok .null
  | .number n =>
    match Timestamp.ofNumber? n with
    | some instant => .ok (.instant instant)
    | none => .error (.outOfRange n)
  | .string s => ((Timestamp.ofText offset s).map Value.instant).mapError (.notDate s)
  | .array items => (Json.toInstants offset items).map Value.sequence
  | .bool b => .error (.wrongType (.bool b))
  | .object members => .error (.wrongType (.object members))

/-- Read the elements of an array as points in time, up to the first that is none. -/
def Json.toInstants (offset : Int) : List Json → Except InstantFault (List Value)
  | [] => .ok []
  | item :: items => do
    let value ← item.toInstant offset
    let values ← Json.toInstants offset items
    return value :: values

end

/-- How the records of a run are built. -/
structure RecordBuilder where
  /-- The names of the fields that hold points in time. -/
  instants : List Text
  /-- The zone of date literals without one, in seconds east of UTC. -/
  offset : Int

namespace RecordBuilder

/-- The value of one field. -/
def buildField (b : RecordBuilder) (name : Text) (json : Json) : Except FieldError Value :=
  if b.instants.contains name then (json.toInstant b.offset).mapError (FieldError.mk name)
  else .ok json.toValue

/-- The fields of a record, in the order of the members, up to the first that fails. -/
def buildFields (b : RecordBuilder) : Json.Members → Except FieldError (List (Text × Value))
  | [] => .ok []
  | (name, json) :: members => do
    let value ← b.buildField name json
    let fields ← b.buildFields members
    return (name, value) :: fields

/-- The record of an object. -/
def build (b : RecordBuilder) (members : Json.Members) : Except FieldError Record :=
  (b.buildFields members).map Record.mk

end RecordBuilder

end RecordFilter
