import RecordFilter.Value

/-! # JSON

JSON documents. A number keeps its integer form when it has one of 64 bits, and is otherwise a
binary64 number. The members of an object are sorted by name, and no two have the same name. -/

namespace RecordFilter

/-- A JSON document. -/
inductive Json where
  | null
  | bool (b : Bool)
  | number (n : Number)
  | string (s : Text)
  | array (items : List Json)
  | object (members : List (Text × Json))

namespace Json

/-- The members of an object. -/
abbrev Members := List (Text × Json)

/-- Put a member into sorted members, in place of one of the same name. -/
def Members.insert (name : Text) (value : Json) : Members → Members
  | [] => [(name, value)]
  | (other, old) :: members =>
    if name < other then (name, value) :: (other, old) :: members
    else if name = other then (name, value) :: members
    else (other, old) :: Members.insert name value members

/-- Sort members given in any order; of two with the same name the later one counts. -/
def Members.ofList (members : List (Text × Json)) : Members :=
  members.foldl (fun sorted (name, value) => Members.insert name value sorted) []

/-- What a document is, in words. -/
def description : Json → String
  | null => "null"
  | bool _ => "a boolean"
  | number _ => "a number"
  | string _ => "a string"
  | array _ => "an array"
  | object _ => "an object"

end Json

end RecordFilter
