import RecordFilter.Json.Basic
import RecordFilter.Json.Lexer

/-! # Reading JSON

A machine with a stack reads the tokens of a document. The stack holds the arrays and objects that
are open, the innermost on top, each with what it holds so far; it never grows beyond the greatest
depth. After every step the machine either needs a value or has just completed one. -/

namespace RecordFilter.Json

/-- An array or object that is still open. What it holds so far has the newest in front. -/
inductive Frame where
  | array (items : List Json)
  /-- The name is that of the member whose value comes next. -/
  | object (members : Members) (name : Text)

/-- The greatest number of arrays and objects that may be open at once. -/
def maxDepth : Nat := 127

mutual

/-- Read on where a value is needed. -/
def needValue (stack : List Frame) : List Token → Option Json
  | .null :: rest => haveValue .null stack rest
  | .bool b :: rest => haveValue (.bool b) stack rest
  | .number n :: rest => haveValue (.number n) stack rest
  | .string s :: rest => haveValue (.string s) stack rest
  | .openArray :: rest =>
    if maxDepth ≤ stack.length then none
    else match rest with
      | .closeArray :: rest => haveValue (.array []) stack rest
      | rest => needValue (.array [] :: stack) rest
  | .openObject :: rest =>
    if maxDepth ≤ stack.length then none
    else match rest with
      | .closeObject :: rest => haveValue (.object []) stack rest
      | .string name :: .colon :: rest => needValue (.object [] name :: stack) rest
      | _ => none
  | _ => none

/-- Read on where a value is complete. -/
def haveValue (value : Json) : List Frame → List Token → Option Json
  | [], [] => some value
  | .array items :: stack, .comma :: rest => needValue (.array (value :: items) :: stack) rest
  | .array items :: stack, .closeArray :: rest =>
    haveValue (.array (value :: items).reverse) stack rest
  | .object members name :: stack, .comma :: .string next :: .colon :: rest =>
    needValue (.object ((name, value) :: members) next :: stack) rest
  | .object members name :: stack, .closeObject :: rest =>
    haveValue (.object (Members.ofList ((name, value) :: members).reverse)) stack rest
  | _, _ => none

end

/-- Read a text as a JSON document. -/
def parse? (t : Text) : Option Json := do
  let tokens ← tokens? t
  needValue [] tokens

end RecordFilter.Json
