import RecordFilter.Error
import RecordFilter.Text.Percent

/-! # Literals

The right-hand side of a comparison, as it is written in the query: percent-encoded, and with three
shapes that are recognised in it. A range `low~high` is read in the decoded literal, an alternation
`a|b` in the written one, and brackets `[...]`, which ask for a substring, in both. -/

namespace RecordFilter.Literal

/-- Turn the two characters `\n`, `\t` and `\r` into the control characters they name. -/
def unescapeControls : Text → Text
  | '\\' :: 'n' :: t => '\n' :: unescapeControls t
  | '\\' :: 't' :: t => '\t' :: unescapeControls t
  | '\\' :: 'r' :: t => '\r' :: unescapeControls t
  | c :: t => c :: unescapeControls t
  | [] => []

/-- Decode a written literal. With `unescape`, control characters may be named in it. -/
def decode (unescape : Bool) (raw : Text) : Except QueryError Text :=
  match Percent.decode? raw with
  | some t => .ok (if unescape then unescapeControls t else t)
  | none => .error (.undecodable raw)

/-- The bounds of a range, or nothing if there is no `~`. A literal with a `~` has to be a range
with two bounds, neither of them empty. -/
def range (selector literal : Text) : Except QueryError (Option (Text × Text)) :=
  match literal.splitOn '~' with
  | [] | [_] => .ok none
  | [low, high] =>
    if low.isEmpty || high.isEmpty then .error (.malformedRange selector literal)
    else .ok (some (low, high))
  | _ => .error (.malformedRange selector literal)

/-- The text between enclosing brackets. -/
def bracketed? : Text → Option Text
  | '[' :: t => if t.getLast? = some ']' then some t.dropLast else none
  | _ => none

/-- A list of alternatives, still as they are written. -/
structure Alternation where
  /-- The alternatives stood in brackets: each asks for a substring. -/
  contains : Bool
  options : List Text
  deriving DecidableEq

/-- The alternatives of a written literal that holds a bar. -/
def alternation? (raw : Text) : Option Alternation :=
  if raw.contains '|' then
    match bracketed? raw with
    | some inner => some ⟨true, inner.splitOn '|'⟩
    | none => some ⟨false, raw.splitOn '|'⟩
  else none

end RecordFilter.Literal
