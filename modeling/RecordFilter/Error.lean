import RecordFilter.Number.Integer

/-! # Errors of a query

Every way in which the evaluation of a query can fail, where globs of any size can be compiled. An
error is of one of two kinds: the form of the query is wrong, or a literal cannot be read for the
type of the field it is compared with. -/

namespace RecordFilter

/-- Why a text is not a date or time of a given form. -/
inductive DateFault where
  | invalid
  | tooShort
  | outOfRange
  | trailing
  | impossible
  deriving DecidableEq, Repr

/-- The wording of a fault. -/
def DateFault.message : DateFault → String
  | .invalid => "input contains invalid characters"
  | .tooShort => "premature end of input"
  | .outOfRange => "input is out of range"
  | .trailing => "trailing input"
  | .impossible => "no possible date and time matching input"

/-- The kinds of error. -/
inductive ErrorKind where
  /-- The query itself is malformed. -/
  | form
  /-- A literal cannot be read for the type of its field. -/
  | value
  deriving DecidableEq, Repr

/-- An error in the evaluation of a query. That the pattern of a glob is refused is none of them, as
every pattern is assumed to be accepted. -/
inductive QueryError where
  /-- A parenthesis is never closed. -/
  | unclosedParenthesis
  /-- A parenthesis closes none that is open. -/
  | extraClosingParenthesis (position : Nat)
  /-- A comparison holds no operator. -/
  | unknownOperator (fragment : Text)
  /-- A range has not exactly two bounds, or an empty one. -/
  | malformedRange (selector literal : Text)
  /-- A literal is not a number. -/
  | invalidNumber (literal : Text) (fault : NumberFault)
  /-- A literal with the mark of a date form is not of that form. -/
  | invalidDate (literal : Text) (fault : DateFault)
  /-- A literal has no mark of a date form. -/
  | missingDateFormat (literal : Text)
  /-- A literal is not a count of milliseconds. -/
  | invalidEpochMillis (literal : Text) (fault : IntegerFault)
  /-- A percent sign is not followed by two hexadecimal digits. -/
  | undecodable (literal : Text)
  deriving DecidableEq, Repr

/-- A text in single quotation marks. -/
def quoted (t : Text) : String := "'" ++ String.ofList t ++ "'"

namespace QueryError

/-- The kind of an error. -/
def kind : QueryError → ErrorKind
  | unclosedParenthesis => .form
  | extraClosingParenthesis _ => .form
  | unknownOperator _ => .form
  | malformedRange .. => .form
  | invalidNumber .. => .value
  | invalidDate .. => .value
  | missingDateFormat _ => .value
  | invalidEpochMillis .. => .value
  | undecodable _ => .value

/-- The wording of an error. -/
def message : QueryError → String
  | unclosedParenthesis => "unbalanced parentheses: unclosed opening parenthesis"
  | extraClosingParenthesis position =>
    "unbalanced parentheses: extra closing parenthesis at byte " ++ toString position
  | unknownOperator fragment => "unknown operator in " ++ quoted fragment
  | malformedRange selector literal =>
    "range " ++ quoted literal ++ " for selector " ++ quoted selector ++ " is incorrectly formatted"
  | invalidNumber literal _ => quoted literal ++ " is not a number"
  | invalidDate literal _ => quoted literal ++ " is not a valid date/time"
  | missingDateFormat literal => "date format is missing in " ++ quoted literal
  | invalidEpochMillis literal _ => quoted literal ++ " is not a millisecond timestamp"
  | undecodable literal => "cannot percent-decode " ++ quoted literal

/-- The wording of the fault behind an error, if there is one. -/
def source? : QueryError → Option String
  | invalidNumber _ fault => some fault.message
  | invalidDate _ fault => some fault.message
  | invalidEpochMillis _ fault => some fault.message
  | _ => none

end QueryError

end RecordFilter
