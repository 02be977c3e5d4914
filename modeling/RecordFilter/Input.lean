import RecordFilter.ErrorChain
import RecordFilter.Json.Parser
import RecordFilter.Text.Blank
import RecordFilter.Text.Utf8

/-! # Input

The objects to be filtered are read from a stream of bytes in one of two formats: one object per
line, where lines of white space are passed over but counted, or one document that is an array of
objects or a single object. Lines are read one after the other, so a line that is no text does not
keep those before it from being read. -/

namespace RecordFilter

/-- The formats of the input. -/
inductive InputFormat where
  /-- An array of objects, or a single object. -/
  | document
  /-- An object per line. -/
  | lines
  deriving DecidableEq, Repr

namespace InputFormat

/-- The format that a name given on the command line stands for. -/
def ofName? (name : Text) : Option InputFormat :=
  if name = ['j', 's', 'o', 'n'] then some document
  else if name = ['j', 's', 'o', 'n', 'l'] ∨ name = ['n', 'd', 'j', 's', 'o', 'n'] then some lines
  else none

/-- The extension of a file name: what follows its last point, unless the point is its first
character. -/
def extension? (path : Text) : Option Text := do
  let path := (path.reverse.dropWhile (· = '/')).reverse
  let name : Text ← (path.splitOn '/').getLast?
  let (stem, extension) ← name.splitLast? '.'
  if stem.isEmpty then none else some extension

/-- The format that the extension of a file stands for, in any case. -/
def ofPath? (path : Text) : Option InputFormat := do
  let extension ← extension? path
  ofName? (extension.map Char.toLower)

end InputFormat

/-- A stream that has been read as far as it can be. -/
structure InputStream where
  bytes : List UInt8
  /-- Reading fails behind the bytes, where the stream has not come to its end. -/
  breaksOff : Bool
  deriving DecidableEq, Repr

namespace InputStream

/-- The stream of a text. -/
def ofText (t : Text) : InputStream := ⟨Utf8.encode t, false⟩

/-- The text of a stream, if it is one. -/
def text? (s : InputStream) : Option Text := if s.breaksOff then none else Utf8.decode? s.bytes

/-- The lines of a stream, where a line is missing if it is no text or if reading fails in it. -/
def lines (s : InputStream) : List (Option Text) :=
  -- Bytes are cut at line feeds, so what is no text in one line does not reach into another.
  let lines := (s.bytes.splitOn 10).map Utf8.decode?
  if s.breaksOff then lines.dropLast ++ [none] else lines

end InputStream

/-- What there is to be read. -/
inductive InputSource where
  /-- There is no such file, or it must not be opened. -/
  | missing
  | opened (s : InputStream)
  deriving DecidableEq, Repr

/-- What holds a text. -/
def InputSource.text (t : Text) : InputSource := .opened (.ofText t)

/-- Why the input cannot be read. -/
inductive InputError where
  /-- A line is no text, or reading fails in it. -/
  | unreadableLine
  /-- A line, counted from one, is no JSON document. -/
  | malformedLine (line : Nat)
  /-- A line, counted from one, is not an object. -/
  | lineNotObject (line : Nat) (found : Json)
  /-- The stream is no JSON document, which it may be for want of a text. -/
  | malformedDocument
  /-- An element, counted from zero, is not an object. -/
  | elementNotObject (index : Nat) (found : Json)
  /-- The document is neither an array nor an object. -/
  | documentNotObject (found : Json)

namespace InputError

/-- The wording for a document that should have been an object. -/
def expectedObject (found : Json) : ErrorLayer :=
  .message ("expected a JSON object, found " ++ found.description)

/-- The layers of an error. -/
def chain : InputError → ErrorChain
  | unreadableLine => [.message "Input: failed to read line", .system]
  | malformedLine line => [.message ("Input: invalid JSON on line " ++ toString line), .json]
  | lineNotObject line found => [.message ("Input: line " ++ toString line), expectedObject found]
  | malformedDocument => [.message "Input: invalid JSON document", .json]
  | elementNotObject index found =>
    [.message ("Input: array element " ++ toString index), expectedObject found]
  | documentNotObject found => [.message "Input: document", expectedObject found]

end InputError

namespace Input

/-- Read one line, which is not of white space, as an object. -/
def readLine (number : Nat) (line : Text) : Except InputError Json.Members :=
  match Json.parse? line with
  | some (.object members) => .ok members
  | some found => .error (.lineNotObject number found)
  | none => .error (.malformedLine number)

/-- Read lines, of which the first has the given number. -/
def readLines (number : Nat) : List (Option Text) → Except InputError (List Json.Members)
  | [] => .ok []
  | none :: _ => .error .unreadableLine
  | some line :: lines =>
    if line.isAllBlank then readLines (number + 1) lines
    else do
      let object ← readLine number line
      let objects ← readLines (number + 1) lines
      return object :: objects

/-- Take the elements of an array, of which the first has the given index, as objects. -/
def readElements (index : Nat) : List Json → Except InputError (List Json.Members)
  | [] => .ok []
  | .object members :: items => do
    let objects ← readElements (index + 1) items
    return members :: objects
  | found :: _ => .error (.elementNotObject index found)

/-- Read a stream as the objects it holds. -/
def read (format : InputFormat) (s : InputStream) : Except InputError (List Json.Members) :=
  match format with
  | .lines => readLines 1 s.lines
  | .document =>
    match s.text?.bind Json.parse? with
    | some (.array items) => readElements 0 items
    | some (.object members) => .ok [members]
    | some found => .error (.documentNotObject found)
    | none => .error .malformedDocument

end Input

end RecordFilter
