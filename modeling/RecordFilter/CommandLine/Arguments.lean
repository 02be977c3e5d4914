import RecordFilter.Date.Offset
import RecordFilter.Input

/-! # Command line arguments

The query is the only positional argument; all else is options, in a long form `--name`, with its
value behind `=` or in the next argument, and some also in a short form `-n`, with its value
attached, behind `=` or in the next argument. Short forms can be run together, and after `--`
everything is positional.

An argument that begins with a minus and does not end there is never the value of the option before
it. The value of an option is looked at only when the next argument is understood, or at the end, so
an unknown argument is reported before a bad value in front of it. -/

namespace RecordFilter.CommandLine

/-- Why the arguments are refused, or what they ask for instead of a run. -/
inductive UsageError where
  | missingQuery
  | unknownArgument
  /-- A value is not one of those possible, or is missing. -/
  | invalidValue
  /-- A value cannot be read. -/
  | unreadableValue
  /-- An option that may be given once is given again. -/
  | repeatedOption
  /-- A value is given to an option that takes none. -/
  | unexpectedValue
  | helpAsked
  | versionAsked
  deriving DecidableEq, Repr

/-- An option without a value. -/
inductive Flag where
  | count
  | verbose
  | unescape
  deriving DecidableEq, Repr

/-- An option with a value. -/
inductive Setting where
  | input
  | format
  | instant
  | offset
  deriving DecidableEq, Repr

/-- What the name of an option stands for. -/
inductive Switch where
  | flag (flag : Flag)
  | setting (setting : Setting)
  | help
  | version
  deriving DecidableEq, Repr

/-- The option with a long name. -/
def Switch.ofLong? (name : Text) : Option Switch :=
  match String.ofList name with
  | "input" => some (.setting .input)
  | "format" => some (.setting .format)
  | "instant" => some (.setting .instant)
  | "offset" => some (.setting .offset)
  | "unescape-control-sequences" => some (.flag .unescape)
  | "count" => some (.flag .count)
  | "verbose" => some (.flag .verbose)
  | "help" => some .help
  | "version" => some .version
  | _ => none

/-- The option with a short name. -/
def Switch.ofShort? : Char → Option Switch
  | 'i' => some (.setting .input)
  | 'f' => some (.setting .format)
  | 'c' => some (.flag .count)
  | 'v' => some (.flag .verbose)
  | 'h' => some .help
  | 'V' => some .version
  | _ => none

/-- The arguments of a run. -/
structure Arguments where
  query : Text
  /-- The file to be read; the standard input if there is none. -/
  input? : Option Text
  /-- The format asked for. -/
  format? : Option InputFormat
  /-- The fields that hold points in time. -/
  instants : List Text
  /-- The zone of date literals without one, in seconds east of UTC. -/
  offset : Int
  flags : List Flag

/-- The format of the input: the one asked for, else that of the file, else lines. -/
def Arguments.format (a : Arguments) : InputFormat :=
  (a.format?.or (a.input?.bind InputFormat.ofPath?)).getD .lines

/-- Whether a flag is given. -/
def Arguments.has (a : Arguments) (flag : Flag) : Bool := a.flags.contains flag

/-- The arguments read so far. -/
structure Draft where
  query? : Option Text := none
  input? : Option Text := none
  format? : Option InputFormat := none
  instants : List Text := []
  offset? : Option Int := none
  flags : List Flag := []
  /-- The last option if its value has not been looked at, with the value once it is given. -/
  pending? : Option (Setting × Option Text) := none

namespace Draft

/-- Give an option its value. Only fields of instants may be named more than once. -/
def assign (d : Draft) (value : Text) : Setting → Except UsageError Draft
  | .input =>
    if d.input?.isSome then throw .repeatedOption
    else if value.isEmpty then throw .invalidValue
    else return { d with input? := some value }
  | .format =>
    if d.format?.isSome then throw .repeatedOption
    else match InputFormat.ofName? value with
      | some format => return { d with format? := some format }
      | none => throw .invalidValue
  | .instant => return { d with instants := d.instants ++ [value] }
  | .offset =>
    if d.offset?.isSome then throw .repeatedOption
    else match Offset.read value with
      | .ok offset => return { d with offset? := some offset }
      | .error _ => throw .unreadableValue

/-- Look at the value of the last option. -/
def settle (d : Draft) : Except UsageError Draft :=
  match d.pending? with
  | none => return d
  | some (_, none) => throw .invalidValue
  | some (setting, some value) => { d with pending? := none }.assign value setting

/-- Set a flag. -/
def raise (d : Draft) (flag : Flag) : Except UsageError Draft := do
  let d ← d.settle
  if d.flags.contains flag then throw .repeatedOption
  else return { d with flags := flag :: d.flags }

/-- Take an option whose value is attached, or comes in the next argument. -/
def expect (d : Draft) (setting : Setting) (value? : Option Text) : Except UsageError Draft := do
  let d ← d.settle
  match value? with
  | some value => d.assign value setting
  | none => return { d with pending? := some (setting, none) }

/-- Take an option that has no value. -/
def press (d : Draft) : Switch → Except UsageError Draft
  | .flag flag => d.raise flag
  | .setting setting => d.expect setting none
  | .help => do
    let _ ← d.settle
    throw .helpAsked
  | .version => do
    let _ ← d.settle
    throw .versionAsked

/-- Take a long option: a name, and a value behind `=` if there is one. -/
def takeLong (d : Draft) (body : Text) : Except UsageError Draft :=
  let (name, value?) := match body.splitFirst? '=' with
    | some (name, value) => (name, some value)
    | none => (body, none)
  match Switch.ofLong? name, value? with
  | none, _ => throw .unknownArgument
  | some (.setting setting), value? => d.expect setting value?
  | some _, some _ => throw .unexpectedValue
  | some switch, none => d.press switch

/-- Take short options that are run together. The first that has a value takes all that follows. -/
def takeShort (d : Draft) : Text → Except UsageError Draft
  | [] => return d
  | c :: t =>
    match Switch.ofShort? c with
    | none => throw .unknownArgument
    | some (.setting setting) =>
      match t with
      | [] => d.expect setting none
      | '=' :: value => d.expect setting (some value)
      | value => d.expect setting (some value)
    | some switch => do
      let d ← d.press switch
      d.takeShort t

/-- Take a positional argument. There is only one. -/
def takePositional (d : Draft) (argument : Text) : Except UsageError Draft :=
  if d.query?.isSome then throw .unknownArgument
  else do
    let d ← d.settle
    return { d with query? := some argument }

/-- Take an argument that is no option: the value of the option before it, if that waits for one,
else a positional argument. -/
def takePlain (d : Draft) (argument : Text) : Except UsageError Draft :=
  match d.pending? with
  | some (setting, none) => return { d with pending? := some (setting, some argument) }
  | _ => d.takePositional argument

/-- Take all arguments. -/
def takeAll (d : Draft) : List Text → Except UsageError Draft
  | [] => return d
  | ['-', '-'] :: arguments => arguments.foldlM takePositional d
  | argument :: arguments => do
    let d ← match argument with
      | '-' :: '-' :: body => d.takeLong body
      | '-' :: c :: body => d.takeShort (c :: body)
      | argument => d.takePlain argument
    d.takeAll arguments

/-- Complete the arguments. The query may be given from outside, and the zone is UTC if there is
none. -/
def finish (d : Draft) (query? : Option Text) : Except UsageError Arguments := do
  let d ← d.settle
  match d.query?.or query? with
  | some query =>
    return ⟨query, d.input?, d.format?, d.instants, d.offset?.getD 0, d.flags⟩
  | none => throw .missingQuery

end Draft

/-- Read the arguments of a run. The query given from outside stands in for one that is missing. -/
def Arguments.read (query? : Option Text) (arguments : List Text) :
    Except UsageError Arguments := do
  let d ← ({} : Draft).takeAll arguments
  d.finish query?

end RecordFilter.CommandLine
