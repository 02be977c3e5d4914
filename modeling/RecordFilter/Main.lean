import RecordFilter.CommandLine.Run

/-! # The program

Arguments, environment, files and output; everything else is decided in the modules it imports. -/

open RecordFilter RecordFilter.CommandLine

/-- The words for a refusal of the arguments. -/
def usageText : UsageError → String
  | .missingQuery => "a query is required"
  | .unknownArgument => "unexpected argument found"
  | .invalidValue => "invalid or missing value for an option"
  | .unreadableValue => "unreadable value for an option"
  | .repeatedOption => "an option cannot be used multiple times"
  | .unexpectedValue => "unexpected value for an option"
  | .helpAsked =>
    "Usage: fiql-filter [OPTIONS] [QUERY]\n\nOptions:\n  -i, --input <INPUT>\n" ++
      "  -f, --format <FORMAT>\n      --instant <FIELD>\n      --offset <OFFSET>\n" ++
      "      --unescape-control-sequences\n  -c, --count\n  -v, --verbose\n  -h, --help\n" ++
      "  -V, --version"
  | .versionAsked => "fiql-filter 0.1.0"

/-- A layer of an error chain in words. -/
def layerText : ErrorLayer → String
  | .message text => text
  | .json => "malformed JSON"
  | .system => "cannot be opened or read"

/-- Read all of a stream, or what can be read of it. -/
def readAll (stream : IO.FS.Stream) : IO InputStream := do
  let mut bytes := ByteArray.empty
  let mut breaksOff := false
  repeat
    let chunk? ← try some <$> stream.read 65536 catch _ => pure none
    match chunk? with
    | none =>
      breaksOff := true
      break
    | some chunk =>
      if chunk.isEmpty then break
      bytes := bytes ++ chunk
  return ⟨bytes.toList, breaksOff⟩

/-- Read the input. -/
def readInput (a : Arguments) : IO InputSource := do
  match a.input? with
  | some path =>
    let handle ← try some <$> IO.FS.Handle.mk (String.ofList path) .read catch _ => pure none
    match handle with
    | some handle => .opened <$> readAll (.ofHandle handle)
    | none => return .missing
  | none => .opened <$> readAll (← IO.getStdin)

/-- Run with the arguments of the command line. -/
def main (arguments : List String) : IO UInt32 := do
  let query? := (← IO.getEnv "FIQL_QUERY").map String.toList
  match Arguments.read query? (arguments.map String.toList) with
  | .error .helpAsked =>
    IO.println (usageText .helpAsked)
    return 0
  | .error .versionAsked =>
    IO.println (usageText .versionAsked)
    return 0
  | .error e =>
    IO.eprintln ("error: " ++ usageText e)
    return 2
  | .ok a =>
    let source ← match a.checkQuery with
      | .ok () => readInput a
      | .error _ => pure .missing
    let outcome := a.run source
    IO.print (String.ofList outcome.written)
    match outcome.result with
    | .ok _ => return 0
    | .error e =>
      IO.eprintln ("Error: " ++ ": ".intercalate (e.chain.map layerText))
      return 1
