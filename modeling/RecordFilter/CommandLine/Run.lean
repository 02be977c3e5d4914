import RecordFilter.CommandLine.Arguments
import RecordFilter.Query
import RecordFilter.RecordBuilder

/-! # A run

The input is read as a whole, and its objects are taken in order: each is built into a record, the
query is evaluated on the record, and a matching object is written as a line. The first failure ends
the run; what was written before it stays. With the count option only the number of matches is
written, when all is done.

The output takes everything that is written to it: a run whose output breaks off is not described
here, and neither is what the verbose option adds, which goes elsewhere. -/

namespace RecordFilter.CommandLine

/-- Why a run fails. -/
inductive RunError where
  /-- The query is malformed, whatever the records are. -/
  | invalidQuery (e : QueryError)
  /-- The file cannot be opened. -/
  | cannotOpen (path : Text)
  /-- The input holds no objects. -/
  | input (e : InputError)
  /-- A record, counted from zero, cannot be built. -/
  | record (index : Nat) (e : FieldError)
  /-- The query fails on a record, counted from zero. -/
  | query (index : Nat) (e : QueryError)

/-- The layers of a failure. -/
def RunError.chain : RunError → ErrorChain
  | invalidQuery e => .message "Query: invalid syntax" :: e.chain
  | cannotOpen path => [.message ("Input: failed to open " ++ String.ofList path), .system]
  | input e => e.chain
  | record index e => .message ("Record " ++ toString index) :: e.chain
  | query index e => .message ("Query: failed on record " ++ toString index) :: e.chain

/-- What a run writes, and the number of matches or the failure it ends with. -/
structure Outcome where
  written : Text
  result : Except RunError Nat

/-- Write the number of matches in place of the matches. -/
def Outcome.counted (o : Outcome) : Outcome :=
  match o.result with
  | .ok n => ⟨natText n ++ ['\n'], .ok n⟩
  | .error e => ⟨[], .error e⟩

namespace Arguments

/-- The settings of the evaluation. -/
def settings (a : Arguments) : Settings := ⟨a.offset, a.has .unescape⟩

/-- How records are built. -/
def builder (a : Arguments) : RecordBuilder := ⟨a.instants, a.offset⟩

/-- Refuse a query whose form is wrong where all fields are null. -/
def checkQuery (a : Arguments) : Except RunError Unit :=
  match Query.evaluate a.settings a.query .empty with
  | .error e => if e.kind = .form then .error (.invalidQuery e) else .ok ()
  | .ok _ => .ok ()

/-- Whether an object matches. -/
def selects (a : Arguments) (index : Nat) (object : Json.Members) : Except RunError Bool := do
  let r ← (a.builder.build object).mapError (RunError.record index)
  (Query.evaluate a.settings a.query r).mapError (RunError.query index)

/-- The line that is written for an object. -/
def line (object : Json.Members) : Text := (Json.object object).render ++ ['\n']

/-- Take objects, of which the first has the given index, and write those that match. -/
def writeMatches (a : Arguments) (index : Nat) : List Json.Members → Outcome
  | [] => ⟨[], .ok 0⟩
  | object :: objects =>
    match a.selects index object with
    | .error e => ⟨[], .error e⟩
    | .ok hit =>
      let rest := a.writeMatches (index + 1) objects
      if hit then ⟨line object ++ rest.written, rest.result.map (· + 1)⟩ else rest

/-- Run on the objects of the input. -/
def runOn (a : Arguments) (objects : List Json.Members) : Outcome :=
  let outcome := a.writeMatches 0 objects
  if a.has .count then outcome.counted else outcome

/-- Read the objects of the input. -/
def objects (a : Arguments) : InputSource → Except RunError (List Json.Members)
  | .missing => .error (.cannotOpen (a.input?.getD []))
  | .opened s => (Input.read a.format s).mapError RunError.input

/-- Run on an input, which is not looked at if the query is refused. -/
def run (a : Arguments) (source : InputSource) : Outcome :=
  match a.checkQuery.bind fun () => a.objects source with
  | .error e => ⟨[], .error e⟩
  | .ok objects => a.runOn objects

end Arguments

end RecordFilter.CommandLine
