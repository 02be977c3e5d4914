import RecordFilter.Error

/-! # Error chains

A failure of the program is told as a chain of layers, from what was being done to what went
wrong. The innermost layer may be the word of the JSON reader or of the system. -/

namespace RecordFilter

/-- A layer of an error chain. -/
inductive ErrorLayer where
  | message (text : String)
  /-- A text is no JSON document. -/
  | json
  /-- The system refused to open or read a file. -/
  | system
  deriving DecidableEq, Repr

/-- A chain of layers, the outermost first. -/
abbrev ErrorChain := List ErrorLayer

/-- The layers of an error in a query: its own wording, and that of the fault behind it. -/
def QueryError.chain (e : QueryError) : ErrorChain :=
  .message e.message :: (e.source?.map ErrorLayer.message).toList

end RecordFilter
