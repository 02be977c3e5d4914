import RecordFilter.Main
import RecordFilter.Proofs.Query.TreeEvaluation
import RecordFilter.Proofs.Query.Structure
import RecordFilter.Proofs.Query.Substitution
import RecordFilter.Schema.Derivation
import RecordFilter.ToValue
import RecordFilter.Proofs.Text.Percent
import RecordFilter.Proofs.Clause.Encoded
import RecordFilter.Proofs.Query.ExactText
import RecordFilter.Proofs.ReservedWords
import RecordFilter.Proofs.Query.Form
import RecordFilter.Proofs.CommandLine.QueryCheck
import RecordFilter.Proofs.Query.Position
import RecordFilter.Proofs.Clause.Sequence
import RecordFilter.Proofs.Query.TypedErrors
import RecordFilter.Proofs.Date.Literal
import RecordFilter.Proofs.Query.DateField
import RecordFilter.Proofs.CommandLine.Refilter
import RecordFilter.Proofs.Glob.Pieces
import RecordFilter.Proofs.Schema.Exports
import RecordFilter.Proofs.Schema.Selector
import RecordFilter.Proofs.Clause.Equalities
import RecordFilter.Proofs.Clause.Quantity
import RecordFilter.Proofs.Clause.Range
import RecordFilter.Proofs.Replacement
import RecordFilter.Proofs.Clause.PlainLiteral
import RecordFilter.Proofs.Date.Zone
import RecordFilter.Proofs.Date.Offset
import RecordFilter.Proofs.Query.Collection
import RecordFilter.Proofs.Record.Build
import RecordFilter.Proofs.Clause.Decodable
import RecordFilter.Proofs.Schema.AttributeLines
import RecordFilter.Proofs.Query.Rounds
import RecordFilter.Proofs.Number.Nearest
import RecordFilter.Proofs.Number.Integer
import RecordFilter.Proofs.Clause.Integer
