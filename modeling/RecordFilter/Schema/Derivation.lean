import RecordFilter.Record
import RecordFilter.Schema.Attribute
import RecordFilter.Schema.ConstantName

/-! # Deriving records of objects

From the description of a type with named fields follow the constants that name its fields in
queries, and the way its objects become records. Fields are taken in the order of declaration, and
the first that cannot be exported settles the error. What the derivation says of a type as a whole
is described here; its generic parameters, and the places that its errors point at, are not. -/

namespace RecordFilter.Schema

/-- The shapes a type may have. -/
inductive Shape where
  | namedFields
  | tuple
  | unit
  | enumeration
  | union
  deriving DecidableEq

/-- A field of a type. -/
structure Field where
  name : Text
  attributes : List Attribute
  deriving DecidableEq

/-- The description of a type. -/
structure TypeDescription where
  shape : Shape
  fields : List Field
  deriving DecidableEq

/-- A field that is exported. -/
structure Export where
  /-- The name of the field in queries. -/
  selector : Text
  /-- The name of the constant that holds the selector. -/
  constant : Text
  /-- The name of the field itself. -/
  field : Text
  deriving DecidableEq

/-- Why nothing can be derived. -/
inductive DerivationError where
  | notStructure
  | fieldsNotNamed
  | badAttribute (e : AttributeError)
  /-- The selector has no character that a constant name may have. -/
  | noConstant (selector : Text)
  | duplicateSelector (selector : Text)
  | duplicateConstant (earlier later constant : Text)
  /-- The constant is no identifier. This is not foreseen: instead of being refused, the derivation
  breaks off where the constant is to be named. -/
  | notIdentifier (constant : Text)
  deriving DecidableEq

/-- The wording of an error. -/
def DerivationError.message : DerivationError → String
  | notStructure => "Filterable can only be derived for structs"
  | fieldsNotNamed => "Filterable can only be derived for structs with named fields"
  | badAttribute e => e.message
  | noConstant selector =>
    "query field name '" ++ String.ofList selector ++
      "' has no letters or digits to build a constant from"
  | duplicateSelector selector =>
    "duplicate query field name '" ++ String.ofList selector ++ "'"
  | duplicateConstant earlier later constant =>
    "query field names '" ++ String.ofList earlier ++ "' and '" ++ String.ofList later ++
      "' both produce the constant " ++ String.ofList constant
  | notIdentifier constant => "\"" ++ String.ofList constant ++ "\" is not a valid Ident"

/-- The error of an export that collides with one of earlier fields, the first of them if there are
several. -/
def Export.collision? (e : Export) : List Export → Option DerivationError
  | [] => none
  | earlier :: others =>
    if earlier.selector = e.selector then some (.duplicateSelector e.selector)
    else if earlier.constant = e.constant then
      some (.duplicateConstant earlier.selector e.selector e.constant)
    else e.collision? others

/-- The export of a field, or nothing if it is to be skipped. -/
def Field.export? (f : Field) : Except DerivationError (Option Export) := do
  let options ← (FieldOptions.ofAttributes f.attributes).mapError DerivationError.badAttribute
  if options.skip then return none
  else
    let selector := options.rename?.getD f.name
    let constant := ConstantName.ofName selector
    if ConstantName.isProper constant then return some ⟨selector, constant, f.name⟩
    else throw (.noConstant selector)

/-- The exports of fields, behind those of earlier fields. -/
def exportFields (earlier : List Export) : List Field → Except DerivationError (List Export)
  | [] => return earlier
  | f :: fields => do
    match ← f.export? with
    | none => exportFields earlier fields
    | some e =>
      match e.collision? earlier with
      | some error => throw error
      | none =>
        if ConstantName.isIdentifier e.constant then exportFields (earlier ++ [e]) fields
        else throw (.notIdentifier e.constant)

/-- The exports of a type. -/
def TypeDescription.exports (d : TypeDescription) : Except DerivationError (List Export) :=
  match d.shape with
  | .namedFields => exportFields [] d.fields
  | .tuple | .unit => throw .fieldsNotNamed
  | .enumeration | .union => throw .notStructure

/-- The record of an object with given values of its fields. -/
def recordOf (exports : List Export) (value : Text → Value) : Record :=
  ⟨exports.map fun e => (e.selector, value e.field)⟩

end RecordFilter.Schema
