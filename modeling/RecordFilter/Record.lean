import RecordFilter.Value

/-! # Records

A record maps field names to values. Names are compared exactly, and a field that is missing is
treated like one that holds null. -/

namespace RecordFilter

/-- A record: its fields, of which the first of a name counts. -/
structure Record where
  fields : List (Text × Value)

namespace Record

/-- The record without fields. -/
def empty : Record := ⟨[]⟩

/-- The value of a field, if there is one of that name. -/
def field? (r : Record) (name : Text) : Option Value := r.fields.lookup name

/-- The value of a field, null if there is none of that name. -/
def field (r : Record) (name : Text) : Value := (r.field? name).getD .null

@[simp] theorem field?_empty (name : Text) : empty.field? name = none := rfl

@[simp] theorem field_empty (name : Text) : empty.field name = .null := rfl

end Record

/-- Things that have a record to be filtered by. -/
class ToRecord (α : Type) where
  /-- The record of a thing. -/
  toRecord : α → Record

instance : ToRecord Record := ⟨id⟩

end RecordFilter
