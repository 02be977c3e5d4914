import RecordFilter.Text.Basic

/-! # Field attributes

The attributes of a field settle whether it is left out of the record, and under which name it is
queried. Only attributes of one path count; all others are for someone else. Of several names
given, the last counts. -/

namespace RecordFilter.Schema

/-- The value that an item of an attribute is set to. -/
inductive ItemValue where
  | string (s : Text)
  /-- Anything that is not a string literal. -/
  | other
  deriving DecidableEq

/-- An item of an attribute. -/
inductive Item where
  /-- A bare path. -/
  | path (path : Text)
  /-- A path with a list of its own. -/
  | list (path : Text)
  /-- A path that is set to a value. -/
  | assignment (path : Text) (value : ItemValue)
  deriving DecidableEq

/-- An attribute of a field: a path, and its items if it has parentheses. -/
structure Attribute where
  path : Text
  items? : Option (List Item)
  deriving DecidableEq

/-- Why the attributes of a field are refused. -/
inductive AttributeError where
  | missingParentheses
  | emptyName
  | nameNotString
  | unknownItem
  deriving DecidableEq

/-- The wording of an error. -/
def AttributeError.message : AttributeError → String
  | missingParentheses => "expected attribute arguments in parentheses: #[fiql(...)]"
  | emptyName => "rename must not be empty"
  | nameNotString => "rename must be a string literal"
  | unknownItem => "unknown fiql attribute. Expected: skip or rename = \"...\""

/-- What the attributes of a field ask for. -/
structure FieldOptions where
  skip : Bool
  rename? : Option Text
  deriving DecidableEq

namespace FieldOptions

/-- Nothing asked for. -/
def none : FieldOptions := ⟨false, .none⟩

/-- The options of one item. -/
def ofItem : Item → Except AttributeError FieldOptions
  | .path path => if path = ['s', 'k', 'i', 'p'] then .ok ⟨true, .none⟩ else .error .unknownItem
  | .assignment path value =>
    if path = ['r', 'e', 'n', 'a', 'm', 'e'] then
      match value with
      | .string s => if s.isEmpty then .error .emptyName else .ok ⟨false, some s⟩
      | .other => .error .nameNotString
    else .error .unknownItem
  | .list _ => .error .unknownItem

/-- Add later options: skipping stays asked for, and a later name takes the place of an earlier. -/
def merge (a b : FieldOptions) : FieldOptions := ⟨a.skip || b.skip, b.rename?.or a.rename?⟩

/-- The options of a list of items, up to the first that is refused. -/
def ofItems : List Item → Except AttributeError FieldOptions
  | [] => .ok none
  | item :: items => do
    let first ← ofItem item
    let rest ← ofItems items
    return first.merge rest

/-- The options of one attribute. One of another path asks for nothing. -/
def ofAttribute (a : Attribute) : Except AttributeError FieldOptions :=
  if a.path = ['f', 'i', 'q', 'l'] then
    match a.items? with
    | some items => ofItems items
    | .none => .error .missingParentheses
  else .ok none

/-- The options of all attributes of a field, up to the first that is refused. -/
def ofAttributes : List Attribute → Except AttributeError FieldOptions
  | [] => .ok none
  | a :: attributes => do
    let first ← ofAttribute a
    let rest ← ofAttributes attributes
    return first.merge rest

end FieldOptions

end RecordFilter.Schema
