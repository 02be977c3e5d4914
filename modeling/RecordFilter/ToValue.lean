import RecordFilter.Date.Calendar

/-! # Conversion into values

Values of common types as values of fields. Something optional that is missing is null, a list is a
sequence, a date is its midnight in UTC, and a date with a time is a point in time in UTC. -/

namespace RecordFilter

/-- Types whose elements are values of fields. -/
class ToValue (α : Type) where
  /-- The value of a field that holds an element. -/
  toValue : α → Value

export ToValue (toValue)

instance : ToValue Value := ⟨id⟩
instance : ToValue Text := ⟨.text⟩
instance : ToValue Bool := ⟨.bool⟩
instance : ToValue Number := ⟨.number⟩
instance : ToValue Int64 := ⟨fun n => .number (.signed n)⟩
instance : ToValue UInt64 := ⟨fun n => .number (.unsigned n)⟩
instance : ToValue Binary64 := ⟨fun x => .number (.float x)⟩
instance : ToValue Timestamp := ⟨.instant⟩
instance : ToValue CivilDate := ⟨fun d => .instant d.midnight⟩

instance {α : Type} [ToValue α] : ToValue (Option α) := ⟨fun x => x.elim .null toValue⟩

instance {α : Type} [ToValue α] : ToValue (List α) := ⟨fun xs => .sequence (xs.map toValue)⟩

/-- The point in time a number of seconds and nanoseconds after the start of 1970. Nanoseconds
beyond a second are those of a leap second; parts of a millisecond are cut off. -/
def Timestamp.ofNanos (seconds : Int) (nanos : Nat) : Timestamp :=
  ⟨seconds * 1000 + (nanos / 1000000 : Nat)⟩

/-- The point in time of a date and a time of day in UTC, to the nanosecond. -/
def Timestamp.ofUtc (date : CivilDate) (time : ClockTime) (nanos : Nat) : Timestamp :=
  .ofNanos (date.epochDay * 86400 + time.seconds) nanos

end RecordFilter
