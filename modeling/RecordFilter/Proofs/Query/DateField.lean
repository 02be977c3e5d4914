import RecordFilter.Proofs.Clause.Quantity
import RecordFilter.Proofs.Date.Alphabet
import RecordFilter.Proofs.Query.ExactText
import RecordFilter.RecordBuilder

/-! # Dates in data and dates in queries

A field of points in time may hold a date literal, and a query may compare the field with the same
literal. The two are not read alike: the field is tried as an RFC 3339 timestamp first, while the
literal of the query is decoded, may have its control characters put back, and is cut into a range
where it has a tilde. Both come to the same point in time (`evaluate_dateText`), since a timestamp
starts with a digit and a date literal with a letter, and no date literal has a backslash or a
tilde. -/

namespace RecordFilter

variable {offset : Int} {literal : Text} {instant : Timestamp}

/-! ## Dates in data -/

/-- A timestamp starts with the digits of its year. -/
theorem Rfc3339.exists_eq_cons_of_read {t : Text} (h : Rfc3339.read t = .ok instant) :
    ∃ c rest, t = c :: rest ∧ c.isDigit = true := by
  obtain ⟨_, hfields, -⟩ := bind_eq_ok_iff.1 h
  obtain ⟨_, _, hdate, -⟩ := Scan.bind_eq_ok_iff.1 (Scan.complete_eq_ok_iff.1 hfields)
  obtain ⟨_, _, hyear, -⟩ := Scan.bind_eq_ok_iff.1 hdate
  simp only [Scan.fixedNumber] at hyear
  split at hyear
  next => cases hyear
  next hlength =>
    split at hyear
    next hdigits =>
      cases t with
      | nil => exact absurd (by decide) hlength
      | cons c rest => exact ⟨c, rest, rfl, List.all_eq_true.1 hdigits c List.mem_cons_self⟩
    next => cases hyear

/-- A date literal in data is read as such: it is no timestamp. -/
theorem Timestamp.ofText_of_read (h : DateLiteral.read offset literal = .ok instant) :
    Timestamp.ofText offset literal = .ok instant := by
  rw [Timestamp.ofText]
  cases hread : Rfc3339.read literal with
  | error e => exact h
  | ok i =>
    obtain ⟨c, rest, rfl, hdigit⟩ := Rfc3339.exists_eq_cons_of_read hread
    rw [DateLiteral.isDigit_eq_false_of_read h] at hdigit
    cases hdigit

/-- The record of an object whose only member is a date literal under a name that stands for points
in time. -/
theorem RecordBuilder.build_dateText (h : DateLiteral.read offset literal = .ok instant)
    (name : Text) :
    RecordBuilder.build ⟨[name], offset⟩ [(name, .string literal)] =
      .ok ⟨[(name, .instant instant)]⟩ := by
  have hfield : RecordBuilder.buildField ⟨[name], offset⟩ name (.string literal) =
      .ok (.instant instant) := by
    rw [RecordBuilder.buildField, if_pos (by simp), Json.toInstant, Timestamp.ofText_of_read h]
    rfl
  rw [RecordBuilder.build, RecordBuilder.buildFields, hfield]
  rfl

/-! ## Dates in queries -/

/-- No date literal has a backslash. -/
theorem DateLiteral.backslash_notMem_of_read (h : read offset literal = .ok instant) :
    '\\' ∉ literal :=
  notMem_of_read h (upperCase_of_lt (by decide)) (by decide)

/-- No date literal has a tilde. -/
theorem DateLiteral.tilde_notMem_of_read (h : read offset literal = .ok instant) :
    '~' ∉ literal :=
  notMem_of_read h (by decide) (by decide)

namespace Clause

variable {c : Clause} {s : Settings}

/-- A point in time equals a date literal if it is the one that the literal denotes. -/
theorem instantEquals_of_read (h : DateLiteral.read s.offset literal = .ok instant)
    (t : Timestamp) : c.instantEquals s t literal = .ok (t == instant) := by
  rw [instantEquals, inRange_single (DateLiteral.tilde_notMem_of_read h), h, map_ok]

/-- **A point in time is compared with what an encoded date literal denotes**, whether control
characters may be named or not. -/
theorem matchesValue_instant_encode (h : DateLiteral.read s.offset literal = .ok instant)
    (hliteral : c.literal = Percent.encode literal) (hequality : c.operator.isEquality = true)
    (t : Timestamp) :
    c.matchesValue s (.instant t) = .ok ((t == instant) != c.operator.isNegated) := by
  have hreading : Literal.reading s.unescape literal = literal :=
    Literal.reading_eq_self (DateLiteral.backslash_notMem_of_read h) s.unescape
  have hequals : c.equals s (.instant t) = .ok (t == instant) := by
    rw [equals, hliteral, Literal.decode_encode, hreading, ok_bind, equalsDecoded,
      instantEquals_of_read h]
    simp
  rw [matchesValue, if_pos hequality, hequals, ok_bind]
  rfl

end Clause

namespace Query

variable {s : Settings} {r : Record} {name : Text}

/-- A query that compares a point in time with an encoded date literal asks whether it is the one
that the literal denotes. -/
theorem evaluate_encode_instant (h : DateLiteral.read s.offset literal = .ok instant)
    (hname : Plain name) {t : Timestamp} (hfield : r.field? name = some (.instant t))
    {operator : Operator} (hequality : operator.isEquality = true) :
    evaluate s (name ++ (operator.token ++ Percent.encode literal)) r =
      .ok ((t == instant) != operator.isNegated) := by
  rw [evaluate_encode_eq_matchesValue hname hfield,
    Clause.matchesValue_instant_encode h rfl hequality]

/-- **Dates in data and dates in queries agree.** An object with a date literal in a field of points
in time has a record, of which the query that compares the field with the same literal, encoded
throughout, holds, and of which its negation does not. Neither fails, whether control characters may
be named in literals or not. -/
theorem evaluate_dateText (offset : Int) (name literal : Text) (instant : Timestamp)
    (hname : Plain name) (hread : DateLiteral.read offset literal = .ok instant)
    (unescape : Bool) :
    ∃ r, RecordBuilder.build ⟨[name], offset⟩ [(name, .string literal)] = .ok r ∧
      evaluate ⟨offset, unescape⟩
        (name ++ (Operator.equal.token ++ Percent.encode literal)) r = .ok true ∧
      evaluate ⟨offset, unescape⟩
        (name ++ (Operator.notEqual.token ++ Percent.encode literal)) r = .ok false := by
  have hfield : Record.field? ⟨[(name, .instant instant)]⟩ name = some (.instant instant) := by
    simp [Record.field?]
  refine ⟨_, RecordBuilder.build_dateText hread name, ?_, ?_⟩
  · rw [evaluate_encode_instant (s := ⟨offset, unescape⟩) hread hname hfield rfl, beq_self_eq_true]
    rfl
  · rw [evaluate_encode_instant (s := ⟨offset, unescape⟩) hread hname hfield rfl, beq_self_eq_true]
    rfl

/-- A date and time with a zone west of UTC, in small letters, with a year before the first, white
space in front of its numbers and the mathematical minus sign. -/
theorem evaluate_dateText_zoned :
    let name := ['a', ' ', 'é']
    let literal := ['d', 't', 'z', ' ', '-', '1', '-', '\t', '2', '-', '3', 't', '0', ':', '5', ':',
      '6', '\n', '−', '0', '1', ' ', ':', '3', '0']
    ∃ r, RecordBuilder.build ⟨[name], 3600⟩ [(name, .string literal)] = .ok r ∧
      evaluate ⟨3600, true⟩ (name ++ (Operator.equal.token ++ Percent.encode literal)) r =
        .ok true ∧
      evaluate ⟨3600, true⟩ (name ++ (Operator.notEqual.token ++ Percent.encode literal)) r =
        .ok false :=
  evaluate_dateText 3600 ['a', ' ', 'é'] _ ⟨-62195898294000⟩ (by decide) rfl true

end Query

end RecordFilter
