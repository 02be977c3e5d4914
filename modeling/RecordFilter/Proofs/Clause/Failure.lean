import RecordFilter.Clause
import RecordFilter.Proofs.Result

/-! # How a comparison fails

A comparison fails because its literal cannot be decoded, or because it cannot be read for the type
of some leaf of the value it is compared with. `QueryError.FitsLeaves` says which errors the leaves
of a value account for, and `matchesValue_failsWith` that a comparison has no others. In particular
no comparison reports a fault in the structure of the query (`StructuralFault`). -/

namespace RecordFilter

/-! ## Faults in the structure of a query -/

/-- The ways in which a query is wrong before any literal is read. -/
inductive StructuralFault where
  | unclosedParenthesis
  | extraClosingParenthesis
  | unknownOperator
  deriving DecidableEq, Repr

/-- The structural fault that an error reports, if it reports one. -/
def QueryError.structuralFault? : QueryError → Option StructuralFault
  | .unclosedParenthesis => some .unclosedParenthesis
  | .extraClosingParenthesis _ => some .extraClosingParenthesis
  | .unknownOperator _ => some .unknownOperator
  | _ => none

/-! ## Leaves -/

namespace Value

mutual

/-- Whether a value is of a kind or, if it is a sequence, has an element of that kind at any
depth. -/
def hasLeaf (k : Kind) : Value → Bool
  | sequence items => anyHasLeaf k items
  | null => k = .null
  | text _ => k = .text
  | bool _ => k = .bool
  | number _ => k = .number
  | instant _ => k = .instant

/-- Whether some value of a row has a leaf of a kind. -/
def anyHasLeaf (k : Kind) : List Value → Bool
  | [] => false
  | item :: items => hasLeaf k item || anyHasLeaf k items

end

end Value

/-- What the errors of a comparison with a value say of its leaves. -/
def QueryError.FitsLeaves (has : Value.Kind → Prop) : QueryError → Prop
  | .undecodable _ => True
  | .invalidNumber .. => has .number
  | .invalidDate .. | .missingDateFormat _ | .invalidEpochMillis .. => has .instant
  | .malformedRange .. => has .number ∨ has .instant
  | .unclosedParenthesis | .extraClosingParenthesis _ | .unknownOperator _ => False

namespace QueryError.FitsLeaves

variable {has more : Value.Kind → Prop} {e : QueryError}

/-- An error fits more leaves than it needs. -/
theorem mono (h : ∀ k, has k → more k) (he : e.FitsLeaves has) : e.FitsLeaves more := by
  cases e with
  | malformedRange => exact he.imp (h _) (h _)
  | undecodable => trivial
  | invalidNumber => exact h _ he
  | invalidDate => exact h _ he
  | missingDateFormat => exact h _ he
  | invalidEpochMillis => exact h _ he
  | unclosedParenthesis => exact he
  | extraClosingParenthesis => exact he
  | unknownOperator => exact he

/-- An error that fits leaves is not one of the structure. -/
theorem structuralFault?_eq_none (he : e.FitsLeaves has) : e.structuralFault? = none := by
  cases e <;> first | rfl | exact he.elim

end QueryError.FitsLeaves

open QueryError (FitsLeaves)

variable {has : Value.Kind → Prop}

/-! ## Readings of a literal -/

theorem Literal.decode_failsWith (unescape : Bool) (raw : Text) :
    FailsWith (FitsLeaves has) (Literal.decode unescape raw) := by
  rw [Literal.decode]
  split
  · exact .ok _
  · exact FailsWith.error_iff.2 trivial

theorem Literal.range_failsWith (h : has .number ∨ has .instant) (selector literal : Text) :
    FailsWith (FitsLeaves has) (Literal.range selector literal) := by
  have hmalformed : FailsWith (FitsLeaves has)
      (.error (.malformedRange selector literal) : Except QueryError (Option (Text × Text))) :=
    FailsWith.error_iff.2 h
  rw [Literal.range]
  split
  · exact .ok _
  · exact .ok _
  · split
    · exact hmalformed
    · exact .ok _
  · exact hmalformed

namespace Clause

theorem readNumber_failsWith (h : has .number) (literal : Text) :
    FailsWith (FitsLeaves has) (readNumber literal) := by
  rw [readNumber]
  cases Binary64.read literal.trim with
  | ok x => exact .ok x
  | error fault => exact FailsWith.error_iff.2 h

end Clause

theorem DateLiteral.read_failsWith (h : has .instant) (offset : Int) (literal : Text) :
    FailsWith (FitsLeaves has) (DateLiteral.read offset literal) := by
  rw [DateLiteral.read]
  split
  next t _ =>
    cases SignedInteger.read t with
    | ok n => exact .ok _
    | error fault => exact FailsWith.error_iff.2 h
  next =>
    split
    next form t _ =>
      cases readForm offset t form with
      | ok instant => exact .ok _
      | error fault => exact FailsWith.error_iff.2 h
    next => exact FailsWith.error_iff.2 h

namespace Clause

variable (c : Clause) (s : Settings)

/-! ## Equality -/

theorem inRange_failsWith {α : Type} {read : Text → Except QueryError α} {le equal : α → α → Bool}
    (h : has .number ∨ has .instant) (hread : ∀ t, FailsWith (FitsLeaves has) (read t))
    (value : α) (decoded : Text) :
    FailsWith (FitsLeaves has) (c.inRange read le equal value decoded) := by
  refine (Literal.range_failsWith h _ _).bind fun bounds? => ?_
  split
  next low high =>
    refine (hread low).bind fun low => ?_
    split
    · exact (hread high).bind fun high => .ok _
    · exact .ok _
  next => exact (hread decoded).bind fun literal => .ok _

theorem textEquals_failsWith (decoded text : Text) :
    FailsWith (FitsLeaves has) (c.textEquals s decoded text) := by
  rw [textEquals]
  split
  next alternation _ =>
    exact .anyM (fun option => (Literal.decode_failsWith _ option).bind fun glob => .ok _) _
  next => exact .ok _

/-- Elements of a sequence bring the errors of a row of values to it. -/
theorem fitsLeaves_sequence {items : List Value} {e : QueryError}
    (he : e.FitsLeaves fun k => Value.anyHasLeaf k items) :
    e.FitsLeaves fun k => Value.hasLeaf k (.sequence items) :=
  he.mono fun k hk => by simpa only [Value.hasLeaf] using hk

mutual

theorem equalsDecoded_failsWith (decoded : Text) : ∀ value : Value,
    FailsWith (FitsLeaves fun k => value.hasLeaf k) (c.equalsDecoded s decoded value)
  | .null => by simp [equalsDecoded]
  | .text t => by
    rw [equalsDecoded]
    exact textEquals_failsWith c s decoded t
  | .bool b => by
    rw [equalsDecoded]
    exact textEquals_failsWith c s decoded (Value.boolText b)
  | .number n => by
    have hn : Value.hasLeaf .number (.number n) := by simp [Value.hasLeaf]
    rw [equalsDecoded, numberEquals]
    exact inRange_failsWith c (.inl hn) (readNumber_failsWith hn) _ _
  | .instant t => by
    have ht : Value.hasLeaf .instant (.instant t) := by simp [Value.hasLeaf]
    rw [equalsDecoded, instantEquals]
    exact inRange_failsWith c (.inr ht) (DateLiteral.read_failsWith ht s.offset) _ _
  | .sequence items => by
    rw [equalsDecoded]
    exact (equalsSome_failsWith decoded items).mono fun e => fitsLeaves_sequence

theorem equalsSome_failsWith (decoded : Text) : ∀ items : List Value,
    FailsWith (FitsLeaves fun k => Value.anyHasLeaf k items) (equalsSome c s decoded items)
  | [] => by simp [equalsSome]
  | item :: items => by
    have hhead : ∀ k, Value.hasLeaf k item → Value.anyHasLeaf k (item :: items) := by
      intro k hk
      simp [Value.anyHasLeaf, hk]
    have htail : ∀ k, Value.anyHasLeaf k items → Value.anyHasLeaf k (item :: items) := by
      intro k hk
      simp [Value.anyHasLeaf, hk]
    -- Whether the head is read or settled by the literal `*`, what comes after it is the same.
    have hrest : ∀ hit : Bool, FailsWith (FitsLeaves fun k => Value.anyHasLeaf k (item :: items))
        (if hit then pure true else equalsSome c s decoded items) := by
      intro hit
      split
      · exact .ok _
      · exact (equalsSome_failsWith decoded items).mono fun e he => he.mono htail
    rw [equalsSome]
    split
    next hit _ => exact hrest hit
    next =>
      have hitem := (equalsDecoded_failsWith decoded item).mono fun e he => he.mono hhead
      exact hitem.bind hrest

end

theorem equals_failsWith (value : Value) :
    FailsWith (FitsLeaves fun k => value.hasLeaf k) (c.equals s value) := by
  rw [equals.eq_def]
  split
  · exact .ok _
  · exact (Literal.decode_failsWith _ _).bind fun decoded =>
      equalsDecoded_failsWith c s decoded _

/-! ## Order -/

theorem relates_failsWith (value : Value) :
    FailsWith (FitsLeaves fun k => value.hasLeaf k) (c.relates s value) := by
  rw [relates.eq_def]
  split
  · exact .ok _
  · refine (Literal.decode_failsWith _ _).bind fun decoded => ?_
    split
    next => exact .ok _
    next => exact .ok _
    next => exact .ok _
    next n _ =>
      have hn : Value.hasLeaf .number (.number n) := by simp [Value.hasLeaf]
      exact (readNumber_failsWith hn decoded).bind fun x => .ok _
    next t _ =>
      have ht : Value.hasLeaf .instant (.instant t) := by simp [Value.hasLeaf]
      exact (DateLiteral.read_failsWith ht _ decoded).bind fun x => .ok _
    next => exact .ok _

/-- **A comparison fails only as the leaves of its value allow.** -/
theorem matchesValue_failsWith (value : Value) :
    FailsWith (FitsLeaves fun k => value.hasLeaf k) (c.matchesValue s value) := by
  rw [matchesValue]
  split
  · exact (equals_failsWith c s value).bind fun hit => .ok _
  · exact relates_failsWith c s value

/-- A comparison reports no structural fault. -/
theorem structuralFault?_of_matchesValue {value : Value} {e : QueryError}
    (h : c.matchesValue s value = .error e) : e.structuralFault? = none :=
  (matchesValue_failsWith c s value e h).structuralFault?_eq_none

end Clause

end RecordFilter
