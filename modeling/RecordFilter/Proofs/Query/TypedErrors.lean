import RecordFilter.Proofs.Query.Form
import RecordFilter.Proofs.Value.Leaves

/-! # Errors that need a typed field

A literal is read as a number or as a date only for a leaf that is a number or an instant, so an
error of that reading tells of such a leaf in some field of the record (`evaluate_typedErrors`).
Where there is none, an evaluation fails in the structure of the query or because a literal cannot
be decoded. -/

namespace RecordFilter

/-! ## Kinds of leaves -/

namespace Value

variable {k : Kind}

mutual

/-- A value has a leaf of a kind if one of its leaves is of that kind. -/
theorem hasLeaf_iff : ∀ v : Value, v.hasLeaf k = true ↔ ∃ leaf ∈ v.leaves, leaf.kind = k
  | .sequence items => by
    rw [hasLeaf, leaves]
    exact anyHasLeaf_iff items
  | .null | .text _ | .bool _ | .number _ | .instant _ => by
    simp [hasLeaf, leaves, kind, eq_comm]

theorem anyHasLeaf_iff : ∀ items : List Value,
    anyHasLeaf k items = true ↔ ∃ leaf ∈ leavesOf items, leaf.kind = k
  | [] => by simp [anyHasLeaf, leavesOf]
  | item :: items => by
    rw [anyHasLeaf, Bool.or_eq_true, hasLeaf_iff item, anyHasLeaf_iff items, leavesOf]
    simp only [List.mem_append, or_and_right, exists_or]

end

end Value

/-- Some field of a record has a leaf of a kind. -/
def Record.HasLeaf (r : Record) (k : Value.Kind) : Prop :=
  ∃ name value, r.field? name = some value ∧ ∃ leaf ∈ value.leaves, leaf.kind = k

variable {r : Record} {e : QueryError}

/-- An error that fits the leaves of one field fits those of the record. A field that is missing is
null, which only errors of decoding fit. -/
theorem QueryError.FitsLeaves.record {name : Text}
    (he : e.FitsLeaves fun k => (r.field name).hasLeaf k) : e.FitsLeaves r.HasLeaf := by
  cases hfield : r.field? name with
  | none =>
    have hnull : r.field name = .null := by rw [Record.field, hfield, Option.getD_none]
    rw [hnull] at he
    obtain ⟨literal, rfl⟩ := he.exists_eq_undecodable
    trivial
  | some value =>
    have hvalue : r.field name = value := by rw [Record.field, hfield, Option.getD_some]
    rw [hvalue] at he
    exact he.mono fun k hk => ⟨name, value, hfield, (Value.hasLeaf_iff value).1 hk⟩

namespace Query

variable {s : Settings} {query : Text}

/-- An evaluation fails in the structure of the query, or as the leaves of the record allow. -/
theorem fitsLeaves_of_evaluate (h : evaluate s query r = .error e) :
    e.structuralFault?.isSome = true ∨ e.FitsLeaves r.HasLeaf := by
  rcases evaluate_failsWith s r query e h with hfault | ⟨name, hleaves⟩
  · exact .inl hfault
  · exact .inr hleaves.record

/-- **Errors of a type come from a field of that type.** That a literal is no number is told only if
some field of the record has a number among its leaves; that it is no date, that it lacks the mark
of a date form, or that it is no count of milliseconds, only if some field has an instant; and that
a range is malformed only if some field has one or the other. If all leaves are null, text or truth
values, what is left are faults of the parentheses, a missing operator, and literals that cannot be
decoded. -/
theorem evaluate_typedErrors (h : evaluate s query r = .error e) :
    (∀ literal fault, e = .invalidNumber literal fault → r.HasLeaf .number) ∧
    (∀ literal fault, e = .invalidDate literal fault → r.HasLeaf .instant) ∧
    (∀ literal, e = .missingDateFormat literal → r.HasLeaf .instant) ∧
    (∀ literal fault, e = .invalidEpochMillis literal fault → r.HasLeaf .instant) ∧
    (∀ selector literal, e = .malformedRange selector literal →
      r.HasLeaf .number ∨ r.HasLeaf .instant) ∧
    ((∀ name value, r.field? name = some value →
        ∀ leaf ∈ value.leaves, leaf.kind ∈ [.null, .text, .bool]) →
      e = .unclosedParenthesis ∨ (∃ position, e = .extraClosingParenthesis position) ∨
        (∃ fragment, e = .unknownOperator fragment) ∨ ∃ literal, e = .undecodable literal) := by
  have hfits := fitsLeaves_of_evaluate h
  have hleaves : e.structuralFault? = none → e.FitsLeaves r.HasLeaf := by
    intro hnone
    rw [hnone] at hfits
    exact hfits.resolve_left Bool.false_ne_true
  refine ⟨?_, ?_, ?_, ?_, ?_, fun hplain => ?_⟩
  · rintro literal fault rfl
    exact hleaves rfl
  · rintro literal fault rfl
    exact hleaves rfl
  · rintro literal rfl
    exact hleaves rfl
  · rintro literal fault rfl
    exact hleaves rfl
  · rintro selector literal rfl
    exact hleaves rfl
  · have hkinds : ∀ k, r.HasLeaf k → k ∈ [.null, .text, .bool] := by
      rintro k ⟨name, value, hfield, leaf, hleaf, rfl⟩
      exact hplain name value hfield leaf hleaf
    have hnumber : ¬r.HasLeaf .number := fun hleaf => absurd (hkinds _ hleaf) (by decide)
    have hinstant : ¬r.HasLeaf .instant := fun hleaf => absurd (hkinds _ hleaf) (by decide)
    cases e with
    | unclosedParenthesis => exact .inl rfl
    | extraClosingParenthesis position => exact .inr (.inl ⟨position, rfl⟩)
    | unknownOperator fragment => exact .inr (.inr (.inl ⟨fragment, rfl⟩))
    | undecodable literal => exact .inr (.inr (.inr ⟨literal, rfl⟩))
    | invalidNumber => exact absurd (hleaves rfl) hnumber
    | invalidDate => exact absurd (hleaves rfl) hinstant
    | missingDateFormat => exact absurd (hleaves rfl) hinstant
    | invalidEpochMillis => exact absurd (hleaves rfl) hinstant
    | malformedRange => exact (hleaves rfl).elim (absurd · hnumber) (absurd · hinstant)

/-- A number in an inner sequence is what the literal has to be read as a number for. -/
theorem evaluate_typedErrors_inner :
    let r : Record := ⟨[(['n'], .sequence [.text ['a'], .sequence [.number (.signed 0)]])]⟩
    evaluate {} ['(', 'n', '=', '=', 'x', ')'] r = .error (.invalidNumber ['x'] .invalid) ∧
      r.HasLeaf .number := by
  intro r
  have h : evaluate {} ['(', 'n', '=', '=', 'x', ')'] r =
      .error (.invalidNumber ['x'] .invalid) := by
    decide +kernel
  exact ⟨h, (evaluate_typedErrors h).1 _ _ rfl⟩

end Query

end RecordFilter
