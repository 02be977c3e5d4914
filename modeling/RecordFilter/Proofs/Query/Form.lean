import RecordFilter.Proofs.Query.Parentheses
import RecordFilter.Proofs.Query.Structure

/-! # What the empty record tells of a query

A query is checked by evaluating it on the empty record. There all fields are null, so nothing fails
but the structure of the query and the decoding of its literals (`evaluate_empty_failsWith`). If the
structure fails there, the query has an outcome on no record; if the query has an outcome there, no
record brings a fault in its form but for one kind: a range is taken apart only where a field holds
a number or an instant, and malformed ranges are faults in the form as well
(`malformedRange_of_empty`). -/

namespace RecordFilter

/-- The errors in the form of a query are the structural faults and malformed ranges. -/
theorem QueryError.kind_eq_form_iff {e : QueryError} :
    e.kind = .form ↔
      e.structuralFault?.isSome ∨ ∃ selector literal, e = .malformedRange selector literal := by
  cases e <;> simp [QueryError.kind, QueryError.structuralFault?]

/-- An error that fits null fields is one of decoding. -/
theorem QueryError.FitsLeaves.exists_eq_undecodable {e : QueryError}
    (he : e.FitsLeaves fun k => Value.null.hasLeaf k) : ∃ literal, e = .undecodable literal := by
  cases e with
  | undecodable literal => exact ⟨literal, rfl⟩
  | _ => simp [QueryError.FitsLeaves, Value.hasLeaf] at he

namespace Query

variable (s : Settings) (r : Record)

/-! ## Errors of an evaluation -/

/-- The errors of an evaluation: a structural fault, or a comparison with some field fails. -/
def IsEvaluationError (e : QueryError) : Prop :=
  e.structuralFault?.isSome ∨ ∃ name, e.FitsLeaves fun k => (r.field name).hasLeaf k

variable {r} in
/-- The errors of parts are errors of evaluations. -/
theorem IsPartError.isEvaluationError {e : QueryError} (h : IsPartError r e) :
    IsEvaluationError r e := by
  rcases h with ⟨part, rfl⟩ | h
  · exact .inl rfl
  · exact .inr h

namespace Reader

theorem step_failsWith (reader : Reader) (c : Char) :
    FailsWith (IsEvaluationError r) (step s r reader c) := by
  intro e h
  obtain ⟨-, ⟨-, rfl⟩ | ⟨-, h⟩⟩ := step_eq_error_iff.1 h
  · exact .inl rfl
  · exact (combine_failsWith s r _ e h).isEvaluationError

theorem run_failsWith (reader : Reader) (t : Text) :
    FailsWith (IsEvaluationError r) (run s r reader t) := by
  induction t generalizing reader with
  | nil => exact .ok reader
  | cons c t ih =>
    rw [run_cons]
    exact (step_failsWith s r reader c).bind fun next => ih next

theorem finish_failsWith (reader : Reader) :
    FailsWith (IsEvaluationError r) (finish s r reader) := by
  rcases finish_cases (s := s) (r := r) reader with ⟨-, hf⟩ | ⟨-, hf⟩
  · rw [hf]
    exact (combine_failsWith s r _).mono fun e => IsPartError.isEvaluationError
  · rw [hf]
    exact FailsWith.error_iff.2 (.inl rfl)

end Reader

/-- **An evaluation fails in its structure or as the leaves of some field allow.** -/
theorem evaluate_failsWith (query : Text) :
    FailsWith (IsEvaluationError r) (evaluate s query r) := by
  rw [evaluate_eq_run]
  exact (Reader.run_failsWith s r _ _).bind fun last => Reader.finish_failsWith s r last

/-- On the empty record a query fails in its structure or because a literal cannot be decoded. -/
theorem evaluate_empty_failsWith (query : Text) :
    FailsWith (fun e => e.structuralFault?.isSome ∨ ∃ literal, e = .undecodable literal)
      (evaluate s query .empty) := by
  refine (evaluate_failsWith s .empty query).mono fun e he => he.imp_right ?_
  rintro ⟨name, he⟩
  rw [Record.field_empty] at he
  exact he.exists_eq_undecodable

/-! ## The check on the empty record -/

/-- A query whose form is wrong on the empty record has an outcome on no record. -/
theorem evaluate_ne_ok_of_empty {query : Text} {e : QueryError}
    (h : evaluate s query .empty = .error e) (hform : e.kind = .form) (b : Bool) :
    evaluate s query r ≠ .ok b := by
  intro hb
  -- On the empty record a range is never taken apart, so the fault is one of the structure.
  have hfault : e.structuralFault?.isSome := by
    rcases evaluate_empty_failsWith s query e h with hfault | ⟨literal, rfl⟩
    · exact hfault
    · cases hform
  have hagree := evaluate_agree s query .empty r
  rw [h, hb] at hagree
  rw [show e.structuralFault? = none from hagree] at hfault
  cases hfault

/-- A query that has an outcome on the empty record has no fault in its form on any record, but for
malformed ranges where some field holds a number or an instant. -/
theorem malformedRange_of_empty {query : Text} {b : Bool} (h : evaluate s query .empty = .ok b)
    {e : QueryError} (he : evaluate s query r = .error e) (hform : e.kind = .form) :
    (∃ selector literal, e = .malformedRange selector literal) ∧
      ∃ name, (r.field name).hasLeaf .number ∨ (r.field name).hasLeaf .instant := by
  have hagree := evaluate_agree s query .empty r
  rw [h, he] at hagree
  have hnone : e.structuralFault? = none := hagree
  rcases QueryError.kind_eq_form_iff.1 hform with hfault | ⟨selector, literal, rfl⟩
  · rw [hnone] at hfault
    cases hfault
  · rcases evaluate_failsWith s r query _ he with hfault | ⟨name, hleaves⟩
    · rw [hnone] at hfault
      cases hfault
    · exact ⟨⟨selector, literal, rfl⟩, name, hleaves⟩

end Query

end RecordFilter
