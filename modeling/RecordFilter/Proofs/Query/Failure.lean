import RecordFilter.Proofs.Clause.Failure
import RecordFilter.Proofs.Query.Reader

/-! # How the reading of a query fails

The parts of an expression fail as their comparisons do, or because a part has no operator. A
reader adds the faults of parentheses, which no part ever reports: it fails at the one character
that it cannot get past, and `step_eq_error_iff` says what that can be. -/

namespace RecordFilter.Query

variable (s : Settings) (r : Record)

/-! ## Expressions without parentheses -/

/-- The errors of the parts of an expression: there is no operator, or a comparison with some field
fails. -/
def IsPartError (e : QueryError) : Prop :=
  (∃ part, e = .unknownOperator part) ∨ ∃ name, e.FitsLeaves fun k => (r.field name).hasLeaf k

theorem dispatch_failsWith (part : Text) : FailsWith (IsPartError r) (dispatch s r part) := by
  rw [dispatch]
  split
  · exact .ok true
  split
  · exact .ok false
  split
  next c _ =>
    exact (c.matchesValue_failsWith s (r.field c.selector)).mono fun e he => .inr ⟨c.selector, he⟩
  next => exact FailsWith.error_iff.2 (.inl ⟨part, rfl⟩)

theorem combine_failsWith (expression : Text) :
    FailsWith (IsPartError r) (combine s r expression) :=
  (FailsWith.mapM (fun _ =>
    (FailsWith.mapM (dispatch_failsWith s r) _).bind fun _ => .ok _) _).bind fun _ => .ok _

variable {s r}

/-- A missing operator is the only structural fault of a part. -/
theorem IsPartError.structuralFault? {e : QueryError} (h : IsPartError r e) :
    e.structuralFault? = none ∨ e.structuralFault? = some .unknownOperator := by
  rcases h with ⟨part, rfl⟩ | ⟨name, h⟩
  · exact .inr rfl
  · exact .inl h.structuralFault?_eq_none

/-- No expression reports a fault of its parentheses. -/
theorem combine_ne_error {e : QueryError} {f : StructuralFault} (hf : e.structuralFault? = some f)
    (hne : f ≠ .unknownOperator) (expression : Text) : combine s r expression ≠ .error e := by
  intro h
  rcases (combine_failsWith s r expression e h).structuralFault? with hnone | hsome
  · exact Option.some_ne_none f (hf.symm.trans hnone)
  · exact hne (Option.some_inj.1 (hf.symm.trans hsome))

/-! ## Readers -/

namespace Reader

/-- A reader gets past every character but a closing parenthesis, which it does not get past if no
group is open or if the current group fails. -/
theorem step_eq_error_iff {reader : Reader} {c : Char} {e : QueryError} :
    step s r reader c = .error e ↔ c = ')' ∧
      (reader.outer = [] ∧ e = .extraClosingParenthesis reader.current.byteLength ∨
        reader.outer ≠ [] ∧ combine s r reader.current = .error e) := by
  obtain ⟨outer, current⟩ := reader
  by_cases ho : c = '('
  · subst ho
    simp
  by_cases hc : c = ')'
  · subst hc
    cases outer with
    | nil => simp [eq_comm]
    | cons text outer => simp [bind_eq_error_iff]
  · simp [step_keep ho hc, hc]

/-- A reader that fails on a text fails at one of its characters. -/
theorem run_eq_error_iff {reader : Reader} {t : Text} {e : QueryError} :
    run s r reader t = .error e ↔ ∃ before c after here, t = before ++ c :: after ∧
      run s r reader before = .ok here ∧ step s r here c = .error e := by
  constructor
  · intro h
    induction t generalizing reader with
    | nil => simp at h
    | cons c t ih =>
      rw [run_cons] at h
      rcases bind_eq_error_iff.1 h with h | ⟨next, hnext, h⟩
      · exact ⟨[], c, t, reader, rfl, rfl, h⟩
      · obtain ⟨before, d, after, here, rfl, hbefore, hd⟩ := ih h
        refine ⟨c :: before, d, after, here, rfl, ?_, hd⟩
        rw [run_cons, hnext]
        exact hbefore
  · rintro ⟨before, c, after, here, rfl, hbefore, hc⟩
    rw [run_append, hbefore, ok_bind, run_cons, hc]
    rfl

/-- A reader that reads a text reads all its beginnings. -/
theorem run_eq_ok_of_append {reader last : Reader} {a b : Text}
    (h : run s r reader (a ++ b) = .ok last) :
    ∃ here, run s r reader a = .ok here ∧ run s r here b = .ok last := by
  rw [run_append] at h
  exact bind_eq_ok_iff.1 h

end Reader

end RecordFilter.Query
