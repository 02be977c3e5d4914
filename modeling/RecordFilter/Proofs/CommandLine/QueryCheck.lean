import RecordFilter.Proofs.CommandLine.Output
import RecordFilter.Proofs.Query.Form

/-! # The check before a run

A run evaluates its query on the empty record before it reads any input, and refuses a query whose
form is wrong there. No query is refused that has an outcome on some record. What passes may still
be found at fault in its form later on: by a malformed range, which shows only where a field holds a
number or an instant, and by a structural fault, where on the empty record a literal that cannot
be decoded comes before it. -/

namespace RecordFilter.CommandLine.Arguments

variable {a : Arguments}

/-- Objects are taken until the query fails on the record of one. -/
theorem exists_evaluate_of_writeMatches {i : Nat} {objects : List Json.Members} {e : QueryError}
    (h : (a.writeMatches 0 objects).result = .error (.query i e)) :
    ∃ r, Query.evaluate a.settings a.query r = .error e := by
  obtain ⟨hlast, hfailure⟩ := writeMatches_until_failure (a := a) objects
  by_cases hk : objects.findIdx a.fails < objects.length
  · obtain ⟨fault, hat, hrun⟩ := hfailure hk
    rw [hrun] at h
    obtain rfl : fault = .query i e := Except.error.inj h
    cases hat with
    | query _ hevaluate => exact ⟨_, hevaluate⟩
  · have hall := Nat.le_antisymm List.findIdx_le_length (Nat.le_of_not_lt hk)
    rw [hlast hall] at h
    cases h

/-- The objects of the input are read or not, whatever the query is. -/
theorem objects_ne_query (source : InputSource) (index : Nat) (e : QueryError) :
    a.objects source ≠ .error (.query index e) := by
  intro h
  cases source with
  | missing => cases h
  | opened s =>
    obtain ⟨fault, -, hfault⟩ := mapError_eq_error_iff.1 h
    cases hfault

/-- A query whose form is right on the empty record passes the check, and only such a query. -/
theorem checkQuery_eq_ok_iff {u : Unit} : a.checkQuery = .ok u ↔
    ∀ e, Query.evaluate a.settings a.query .empty = .error e → e.kind ≠ .form := by
  rw [checkQuery]
  split
  next e he => simp [he]
  next b hb => simp [hb]

/-- A run that fails with the query on a record fails as the query does on some record. -/
theorem exists_evaluate_of_run {source : InputSource} {index : Nat} {e : QueryError}
    (h : (a.run source).result = .error (.query index e)) :
    ∃ r, Query.evaluate a.settings a.query r = .error e := by
  rw [run] at h
  split at h
  next fault hfault =>
    obtain rfl : fault = .query index e := Except.error.inj h
    rcases bind_eq_error_iff.1 hfault with hcheck | ⟨-, -, hobjects⟩
    · -- The check itself fails in a way of its own.
      rw [checkQuery] at hcheck
      split at hcheck
      · split at hcheck <;> cases hcheck
      · cases hcheck
    · exact absurd hobjects (objects_ne_query source index e)
  next objects _ =>
    rw [result_runOn] at h
    exact exists_evaluate_of_writeMatches h

/-- **What the check before a run is worth.** A query that it refuses has an outcome on no record.
If the query has an outcome on the empty record, it passes, and all that can be wrong with its form
on a record, and so in a run, is a malformed range that is compared with a number or an instant. -/
theorem checkQuery_worth (a : Arguments) :
    (a.checkQuery ≠ .ok () → ∀ r b, Query.evaluate a.settings a.query r ≠ .ok b) ∧
    ∀ b, Query.evaluate a.settings a.query .empty = .ok b → a.checkQuery = .ok () ∧
      (∀ r e, Query.evaluate a.settings a.query r = .error e → e.kind = .form →
        (∃ selector literal, e = .malformedRange selector literal) ∧
          ∃ name, (r.field name).hasLeaf .number ∨ (r.field name).hasLeaf .instant) ∧
      ∀ source index e, (a.run source).result = .error (.query index e) → e.kind = .form →
        ∃ selector literal, e = .malformedRange selector literal := by
  refine ⟨fun hcheck r b => ?_, fun b hb => ⟨?_, fun r e he hform => ?_,
    fun source index e h hform => ?_⟩⟩
  · simp only [Ne, checkQuery_eq_ok_iff, not_forall, not_not] at hcheck
    obtain ⟨e, he, hform⟩ := hcheck
    exact Query.evaluate_ne_ok_of_empty a.settings r he hform b
  · rw [checkQuery_eq_ok_iff]
    intro e he
    rw [hb] at he
    cases he
  · exact Query.malformedRange_of_empty a.settings r hb he hform
  · obtain ⟨r, he⟩ := exists_evaluate_of_run h
    exact (Query.malformedRange_of_empty a.settings r hb he hform).1

/-- A range that lacks its upper bound is at fault wherever a number is compared with it. -/
theorem evaluate_half_range (n : Number) :
    Query.evaluate {} ['n', '=', '=', '4', '~'] ⟨[(['n'], .number n)]⟩ =
      .error (.malformedRange ['n'] ['4', '~']) := by
  with_unfolding_all rfl

/-- A malformed range passes the check and is found in a field that holds a number. -/
theorem checkQuery_worth_range :
    let a : Arguments := ⟨['n', '=', '=', '4', '~'], none, none, [], 0, []⟩
    let r : Record := ⟨[(['n'], .number (.signed 1))]⟩
    a.checkQuery = .ok () ∧ ∃ name, (r.field name).hasLeaf .number ∨ (r.field name).hasLeaf .instant :=
  have h := (checkQuery_worth ⟨['n', '=', '=', '4', '~'], none, none, [], 0, []⟩).2 false (by with_unfolding_all rfl)
  ⟨h.1, (h.2.1 _ _ (evaluate_half_range (.signed 1)) rfl).2⟩

/-- **Faults in the form of a query pass the check.** The range `4~` shows only where a field holds
a number. A comparison without an operator is hidden on the empty record, where the literal before
it is `%true`, and found on a record on which that literal is `%false`. -/
theorem form_faults_pass_check :
    (Query.evaluate {} ['n', '=', '=', '4', '~'] .empty = .ok false ∧
      Query.evaluate {} ['n', '=', '=', '4', '~'] ⟨[(['n'], .number (.signed 1))]⟩ =
        .error (.malformedRange ['n'] ['4', '~']) ∧
      (QueryError.malformedRange ['n'] ['4', '~']).kind = .form) ∧
    let query := ['a', '=', '=', '%', '(', 'b', '=', '=', 'n', 'u', 'l', 'l', ')', ';', 'c']
    Query.evaluate {} query .empty = .error (.undecodable ['%', 't', 'r', 'u', 'e']) ∧
      (QueryError.undecodable ['%', 't', 'r', 'u', 'e']).kind = .value ∧
      Query.evaluate {} query ⟨[(['b'], .text ['x'])]⟩ = .error (.unknownOperator ['c']) ∧
      (QueryError.unknownOperator ['c']).kind = .form :=
  ⟨⟨by with_unfolding_all rfl, evaluate_half_range (.signed 1), rfl⟩, by with_unfolding_all rfl, rfl, by with_unfolding_all rfl, rfl⟩

end RecordFilter.CommandLine.Arguments
