import RecordFilter.Proofs.Query.Legible
import RecordFilter.Proofs.Schema.Exports

/-! # Which exported fields can be queried

A constant is there to build queries from: put before an operator and a literal, it should make a
comparison of its field. Yet a field may be given any name of which a letter or a digit is left in
the constant, and not every such name can be written in a query. The comparisons by a constant work,
all of them, if its selector is legible, and only then (`evaluate_selector`). -/

namespace RecordFilter.Schema

/-- Every comparison by the selector of an export is one of the field: whatever the operator, the
plain literal and the object, the query made of them has the outcome that the field gives. -/
def IsQueryable (es : List Export) (e : Export) : Prop :=
  ∀ (s : Settings) (operator : Operator) (literal : Text) (value : Text → Value),
    Query.Plain literal →
      Query.evaluate s (e.selector ++ (operator.token ++ literal)) (recordOf es value) =
        Clause.matchesValue ⟨e.selector, operator, literal⟩ s (value e.field)

/-! ## The fields of records -/

/-- In a record, an exported field has its value. -/
theorem field_recordOf {es : List Export} (h : (es.map Export.selector).Nodup) {e : Export}
    (he : e ∈ es) (value : Text → Value) :
    (recordOf es value).field e.selector = value e.field := by
  rw [Record.field, field?_recordOf h he, Option.getD_some]

/-- A field of a record is settled by the values of those that are exported under its name. -/
theorem field_recordOf_congr {es : List Export} {v w : Text → Value} {name : Text}
    (h : ∀ e ∈ es, e.selector = name → v e.field = w e.field) :
    (recordOf es v).field name = (recordOf es w).field name := by
  unfold Record.field
  induction es with
  | nil => rfl
  | cons e es ih =>
    rw [List.forall_mem_cons] at h
    rw [field?_recordOf_cons, field?_recordOf_cons]
    by_cases hname : name = e.selector
    · rw [if_pos hname, if_pos hname, h.1 hname.symm]
    · rw [if_neg hname, if_neg hname, ih h.2]

/-- Of fields with distinct names each is exported once at most. -/
theorem eq_of_field_eq {fields : List Field} (hnames : (fields.map Field.name).Nodup)
    {e e' : Export} (he : e ∈ (keptFields fields).map Field.exported)
    (he' : e' ∈ (keptFields fields).map Field.exported) (h : e.field = e'.field) : e = e' := by
  obtain ⟨f, hf, rfl⟩ := List.mem_map.1 he
  obtain ⟨f', hf', rfl⟩ := List.mem_map.1 he'
  have hfields : f = f' :=
    List.inj_on_of_nodup_map hnames (mem_keptFields.1 hf).1 (mem_keptFields.1 hf').1 h
  rw [hfields]

/-! ## Queries by a selector -/

/-- Every operator tells some value from null by the literal `0`. -/
theorem exists_matchesValue_zero (name : Text) (operator : Operator) :
    Clause.matchesValue ⟨name, operator, ['0']⟩ {} .null = .ok operator.isNegated ∧
      ∃ v, Clause.matchesValue ⟨name, operator, ['0']⟩ {} v = .ok !operator.isNegated := by
  cases operator
  case equal | equalCase | notEqual | notEqualCase => exact ⟨rfl, .text ['0'], rfl⟩
  case atLeast | atMost => exact ⟨rfl, .number (.signed 0), rfl⟩
  case above => exact ⟨rfl, .number (.signed 1), rfl⟩
  case below => exact ⟨rfl, .number (.signed (-1)), rfl⟩

/-- An exported field with a legible selector can be queried. -/
theorem isQueryable_of_legible {es : List Export} (hselectors : (es.map Export.selector).Nodup)
    {e : Export} (he : e ∈ es) (h : Query.Legible e.selector) : IsQueryable es e := by
  intro s operator literal value hliteral
  rw [Query.evaluate_of_legible h operator hliteral, Query.outcome, field_recordOf hselectors he]

/-- A field can be queried only by a legible selector: two objects that differ in this field alone
have to be told apart by every operator. -/
theorem legible_of_isQueryable {es : List Export}
    (hfields : ∀ e ∈ es, ∀ e' ∈ es, e.field = e'.field → e = e') {e : Export} (he : e ∈ es)
    (h : IsQueryable es e) : Query.Legible e.selector := by
  have hzero : Query.Plain ['0'] := by decide
  refine Query.legible_of_evaluate hzero (s := {}) fun operator => ?_
  obtain ⟨hnull, v, hv⟩ := exists_matchesValue_zero e.selector operator
  -- One object has this value in the field and null elsewhere, the other nothing but null.
  refine ⟨recordOf es fun name => if name = e.field then v else .null,
    recordOf es fun _ => .null, ?_, ?_⟩
  · intro other hother
    apply field_recordOf_congr
    intro e' he' hselector
    apply if_neg
    intro hfield
    apply hother
    rw [← hselector, hfields e' he' e he hfield]
  · rw [h {} operator ['0'] _ hzero, h {} operator ['0'] _ hzero, if_pos rfl, hv, hnull]
    cases operator.isNegated <;> decide

/-- **Which exported fields can be queried.** A selector without structural characters is legible.
With a legible selector, every operator and every plain literal, the query that is built from the
selector has on every object the outcome of the comparison with the field. Where the fields of the
type have distinct names, no other selector does as much. -/
theorem evaluate_selector {fields : List Field} {es : List Export}
    (hes : TypeDescription.exports ⟨.namedFields, fields⟩ = .ok es) {e : Export} (he : e ∈ es) :
    (Query.Plain e.selector → Query.Legible e.selector) ∧
      (Query.Legible e.selector → IsQueryable es e) ∧
      ((fields.map Field.name).Nodup → IsQueryable es e → Query.Legible e.selector) := by
  obtain ⟨hfields, rfl⟩ := exports_eq_ok_iff.1 hes
  refine ⟨Query.Plain.legible, isQueryable_of_legible hfields.nodup_selectors he, ?_⟩
  intro hnames
  exact legible_of_isQueryable (fun _ hd _ hd' => eq_of_field_eq hnames hd hd') he

/-- A field `n` that is called `who` in queries. -/
theorem evaluate_selector_renamed :
    TypeDescription.exports ⟨.namedFields, [⟨['n'], [⟨['f', 'i', 'q', 'l'],
        some [.assignment ['r', 'e', 'n', 'a', 'm', 'e'] (.string ['w', 'h', 'o'])]⟩]⟩]⟩ =
      .ok [⟨['w', 'h', 'o'], ['W', 'H', 'O'], ['n']⟩] ∧
    Query.Legible ['w', 'h', 'o'] ∧
    Query.evaluate {} ['w', 'h', 'o', '=', '=', 'x']
      (recordOf [⟨['w', 'h', 'o'], ['W', 'H', 'O'], ['n']⟩] fun _ => .text ['x']) = .ok true := by
  have hexports : TypeDescription.exports ⟨.namedFields, [⟨['n'], [⟨['f', 'i', 'q', 'l'],
        some [.assignment ['r', 'e', 'n', 'a', 'm', 'e'] (.string ['w', 'h', 'o'])]⟩]⟩]⟩ =
      .ok [⟨['w', 'h', 'o'], ['W', 'H', 'O'], ['n']⟩] := rfl
  obtain ⟨hplain, hqueryable, hlegible⟩ := evaluate_selector hexports List.mem_cons_self
  have hworks := hqueryable (hplain (by decide))
  have hx : Query.Plain ['x'] := by decide
  exact ⟨hexports, hlegible (by decide) hworks, hworks {} .equal ['x'] (fun _ => .text ['x']) hx⟩

/-- **A name with a comma is exported, but cannot be queried.** A field may be called `a,b`, for
which the constant is `A_B`. The query `a,b==x` fails on an object whose field is `x`, though the
field equals the literal. -/
theorem evaluate_selector_comma :
    TypeDescription.exports ⟨.namedFields, [⟨['n'], [⟨['f', 'i', 'q', 'l'],
        some [.assignment ['r', 'e', 'n', 'a', 'm', 'e'] (.string ['a', ',', 'b'])]⟩]⟩]⟩ =
      .ok [⟨['a', ',', 'b'], ['A', '_', 'B'], ['n']⟩] ∧
    Query.evaluate {} ['a', ',', 'b', '=', '=', 'x']
        (recordOf [⟨['a', ',', 'b'], ['A', '_', 'B'], ['n']⟩] fun _ => .text ['x']) =
      .error (.unknownOperator ['a']) ∧
    Clause.matchesValue ⟨['a', ',', 'b'], .equal, ['x']⟩ {} (.text ['x']) = .ok true :=
  ⟨rfl, by decide +kernel, rfl⟩

end RecordFilter.Schema
