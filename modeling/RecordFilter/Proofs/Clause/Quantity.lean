import RecordFilter.Proofs.Clause.Sequence
import RecordFilter.Proofs.Literal.Range

/-! # Comparisons with numbers and points in time

Numbers and points in time have a place in an order, and what an operator says of one of them is
read off the order in which it stands to what the literal denotes (`Quantity.standing`,
`Operator.verdict`). Equality and the relational operators get there by different ways, but with a
single literal all of them do (`matchesValue_single`), so they agree with each other
(`matchesValue_order`). Equality with a range asks for the order to each of its bounds
(`equalsDecoded_range`). -/

namespace RecordFilter

open Literal (decode IsRange)

/-! ## Verdicts -/

namespace Operator

/-- What an operator says of two things in a given order, or in none. -/
def verdict (operator : Operator) (order : Option Ordering) : Bool :=
  if operator.isEquality then (order == some .eq) != operator.isNegated
  else order.any operator.holds

theorem verdict_of_equality {operator : Operator} (h : operator.isEquality = true) :
    operator.verdict = fun order => (order == some .eq) != operator.isNegated := by
  funext order
  unfold verdict
  rw [if_pos h]

theorem verdict_of_relational {operator : Operator} (h : operator.isEquality = false) :
    operator.verdict = (·.any operator.holds) := by
  funext order
  unfold verdict
  rw [if_neg (Bool.eq_false_iff.1 h)]

theorem verdict_atLeast_eq_any : atLeast.verdict = (·.any Ordering.isGE) := by
  have hholds : atLeast.holds = Ordering.isGE := by
    funext order
    cases order <;> rfl
  rw [verdict_of_relational rfl, hholds]

theorem verdict_atMost_eq_any : atMost.verdict = (·.any Ordering.isLE) := by
  have hholds : atMost.holds = Ordering.isLE := by
    funext order
    cases order <;> rfl
  rw [verdict_of_relational rfl, hholds]

section Laws

variable (order : Option Ordering)

/-- At least is above or equal. -/
theorem verdict_atLeast : atLeast.verdict order = (above.verdict order || equal.verdict order) := by
  cases order with
  | none => rfl
  | some order => cases order <;> rfl

/-- At most is below or equal. -/
theorem verdict_atMost : atMost.verdict order = (below.verdict order || equal.verdict order) := by
  cases order with
  | none => rfl
  | some order => cases order <;> rfl

/-- An operator that denies equality does so in every order, and in none. -/
theorem verdict_denied {operator : Operator} (hequality : operator.isEquality = true)
    (hnegated : operator.isNegated = true) : operator.verdict order = !equal.verdict order := by
  rw [verdict_of_equality hequality, verdict_of_equality rfl, hnegated]
  show ((order == some .eq) != true) = !((order == some .eq) != false)
  rw [Bool.bne_true, Bool.bne_false]

/-- No two of the operators below, equal and above hold in one order. -/
theorem pairwise_verdict :
    [below, equal, above].Pairwise fun o o' => ¬(o.verdict order ∧ o'.verdict order) := by
  cases order with
  | none => decide
  | some order => cases order <;> decide

/-- One of them holds in every order. -/
theorem exists_verdict (h : order ≠ none) :
    ∃ operator ∈ [below, equal, above], operator.verdict order := by
  cases order with
  | none => exact absurd rfl h
  | some order =>
    cases order with
    | lt => exact ⟨below, by decide, rfl⟩
    | eq => exact ⟨equal, by decide, rfl⟩
    | gt => exact ⟨above, by decide, rfl⟩

end Laws

end Operator

/-! ## Quantities -/

/-- What has a place in an order: a number or a point in time. -/
inductive Quantity where
  | number (n : Number)
  | instant (t : Timestamp)

namespace Quantity

/-- A quantity as the value of a field. -/
def value : Quantity → Value
  | number n => .number n
  | instant t => .instant t

/-- The order in which a quantity stands to what a decoded literal denotes, if the literal can be
read for it, and if they are in an order at all. -/
def standing (s : Settings) (literal : Text) : Quantity → Except QueryError (Option Ordering)
  | number n => (Clause.readNumber literal).map n.toBinary64.compare?
  | instant t => (DateLiteral.read s.offset literal).map fun u => some (t.compare u)

/-- A quantity and a literal are in no order if one of them is NaN. -/
def IsUnordered (literal : Text) : Quantity → Prop
  | number n => n = .float .nan ∨ Clause.readNumber literal = .ok .nan
  | instant _ => False

/-- A quantity is at least what a decoded literal denotes. -/
def IsAtLeast (s : Settings) (literal : Text) (q : Quantity) : Prop :=
  ∃ order, q.standing s literal = .ok order ∧ Operator.atLeast.verdict order = true

variable {s : Settings} {literal : Text} {q q' : Quantity}

/-- A quantity that is compared with NaN, or is NaN, stands in no order. -/
theorem eq_none_iff_of_standing {order : Option Ordering} (h : q.standing s literal = .ok order) :
    order = none ↔ q.IsUnordered literal := by
  cases q with
  | number n =>
    obtain ⟨x, hread, rfl⟩ := map_eq_ok_iff.1 h
    rw [Binary64.compare?_eq_none_iff, Number.toBinary64_eq_nan_iff, IsUnordered, hread,
      Except.ok.injEq]
  | instant t =>
    obtain ⟨u, -, rfl⟩ := map_eq_ok_iff.1 h
    unfold IsUnordered
    simp

/-- **Whether a literal can be read does not depend on the quantity** it is read for, but only on
the kind of it. -/
theorem standing_eq_error_iff_of_kind_eq (hkind : q.value.kind = q'.value.kind) {e : QueryError} :
    q.standing s literal = .error e ↔ q'.standing s literal = .error e := by
  cases q with
  | number n =>
    cases q' with
    | number n' => rw [standing, standing, map_eq_error_iff, map_eq_error_iff]
    | instant t' => cases hkind
  | instant t =>
    cases q' with
    | number n' => cases hkind
    | instant t' => rw [standing, standing, map_eq_error_iff, map_eq_error_iff]

/-- A literal that can be read for one quantity can be read for every other of the same kind. -/
theorem exists_standing_of_kind_eq (hkind : q.value.kind = q'.value.kind)
    (h : ∃ order, q.standing s literal = .ok order) :
    ∃ order, q'.standing s literal = .ok order := by
  obtain ⟨order, horder⟩ := h
  cases hq' : q'.standing s literal with
  | error e =>
    rw [(standing_eq_error_iff_of_kind_eq hkind).2 hq'] at horder
    cases horder
  | ok order' => exact ⟨order', rfl⟩

end Quantity

namespace Clause

variable {c : Clause} {s : Settings} {decoded low high : Text} {q : Quantity}

/-! ## Ranges and single literals -/

section Range

variable {α : Type} {read : Text → Except QueryError α} {le equal : α → α → Bool} {value : α}

theorem inRange_single (h : '~' ∉ decoded) :
    c.inRange read le equal value decoded = (read decoded).map (equal value) := by
  rw [inRange, Literal.range_eq_none h, ok_bind]
  exact bind_ok_eq_map

theorem inRange_range (h : IsRange decoded low high) :
    c.inRange read le equal value decoded =
      read low >>= fun bound => if le bound value then (read high).map (le value) else .ok false := by
  rw [inRange, Literal.range_eq_some h, ok_bind]
  simp only [pure_eq_ok, bind_ok_eq_map]

theorem inRange_malformed (htilde : '~' ∈ decoded)
    (h : ∀ low high, ¬IsRange decoded low high) :
    c.inRange read le equal value decoded = .error (.malformedRange c.selector decoded) := by
  rw [inRange, Literal.range_eq_error htilde h, error_bind]

end Range

/-! ## Equality -/

/-- A quantity equals a single literal if the two are in the order of equals. -/
theorem equalsDecoded_single (h : '~' ∉ decoded) :
    c.equalsDecoded s decoded q.value = (q.standing s decoded).map (· == some .eq) := by
  cases q with
  | number n =>
    rw [Quantity.value, equalsDecoded, numberEquals, inRange_single h, Quantity.standing]
    cases readNumber decoded <;> rfl
  | instant t =>
    rw [Quantity.value, equalsDecoded, instantEquals, inRange_single h, Quantity.standing]
    cases DateLiteral.read s.offset decoded with
    | error e => rfl
    | ok u =>
      have hequal : (t == u) = (some (t.compare u) == some .eq) := by
        rw [Bool.eq_iff_iff, beq_iff_eq, beq_iff_eq, Option.some.injEq,
          Timestamp.compare_eq_eq_iff]
      exact congrArg Except.ok hequal

/-- **A quantity lies in a range** if it is at least the lower bound and at most the upper one. The
upper bound is read only if the first is the case. -/
theorem equalsDecoded_range (h : IsRange decoded low high) :
    c.equalsDecoded s decoded q.value =
      q.standing s low >>= fun order =>
        if Operator.atLeast.verdict order then (q.standing s high).map Operator.atMost.verdict
        else .ok false := by
  rw [Operator.verdict_atLeast_eq_any, Operator.verdict_atMost_eq_any]
  cases q with
  | number n =>
    rw [Quantity.value, equalsDecoded, numberEquals, inRange_range h, Quantity.standing,
      Quantity.standing]
    simp only [Binary64.le_eq_any _ n.toBinary64]
    cases readNumber low with
    | error e => rfl
    | ok bound => cases readNumber high <;> rfl
  | instant t =>
    rw [Quantity.value, equalsDecoded, instantEquals, inRange_range h, Quantity.standing,
      Quantity.standing]
    simp only [← Timestamp.compare_swap t, Ordering.isLE_swap]
    cases DateLiteral.read s.offset low with
    | error e => rfl
    | ok bound => cases DateLiteral.read s.offset high <;> rfl

/-- A malformed range is told of every quantity. -/
theorem equalsDecoded_malformed (htilde : '~' ∈ decoded)
    (h : ∀ low high, ¬IsRange decoded low high) :
    c.equalsDecoded s decoded q.value = .error (.malformedRange c.selector decoded) := by
  cases q with
  | number n => rw [Quantity.value, equalsDecoded, numberEquals, inRange_malformed htilde h]
  | instant t => rw [Quantity.value, equalsDecoded, instantEquals, inRange_malformed htilde h]

/-! ## All operators -/

/-- A comparison with a literal that cannot be decoded fails. -/
theorem matchesValue_undecodable {e : QueryError}
    (h : decode s.unescape c.literal = .error e) : c.matchesValue s q.value = .error e := by
  cases hoperator : c.operator.isEquality with
  | true => rw [matchesValue_eq_map hoperator, equals_eq_bind, h, error_bind, map_error]
  | false =>
    rw [matchesValue_eq_relates hoperator, relates.eq_def]
    cases q <;> simp only [Quantity.value, h, error_bind]

section Decoded

variable (hdecodes : decode s.unescape c.literal = .ok decoded)
include hdecodes

theorem matchesValue_equality (hequality : c.operator.isEquality = true) :
    c.matchesValue s q.value =
      (c.equalsDecoded s decoded q.value).map (· != c.operator.isNegated) := by
  rw [matchesValue_eq_map hequality, equals_eq_bind, hdecodes, ok_bind]

/-- The relational operators do not know ranges. -/
theorem matchesValue_relational (hrelational : c.operator.isEquality = false) :
    c.matchesValue s q.value = (q.standing s decoded).map c.operator.verdict := by
  rw [matchesValue_eq_relates hrelational, relates.eq_def,
    Operator.verdict_of_relational hrelational]
  cases q with
  | number n =>
    simp only [Quantity.value, Quantity.standing, hdecodes, ok_bind]
    cases readNumber decoded <;> rfl
  | instant t =>
    simp only [Quantity.value, Quantity.standing, hdecodes, ok_bind]
    cases DateLiteral.read s.offset decoded <;> rfl

/-- **Every operator judges a single literal by the order** in which the quantity stands to it. -/
theorem matchesValue_single (htilde : '~' ∉ decoded) :
    c.matchesValue s q.value = (q.standing s decoded).map c.operator.verdict := by
  cases hoperator : c.operator.isEquality with
  | false => exact matchesValue_relational hdecodes hoperator
  | true =>
    rw [matchesValue_equality hdecodes hoperator, equalsDecoded_single htilde,
      Operator.verdict_of_equality hoperator]
    cases q.standing s decoded <;> rfl

end Decoded

/-- **The operators agree on numbers and points in time.** Compared with a literal without a tilde,
either all operators fail, with the same error, or none does. Then `>=` holds where `>` or `==`
does, and `<=` where `<` or `==` does; case does not matter to equality, and the operators that deny
it hold where it does not; and of `<`, `==` and `>` exactly one holds, but for NaN on either side,
of which they all deny everything, as do `<=` and `>=`. -/
theorem matchesValue_order (s : Settings) (selector : Text) {literal decoded : Text} (q : Quantity)
    (hdecodes : decode s.unescape literal = .ok decoded) (htilde : '~' ∉ decoded) :
    let test := fun operator => matchesValue ⟨selector, operator, literal⟩ s q.value
    (∃ e, ∀ operator, test operator = .error e) ∨
    ∃ holds : Operator → Bool, (∀ operator, test operator = .ok (holds operator)) ∧
      holds .atLeast = (holds .above || holds .equal) ∧
      holds .atMost = (holds .below || holds .equal) ∧
      holds .equalCase = holds .equal ∧
      holds .notEqual = !holds .equal ∧ holds .notEqualCase = !holds .equal ∧
      [Operator.below, .equal, .above].Pairwise (fun o o' => ¬(holds o ∧ holds o')) ∧
      (¬q.IsUnordered decoded → ∃ operator ∈ [Operator.below, .equal, .above], holds operator) ∧
      (q.IsUnordered decoded →
        ∀ operator ∈ [Operator.equal, .below, .atMost, .above, .atLeast],
          holds operator = false) := by
  intro test
  have htest : ∀ operator, test operator = (q.standing s decoded).map operator.verdict := by
    intro operator
    exact matchesValue_single (c := ⟨selector, operator, literal⟩) hdecodes htilde
  cases hstanding : q.standing s decoded with
  | error e =>
    left
    refine ⟨e, ?_⟩
    intro operator
    rw [htest, hstanding, map_error]
  | ok order =>
    right
    have hnone : order = none ↔ q.IsUnordered decoded := Quantity.eq_none_iff_of_standing hstanding
    refine ⟨fun operator => operator.verdict order, ?_, Operator.verdict_atLeast order,
      Operator.verdict_atMost order, rfl, Operator.verdict_denied order rfl rfl,
      Operator.verdict_denied order rfl rfl, Operator.pairwise_verdict order, ?_, ?_⟩
    · intro operator
      rw [htest, hstanding, map_ok]
    · intro hordered
      apply Operator.exists_verdict
      exact mt hnone.1 hordered
    · intro hunordered
      rw [hnone.2 hunordered]
      decide

/-- The integer `2` is below what `+2.5` denotes, which is decoded to ` 2.5`, so it is not equal to
it nor above it; and it is neither equal to NaN nor at least NaN. -/
theorem matchesValue_order_nan :
    let test := fun literal operator =>
      matchesValue ⟨['n'], operator, literal⟩ {} (.number (.signed 2))
    decode false ['+', '2', '.', '5'] = .ok [' ', '2', '.', '5'] ∧
      test ['+', '2', '.', '5'] .below = .ok true ∧ test ['+', '2', '.', '5'] .above = .ok false ∧
      test ['+', '2', '.', '5'] .notEqualCase = .ok true ∧
      readNumber ['N', 'a', 'N'] = .ok .nan ∧ test ['N', 'a', 'N'] .atLeast = .ok false := by
  intro test
  have hdecodes : decode false ['+', '2', '.', '5'] = .ok [' ', '2', '.', '5'] := rfl
  have hbelow : test ['+', '2', '.', '5'] .below = .ok true := rfl
  have hdecodesNaN : decode false ['N', 'a', 'N'] = .ok ['N', 'a', 'N'] := rfl
  have hnan : readNumber ['N', 'a', 'N'] = .ok .nan := rfl
  have hunequal : test ['N', 'a', 'N'] .equal = .ok false := rfl
  -- With either literal one operator does not fail, so none does.
  obtain ⟨e, he⟩ | ⟨holds, htest, -, -, -, -, hdenied, hpairwise, -, -⟩ :=
    matchesValue_order {} ['n'] (.number (.signed 2)) hdecodes (by decide)
  · cases hbelow.symm.trans (he .below)
  obtain ⟨e, he⟩ | ⟨holdsNaN, htestNaN, -, -, -, -, -, -, -, hunordered⟩ :=
    matchesValue_order {} ['n'] (.number (.signed 2)) hdecodesNaN (by decide)
  · cases hunequal.symm.trans (he .equal)
  have hholds : holds .below = true := Except.ok.inj ((htest .below).symm.trans hbelow)
  rw [List.pairwise_cons, List.pairwise_cons] at hpairwise
  have hequal : holds .equal = false := by simpa [hholds] using hpairwise.1 .equal (by decide)
  have habove : holds .above = false := by simpa [hholds] using hpairwise.1 .above (by decide)
  refine ⟨hdecodes, hbelow, (htest .above).trans (congrArg _ habove),
    (htest .notEqualCase).trans (congrArg _ ?_), hnan,
    (htestNaN .atLeast).trans (congrArg _ (hunordered (.inr hnan) .atLeast (by decide)))⟩
  rw [hdenied, hequal]
  rfl

end Clause

end RecordFilter
