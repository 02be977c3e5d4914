import RecordFilter.Proofs.Clause.Quantity
import RecordFilter.Proofs.Literal.Delimiter

/-! # Comparisons with ranges

A number or a point in time lies in a range exactly if it is at least the lower bound and at most
the upper one, where both of these comparisons have an outcome (`matchesValue_range`). Whether a
comparison has an outcome is the same for all numbers, and for all points in time, but for one case
(`matchesValue_alike`): the upper bound of a range is read only for what is not below the lower one,
so an upper bound that cannot be read is not noticed below the lower one. -/

namespace RecordFilter.Clause

open Literal (decode IsBound IsRange)

variable {c : Clause} {s : Settings} {decoded low high : Text} {q q' : Quantity}

/-! ## Bounds -/

/-- Where both bounds of a range can be read, equality is the conjunction of what `>=` says of the
lower one and `<=` of the upper one. -/
theorem equalsDecoded_bounds (h : IsRange decoded low high) {order order' : Option Ordering}
    (hlow : q.standing s low = .ok order) (hhigh : q.standing s high = .ok order') :
    c.equalsDecoded s decoded q.value =
      .ok (Operator.atLeast.verdict order && Operator.atMost.verdict order') := by
  rw [equalsDecoded_range h, hlow, hhigh, ok_bind, map_ok]
  cases Operator.atLeast.verdict order <;> rfl

/-- **A range is the conjunction of its bounds.** If a number or a point in time can be compared by
`>=` with one literal and by `<=` with another, which are decoded to texts that are not empty and
have no tilde, it can be compared by equality with the range of the two, and equals it if both
hold. A literal that is decoded to something with a tilde that is no range is told to be malformed,
whatever it is compared with. -/
theorem matchesValue_range (s : Settings) (selector : Text) (q : Quantity) {operator : Operator}
    (hequality : operator.isEquality = true) :
    let test := fun operator literal => matchesValue ⟨selector, operator, literal⟩ s q.value
    (∀ lower upper low high b b', decode s.unescape lower = .ok low →
      decode s.unescape upper = .ok high → IsBound low → IsBound high →
      test .atLeast lower = .ok b → test .atMost upper = .ok b' →
      test operator (lower ++ '~' :: upper) = .ok ((b && b') != operator.isNegated)) ∧
    ∀ literal decoded, decode s.unescape literal = .ok decoded → '~' ∈ decoded →
      (∀ low high, ¬IsRange decoded low high) →
      test operator literal = .error (.malformedRange selector decoded) := by
  intro test
  constructor
  · intro lower upper low high b b' hlower hupper hlow hhigh hatLeast hatMost
    have hdecodes : decode s.unescape (lower ++ '~' :: upper) = .ok (low ++ '~' :: high) :=
      (Literal.decode_append_delimiter_eq_ok_iff (by decide)).2 ⟨low, high, hlower, hupper, rfl⟩
    -- What the two comparisons say of the bounds comes from the orders to them.
    obtain ⟨order, horder, rfl⟩ :=
      map_eq_ok_iff.1 ((matchesValue_relational hlower rfl).symm.trans hatLeast)
    obtain ⟨order', horder', rfl⟩ :=
      map_eq_ok_iff.1 ((matchesValue_relational hupper rfl).symm.trans hatMost)
    show matchesValue ⟨selector, operator, lower ++ '~' :: upper⟩ s q.value = _
    rw [matchesValue_equality hdecodes hequality,
      equalsDecoded_bounds ⟨rfl, hlow, hhigh⟩ horder horder', map_ok]
  · intro literal decoded hdecodes htilde hrange
    show matchesValue ⟨selector, operator, literal⟩ s q.value = _
    rw [matchesValue_equality hdecodes hequality, equalsDecoded_malformed htilde hrange, map_error]

/-- The number `5` lies in a range with a tilde that is encoded and a blank in front of its upper
bound. A second tilde makes the range malformed. -/
theorem matchesValue_range_encoded :
    let test := fun operator literal =>
      matchesValue ⟨['n'], operator, literal⟩ {} (.number (.signed 5))
    test .equal ['5', '.', '~', '+', '6'] = .ok true ∧
      test .equal ['5', '%', '7', 'E', '6', '~'] =
        .error (.malformedRange ['n'] ['5', '~', '6', '~']) := by
  intro test
  have hequality : Operator.equal.isEquality = true := rfl
  obtain ⟨hrange, hmalformed⟩ := matchesValue_range {} ['n'] (.number (.signed 5)) hequality
  constructor
  · have hlow : IsBound ['5', '.'] := by decide
    have hhigh : IsBound [' ', '6'] := by decide
    exact hrange ['5', '.'] ['+', '6'] _ _ true true rfl rfl hlow hhigh rfl rfl
  · refine hmalformed _ ['5', '~', '6', '~'] rfl (by decide) ?_
    intro low high h
    -- The two tildes would have to be one.
    have hcount := congrArg (List.count '~') h.eq_append
    rw [List.count_append, List.count_cons_self,
      List.count_eq_zero_of_not_mem h.isBound_low.tilde_notMem,
      List.count_eq_zero_of_not_mem h.isBound_high.tilde_notMem] at hcount
    exact absurd hcount (by decide)

/-! ## Failures -/

/-- With a range, equality fails because one of the bounds cannot be read; the upper one is not read
for what is below the lower one. -/
theorem equalsDecoded_range_eq_error_iff (h : IsRange decoded low high) {e : QueryError} :
    c.equalsDecoded s decoded q.value = .error e ↔
      q.standing s low = .error e ∨ q.IsAtLeast s low ∧ q.standing s high = .error e := by
  rw [equalsDecoded_range h, bind_eq_error_iff]
  apply or_congr_right
  rw [Quantity.IsAtLeast, exists_and_right.symm.trans (exists_congr fun order => and_assoc)]
  refine exists_congr fun order => and_congr_right fun _ => ?_
  cases Operator.atLeast.verdict order with
  | true => simp [map_eq_error_iff]
  | false => simp

/-- Equality with a range of which, for some quantity, the lower bound can be read and the upper one
cannot. -/
structure IsHalfRead (c : Clause) (s : Settings) (q : Quantity) (low high : Text) : Prop where
  isEquality : c.operator.isEquality = true
  exists_isRange : ∃ decoded, decode s.unescape c.literal = .ok decoded ∧ IsRange decoded low high
  low_read : ∃ order, q.standing s low = .ok order
  high_unread : ∃ e, q.standing s high = .error e

/-- Whether a range is half read depends on the kind of the quantity only. -/
theorem IsHalfRead.of_kind_eq (hkind : q.value.kind = q'.value.kind)
    (h : c.IsHalfRead s q low high) : c.IsHalfRead s q' low high := by
  obtain ⟨e, he⟩ := h.high_unread
  exact ⟨h.isEquality, h.exists_isRange, Quantity.exists_standing_of_kind_eq hkind h.low_read,
    e, (Quantity.standing_eq_error_iff_of_kind_eq hkind).1 he⟩

/-- With a range that is not half read, equality fails where the lower bound cannot be read. -/
theorem equalsDecoded_eq_error_iff_of_not_isHalfRead
    (hdecodes : decode s.unescape c.literal = .ok decoded) (hrange : IsRange decoded low high)
    (hequality : c.operator.isEquality = true) (h : ¬c.IsHalfRead s q low high) {e : QueryError} :
    c.equalsDecoded s decoded q.value = .error e ↔
      q.standing s low = .error e := by
  rw [equalsDecoded_range_eq_error_iff hrange]
  refine or_iff_left ?_
  rintro ⟨⟨order, hlow, -⟩, hhigh⟩
  exact h ⟨hequality, ⟨decoded, hdecodes, hrange⟩, ⟨order, hlow⟩, e, hhigh⟩

/-- **A comparison fails alike on two quantities of a kind**, unless it is one of equality with a
half-read range. -/
theorem matchesValue_eq_error_iff_of_kind_eq (hkind : q.value.kind = q'.value.kind)
    (hhalf : ∀ low high, ¬c.IsHalfRead s q low high) {e : QueryError} :
    c.matchesValue s q.value = .error e ↔ c.matchesValue s q'.value = .error e := by
  have hreads : ∀ t, q.standing s t = .error e ↔ q'.standing s t = .error e :=
    fun t => Quantity.standing_eq_error_iff_of_kind_eq hkind
  cases hdecodes : decode s.unescape c.literal with
  | error e' => rw [matchesValue_undecodable hdecodes, matchesValue_undecodable hdecodes]
  | ok decoded =>
    cases hoperator : c.operator.isEquality with
    | false =>
      rw [matchesValue_relational hdecodes hoperator, matchesValue_relational hdecodes hoperator,
        map_eq_error_iff, map_eq_error_iff]
      exact hreads decoded
    | true =>
      rw [matchesValue_equality hdecodes hoperator, matchesValue_equality hdecodes hoperator,
        map_eq_error_iff, map_eq_error_iff]
      by_cases htilde : '~' ∈ decoded
      · by_cases hrange : ∃ low high, IsRange decoded low high
        · obtain ⟨low, high, hrange⟩ := hrange
          have hhalf' : ¬c.IsHalfRead s q' low high :=
            fun h => hhalf low high (h.of_kind_eq hkind.symm)
          rw [equalsDecoded_eq_error_iff_of_not_isHalfRead hdecodes hrange hoperator (hhalf low high),
            equalsDecoded_eq_error_iff_of_not_isHalfRead hdecodes hrange hoperator hhalf']
          exact hreads low
        · simp only [not_exists] at hrange
          rw [equalsDecoded_malformed htilde hrange, equalsDecoded_malformed htilde hrange]
      · rw [equalsDecoded_single htilde, equalsDecoded_single htilde, map_eq_error_iff,
          map_eq_error_iff]
        exact hreads decoded

/-- With a half-read range, a comparison fails on what is at least the lower bound. -/
theorem exists_matchesValue_eq_error_iff_of_isHalfRead (h : c.IsHalfRead s q low high) :
    (∃ e, c.matchesValue s q.value = .error e) ↔ q.IsAtLeast s low := by
  obtain ⟨decoded, hdecodes, hrange⟩ := h.exists_isRange
  obtain ⟨order, hlow⟩ := h.low_read
  simp only [matchesValue_equality hdecodes h.isEquality, map_eq_error_iff,
    equalsDecoded_range_eq_error_iff hrange, hlow, reduceCtorEq, false_or, exists_and_left]
  exact and_iff_left h.high_unread

/-- **On which numbers a comparison fails.** It fails on all of them, with the same error, or on
none, and so it is with points in time, but for equality with a range of which only the lower bound
can be read: that fails on those that are at least the lower bound, and on no others. A lower bound
that cannot be read is told of all. -/
theorem matchesValue_alike (c : Clause) (s : Settings) {q q' : Quantity}
    (hkind : q.value.kind = q'.value.kind) :
    let test := fun q : Quantity => c.matchesValue s q.value
    ((∀ low high, ¬c.IsHalfRead s q low high) → ∀ e, test q = .error e ↔ test q' = .error e) ∧
    (∀ low high, c.IsHalfRead s q low high →
      ((∃ e, test q = .error e) ↔ q.IsAtLeast s low) ∧
      ((∃ e, test q' = .error e) ↔ q'.IsAtLeast s low)) ∧
    ∀ decoded low high e, c.operator.isEquality = true →
      decode s.unescape c.literal = .ok decoded → IsRange decoded low high →
      q.standing s low = .error e → test q = .error e ∧ test q' = .error e := by
  intro test
  refine ⟨fun hhalf e => matchesValue_eq_error_iff_of_kind_eq hkind hhalf, ?_, ?_⟩
  · intro low high h
    exact ⟨exists_matchesValue_eq_error_iff_of_isHalfRead h,
      exists_matchesValue_eq_error_iff_of_isHalfRead (h.of_kind_eq hkind)⟩
  · intro decoded low high e hequality hdecodes hrange hlow
    have hfails : ∀ q : Quantity, q.standing s low = .error e → test q = .error e := by
      intro q hlow
      show c.matchesValue s q.value = .error e
      rw [matchesValue_equality hdecodes hequality, map_eq_error_iff,
        equalsDecoded_range_eq_error_iff hrange]
      exact .inl hlow
    exact ⟨hfails q hlow, hfails q' ((Quantity.standing_eq_error_iff_of_kind_eq hkind).1 hlow)⟩

/-- The number `7` is at least `5`, so the range `5~x` fails on it, and `1` is not; `x~5` fails on
every number. -/
theorem matchesValue_alike_bounds :
    let seven := Quantity.number (.signed 7)
    let one := Quantity.number (.unsigned 1)
    let test := fun literal (q : Quantity) => matchesValue ⟨['n'], .equal, literal⟩ {} q.value
    seven.value.kind = one.value.kind ∧
      seven.IsAtLeast {} ['5'] ∧ (∀ e, test ['5', '~', 'x'] one ≠ .error e) ∧
      test ['x', '~', '5'] one = .error (.invalidNumber ['x'] .invalid) := by
  intro seven one test
  have hkind : seven.value.kind = one.value.kind := rfl
  have hfive : IsBound ['5'] := by decide
  have hx : IsBound ['x'] := by decide
  have hhalf : IsHalfRead ⟨['n'], .equal, ['5', '~', 'x']⟩ {} seven ['5'] ['x'] :=
    ⟨rfl, ⟨_, rfl, rfl, hfive, hx⟩, ⟨some .gt, rfl⟩, _, rfl⟩
  have hbelow : ¬one.IsAtLeast {} ['5'] := by
    rintro ⟨order, horder, hverdict⟩
    obtain rfl : some .lt = order := Except.ok.inj horder
    cases hverdict
  have hupper := (matchesValue_alike ⟨['n'], .equal, ['5', '~', 'x']⟩ {} hkind).2.1 _ _ hhalf
  have hlower := (matchesValue_alike ⟨['n'], .equal, ['x', '~', '5']⟩ {} hkind).2.2
    ['x', '~', '5'] ['x'] ['5'] (.invalidNumber ['x'] .invalid) rfl rfl ⟨rfl, hx, hfive⟩ rfl
  exact ⟨hkind, hupper.1.1 ⟨_, rfl⟩, fun e he => hbelow (hupper.2.1 ⟨e, he⟩), hlower.2⟩

/-- **An upper bound that cannot be read is not noticed below the lower bound**, of numbers or of
points in time. -/
theorem matchesValue_alike_upperBound :
    let number := fun n => matchesValue ⟨['n'], .equal, ['5', '~', 'x']⟩ {} (.number (.signed n))
    let instant := fun t => matchesValue ⟨['t'], .equal, ['L', '5', '~', 'x']⟩ {} (.instant ⟨t⟩)
    number 1 = .ok false ∧ number 7 = .error (.invalidNumber ['x'] .invalid) ∧
      instant 1 = .ok false ∧ instant 7 = .error (.missingDateFormat ['x']) :=
  ⟨rfl, rfl, rfl, rfl⟩

end RecordFilter.Clause
