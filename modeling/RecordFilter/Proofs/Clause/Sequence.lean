import RecordFilter.Proofs.Clause.Encoded
import RecordFilter.Proofs.Clause.Failure
import RecordFilter.Proofs.Search
import RecordFilter.Proofs.Value.Leaves

/-! # Comparisons with sequences

A sequence is compared by its leaves, however deep they lie. Equality searches them from left to
right for one that matches as a field of its own would, and fails if it gets to one that cannot be
compared (`matchesValue_sequence_search`). A relational operator asks whether some leaf matches; it
reads the literal beforehand, as a number and as a date, which comes to the same as reading it for
each leaf, except that a leaf for which it cannot be read is passed over
(`matchesValue_sequence_any`). -/

namespace RecordFilter

namespace Operator

/-- The operator of equality that asks for the contrary. The relational operators have none. -/
def contrary : Operator → Operator
  | equal => notEqual
  | equalCase => notEqualCase
  | notEqualCase => equalCase
  | notEqual => equal
  | operator => operator

@[simp] theorem isEquality_contrary (operator : Operator) :
    operator.contrary.isEquality = operator.isEquality := by
  cases operator <;> rfl

@[simp] theorem ignoresCase_contrary (operator : Operator) :
    operator.contrary.ignoresCase = operator.ignoresCase := by
  cases operator <;> rfl

theorem isNegated_contrary {operator : Operator} (h : operator.isEquality = true) :
    operator.contrary.isNegated = !operator.isNegated := by
  revert h
  cases operator <;> decide

end Operator

/-- The one way in which decoding fails tells the literal. -/
theorem Literal.eq_of_decode_eq_error {unescape : Bool} {raw : Text} {e : QueryError}
    (h : decode unescape raw = .error e) : e = .undecodable raw := by
  rw [decode] at h
  split at h
  · cases h
  · exact (Except.error.inj h).symm

namespace Clause

variable {c : Clause} {s : Settings} {decoded : Text}

/-! ## Equality of elements -/

variable (c s decoded) in
/-- Equality of an element of a sequence, given the decoded literal: the literal `*` has a say of
its own. -/
def elementEquals (item : Value) : Except QueryError Bool :=
  match c.starHit? item with
  | some hit => .ok hit
  | none => c.equalsDecoded s decoded item

/-- The literal `*` says nothing of a sequence. -/
theorem starHit?_sequence (items : List Value) : c.starHit? (.sequence items) = none := by
  rw [starHit?]
  split <;> rfl

/-- Any other literal is compared with an element as with a field. -/
theorem elementEquals_of_ne (h : c.literal ≠ ['*']) (item : Value) :
    c.elementEquals s decoded item = c.equalsDecoded s decoded item := by
  have hstar : c.starHit? item = none := if_neg h
  rw [elementEquals, hstar]

/-- A sequence is searched element by element. -/
theorem equalsSome_cons (item : Value) (items : List Value) :
    equalsSome c s decoded (item :: items) =
      c.elementEquals s decoded item >>= fun hit =>
        if hit then .ok true else equalsSome c s decoded items := by
  rw [equalsSome, elementEquals]
  cases c.starHit? item <;> rfl

mutual

/-- An element is searched leaf by leaf. -/
theorem elementEquals_eq_anyM : ∀ item : Value,
    c.elementEquals s decoded item = item.leaves.anyM (c.elementEquals s decoded)
  | .sequence items => by
    rw [elementEquals, starHit?_sequence, Value.leaves]
    show c.equalsDecoded s decoded (.sequence items) = _
    rw [equalsDecoded]
    exact equalsSome_eq_anyM items
  | .null | .text _ | .bool _ | .number _ | .instant _ => by
    rw [Value.leaves, anyM_singleton]

/-- **A sequence is searched leaf by leaf**, from left to right. -/
theorem equalsSome_eq_anyM : ∀ items : List Value,
    equalsSome c s decoded items = (Value.leavesOf items).anyM (c.elementEquals s decoded)
  | [] => by
    rw [equalsSome, Value.leavesOf]
    rfl
  | item :: items => by
    rw [equalsSome_cons, elementEquals_eq_anyM item, equalsSome_eq_anyM items, Value.leavesOf,
      anyM_append]

end

/-! ## Equality of values -/

/-- Equality decodes the literal and compares. It does not matter that the empty literal, with which
a text is compared at once, is not decoded: the glob that it would be says the same. -/
theorem equals_eq_bind (value : Value) :
    c.equals s value =
      Literal.decode s.unescape c.literal >>= fun decoded => c.equalsDecoded s decoded value := by
  rw [equals.eq_def]
  split
  next t hnil =>
    have hencoded : c.literal = Percent.encode [] := hnil
    rw [hencoded, Literal.decode_encode, Literal.reading_nil, ok_bind, equalsDecoded,
      textEquals_encode hencoded, Glob.equals_nil]
    rfl
  next => rfl

/-- An operator of equality matches what is equal, or what is not. -/
theorem matchesValue_eq_map (h : c.operator.isEquality = true) (value : Value) :
    c.matchesValue s value = (c.equals s value).map (· != c.operator.isNegated) := by
  rw [matchesValue, if_pos h]
  cases c.equals s value <;> rfl

/-- The two operators that ask for equality itself match what is equal. -/
theorem matchesValue_eq_equals (h : c.operator = .equal ∨ c.operator = .equalCase) (value : Value) :
    c.matchesValue s value = c.equals s value := by
  have hequality : c.operator.isEquality = true := by rcases h with h | h <;> rw [h] <;> rfl
  have hnegated : c.operator.isNegated = false := by rcases h with h | h <;> rw [h] <;> rfl
  rw [matchesValue_eq_map hequality, hnegated]
  cases c.equals s value with
  | error e => rfl
  | ok hit => rw [map_ok, Bool.bne_false]

/-- **Equality searches the leaves of a sequence** for one that matches as a field would. -/
theorem matchesValue_sequence_eq_anyM (hoperator : c.operator = .equal ∨ c.operator = .equalCase)
    (hstar : c.literal ≠ ['*']) (hdecodes : Literal.decode s.unescape c.literal = .ok decoded)
    (items : List Value) :
    c.matchesValue s (.sequence items) = (Value.leavesOf items).anyM (c.matchesValue s) := by
  have hleaf : ∀ value, c.matchesValue s value = c.equalsDecoded s decoded value := by
    intro value
    rw [matchesValue_eq_equals hoperator, equals_eq_bind, hdecodes, ok_bind]
  rw [hleaf, equalsDecoded, equalsSome_eq_anyM]
  apply anyM_congr
  intro x _
  rw [elementEquals_of_ne hstar, hleaf]

/-! ## Contraries -/

section Contrary

variable {operator : Operator}

/-- Of the operator, equality of texts sees only whether it ignores case. -/
theorem textEquals_congr (h : operator.ignoresCase = c.operator.ignoresCase) (t : Text) :
    { c with operator := operator }.textEquals s decoded t = c.textEquals s decoded t := by
  rw [textEquals, textEquals, h]

mutual

/-- Two operators that both ignore case, or both do not, ask for the same equality. -/
theorem equalsDecoded_congr (h : operator.ignoresCase = c.operator.ignoresCase) :
    ∀ value : Value, equalsDecoded { c with operator := operator } s decoded value =
      c.equalsDecoded s decoded value
  | .null | .number _ | .instant _ => by
    simp only [equalsDecoded, numberEquals, instantEquals, inRange]
  | .text t => by
    rw [equalsDecoded, equalsDecoded]
    exact textEquals_congr h t
  | .bool b => by
    rw [equalsDecoded, equalsDecoded]
    exact textEquals_congr h (Value.boolText b)
  | .sequence items => by
    rw [equalsDecoded, equalsDecoded]
    exact equalsSome_congr h items

/-- They ask for the same equality of elements, too. -/
theorem equalsSome_congr (h : operator.ignoresCase = c.operator.ignoresCase) :
    ∀ items : List Value, equalsSome { c with operator := operator } s decoded items =
      equalsSome c s decoded items
  | [] => by rw [equalsSome, equalsSome]
  | item :: items => by
    have hitem : elementEquals { c with operator := operator } s decoded item =
        c.elementEquals s decoded item := by
      rw [elementEquals, elementEquals, equalsDecoded_congr h item]
      rfl
    rw [equalsSome_cons, equalsSome_cons, hitem, equalsSome_congr h items]

end

/-- **The contrary operator matches what the operator does not**, and fails where it fails. -/
theorem matchesValue_contrary (h : c.operator.isEquality = true) (value : Value) :
    { c with operator := c.operator.contrary }.matchesValue s value =
      (c.matchesValue s value).map not := by
  have hequality : c.operator.contrary.isEquality = true := by rw [Operator.isEquality_contrary, h]
  have hequals : { c with operator := c.operator.contrary }.equals s value = c.equals s value := by
    rw [equals_eq_bind, equals_eq_bind]
    simp only [equalsDecoded_congr (Operator.ignoresCase_contrary c.operator)]
  rw [matchesValue_eq_map hequality, matchesValue_eq_map h, hequals]
  show (c.equals s value).map (· != c.operator.contrary.isNegated) = _
  rw [Operator.isNegated_contrary h]
  cases c.equals s value with
  | error e => rfl
  | ok hit => cases hit <;> cases c.operator.isNegated <;> rfl

end Contrary

/-- **Equality with a sequence is a search of its leaves from left to right.** It comes to what the
comparison with the first leaf comes to that is not refused, be it a match or an error, and to no
match if all are refused. So the nesting does not matter, nor the order of leaves none of which
fails; and the contrary operator denies what the whole search comes to. -/
theorem matchesValue_sequence_search (c : Clause) (s : Settings) (items : List Value)
    {decoded : Text} (hoperator : c.operator = .equal ∨ c.operator = .equalCase)
    (hstar : c.literal ≠ ['*']) (hdecodes : Literal.decode s.unescape c.literal = .ok decoded) :
    let leaves := Value.leavesOf items
    let test := c.matchesValue s
    (test (.sequence items) = .ok true ↔ ∃ x, IsReached test leaves x ∧ test x = .ok true) ∧
    (∀ e, test (.sequence items) = .error e ↔
      ∃ x, IsReached test leaves x ∧ test x = .error e) ∧
    (test (.sequence items) = .ok false ↔ ∀ x ∈ leaves, test x = .ok false) ∧
    test (.sequence leaves) = test (.sequence items) ∧
    (∀ others, (Value.leavesOf others).Perm leaves → (∀ x ∈ leaves, ∀ e, test x ≠ .error e) →
      test (.sequence others) = test (.sequence items)) ∧
    { c with operator := c.operator.contrary }.matchesValue s (.sequence items) =
      (test (.sequence items)).map not := by
  intro leaves test
  have hsearch : ∀ row, test (.sequence row) = (Value.leavesOf row).anyM test :=
    matchesValue_sequence_eq_anyM hoperator hstar hdecodes
  have hequality : c.operator.isEquality = true := by rcases hoperator with h | h <;> rw [h] <;> rfl
  refine ⟨?_, fun e => ?_, ?_, ?_, fun others hperm htotal => ?_, ?_⟩
  · rw [hsearch]
    exact anyM_eq_iff (by simp)
  · rw [hsearch]
    exact anyM_eq_iff (by simp)
  · rw [hsearch]
    exact anyM_eq_false_iff
  · rw [hsearch, hsearch, Value.leavesOf_leavesOf]
  · rw [hsearch, hsearch]
    exact anyM_perm hperm htotal
  · exact matchesValue_contrary hequality (.sequence items)

/-- The number `7` is found before the search gets to an instant, for which the literal cannot be
read; with the instant in front of it the comparison fails. -/
theorem matchesValue_sequence_search_mixed :
    let c : Clause := ⟨['n'], .equal, ['7']⟩
    c.matchesValue {}
        (.sequence [.text ['a'], .sequence [.null, .number (.signed 7)], .instant ⟨0⟩]) =
          .ok true ∧
      c.matchesValue {} (.sequence [.text ['a'], .instant ⟨0⟩, .sequence [.number (.signed 7)]]) =
        .error (.missingDateFormat ['7']) := by
  intro c
  have hdecodes : Literal.decode false c.literal = .ok ['7'] := rfl
  have hnull : c.matchesValue {} .null = .ok false := rfl
  have htext : c.matchesValue {} (.text ['a']) = .ok false := rfl
  have hnumber : c.matchesValue {} (.number (.signed 7)) = .ok true := rfl
  have hinstant : c.matchesValue {} (.instant ⟨0⟩) = .error (.missingDateFormat ['7']) := rfl
  constructor
  · refine (matchesValue_sequence_search c {} _ (.inl rfl) (by decide) hdecodes).1.2 ?_
    refine ⟨.number (.signed 7), ⟨[.text ['a'], .null], [.instant ⟨0⟩], rfl, ?_⟩, hnumber⟩
    simp [hnull, htext]
  · refine ((matchesValue_sequence_search c {} _ (.inl rfl) (by decide) hdecodes).2.1 _).2 ?_
    refine ⟨.instant ⟨0⟩, ⟨[.text ['a']], [.number (.signed 7)], rfl, ?_⟩, hinstant⟩
    simp [htext]

/-! ## Order -/

/-- The relational operators compare as such. -/
theorem matchesValue_eq_relates (h : c.operator.isEquality = false) (value : Value) :
    c.matchesValue s value = c.relates s value := by
  rw [matchesValue, if_neg (by rw [h]; exact Bool.false_ne_true)]

/-- A sequence is compared with the readings of the literal, which has to be decoded for it. -/
theorem relates_sequence (items : List Value) :
    c.relates s (.sequence items) =
      Literal.decode s.unescape c.literal >>= fun decoded =>
        .ok (relatesSome c.operator (.of s decoded) items) := by
  rw [relates.eq_def]
  rfl

mutual

/-- An element has a match if one of its leaves is one. -/
theorem relatesReadings_eq_any {operator : Operator} {readings : Readings} : ∀ item : Value,
    relatesReadings operator readings item =
      item.leaves.any (relatesReadings operator readings)
  | .sequence items => by
    rw [relatesReadings, Value.leaves]
    exact relatesSome_eq_any items
  | .null | .text _ | .bool _ | .number _ | .instant _ => by
    rw [Value.leaves, List.any_cons, List.any_nil, Bool.or_false]

/-- A sequence has a match if one of its leaves is one. -/
theorem relatesSome_eq_any {operator : Operator} {readings : Readings} : ∀ items : List Value,
    relatesSome operator readings items =
      (Value.leavesOf items).any (relatesReadings operator readings)
  | [] => by rw [relatesSome, Value.leavesOf, List.any_nil]
  | item :: items => by
    rw [relatesSome, relatesReadings_eq_any item, relatesSome_eq_any items, Value.leavesOf,
      List.any_append]

end

/-- **A leaf that is compared with the readings of the literal matches if it would as a field.** -/
theorem relatesReadings_eq_true_iff (hdecodes : Literal.decode s.unescape c.literal = .ok decoded)
    {leaf : Value} (hleaf : leaf.kind ≠ .sequence) :
    relatesReadings c.operator (.of s decoded) leaf = true ↔ c.relates s leaf = .ok true := by
  cases leaf with
  | null => simp [relatesReadings, relates, hdecodes]
  | bool b => simp [relatesReadings, relates, hdecodes]
  | text t =>
    -- A text never matches, whether or not the literal is empty.
    rw [relatesReadings, relates.eq_def]
    split <;> simp [hdecodes]
  | number n =>
    rw [relatesReadings, relates.eq_def]
    simp only [hdecodes, ok_bind]
    exact any_toOption_eq_true_iff
  | instant t =>
    rw [relatesReadings, relates.eq_def]
    simp only [hdecodes, ok_bind]
    exact any_toOption_eq_true_iff
  | sequence items => exact absurd rfl hleaf

/-- With a relational operator, the literal is decoded once and read in both ways, and then some
leaf has to match. -/
theorem matchesValue_sequence_eq_bind (hoperator : c.operator.isEquality = false)
    (items : List Value) :
    c.matchesValue s (.sequence items) =
      Literal.decode s.unescape c.literal >>= fun decoded =>
        .ok ((Value.leavesOf items).any (relatesReadings c.operator (.of s decoded))) := by
  rw [matchesValue_eq_relates hoperator, relates_sequence]
  simp only [relatesSome_eq_any]

/-- A relational operator holds of a sequence if it holds of some leaf. -/
theorem exists_matchesValue_sequence (hoperator : c.operator.isEquality = false)
    (hdecodes : Literal.decode s.unescape c.literal = .ok decoded) (items : List Value) :
    ∃ b, c.matchesValue s (.sequence items) = .ok b ∧
      (b = true ↔ ∃ x ∈ Value.leavesOf items, c.matchesValue s x = .ok true) := by
  refine ⟨(Value.leavesOf items).any (relatesReadings c.operator (.of s decoded)), ?_, ?_⟩
  · rw [matchesValue_sequence_eq_bind hoperator, hdecodes, ok_bind]
  · rw [List.any_eq_true]
    apply exists_congr
    intro x
    apply and_congr_right
    intro hx
    rw [matchesValue_eq_relates hoperator]
    exact relatesReadings_eq_true_iff hdecodes (Value.kind_ne_of_mem_leavesOf hx)

/-- **A relational operator asks of a sequence whether it holds of some leaf**, in whatever order
and nesting, and passes over leaves that cannot be compared. The comparison fails only if the
literal cannot be decoded, and then it does so even for the empty sequence. -/
theorem matchesValue_sequence_any (c : Clause) (s : Settings) (items : List Value)
    (hoperator : c.operator ∈ [.above, .atLeast, .below, .atMost]) :
    let leaves := Value.leavesOf items
    let test := c.matchesValue s
    (∀ e, Literal.decode s.unescape c.literal = .error e →
      e = .undecodable c.literal ∧ test (.sequence items) = .error e) ∧
    (∀ decoded, Literal.decode s.unescape c.literal = .ok decoded →
      ∃ b, test (.sequence items) = .ok b ∧ (b = true ↔ ∃ x ∈ leaves, test x = .ok true)) ∧
    (∀ others, (Value.leavesOf others).Perm leaves →
      test (.sequence others) = test (.sequence items)) ∧
    ∀ e, test (.sequence items) = .error e → e = .undecodable c.literal := by
  intro leaves test
  have hrelational : c.operator.isEquality = false := by
    revert hoperator
    cases c.operator <;> decide
  have htest : ∀ row, test (.sequence row) = _ := matchesValue_sequence_eq_bind hrelational
  refine ⟨fun e he => ⟨Literal.eq_of_decode_eq_error he, ?_⟩, fun decoded hdecodes => ?_,
    fun others hperm => ?_, fun e he => ?_⟩
  · rw [htest, he, error_bind]
  · exact exists_matchesValue_sequence hrelational hdecodes items
  · rw [htest, htest]
    -- Whatever the literal is read as, the same leaves match.
    simp only [hperm.any_eq]
    rfl
  · rw [htest] at he
    rcases bind_eq_error_iff.1 he with he | ⟨decoded, -, he⟩
    · exact Literal.eq_of_decode_eq_error he
    · cases he

/-- The text, the null and the instant, for which the literal cannot be read, are passed over, and
the number in the inner sequence matches. -/
theorem matchesValue_sequence_any_passed_over :
    let c : Clause := ⟨['n'], .above, ['2']⟩
    c.matchesValue {} (.instant ⟨0⟩) = .error (.missingDateFormat ['2']) ∧
      c.matchesValue {} (.sequence [.text ['a'], .instant ⟨0⟩,
        .sequence [.null, .number (.signed 3)]]) = .ok true := by
  intro c
  have hdecodes : Literal.decode false c.literal = .ok ['2'] := rfl
  have hnumber : c.matchesValue {} (.number (.signed 3)) = .ok true := rfl
  obtain ⟨b, hb, hiff⟩ := (matchesValue_sequence_any c {} [.text ['a'], .instant ⟨0⟩,
    .sequence [.null, .number (.signed 3)]] (by decide)).2.1 _ hdecodes
  have htrue : b = true := by
    refine hiff.2 ⟨.number (.signed 3), ?_, hnumber⟩
    simp [Value.leavesOf, Value.leaves]
  rw [htrue] at hb
  exact ⟨rfl, hb⟩

end Clause

end RecordFilter
