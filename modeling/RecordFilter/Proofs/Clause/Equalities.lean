import RecordFilter.Proofs.Clause.Text

/-! # The four operators of equality

Of each two contrary operators, one matches what the other does not, and they fail alike. Equality
in any case is laxer than equality in the same case: compared with any value, it matches, or else it
comes to the same (`matchesValue_isLaxer`). It may match where the other fails, since in a sequence
it may stop at an earlier element; but where it finds nothing, the other finds nothing either, and
does not fail. So the contraries imply each other the other way round
(`matchesValue_equalities`). -/

namespace RecordFilter.Clause

variable {s : Settings} {selector literal decoded : Text}

/-! ## Texts and leaves -/

/-- A written glob matches no less in any case. -/
theorem globTest_isLaxer (part : Bool) (text raw : Text) :
    IsLaxer (globTest ⟨selector, .equal, literal⟩ s part text raw)
      (globTest ⟨selector, .equalCase, literal⟩ s part text raw) := by
  apply IsLaxer.bind
  intro glob
  apply IsLaxer.of_imp
  cases part with
  | true => exact Glob.contains_anyCase
  | false => exact Glob.equals_anyCase

/-- A text equals no less in any case. -/
theorem textEquals_isLaxer (text : Text) :
    IsLaxer (textEquals ⟨selector, .equal, literal⟩ s decoded text)
      (textEquals ⟨selector, .equalCase, literal⟩ s decoded text) := by
  cases halternation : Literal.alternation? literal with
  | some alternation =>
    obtain ⟨part, options⟩ := alternation
    rw [textEquals_alternation halternation, textEquals_alternation halternation]
    apply IsLaxer.anyM
    intro option _
    exact globTest_isLaxer part text option
  | none =>
    rw [textEquals_no_alternation halternation, textEquals_no_alternation halternation]
    apply IsLaxer.of_imp
    rw [Bool.or_eq_true, Bool.or_eq_true, Bool.and_eq_true, Bool.and_eq_true,
      Option.any_eq_true, Option.any_eq_true]
    rintro (⟨hliteral, inner, hinner, hcontains⟩ | hequals)
    · exact .inl ⟨hliteral, inner, hinner, Glob.contains_anyCase hcontains⟩
    · exact .inr (Glob.equals_anyCase hequals)

/-- A leaf equals no less in any case. Nulls, numbers and instants have none. -/
theorem equalsDecoded_isLaxer_of_leaf {leaf : Value} (hleaf : leaf.kind ≠ .sequence) :
    IsLaxer (equalsDecoded ⟨selector, .equal, literal⟩ s decoded leaf)
      (equalsDecoded ⟨selector, .equalCase, literal⟩ s decoded leaf) := by
  cases leaf with
  | text t =>
    rw [equalsDecoded, equalsDecoded]
    exact textEquals_isLaxer t
  | bool b =>
    rw [equalsDecoded, equalsDecoded]
    exact textEquals_isLaxer (Value.boolText b)
  | null => exact .inr (by simp only [equalsDecoded])
  | number n => exact .inr (by simp only [equalsDecoded, numberEquals, inRange])
  | instant t => exact .inr (by simp only [equalsDecoded, instantEquals, inRange])
  | sequence items => exact absurd rfl hleaf

/-- An element that is a leaf equals no less in any case. The literal `*` does not look at its
case at all. -/
theorem elementEquals_isLaxer_of_leaf {leaf : Value} (hleaf : leaf.kind ≠ .sequence) :
    IsLaxer (elementEquals ⟨selector, .equal, literal⟩ s decoded leaf)
      (elementEquals ⟨selector, .equalCase, literal⟩ s decoded leaf) := by
  have hsame : starHit? ⟨selector, .equalCase, literal⟩ leaf =
      starHit? ⟨selector, .equal, literal⟩ leaf := rfl
  rw [elementEquals, elementEquals, hsame]
  cases starHit? ⟨selector, .equal, literal⟩ leaf with
  | some hit => exact .inr rfl
  | none => exact equalsDecoded_isLaxer_of_leaf hleaf

/-! ## Values -/

/-- A value equals no less in any case, and in a sequence it may do so earlier. -/
theorem equalsDecoded_isLaxer (value : Value) :
    IsLaxer (equalsDecoded ⟨selector, .equal, literal⟩ s decoded value)
      (equalsDecoded ⟨selector, .equalCase, literal⟩ s decoded value) := by
  cases value with
  | sequence items =>
    rw [equalsDecoded, equalsDecoded, equalsSome_eq_anyM, equalsSome_eq_anyM]
    apply IsLaxer.anyM
    intro leaf hleaf
    exact elementEquals_isLaxer_of_leaf (Value.kind_ne_of_mem_leavesOf hleaf)
  | _ => exact equalsDecoded_isLaxer_of_leaf (by simp [Value.kind])

/-- **Equality in any case is laxer than equality in the same case.** -/
theorem matchesValue_isLaxer (value : Value) :
    IsLaxer (matchesValue ⟨selector, .equal, literal⟩ s value)
      (matchesValue ⟨selector, .equalCase, literal⟩ s value) := by
  rw [matchesValue_eq_equals (.inl rfl), matchesValue_eq_equals (.inr rfl), equals_eq_bind,
    equals_eq_bind]
  apply IsLaxer.bind
  intro decoded
  exact equalsDecoded_isLaxer value

/-- **How the operators of equality hang together.** An operator and its contrary come to opposite
matches or to the same error. What is equal in the same case is equal in any, and what differs in
any case differs in the same. -/
theorem matchesValue_equalities (s : Settings) (selector literal : Text) (value : Value) :
    let test := fun operator => matchesValue ⟨selector, operator, literal⟩ s value
    (∀ b, test .notEqual = .ok (!b) ↔ test .equal = .ok b) ∧
    (∀ e, test .notEqual = .error e ↔ test .equal = .error e) ∧
    (∀ b, test .notEqualCase = .ok (!b) ↔ test .equalCase = .ok b) ∧
    (∀ e, test .notEqualCase = .error e ↔ test .equalCase = .error e) ∧
    (test .equalCase = .ok true → test .equal = .ok true) ∧
    (test .notEqual = .ok true → test .notEqualCase = .ok true) := by
  intro test
  have hcontrary : test .notEqual = (test .equal).map not :=
    matchesValue_contrary (c := ⟨selector, .equal, literal⟩) rfl value
  have hcontraryCase : test .notEqualCase = (test .equalCase).map not :=
    matchesValue_contrary (c := ⟨selector, .equalCase, literal⟩) rfl value
  have hlax : IsLaxer (test .equal) (test .equalCase) := matchesValue_isLaxer value
  rw [hcontrary, hcontraryCase]
  refine ⟨fun b => map_not_eq_ok_iff, fun e => map_eq_error_iff, fun b => map_not_eq_ok_iff,
    fun e => map_eq_error_iff, hlax.eq_true, ?_⟩
  intro h
  exact map_not_eq_ok_iff.2 (hlax.eq_false (map_not_eq_ok_iff.1 h))

/-- The text `A` equals the literal `a` in any case, so the search does not get to the instant, for
which the literal cannot be read. In the same case `A` is passed over, and it depends on what stands
in front of the instant whether the search gets to it. -/
theorem matchesValue_equalities_earlier :
    let test := fun operator => matchesValue ⟨['n'], operator, ['a']⟩ {}
    test .equalCase (.sequence [.text ['A'], .text ['a'], .instant ⟨0⟩]) = .ok true ∧
      test .equal (.sequence [.text ['A'], .text ['a'], .instant ⟨0⟩]) = .ok true ∧
      test .equal (.sequence [.text ['A'], .instant ⟨0⟩]) = .ok true ∧
      test .equalCase (.sequence [.text ['A'], .instant ⟨0⟩]) =
        .error (.missingDateFormat ['a']) := by
  intro test
  have hcase : test .equalCase (.sequence [.text ['A'], .text ['a'], .instant ⟨0⟩]) = .ok true :=
    rfl
  have hany := (matchesValue_equalities {} ['n'] ['a'] _).2.2.2.2.1 hcase
  exact ⟨hcase, hany, rfl, rfl⟩

end RecordFilter.Clause
