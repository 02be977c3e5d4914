import RecordFilter.Proofs.Clause.Quantity
import RecordFilter.Proofs.Literal.Decoding
import RecordFilter.Proofs.Number.Integer

/-! # Comparisons of integers

A field of an integer, signed or unsigned, is compared with the literal of an integer after both
have been rounded to the nearest binary64 number: the field by a conversion, the literal when it is
read. Rounding keeps the order, so no comparison inverts it, and up to `2 ^ 53` it changes nothing,
so comparisons are those of the integers (`matchesValue_integers`). -/

namespace RecordFilter

namespace Number

/-- The integer that a number of an integer form is. -/
def toInt? : Number → Option Int
  | signed n => some n.toInt
  | unsigned n => some n.toNat
  | float _ => none

/-- An integer is compared as the binary64 number nearest to it. -/
theorem toBinary64_of_toInt? {n : Number} {i : Int} (h : n.toInt? = some i) :
    n.toBinary64 = .ofInt i := by
  cases n with
  | signed n => rw [toBinary64, Option.some.inj h]
  | unsigned n => rw [toBinary64, Option.some.inj h]
  | float x => cases h

end Number

namespace IsIntegerText

variable {t : Text} {n : Int}

/-- A decimal text of an integer is a literal that stands for itself. -/
theorem decode_eq_self (h : IsIntegerText t n) (unescape : Bool) :
    Literal.decode unescape t = .ok t :=
  Literal.decode_eq_self (h.notMem (by decide) rfl) (h.notMem (by decide) rfl)
    (h.notMem (by decide) rfl) unescape

/-- A decimal text of an integer is read as a literal of a number. -/
theorem exists_readNumber (h : IsIntegerText t n) :
    ∃ x, Clause.readNumber t = .ok x ∧ x.key? = some (Binary64.intKey n) := by
  obtain ⟨x, hread, hkey⟩ := h.exists_read
  have htrim : t.trim = t := by
    apply Text.trim_eq_self
    intro c hc
    by_contra hblank
    refine h.notMem ?_ ?_ hc
    · rintro rfl
      exact hblank rfl
    · exact Bool.eq_false_iff.2 fun hdigit => hblank (isBlank_of_isDigit hdigit)
  exact ⟨x, by rw [Clause.readNumber, htrim, hread, mapError_ok], hkey⟩

end IsIntegerText

/-! ## Orders of integers -/

/-- Up to `2 ^ 53` the places of two integers are in the order of the integers. -/
theorem Binary64.compare_intKey {m n : Int} (hm : |m| ≤ 2 ^ 53) (hn : |n| ≤ 2 ^ 53) :
    compare (intKey m) (intKey n) = compare m n := by
  rw [abs_le] at hm hn
  rcases lt_trichotomy m n with h | rfl | h
  · rw [compare_lt_iff_lt.2 h, compare_lt_iff_lt]
    exact intKey_strictMono hm.1 hn.2 h
  · rw [compare_eq_iff_eq.2 rfl, compare_eq_iff_eq.2 rfl]
  · rw [compare_gt_iff_gt.2 h, compare_gt_iff_gt]
    exact intKey_strictMono hn.1 hm.2 h

/-- What the operators say of two integers in their order. -/
theorem Operator.verdict_compare (m n : Int) :
    let holds := fun operator => verdict operator (some (compare m n))
    holds .equal = decide (m = n) ∧ holds .notEqual = decide (m ≠ n) ∧
      holds .above = decide (n < m) ∧ holds .atLeast = decide (n ≤ m) ∧
      holds .below = decide (m < n) ∧ holds .atMost = decide (m ≤ n) := by
  intro holds
  simp only [holds]
  rcases lt_trichotomy m n with h | rfl | h
  · rw [compare_lt_iff_lt.2 h]
    simp [verdict, isEquality, isNegated, Operator.holds, h.ne, h.le, h.not_gt, h.not_ge, h]
  · rw [compare_eq_iff_eq.2 rfl]
    simp [verdict, isEquality, isNegated, Operator.holds]
  · rw [compare_gt_iff_gt.2 h]
    simp [verdict, isEquality, isNegated, Operator.holds, h.ne', h.le, h.not_gt, h.not_ge, h]

namespace Clause

/-- An integer and the literal of an integer are in the order of their places. -/
theorem standing_integer (s : Settings) {n : Number} {i v : Int} {literal : Text}
    (hn : n.toInt? = some i) (hliteral : IsIntegerText literal v) :
    (Quantity.number n).standing s literal =
      .ok (some (compare (Binary64.intKey i) (Binary64.intKey v))) := by
  obtain ⟨x, hread, hkey⟩ := hliteral.exists_readNumber
  rw [Quantity.standing, hread, map_ok, Number.toBinary64_of_toInt? hn, Binary64.compare?,
    Binary64.key?_ofInt, hkey]
  rfl

/-- **Comparisons of integers never invert.** Compared with the decimal text of an integer, an
integer is above or below only if it is greater or less, and it equals the text of itself. Up to
`2 ^ 53` on either side of zero all comparisons are those of the integers; beyond that, neighbours
may be taken for equal. -/
theorem matchesValue_integers (s : Settings) (selector : Text) {n : Number} {i v : Int}
    {literal : Text} (hn : n.toInt? = some i) (hliteral : IsIntegerText literal v) :
    let test := fun operator => matchesValue ⟨selector, operator, literal⟩ s (.number n)
    ∃ holds : Operator → Bool, (∀ operator, test operator = .ok (holds operator)) ∧
      (holds .above → v < i) ∧ (holds .below → i < v) ∧
      (i = v → holds .equal ∧ holds .atLeast ∧ holds .atMost) ∧
      (|i| ≤ 2 ^ 53 → |v| ≤ 2 ^ 53 →
        holds .equal = decide (i = v) ∧ holds .notEqual = decide (i ≠ v) ∧
        holds .above = decide (v < i) ∧ holds .atLeast = decide (v ≤ i) ∧
        holds .below = decide (i < v) ∧ holds .atMost = decide (i ≤ v)) := by
  intro test
  have htilde : '~' ∉ literal := hliteral.notMem (by decide) rfl
  -- All verdicts are on the places of the two integers; what these tell of the integers is known.
  have hplaces := Operator.verdict_compare (Binary64.intKey i) (Binary64.intKey v)
  obtain ⟨hequal, -, habove, hatLeast, hbelow, hatMost⟩ := hplaces
  refine ⟨fun operator => operator.verdict (some (compare (Binary64.intKey i) (Binary64.intKey v))),
    ?_, ?_, ?_, ?_, ?_⟩
  · intro operator
    have hsingle := matchesValue_single (c := ⟨selector, operator, literal⟩) (q := .number n)
      (hliteral.decode_eq_self s.unescape) htilde
    rw [standing_integer s hn hliteral, map_ok] at hsingle
    exact hsingle
  · intro h
    rw [habove, decide_eq_true_eq] at h
    exact Binary64.lt_of_intKey_lt h
  · intro h
    rw [hbelow, decide_eq_true_eq] at h
    exact Binary64.lt_of_intKey_lt h
  · rintro rfl
    simp only [hequal, hatLeast, hatMost, le_refl, decide_true, and_self]
  · intro hi hv
    rw [Binary64.compare_intKey hi hv]
    exact Operator.verdict_compare i v

/-- The last of the unsigned integers that are told apart is above the one before it. The signed
integer behind it, which is taken for equal to it, is not below it, and is at least itself. -/
theorem matchesValue_integers_bound :
    let test := fun n v operator =>
      matchesValue ⟨['n'], operator, intText v⟩ {} (.number n)
    test (.unsigned 0x20000000000000) 0x1FFFFFFFFFFFFF .above = .ok true ∧
      test (.signed 0x20000000000001) 0x20000000000000 .below ≠ .ok true ∧
      test (.signed 0x20000000000001) 0x20000000000001 .atLeast = .ok true := by
  intro test
  obtain ⟨holds, htest, -, -, -, hexact⟩ := matchesValue_integers {} ['n']
    (show (Number.unsigned 0x20000000000000).toInt? = some 0x20000000000000 from rfl)
    (isIntegerText_intText 0x1FFFFFFFFFFFFF)
  obtain ⟨holds', htest', -, hbelow, -, -⟩ := matchesValue_integers {} ['n']
    (show (Number.signed 0x20000000000001).toInt? = some 0x20000000000001 from rfl)
    (isIntegerText_intText 0x20000000000000)
  obtain ⟨holds'', htest'', -, -, hsame, -⟩ := matchesValue_integers {} ['n']
    (show (Number.signed 0x20000000000001).toInt? = some 0x20000000000001 from rfl)
    (isIntegerText_intText 0x20000000000001)
  refine ⟨(htest .above).trans (congrArg _ ?_), fun h => ?_,
    (htest'' .atLeast).trans (congrArg _ (hsame rfl).2.1)⟩
  · exact (hexact (by decide) (by decide)).2.2.1
  · have hholds : holds' .below = true := Except.ok.inj ((htest' .below).symm.trans h)
    have hlt := hbelow hholds
    omega

end Clause

end RecordFilter
