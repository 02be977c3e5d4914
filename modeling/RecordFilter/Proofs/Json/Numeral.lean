import RecordFilter.Json.Lexer
import RecordFilter.Proofs.Number.Digits

/-! # Numerals that are written

A numeral has a text of its own (`Numeral.text`), which is read off the start of any text whose rest
cannot belong to it (`span?_text_append`). Every number that is not written as null is written as
the text of some numeral (`exists_numeral`), whether or not that numeral denotes the number
again. -/

namespace RecordFilter

/-! ## Shortest digits -/

namespace Magnitude

theorem significand_ne_zero {m : Magnitude} (h : m ≠ .zero) : m.significand ≠ 0 := by
  rw [significand]
  split
  next =>
    intro hcode
    obtain ⟨code, hle⟩ := m
    obtain rfl : code = 0 := hcode
    exact h rfl
  next => simp [hiddenBit]

/-- Zero rounds to no other magnitude, so it is on no grid. -/
theorem ne_zero_of_digitsOnGrid? {m : Magnitude} (h : m ≠ .zero) {exponent : Int} {digits : Nat}
    (hdigits : m.digitsOnGrid? exponent = some digits) : digits ≠ 0 := by
  have hlower : 0 < m.lowerQuarters := by
    have hsignificand := significand_ne_zero h
    rw [lowerQuarters, quarters]
    split <;> omega
  have hunit : 0 < m.lowerQuarters *
      (twoTo (m.exponent - 2).toNat * tenTo (-exponent).toNat) :=
    Nat.mul_pos hlower (Nat.mul_pos (twoTo_pos _) (tenTo_pos _))
  rintro rfl
  simp only [digitsOnGrid?] at hdigits
  grind

/-- The shortest form of a magnitude other than zero has a digit other than zero. -/
theorem shortest_digits_ne_zero {m : Magnitude} (h : m ≠ .zero) : m.shortest.digits ≠ 0 := by
  have hfrom : ∀ (grids : Nat) (exponent : Int), (m.shortestFrom exponent grids).digits ≠ 0 := by
    intro grids
    induction grids with
    | zero => exact fun _ => significand_ne_zero h
    | succ grids ih =>
      intro exponent
      rw [shortestFrom]
      split
      next digits hdigits => exact ne_zero_of_digitsOnGrid? h hdigits
      next => exact ih (exponent - 1)
  exact hfrom 650 309

end Magnitude

namespace Json

/-- What follows cannot belong to a numeral. -/
def EndsNumeral (t : Text) : Prop :=
  ∀ c ∈ t.head?, c.isDigit = false ∧ c ≠ '.' ∧ c ≠ 'e' ∧ c ≠ 'E'

theorem EndsNumeral.nil : EndsNumeral [] := fun _ hc => by cases hc

theorem EndsNumeral.cons {c : Char}
    (h : c.isDigit = false ∧ c ≠ '.' ∧ c ≠ 'e' ∧ c ≠ 'E') (t : Text) : EndsNumeral (c :: t) :=
  fun _ hd => (Option.some.inj hd) ▸ h

theorem EndsNumeral.startsWithoutDigit {t : Text} (h : EndsNumeral t) : StartsWithoutDigit t :=
  fun c hc => (h c hc).1

namespace Numeral

/-! ## Texts of numerals -/

/-- A row of digits as the fraction of a numeral. -/
def fractionPart : Option Text → Text
  | none => []
  | some digits => '.' :: digits

/-- An integer, always with its sign, as the exponent of a numeral. -/
def exponentPart : Option Int → Text
  | none => []
  | some exponent => 'e' :: if exponent < 0 then intText exponent else '+' :: intText exponent

/-- A numeral as text. -/
def text (n : Numeral) : Text :=
  (if n.negative then ['-'] else []) ++
    (n.whole ++ (fractionPart n.fraction? ++ exponentPart n.exponent?))

/-- The parts of a numeral are such that its text is one: digits stand where digits have to, and
only a zero alone starts with a zero. -/
structure IsGrammatical (n : Numeral) : Prop where
  whole_digits : AllDigits n.whole
  whole_ne : n.whole ≠ []
  whole_zero : ∀ t, n.whole = '0' :: t → t = []
  fraction_digits : ∀ digits ∈ n.fraction?, AllDigits digits
  fraction_ne : ∀ digits ∈ n.fraction?, digits ≠ []

/-! ## Reading the parts -/

theorem spanWhole?_append {whole rest : Text} (hdigits : AllDigits whole) (hne : whole ≠ [])
    (hzero : ∀ t, whole = '0' :: t → t = []) (hrest : StartsWithoutDigit rest) :
    spanWhole? (whole ++ rest) = some (whole, rest) := by
  obtain ⟨c, t, rfl⟩ := List.exists_cons_of_ne_nil hne
  by_cases hc : c = '0'
  · subst hc
    obtain rfl : t = [] := hzero t rfl
    rfl
  · have hspan := spanDigits_append hdigits hrest
    rw [List.cons_append] at hspan ⊢
    rw [spanWhole?, hspan]
    · rfl
    · exact fun _ heq => hc (List.cons.inj heq).1

theorem spanFraction?_append {fraction? : Option Text} {rest : Text}
    (hdigits : ∀ digits ∈ fraction?, AllDigits digits) (hne : ∀ digits ∈ fraction?, digits ≠ [])
    (hrest : StartsWithoutDigit rest) (hpoint : ∀ c ∈ rest.head?, c ≠ '.') :
    spanFraction? (fractionPart fraction? ++ rest) = some (fraction?, rest) := by
  cases fraction? with
  | none =>
    rw [fractionPart, List.nil_append, spanFraction?]
    intro t ht
    exact hpoint '.' (by rw [ht]; rfl) rfl
  | some digits =>
    have hempty : digits.isEmpty = false := by simpa using hne digits rfl
    rw [fractionPart, List.cons_append, spanFraction?, spanDigits_append (hdigits digits rfl) hrest]
    simp only [hempty, Bool.false_eq_true, if_false]

/-- The sign of an exponent is told apart from its digits. -/
theorem spanSign_exponent (exponent : Int) (rest : Text) :
    spanSign ((if exponent < 0 then intText exponent else '+' :: intText exponent) ++ rest) =
      (decide (exponent < 0), natText exponent.natAbs ++ rest) := by
  rw [intText]
  split
  next h => rw [decide_eq_true h]; rfl
  next h => rw [decide_eq_false h]; rfl

theorem spanExponent?_append {exponent? : Option Int} {rest : Text} (hrest : EndsNumeral rest) :
    spanExponent? (exponentPart exponent? ++ rest) = some (exponent?, rest) := by
  cases exponent? with
  | none =>
    cases rest with
    | nil => rfl
    | cons c rest =>
      obtain ⟨-, -, hsmall, hcapital⟩ := hrest c rfl
      rw [exponentPart, List.nil_append, spanExponent?, if_neg (by simp [hsmall, hcapital])]
  | some exponent =>
    have hempty : (natText exponent.natAbs).isEmpty = false := by simpa using natText_ne_nil _
    rw [exponentPart, List.cons_append, spanExponent?, if_pos (.inl rfl), spanSign_exponent]
    simp only [spanDigits_append (allDigits_natText _) hrest.startsWithoutDigit, hempty,
      Bool.false_eq_true, if_false, digitsValue_natText]
    by_cases hneg : exponent < 0
    · rw [decide_eq_true hneg, if_pos rfl]
      congr 3
      omega
    · rw [decide_eq_false hneg, if_neg Bool.false_ne_true]
      congr 3
      omega

/-! ## Reading a numeral -/

/-- Before an exponent and behind a fraction there is no digit. -/
theorem startsWithoutDigit_exponentPart (exponent? : Option Int) {rest : Text}
    (hrest : EndsNumeral rest) : StartsWithoutDigit (exponentPart exponent? ++ rest) := by
  cases exponent? with
  | none => exact hrest.startsWithoutDigit
  | some exponent =>
    intro c hc
    obtain rfl : 'e' = c := by simpa [exponentPart] using hc
    rfl

/-- An exponent is no fraction. -/
theorem head?_exponentPart_ne (exponent? : Option Int) {rest : Text} (hrest : EndsNumeral rest) :
    ∀ c ∈ (exponentPart exponent? ++ rest).head?, c ≠ '.' := by
  cases exponent? with
  | none => exact fun c hc => (hrest c hc).2.1
  | some exponent =>
    intro c hc
    obtain rfl : 'e' = c := by simpa [exponentPart] using hc
    decide

/-- Behind the digits before the point there is no other digit. -/
theorem startsWithoutDigit_fractionPart (fraction? : Option Text) {rest : Text}
    (hrest : StartsWithoutDigit rest) : StartsWithoutDigit (fractionPart fraction? ++ rest) := by
  cases fraction? with
  | none => exact hrest
  | some digits =>
    intro c hc
    obtain rfl : '.' = c := by simpa [fractionPart] using hc
    rfl

variable {n : Numeral}

/-- A numeral is either signed or starts with a digit. -/
theorem spanMinus_text (h : n.IsGrammatical) (rest : Text) :
    spanMinus (n.text ++ rest) = (n.negative,
      n.whole ++ (fractionPart n.fraction? ++ (exponentPart n.exponent? ++ rest))) := by
  have hassoc : n.text ++ rest = (if n.negative then ['-'] else []) ++
      (n.whole ++ (fractionPart n.fraction? ++ (exponentPart n.exponent? ++ rest))) := by
    simp only [text, List.append_assoc]
  rw [hassoc]
  cases n.negative with
  | true => rfl
  | false =>
    obtain ⟨c, t, ht⟩ := List.exists_cons_of_ne_nil h.whole_ne
    have hc : c.isDigit = true := h.whole_digits c (by rw [ht]; exact List.mem_cons_self)
    rw [ht]
    show spanMinus (c :: _) = _
    rw [spanMinus]
    · rfl
    · intro _ heq
      rw [(List.cons.inj heq).1] at hc
      cases hc

/-- **The text of a numeral is read as that numeral**, up to what cannot belong to it. -/
theorem span?_text_append (h : n.IsGrammatical) {rest : Text} (hrest : EndsNumeral rest) :
    span? (n.text ++ rest) = some (n, rest) := by
  have hexponent : StartsWithoutDigit (exponentPart n.exponent? ++ rest) :=
    startsWithoutDigit_exponentPart n.exponent? hrest
  have hwhole := spanWhole?_append h.whole_digits h.whole_ne h.whole_zero
    (startsWithoutDigit_fractionPart n.fraction? hexponent)
  have hfraction := spanFraction?_append h.fraction_digits h.fraction_ne hexponent
    (head?_exponentPart_ne n.exponent? hrest)
  rw [span?, spanMinus_text h]
  simp only [hwhole, hfraction, spanExponent?_append hrest, Option.bind_eq_bind, Option.bind_some,
    Option.pure_def]

/-- The text of a numeral starts with a minus or a digit. -/
theorem exists_text_eq_cons (h : n.IsGrammatical) :
    ∃ c t, n.text = c :: t ∧ (c = '-' ∨ c.isDigit = true) := by
  rw [text]
  cases n.negative with
  | true => exact ⟨'-', _, rfl, .inl rfl⟩
  | false =>
    obtain ⟨c, t, ht⟩ := List.exists_cons_of_ne_nil h.whole_ne
    have hc : c.isDigit = true := h.whole_digits c (by rw [ht]; exact List.mem_cons_self)
    exact ⟨c, _, by rw [ht]; rfl, .inr hc⟩

/-! ## Numerals of numbers -/

/-- The digits of a number do not start with a zero unless they are a zero alone. -/
theorem natText_zero (m : Nat) : ∀ t, natText m = '0' :: t → t = [] := by
  intro t ht
  by_cases hm : m = 0
  · subst hm
    exact (List.cons.inj ht).2.symm
  · obtain ⟨c, _, hcons, hc⟩ := exists_natText_eq_cons hm
    rw [hcons] at ht
    exact absurd (List.cons.inj ht).1 hc

/-- A sign and the digits of a number are a numeral. -/
theorem isGrammatical_natText (negative : Bool) (m : Nat) :
    IsGrammatical ⟨negative, natText m, none, none⟩ where
  whole_digits := allDigits_natText m
  whole_ne := natText_ne_nil m
  whole_zero := natText_zero m
  fraction_digits := by simp
  fraction_ne := by simp

/-- An integer is written as a numeral without fraction and exponent. -/
theorem intText_eq_text (i : Int) :
    intText i = text ⟨decide (i < 0), natText i.natAbs, none, none⟩ := by
  rw [intText, text]
  by_cases hi : i < 0
  · simp [hi, fractionPart, exponentPart]
  · simp [hi, fractionPart, exponentPart]

/-- Digits of which the first is no zero are the whole part of a numeral, whatever digits follow
them. -/
theorem isGrammatical_of_head_ne_zero {negative : Bool} {c : Char} {t fraction : Text}
    (hc : c ≠ '0') (hwhole : AllDigits (c :: t)) (hfraction : AllDigits fraction)
    (hne : fraction ≠ []) : IsGrammatical ⟨negative, c :: t, some fraction, none⟩ where
  whole_digits := hwhole
  whole_ne := List.cons_ne_nil c t
  whole_zero := fun _ heq => absurd (List.cons.inj heq).1 hc
  fraction_digits := fun _ hdigits => (Option.some.inj hdigits) ▸ hfraction
  fraction_ne := fun _ hdigits => (Option.some.inj hdigits) ▸ hne

theorem allDigits_zeros (count : Nat) : AllDigits (List.replicate count '0') := by
  intro c hc
  rw [(List.mem_replicate.1 hc).2]
  rfl

/-- Positional notation is a numeral with a fraction. -/
theorem exists_numeral_positionalText (negative : Bool) {c : Char} {t : Text} (hc : c ≠ '0')
    (hdigits : AllDigits (c :: t)) (leading : Int) :
    ∃ n : Numeral, n.IsGrammatical ∧
      (if negative then ['-'] else []) ++ positionalText (c :: t) leading = n.text := by
  by_cases hleading : leading < 0
  · -- The digits and the zeros in front of them are all behind the point.
    refine ⟨⟨negative, ['0'], some (List.replicate (-leading - 1).toNat '0' ++ c :: t), none⟩,
      ⟨by simp [AllDigits], by simp, by simp, fun digits h => ?_, fun digits h => ?_⟩, ?_⟩
    · rw [← Option.some.inj h]
      exact List.forall_mem_append.2 ⟨allDigits_zeros _, hdigits⟩
    · rw [← Option.some.inj h]
      simp
    · rw [positionalText, if_pos hleading]
      simp [text, fractionPart, exponentPart]
  · -- The first digit stays the first, however the others are cut at the point.
    let places := leading.toNat + 1
    let fraction := if ((c :: t).drop places).isEmpty then ['0'] else (c :: t).drop places
    have hwhole : AllDigits (c :: (t.take leading.toNat ++
        List.replicate (places - (c :: t).length) '0')) := by
      refine List.forall_mem_cons.2 ⟨hdigits c List.mem_cons_self, List.forall_mem_append.2
        ⟨fun d hd => hdigits d (List.mem_cons_of_mem c (List.mem_of_mem_take hd)),
          allDigits_zeros _⟩⟩
    have hfraction : AllDigits fraction := by
      simp only [fraction]
      split
      · simp [AllDigits]
      · exact fun d hd => hdigits d (List.mem_of_mem_drop hd)
    have hne : fraction ≠ [] := by
      simp only [fraction]
      split
      · simp
      next h => simpa using h
    refine ⟨⟨negative, c :: (t.take leading.toNat ++
        List.replicate (places - (c :: t).length) '0'), some fraction, none⟩,
      isGrammatical_of_head_ne_zero hc hwhole hfraction hne, ?_⟩
    rw [positionalText, if_neg hleading]
    simp [text, fractionPart, exponentPart, places, fraction]

/-- Notation with an exponent is a numeral with one, and with a fraction if there are digits
left. -/
theorem exists_numeral_exponentText (negative : Bool) {c : Char} {t : Text}
    (hdigits : AllDigits (c :: t)) (leading : Int) :
    ∃ n : Numeral, n.IsGrammatical ∧
      (if negative then ['-'] else []) ++ exponentText (c :: t) leading = n.text := by
  have hc : AllDigits [c] :=
    fun d hd => hdigits d (List.mem_singleton.1 hd ▸ List.mem_cons_self)
  cases t with
  | nil =>
    refine ⟨⟨negative, [c], none, some leading⟩, ⟨hc, by simp, by simp, by simp, by simp⟩, ?_⟩
    simp [exponentText, text, fractionPart, exponentPart]
  | cons d t =>
    have hrest : AllDigits (d :: t) := fun e he => hdigits e (List.mem_cons_of_mem c he)
    refine ⟨⟨negative, [c], some (d :: t), some leading⟩, ⟨hc, by simp, by simp,
      fun _ h => (Option.some.inj h) ▸ hrest, fun _ h => (Option.some.inj h) ▸ by simp⟩, ?_⟩
    simp [exponentText, text, fractionPart, exponentPart]

/-- A decimal number other than zero is written as a numeral, with or without a minus. -/
theorem exists_numeral_decimalText (negative : Bool) {d : Decimal} (h : d.digits ≠ 0) :
    ∃ n : Numeral, n.IsGrammatical ∧
      (if negative then ['-'] else []) ++ d.text positional = n.text := by
  obtain ⟨c, t, ht, hc⟩ := exists_natText_eq_cons h
  have hdigits : AllDigits (c :: t) := ht ▸ allDigits_natText d.digits
  have hnotation : ∃ leading, d.text positional = positionalText (c :: t) leading ∨
      d.text positional = exponentText (c :: t) leading := by
    simp only [Decimal.text, ht]
    split
    · exact ⟨_, .inl rfl⟩
    · exact ⟨_, .inr rfl⟩
  obtain ⟨leading, htext | htext⟩ := hnotation
  · rw [htext]
    exact exists_numeral_positionalText negative hc hdigits leading
  · rw [htext]
    exact exists_numeral_exponentText negative hdigits leading

/-- **A number is written as null or as the text of a numeral.** -/
theorem exists_numeral (n : Number) :
    numberText n = ['n', 'u', 'l', 'l'] ∨
      ∃ numeral : Numeral, numeral.IsGrammatical ∧ numberText n = numeral.text := by
  cases n with
  | signed i => exact .inr ⟨_, isGrammatical_natText _ _, intText_eq_text i.toInt⟩
  | unsigned i =>
    refine .inr ⟨⟨false, natText i.toNat, none, none⟩, isGrammatical_natText false i.toNat, ?_⟩
    simp [numberText, text, fractionPart, exponentPart]
  | float x =>
    cases x with
    | nan => exact .inl rfl
    | signed negative m =>
      rw [numberText, floatText]
      by_cases hfinite : m.isFinite = true
      · rw [if_pos hfinite]
        by_cases hzero : m = .zero
        · refine .inr ⟨⟨negative, ['0'], some ['0'], none⟩,
            ⟨by simp [AllDigits], by simp, by simp, by simp [AllDigits], by simp⟩, ?_⟩
          rw [if_pos hzero]
          rfl
        · rw [if_neg hzero]
          exact .inr (exists_numeral_decimalText negative (Magnitude.shortest_digits_ne_zero hzero))
      · rw [if_neg hfinite]
        exact .inl rfl

end Numeral

end Json

end RecordFilter
