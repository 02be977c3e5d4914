import RecordFilter.Proofs.Number.Digits
import RecordFilter.Proofs.Number.Nearest

/-! # Integers as binary64 numbers

An integer is compared by the place in the order of the binary64 number nearest to it (`intKey`). A
greater integer never has a lower place, and up to `2 ^ 53` on either side of zero, where every
integer is the value of some number, it has a higher one (`intKey_strictMono`). The decimal text
of an integer is read as a number with the same place (`IsIntegerText.exists_read`). -/

namespace RecordFilter

namespace Magnitude

/-! ## Natural numbers -/

/-- A natural number is rounded to the nearest magnitude. -/
theorem isNearest_ofNat (n : Nat) : IsNearest n (ofNat n) := by
  have hround := isNearest_round n one_ne_zero
  rwa [Nat.cast_one, div_one] at hround

/-- **A greater natural number is not rounded to a lower magnitude.** -/
theorem code_ofNat_mono : Monotone fun n => (ofNat n).code :=
  fun m n h => (isNearest_ofNat m).code_le (isNearest_ofNat n) (Nat.cast_le.2 h)

/-- A natural number up to `2 ^ 53` has as many units as a normal number after some doublings. -/
theorem exists_doublings {n : Nat} (hn : n ≠ 0) (h : n ≤ 2 ^ 53) :
    ∃ j ≤ 52, hiddenBit ≤ n * 2 ^ j ∧ n * 2 ^ j ≤ 2 * hiddenBit := by
  have hstart := Nat.log2_self_le hn
  have hend := Nat.lt_log2_self (n := n)
  rcases Nat.lt_or_ge n.log2 53 with hlog | hlog
  · have hpow : 2 ^ n.log2 * 2 ^ (52 - n.log2) = hiddenBit := by
      rw [← Nat.pow_add, Nat.add_sub_cancel' (by omega)]
      rfl
    rw [Nat.pow_succ] at hend
    exact ⟨52 - n.log2, Nat.sub_le .., by nlinarith, by nlinarith⟩
  · -- Only `2 ^ 53` itself is left, which is the end of its range.
    have hfull : 2 ^ 53 ≤ 2 ^ n.log2 := Nat.pow_le_pow_right (by decide) hlog
    simp only [hiddenBit]
    exact ⟨0, by omega, by omega, by omega⟩

/-- The natural numbers up to `2 ^ 53` are values of magnitudes. -/
theorem exists_toRat_eq {n : Nat} (h : n ≤ 2 ^ 53) : ∃ m : Magnitude, m.toRat = n := by
  rcases eq_or_ne n 0 with rfl | hn
  · exact ⟨zero, by simp⟩
  obtain ⟨j, hj, hlow, hhigh⟩ := exists_doublings hn h
  have hcode : n * 2 ^ j + (1074 - j) * hiddenBit ≤ infinityCode := by
    simp only [hiddenBit, infinityCode] at *
    omega
  refine ⟨⟨_, hcode⟩, ?_⟩
  -- The doublings are undone by the unit of the range.
  have hexponent : ((1074 - j : Nat) - 1074 : Int) = -j := by omega
  rw [toRat_eq_codeValue, codeValue_units hhigh (.inr hlow), hexponent, zpow_neg, zpow_natCast]
  push_cast
  field_simp

/-- **The natural numbers up to `2 ^ 53` are not changed by rounding.** -/
theorem toRat_ofNat {n : Nat} (h : n ≤ 2 ^ 53) : (ofNat n).toRat = n := by
  obtain ⟨m, hm⟩ := exists_toRat_eq h
  have hnearest : IsNearest n m := hm ▸ isNearest_toRat m
  rw [(isNearest_ofNat n).unique hnearest, hm]

/-- Two natural numbers up to `2 ^ 53` with the same code are the same. -/
theorem eq_of_code_ofNat_eq {m n : Nat} (hm : m ≤ 2 ^ 53) (hn : n ≤ 2 ^ 53)
    (h : (ofNat m).code = (ofNat n).code) : m = n := by
  have hvalue : (ofNat m).toRat = (ofNat n).toRat := by
    rw [toRat_eq_codeValue, toRat_eq_codeValue, h]
  rw [toRat_ofNat hm, toRat_ofNat hn] at hvalue
  exact_mod_cast hvalue

@[simp] theorem code_ofNat_zero : (ofNat 0).code = 0 := by
  rw [ofNat, round_zero]
  rfl

end Magnitude

namespace Binary64

/-! ## Integers -/

/-- The place in the order of the number nearest to an integer. -/
def intKey (n : Int) : Int :=
  if n < 0 then -(Magnitude.ofNat n.natAbs).code else (Magnitude.ofNat n.natAbs).code

@[simp] theorem key?_ofInt (n : Int) : (ofInt n).key? = some (intKey n) := by
  simp [ofInt, key?, intKey]

theorem intKey_natCast (n : Nat) : intKey n = (Magnitude.ofNat n).code := by
  simp [intKey]

theorem natAbs_intKey (n : Int) : (intKey n).natAbs = (Magnitude.ofNat n.natAbs).code := by
  unfold intKey
  split <;> simp

theorem intKey_neg_natCast (n : Nat) : intKey (-n) = -(Magnitude.ofNat n).code := by
  cases n with
  | zero => simp [intKey]
  | succ n => rw [intKey, if_pos (by omega), Int.natAbs_neg, Int.natAbs_natCast]

/-- **A greater integer has no lower place.** -/
theorem intKey_mono {m n : Int} (h : m ≤ n) : intKey m ≤ intKey n := by
  unfold intKey
  split
  next hm =>
    split
    -- Of two integers below zero, the greater has the lower magnitude.
    next hn =>
      have hle : (Magnitude.ofNat n.natAbs).code ≤ (Magnitude.ofNat m.natAbs).code :=
        Magnitude.code_ofNat_mono (by omega)
      omega
    next => omega
  next hm =>
    have hle : (Magnitude.ofNat m.natAbs).code ≤ (Magnitude.ofNat n.natAbs).code :=
      Magnitude.code_ofNat_mono (by omega)
    rw [if_neg (by omega)]
    omega

/-- Of two integers in different places, the one in the higher place is greater. -/
theorem lt_of_intKey_lt {m n : Int} (h : intKey m < intKey n) : m < n :=
  lt_of_not_ge fun hle => absurd (intKey_mono hle) (not_le_of_gt h)

/-- **Up to `2 ^ 53` a greater integer has a higher place.** -/
theorem intKey_strictMono {m n : Int} (hm : -2 ^ 53 ≤ m) (hn : n ≤ 2 ^ 53) (h : m < n) :
    intKey m < intKey n := by
  refine lt_of_le_of_ne (intKey_mono h.le) fun heq => ?_
  have habs : m.natAbs = n.natAbs := by
    have hcode := congrArg Int.natAbs heq
    rw [natAbs_intKey, natAbs_intKey] at hcode
    exact Magnitude.eq_of_code_ofNat_eq (by omega) (by omega) hcode
  -- The two are a number and its opposite, whose places are opposite as well.
  obtain rfl : m = -n := by omega
  obtain ⟨n, rfl⟩ := Int.eq_ofNat_of_zero_le (show 0 ≤ n by omega)
  rw [intKey_neg_natCast, intKey_natCast] at heq
  have hzero : n = 0 := by
    apply Magnitude.eq_of_code_ofNat_eq (by omega) (by decide)
    rw [Magnitude.code_ofNat_zero]
    omega
  omega

/-- The first integer that is not the value of a number has the place of the one before it. -/
example : intKey 0x20000000000001 = intKey 0x20000000000000 := by decide

end Binary64

/-! ## Decimal texts -/

namespace Decimal

/-- A row of digits is a decimal number without fraction and exponent. -/
theorem read?_digits {digits : Text} (hne : digits ≠ []) (h : AllDigits digits) :
    read? digits = some ⟨digitsValue digits, 0⟩ := by
  have hspan : spanDigits digits = (digits, []) := by
    have happend : spanDigits (digits ++ []) = (digits, []) :=
      spanDigits_append h (by simp [StartsWithoutDigit])
    rwa [List.append_nil] at happend
  rw [read?, hspan]
  simp [fractionPart, exponentPart?, hne]

/-- A decimal number without exponent is rounded like the natural number that it is. -/
theorem magnitude_eq_ofNat (n : Nat) : magnitude ⟨n, 0⟩ = Magnitude.ofNat n := by
  rw [magnitude, Magnitude.ofNat]
  rcases eq_or_ne n 0 with rfl | hn
  · simp
  · rw [if_neg hn, if_neg (by simp), if_neg (by simp; omega)]
    simp

end Decimal

namespace Binary64

/-- A text that starts with a digit is no word that starts otherwise. -/
theorem isWordIgnoringAsciiCase_eq_false {c d : Char} (hc : c.isDigit = true)
    (hd : d.isDigit = false) (word t : Text) :
    Text.isWordIgnoringAsciiCase (d :: word) (c :: t) = false := by
  have hlower : c.toLower = c :=
    dif_neg fun hcode => absurd (UInt32.le_iff_toNat_le.1 hcode.1)
      (Nat.not_le.2 (Nat.lt_of_le_of_lt (toNat_of_isDigit hc).2 (by decide)))
  have hne : c ≠ d := by
    rintro rfl
    simp [hc] at hd
  rw [Text.isWordIgnoringAsciiCase, List.map_cons, hlower]
  simp [hne]

/-- **Digits are read as the number nearest to what they stand for**, with the sign in front. -/
theorem read_digits {negative : Bool} {digits t : Text} (hne : digits ≠ []) (h : AllDigits digits)
    (hsign : spanSign t = (negative, digits)) :
    read t = .ok (signed negative (.ofNat (digitsValue digits))) := by
  obtain ⟨c, rest, rfl⟩ := List.exists_cons_of_ne_nil hne
  have hc : c.isDigit = true := h c List.mem_cons_self
  have ht : t.isEmpty = false := by
    cases t with
    | nil => cases hsign
    | cons => rfl
  have hinf : ∀ word, Text.isWordIgnoringAsciiCase ('i' :: word) (c :: rest) = false :=
    fun word => isWordIgnoringAsciiCase_eq_false hc rfl word rest
  have hnan : ∀ word, Text.isWordIgnoringAsciiCase ('n' :: word) (c :: rest) = false :=
    fun word => isWordIgnoringAsciiCase_eq_false hc rfl word rest
  rw [read, ht, if_neg Bool.false_ne_true, hsign]
  simp only [hinf, hnan, Decimal.read?_digits hne h, Decimal.magnitude_eq_ofNat]
  rfl

end Binary64

/-- The decimal texts of an integer: at least one digit, behind a minus sign for the opposite of
what the digits stand for. -/
inductive IsIntegerText : Text → Int → Prop where
  | natural {digits : Text} (hne : digits ≠ []) (h : AllDigits digits) :
      IsIntegerText digits (digitsValue digits)
  | opposite {digits : Text} (hne : digits ≠ []) (h : AllDigits digits) :
      IsIntegerText ('-' :: digits) (-digitsValue digits)

/-- The text that is written for an integer is one of its decimal texts. -/
theorem isIntegerText_intText (n : Int) : IsIntegerText (intText n) n := by
  have hne := natText_ne_nil n.natAbs
  have hdigits := allDigits_natText n.natAbs
  have hvalue : digitsValue (natText n.natAbs) = n.natAbs := digitsValue_natText n.natAbs
  rw [intText]
  split
  next h =>
    have htext := IsIntegerText.opposite hne hdigits
    rwa [hvalue, show (-(n.natAbs : Int)) = n by omega] at htext
  next h =>
    have htext := IsIntegerText.natural hne hdigits
    rwa [hvalue, show (n.natAbs : Int) = n by omega] at htext

namespace IsIntegerText

variable {t : Text} {n : Int}

/-- A decimal text has no characters but digits and a minus sign. -/
theorem notMem (h : IsIntegerText t n) {c : Char} (hminus : c ≠ '-') (hdigit : c.isDigit = false) :
    c ∉ t := by
  intro hc
  cases h with
  | natural _ h => simp [h c hc] at hdigit
  | opposite _ h =>
    rcases List.mem_cons.1 hc with rfl | hc
    · exact hminus rfl
    · simp [h c hc] at hdigit

/-- **The decimal text of an integer is read as a number in the place of the integer.** -/
theorem exists_read (h : IsIntegerText t n) :
    ∃ x, Binary64.read t = .ok x ∧ x.key? = some (Binary64.intKey n) := by
  cases h with
  | @natural digits hne h =>
    obtain ⟨c, rest, rfl⟩ := List.exists_cons_of_ne_nil hne
    have hsign := spanSign_of_isDigit (h c List.mem_cons_self) rest
    exact ⟨_, Binary64.read_digits hne h hsign, by simp [Binary64.key?, Binary64.intKey_natCast]⟩
  | @opposite digits hne h =>
    refine ⟨_, Binary64.read_digits hne h rfl, ?_⟩
    simp [Binary64.key?, Binary64.intKey_neg_natCast]

end IsIntegerText

end RecordFilter
