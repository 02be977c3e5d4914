import RecordFilter.Json.Printer
import RecordFilter.Proofs.Result
import RecordFilter.Text.Blank

/-! # Integers as digits

An integer is written with its decimal digits, as many as it takes (`natText`, `intText`) or as many
as a field is wide (`paddedText`). Digits written in either way are read back as the number
(`digitsValue_natText`, `digitsValue_paddedText`), and so is a signed 64-bit integer with its sign
(`read_intText`). -/

namespace RecordFilter

/-! ## Single digits -/

/-- A digit is read back. -/
theorem digitValue_digitChar {n : Nat} (h : n < 10) : digitValue (Nat.digitChar n) = n := by
  rw [digitValue, Nat.toNat_digitChar_of_lt_ten h]
  omega

/-- Digits below ten are decimal digits. -/
theorem isDigit_digitChar_mod (n : Nat) : (Nat.digitChar (n % 10)).isDigit = true := by
  rw [Nat.isDigit_digitChar]
  exact decide_eq_true (Nat.mod_lt n (by decide))

/-- A digit has a code below that of the letters. -/
theorem toNat_of_isDigit {c : Char} (h : c.isDigit = true) : 0x30 ≤ c.toNat ∧ c.toNat ≤ 0x39 := by
  rw [Char.isDigit, Bool.and_eq_true, decide_eq_true_eq, decide_eq_true_eq] at h
  exact ⟨UInt32.le_iff_toNat_le.1 h.1, UInt32.le_iff_toNat_le.1 h.2⟩

/-- A decimal digit is no white space. -/
theorem isBlank_of_isDigit {c : Char} (h : c.isDigit = true) : isBlank c = false := by
  have hc := toNat_of_isDigit h
  simp only [isBlank, Bool.or_eq_false_iff, Bool.and_eq_false_iff, decide_eq_false_iff_not,
    beq_eq_false_iff_ne]
  omega

/-! ## Rows of digits -/

/-- A row of decimal digits. -/
def AllDigits (t : Text) : Prop := ∀ c ∈ t, c.isDigit = true

/-- A text that does not start with a decimal digit. -/
def StartsWithoutDigit (t : Text) : Prop := ∀ c ∈ t.head?, c.isDigit = false

/-- The last digit counts once, and what is before it ten times. -/
theorem digitsValue_concat (t : Text) (c : Char) :
    digitsValue (t ++ [c]) = digitsValue t * 10 + digitValue c := by
  rw [digitsValue, List.foldl_append]
  rfl

/-- The digits at the start of a text are those up to its first other character. -/
theorem spanDigits_append {digits rest : Text} (hdigits : AllDigits digits)
    (hrest : StartsWithoutDigit rest) : spanDigits (digits ++ rest) = (digits, rest) := by
  have htake : rest.takeWhile Char.isDigit = [] := by
    cases rest with
    | nil => rfl
    | cons c rest => exact List.takeWhile_cons_of_neg (by simp [hrest c rfl])
  have hdrop : rest.dropWhile Char.isDigit = rest := by
    cases rest with
    | nil => rfl
    | cons c rest => exact List.dropWhile_cons_of_neg (by simp [hrest c rfl])
  rw [spanDigits, List.takeWhile_append_of_pos hdigits, List.dropWhile_append_of_pos hdigits, htake,
    hdrop, List.append_nil]

/-! ## Digits of a given number -/

/-- The last digits of a number, so many of them, with zeros in front of a number that has fewer. -/
def paddedText : Nat → Nat → Text
  | 0, _ => []
  | width + 1, n => paddedText width (n / 10) ++ [Nat.digitChar (n % 10)]

@[simp] theorem length_paddedText (width n : Nat) : (paddedText width n).length = width := by
  induction width generalizing n with
  | zero => rfl
  | succ width ih => rw [paddedText, List.length_append, ih, List.length_singleton]

theorem allDigits_paddedText (width n : Nat) : AllDigits (paddedText width n) := by
  induction width generalizing n with
  | zero => exact fun c hc => absurd hc List.not_mem_nil
  | succ width ih =>
    intro c hc
    rcases List.mem_append.1 hc with hc | hc
    · exact ih (n / 10) c hc
    · rw [List.mem_singleton.1 hc]
      exact isDigit_digitChar_mod n

/-- **Padded digits are read back**, if the number has no more digits than that. -/
theorem digitsValue_paddedText {width n : Nat} (h : n < tenTo width) :
    digitsValue (paddedText width n) = n := by
  induction width generalizing n with
  | zero =>
    rw [tenTo_zero] at h
    rw [paddedText, Nat.lt_one_iff.1 h]
    rfl
  | succ width ih =>
    rw [tenTo_succ] at h
    have hlast : n % 10 < 10 := Nat.mod_lt n (by decide)
    rw [paddedText, digitsValue_concat, ih (Nat.div_lt_of_lt_mul (by omega)),
      digitValue_digitChar hlast]
    omega

theorem allDigits_natText (n : Nat) : AllDigits (natText n) :=
  fun _ hc => Nat.isDigit_of_mem_toDigits (by decide) (Nat.le_refl 10) hc

theorem natText_ne_nil (n : Nat) : natText n ≠ [] := Nat.toDigits_ne_nil

/-- **The digits of a number are read back.** -/
@[simp] theorem digitsValue_natText (n : Nat) : digitsValue (natText n) = n := by
  have hfold : digitsValue (natText n) = Nat.ofDigitChars 10 (natText n) 0 := by
    simp only [digitsValue, digitValue, Nat.ofDigitChars_eq_foldl, Nat.mul_comm]
    rfl
  rw [hfold]
  exact Nat.ofDigitChars_toDigits (by decide) (Nat.le_refl 10)

/-- The digits of a number other than zero do not start with a zero. -/
theorem exists_natText_eq_cons {n : Nat} (h : n ≠ 0) :
    ∃ c t, natText n = c :: t ∧ c ≠ '0' := by
  induction n using Nat.strongRecOn with
  | ind n ih =>
    rcases Nat.lt_or_ge n 10 with hlt | hge
    · refine ⟨Nat.digitChar n, [], Nat.toDigits_of_lt_base hlt, fun hzero => h ?_⟩
      have hvalue := digitValue_digitChar hlt
      rw [hzero] at hvalue
      exact hvalue.symm
    · obtain ⟨c, t, ht, hc⟩ := ih (n / 10) (by omega) (by omega)
      refine ⟨c, t ++ [Nat.digitChar (n % 10)], ?_, hc⟩
      rw [natText, Nat.toDigits_of_base_le (by decide) hge, ← natText, ht, List.cons_append]

/-! ## Signed integers -/

/-- The sign of a text that starts with a digit is not written. -/
theorem spanSign_of_isDigit {c : Char} (h : c.isDigit = true) (t : Text) :
    spanSign (c :: t) = (false, c :: t) := by
  unfold spanSign
  split
  next heq => simp only [List.cons.injEq] at heq; rw [heq.1] at h; cases h
  next heq => simp only [List.cons.injEq] at heq; rw [heq.1] at h; cases h
  next => rfl

/-- The sign of an integer is told apart from its digits. -/
theorem spanSign_intText (n : Int) :
    spanSign (intText n) = (decide (n < 0), natText n.natAbs) := by
  rw [intText]
  split
  next h => rw [decide_eq_true h]; rfl
  next h =>
    obtain ⟨c, t, ht⟩ := List.exists_cons_of_ne_nil (natText_ne_nil n.natAbs)
    have hc : c.isDigit = true :=
      allDigits_natText n.natAbs c (by rw [ht]; exact List.mem_cons_self)
    rw [decide_eq_false h, ht, spanSign_of_isDigit hc]

namespace SignedInteger

/-- Digits in front only make a number greater. -/
theorem le_foldl_digits (n : Nat) (t : Text) :
    n ≤ t.foldl (fun n c => n * 10 + digitValue c) n := by
  induction t generalizing n with
  | nil => exact Nat.le_refl n
  | cons c t ih => exact Nat.le_trans (by omega) (ih (n * 10 + digitValue c))

/-- Digits are taken as long as the number stays within the bound. -/
theorem readDigits_eq_ok {negative : Bool} {n : Nat} {t : Text} (hdigits : AllDigits t)
    (hbound : t.foldl (fun n c => n * 10 + digitValue c) n ≤ bound negative) :
    readDigits negative n t = .ok (t.foldl (fun n c => n * 10 + digitValue c) n) := by
  induction t generalizing n with
  | nil => rfl
  | cons c t ih =>
    have hc : c.isDigit = true := hdigits c List.mem_cons_self
    have hle := Nat.le_trans (le_foldl_digits (n * 10 + digitValue c) t) hbound
    rw [readDigits, if_pos hc, if_neg (Nat.not_lt.2 hle)]
    exact ih (fun d hd => hdigits d (List.mem_cons_of_mem c hd)) hbound

/-- **A signed 64-bit integer is read back** from its decimal text. -/
theorem read_intText {n : Int} (h : fitsSigned n = true) : read (intText n) = .ok n := by
  have hne : intText n ≠ [] := by
    rw [intText]
    split
    · exact List.cons_ne_nil _ _
    · exact natText_ne_nil _
  have hbound : n.natAbs ≤ bound (decide (n < 0)) := by
    rw [fitsSigned_iff] at h
    rw [bound]
    split <;> simp_all <;> omega
  have hdigits : readDigits (decide (n < 0)) 0 (natText n.natAbs) = .ok n.natAbs := by
    have hvalue := digitsValue_natText n.natAbs
    rw [digitsValue] at hvalue
    rw [readDigits_eq_ok (allDigits_natText _) (by rwa [hvalue]), hvalue]
  have hnatural : (natText n.natAbs).isEmpty = false := by
    simpa using natText_ne_nil n.natAbs
  rw [read, if_neg (by simpa using hne)]
  simp only [spanSign_intText, hnatural, hdigits, pure_eq_ok, ok_bind, Bool.false_eq_true, if_false]
  by_cases hn : n < 0
  · rw [decide_eq_true hn, if_pos rfl]
    congr 1
    omega
  · rw [decide_eq_false hn, if_neg Bool.false_ne_true]
    congr 1
    omega

end SignedInteger

end RecordFilter
