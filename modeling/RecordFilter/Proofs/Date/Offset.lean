import Mathlib.Data.List.Basic
import RecordFilter.Proofs.Date.Scan
import RecordFilter.Proofs.Result

/-! # Offsets as they are written

An offset is a sign, two digits of hours, a separator that may be missing, and two digits of minutes
(`Written`). The reader takes more than that form allows: besides the two signs the mathematical
minus, any row of colons and white space for the colon, and anything at all behind the minutes
(`scan_eq_ok_iff`). A text has at most one such spelling (`eq_of_text_eq`), so what the reader takes
beyond the form is told apart from what has the form (`read_iff_written`). -/

namespace RecordFilter.Offset

/-! ## Pieces -/

/-- Two decimal digits. -/
structure TwoDigits (t : Text) : Prop where
  length_eq : t.length = 2
  allDigits : AllDigits t

/-- A row of colons and white space. -/
def IsLoose (t : Text) : Prop := ∀ c ∈ t, (c = ':' || isBlank c) = true

/-- Two digits start with a digit. -/
theorem TwoDigits.exists_eq {t : Text} (h : TwoDigits t) :
    ∃ a b, t = [a, b] ∧ a.isDigit = true ∧ b.isDigit = true := by
  obtain ⟨a, b, rfl⟩ := List.length_eq_two.1 h.length_eq
  exact ⟨a, b, rfl, h.allDigits a (by simp), h.allDigits b (by simp)⟩

/-- The two signs and the mathematical minus are read, and plus is the one that is east. -/
theorem sign_eq_ok_iff {t rest : Text} {west : Bool} :
    sign t = .ok (west, rest) ↔
      ∃ c, t = c :: rest ∧ c ∈ ['+', '-', '−'] ∧ west = decide (c ≠ '+') := by
  constructor
  · intro h
    unfold sign at h
    split at h <;> cases h
    next => exact ⟨'+', rfl, by decide, rfl⟩
    next => exact ⟨'-', rfl, by decide, rfl⟩
    next => exact ⟨'−', rfl, by decide, rfl⟩
  · rintro ⟨c, rfl, hc, rfl⟩
    simp only [List.mem_cons, List.not_mem_nil, or_false] at hc
    rcases hc with rfl | rfl | rfl <;> rfl

/-- Two characters are read if there are two. -/
theorem pair_eq_ok_iff {t rest : Text} {a b : Char} :
    pair t = .ok ((a, b), rest) ↔ t = a :: b :: rest := by
  constructor
  · intro h
    unfold pair at h
    split at h <;> cases h
    rfl
  · rintro rfl
    rfl

/-- Hours are two digits. -/
theorem hours_eq_ok_iff {t rest : Text} {n : Nat} :
    hours t = .ok (n, rest) ↔ ∃ digits, TwoDigits digits ∧ t = digits ++ rest ∧
      digitsValue digits = n := by
  constructor
  · intro h
    obtain ⟨⟨a, b⟩, left, hpair, hread⟩ := Scan.bind_eq_ok_iff.1 h
    obtain rfl := pair_eq_ok_iff.1 hpair
    simp only at hread
    split at hread
    next hdigits =>
      cases hread
      obtain ⟨ha, hb⟩ := Bool.and_eq_true_iff.1 hdigits
      exact ⟨[a, b], ⟨rfl, by simp [AllDigits, ha, hb]⟩, rfl, rfl⟩
    next => cases hread
  · rintro ⟨digits, hdigits, rfl, rfl⟩
    obtain ⟨a, b, rfl, ha, hb⟩ := hdigits.exists_eq
    rw [hours, Scan.bind_of_eq_ok (x := pair) rfl]
    simp only [ha, hb, Bool.and_self, if_true]
    rfl

/-- Two digits are below sixty if the first is below six. -/
theorem digitsValue_le_iff {a b : Char} (ha : a.isDigit = true) (hb : b.isDigit = true) :
    digitsValue [a, b] ≤ 59 ↔ a < '6' := by
  obtain ⟨ha0, ha9⟩ := toNat_of_isDigit ha
  obtain ⟨hb0, hb9⟩ := toNat_of_isDigit hb
  rw [show a < '6' ↔ a.toNat < 54 from UInt32.lt_iff_toNat_lt]
  simp only [digitsValue, List.foldl_cons, List.foldl_nil, digitValue]
  omega

/-- Minutes are two digits, below sixty. -/
theorem minutes_eq_ok_iff {t rest : Text} {n : Nat} :
    minutes t = .ok (n, rest) ↔ ∃ digits, TwoDigits digits ∧ digitsValue digits ≤ 59 ∧
      t = digits ++ rest ∧ digitsValue digits = n := by
  constructor
  · intro h
    obtain ⟨⟨a, b⟩, left, hpair, hread⟩ := Scan.bind_eq_ok_iff.1 h
    obtain rfl := pair_eq_ok_iff.1 hpair
    simp only at hread
    split at hread
    next hdigits =>
      obtain ⟨ha, hb⟩ := Bool.and_eq_true_iff.1 hdigits
      split at hread
      next hlt =>
        cases hread
        exact ⟨[a, b], ⟨rfl, by simp [AllDigits, ha, hb]⟩, (digitsValue_le_iff ha hb).2 hlt, rfl,
          rfl⟩
      next => cases hread
    next => cases hread
  · rintro ⟨digits, hdigits, hle, rfl, rfl⟩
    obtain ⟨a, b, rfl, ha, hb⟩ := hdigits.exists_eq
    rw [minutes, Scan.bind_of_eq_ok (x := pair) rfl]
    simp only [ha, hb, Bool.and_self, if_true, (digitsValue_le_iff ha hb).1 hle]
    rfl

/-- Before two digits, the separator is all that is passed over. -/
theorem dropWhile_loose {separator digits : Text} (hseparator : IsLoose separator)
    (hdigits : TwoDigits digits) (rest : Text) :
    (separator ++ (digits ++ rest)).dropWhile (fun c => c = ':' || isBlank c) = digits ++ rest := by
  obtain ⟨a, b, rfl, ha, -⟩ := hdigits.exists_eq
  have hcolon : a ≠ ':' := by
    rintro rfl
    cases ha
  rw [List.dropWhile_append_of_pos hseparator, List.cons_append, List.dropWhile_cons_of_neg]
  simpa [isBlank_of_isDigit ha] using hcolon

/-! ## Spellings -/

/-- The pieces of an offset as it is written, and what stands behind them. -/
structure Written where
  sign : Char
  hours : Text
  separator : Text
  minutes : Text
  rest : Text

namespace Written

variable {v w : Written}

/-- The pieces in a row. -/
def text (w : Written) : Text := w.sign :: (w.hours ++ (w.separator ++ (w.minutes ++ w.rest)))

/-- The number of minutes, whatever the sign. -/
def totalMinutes (w : Written) : Nat := digitsValue w.hours * 60 + digitsValue w.minutes

/-- The number of seconds east of UTC. Every sign but plus is one of an offset to the west. -/
def seconds (w : Written) : Int :=
  if w.sign = '+' then 60 * w.totalMinutes else -(60 * w.totalMinutes)

/-- The pieces are ones that the reader takes. -/
structure IsLenient (w : Written) : Prop where
  sign_mem : w.sign ∈ ['+', '-', '−']
  hours_digits : TwoDigits w.hours
  separator_loose : IsLoose w.separator
  minutes_digits : TwoDigits w.minutes
  minutes_le : digitsValue w.minutes ≤ 59

/-- The pieces are ones of the form `±HH:MM`, of which the colon may be missing. -/
structure IsStrict (w : Written) : Prop where
  sign_mem : w.sign ∈ ['+', '-']
  separator_mem : w.separator ∈ [[], [':']]
  rest_eq : w.rest = []

/-- An offset is less than a day if its minutes are. -/
theorem seconds_bounds_iff (w : Written) :
    (-86400 < w.seconds ∧ w.seconds < 86400) ↔ w.totalMinutes < 1440 := by
  rw [seconds]
  split <;> omega

/-- **A text has at most one spelling.** -/
theorem eq_of_text_eq (hv : v.IsLenient) (hw : w.IsLenient) (h : v.text = w.text) : v = w := by
  obtain ⟨hsign, hpieces⟩ := List.cons.inj h
  have hhours := hv.hours_digits.length_eq.trans hw.hours_digits.length_eq.symm
  obtain ⟨hhours, hpieces⟩ := List.append_inj hpieces hhours
  -- The digits behind the separator end it, so it is as long in both spellings.
  have hbehind : v.minutes ++ v.rest = w.minutes ++ w.rest := by
    rw [← dropWhile_loose hv.separator_loose hv.minutes_digits, hpieces,
      dropWhile_loose hw.separator_loose hw.minutes_digits]
  rw [hbehind] at hpieces
  have hseparator := List.append_cancel_right hpieces
  have hminutes := hv.minutes_digits.length_eq.trans hw.minutes_digits.length_eq.symm
  obtain ⟨hminutes, hrest⟩ := List.append_inj hbehind hminutes
  cases v
  cases w
  simp_all

end Written

/-- **The reader takes a lenient spelling off a text**, and leaves what stands behind it. -/
theorem scan_eq_ok_iff {t rest : Text} {seconds : Int} :
    scan looseSeparator t = .ok (seconds, rest) ↔
      ∃ w : Written, w.IsLenient ∧ w.text = t ∧ w.rest = rest ∧ w.seconds = seconds := by
  constructor
  · intro h
    obtain ⟨west, behindSign, hsign, h⟩ := Scan.bind_eq_ok_iff.1 h
    obtain ⟨c, rfl, hc, rfl⟩ := sign_eq_ok_iff.1 hsign
    obtain ⟨_, behindHours, hhours, h⟩ := Scan.bind_eq_ok_iff.1 h
    obtain ⟨hourDigits, hhourDigits, rfl, rfl⟩ := hours_eq_ok_iff.1 hhours
    obtain ⟨_, behindSeparator, hseparator, h⟩ := Scan.bind_eq_ok_iff.1 h
    obtain rfl : behindHours.dropWhile (fun c => c = ':' || isBlank c) = behindSeparator := by
      cases hseparator
      rfl
    obtain ⟨_, _, hminutes, h⟩ := Scan.bind_eq_ok_iff.1 h
    obtain ⟨minuteDigits, hminuteDigits, hle, hbehind, rfl⟩ := minutes_eq_ok_iff.1 hminutes
    obtain ⟨rfl, rfl⟩ : _ = seconds ∧ _ = rest := by simpa using h
    refine ⟨⟨c, hourDigits, behindHours.takeWhile (fun c => c = ':' || isBlank c), minuteDigits, _⟩,
      ⟨hc, hhourDigits, List.all_eq_true.1 List.all_takeWhile, hminuteDigits, hle⟩, ?_, rfl, ?_⟩
    · rw [Written.text, ← hbehind, List.takeWhile_append_dropWhile]
    · simp only [Written.seconds, Written.totalMinutes]
      congr 1 <;> omega
  · rintro ⟨w, hw, rfl, rfl, rfl⟩
    rw [scan, Written.text, Scan.bind_of_eq_ok (sign_eq_ok_iff.2 ⟨_, rfl, hw.sign_mem, rfl⟩),
      Scan.bind_of_eq_ok (hours_eq_ok_iff.2 ⟨_, hw.hours_digits, rfl, rfl⟩)]
    have hseparator : looseSeparator (w.separator ++ (w.minutes ++ w.rest)) =
        .ok ((), w.minutes ++ w.rest) :=
      congrArg (fun t => Except.ok ((), t))
        (dropWhile_loose hw.separator_loose hw.minutes_digits w.rest)
    rw [Scan.bind_of_eq_ok hseparator,
      Scan.bind_of_eq_ok (minutes_eq_ok_iff.2 ⟨_, hw.minutes_digits, hw.minutes_le, rfl, rfl⟩)]
    simp only [Scan.pure_apply, Written.seconds, Written.totalMinutes, decide_eq_true_eq, ite_not]
    congr 2
    split <;> omega

/-! ## The option -/

/-- The words for UTC, in any ASCII case. -/
def IsUtcWord (t : Text) : Prop := t.map Char.toLower ∈ [['z'], ['u', 't', 'c']]

/-- A text of the form that the option has, and the offset in seconds that it stands for: a word for
UTC, or a sign, two digits of hours, a colon or none, and two digits of minutes, at most 59 minutes
and less than a day in all, with nothing behind them. -/
def IsOption (t : Text) (seconds : Int) : Prop :=
  IsUtcWord t ∧ seconds = 0 ∨
    ∃ w : Written, w.IsLenient ∧ w.totalMinutes < 1440 ∧ w.IsStrict ∧ w.text = t ∧
      w.seconds = seconds

/-- A word for UTC starts with a letter, and no spelling of an offset does. -/
theorem not_isUtcWord_text {w : Written} (hw : w.IsLenient) : ¬IsUtcWord w.text := by
  intro h
  -- The first letters of the words are no signs, in either case.
  have hlower : w.sign.toLower ∈ ['z', 'u'] := by
    rw [IsUtcWord, Written.text, List.map_cons] at h
    simp only [List.mem_cons, List.cons.injEq, List.not_mem_nil, or_false] at h
    rcases h with h | h <;> simp [h.1]
  have hsign := hw.sign_mem
  simp only [List.mem_cons, List.not_mem_nil, or_false] at hsign
  rcases hsign with hsign | hsign | hsign <;> rw [hsign] at hlower <;> revert hlower <;> decide

/-- **The reader takes words for UTC and all that starts with a lenient spelling** of less than a
day. -/
theorem read_eq_ok_iff {t : Text} {seconds : Int} :
    read t = .ok seconds ↔ IsUtcWord t ∧ seconds = 0 ∨
      ∃ w : Written, w.IsLenient ∧ w.totalMinutes < 1440 ∧ w.text = t ∧ w.seconds = seconds := by
  have hword : (Text.isWordIgnoringAsciiCase ['z'] t ||
      Text.isWordIgnoringAsciiCase ['u', 't', 'c'] t) = true ↔ IsUtcWord t := by
    simp [Text.isWordIgnoringAsciiCase, IsUtcWord]
  rw [read]
  by_cases hutc : IsUtcWord t
  · rw [if_pos (hword.2 hutc)]
    constructor
    · intro h
      cases h
      exact .inl ⟨hutc, rfl⟩
    · rintro (⟨-, rfl⟩ | ⟨w, hw, -, rfl, -⟩)
      · rfl
      · exact absurd hutc (not_isUtcWord_text hw)
  · rw [if_neg (mt hword.1 hutc)]
    constructor
    · intro h
      obtain ⟨⟨offset, rest⟩, hscan, hcheck⟩ := bind_eq_ok_iff.1 h
      obtain ⟨w, hw, htext, -, rfl⟩ := scan_eq_ok_iff.1 hscan
      simp only [check] at hcheck
      split at hcheck
      next hday =>
        cases hcheck
        exact .inr ⟨w, hw, w.seconds_bounds_iff.1 hday, htext, rfl⟩
      next => cases hcheck
    · rintro (⟨hword, -⟩ | ⟨w, hw, hday, htext, rfl⟩)
      · exact absurd hword hutc
      · rw [scan_eq_ok_iff.2 ⟨w, hw, htext, rfl, rfl⟩, ok_bind]
        exact if_pos (w.seconds_bounds_iff.2 hday)

/-- A text with a lenient spelling has the form of the option if that spelling has it. -/
theorem isOption_text_iff {w : Written} (hw : w.IsLenient) {seconds : Int} :
    IsOption w.text seconds ↔ w.totalMinutes < 1440 ∧ w.IsStrict ∧ w.seconds = seconds := by
  constructor
  · rintro (⟨hutc, -⟩ | ⟨v, hv, hday, hstrict, htext, hseconds⟩)
    · exact absurd hutc (not_isUtcWord_text hw)
    · obtain rfl := Written.eq_of_text_eq hv hw htext
      exact ⟨hday, hstrict, hseconds⟩
  · rintro ⟨hday, hstrict, hseconds⟩
    exact .inr ⟨w, hw, hday, hstrict, rfl, hseconds⟩

/-- **What the offset option takes.** A text is taken as an offset exactly if it is a word for UTC,
which stands for 0, or if it starts with a sign (the mathematical minus is one too), two digits of
hours, any row of colons and white space and two digits of minutes, at most 59 minutes and less than
a day in all; it stands for the sign applied to the seconds of these hours and minutes, and what
follows the minutes does not matter. The texts of the documented form are those among these that are
spelt with plus or minus, with a colon or no separator, and with nothing behind the minutes, and
they are taken as the offset that they have in that form. -/
theorem read_iff_written (t : Text) (seconds : Int) :
    (read t = .ok seconds ↔ IsUtcWord t ∧ seconds = 0 ∨
      ∃ w : Written, w.IsLenient ∧ w.totalMinutes < 1440 ∧ w.text = t ∧ w.seconds = seconds) ∧
    (IsOption t seconds ↔ read t = .ok seconds ∧
      ∀ w : Written, w.IsLenient → w.text = t → w.IsStrict) := by
  refine ⟨read_eq_ok_iff, ?_⟩
  rw [read_eq_ok_iff]
  constructor
  · rintro (⟨hutc, rfl⟩ | ⟨w, hw, hday, hstrict, rfl, rfl⟩)
    · refine ⟨.inl ⟨hutc, rfl⟩, ?_⟩
      rintro w hw rfl
      exact absurd hutc (not_isUtcWord_text hw)
    · refine ⟨.inr ⟨w, hw, hday, rfl, rfl⟩, fun v hv htext => ?_⟩
      rwa [Written.eq_of_text_eq hv hw htext]
  · rintro ⟨⟨hutc, rfl⟩ | ⟨w, hw, hday, rfl, rfl⟩, hstrict⟩
    · exact .inl ⟨hutc, rfl⟩
    · exact (isOption_text_iff hw).2 ⟨hday, hstrict w hw rfl, rfl⟩

/-- A letter behind the minutes, more than a colon between hours and minutes, and the mathematical
minus are taken, and none of them is in the documented form. -/
theorem read_beyond_form :
    (read ['+', '0', '1', ':', '0', '0', 'x'] = .ok 3600 ∧
      ∀ seconds, ¬IsOption ['+', '0', '1', ':', '0', '0', 'x'] seconds) ∧
    (read ['+', '0', '1', ':', ' ', ':', '0', '0'] = .ok 3600 ∧
      ∀ seconds, ¬IsOption ['+', '0', '1', ':', ' ', ':', '0', '0'] seconds) ∧
    (read ['−', '0', '1', ':', '0', '0'] = .ok (-3600) ∧
      ∀ seconds, ¬IsOption ['−', '0', '1', ':', '0', '0'] seconds) := by
  have htaken : ∀ {w : Written}, w.IsLenient → w.totalMinutes < 1440 → ¬w.IsStrict →
      read w.text = .ok w.seconds ∧ ∀ seconds, ¬IsOption w.text seconds :=
    fun hw hday hstrict => ⟨read_eq_ok_iff.2 (.inr ⟨_, hw, hday, rfl, rfl⟩),
      fun seconds h => hstrict ((isOption_text_iff hw).1 h).2.1⟩
  have hdigits : TwoDigits ['0', '1'] ∧ TwoDigits ['0', '0'] := by
    constructor <;> exact ⟨rfl, by simp [AllDigits]⟩
  have hzero : digitsValue ['0', '0'] ≤ 59 := by decide
  refine ⟨?_, ?_, ?_⟩
  · exact htaken (w := ⟨'+', ['0', '1'], [':'], ['0', '0'], ['x']⟩)
      ⟨by decide, hdigits.1, by simp [IsLoose], hdigits.2, hzero⟩ (by decide)
      fun h => absurd h.rest_eq (by decide)
  · exact htaken (w := ⟨'+', ['0', '1'], [':', ' ', ':'], ['0', '0'], []⟩)
      ⟨by decide, hdigits.1, by simp [IsLoose, isBlank], hdigits.2, hzero⟩ (by decide)
      fun h => absurd h.separator_mem (by decide)
  · exact htaken (w := ⟨'−', ['0', '1'], [':'], ['0', '0'], []⟩)
      ⟨by decide, hdigits.1, by simp [IsLoose], hdigits.2, hzero⟩ (by decide)
      fun h => absurd h.sign_mem (by decide)

end RecordFilter.Offset
