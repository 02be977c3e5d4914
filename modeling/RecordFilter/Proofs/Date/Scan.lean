import RecordFilter.Date.Literal
import RecordFilter.Proofs.Number.Digits

/-! # Running scanners

A chain of scanners is run one after the other (`bind_of_eq_ok`), and a chain that has come to its
end is taken apart in the same way (`bind_eq_ok_iff`). Digits that fill the width of a field are
read as their number, whatever follows them, so that dates, times and offsets written with padded
digits are read back. -/

namespace RecordFilter

namespace Scan

/-! ## Chains -/

section Chain

variable {α β : Type} {x : Scan α} {f : α → Scan β} {t rest : Text} {a : α} {b : β}

@[simp] theorem pure_apply (a : α) (t : Text) : (pure a : Scan α) t = .ok (a, t) := rfl

/-- A chain goes on with what its first scanner leaves. -/
theorem bind_of_eq_ok (h : x t = .ok (a, rest)) : (x >>= f) t = f a rest := by
  show (x t >>= fun p => f p.1 p.2) = f a rest
  rw [h]
  rfl

/-- A chain succeeds if its first scanner does and then the rest. -/
theorem bind_eq_ok_iff :
    (x >>= f) t = .ok (b, rest) ↔ ∃ a left, x t = .ok (a, left) ∧ f a left = .ok (b, rest) := by
  show (x t >>= fun p => f p.1 p.2) = _ ↔ _
  rw [RecordFilter.bind_eq_ok_iff, Prod.exists]

/-- A scanner that uses up the text has read it completely. -/
theorem complete_of_eq_ok (h : x t = .ok (a, [])) : x.complete t = .ok a := by
  rw [complete, h]
  rfl

/-- A text is read completely if the scanner uses it up. -/
theorem complete_eq_ok_iff : x.complete t = .ok a ↔ x t = .ok (a, []) := by
  refine ⟨fun h => ?_, complete_of_eq_ok⟩
  obtain ⟨⟨a', rest⟩, hscan, hrest⟩ := RecordFilter.bind_eq_ok_iff.1 h
  cases rest with
  | nil =>
    obtain rfl : a' = a := by simpa using hrest
    exact hscan
  | cons c rest => cases hrest

end Chain

/-! ## Characters and numbers -/

/-- A character is read off the text that starts with it. -/
theorem literal_cons (c : Char) (t : Text) : literal c (c :: t) = .ok ((), t) := if_pos rfl

/-- Nothing is passed over before a digit. -/
theorem blanks_of_isDigit {c : Char} (h : c.isDigit = true) (t : Text) :
    blanks (c :: t) = .ok ((), c :: t) := by
  show Except.ok ((), Text.trimStart (c :: t)) = _
  rw [Text.trimStart_cons, if_neg (by simp [isBlank_of_isDigit h])]

/-- The digits of a field of a given width start with a digit. -/
theorem exists_paddedText_eq_cons (width n : Nat) :
    ∃ c t, paddedText (width + 1) n = c :: t ∧ c.isDigit = true := by
  have hdigits := allDigits_paddedText (width + 1) n
  have hlength := length_paddedText (width + 1) n
  cases h : paddedText (width + 1) n with
  | nil =>
    rw [h] at hlength
    cases hlength
  | cons c t =>
    rw [h] at hdigits
    exact ⟨c, t, rfl, hdigits c List.mem_cons_self⟩

/-- Nothing is passed over before digits. -/
theorem blanks_paddedText (width n : Nat) (rest : Text) :
    blanks (paddedText (width + 1) n ++ rest) = .ok ((), paddedText (width + 1) n ++ rest) := by
  obtain ⟨c, t, ht, hc⟩ := exists_paddedText_eq_cons width n
  rw [ht, List.cons_append, blanks_of_isDigit hc]

/-- **Digits that fill a field are read as their number**, even if more digits follow. -/
theorem number_paddedText {width n : Nat} (h : n < tenTo (width + 1)) (rest : Text) :
    number (some (width + 1)) (paddedText (width + 1) n ++ rest) = .ok (n, rest) := by
  have hvalue := digitsValue_paddedText h
  have hdigits := allDigits_paddedText (width + 1) n
  have hlength := length_paddedText (width + 1) n
  have htake : ((paddedText (width + 1) n ++ rest).takeWhile Char.isDigit).take (width + 1) =
      paddedText (width + 1) n := by
    rw [List.takeWhile_append_of_pos hdigits,
      List.take_append_of_le_length (Nat.le_of_eq hlength.symm),
      List.take_of_length_le (Nat.le_of_eq hlength)]
  have hdrop : (paddedText (width + 1) n ++ rest).drop (width + 1) = rest := by
    rw [List.drop_append_of_le_length (Nat.le_of_eq hlength.symm),
      List.drop_of_length_le (Nat.le_of_eq hlength), List.nil_append]
  obtain ⟨c, t, ht, hc⟩ := exists_paddedText_eq_cons width n
  rw [ht, List.cons_append] at htake hdrop ⊢
  rw [number]
  simp only [hc, if_true, Option.elim_some, htake, ← ht, hvalue, hlength]
  rw [hdrop]
  rfl

/-- A field of two digits is read as its number. -/
theorem field_paddedText {low high n : Nat} (hlow : low ≤ n) (hhigh : n ≤ high) (h : n < 100)
    (rest : Text) : field low high (paddedText 2 n ++ rest) = .ok (n, rest) := by
  rw [field, bind_of_eq_ok (blanks_paddedText 1 n rest), bind_of_eq_ok (number_paddedText h rest),
    if_pos ⟨hlow, hhigh⟩, pure_apply]

/-- A year of four digits is read as its number. -/
theorem year_paddedText {n : Nat} (h : n < 10000) (rest : Text) :
    year (paddedText 4 n ++ rest) = .ok ((n : Int), rest) := by
  have hnumber := number_paddedText (show n < tenTo 4 from h) rest
  rw [year, bind_of_eq_ok (blanks_paddedText 3 n rest)]
  obtain ⟨c, t, ht, hc⟩ := exists_paddedText_eq_cons 3 n
  rw [ht, List.cons_append] at hnumber ⊢
  rw [bind_of_eq_ok (x := get) rfl]
  -- A year that starts with a digit has no sign.
  refine (congrFun (g := number (some 4) >>= fun n => pure (n : Int)) ?_ _).trans ?_
  · split
    next heq => simp only [List.cons.injEq] at heq; rw [heq.1] at hc; cases hc
    next heq => simp only [List.cons.injEq] at heq; rw [heq.1] at hc; cases hc
    next => rfl
  · rw [bind_of_eq_ok hnumber, pure_apply]

end Scan

/-! ## Dates and times -/

/-- A date in digits, `2020-01-01`. -/
def CivilDate.text (d : CivilDate) : Text :=
  paddedText 4 d.year.toNat ++ '-' :: (paddedText 2 d.month ++ '-' :: paddedText 2 d.day)

/-- A time of day in digits, `12:30:00`. -/
def ClockTime.text (c : ClockTime) : Text :=
  paddedText 2 c.hour ++ ':' :: (paddedText 2 c.minute ++ ':' :: paddedText 2 c.second)

/-- The fields of a date lie within the bounds that they are read with, and its year has four
digits. -/
structure CivilDate.HasDigits (d : CivilDate) : Prop where
  year_nonneg : 0 ≤ d.year
  year_le : d.year ≤ 9999
  month_pos : 1 ≤ d.month
  month_le : d.month ≤ 12
  day_pos : 1 ≤ d.day
  day_le : d.day ≤ 31

/-- The fields of a time of day lie within their bounds. -/
structure ClockTime.InBounds (c : ClockTime) : Prop where
  hour_le : c.hour ≤ 23
  minute_le : c.minute ≤ 59
  second_le : c.second ≤ 59

namespace Scan

/-- **A date in digits is read back.** -/
theorem date_text {d : CivilDate} (h : d.HasDigits) (rest : Text) :
    date (d.text ++ rest) = .ok (d, rest) := by
  have hnonneg := h.year_nonneg
  have hyear := h.year_le
  have hmonth := h.month_le
  have hday := h.day_le
  rw [CivilDate.text, List.append_assoc, List.cons_append, List.append_assoc, List.cons_append,
    date, bind_of_eq_ok (year_paddedText (by omega) _), bind_of_eq_ok (literal_cons '-' _),
    bind_of_eq_ok (field_paddedText h.month_pos hmonth (by omega) _),
    bind_of_eq_ok (literal_cons '-' _),
    bind_of_eq_ok (field_paddedText h.day_pos hday (by omega) _), pure_apply,
    Int.toNat_of_nonneg hnonneg]

/-- **A time of day in digits is read back.** -/
theorem time_text {c : ClockTime} (h : c.InBounds) (rest : Text) :
    time (c.text ++ rest) = .ok (c, rest) := by
  have hhour := h.hour_le
  have hminute := h.minute_le
  have hsecond := h.second_le
  rw [ClockTime.text, List.append_assoc, List.cons_append, List.append_assoc, List.cons_append,
    time, bind_of_eq_ok (field_paddedText (Nat.zero_le _) hhour (by omega) _),
    bind_of_eq_ok (literal_cons ':' _),
    bind_of_eq_ok (field_paddedText (Nat.zero_le _) hminute (by omega) _),
    bind_of_eq_ok (literal_cons ':' _),
    bind_of_eq_ok (field_paddedText (Nat.zero_le _) (Nat.le_succ_of_le hsecond) (by omega) _),
    pure_apply]

end Scan

/-! ## Offsets -/

namespace Offset

/-- An offset of whole minutes, `+0100`. -/
def text (seconds : Int) : Text :=
  (if seconds < 0 then '-' else '+') ::
    (paddedText 2 (seconds.natAbs / 3600) ++ paddedText 2 (seconds.natAbs / 60 % 60))

/-- Two digits in a row. -/
theorem paddedText_two (n : Nat) :
    paddedText 2 n = [Nat.digitChar (n / 10 % 10), Nat.digitChar (n % 10)] := rfl

/-- Hours of two digits are read as their number. -/
theorem hours_paddedText {n : Nat} (h : n < 100) (rest : Text) :
    hours (paddedText 2 n ++ rest) = .ok (n, rest) := by
  have hvalue := digitsValue_paddedText (show n < tenTo 2 from h)
  rw [paddedText_two] at hvalue ⊢
  rw [hours, Scan.bind_of_eq_ok (x := pair) rfl]
  simp only [isDigit_digitChar_mod, Bool.and_self, if_true, hvalue]
  rfl

/-- Minutes of two digits are read as their number. -/
theorem minutes_paddedText {n : Nat} (h : n < 60) (rest : Text) :
    minutes (paddedText 2 n ++ rest) = .ok (n, rest) := by
  have hvalue := digitsValue_paddedText (show n < tenTo 2 from Nat.lt_trans h (by decide))
  have htens : Nat.digitChar (n / 10 % 10) < '6' := by
    have hcode : (Nat.digitChar (n / 10 % 10)).toNat = 48 + n / 10 % 10 :=
      Nat.toNat_digitChar_of_lt_ten (by omega)
    refine UInt32.lt_iff_toNat_lt.2 (Nat.lt_of_le_of_lt (Nat.le_of_eq hcode) ?_)
    show 48 + n / 10 % 10 < 54
    omega
  rw [paddedText_two] at hvalue ⊢
  rw [minutes, Scan.bind_of_eq_ok (x := pair) rfl]
  simp only [isDigit_digitChar_mod, Bool.and_self, if_true, if_pos htens, hvalue]
  rfl

/-- Hours and minutes need no separator. -/
theorem looseSeparator_paddedText (n : Nat) (rest : Text) :
    looseSeparator (paddedText 2 n ++ rest) = .ok ((), paddedText 2 n ++ rest) := by
  obtain ⟨c, t, ht, hc⟩ := Scan.exists_paddedText_eq_cons 1 n
  have hcolon : c ≠ ':' := by
    rintro rfl
    cases hc
  show Except.ok ((), List.dropWhile _ _) = _
  rw [ht, List.cons_append, List.dropWhile_cons_of_neg]
  simpa [isBlank_of_isDigit hc] using hcolon

/-- **An offset of whole minutes is read back.** -/
theorem scan_text {seconds : Int} (hminutes : seconds % 60 = 0) (hlow : -86400 < seconds)
    (hhigh : seconds < 86400) (rest : Text) :
    scan looseSeparator (text seconds ++ rest) = .ok (seconds, rest) := by
  have hsign : ∀ t, sign ((if seconds < 0 then '-' else '+') :: t) =
      .ok (decide (seconds < 0), t) := by
    intro t
    by_cases h : seconds < 0
    · rw [if_pos h, decide_eq_true h]; rfl
    · rw [if_neg h, decide_eq_false h]; rfl
  rw [text, List.cons_append, List.append_assoc, scan, Scan.bind_of_eq_ok (hsign _),
    Scan.bind_of_eq_ok (hours_paddedText (by omega) _),
    Scan.bind_of_eq_ok (looseSeparator_paddedText _ _),
    Scan.bind_of_eq_ok (minutes_paddedText (Nat.mod_lt _ (by decide)) _)]
  simp only [Scan.pure_apply, decide_eq_true_eq]
  by_cases h : seconds < 0
  · rw [if_pos h]
    congr 2
    omega
  · rw [if_neg h]
    congr 2
    omega

end Offset

namespace DateLiteral

variable {d : CivilDate} {c : ClockTime}

/-- A date and a time of day are read back. -/
theorem scanDateTime_text (hd : d.HasDigits) (hc : c.InBounds) :
    scanDateTime (d.text ++ ' ' :: c.text) = .ok ((d, c), []) := by
  have hblank : Scan.blanks (' ' :: c.text) = .ok ((), c.text) := by
    show Scan.blanks c.text = _
    rw [ClockTime.text, Scan.blanks_paddedText]
  have htime := Scan.time_text hc []
  rw [List.append_nil] at htime
  rw [scanDateTime, Scan.bind_of_eq_ok (Scan.date_text hd _), Scan.bind_of_eq_ok hblank,
    Scan.bind_of_eq_ok htime, Scan.pure_apply]

/-- A date, a time of day and an offset are read back. -/
theorem scanZoned_text {zone : Int} (hd : d.HasDigits) (hc : c.InBounds)
    (hminutes : zone % 60 = 0) (hlow : -86400 < zone) (hhigh : zone < 86400) :
    scanZoned (d.text ++ 'T' :: (c.text ++ Offset.text zone)) = .ok ((d, c, zone), []) := by
  have hblank : Scan.blanks (Offset.text zone) = .ok ((), Offset.text zone) := by
    rw [Offset.text]
    split <;> rfl
  have hoffset := Offset.scan_text hminutes hlow hhigh []
  rw [List.append_nil] at hoffset
  rw [scanZoned, Scan.bind_of_eq_ok (Scan.date_text hd _),
    Scan.bind_of_eq_ok (Scan.literal_cons _ _), Scan.bind_of_eq_ok (Scan.time_text hc _), Scan.bind_of_eq_ok hblank,
    Scan.bind_of_eq_ok hoffset, Scan.pure_apply]

end DateLiteral

end RecordFilter
