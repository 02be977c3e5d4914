import RecordFilter.Proofs.Date.Calendar
import RecordFilter.Proofs.Date.Scan
import RecordFilter.Proofs.Text.Upper

/-! # Date literals that are written in digits

A point in time is written as the date and the time of day that it has in a zone, in digits padded
to the width of their fields, behind the mark of the form. Such a literal is read back as the point
in time that it was written for, over all years of four digits (`read_written`). -/

namespace RecordFilter

/-! ## Points in time as dates and times of day -/

/-- The date that a point in time, in seconds from the start of 1970, has in a zone. -/
def localDate (offset seconds : Int) : CivilDate := .ofEpochDay ((seconds + offset) / 86400)

/-- The time of day that a point in time has in a zone. -/
def localTime (offset seconds : Int) : ClockTime := .ofSeconds ((seconds + offset) % 86400).toNat

variable {offset seconds : Int}

theorem inBounds_localTime (offset seconds : Int) : (localTime offset seconds).InBounds := by
  constructor <;> simp only [localTime, ClockTime.ofSeconds] <;> omega

theorem hasDigits_localDate (hnonneg : 0 ≤ (localDate offset seconds).year)
    (hle : (localDate offset seconds).year ≤ 9999) : (localDate offset seconds).HasDigits :=
  have h : (localDate offset seconds).InCalendar := CivilDate.inCalendar_ofEpochDay _
  ⟨hnonneg, hle, h.month_pos, h.month_le, h.day_pos, h.day_le_31⟩

/-- Dates are kept for all years of four digits. -/
theorem check_localDate (hnonneg : 0 ≤ (localDate offset seconds).year)
    (hle : (localDate offset seconds).year ≤ 9999) :
    (localDate offset seconds).check = .ok (localDate offset seconds) := by
  have h : (localDate offset seconds).InCalendar := CivilDate.inCalendar_ofEpochDay _
  have hmin : CivilDate.minYear ≤ (localDate offset seconds).year :=
    Int.le_trans (by decide) hnonneg
  have hmax : (localDate offset seconds).year ≤ CivilDate.maxYear := Int.le_trans hle (by decide)
  exact if_pos (CivilDate.isValid_iff.2 ⟨hmin, hmax, h⟩)

theorem epochDay_localDate : (localDate offset seconds).epochDay = (seconds + offset) / 86400 :=
  CivilDate.epochDay_ofEpochDay _

theorem seconds_localTime :
    ((localTime offset seconds).seconds : Int) = (seconds + offset) % 86400 := by
  rw [localTime, ClockTime.seconds_ofSeconds, Int.toNat_of_nonneg (Int.emod_nonneg _ (by decide))]

/-- **A point in time is that of its date and its time of day in any zone.** -/
theorem ofLocal_localDate :
    Timestamp.ofLocal (localDate offset seconds) (localTime offset seconds) offset =
      .ofSeconds seconds := by
  rw [Timestamp.ofLocal, epochDay_localDate, seconds_localTime]
  congr 1
  omega

namespace DateLiteral

/-! ## Forms -/

/-- A literal with the mark of a form is read in that form. -/
theorem read_of_form {literal t : Text} {form : DateForm}
    (h : DateForm.ofCapitals? literal.upper = some (form, t)) :
    read offset literal = (readForm offset t form).mapError (.invalidDate literal) := by
  rw [read.eq_def]
  split
  next heq => rw [heq] at h; cases h
  next => rw [h]

/-- Behind the mark of a date and time, a digit makes no longer mark. -/
theorem ofCapitals?_dateTime {c : Char} (h : c.isDigit = true) (t : Text) :
    DateForm.ofCapitals? ('D' :: 'T' :: c :: t) = some (.dateTime, c :: t) := by
  rw [DateForm.ofCapitals?]
  intro _ heq
  rw [(List.cons.inj heq).1] at h
  cases h

/-- Behind the mark of a date, a digit makes no longer mark. -/
theorem ofCapitals?_date {c : Char} (h : c.isDigit = true) (t : Text) :
    DateForm.ofCapitals? ('D' :: c :: t) = some (.date, c :: t) := by
  rw [DateForm.ofCapitals?]
  · intro _ heq
    rw [(List.cons.inj heq).1] at h
    cases h
  · intro _ heq
    rw [(List.cons.inj heq).1] at h
    cases h

/-! ## Texts -/

/-- Digits come before the letters. -/
theorem capital_of_allDigits {t : Text} (h : AllDigits t) : Text.Capital t :=
  fun c hc => Nat.lt_of_le_of_lt (toNat_of_isDigit (h c hc)).2 (by decide)

theorem capital_paddedText (width n : Nat) : Text.Capital (paddedText width n) :=
  capital_of_allDigits (allDigits_paddedText width n)

theorem capital_dateText (d : CivilDate) : Text.Capital d.text :=
  (capital_paddedText 4 _).append
    (.cons (by decide) ((capital_paddedText 2 _).append
      (.cons (by decide) (capital_paddedText 2 _))))

theorem capital_timeText (c : ClockTime) : Text.Capital c.text :=
  (capital_paddedText 2 _).append
    (.cons (by decide) ((capital_paddedText 2 _).append
      (.cons (by decide) (capital_paddedText 2 _))))

theorem capital_offsetText (offset : Int) : Text.Capital (Offset.text offset) := by
  refine .cons ?_ ((capital_paddedText 2 _).append (capital_paddedText 2 _))
  split <;> decide

theorem capital_intText (n : Int) : Text.Capital (intText n) := by
  have hdigits : Text.Capital (natText n.natAbs) :=
    capital_of_allDigits (allDigits_natText n.natAbs)
  rw [intText]
  split
  next => exact .cons (by decide) hdigits
  next => exact hdigits

/-- A date starts with a digit. -/
theorem exists_dateText_eq_cons (d : CivilDate) :
    ∃ c t, d.text = c :: t ∧ c.isDigit = true := by
  obtain ⟨c, t, ht, hc⟩ := Scan.exists_paddedText_eq_cons 3 d.year.toNat
  exact ⟨c, _, by rw [CivilDate.text, ht, List.cons_append], hc⟩

/-- A mark in any case and a text without letters are put into upper case. -/
theorem upper_mark_append {mark word t : Text}
    (hmark : Text.isWordIgnoringAsciiCase word mark = true) (hword : word.all Char.isLower = true)
    (ht : Text.Capital t) : (mark ++ t).upper = word.map Char.toUpper ++ t := by
  rw [Text.upper_append, Text.upper_of_isWord hword hmark, ht.upper_eq]

/-! ## Reading what is written -/

section Written

variable {mark : Text}

/-- A date and a time of day are read back in the zone that they are written for. -/
theorem read_dateTime (hnonneg : 0 ≤ (localDate offset seconds).year)
    (hle : (localDate offset seconds).year ≤ 9999)
    (hmark : Text.isWordIgnoringAsciiCase ['d', 't'] mark = true) :
    read offset
      (mark ++ ((localDate offset seconds).text ++ ' ' :: (localTime offset seconds).text)) =
      .ok (.ofSeconds seconds) := by
  have hscan := scanDateTime_text (hasDigits_localDate hnonneg hle)
    (inBounds_localTime offset seconds)
  have hcapital : Text.Capital ((localDate offset seconds).text ++ ' ' ::
      (localTime offset seconds).text) :=
    (capital_dateText _).append (.cons (by decide) (capital_timeText _))
  obtain ⟨c, t, ht, hc⟩ := exists_dateText_eq_cons (localDate offset seconds)
  have hform : DateForm.ofCapitals? (mark ++ ((localDate offset seconds).text ++ ' ' ::
      (localTime offset seconds).text)).upper = some (.dateTime,
        (localDate offset seconds).text ++ ' ' :: (localTime offset seconds).text) := by
    rw [upper_mark_append hmark rfl hcapital, ht]
    exact ofCapitals?_dateTime hc _
  rw [read_of_form hform, readForm, Scan.complete_of_eq_ok hscan, ok_bind]
  simp only [check_localDate hnonneg hle, ok_bind, pure_eq_ok, mapError_ok, ofLocal_localDate]

/-- A date is read back as its midnight. -/
theorem read_date (hnonneg : 0 ≤ (localDate offset seconds).year)
    (hle : (localDate offset seconds).year ≤ 9999)
    (hmark : Text.isWordIgnoringAsciiCase ['d'] mark = true) :
    read offset (mark ++ (localDate offset seconds).text) =
      .ok (.ofSeconds ((seconds + offset) / 86400 * 86400 - offset)) := by
  have hscan := Scan.date_text (hasDigits_localDate hnonneg hle) []
  rw [List.append_nil] at hscan
  obtain ⟨c, t, ht, hc⟩ := exists_dateText_eq_cons (localDate offset seconds)
  have hform : DateForm.ofCapitals? (mark ++ (localDate offset seconds).text).upper =
      some (.date, (localDate offset seconds).text) := by
    rw [upper_mark_append hmark rfl (capital_dateText _), ht]
    exact ofCapitals?_date hc _
  rw [read_of_form hform, readForm, Scan.complete_of_eq_ok hscan, ok_bind]
  simp only [check_localDate hnonneg hle, ok_bind, pure_eq_ok, mapError_ok, Timestamp.ofLocal,
    epochDay_localDate, show midnight.seconds = 0 from rfl, Int.ofNat_zero, Int.add_zero]

/-- A time of day is read back as that of the first day of 1970. -/
theorem read_time (hmark : Text.isWordIgnoringAsciiCase ['t'] mark = true) :
    read offset (mark ++ (localTime offset seconds).text) =
      .ok (.ofSeconds ((seconds + offset) % 86400 - offset)) := by
  have hscan := Scan.time_text (inBounds_localTime offset seconds) []
  rw [List.append_nil] at hscan
  have hform : DateForm.ofCapitals? (mark ++ (localTime offset seconds).text).upper =
      some (.time, (localTime offset seconds).text) := by
    rw [upper_mark_append hmark rfl (capital_timeText _)]
    rfl
  rw [read_of_form hform, readForm, Scan.complete_of_eq_ok hscan, ok_bind]
  simp only [pure_eq_ok, mapError_ok, Timestamp.ofLocal, seconds_localTime,
    show epoch.epochDay = 0 from rfl, Int.zero_mul, Int.zero_add]

/-- Every day that a zone has in the years of four digits is one that dates are kept for. -/
theorem inZone_localDate {zone : Int} (hlow : -86400 < zone) (hhigh : zone < 86400)
    (hnonneg : 0 ≤ (localDate zone seconds).year) (hle : (localDate zone seconds).year ≤ 9999) :
    inZone (localDate zone seconds) (localTime zone seconds) zone = .ok (.ofSeconds seconds) := by
  have hdate : (localDate zone seconds).InCalendar := CivilDate.inCalendar_ofEpochDay _
  have hsecond : { localTime zone seconds with second := min (localTime zone seconds).second 59 } =
      localTime zone seconds := by
    rw [Nat.min_eq_left (inBounds_localTime zone seconds).second_le]
  have hoffset : Offset.check zone = .ok zone := if_pos ⟨hlow, hhigh⟩
  have hfirst : (CivilDate.mk CivilDate.minYear 1 1).epochDay < (localDate zone seconds).epochDay :=
    CivilDate.InCalendar.epochDay_lt_of_year_lt (by decide) hdate
      (Int.lt_of_lt_of_le (by decide) hnonneg)
  have hlast :
      (localDate zone seconds).epochDay < (CivilDate.mk CivilDate.maxYear 12 31).epochDay :=
    hdate.epochDay_lt_of_year_lt (by decide) (Int.lt_of_le_of_lt hle (by decide))
  -- The day in UTC is the same, the day before or the day after.
  have hshift : -1 ≤ ((localTime zone seconds).seconds - zone) / 86400 ∧
      ((localTime zone seconds).seconds - zone) / 86400 ≤ 1 := by
    rw [seconds_localTime]
    omega
  rw [inZone, check_localDate hnonneg hle, ok_bind, hoffset, ok_bind]
  simp only [hsecond]
  rw [if_pos ⟨by omega, by omega⟩, pure_eq_ok, ofLocal_localDate]

/-- A date, a time of day and an offset are read back in every zone. -/
theorem read_zoned {zone : Int} (hminutes : zone % 60 = 0) (hlow : -86400 < zone)
    (hhigh : zone < 86400) (hnonneg : 0 ≤ (localDate zone seconds).year)
    (hle : (localDate zone seconds).year ≤ 9999)
    (hmark : Text.isWordIgnoringAsciiCase ['d', 't', 'z'] mark = true) :
    read offset (mark ++ ((localDate zone seconds).text ++ 'T' ::
      ((localTime zone seconds).text ++ Offset.text zone))) = .ok (.ofSeconds seconds) := by
  have hscan := scanZoned_text (hasDigits_localDate hnonneg hle)
    (inBounds_localTime zone seconds) hminutes hlow hhigh
  have hcapital : Text.Capital ((localDate zone seconds).text ++ 'T' ::
      ((localTime zone seconds).text ++ Offset.text zone)) :=
    (capital_dateText _).append
      (.cons (by decide) ((capital_timeText _).append (capital_offsetText _)))
  have hform : DateForm.ofCapitals? (mark ++ ((localDate zone seconds).text ++ 'T' ::
      ((localTime zone seconds).text ++ Offset.text zone))).upper =
        some (.zoned, (localDate zone seconds).text ++ 'T' ::
          ((localTime zone seconds).text ++ Offset.text zone)) := by
    rw [upper_mark_append hmark rfl hcapital]
    rfl
  rw [read_of_form hform, readForm, Scan.complete_of_eq_ok hscan, ok_bind]
  simp only [inZone_localDate hlow hhigh hnonneg hle, mapError_ok]

/-- A count of milliseconds is read back. -/
theorem read_millis {m : Int} (hfits : fitsSigned m = true)
    (hmark : Text.isWordIgnoringAsciiCase ['l'] mark = true) :
    read offset (mark ++ intText m) = .ok ⟨m⟩ := by
  have hupper : (mark ++ intText m).upper = 'L' :: intText m :=
    upper_mark_append hmark rfl (capital_intText m)
  rw [read.eq_def, hupper]
  simp only [SignedInteger.read_intText hfits, map_ok, mapError_ok]

/-- **Date literals denote the points in time that they are written for.** For all whole seconds
whose date, in the zone of the caller, is in a year of four digits: date and time of day denote the
second, the date alone its local midnight, and the time of day alone that time on the first day of
1970. In any zone of whole minutes, a date and time with that zone denote the second whatever the
zone of the caller is. A count of milliseconds denotes itself. The mark may be in either case. -/
theorem read_written (offset : Int) :
    (∀ seconds, 0 ≤ (localDate offset seconds).year → (localDate offset seconds).year ≤ 9999 →
      (∀ mark, Text.isWordIgnoringAsciiCase ['d', 't'] mark = true →
        read offset
          (mark ++ ((localDate offset seconds).text ++ ' ' :: (localTime offset seconds).text)) =
          .ok ⟨seconds * 1000⟩) ∧
      (∀ mark, Text.isWordIgnoringAsciiCase ['d'] mark = true →
        read offset (mark ++ (localDate offset seconds).text) =
          .ok ⟨((seconds + offset) / 86400 * 86400 - offset) * 1000⟩) ∧
      ∀ mark, Text.isWordIgnoringAsciiCase ['t'] mark = true →
        read offset (mark ++ (localTime offset seconds).text) =
          .ok ⟨((seconds + offset) % 86400 - offset) * 1000⟩) ∧
    (∀ zone seconds, zone % 60 = 0 → -86400 < zone → zone < 86400 →
      0 ≤ (localDate zone seconds).year → (localDate zone seconds).year ≤ 9999 →
      ∀ mark, Text.isWordIgnoringAsciiCase ['d', 't', 'z'] mark = true →
        read offset (mark ++ ((localDate zone seconds).text ++ 'T' ::
          ((localTime zone seconds).text ++ Offset.text zone))) = .ok ⟨seconds * 1000⟩) ∧
    ∀ m, fitsSigned m = true → ∀ mark, Text.isWordIgnoringAsciiCase ['l'] mark = true →
      read offset (mark ++ intText m) = .ok ⟨m⟩ := by
  refine ⟨fun seconds hnonneg hle => ⟨fun mark => ?_, fun mark => ?_, fun mark => ?_⟩,
    fun zone seconds hminutes hlow hhigh hnonneg hle mark => ?_, fun m hfits mark => ?_⟩
  · exact read_dateTime hnonneg hle
  · exact read_date hnonneg hle
  · exact read_time
  · exact read_zoned hminutes hlow hhigh hnonneg hle
  · exact read_millis hfits

/-- The last second of a leap day in the year 0, an hour east of UTC, and its date and its time of
day; the same second, written half an hour west of UTC; and the least count of milliseconds. -/
theorem read_written_leapDay :
    read 3600 ['d', 'T', '0', '0', '0', '0', '-', '0', '2', '-', '2', '9', ' ',
      '2', '3', ':', '5', '9', ':', '5', '9'] = .ok ⟨-62162038801000⟩ ∧
    read 3600 ['D', '0', '0', '0', '0', '-', '0', '2', '-', '2', '9'] = .ok ⟨-62162125200000⟩ ∧
    read 3600 ['t', '2', '3', ':', '5', '9', ':', '5', '9'] = .ok ⟨82799000⟩ ∧
    read 3600 ['D', 't', 'z', '0', '0', '0', '0', '-', '0', '2', '-', '2', '9', 'T',
      '2', '2', ':', '2', '9', ':', '5', '9', '-', '0', '0', '3', '0'] = .ok ⟨-62162038801000⟩ ∧
    read 3600 ['L', '-', '9', '2', '2', '3', '3', '7', '2', '0', '3', '6', '8', '5', '4', '7', '7',
      '5', '8', '0', '8'] = .ok ⟨-9223372036854775808⟩ := by
  obtain ⟨hlocal, hzoned, hmillis⟩ := read_written 3600
  obtain ⟨hdateTime, hdate, htime⟩ := hlocal (-62162038801) (by decide) (by decide)
  have hwest := hzoned (-1800) (-62162038801) rfl (by decide) (by decide) (by decide) (by decide)
    ['D', 't', 'z'] rfl
  have hleast := hmillis (-9223372036854775808) rfl ['L'] rfl
  rw [show (localDate (-1800) (-62162038801)).text =
      ['0', '0', '0', '0', '-', '0', '2', '-', '2', '9'] from rfl,
    show (localTime (-1800) (-62162038801)).text =
      ['2', '2', ':', '2', '9', ':', '5', '9'] from rfl] at hwest
  rw [show intText (-9223372036854775808) = ['-', '9', '2', '2', '3', '3', '7', '2', '0', '3', '6',
    '8', '5', '4', '7', '7', '5', '8', '0', '8'] from rfl] at hleast
  exact ⟨hdateTime ['d', 'T'] rfl, hdate ['D'] rfl, htime ['t'] rfl, hwest, hleast⟩

end Written

end DateLiteral

end RecordFilter
