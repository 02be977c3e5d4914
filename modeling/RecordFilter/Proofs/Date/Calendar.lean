import Mathlib.Data.Nat.Find
import Mathlib.Order.Monotone.Basic
import RecordFilter.Date.Calendar

/-! # The date of a day

The calendar tells the number of a day from its date. Here it is read the other way round: every day
has a date (`ofEpochDay`), which is in the calendar (`inCalendar_ofEpochDay`) and has the number of
that day (`epochDay_ofEpochDay`), and no other date in the calendar has it (`eq_of_epochDay_eq`).
That these dates are those of the Gregorian calendar, before its introduction too, is what
`ofEpochDay_zero` and `ofEpochDay_succ` say: the first day of 1970 is one of them, and the next day
is the next of the month, or else the first of the next month or of the next year. -/

namespace RecordFilter

/-! ## Years and months -/

/-- A leap year is a fourth year, and the last of a century only if that is a fourth one. -/
theorem isLeapYear_iff {year : Int} :
    isLeapYear year = true ↔ year % 4 = 0 ∧ (year % 100 ≠ 0 ∨ year % 400 = 0) := by
  rw [isLeapYear, Bool.and_eq_true, Bool.or_eq_true, beq_iff_eq, beq_iff_eq, bne_iff_ne]

/-- The number of days of a year. -/
def daysInYear (year : Int) : Nat := if isLeapYear year then 366 else 365

/-- A year starts when the year before it is over. -/
theorem daysBeforeYear_succ (year : Int) :
    daysBeforeYear (year + 1) = daysBeforeYear year + daysInYear year := by
  simp only [daysBeforeYear, daysInYear, isLeapYear_iff]
  split <;> omega

/-- Later years start later. -/
theorem daysBeforeYear_mono {year other : Int} (h : year ≤ other) :
    daysBeforeYear year ≤ daysBeforeYear other := by
  simp only [daysBeforeYear]
  omega

/-- Later months start later. -/
theorem daysBeforeMonth_mono (year : Int) : Monotone (daysBeforeMonth year) :=
  monotone_nat_of_le_succ fun _ => Nat.le_add_right _ _

/-- The first month starts with the year. -/
theorem daysBeforeMonth_one (year : Int) : daysBeforeMonth year 1 = 0 := rfl

/-- The twelve months make up the year. -/
theorem daysBeforeMonth_thirteen (year : Int) : daysBeforeMonth year 13 = daysInYear year := by
  simp only [daysBeforeMonth, daysInMonth, daysInYear]
  cases isLeapYear year <;> rfl

/-- The months that have days are the twelve. -/
theorem daysInMonth_pos_iff {year : Int} {month : Nat} :
    0 < daysInMonth year month ↔ 1 ≤ month ∧ month ≤ 12 := by
  have hfebruary : 28 ≤ if isLeapYear year then 29 else 28 := by split <;> decide
  unfold daysInMonth
  split
  case h_13 =>
    simp only [imp_false] at *
    omega
  all_goals omega

/-- A month has no more than 31 days. -/
theorem daysInMonth_le (year : Int) (month : Nat) : daysInMonth year month ≤ 31 := by
  have hfebruary : (if isLeapYear year then 29 else 28) ≤ 31 := by split <;> decide
  unfold daysInMonth
  split <;> omega

namespace CivilDate

/-! ## Dates in the calendar -/

/-- There is such a day in the calendar. -/
structure InCalendar (d : CivilDate) : Prop where
  day_pos : 1 ≤ d.day
  day_le : d.day ≤ daysInMonth d.year d.month

instance (d : CivilDate) : Decidable d.InCalendar :=
  decidable_of_iff (1 ≤ d.day ∧ d.day ≤ daysInMonth d.year d.month)
    ⟨fun h => ⟨h.1, h.2⟩, fun h => ⟨h.day_pos, h.day_le⟩⟩

namespace InCalendar

variable {d e : CivilDate}

theorem month_pos (h : d.InCalendar) : 1 ≤ d.month :=
  (daysInMonth_pos_iff.1 (Nat.lt_of_lt_of_le h.day_pos h.day_le)).1

theorem month_le (h : d.InCalendar) : d.month ≤ 12 :=
  (daysInMonth_pos_iff.1 (Nat.lt_of_lt_of_le h.day_pos h.day_le)).2

theorem day_le_31 (h : d.InCalendar) : d.day ≤ 31 :=
  Nat.le_trans h.day_le (daysInMonth_le d.year d.month)

/-- A day comes before the end of its month. -/
theorem dayOfYear_le (h : d.InCalendar) :
    daysBeforeMonth d.year d.month + d.day ≤ daysBeforeMonth d.year (d.month + 1) :=
  Nat.add_le_add_left h.day_le _

/-- A day comes before the end of its year. -/
theorem dayOfYear_le_daysInYear (h : d.InCalendar) :
    daysBeforeMonth d.year d.month + d.day ≤ daysInYear d.year := by
  have hmonth : d.month + 1 ≤ 13 := Nat.succ_le_succ h.month_le
  rw [← daysBeforeMonth_thirteen]
  exact Nat.le_trans h.dayOfYear_le (daysBeforeMonth_mono d.year hmonth)

/-- The days of earlier years come first. -/
theorem epochDay_lt_of_year_lt (hd : d.InCalendar) (he : e.InCalendar) (h : d.year < e.year) :
    d.epochDay < e.epochDay := by
  have hyear : daysBeforeYear (d.year + 1) ≤ daysBeforeYear e.year := daysBeforeYear_mono h
  have hend := hd.dayOfYear_le_daysInYear
  have hstart := he.day_pos
  rw [daysBeforeYear_succ] at hyear
  simp only [epochDay]
  omega

/-- Within a year, the days of earlier months come first. -/
theorem epochDay_lt_of_month_lt (hd : d.InCalendar) (he : e.InCalendar) (hyear : d.year = e.year)
    (h : d.month < e.month) : d.epochDay < e.epochDay := by
  have hmonth : daysBeforeMonth d.year (d.month + 1) ≤ daysBeforeMonth d.year e.month :=
    daysBeforeMonth_mono d.year h
  have hend := hd.dayOfYear_le
  have hstart := he.day_pos
  simp only [epochDay, ← hyear]
  omega

/-- **A day has one date.** -/
theorem eq_of_epochDay_eq (hd : d.InCalendar) (he : e.InCalendar)
    (h : d.epochDay = e.epochDay) : d = e := by
  have hyear : d.year = e.year := by
    rcases Int.lt_trichotomy d.year e.year with hlt | heq | hgt
    · exact absurd h (Int.ne_of_lt (hd.epochDay_lt_of_year_lt he hlt))
    · exact heq
    · exact absurd h (Int.ne_of_gt (he.epochDay_lt_of_year_lt hd hgt))
  have hmonth : d.month = e.month := by
    rcases Nat.lt_trichotomy d.month e.month with hlt | heq | hgt
    · exact absurd h (Int.ne_of_lt (hd.epochDay_lt_of_month_lt he hyear hlt))
    · exact heq
    · exact absurd h (Int.ne_of_gt (he.epochDay_lt_of_month_lt hd hyear.symm hgt))
  have hday : d.day = e.day := by
    simp only [epochDay, hyear, hmonth] at h
    omega
  cases d
  cases e
  simp_all

end InCalendar

/-! ## Dates that are kept -/

/-- Dates are kept for the days of the calendar in a range of years. -/
theorem isValid_iff {d : CivilDate} :
    d.isValid = true ↔ minYear ≤ d.year ∧ d.year ≤ maxYear ∧ d.InCalendar := by
  simp only [isValid, Bool.and_eq_true, decide_eq_true_eq]
  constructor
  · rintro ⟨⟨⟨hmin, hmax⟩, hpos⟩, hle⟩
    exact ⟨hmin, hmax, hpos, hle⟩
  · rintro ⟨hmin, hmax, hpos, hle⟩
    exact ⟨⟨⟨hmin, hmax⟩, hpos⟩, hle⟩

/-- The day of a date that is kept is less than a hundred million days from 1970. -/
theorem epochDay_bounds {d : CivilDate} (h : d.isValid = true) :
    -100000000 < d.epochDay ∧ d.epochDay < 100000000 := by
  obtain ⟨hmin, hmax, hcalendar⟩ := isValid_iff.1 h
  have hstart : daysBeforeYear minYear ≤ daysBeforeYear d.year := daysBeforeYear_mono hmin
  have hend : daysBeforeYear (d.year + 1) ≤ daysBeforeYear (maxYear + 1) :=
    daysBeforeYear_mono (Int.add_le_add_right hmax 1)
  have hyear := hcalendar.dayOfYear_le_daysInYear
  have hfirst : -100000000 < daysBeforeYear minYear - 719163 := by decide
  have hlast : daysBeforeYear (maxYear + 1) - 719163 < 100000000 := by decide
  rw [daysBeforeYear_succ] at hend
  simp only [epochDay]
  omega

/-! ## Dates from days -/

/-- The years before a year are groups of 400, centuries, groups of four and single years. -/
theorem daysBeforeYear_parts (era : Int) {century four one : Int}
    (hcentury : 0 ≤ century ∧ century ≤ 3) (hfour : 0 ≤ four ∧ four ≤ 24)
    (hone : 0 ≤ one ∧ one ≤ 3) :
    daysBeforeYear (era * 400 + century * 100 + four * 4 + one + 1) =
      era * 146097 + century * 36524 + four * 1461 + one * 365 := by
  have hby4 : (era * 400 + century * 100 + four * 4 + one) / 4 =
      era * 100 + century * 25 + four := by omega
  have hby100 : (era * 400 + century * 100 + four * 4 + one) / 100 = era * 4 + century := by omega
  have hby400 : (era * 400 + century * 100 + four * 4 + one) / 400 = era := by omega
  simp only [daysBeforeYear, Int.add_sub_cancel, hby4, hby100, hby400]
  omega

/-- The year of a day, counted from the start of year 1. The last century of 400 years and the last
year of four have a day more than the others. -/
def yearOf (past : Int) : Int :=
  let inEra := past % 146097
  let century := min (inEra / 36524) 3
  let inCentury := inEra - century * 36524
  past / 146097 * 400 + century * 100 + inCentury / 1461 * 4 + min (inCentury % 1461 / 365) 3 + 1

/-- A day is not before the start of its year, and before the start of the next. -/
theorem yearOf_bounds (past : Int) :
    daysBeforeYear (yearOf past) ≤ past ∧ past < daysBeforeYear (yearOf past + 1) := by
  simp only [yearOf]
  generalize hera : past / 146097 = era
  generalize hcentury : min (past % 146097 / 36524) 3 = century
  generalize hfour : (past % 146097 - century * 36524) / 1461 = four
  generalize hone : min ((past % 146097 - century * 36524) % 1461 / 365) 3 = one
  have hcenturies : 0 ≤ century ∧ century ≤ 3 := by omega
  have hfours : 0 ≤ four ∧ four ≤ 24 := by omega
  have hones : 0 ≤ one ∧ one ≤ 3 := by omega
  have hyear := daysBeforeYear_parts era hcenturies hfours hones
  refine ⟨by omega, ?_⟩
  -- Only the last year of four has a day more, and the last four of a century only in the last.
  have hleap : past < daysBeforeYear (era * 400 + century * 100 + four * 4 + one + 1) + 365 ∨
      one = 3 ∧ (four < 24 ∨ century = 3) := by omega
  rw [daysBeforeYear_succ, daysInYear]
  rcases hleap with hshort | ⟨rfl, hlast⟩
  · split <;> omega
  · have hyear4 : (era * 400 + century * 100 + four * 4 + 3 + 1) % 4 = 0 := by omega
    have hyear100 : (era * 400 + century * 100 + four * 4 + 3 + 1) % 100 ≠ 0 ∨
        (era * 400 + century * 100 + four * 4 + 3 + 1) % 400 = 0 := by omega
    rw [if_pos (isLeapYear_iff.2 ⟨hyear4, hyear100⟩)]
    omega

/-- The month of a day, counted from the start of its year: the last that has started by then. -/
def monthOf (year : Int) (dayOfYear : Nat) : Nat :=
  Nat.findGreatest (fun month => daysBeforeMonth year month ≤ dayOfYear) 12

/-- A day is not before the start of its month. -/
theorem daysBeforeMonth_monthOf_le (year : Int) (dayOfYear : Nat) :
    daysBeforeMonth year (monthOf year dayOfYear) ≤ dayOfYear :=
  Nat.findGreatest_spec (P := fun month => daysBeforeMonth year month ≤ dayOfYear)
    (Nat.zero_le 12) (Nat.zero_le dayOfYear)

/-- A day is before the start of the next month. -/
theorem lt_daysBeforeMonth_monthOf {year : Int} {dayOfYear : Nat}
    (h : dayOfYear < daysInYear year) :
    dayOfYear < daysBeforeMonth year (monthOf year dayOfYear + 1) := by
  by_contra hnot
  have hle : daysBeforeMonth year (monthOf year dayOfYear + 1) ≤ dayOfYear := Nat.le_of_not_lt hnot
  have hmonth : monthOf year dayOfYear ≤ 12 := Nat.findGreatest_le 12
  rcases Nat.lt_or_eq_of_le hmonth with hlt | heq
  · -- The next month would have started, and so would be the month of the day.
    exact absurd (Nat.le_findGreatest hlt hle) (Nat.not_succ_le_self _)
  · rw [heq, daysBeforeMonth_thirteen] at hle
    omega

/-- The date of a day, counted from 1 January 1970. -/
def ofEpochDay (day : Int) : CivilDate :=
  let past := day + 719162
  let year := yearOf past
  let dayOfYear := (past - daysBeforeYear year).toNat
  let month := monthOf year dayOfYear
  ⟨year, month, dayOfYear - daysBeforeMonth year month + 1⟩

/-- **The date of a day is in the calendar.** -/
theorem inCalendar_ofEpochDay (day : Int) : (ofEpochDay day).InCalendar := by
  obtain ⟨hstart, hend⟩ := yearOf_bounds (day + 719162)
  rw [daysBeforeYear_succ] at hend
  simp only [ofEpochDay]
  generalize hyear : yearOf (day + 719162) = year at hstart hend
  generalize hday : (day + 719162 - daysBeforeYear year).toNat = dayOfYear
  have hmonthStart := daysBeforeMonth_monthOf_le year dayOfYear
  have hmonthEnd := lt_daysBeforeMonth_monthOf (show dayOfYear < daysInYear year by omega)
  rw [daysBeforeMonth] at hmonthEnd
  exact ⟨Nat.le_add_left 1 _, by simp only; omega⟩

/-- **The date of a day has the number of that day.** -/
@[simp] theorem epochDay_ofEpochDay (day : Int) : (ofEpochDay day).epochDay = day := by
  have hstart := (yearOf_bounds (day + 719162)).1
  simp only [ofEpochDay, epochDay]
  generalize yearOf (day + 719162) = year at hstart
  generalize hday : (day + 719162 - daysBeforeYear year).toNat = dayOfYear
  have hmonthStart := daysBeforeMonth_monthOf_le year dayOfYear
  omega

/-! ## One day after the other -/

/-- The next day: the next of the month, or else the first of the next month or year. -/
def next (d : CivilDate) : CivilDate :=
  if d.day < daysInMonth d.year d.month then { d with day := d.day + 1 }
  else if d.month < 12 then ⟨d.year, d.month + 1, 1⟩
  else ⟨d.year + 1, 1, 1⟩

/-- The next day is in the calendar, whatever day it is the next of. -/
theorem inCalendar_next (d : CivilDate) : d.next.InCalendar := by
  rw [next]
  split
  next hday => exact ⟨Nat.le_add_left 1 _, hday⟩
  split
  next hmonth =>
    exact ⟨Nat.le_refl 1, daysInMonth_pos_iff.2 ⟨Nat.le_add_left 1 _, hmonth⟩⟩
  next => exact ⟨Nat.le_refl 1, Nat.le_of_ble_eq_true rfl⟩

/-- The next day comes one day later. -/
theorem epochDay_next {d : CivilDate} (h : d.InCalendar) : d.next.epochDay = d.epochDay + 1 := by
  have hday := h.day_le
  have hmonth := h.month_le
  rw [next]
  split
  next => simp only [epochDay]; omega
  next hlast =>
    have hend : daysBeforeMonth d.year d.month + d.day = daysBeforeMonth d.year (d.month + 1) := by
      rw [daysBeforeMonth]
      omega
    split
    next => simp only [epochDay]; omega
    next hdecember =>
      have hthirteen : d.month + 1 = 13 := by omega
      rw [hthirteen, daysBeforeMonth_thirteen] at hend
      simp only [epochDay, daysBeforeYear_succ, daysBeforeMonth_one]
      omega

/-- The first day counted is the first of 1970. -/
theorem ofEpochDay_zero : ofEpochDay 0 = ⟨1970, 1, 1⟩ := by decide

/-- **The dates of two days that follow each other follow each other in the calendar.** -/
theorem ofEpochDay_succ (day : Int) : ofEpochDay (day + 1) = (ofEpochDay day).next := by
  have h := inCalendar_ofEpochDay day
  apply (inCalendar_ofEpochDay (day + 1)).eq_of_epochDay_eq (inCalendar_next _)
  rw [epochDay_next h, epochDay_ofEpochDay, epochDay_ofEpochDay]

end CivilDate

namespace ClockTime

/-- The time of day that is so many seconds from midnight. -/
def ofSeconds (seconds : Nat) : ClockTime := ⟨seconds / 3600, seconds / 60 % 60, seconds % 60⟩

@[simp] theorem seconds_ofSeconds (seconds : Nat) : (ofSeconds seconds).seconds = seconds := by
  simp only [ClockTime.seconds, ofSeconds]
  omega

end ClockTime

end RecordFilter
