import RecordFilter.Proofs.Date.Calendar
import RecordFilter.Proofs.Date.Scan
import RecordFilter.Proofs.Result

/-! # Date literals in the zone of the caller

A date literal without a zone of its own denotes a date and a time of day, and these depend on the
literal alone (`readForm_eq_map`). The zone of the caller comes in at the end, as a shift by its
offset, so in two zones a literal fails with the same error or denotes points in time that are as
far apart as the zones (`read_shifted`). All dates that are kept lie so near to 1970 that the shift
can be computed in signed words of 64 bits, with no step that overflows (`shiftedMillis?_eq_some`). -/

namespace RecordFilter

/-! ## Dates and times of day that literals denote -/

namespace CivilDate

/-- A date that passes the check is one that is kept. -/
theorem check_eq_ok_iff {d e : CivilDate} : d.check = .ok e ↔ d.isValid = true ∧ d = e := by
  rw [check]
  split
  next h => simp [h]
  next h => simp [h]

end CivilDate

/-- The fields of a time of day lie within the bounds that they are read with. Second 60 is one that
is read. -/
structure ClockTime.IsReadable (c : ClockTime) : Prop where
  hour_le : c.hour ≤ 23
  minute_le : c.minute ≤ 59
  second_le : c.second ≤ 60

namespace Scan

/-- A field lies within its bounds. -/
theorem bounds_of_field {low high n : Nat} {t rest : Text}
    (h : field low high t = .ok (n, rest)) : low ≤ n ∧ n ≤ high := by
  obtain ⟨_, _, -, hnumber⟩ := bind_eq_ok_iff.1 h
  obtain ⟨m, _, -, hbounds⟩ := bind_eq_ok_iff.1 hnumber
  split at hbounds
  next hm =>
    cases hbounds
    exact hm
  next => cases hbounds

/-- A time of day that is read has its fields within their bounds. -/
theorem isReadable_of_time {c : ClockTime} {t rest : Text} (h : time t = .ok (c, rest)) :
    c.IsReadable := by
  obtain ⟨hour, _, hhour, hrest⟩ := bind_eq_ok_iff.1 h
  obtain ⟨_, _, -, hrest⟩ := bind_eq_ok_iff.1 hrest
  obtain ⟨minute, _, hminute, hrest⟩ := bind_eq_ok_iff.1 hrest
  obtain ⟨_, _, -, hrest⟩ := bind_eq_ok_iff.1 hrest
  obtain ⟨second, _, hsecond, hrest⟩ := bind_eq_ok_iff.1 hrest
  cases hrest
  exact ⟨(bounds_of_field hhour).2, (bounds_of_field hminute).2, (bounds_of_field hsecond).2⟩

end Scan

/-! ## Arithmetic in words -/

/-- What an operation on signed words of 64 bits comes to, which is nothing if it overflows. -/
def word? (n : Int) : Option Int := if fitsSigned n then some n else none

/-- An integer within the bounds of a word is one. -/
theorem word?_eq_some {n : Int} (hlow : -0x8000000000000000 ≤ n) (hhigh : n < 0x8000000000000000) :
    word? n = some n :=
  if_pos (fitsSigned_iff.2 ⟨hlow, hhigh⟩)

/-- The milliseconds of a date and a time of day in a zone, computed step by step in words: first
those of the same date and time in UTC, a leap second as the second before it and another 1000
milliseconds, and then the difference to those of the offset. -/
def shiftedMillis? (date : CivilDate) (time : ClockTime) (offset : Int) : Option Int := do
  let midnight ← word? (date.epochDay * 86400)
  let second ← word? (midnight + { time with second := min time.second 59 }.seconds)
  let whole ← word? (second * 1000)
  let millis ← word? (whole + (time.second - 59 : Nat) * 1000)
  let shift ← word? (offset * 1000)
  word? (millis - shift)

/-- **No step overflows**, whatever the date that is kept, the time of day and the zone. -/
theorem shiftedMillis?_eq_some {date : CivilDate} {time : ClockTime} {offset : Int}
    (hdate : date.isValid = true) (htime : time.IsReadable) (hlow : -86400 < offset)
    (hhigh : offset < 86400) :
    shiftedMillis? date time offset = some (Timestamp.ofLocal date time offset).millis := by
  obtain ⟨hfirst, hlast⟩ := CivilDate.epochDay_bounds hdate
  obtain ⟨hhour, hminute, hsecond⟩ := htime
  -- The second of the day, and the part of a leap second that goes beyond it.
  obtain ⟨second, hclock⟩ : ∃ second : Nat,
      { time with second := min time.second 59 }.seconds = second := ⟨_, rfl⟩
  have hday : second < 86400 ∧ second + (time.second - 59) = time.seconds := by
    simp only [ClockTime.seconds] at hclock ⊢
    omega
  simp (disch := omega) only [shiftedMillis?, hclock, word?_eq_some, Option.bind_eq_bind,
    Option.bind_some, Timestamp.ofLocal, Timestamp.ofSeconds]
  congr 1
  omega

namespace DateLiteral

variable {literal : Text}

/-! ## Forms without a zone -/

/-- The date and the time of day that are written in a form, in whatever zone they are. -/
def readLocal (t : Text) : DateForm → Except DateFault (CivilDate × ClockTime)
  | .zoned => do
    let (date, time, _) ← scanZoned.complete t
    return (← date.check, time)
  | .dateTime => do
    let (date, time) ← scanDateTime.complete t
    return (← date.check, time)
  | .date => do
    let date ← Scan.date.complete t
    return (← date.check, midnight)
  | .time => do
    let time ← Scan.time.complete t
    return (epoch, time)

/-- The point in time of a date and a time of day in a zone. -/
def inOffset (offset : Int) (p : CivilDate × ClockTime) : Timestamp := .ofLocal p.1 p.2 offset

/-- **In a form without a zone the zone of the caller comes in at the end.** -/
theorem readForm_eq_map (offset : Int) (t : Text) {form : DateForm} (hform : form ≠ .zoned) :
    readForm offset t form = (readLocal t form).map (inOffset offset) := by
  cases form with
  | zoned => exact absurd rfl hform
  | dateTime =>
    rw [readForm, readLocal]
    cases scanDateTime.complete t with
    | error e => rfl
    | ok p => cases hcheck : p.1.check <;> simp [hcheck, inOffset]
  | date =>
    rw [readForm, readLocal]
    cases Scan.date.complete t with
    | error e => rfl
    | ok date => cases hcheck : date.check <;> simp [hcheck, inOffset]
  | time =>
    rw [readForm, readLocal]
    cases Scan.time.complete t <;> rfl

/-- A time of day that is read behind a date has its fields within their bounds. -/
theorem isReadable_of_scanDateTime {date : CivilDate} {time : ClockTime} {t rest : Text}
    (h : scanDateTime t = .ok ((date, time), rest)) : time.IsReadable := by
  obtain ⟨_, _, -, hrest⟩ := Scan.bind_eq_ok_iff.1 h
  obtain ⟨_, _, -, hrest⟩ := Scan.bind_eq_ok_iff.1 hrest
  obtain ⟨_, _, htime, hrest⟩ := Scan.bind_eq_ok_iff.1 hrest
  cases hrest
  exact Scan.isReadable_of_time htime

/-- A time of day that is read between a date and a zone has its fields within their bounds. -/
theorem isReadable_of_scanZoned {date : CivilDate} {time : ClockTime} {zone : Int} {t rest : Text}
    (h : scanZoned t = .ok ((date, time, zone), rest)) : time.IsReadable := by
  obtain ⟨_, _, -, hrest⟩ := Scan.bind_eq_ok_iff.1 h
  obtain ⟨_, _, -, hrest⟩ := Scan.bind_eq_ok_iff.1 hrest
  obtain ⟨_, _, htime, hrest⟩ := Scan.bind_eq_ok_iff.1 hrest
  obtain ⟨_, _, -, hrest⟩ := Scan.bind_eq_ok_iff.1 hrest
  obtain ⟨_, _, -, hrest⟩ := Scan.bind_eq_ok_iff.1 hrest
  cases hrest
  exact Scan.isReadable_of_time htime

/-- A date that is read is one that is kept, and a time of day that is read has its fields within
their bounds. -/
theorem isValid_of_readLocal {t : Text} {form : DateForm} {date : CivilDate} {time : ClockTime}
    (h : readLocal t form = .ok (date, time)) : date.isValid = true ∧ time.IsReadable := by
  -- All forms but the last check the date once the text has been read.
  have hchecked : ∀ {d : CivilDate} {c : ClockTime},
      (d.check >>= fun e => .ok (e, c)) = .ok (date, time) → date.isValid = true ∧ c = time := by
    intro d c hcheck
    obtain ⟨e, hdate, hpair⟩ := bind_eq_ok_iff.1 hcheck
    cases hpair
    obtain ⟨hvalid, rfl⟩ := CivilDate.check_eq_ok_iff.1 hdate
    exact ⟨hvalid, rfl⟩
  cases form with
  | zoned =>
    obtain ⟨_, hscan, hcheck⟩ := bind_eq_ok_iff.1 h
    obtain ⟨hvalid, rfl⟩ := hchecked hcheck
    exact ⟨hvalid, isReadable_of_scanZoned (Scan.complete_eq_ok_iff.1 hscan)⟩
  | dateTime =>
    obtain ⟨_, hscan, hcheck⟩ := bind_eq_ok_iff.1 h
    obtain ⟨hvalid, rfl⟩ := hchecked hcheck
    exact ⟨hvalid, isReadable_of_scanDateTime (Scan.complete_eq_ok_iff.1 hscan)⟩
  | date =>
    obtain ⟨_, -, hcheck⟩ := bind_eq_ok_iff.1 h
    obtain ⟨hvalid, rfl⟩ := hchecked hcheck
    exact ⟨hvalid, by decide, by decide, by decide⟩
  | time =>
    obtain ⟨_, hscan, hpair⟩ := bind_eq_ok_iff.1 h
    cases hpair
    exact ⟨by decide, Scan.isReadable_of_time (Scan.complete_eq_ok_iff.1 hscan)⟩

/-! ## Literals -/

/-- The mark of a literal is that of a form which the zone of the caller has no part in. -/
def HasOwnZone (literal : Text) : Prop :=
  ['L'] <+: literal.upper ∨ ['D', 'T', 'Z'] <+: literal.upper

instance (literal : Text) : Decidable (HasOwnZone literal) :=
  inferInstanceAs (Decidable (_ ∨ _))

/-- The date and the time of day that are written in a literal with the mark of a form. -/
def localReading (literal : Text) : Except QueryError (CivilDate × ClockTime) :=
  match DateForm.ofCapitals? literal.upper with
  | some (form, t) => (readLocal t form).mapError (.invalidDate literal)
  | none => .error (.missingDateFormat literal)

/-- A literal with a zone of its own is read alike in all zones. -/
theorem read_of_hasOwnZone (h : HasOwnZone literal) (offset other : Int) :
    read offset literal = read other literal := by
  rw [read.eq_def, read.eq_def]
  rcases h with ⟨t, ht⟩ | ⟨t, ht⟩
  · rw [← ht]
    rfl
  · rw [← ht]
    rfl

/-- **A literal without a zone of its own denotes a date and a time of day in the zone of the
caller.** -/
theorem read_eq_map (h : ¬HasOwnZone literal) (offset : Int) :
    read offset literal = (localReading literal).map (inOffset offset) := by
  rw [read.eq_def]
  split
  next t ht => exact absurd (.inl ⟨t, ht.symm⟩) h
  next =>
    rw [localReading]
    cases hform : DateForm.ofCapitals? literal.upper with
    | none => rfl
    | some p =>
      -- The mark of the zoned form would be a zone of its own.
      have hzoned : p.1 ≠ .zoned := by
        intro hp
        unfold DateForm.ofCapitals? at hform
        split at hform <;> cases hform <;> cases hp
        next t ht => exact h (.inr ⟨t, ht.symm⟩)
      simp only [readForm_eq_map offset p.2 hzoned]
      cases readLocal p.2 p.1 <;> rfl

/-- The date that is written in a literal is one that is kept. -/
theorem isValid_of_localReading {date : CivilDate} {time : ClockTime}
    (h : localReading literal = .ok (date, time)) : date.isValid = true ∧ time.IsReadable := by
  rw [localReading] at h
  split at h
  next => exact isValid_of_readLocal (mapError_eq_ok_iff.1 h)
  next => cases h

/-- **The zone of the caller shifts the literals that have none, exactly and without overflow.** In
a zone that is less than a day east or west of UTC, a literal that is a count of milliseconds or has
a zone of its own is read as in UTC. Any other fails in the zone as in UTC, with the same error, or
denotes the point in time that it denotes in UTC less the offset of the zone: it is that of a date
which is kept and a time of day, the same for all zones. And for every such date and every time of
day, the milliseconds in UTC and the difference can be computed in signed words of 64 bits, of which
no step overflows. -/
theorem read_shifted {offset : Int} (hlow : -86400 < offset) (hhigh : offset < 86400)
    (literal : Text) :
    (HasOwnZone literal → read offset literal = read 0 literal) ∧
    (¬HasOwnZone literal →
      (∀ e, read offset literal = .error e ↔ read 0 literal = .error e) ∧
      ∀ instant, read 0 literal = .ok instant →
        read offset literal = .ok ⟨instant.millis - 1000 * offset⟩ ∧
        ∃ date time, date.isValid = true ∧ time.IsReadable ∧
          ∀ zone, read zone literal = .ok (.ofLocal date time zone)) ∧
    ∀ date time, date.isValid = true → time.IsReadable →
      let instant := Timestamp.ofLocal date time 0
      shiftedMillis? date time 0 = some instant.millis ∧
      shiftedMillis? date time offset = some (instant.millis - 1000 * offset) := by
  have hshift : ∀ date time, (Timestamp.ofLocal date time offset).millis =
      (Timestamp.ofLocal date time 0).millis - 1000 * offset := by
    intro date time
    simp only [Timestamp.ofLocal, Timestamp.ofSeconds]
    omega
  refine ⟨fun h => read_of_hasOwnZone h offset 0, fun h => ⟨fun e => ?_, fun instant hread => ?_⟩,
    fun date time hdate htime => ⟨?_, ?_⟩⟩
  · rw [read_eq_map h, read_eq_map h, map_eq_error_iff, map_eq_error_iff]
  · rw [read_eq_map h] at hread
    obtain ⟨⟨date, time⟩, hlocal, rfl⟩ := map_eq_ok_iff.1 hread
    have hzone : ∀ zone, read zone literal = .ok (.ofLocal date time zone) := by
      intro zone
      rw [read_eq_map h, hlocal]
      rfl
    obtain ⟨hdate, htime⟩ := isValid_of_localReading hlocal
    refine ⟨?_, date, time, hdate, htime, hzone⟩
    rw [hzone]
    exact congrArg (fun m => Except.ok (Timestamp.mk m)) (hshift date time)
  · exact shiftedMillis?_eq_some hdate htime (by decide) (by decide)
  · rw [← hshift]
    exact shiftedMillis?_eq_some hdate htime hlow hhigh

/-- The last second that there is, a leap second, a day less a second west of UTC; and a second with
a zone of its own. -/
theorem read_shifted_lastSecond :
    let literal := ['d', 't', '+', '2', '6', '2', '1', '4', '2', '-', '1', '2', '-', '3', '1', ' ',
      '2', '3', ':', '5', '9', ':', '6', '0']
    let zoned := ['D', 'T', 'z', '1', '9', '7', '0', '-', '1', '-', '1', 'T',
      '0', ':', '0', ':', '1', '+', '0', '0', '0', '0']
    read 0 literal = .ok ⟨8210266876800000⟩ ∧
    read (-86399) literal = .ok ⟨8210266963199000⟩ ∧
    shiftedMillis? ⟨262142, 12, 31⟩ ⟨23, 59, 60⟩ (-86399) = some 8210266963199000 ∧
    read (-86399) zoned = .ok ⟨1000⟩ := by
  intro literal zoned
  have hread : read 0 literal = .ok ⟨8210266876800000⟩ := by rfl
  have hown : ¬HasOwnZone literal := by decide
  have hshifted := read_shifted (show (-86400 : Int) < -86399 by decide) (by decide)
  obtain ⟨-, hzoneless, hdates⟩ := hshifted literal
  have hmillis :=
    (hdates ⟨262142, 12, 31⟩ ⟨23, 59, 60⟩ (by decide) ⟨by decide, by decide, by decide⟩).2
  have hzoned : read (-86399) zoned = read 0 zoned := (hshifted zoned).1 (by decide)
  exact ⟨hread, ((hzoneless hown).2 _ hread).1, hmillis, hzoned.trans rfl⟩

end DateLiteral

end RecordFilter
