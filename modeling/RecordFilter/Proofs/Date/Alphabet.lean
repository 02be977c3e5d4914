import RecordFilter.Proofs.Date.Scan
import RecordFilter.Proofs.Text.Upper

/-! # The characters of date literals

Date literals are made of few characters: the letters of the marks, digits, signs, colons and white
space. A scanner takes no others (`Takes`, with one rule for each way to put scanners together), so
nothing that means something elsewhere in a literal, a tilde or a backslash, is in a date literal
(`notMem_of_read`). -/

namespace RecordFilter

/-! ## What scanners take -/

namespace Scan

variable {α β : Type} {p : Char → Prop}

/-- A scanner takes only characters with the property `p` off a text. -/
def Takes (p : Char → Prop) (x : Scan α) : Prop :=
  ∀ t a rest, x t = .ok (a, rest) → ∃ taken, t = taken ++ rest ∧ ∀ c ∈ taken, p c

namespace Takes

/-- A value is given back without taking anything. -/
theorem pure (a : α) : Takes p (pure a : Scan α) := by
  intro t b rest h
  obtain ⟨rfl, rfl⟩ : a = b ∧ t = rest := by simpa using h
  exact ⟨[], rfl, fun c hc => absurd hc List.not_mem_nil⟩

/-- A failure takes nothing. -/
theorem throw (e : DateFault) : Takes p (throw e : Scan α) := by
  intro t a rest h
  cases h

/-- A chain takes what its scanners take. -/
theorem bind {x : Scan α} {f : α → Scan β} (hx : Takes p x) (hf : ∀ a, Takes p (f a)) :
    Takes p (x >>= f) := by
  intro t b rest h
  obtain ⟨a, left, hx', hf'⟩ := bind_eq_ok_iff.1 h
  obtain ⟨taken, rfl, htaken⟩ := hx t a left hx'
  obtain ⟨taken', rfl, htaken'⟩ := hf a left b rest hf'
  exact ⟨taken ++ taken', (List.append_assoc ..).symm, List.forall_mem_append.2 ⟨htaken, htaken'⟩⟩

/-- A choice takes what the scanner that is chosen takes. -/
theorem ite {q : Prop} [Decidable q] {x y : Scan α} (hx : Takes p x) (hy : Takes p y) :
    Takes p (if q then x else y) := by
  split
  · exact hx
  · exact hy

/-- What a scanner takes of a whole text is all of it. -/
theorem complete {x : Scan α} {t : Text} {a : α} (hx : Takes p x) (h : x.complete t = .ok a) :
    ∀ c ∈ t, p c := by
  obtain ⟨taken, rfl, htaken⟩ := hx t a [] (complete_eq_ok_iff.1 h)
  rwa [List.append_nil]

end Takes

end Scan

/-! ## The scanners of dates -/

/-- A character that date literals in capitals are made of. -/
def IsDateCharacter (c : Char) : Prop :=
  c.isDigit = true ∨ isBlank c = true ∨ c ∈ ['L', 'D', 'T', 'Z', '+', '-', '−', ':']

instance : DecidablePred IsDateCharacter := fun c => by
  unfold IsDateCharacter
  infer_instance

namespace Scan

theorem takes_literal {c : Char} (h : IsDateCharacter c) : Takes IsDateCharacter (literal c) := by
  intro t a rest ht
  cases t with
  | nil => cases ht
  | cons d t =>
    rw [literal] at ht
    split at ht
    next hd =>
      obtain rfl : t = rest := by cases ht; rfl
      exact ⟨[d], rfl, by simpa [hd] using h⟩
    next => cases ht

theorem takes_blanks : Takes IsDateCharacter blanks := by
  intro t a rest h
  obtain rfl : t.trimStart = rest := by cases h; rfl
  refine ⟨t.takeWhile isBlank, (List.takeWhile_append_dropWhile ..).symm, fun c hc => ?_⟩
  exact .inr (.inl (List.all_eq_true.1 List.all_takeWhile c hc))

theorem takes_number (width : Option Nat) : Takes IsDateCharacter (number width) := by
  intro t a rest h
  cases t with
  | nil => cases h
  | cons c t =>
    rw [number] at h
    split at h
    next =>
      cases h
      -- However many of the digits are taken, they are the beginning of the text.
      have hsub : width.elim ((c :: t).takeWhile Char.isDigit)
          ((c :: t).takeWhile Char.isDigit).take <+: (c :: t).takeWhile Char.isDigit := by
        cases width with
        | none => exact List.prefix_rfl
        | some w => exact List.take_prefix w _
      refine ⟨_, (List.prefix_iff_eq_append.1 (hsub.trans (List.takeWhile_prefix _))).symm,
        fun d hd => .inl ?_⟩
      exact List.all_eq_true.1 List.all_takeWhile d (hsub.subset hd)
    next => cases h

theorem takes_field (low high : Nat) : Takes IsDateCharacter (field low high) :=
  takes_blanks.bind fun _ => (takes_number _).bind fun n => (Takes.pure n).ite (Takes.throw _)

theorem takes_within (low high n : Int) : Takes IsDateCharacter (within low high n) :=
  (Takes.pure n).ite (Takes.throw _)

theorem takes_year : Takes IsDateCharacter year := by
  refine takes_blanks.bind fun _ => ?_
  intro t a rest h
  obtain ⟨text, left, hget, hread⟩ := bind_eq_ok_iff.1 h
  obtain ⟨rfl, rfl⟩ : t = text ∧ t = left := by cases hget; exact ⟨rfl, rfl⟩
  -- A sign is taken by going on with what stands behind it.
  have hsigned : ∀ (sign : Char) (digits : Text) (f : Nat → Int), IsDateCharacter sign →
      t = sign :: digits →
      (number none >>= fun n => within minYearField maxYearField (f n)) digits = .ok (a, rest) →
      ∃ taken, t = taken ++ rest ∧ ∀ c ∈ taken, IsDateCharacter c := by
    intro sign digits f hsign ht hdigits
    obtain ⟨taken, rfl, htaken⟩ :=
      (takes_number none).bind (fun n => takes_within _ _ (f n)) digits a rest hdigits
    exact ⟨sign :: taken, ht, List.forall_mem_cons.2 ⟨hsign, htaken⟩⟩
  split at hread
  next digits => exact hsigned '-' digits (fun n => -(n : Int)) (by decide) rfl hread
  next digits => exact hsigned '+' digits (fun n => (n : Int)) (by decide) rfl hread
  next => exact ((takes_number _).bind fun n => Takes.pure (n : Int)) t a rest hread

theorem takes_date : Takes IsDateCharacter date :=
  takes_year.bind fun _ => (takes_literal (by decide)).bind fun _ => (takes_field _ _).bind fun _ =>
    (takes_literal (by decide)).bind fun _ => (takes_field _ _).bind fun _ => Takes.pure _

theorem takes_time : Takes IsDateCharacter time :=
  (takes_field _ _).bind fun _ => (takes_literal (by decide)).bind fun _ =>
    (takes_field _ _).bind fun _ => (takes_literal (by decide)).bind fun _ =>
      (takes_field _ _).bind fun _ => Takes.pure _

end Scan

namespace Offset

open Scan

theorem takes_sign : Takes IsDateCharacter sign := by
  intro t a rest h
  unfold sign at h
  split at h <;> cases h
  next => exact ⟨['+'], rfl, List.forall_mem_singleton.2 (by decide)⟩
  next => exact ⟨['-'], rfl, List.forall_mem_singleton.2 (by decide)⟩
  next => exact ⟨['−'], rfl, List.forall_mem_singleton.2 (by decide)⟩

/-- Two digits are taken if what is read of them takes nothing more. -/
theorem takes_pair {α : Type} {f : Char × Char → Scan α} {g : Char × Char → Scan α}
    (hf : ∀ p, f p = if p.1.isDigit && p.2.isDigit then g p else throw .invalid)
    (hg : ∀ p, Takes IsDateCharacter (g p)) : Takes IsDateCharacter (pair >>= f) := by
  intro t a rest h
  obtain ⟨⟨c, d⟩, left, hpair, hread⟩ := Scan.bind_eq_ok_iff.1 h
  have ht : t = c :: d :: left := by
    unfold pair at hpair
    split at hpair <;> cases hpair
    rfl
  rw [hf] at hread
  by_cases hdigits : (c.isDigit && d.isDigit) = true
  · rw [if_pos hdigits] at hread
    obtain ⟨hc, hd⟩ := Bool.and_eq_true_iff.1 hdigits
    obtain ⟨taken, rfl, htaken⟩ := hg _ left a rest hread
    exact ⟨c :: d :: taken, ht,
      List.forall_mem_cons.2 ⟨.inl hc, List.forall_mem_cons.2 ⟨.inl hd, htaken⟩⟩⟩
  · rw [if_neg hdigits] at hread
    cases hread

theorem takes_hours : Takes IsDateCharacter hours :=
  takes_pair (fun _ => rfl) fun _ => Takes.pure _

theorem takes_minutes : Takes IsDateCharacter minutes :=
  takes_pair (fun _ => rfl) fun _ => (Takes.pure _).ite (Takes.throw _)

theorem takes_looseSeparator : Takes IsDateCharacter looseSeparator := by
  intro t a rest h
  obtain rfl : t.dropWhile (fun c => c = ':' || isBlank c) = rest := by cases h; rfl
  refine ⟨t.takeWhile (fun c => c = ':' || isBlank c), (List.takeWhile_append_dropWhile ..).symm,
    fun c hc => ?_⟩
  have hseparator := List.all_eq_true.1 List.all_takeWhile c hc
  simp only [Bool.or_eq_true, decide_eq_true_eq] at hseparator
  rcases hseparator with rfl | hblank
  · decide
  · exact .inr (.inl hblank)

theorem takes_scan : Takes IsDateCharacter (scan looseSeparator) :=
  takes_sign.bind fun _ => takes_hours.bind fun _ => takes_looseSeparator.bind fun _ =>
    takes_minutes.bind fun _ => Takes.pure _

end Offset

namespace DateLiteral

open Scan

theorem takes_scanDateTime : Takes IsDateCharacter scanDateTime :=
  takes_date.bind fun _ => takes_blanks.bind fun _ => takes_time.bind fun _ => Takes.pure _

theorem takes_scanZoned : Takes IsDateCharacter scanZoned :=
  takes_date.bind fun _ => (takes_literal (by decide)).bind fun _ => takes_time.bind fun _ =>
    takes_blanks.bind fun _ => Offset.takes_scan.bind fun _ => Takes.pure _

/-! ## Literals -/

/-- The marks of the forms. -/
def marks : List Text := [['D', 'T', 'Z'], ['D', 'T'], ['D'], ['T']]

/-- A form is told by a mark in front of what is read. -/
theorem exists_mark_of_ofCapitals? {capitals t : Text} {form : DateForm}
    (h : DateForm.ofCapitals? capitals = some (form, t)) :
    ∃ mark ∈ marks, capitals = mark ++ t := by
  unfold DateForm.ofCapitals? at h
  split at h <;> cases h
  next => exact ⟨['D', 'T', 'Z'], by decide, rfl⟩
  next => exact ⟨['D', 'T'], by decide, rfl⟩
  next => exact ⟨['D'], by decide, rfl⟩
  next => exact ⟨['T'], by decide, rfl⟩

theorem isDateCharacter_of_mem_mark {mark : Text} (h : mark ∈ marks) :
    ∀ c ∈ mark, IsDateCharacter c := by
  have hall : ∀ mark ∈ marks, ∀ c ∈ mark, c ∈ ['L', 'D', 'T', 'Z', '+', '-', '−', ':'] := by
    simp [marks]
  exact fun c hc => .inr (.inr (hall mark h c hc))

/-- What is read behind the mark of a form is made of the characters of dates. -/
theorem isDateCharacter_of_readForm {offset : Int} {t : Text} {form : DateForm}
    {instant : Timestamp} (h : readForm offset t form = .ok instant) : ∀ c ∈ t, IsDateCharacter c := by
  cases form with
  | zoned =>
    obtain ⟨_, hscan, -⟩ := RecordFilter.bind_eq_ok_iff.1 h
    exact takes_scanZoned.complete hscan
  | dateTime =>
    obtain ⟨_, hscan, -⟩ := RecordFilter.bind_eq_ok_iff.1 h
    exact takes_scanDateTime.complete hscan
  | date =>
    obtain ⟨_, hscan, -⟩ := RecordFilter.bind_eq_ok_iff.1 h
    exact takes_date.complete hscan
  | time =>
    obtain ⟨_, hscan, -⟩ := RecordFilter.bind_eq_ok_iff.1 h
    exact takes_time.complete hscan

/-- Only digits are read as an integer, behind its sign. -/
theorem allDigits_of_readDigits {negative : Bool} {t : Text} {m n : Nat}
    (h : SignedInteger.readDigits negative m t = .ok n) : AllDigits t := by
  induction t generalizing m with
  | nil => exact fun c hc => absurd hc List.not_mem_nil
  | cons c t ih =>
    rw [SignedInteger.readDigits] at h
    split at h
    next hc =>
      simp only at h
      split at h
      next => cases h
      next => exact List.forall_mem_cons.2 ⟨hc, ih h⟩
    next => cases h

/-- What is read as a count of milliseconds is made of the characters of dates. -/
theorem isDateCharacter_of_readInteger {t : Text} {n : Int} (h : SignedInteger.read t = .ok n) :
    ∀ c ∈ t, IsDateCharacter c := by
  have hdigits : AllDigits (spanSign t).2 := by
    rw [SignedInteger.read] at h
    split at h
    next => cases h
    simp only at h
    split at h
    next => cases h
    next =>
      obtain ⟨_, hread, -⟩ := RecordFilter.bind_eq_ok_iff.1 h
      exact allDigits_of_readDigits hread
  have hrest : ∀ c ∈ (spanSign t).2, IsDateCharacter c := fun c hc => .inl (hdigits c hc)
  unfold spanSign at hrest
  split at hrest
  next => exact List.forall_mem_cons.2 ⟨by decide, hrest⟩
  next => exact List.forall_mem_cons.2 ⟨by decide, hrest⟩
  next => exact hrest

variable {offset : Int} {literal : Text} {instant : Timestamp}

/-- The capitals of a date literal are made of the characters of dates. -/
theorem isDateCharacter_of_read (h : read offset literal = .ok instant) :
    ∀ c ∈ literal.upper, IsDateCharacter c := by
  rw [read.eq_def] at h
  generalize literal.upper = capitals at h
  split at h
  next t =>
    cases hread : SignedInteger.read t with
    | error e => rw [hread] at h; cases h
    | ok n => exact List.forall_mem_cons.2 ⟨by decide, isDateCharacter_of_readInteger hread⟩
  next =>
    split at h
    next form t hform =>
      cases hread : readForm offset t form with
      | error e => rw [hread] at h; cases h
      | ok instant =>
        have ht := isDateCharacter_of_readForm hread
        obtain ⟨mark, hmark, rfl⟩ := exists_mark_of_ofCapitals? hform
        exact List.forall_mem_append.2 ⟨isDateCharacter_of_mem_mark hmark, ht⟩
    next => cases h

/-- A date literal starts with a letter. -/
theorem exists_upper_eq_cons_of_read (h : read offset literal = .ok instant) :
    ∃ c t, literal.upper = c :: t ∧ c.isDigit = false := by
  rw [read.eq_def] at h
  split at h
  next t hupper => exact ⟨'L', t, hupper, rfl⟩
  next =>
    split at h
    next form t hform =>
      obtain ⟨mark, hmark, hcapitals⟩ := exists_mark_of_ofCapitals? hform
      simp only [marks, List.mem_cons, List.not_mem_nil, or_false] at hmark
      rcases hmark with rfl | rfl | rfl | rfl <;> exact ⟨_, _, hcapitals, rfl⟩
    next => cases h

/-- No date literal starts with a digit. -/
theorem isDigit_eq_false_of_read {c : Char} {t : Text}
    (h : read offset (c :: t) = .ok instant) : c.isDigit = false := by
  obtain ⟨d, rest, hupper, hd⟩ := exists_upper_eq_cons_of_read h
  cases hc : c.isDigit with
  | false => rfl
  | true =>
    have hcode : c.toNat < 0x61 := Nat.lt_of_le_of_lt (toNat_of_isDigit hc).2 (by decide)
    rw [Text.upper_cons, upperCase_of_lt hcode] at hupper
    rw [(List.cons.inj hupper).1, hd] at hc
    cases hc

/-- **A character that dates have no use for is in no date literal**, if it is its own upper
case. -/
theorem notMem_of_read (h : read offset literal = .ok instant) {c : Char}
    (hupper : upperCase c = [c]) (hc : ¬IsDateCharacter c) : c ∉ literal := by
  intro hmem
  have hcapital : c ∈ literal.upper :=
    List.mem_flatMap.2 ⟨c, hmem, by rw [hupper]; exact List.mem_singleton_self c⟩
  exact hc (isDateCharacter_of_read h c hcapital)

end DateLiteral

end RecordFilter
