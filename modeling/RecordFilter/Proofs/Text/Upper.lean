import RecordFilter.Text.Upper

/-! # Upper case

A text of digits, signs and capitals is its own upper case (`Capital.upper_eq`), and a word in any
case has the upper case that it is compared by (`upper_of_isWord`). -/

namespace RecordFilter

/-- What holds of the characters of ASCII can be checked one by one. -/
theorem forall_ascii {P : Char → Prop} (h : ∀ i : Fin 128, P (Char.ofNat i)) {c : Char}
    (hc : c.toNat < 128) : P c := by
  have hcode := h ⟨c.toNat, hc⟩
  rwa [Char.ofNat_toNat] at hcode

/-- A small letter has a code from that of the first on. -/
theorem le_toNat_of_isLower {c : Char} (h : c.isLower = true) : 0x61 ≤ c.toNat :=
  UInt32.le_iff_toNat_le.1 (of_decide_eq_true (Bool.and_eq_true_iff.1 h).1)

/-- A capital has a code between those of the first and the last. -/
theorem toNat_of_isUpper {c : Char} (h : c.isUpper = true) : 65 ≤ c.toNat ∧ c.toNat ≤ 90 :=
  have hcode : 65 ≤ c.val ∧ c.val ≤ 90 := of_decide_eq_true h
  ⟨UInt32.le_iff_toNat_le.1 hcode.1, UInt32.le_iff_toNat_le.1 hcode.2⟩

/-- A character below the small letters is its own upper case. -/
theorem upperCase_of_lt {c : Char} (h : c.toNat < 0x61) : upperCase c = [c] := by
  have hlower : c.isLower = false :=
    Bool.eq_false_iff.2 fun hc => Nat.not_le.2 h (le_toNat_of_isLower hc)
  rw [upperCase.eq_def, hlower, if_neg Bool.false_ne_true]
  split
  case h_18 => rfl
  all_goals exact absurd h (by decide)

/-- A capital comes back from its small letter. -/
theorem toUpper_toLower_of_isUpper {c : Char} (h : c.isUpper = true) : c.toLower.toUpper = c := by
  have hcode := (toNat_of_isUpper h).2
  exact forall_ascii (P := fun c => c.isUpper = true → c.toLower.toUpper = c) (by decide)
    (by omega) h

/-- A letter in either case is put into upper case. -/
theorem upperCase_of_toLower {c : Char} (h : c.toLower.isLower = true) :
    upperCase c = [c.toLower.toUpper] := by
  by_cases hupper : c.isUpper = true
  · have hcode : c.toNat ≤ 90 := (toNat_of_isUpper hupper).2
    rw [upperCase_of_lt (by omega), toUpper_toLower_of_isUpper hupper]
  · have hsame : c.toLower = c := dif_neg fun hcode => hupper (decide_eq_true hcode)
    rw [hsame] at h ⊢
    rw [upperCase.eq_def, if_pos h]

namespace Text

/-- A text whose characters all come before the small letters. -/
def Capital (t : Text) : Prop := ∀ c ∈ t, c.toNat < 0x61

/-- Such a text is its own upper case. -/
theorem Capital.upper_eq {t : Text} (h : Capital t) : upper t = t := by
  induction t with
  | nil => rfl
  | cons c t ih =>
    have hc : upperCase c = [c] := upperCase_of_lt (h c List.mem_cons_self)
    rw [upper_cons, hc, ih fun d hd => h d (List.mem_cons_of_mem c hd), List.singleton_append]

theorem Capital.cons {c : Char} {t : Text} (hc : c.toNat < 0x61) (ht : Capital t) :
    Capital (c :: t) := List.forall_mem_cons.2 ⟨hc, ht⟩

theorem Capital.append {s t : Text} (hs : Capital s) (ht : Capital t) : Capital (s ++ t) :=
  List.forall_mem_append.2 ⟨hs, ht⟩

/-- A word in any case is put into upper case. -/
theorem upper_of_isWord {word t : Text} (hword : word.all Char.isLower = true)
    (h : isWordIgnoringAsciiCase word t = true) : upper t = word.map Char.toUpper := by
  obtain rfl : t.map Char.toLower = word := by simpa [isWordIgnoringAsciiCase] using h
  induction t with
  | nil => rfl
  | cons c t ih =>
    rw [List.map_cons, List.all_cons, Bool.and_eq_true] at hword
    have ht : upper t = (t.map Char.toLower).map Char.toUpper :=
      ih hword.2 (by simp [isWordIgnoringAsciiCase])
    rw [upper_cons, upperCase_of_toLower hword.1, ht, List.singleton_append, List.map_cons,
      List.map_cons]

end Text

end RecordFilter
