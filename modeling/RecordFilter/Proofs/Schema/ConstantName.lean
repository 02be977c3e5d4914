import RecordFilter.Proofs.Number.Digits
import RecordFilter.Proofs.Text.Capital
import RecordFilter.Proofs.Text.Upper
import RecordFilter.Schema.ConstantName

/-! # The form of constant names

Without its underscores a constant name is what its name keeps: the capitals, and the letters and
digits of ASCII in upper case (`filter_ofName`). So it is made of underscores, ASCII digits and
capitals (`mem_ofName`), and it is proper if it has a digit or a capital, that is, if anything of
the name is left in it (`isProper_iff`). A proper one is an identifier if there is no capital in a
circle or a square in the name (`isIdentifier_ofName_iff`).

What is known of the underscores holds at every step of the writing. An underscore is written where
a character is left out, unless one came last, and in front of a capital behind a small letter; and
behind a small letter, or digits behind one, no underscore came last (`Draft.IsSound`). So no two
of them stand in a row. A text of this form, with no digit in front, is the constant name of itself,
and no other is (`ofName_eq_self_iff`). -/

namespace RecordFilter

/-- The letters and digits of ASCII lie in its first half. -/
theorem toNat_lt_of_isAlphanum {c : Char} (h : c.isAlphanum = true) : c.toNat < 128 := by
  have hclass : ((c.isUpper || c.isLower) || c.isDigit) = true := h
  rw [Bool.or_eq_true, Bool.or_eq_true] at hclass
  rcases hclass with (hupper | hlower) | hdigit
  · have hcode := toNat_of_isUpper hupper
    omega
  · have hcode : c.toNat ≤ 122 :=
      UInt32.le_iff_toNat_le.1 (of_decide_eq_true (Bool.and_eq_true_iff.1 hlower).2)
    omega
  · have hcode := toNat_of_isDigit hdigit
    omega

namespace ConstantName

/-! ## Characters -/

/-- A character that constant names are made of, underscores apart. -/
def IsProperCharacter (c : Char) : Prop := c.isDigit = true ∨ isCapital c = true

instance (c : Char) : Decidable (IsProperCharacter c) := instDecidableOr

/-- An underscore is neither a digit nor a capital. -/
theorem not_isProperCharacter_underscore : ¬ IsProperCharacter '_' := by decide

/-- A letter or digit of ASCII in upper case is a character of constant names. -/
theorem isProperCharacter_toUpper {c : Char} (h : c.isAlphanum = true) :
    IsProperCharacter c.toUpper :=
  forall_ascii (P := fun c => c.isAlphanum = true → IsProperCharacter c.toUpper) (by decide)
    (toNat_lt_of_isAlphanum h) h

/-- No small letter of ASCII is a character of constant names. -/
theorem not_isProperCharacter_of_isLower {c : Char} (h : c.isLower = true) :
    ¬ IsProperCharacter c := by
  have halphanum : ((c.isUpper || c.isLower) || c.isDigit) = true := by
    rw [h, Bool.or_true, Bool.true_or]
  exact forall_ascii (P := fun c => c.isLower = true → ¬ IsProperCharacter c) (by decide)
    (toNat_lt_of_isAlphanum halphanum) h

namespace IsProperCharacter

theorem ne_underscore {c : Char} (h : IsProperCharacter c) : c ≠ '_' := by
  rintro rfl
  exact not_isProperCharacter_underscore h

/-- A character of constant names is its own upper case. -/
theorem toUpper_eq {c : Char} (h : IsProperCharacter c) : c.toUpper = c := by
  apply dif_neg
  rintro ⟨hlow, hhigh⟩
  have hlower : c.isLower = true :=
    Bool.and_eq_true_iff.2 ⟨decide_eq_true hlow, decide_eq_true hhigh⟩
  exact not_isProperCharacter_of_isLower hlower h

end IsProperCharacter

/-- Whether a character stays in a constant name, if perhaps in upper case. -/
def isKept (c : Char) : Bool := isCapital c || c.isAlphanum

/-- A character that is kept becomes one of constant names. -/
theorem isProperCharacter_of_isKept {c : Char} (h : isKept c = true) :
    IsProperCharacter c.toUpper := by
  rcases Bool.or_eq_true_iff.1 h with hcapital | halphanum
  · have hc : IsProperCharacter c := .inr hcapital
    rwa [hc.toUpper_eq]
  · exact isProperCharacter_toUpper halphanum

/-- What a constant name keeps of its name. -/
def kept (name : Text) : Text := (name.filter isKept).map Char.toUpper

theorem kept_append (a b : Text) : kept (a ++ b) = kept a ++ kept b := by
  rw [kept, List.filter_append, List.map_append, ← kept, ← kept]

/-- Two underscores in a row stand at the beginning of a text or behind its first character. -/
theorem not_doubled_cons_iff {c : Char} {t : Text} :
    ¬ ['_', '_'] <:+: c :: t ↔ (c = '_' → t.head? ≠ some '_') ∧ ¬ ['_', '_'] <:+: t := by
  have hfirst : ['_'] <+: t ↔ t.head? = some '_' := by
    rw [List.head?_eq_some_iff]
    exact exists_congr fun _ => eq_comm
  rw [List.infix_cons_iff, List.cons_prefix_cons, hfirst, not_or, not_and, @eq_comm _ '_' c]

/-! ## Drafts -/

/-- A constant name that is being written. -/
structure Draft where
  /-- What is written, from its end. -/
  written : Text
  /-- Whether a small letter, or digits behind one, came last. -/
  afterSmall : Bool

namespace Draft

/-- What is written, from its beginning. -/
def text (d : Draft) : Text := d.written.reverse

/-- The draft with one more character of the name. -/
def put (d : Draft) (c : Char) : Draft :=
  if isCapital c then ⟨c :: if d.afterSmall then '_' :: d.written else d.written, false⟩
  else if c.isAlphanum then ⟨c.toUpper :: d.written, !c.isDigit || d.afterSmall⟩
  else ⟨if d.written.head? = some '_' then d.written else '_' :: d.written, false⟩

/-- A name is written character by character. -/
theorem write_eq_text_foldl (d : Draft) (name : Text) :
    write d.written d.afterSmall name = (name.foldl put d).text := by
  induction name generalizing d with
  | nil => rfl
  | cons c name ih =>
    rw [List.foldl_cons, ← ih, write, put]
    split
    · rfl
    · split <;> rfl

/-! ### What is kept -/

/-- One character adds what is kept of it, underscores apart. -/
theorem filter_text_put (d : Draft) (c : Char) :
    (d.put c).text.filter (· ≠ '_') = d.text.filter (· ≠ '_') ++ kept [c] := by
  rw [put]
  split
  next hcapital =>
    have hc : IsProperCharacter c := .inr hcapital
    have hkept : kept [c] = [c] := by simp [kept, isKept, hcapital, hc.toUpper_eq]
    split <;> simp [text, hkept, hc.ne_underscore]
  next hcapital =>
    split
    next halphanum =>
      have hc : c.toUpper ≠ '_' := (isProperCharacter_toUpper halphanum).ne_underscore
      have hkept : kept [c] = [c.toUpper] := by simp [kept, isKept, halphanum]
      simp [text, hkept, hc]
    next halphanum =>
      have hkept : kept [c] = [] := by simp [kept, isKept, hcapital, halphanum]
      split <;> simp [text, hkept]

/-- **A name adds what is kept of it**, underscores apart. -/
theorem filter_text_foldl (d : Draft) (name : Text) :
    (name.foldl put d).text.filter (· ≠ '_') = d.text.filter (· ≠ '_') ++ kept name := by
  induction name generalizing d with
  | nil => simp [kept]
  | cons c name ih =>
    calc (name.foldl put (d.put c)).text.filter (· ≠ '_')
        = (d.put c).text.filter (· ≠ '_') ++ kept name := ih (d.put c)
      _ = d.text.filter (· ≠ '_') ++ kept [c] ++ kept name := by rw [filter_text_put]
      _ = d.text.filter (· ≠ '_') ++ kept (c :: name) := by
        rw [List.append_assoc, ← kept_append, List.singleton_append]

/-! ### Underscores -/

/-- What the underscores of a draft obey. -/
structure IsSound (d : Draft) : Prop where
  /-- No two of them stand in a row. -/
  not_doubled : ¬ ['_', '_'] <:+: d.written
  /-- None comes last behind a small letter, so that one more may be written. -/
  afterSmall (h : d.afterSmall = true) : d.written.head? ≠ some '_'

/-- One more character leaves a draft sound. -/
theorem IsSound.put {d : Draft} (hd : d.IsSound) (c : Char) : (d.put c).IsSound := by
  rw [Draft.put]
  split
  next hcapital =>
    have hc : c ≠ '_' := IsProperCharacter.ne_underscore (.inr hcapital)
    refine ⟨not_doubled_cons_iff.2 ⟨fun heq => absurd heq hc, ?_⟩, nofun⟩
    split
    next hsmall => exact not_doubled_cons_iff.2 ⟨fun _ => hd.afterSmall hsmall, hd.not_doubled⟩
    next => exact hd.not_doubled
  next =>
    split
    next halphanum =>
      -- A digit may leave the flag up, but then it comes last itself, and it is no underscore.
      have hc : c.toUpper ≠ '_' := (isProperCharacter_toUpper halphanum).ne_underscore
      refine ⟨not_doubled_cons_iff.2 ⟨fun heq => absurd heq hc, hd.not_doubled⟩, fun _ => ?_⟩
      simpa using hc
    next =>
      refine ⟨?_, nofun⟩
      split
      next => exact hd.not_doubled
      next hlast => exact not_doubled_cons_iff.2 ⟨fun _ => hlast, hd.not_doubled⟩

/-- **A name leaves a draft sound.** -/
theorem IsSound.foldl {d : Draft} (hd : d.IsSound) (name : Text) :
    (name.foldl Draft.put d).IsSound :=
  List.foldlRecOn name Draft.put hd fun _ hd c _ => hd.put c

/-! ### Writing a text as it stands -/

theorem put_underscore {written : Text} (h : written.head? ≠ some '_') :
    put ⟨written, false⟩ '_' = ⟨'_' :: written, false⟩ := by
  rw [put, if_neg (by decide), if_neg (by decide), if_neg h]

theorem put_proper {written : Text} {c : Char} (h : IsProperCharacter c) :
    put ⟨written, false⟩ c = ⟨c :: written, false⟩ := by
  by_cases hcapital : isCapital c = true
  · simp [put, hcapital]
  · have hdigit : c.isDigit = true := h.resolve_right hcapital
    simp [put, hcapital, Char.isAlphanum, hdigit, h.toUpper_eq]

/-- Underscores and proper characters are written as they stand, if that puts no two underscores in
a row. -/
theorem foldl_put_eq {written t : Text} (hproper : ∀ c ∈ t, c = '_' ∨ IsProperCharacter c)
    (hsingle : ¬ ['_', '_'] <:+: t.reverse ++ written) :
    t.foldl put ⟨written, false⟩ = ⟨t.reverse ++ written, false⟩ := by
  -- By induction on the text, whatever is written before it. The flag stays down, as there is no
  -- small letter in the text, so no underscore is put in front of a capital.
  induction t generalizing written with
  | nil => rfl
  | cons c t ih =>
    rw [List.reverse_cons, List.append_assoc, List.singleton_append] at hsingle ⊢
    have hnext : put ⟨written, false⟩ c = ⟨c :: written, false⟩ := by
      rcases hproper c List.mem_cons_self with rfl | hc
      · have hcons : ¬ ['_', '_'] <:+: '_' :: written := fun h =>
          hsingle (h.trans (List.suffix_append t.reverse ('_' :: written)).isInfix)
        exact put_underscore ((not_doubled_cons_iff.1 hcons).1 rfl)
      · exact put_proper hc
    rw [List.foldl_cons, hnext]
    exact ih (fun d hd => hproper d (List.mem_cons_of_mem c hd)) hsingle

end Draft

/-- The draft of a whole name. -/
def draft (name : Text) : Draft := name.foldl Draft.put ⟨[], false⟩

theorem filter_text_draft (name : Text) : (draft name).text.filter (· ≠ '_') = kept name :=
  Draft.filter_text_foldl ⟨[], false⟩ name

theorem not_doubled_draft (name : Text) : ¬ ['_', '_'] <:+: (draft name).text := by
  have hstart : Draft.IsSound ⟨[], false⟩ := ⟨by decide, nofun⟩
  exact fun h => (hstart.foldl name).not_doubled (List.reverse_infix.1 h)

/-! ## Constant names -/

/-- An underscore goes in front of a digit that comes first, and else nothing. -/
theorem guardDigit_eq (t : Text) :
    guardDigit t = if t.head?.any Char.isDigit then '_' :: t else t := by
  cases t <;> rfl

theorem ofName_eq (name : Text) : ofName name = guardDigit (draft name).text :=
  congrArg guardDigit (Draft.write_eq_text_foldl ⟨[], false⟩ name)

/-- **A constant name is what its name keeps**, underscores apart. -/
theorem filter_ofName (name : Text) : (ofName name).filter (· ≠ '_') = kept name := by
  rw [ofName_eq, guardDigit_eq, ← filter_text_draft]
  split
  · exact List.filter_cons_of_neg (by decide)
  · rfl

/-- A character of a constant name, unless it is an underscore, comes from one that is kept. -/
theorem exists_eq_toUpper {c : Char} {name : Text} (h : c ∈ ofName name) (hc : c ≠ '_') :
    ∃ d ∈ name, isKept d = true ∧ d.toUpper = c := by
  have hkept : c ∈ kept name := by
    rw [← filter_ofName]
    exact List.mem_filter.2 ⟨h, decide_eq_true hc⟩
  obtain ⟨d, hd, rfl⟩ := List.mem_map.1 hkept
  obtain ⟨hname, hd⟩ := List.mem_filter.1 hd
  exact ⟨d, hname, hd, rfl⟩

/-- **A constant name consists of underscores, digits and capitals.** -/
theorem mem_ofName {c : Char} {name : Text} (h : c ∈ ofName name) :
    c = '_' ∨ IsProperCharacter c := by
  by_cases hc : c = '_'
  · exact .inl hc
  · obtain ⟨d, -, hd, rfl⟩ := exists_eq_toUpper h hc
    exact .inr (isProperCharacter_of_isKept hd)

/-- **A constant name is proper if it has a digit or a capital.** -/
theorem isProper_iff {name : Text} :
    isProper (ofName name) = true ↔ ∃ c ∈ ofName name, IsProperCharacter c := by
  simp only [isProper, List.any_eq_true, decide_eq_true_eq]
  constructor
  · rintro ⟨c, hmem, hc⟩
    exact ⟨c, hmem, (mem_ofName hmem).resolve_left hc⟩
  · rintro ⟨c, hmem, hc⟩
    exact ⟨c, hmem, hc.ne_underscore⟩

/-! ## Identifiers -/

/-- Upper case changes nothing about whether a character that is kept is an enclosed capital. -/
theorem isEnclosedCapital_toUpper {c : Char} (h : isKept c = true) :
    isEnclosedCapital c.toUpper = isEnclosedCapital c := by
  rcases Bool.or_eq_true_iff.1 h with hcapital | halphanum
  · have hc : IsProperCharacter c := .inr hcapital
    rw [hc.toUpper_eq]
  · exact forall_ascii (P := fun c => isEnclosedCapital c.toUpper = isEnclosedCapital c) (by decide)
      (toNat_lt_of_isAlphanum halphanum)

/-- **A constant name is an identifier if there is no enclosed capital in its name.** -/
theorem isIdentifier_ofName_iff {name : Text} :
    isIdentifier (ofName name) = true ↔ ∀ c ∈ name, isEnclosedCapital c = false := by
  simp only [isIdentifier, List.all_eq_true, Bool.not_eq_true']
  constructor
  · intro h c hc
    rw [← Bool.not_eq_true]
    intro henclosed
    have hkept : isKept c = true := by
      rw [isKept, isCapital_of_isEnclosedCapital henclosed, Bool.true_or]
    have hmem : c.toUpper ∈ kept name := List.mem_map_of_mem (List.mem_filter.2 ⟨hc, hkept⟩)
    rw [← filter_ofName] at hmem
    rw [← isEnclosedCapital_toUpper hkept, h _ (List.mem_filter.1 hmem).1] at henclosed
    cases henclosed
  · intro h c hc
    by_cases hunderscore : c = '_'
    · rw [hunderscore]
      decide
    · obtain ⟨d, hname, hkept, rfl⟩ := exists_eq_toUpper hc hunderscore
      rw [isEnclosedCapital_toUpper hkept, h d hname]

/-! ## Normal form -/

/-- The form of constant names. -/
structure IsNormal (t : Text) : Prop where
  /-- They are made of underscores, digits and capitals. -/
  isProperCharacter {c : Char} (h : c ∈ t) : c = '_' ∨ IsProperCharacter c
  /-- No two underscores stand in a row. -/
  not_doubled : ¬ ['_', '_'] <:+: t
  /-- No digit comes first. -/
  not_isDigit : t.head?.any Char.isDigit = false

/-- Every constant name has the form. -/
theorem isNormal_ofName (name : Text) : IsNormal (ofName name) where
  isProperCharacter := mem_ofName
  not_doubled := by
    rw [ofName_eq, guardDigit_eq]
    split
    next hdigit =>
      have hfirst : (draft name).text.head? ≠ some '_' := by
        intro hunderscore
        rw [hunderscore] at hdigit
        exact absurd hdigit (by decide)
      exact not_doubled_cons_iff.2 ⟨fun _ => hfirst, not_doubled_draft name⟩
    next => exact not_doubled_draft name
  not_isDigit := by
    rw [ofName_eq, guardDigit_eq]
    split
    next => rfl
    next hdigit => exact Bool.eq_false_iff.2 hdigit

/-- **The texts of the form are those that are their own constant names.** -/
theorem ofName_eq_self_iff {t : Text} : ofName t = t ↔ IsNormal t := by
  constructor
  · intro h
    exact h ▸ isNormal_ofName t
  · intro h
    have hsingle : ¬ ['_', '_'] <:+: t.reverse ++ [] := by
      rw [List.append_nil]
      exact fun hdoubled => h.not_doubled (List.reverse_infix.1 hdoubled)
    have hdraft : draft t = ⟨t.reverse ++ [], false⟩ :=
      Draft.foldl_put_eq (fun _ => h.isProperCharacter) hsingle
    rw [ofName_eq, hdraft, Draft.text, List.append_nil, List.reverse_reverse, guardDigit_eq,
      h.not_isDigit, if_neg Bool.false_ne_true]

/-- **Constant names are in normal form**: they have the form, each is its own constant name, and
without underscores it is the capitals of its name with the letters and digits of ASCII, in their
order and in upper case. -/
theorem ofName_normalForm (name : Text) :
    IsNormal (ofName name) ∧ ofName (ofName name) = ofName name ∧
      (ofName name).filter (· ≠ '_') =
        (name.filter fun c => isCapital c || c.isAlphanum).map Char.toUpper :=
  ⟨isNormal_ofName name, ofName_eq_self_iff.2 (isNormal_ofName name), filter_ofName name⟩

/-- Digits hide no small letter before them, and a run of other characters gives one underscore. -/
example : ofName ['1', 's', 't', '-', '>', 'i', 'd', '2', 'É', 'é'] =
    ['_', '1', 'S', 'T', '_', 'I', 'D', '2', '_', 'É', '_'] := by decide

end ConstantName

end RecordFilter
