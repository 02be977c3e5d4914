import Mathlib.Data.List.Find
import RecordFilter.Escape
import RecordFilter.Proofs.Text.Cut

/-! # Where escaping distributes

Escaping reads a reserved word behind every backslash, so a text is not in general escaped part by
part: a word may stretch over the seam. It does not if the first part does not end with a backslash
and the second starts with a character that continues no reserved word (`Resumes`), which every
parenthesis and every letter is, or has no equals sign, with which all longer words end. -/

namespace RecordFilter

/-- A text that, put behind another, lengthens no reserved word at the end of the other. -/
def Resumes (t : Text) : Prop := ∀ c ∈ t.head?, ∀ word ∈ reservedWords, c ∉ word.tail

/-- Only the second characters of operators continue a reserved word. -/
theorem resumes_cons {c : Char} (he : c ≠ '=') (hh : c ≠ '#') (t : Text) : Resumes (c :: t) := by
  simp [Resumes, reservedWords, he, hh]

/-- A word without the first character of `b` is not lengthened into `b`. -/
theorem isPrefixOf_append {word a b : Text} (h : ∀ c ∈ b.head?, c ∉ word) :
    word.isPrefixOf (a ++ b) = word.isPrefixOf a := by
  induction word generalizing a with
  | nil => simp
  | cons d word ih =>
    cases a with
    | nil =>
      cases b with
      | nil => rfl
      | cons c b =>
        have hcd : d ≠ c := fun hdc => h c rfl (hdc ▸ List.mem_cons_self)
        simp [List.isPrefixOf, hcd]
    | cons e a =>
      have htail : ∀ c ∈ b.head?, c ∉ word := fun c hc hm => h c hc (List.mem_cons_of_mem d hm)
      simp [List.isPrefixOf, ih htail]

/-- The reserved word at the start of a text ends before what resumes the text. -/
theorem reservedWord?_append {a b : Text} (ha : a ≠ []) (hb : Resumes b) :
    reservedWord? (a ++ b) = reservedWord? a := by
  obtain ⟨e, a, rfl⟩ := List.exists_cons_of_ne_nil ha
  refine List.find?_congr fun word hword => ?_
  cases word with
  | nil => rfl
  | cons d word =>
    have htail : ∀ c ∈ b.head?, c ∉ word := fun c hc => hb c hc _ hword
    rw [List.cons_append, List.isPrefixOf, List.isPrefixOf, isPrefixOf_append htail]

/-- A reserved word of several characters ends with an equals sign, so none ends in a text without
that. -/
theorem reservedWord?_append_of_notMem {a b : Text} (ha : a ≠ []) (hb : '=' ∉ b) :
    reservedWord? (a ++ b) = reservedWord? a := by
  have hends : ∀ word ∈ reservedWords, word.length = 1 ∨ word.getLast? = some '=' := by decide
  obtain ⟨e, a, rfl⟩ := List.exists_cons_of_ne_nil ha
  refine List.find?_congr fun word hword => ?_
  rcases hends word hword with hlength | hlast
  · obtain ⟨d, rfl⟩ := List.length_eq_one_iff.1 hlength
    simp [List.isPrefixOf]
  · rw [← List.isSome_isPrefixOf?_eq_isPrefixOf, ← List.isSome_isPrefixOf?_eq_isPrefixOf,
      Text.isPrefixOf?_append hlast hb, Option.isSome_map]

/-- A reserved word is one of the list, and starts the text. -/
theorem mem_and_prefix_of_reservedWord? {t word : Text} (h : reservedWord? t = some word) :
    word ∈ reservedWords ∧ word <+: t := by
  have hstarts := List.find?_some h
  exact ⟨List.mem_of_find?_eq_some h, List.isPrefixOf_iff_prefix.1 hstarts⟩

/-! ## The escaped form -/

/-- A backslash and the reserved word behind it are replaced. -/
theorem escape_word {t word : Text} (h : reservedWord? t = some word) :
    escape ('\\' :: t) = Percent.encode word ++ escape (t.drop word.length) := by
  rw [escape, if_pos rfl, h]

/-- A backslash with no reserved word behind it is copied. -/
theorem escape_backslash {t : Text} (h : reservedWord? t = none) :
    escape ('\\' :: t) = '\\' :: escape t := by
  rw [escape, if_pos rfl, h]

/-- A backslash and the reserved word behind it are replaced, and then escaping goes on behind the
word. -/
theorem escape_word_append {word rest : Text} (h : reservedWord? (word ++ rest) = some word) :
    escape ('\\' :: (word ++ rest)) = Percent.encode word ++ escape rest := by
  rw [escape_word h, List.drop_left]

/-- **Induction along the escaped words of a text**: what holds of the empty text and is kept by
putting in front a backslash and the reserved word behind it, a backslash with no reserved word
behind it, or another character, holds of every text. -/
@[elab_as_elim]
theorem escape_induction {motive : Text → Prop} (nil : motive [])
    (word : ∀ word rest, reservedWord? (word ++ rest) = some word → motive rest →
      motive ('\\' :: (word ++ rest)))
    (backslash : ∀ t, reservedWord? t = none → motive t → motive ('\\' :: t))
    (other : ∀ c t, c ≠ '\\' → motive t → motive (c :: t)) (t : Text) : motive t := by
  induction t using escape.induct with
  | case1 => exact nil
  | case2 c t w hword ih =>
    obtain ⟨rfl, hw⟩ : c = '\\' ∧ reservedWord? t = some w := by simpa using hword
    obtain ⟨-, rest, rfl⟩ := mem_and_prefix_of_reservedWord? hw
    rw [List.drop_left] at ih
    exact word w rest hw ih
  | case3 c t hnone ih =>
    by_cases hc : c = '\\'
    · subst hc
      exact backslash t (by simpa using hnone) ih
    · exact other c t hc ih

/-- Escaping copies a text without a backslash. -/
theorem escape_append_of_notMem {a : Text} (h : '\\' ∉ a) (b : Text) :
    escape (a ++ b) = a ++ escape b := by
  induction a with
  | nil => rfl
  | cons c a ih =>
    rw [List.mem_cons, not_or] at h
    rw [List.cons_append, escape_cons_of_ne (Ne.symm h.1), ih h.2, List.cons_append]

/-- **Escaping distributes over a seam** that no escaped word stretches over. -/
theorem escape_append_of_seam {a b : Text} (ha : a.getLast? ≠ some '\\')
    (hb : ∀ t, t ≠ [] → reservedWord? (t ++ b) = reservedWord? t) :
    escape (a ++ b) = escape a ++ escape b := by
  -- Right before the seam there is no backslash, so behind each backslash some text is left.
  have hrest : ∀ {d t}, (d :: t).getLast? ≠ some '\\' → t.getLast? ≠ some '\\' := by
    intro d t h hlast
    rw [List.getLast?_cons, hlast] at h
    exact h rfl
  have hne : ∀ {t : Text}, ('\\' :: t).getLast? ≠ some '\\' → t ≠ [] := by
    rintro _ h rfl
    exact h rfl
  induction a using escape_induction with
  | nil => simp
  | word word rest hw ih =>
    have hlast : rest.getLast? ≠ some '\\' := by
      intro h
      apply hrest ha
      rw [List.getLast?_append, h]
      rfl
    -- The word lies before the seam as a whole.
    have hseam : reservedWord? (word ++ (rest ++ b)) = some word := by
      rw [← List.append_assoc, hb _ (hne ha), hw]
    rw [List.cons_append, List.append_assoc, escape_word_append hseam, escape_word_append hw,
      ih hlast, List.append_assoc]
  | backslash t hw ih =>
    rw [List.cons_append, escape_backslash ((hb t (hne ha)).trans hw), escape_backslash hw,
      ih (hrest ha), List.cons_append]
  | other c t hc ih =>
    rw [List.cons_append, escape_cons_of_ne hc, escape_cons_of_ne hc, ih (hrest ha),
      List.cons_append]

/-- Escaping distributes in front of a text that resumes the one before it. -/
theorem escape_append {a b : Text} (ha : a.getLast? ≠ some '\\') (hb : Resumes b) :
    escape (a ++ b) = escape a ++ escape b :=
  escape_append_of_seam ha fun _ ht => reservedWord?_append ht hb

end RecordFilter
