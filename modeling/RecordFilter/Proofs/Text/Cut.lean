import Mathlib.Data.List.Basic
import RecordFilter.Text.Basic

/-! # Where a text is cut

The cuts of `RecordFilter.Text.Basic` come with the equation that puts the pieces together again.
This module holds the other direction: given the pieces, a cut at the first occurrence of a
character or a word, or at the last of a character, finds them. -/

namespace RecordFilter.Text

/-! ## Cuts at a character -/

/-- The cut at the first `c` falls behind a text without `c`. -/
theorem splitFirst?_append {c : Char} {a : Text} (h : c ∉ a) (b : Text) :
    splitFirst? c (a ++ c :: b) = some (a, b) := by
  induction a with
  | nil => simp [splitFirst?_cons]
  | cons d a ih =>
    rw [List.mem_cons, not_or] at h
    rw [List.cons_append, splitFirst?_cons, if_neg (Ne.symm h.1), ih h.2]
    rfl

/-- There is no first `c` in a text without `c`. -/
theorem splitFirst?_eq_none {c : Char} {t : Text} (h : c ∉ t) : splitFirst? c t = none := by
  induction t with
  | nil => rfl
  | cons d t ih =>
    rw [List.mem_cons, not_or] at h
    rw [splitFirst?_cons, if_neg (Ne.symm h.1), ih h.2]
    rfl

/-- **A text is cut at the first `c`** if no `c` is in front of it. -/
theorem splitFirst?_eq_some_iff {c : Char} {t a b : Text} :
    splitFirst? c t = some (a, b) ↔ t = a ++ c :: b ∧ c ∉ a := by
  constructor
  · intro h
    have ht := eq_of_splitFirst? h
    refine ⟨ht, fun hc => ?_⟩
    -- The text is also cut behind a shorter beginning, and there is one cut only.
    obtain ⟨x, y, rfl, hx⟩ := List.eq_append_cons_of_mem hc
    rw [ht, List.append_assoc, List.cons_append, splitFirst?_append hx] at h
    have hlength := congrArg List.length (Prod.mk.inj (Option.some.inj h)).1
    simp at hlength
  · rintro ⟨rfl, ha⟩
    exact splitFirst?_append ha b

/-- There is no last `c` in a text without `c`. -/
theorem splitLast?_eq_none {c : Char} {t : Text} (h : c ∉ t) : splitLast? c t = none := by
  induction t with
  | nil => rfl
  | cons d t ih =>
    rw [List.mem_cons, not_or] at h
    rw [splitLast?, ih h.2]
    exact if_neg (Ne.symm h.1)

/-- The cut at the last `c` falls before a text without `c`. -/
theorem splitLast?_append (a : Text) {c : Char} {b : Text} (h : c ∉ b) :
    splitLast? c (a ++ c :: b) = some (a, b) := by
  induction a with
  | nil => rw [List.nil_append, splitLast?, splitLast?_eq_none h]; exact if_pos rfl
  | cons d a ih => rw [List.cons_append, splitLast?, ih]

/-- There is a last `c` in a text with `c`. -/
theorem splitLast?_eq_none_iff {c : Char} {t : Text} : splitLast? c t = none ↔ c ∉ t := by
  refine ⟨fun h hc => ?_, splitLast?_eq_none⟩
  induction t with
  | nil => cases hc
  | cons d t ih =>
    rw [splitLast?] at h
    split at h
    next => cases h
    next hnone =>
      rcases List.mem_cons.1 hc with rfl | hc
      · rw [if_pos rfl] at h
        cases h
      · exact ih hnone hc

/-- A text without `c` lengthens what is behind the last `c`. -/
theorem splitLast?_append_of_notMem {c : Char} {b : Text} (h : c ∉ b) (a : Text) :
    splitLast? c (a ++ b) = (splitLast? c a).map fun (x, y) => (x, y ++ b) := by
  induction a with
  | nil => rw [List.nil_append, splitLast?_eq_none h]; rfl
  | cons d a ih =>
    rw [List.cons_append, splitLast?, splitLast?, ih]
    cases splitLast? c a with
    | some p => rfl
    | none => split <;> simp_all

/-- **A text is cut at the last `c`** if no `c` is behind it. -/
theorem splitLast?_eq_some_iff {c : Char} {t a b : Text} :
    splitLast? c t = some (a, b) ↔ t = a ++ c :: b ∧ c ∉ b := by
  constructor
  · intro h
    have ht := eq_of_splitLast? h
    refine ⟨ht, fun hc => ?_⟩
    -- The text is also cut before a shorter end, and there is one cut only.
    obtain ⟨y, x, hreverse, hy⟩ := List.eq_append_cons_of_mem (List.mem_reverse.2 hc)
    obtain rfl : b = x.reverse ++ c :: y.reverse := by
      rw [← List.reverse_reverse b, hreverse]
      simp
    have hend : c ∉ y.reverse := fun hm => hy (List.mem_reverse.1 hm)
    rw [ht, ← List.cons_append, ← List.append_assoc, splitLast?_append _ hend] at h
    have hlength := congrArg List.length (Prod.mk.inj (Option.some.inj h)).2
    simp at hlength
    omega
  · rintro ⟨rfl, hb⟩
    exact splitLast?_append a hb

/-- A row without `c` lengthens the first piece of a split at `c`. -/
theorem splitOn_append_of_notMem {α : Type} [BEq α] [LawfulBEq α] {c : α} {a : List α} (h : c ∉ a)
    (b : List α) : (a ++ b).splitOn c = (b.splitOn c).modifyHead (a ++ ·) := by
  induction a with
  | nil => cases hb : b.splitOn c <;> simp [hb]
  | cons d a ih =>
    rw [List.mem_cons, not_or] at h
    rw [List.cons_append, List.splitOn_cons_eq_if_modifyHead, if_neg (by simpa using Ne.symm h.1),
      ih h.2, List.modifyHead_modifyHead]
    rfl

/-- A character that is not in `a` is found behind it. -/
theorem exists_eq_append_of_notMem {a b u v : Text} {c : Char} (hc : c ∉ a)
    (h : a ++ b = u ++ c :: v) : ∃ u', u = a ++ u' ∧ b = u' ++ c :: v := by
  rcases List.append_eq_append_iff.1 h with ⟨u', hu, hb⟩ | ⟨u', ha, hv⟩
  · exact ⟨u', hu, hb⟩
  · cases u' with
    | nil =>
      rw [List.append_nil] at ha
      exact ⟨[], by rw [ha, List.append_nil], hv.symm⟩
    | cons e u' =>
      obtain ⟨rfl, -⟩ := List.cons.inj hv
      exact absurd (by simp [ha]) hc

/-- No piece of a split at `c` has a `c`, and each has characters of the text only. -/
theorem mem_splitOn {c : Char} {t piece : Text} (h : piece ∈ t.splitOn c) :
    c ∉ piece ∧ piece ⊆ t := by
  induction t generalizing piece with
  | nil => simp_all
  | cons d t ih =>
    rw [List.splitOn_cons_eq_if_modifyHead] at h
    split at h
    next =>
      rcases List.mem_cons.1 h with rfl | hpiece
      · simp
      · exact ⟨(ih hpiece).1, List.subset_cons_of_subset d (ih hpiece).2⟩
    next hd =>
      -- The first piece is lengthened by `d`, the others stay as they are.
      have hdc : d ≠ c := by simpa using hd
      cases hpieces : t.splitOn c with
      | nil => exact absurd hpieces (List.splitOn_ne_nil c t)
      | cons first others =>
        rw [hpieces] at h ih
        rcases List.mem_cons.1 h with rfl | hpiece
        · obtain ⟨hc, hsub⟩ := ih List.mem_cons_self
          exact ⟨by simp [Ne.symm hdc, hc], List.cons_subset_cons d hsub⟩
        · obtain ⟨hc, hsub⟩ := ih (List.mem_cons_of_mem first hpiece)
          exact ⟨hc, List.subset_cons_of_subset d hsub⟩

/-- **A text is split at `c` into the pieces without `c`** that make it up again when they are put
together with a `c` between them. -/
theorem splitOn_eq_iff {c : Char} {t : Text} {pieces : List Text} :
    t.splitOn c = pieces ↔
      pieces ≠ [] ∧ (∀ piece ∈ pieces, c ∉ piece) ∧ [c].intercalate pieces = t := by
  constructor
  · rintro rfl
    exact ⟨List.splitOn_ne_nil c t, fun piece hpiece => (mem_splitOn hpiece).1,
      List.intercalate_splitOn c⟩
  · rintro ⟨hne, hfree, rfl⟩
    exact List.splitOn_intercalate c hfree hne

/-- Two pieces are put together with a `c` between them. -/
theorem intercalate_pair (c : Char) (a b : Text) : [c].intercalate [a, b] = a ++ c :: b := by
  simp

/-! ## Cuts at a word -/

/-- The pieces of a cut at a word give the text back. -/
theorem eq_of_breakAt? {word t a b : Text} (h : breakAt? word t = some (a, b)) :
    t = a ++ (word ++ b) := by
  induction t generalizing a with
  | nil =>
    rw [breakAt?] at h
    split at h
    next hword =>
      obtain ⟨rfl, rfl⟩ : [] = a ∧ [] = b := by simpa using h
      rw [List.isEmpty_iff.1 hword]
      rfl
    next => cases h
  | cons d t ih =>
    rw [breakAt?] at h
    split at h
    next rest hrest =>
      obtain ⟨rfl, rfl⟩ : [] = a ∧ rest = b := by simpa using h
      exact (List.isPrefixOf?_eq_some_iff_append_eq.1 hrest).symm
    next =>
      obtain ⟨⟨a', b'⟩, h', hp⟩ := Option.map_eq_some_iff.1 h
      obtain ⟨rfl, rfl⟩ : d :: a' = a ∧ b' = b := by simpa using hp
      rw [ih h', List.cons_append]

/-- A word does not start a text that lacks one of its characters. -/
theorem isPrefixOf?_eq_none {c : Char} {word t : Text} (hw : c ∈ word) (ht : c ∉ t) :
    word.isPrefixOf? t = none := by
  cases h : word.isPrefixOf? t with
  | none => rfl
  | some rest =>
    -- The word and the rest make up the text, so the text has the character of the word.
    have happend := List.isPrefixOf?_eq_some_iff_append_eq.1 h
    exact absurd (happend ▸ List.mem_append_left rest hw) ht

/-- A word occurs in a text if it starts the text or occurs behind its first character. -/
theorem isSome_breakAt?_cons (word : Text) (d : Char) (t : Text) :
    (breakAt? word (d :: t)).isSome = (word.isPrefixOf (d :: t) || (breakAt? word t).isSome) := by
  rw [breakAt?, ← List.isSome_isPrefixOf?_eq_isPrefixOf]
  cases word.isPrefixOf? (d :: t) <;> simp

/-- **A text is cut at a word exactly if the word occurs in it.** -/
theorem isSome_breakAt?_iff {word t : Text} :
    (breakAt? word t).isSome = true ↔ word <:+: t := by
  induction t with
  | nil => cases word <;> simp [breakAt?]
  | cons d t ih =>
    rw [isSome_breakAt?_cons, Bool.or_eq_true, List.isPrefixOf_iff_prefix, ih,
      List.infix_cons_iff]

/-- A text is not cut at a word that does not occur in it. -/
theorem breakAt?_eq_none_iff {word t : Text} : breakAt? word t = none ↔ ¬word <:+: t := by
  rw [← isSome_breakAt?_iff, Bool.not_eq_true, Option.isSome_eq_false_iff, Option.isNone_iff_eq_none]

/-- No occurrence of a word starts before the one at which a text is cut. -/
theorem length_le_of_breakAt? {word t a b x y : Text} (h : breakAt? word t = some (a, b))
    (ht : x ++ (word ++ y) = t) : a.length ≤ x.length := by
  induction t generalizing a x with
  | nil =>
    have hlength := congrArg List.length (eq_of_breakAt? h)
    simp only [List.length_nil, List.length_append] at hlength
    omega
  | cons d t ih =>
    rw [breakAt?] at h
    split at h
    next rest _ =>
      obtain ⟨rfl, -⟩ : [] = a ∧ rest = b := by simpa using h
      exact Nat.zero_le x.length
    next hnone =>
      obtain ⟨⟨a', b'⟩, h', hp⟩ := Option.map_eq_some_iff.1 h
      obtain ⟨rfl, rfl⟩ : d :: a' = a ∧ b' = b := by simpa using hp
      cases x with
      | nil =>
        -- The word would start the text, which would then be cut at once.
        have hstarts : word.isPrefixOf? (d :: t) = some y :=
          List.isPrefixOf?_eq_some_iff_append_eq.2 ht
        rw [hnone] at hstarts
        cases hstarts
      | cons e x => exact Nat.succ_le_succ (ih h' (List.cons.inj ht).2)

/-- A text that begins with none of the characters of `a` occurs in `a ++ b` only within `b`. -/
theorem infix_of_infix_append {w a b : Text} (hw : ∀ c ∈ w.head?, c ∉ a) (hne : w ≠ [])
    (h : w <:+: a ++ b) : w <:+: b := by
  induction a with
  | nil => exact h
  | cons d a ih =>
    rw [List.cons_append, List.infix_cons_iff] at h
    rcases h with h | h
    · rcases List.prefix_cons_iff.1 h with rfl | ⟨w, rfl, -⟩
      · exact absurd rfl hne
      · exact absurd List.mem_cons_self (hw d rfl)
    · exact ih (fun c hc hm => hw c hc (List.mem_cons_of_mem d hm)) h

/-- A word does not occur in a text that lacks one of its characters. -/
theorem breakAt?_eq_none {c : Char} {word t : Text} (hw : c ∈ word) (ht : c ∉ t) :
    breakAt? word t = none :=
  breakAt?_eq_none_iff.2 fun hword => ht (hword.subset hw)

/-- The first occurrence of a word starts behind a text without the word's first character. -/
theorem breakAt?_append {c : Char} {a : Text} (h : c ∉ a) (word t : Text) :
    breakAt? (c :: word) (a ++ t) =
      (breakAt? (c :: word) t).map fun (x, y) => (a ++ x, y) := by
  induction a with
  | nil => simp
  | cons d a ih =>
    rw [List.mem_cons, not_or] at h
    have hd : (c :: word).isPrefixOf? (d :: (a ++ t)) = none := by
      rw [List.isPrefixOf?, if_neg (by simpa using h.1)]
    rw [List.cons_append, breakAt?, hd, ih h.2, Option.map_map]
    rfl

/-- A word is not lengthened into a text without its last character. -/
theorem isPrefixOf?_append {c : Char} {word b : Text} (hw : word.getLast? = some c) (hb : c ∉ b)
    (a : Text) : word.isPrefixOf? (a ++ b) = (word.isPrefixOf? a).map (· ++ b) := by
  induction word generalizing a with
  | nil => simp at hw
  | cons d word ih =>
    cases a with
    | nil => exact isPrefixOf?_eq_none (List.mem_of_getLast? hw) hb
    | cons e a =>
      rw [List.cons_append, List.isPrefixOf?, List.isPrefixOf?]
      split
      next =>
        cases word with
        | nil => rfl
        | cons d' word => exact ih (by simpa using hw) a
      next => rfl

/-- The first occurrence of a word ends before a text without the word's last character. -/
theorem breakAt?_append_right {c : Char} {word b : Text} (hw : word.getLast? = some c)
    (hb : c ∉ b) (a : Text) :
    breakAt? word (a ++ b) = (breakAt? word a).map fun (x, y) => (x, y ++ b) := by
  have hmem : c ∈ word := List.mem_of_getLast? hw
  induction a with
  | nil => rw [List.nil_append, breakAt?_eq_none hmem hb, breakAt?_eq_none hmem (by simp)]; rfl
  | cons d a ih =>
    -- At each place in `a` the word occurs with `b` behind exactly if it does without.
    have hprefix := isPrefixOf?_append hw hb (d :: a)
    rw [List.cons_append] at hprefix
    rw [List.cons_append, breakAt?, breakAt?, hprefix, ih]
    cases word.isPrefixOf? (d :: a) with
    | some rest => rfl
    | none => cases breakAt? word a <;> rfl

end RecordFilter.Text
