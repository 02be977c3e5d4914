import RecordFilter.Literal
import RecordFilter.Proofs.Escape
import RecordFilter.Proofs.Text.Percent

/-! # Quoted reserved words

A backslash before every reserved word makes any text mere data. The text is gone through from left
to right and at each place the longest reserved word is taken (`mapReserved`), which
`induction_on_words` turns into a principle of induction. What replaces the words begins with a
character of its own, so no word arises that was not there before (`prefix_of_prefix_mapReserved`):
escaping finds the very words that were quoted, and after it none is left. -/

namespace RecordFilter

/-! ## The longest reserved word -/

/-- A reserved word has at least one character. -/
theorem length_pos_of_mem_reservedWords : ∀ word ∈ reservedWords, 0 < word.length := by
  decide

/-- Reserved words hold neither a backslash nor a percent sign. -/
theorem notMem_of_mem_reservedWords : ∀ word ∈ reservedWords, '\\' ∉ word ∧ '%' ∉ word := by
  decide

/-- Where there is no reserved word, none starts the text. -/
theorem not_prefix_of_reservedWord?_eq_none {t word : Text} (h : reservedWord? t = none)
    (hword : word ∈ reservedWords) : ¬word <+: t := by
  have hnone := List.find?_eq_none.1 h word hword
  rwa [List.isPrefixOf_iff_prefix] at hnone

/-- A reserved word is found if it starts the text and no word before it in the list does. -/
theorem reservedWord?_eq_some_iff {t word : Text} :
    reservedWord? t = some word ↔ word <+: t ∧ ∃ earlier later,
      reservedWords = earlier ++ word :: later ∧ ∀ other ∈ earlier, ¬other <+: t := by
  simp only [reservedWord?, List.find?_eq_some_iff_append, List.isPrefixOf_iff_prefix,
    Bool.not_eq_true', ← Bool.not_eq_true]

/-- A word of a list that starts a text and is no shorter than any other that does. -/
structure IsLongest (words : List Text) (t word : Text) : Prop where
  mem : word ∈ words
  starts : word <+: t
  length_le : ∀ other ∈ words, other <+: t → other.length ≤ word.length

section Longest

variable {words : List Text} {t word : Text}

/-- There is one longest word. -/
theorem IsLongest.unique {other : Text} (h : IsLongest words t word)
    (hother : IsLongest words t other) : word = other := by
  have hle := h.length_le other hother.mem hother.starts
  have hge := hother.length_le word h.mem h.starts
  exact (List.prefix_of_prefix_length_le h.starts hother.starts hge).eq_of_length
    (Nat.le_antisymm hge hle)

/-- **The first word of a list that starts a text is the longest** of those that do, if no word of
the list starts one behind it. -/
theorem find?_isPrefixOf_eq_some_iff (hwords : words.Pairwise fun a b => ¬a <+: b) :
    words.find? (·.isPrefixOf t) = some word ↔ IsLongest words t word := by
  have hlongest : ∀ word, words.find? (·.isPrefixOf t) = some word → IsLongest words t word := by
    intro word h
    simp only [List.find?_eq_some_iff_append, List.isPrefixOf_iff_prefix, Bool.not_eq_true',
      ← Bool.not_eq_true] at h
    obtain ⟨hword, earlier, later, rfl, hearlier⟩ := h
    refine ⟨by simp, hword, fun other hmem hstarts => ?_⟩
    rw [List.mem_append, List.mem_cons] at hmem
    rcases hmem with hmem | rfl | hmem
    · exact absurd hstarts (hearlier other hmem)
    · exact Nat.le_refl _
    · -- One of the two starts the other, and it is not the one that comes first in the list.
      rcases List.prefix_or_prefix_of_prefix hstarts hword with hle | hle
      · exact hle.length_le
      · rw [List.pairwise_append, List.pairwise_cons] at hwords
        exact absurd hle (hwords.2.1.1 other hmem)
  constructor
  · exact hlongest word
  · intro h
    cases hfind : words.find? (·.isPrefixOf t) with
    | none =>
      have hstarts := List.isPrefixOf_iff_prefix.2 h.starts
      exact absurd hstarts (List.find?_eq_none.1 hfind word h.mem)
    | some other => rw [h.unique (hlongest other hfind)]

end Longest

/-- No reserved word starts one behind it in the list. -/
theorem pairwise_not_prefix_reservedWords : reservedWords.Pairwise fun a b => ¬a <+: b := by
  decide

/-- The reserved word at the start of a text is the longest. -/
theorem reservedWord?_eq_some_iff_isLongest {t word : Text} :
    reservedWord? t = some word ↔ IsLongest reservedWords t word :=
  find?_isPrefixOf_eq_some_iff pairwise_not_prefix_reservedWords

/-! ## Going through a text word by word -/

/-- Replace the reserved words of a text, at each place the longest, and copy all else. -/
def mapReserved (f : Text → Text) : Text → Text
  | [] => []
  | c :: t =>
    match reservedWord? (c :: t) with
    | some word => f word ++ mapReserved f (t.drop (word.length - 1))
    | none => c :: mapReserved f t
termination_by t => t.length
decreasing_by all_goals (simp only [List.length_drop, List.length_cons]; omega)

/-- Put a backslash before every reserved word. -/
def quoteReserved : Text → Text := mapReserved ('\\' :: ·)

section Map

variable {f : Text → Text}

@[simp] theorem mapReserved_nil : mapReserved f [] = [] := by
  rw [mapReserved]

/-- A reserved word is replaced. -/
theorem mapReserved_word {word rest : Text} (h : reservedWord? (word ++ rest) = some word) :
    mapReserved f (word ++ rest) = f word ++ mapReserved f rest := by
  have hpos := length_pos_of_mem_reservedWords word (mem_and_prefix_of_reservedWord? h).1
  obtain ⟨c, word, rfl⟩ := List.exists_cons_of_length_pos hpos
  rw [List.cons_append] at h ⊢
  rw [mapReserved, h]
  simp

/-- Where no reserved word starts, a character is copied. -/
theorem mapReserved_cons {c : Char} {t : Text} (h : reservedWord? (c :: t) = none) :
    mapReserved f (c :: t) = c :: mapReserved f t := by
  rw [mapReserved, h]

end Map

/-- **Induction along the reserved words of a text**: what holds of the empty text and is kept by
putting a reserved word in front, as the longest there, or a character that begins none, holds of
every text. -/
@[elab_as_elim] theorem induction_on_words {P : Text → Prop} (t : Text) (nil : P [])
    (word : ∀ word rest, reservedWord? (word ++ rest) = some word → P rest → P (word ++ rest))
    (char : ∀ c t, reservedWord? (c :: t) = none → P t → P (c :: t)) : P t := by
  induction hn : t.length using Nat.strong_induction_on generalizing t with
  | _ n ih =>
    cases t with
    | nil => exact nil
    | cons c t =>
      cases h : reservedWord? (c :: t) with
      | none => exact char c t h (ih t.length (by simp [← hn]) t rfl)
      | some w =>
        obtain ⟨hmem, rest, hrest⟩ := mem_and_prefix_of_reservedWord? h
        have hpos := length_pos_of_mem_reservedWords w hmem
        have hlength : rest.length < n := by
          rw [← hn, ← hrest, List.length_append]
          omega
        rw [← hrest] at h ⊢
        exact word w rest h (ih rest.length hlength rest rfl)

/-! ## No new words -/

/-- Where every replacement begins with a character of its own, a beginning without that character
was one before words were replaced. -/
theorem prefix_of_prefix_mapReserved {f : Text → Text} {d : Char}
    (hf : ∀ word ∈ reservedWords, (f word).head? = some d) {t w : Text} (hd : d ∉ w)
    (h : w <+: mapReserved f t) : w <+: t := by
  induction t using induction_on_words generalizing w with
  | nil => simpa using h
  | word word rest hword _ =>
    cases w with
    | nil => exact List.nil_prefix
    | cons e w =>
      -- The replacement of the word begins with `d`, so `w` does too.
      have hhead := hf word (mem_and_prefix_of_reservedWord? hword).1
      obtain ⟨tail, htail⟩ := List.head?_eq_some_iff.1 hhead
      rw [mapReserved_word hword, htail, List.cons_append, List.cons_prefix_cons] at h
      exact absurd (h.1 ▸ List.mem_cons_self) hd
  | char c t hnone ih =>
    rw [mapReserved_cons hnone] at h
    rcases List.prefix_cons_iff.1 h with rfl | ⟨w, rfl, hw⟩
    · exact List.nil_prefix
    · rw [List.mem_cons, not_or] at hd
      exact (List.prefix_cons_inj c).2 (ih hd.2 hw)

/-- The word that was found before a text was quoted is found after. -/
theorem reservedWord?_quoteReserved {word rest : Text}
    (h : reservedWord? (word ++ rest) = some word) :
    reservedWord? (word ++ quoteReserved rest) = some word := by
  obtain ⟨-, earlier, later, hlist, hearlier⟩ := reservedWord?_eq_some_iff.1 h
  refine reservedWord?_eq_some_iff.2
    ⟨List.prefix_append _ _, earlier, later, hlist, fun other hother hstarts => ?_⟩
  -- A word that comes first in the list would have to go on into what is quoted.
  apply hearlier other hother
  rcases List.prefix_or_prefix_of_prefix hstarts (List.prefix_append _ _) with hle | ⟨w, rfl⟩
  · exact hle.trans (List.prefix_append _ _)
  · have hmem : word ++ w ∈ reservedWords := by
      rw [hlist]
      exact List.mem_append_left _ hother
    have hslash : '\\' ∉ w := fun hw =>
      (notMem_of_mem_reservedWords _ hmem).1 (List.mem_append_right _ hw)
    exact (List.prefix_append_right_inj word).2
      (prefix_of_prefix_mapReserved (fun _ _ => rfl) hslash
        ((List.prefix_append_right_inj word).1 hstarts))

/-! ## Escaping what is quoted -/

/-- Escaping a quoted text encodes its reserved words. -/
theorem escape_quoteReserved {t : Text} (h : '\\' ∉ t) :
    escape (quoteReserved t) = mapReserved Percent.encode t := by
  induction t using induction_on_words with
  | nil => rw [quoteReserved, mapReserved_nil, mapReserved_nil, escape_nil]
  | word word rest hword ih =>
    rw [List.mem_append, not_or] at h
    rw [quoteReserved, mapReserved_word hword, mapReserved_word hword, ← quoteReserved,
      List.cons_append, escape_word_append (reservedWord?_quoteReserved hword), ih h.2]
  | char c t hnone ih =>
    rw [List.mem_cons, not_or] at h
    rw [quoteReserved, mapReserved_cons hnone, mapReserved_cons hnone, ← quoteReserved,
      escape_cons_of_ne (Ne.symm h.1), ih h.2]

/-- The written form of a reserved word begins with a percent sign. -/
theorem head?_encode_reservedWord : ∀ word ∈ reservedWords,
    (Percent.encode word).head? = some '%' := by
  decide

/-- No character of a reserved word is in a written form. -/
theorem notMem_encode_of_mem_reservedWord {word : Text} (hword : word ∈ reservedWords) {c : Char}
    (hc : c ∈ word) (t : Text) : c ∉ Percent.encode t := by
  have houtside : ∀ word ∈ reservedWords, ∀ c ∈ word, c ∉ Percent.alphabet := by
    simp [reservedWords, Percent.alphabet]
  exact Percent.notMem_encode (houtside word hword c hc) t

/-- **No reserved word is left** where all have been encoded. -/
theorem not_infix_mapReserved_encode {word : Text} (hword : word ∈ reservedWords) (t : Text) :
    ¬word <:+: mapReserved Percent.encode t := by
  have hne : word ≠ [] := List.ne_nil_of_length_pos (length_pos_of_mem_reservedWords word hword)
  intro h
  induction t using induction_on_words with
  | nil => exact hne (by simpa using h)
  | word first rest hfirst ih =>
    rw [mapReserved_word hfirst] at h
    refine ih (Text.infix_of_infix_append (fun c hc => ?_) hne h)
    exact notMem_encode_of_mem_reservedWord hword (List.mem_of_mem_head? hc) first
  | char c t hnone ih =>
    rw [mapReserved_cons hnone, List.infix_cons_iff] at h
    rcases h with h | h
    · -- The word would start the text itself, where none was found.
      rw [← mapReserved_cons hnone] at h
      have hpercent : '%' ∉ word := (notMem_of_mem_reservedWords word hword).2
      exact not_prefix_of_reservedWord?_eq_none hnone hword
        (prefix_of_prefix_mapReserved head?_encode_reservedWord hpercent h)
    · exact ih h

/-- The bytes of a text are the same once its reserved words are encoded. -/
theorem bytes?_mapReserved_encode {t : Text} (hpercent : '%' ∉ t) (hplus : '+' ∉ t) :
    Percent.bytes? (mapReserved Percent.encode t) = some (Utf8.encode t) := by
  induction t using induction_on_words with
  | nil => rw [mapReserved_nil]; rfl
  | word word rest hword ih =>
    rw [List.mem_append, not_or] at hpercent hplus
    rw [mapReserved_word hword, Percent.bytes?_encode_append, ih hpercent.2 hplus.2,
      Utf8.encode_append]
    rfl
  | char c t hnone ih =>
    rw [List.mem_cons, not_or] at hpercent hplus
    rw [mapReserved_cons hnone,
      Percent.bytes?_cons_of_ne (Ne.symm hpercent.1) (Ne.symm hplus.1), ih hpercent.2 hplus.2]
    rfl

/-- **Quoted reserved words are mere data.** Once a quoted text has been escaped, no parenthesis,
separator, range, bar or bracket is left in it and no operator, and it is decoded as the text. -/
theorem decode_escape_quoteReserved (t : Text) (hslash : '\\' ∉ t) (hpercent : '%' ∉ t)
    (hplus : '+' ∉ t) :
    (∀ c ∈ ['(', ')', ';', ',', '~', '|', '[', ']', '<', '>'], c ∉ escape (quoteReserved t)) ∧
    (∀ token ∈ [['=', '='], ['!', '='], ['=', '#', '='], ['!', '#', '=']],
      ¬token <:+: escape (quoteReserved t)) ∧
    Literal.decode false (escape (quoteReserved t)) = .ok t := by
  rw [escape_quoteReserved hslash]
  refine ⟨fun c hc hm => ?_, fun token htoken => ?_, ?_⟩
  · have hwords : ∀ c ∈ ['(', ')', ';', ',', '~', '|', '[', ']', '<', '>'], [c] ∈ reservedWords := by
      simp [reservedWords]
    have hword := hwords c hc
    obtain ⟨a, b, hab⟩ := List.append_of_mem hm
    exact not_infix_mapReserved_encode hword t ⟨a, b, by simp [hab]⟩
  · have hwords : [['=', '='], ['!', '='], ['=', '#', '='], ['!', '#', '=']] ⊆ reservedWords := by
      simp [reservedWords]
    exact not_infix_mapReserved_encode (hwords htoken) t
  · simp only [Literal.decode, Percent.decode?, bytes?_mapReserved_encode hpercent hplus,
      Option.map_some, Utf8.decode_encode]
    rfl

/-- Of words that share their beginnings the longest is quoted, and an equals sign that is part of
no word stays as it is. -/
theorem decode_escape_quoteReserved_overlaps :
    Literal.decode false (escape (quoteReserved ['<', '=', '=', '#', '=', '=', '!', '(', '=']))
      = .ok ['<', '=', '=', '#', '=', '=', '!', '(', '='] :=
  (decode_escape_quoteReserved _ (by decide) (by decide) (by decide)).2.2

/-! ## Unescaped characters -/

/-- A reserved word of one character continues no other. -/
theorem resumes_of_singleton_mem {c : Char} (h : [c] ∈ reservedWords) (t : Text) :
    Resumes (c :: t) := by
  have hall : ∀ word ∈ reservedWords, word.length = 1 → '=' ∉ word ∧ '#' ∉ word := by decide
  obtain ⟨he, hh⟩ := hall [c] h rfl
  exact resumes_cons (by simpa [eq_comm] using he) (by simpa [eq_comm] using hh) t

/-- A backslash that ends neither of two texts does not end them together. -/
theorem getLast?_append_ne {a b : Text} (ha : a.getLast? ≠ some '\\')
    (hb : b.getLast? ≠ some '\\') : (a ++ b).getLast? ≠ some '\\' := by
  rw [List.getLast?_append]
  cases h : b.getLast? with
  | none => exact ha
  | some c => rwa [h] at hb

/-- What comes behind a reserved word of one character in an escaped text comes behind one that
stood there unescaped. -/
theorem exists_of_escape_eq_cons {c : Char} (hc : [c] ∈ reservedWords) {t u v : Text}
    (h : escape t = u ++ c :: v) :
    ∃ a b, t = a ++ c :: b ∧ a.getLast? ≠ some '\\' ∧ escape b = v := by
  induction t using escape_induction generalizing u with
  | nil => simp at h
  | word word rest hw ih =>
    have hmem := (mem_and_prefix_of_reservedWord? hw).1
    rw [escape_word_append hw] at h
    -- The character is not in the encoding of the word, so it comes behind it.
    have hnotMem := notMem_encode_of_mem_reservedWord hc List.mem_cons_self word
    obtain ⟨u, -, hu⟩ := Text.exists_eq_append_of_notMem hnotMem h
    obtain ⟨a, b, rfl, ha, hb⟩ := ih hu
    refine ⟨'\\' :: word ++ a, b, by simp, getLast?_append_ne ?_ ha, hb⟩
    have hne := List.ne_nil_of_length_pos (length_pos_of_mem_reservedWords word hmem)
    rw [List.getLast?_cons_of_ne_nil hne]
    exact fun hlast => (notMem_of_mem_reservedWords word hmem).1 (List.mem_of_getLast? hlast)
  | backslash t hw ih =>
    have hslash : c ∉ ['\\'] := fun hm =>
      (notMem_of_mem_reservedWords [c] hc).1 (by simpa [eq_comm] using hm)
    rw [escape_backslash hw] at h
    obtain ⟨u, -, hu⟩ := Text.exists_eq_append_of_notMem (a := ['\\']) hslash h
    obtain ⟨a, b, rfl, ha, hb⟩ := ih hu
    refine ⟨'\\' :: a, b, rfl, ?_, hb⟩
    -- The backslash is not right before the character, which would then be escaped.
    have hne : a ≠ [] := by
      rintro rfl
      exact not_prefix_of_reservedWord?_eq_none hw hc ⟨b, rfl⟩
    rwa [List.getLast?_cons_of_ne_nil hne]
  | other d t hd ih =>
    rw [escape_cons_of_ne hd] at h
    rcases List.cons_eq_append_iff.1 h with ⟨-, hcons⟩ | ⟨u, -, hu⟩
    · obtain ⟨rfl, rfl⟩ := List.cons.inj hcons
      exact ⟨[], t, rfl, by simp, rfl⟩
    · obtain ⟨a, b, rfl, ha, hb⟩ := ih hu
      exact ⟨d :: a, b, rfl, getLast?_append_ne (a := [d]) (by simpa using hd) ha, hb⟩

/-- **A reserved word of one character in an escaped text** is one that stood there unescaped, and
the texts before and behind it are escaped each on its own. -/
theorem exists_of_escape_eq_append {c : Char} (hc : [c] ∈ reservedWords) {t u v : Text}
    (h : escape t = u ++ c :: v) :
    ∃ a b, t = a ++ c :: b ∧ a.getLast? ≠ some '\\' ∧ escape a = u ∧ escape b = v := by
  obtain ⟨a, b, rfl, ha, hb⟩ := exists_of_escape_eq_cons hc h
  have hslash : c ≠ '\\' := by
    rintro rfl
    exact (notMem_of_mem_reservedWords _ hc).1 List.mem_cons_self
  rw [escape_append ha (resumes_of_singleton_mem hc b), escape_cons_of_ne hslash, hb] at h
  exact ⟨a, b, rfl, ha, List.append_cancel_right h, hb⟩

end RecordFilter
