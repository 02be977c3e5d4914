import RecordFilter.Proofs.ReservedWords
import RecordFilter.Proofs.Text.Replace

/-! # Escaping word by word

The escaped words may be replaced one after the other, each in the whole of what the one before has
left. That comes to going through the text once (`escapeInTurn_onePass`), since the words do not
overlap and what is put in their place is in the way of none (`areSeparate_replacementTable`). The
order matters only between a word and its own beginnings, so it need not be that of the list of
reserved words (`find?_replacementWords`). -/

namespace RecordFilter

open Text (AreSeparate replaceEach replaceInTurn)

/-! ## The table of replacements -/

/-- The reserved words in the order in which they are replaced. -/
def replacementWords : List Text := replacements.map fun replacement => replacement.1.tail

/-- The reserved words with their encodings, in that order. -/
def replacementTable : List (Text × Text) :=
  replacementWords.map fun word => (word, Percent.encode word)

/-- Each replacement puts the encoding of a word in the place of the escaped word. -/
theorem replacements_eq :
    replacements = replacementTable.map fun entry => ('\\' :: entry.1, entry.2) := by
  decide

/-- The words that are replaced are the reserved words. -/
theorem replacementWords_perm : replacementWords.Perm reservedWords := by
  decide

/-- No word that is replaced starts one that is replaced later. -/
theorem pairwise_not_prefix_replacementWords :
    replacementWords.Pairwise fun a b => ¬a <+: b := by
  decide

/-- **The words do not overlap, and their encodings are in the way of none.** -/
theorem areSeparate_replacementTable : AreSeparate replacementTable := by
  decide

/-- The longest word at the start of a text is the same in either order. -/
theorem isLongest_replacementWords_iff {t word : Text} :
    IsLongest replacementWords t word ↔ IsLongest reservedWords t word := by
  have hmem : ∀ {word}, word ∈ replacementWords ↔ word ∈ reservedWords :=
    replacementWords_perm.mem_iff
  constructor
  · rintro ⟨h, hstarts, hle⟩
    exact ⟨hmem.1 h, hstarts, fun other hother => hle other (hmem.2 hother)⟩
  · rintro ⟨h, hstarts, hle⟩
    exact ⟨hmem.2 h, hstarts, fun other hother => hle other (hmem.1 hother)⟩

/-- The word that is found is the same in either order. -/
theorem find?_replacementWords (t : Text) :
    replacementWords.find? (·.isPrefixOf t) = reservedWord? t := by
  apply Option.ext
  intro word
  rw [find?_isPrefixOf_eq_some_iff pairwise_not_prefix_replacementWords,
    isLongest_replacementWords_iff, reservedWord?_eq_some_iff_isLongest]

/-- The word that is found comes with its encoding. -/
theorem find?_replacementTable (t : Text) :
    replacementTable.find? (·.1.isPrefixOf t) =
      (reservedWord? t).map fun word => (word, Percent.encode word) := by
  rw [replacementTable, List.find?_map, ← find?_replacementWords]
  rfl

/-! ## One pass -/

/-- Escaping replaces the words of the table. -/
theorem escape_eq_replaceEach (t : Text) : escape t = replaceEach replacementTable t := by
  induction t using escape_induction with
  | nil => rw [escape_nil, Text.replaceEach_nil]
  | word word rest hw ih =>
    have hfound : replacementTable.find? (·.1.isPrefixOf (word ++ rest)) =
        some (word, Percent.encode word) := by
      rw [find?_replacementTable, hw, Option.map_some]
    rw [escape_word_append hw, Text.replaceEach_found hfound, ih]
  | backslash t hw ih =>
    have hfound : replacementTable.find? (·.1.isPrefixOf t) = none := by
      rw [find?_replacementTable, hw, Option.map_none]
    rw [escape_backslash hw, Text.replaceEach_backslash hfound, ih]
  | other c t hc ih => rw [escape_cons_of_ne hc, Text.replaceEach_cons_of_ne hc, ih]

/-- **Escaping word by word comes to escaping in one pass.** -/
theorem escapeInTurn_eq_escape (t : Text) : escapeInTurn t = escape t := by
  rw [escape_eq_replaceEach, ← Text.replaceInTurn_eq_replaceEach areSeparate_replacementTable,
    escapeInTurn, replacements_eq, List.foldl_map]
  rfl

/-- No escaped word is left. -/
theorem not_infix_escape {replacement : Text × Text} (h : replacement ∈ replacements) (t : Text) :
    ¬replacement.1 <:+: escape t := by
  rw [replacements_eq] at h
  obtain ⟨entry, hentry, rfl⟩ := List.mem_map.1 h
  rw [escape_eq_replaceEach]
  exact Text.not_infix_replaceEach areSeparate_replacementTable hentry t

/-- What has been escaped is escaped to itself. -/
theorem escape_escape (t : Text) : escape (escape t) = escape t := by
  simp only [escape_eq_replaceEach]
  exact Text.replaceEach_replaceEach areSeparate_replacementTable t

/-- One pass through a text from left to right: a backslash with a reserved word behind it is
replaced, together with the longest such word, by the encoding of the word, and every other
character is copied. -/
inductive OnePass : Text → Text → Prop
  | nil : OnePass [] []
  | word {word rest e : Text} (h : IsLongest reservedWords (word ++ rest) word)
      (hrest : OnePass rest e) : OnePass ('\\' :: (word ++ rest)) (Percent.encode word ++ e)
  | copy {c : Char} {t e : Text} (h : c = '\\' → ∀ word ∈ reservedWords, ¬word <+: t)
      (ht : OnePass t e) : OnePass (c :: t) (c :: e)

/-- Escaping is one pass. -/
theorem onePass_escape (t : Text) : OnePass t (escape t) := by
  induction t using escape_induction with
  | nil =>
    rw [escape_nil]
    exact .nil
  | word word rest hw ih =>
    rw [escape_word_append hw]
    exact .word (reservedWord?_eq_some_iff_isLongest.1 hw) ih
  | backslash t hw ih =>
    rw [escape_backslash hw]
    exact .copy (fun _ _ => not_prefix_of_reservedWord?_eq_none hw) ih
  | other c t hc ih =>
    rw [escape_cons_of_ne hc]
    exact .copy (fun h => absurd h hc) ih

/-- One pass through a text has one outcome, the escaped text. -/
theorem onePass_iff {t e : Text} : OnePass t e ↔ escape t = e := by
  constructor
  · intro h
    induction h with
    | nil => exact escape_nil
    | word h _ ih =>
      rw [escape_word_append (reservedWord?_eq_some_iff_isLongest.2 h), ih]
    | @copy c t _ h _ ih =>
      by_cases hc : c = '\\'
      · have hw : reservedWord? t = none := by
          refine List.find?_eq_none.2 fun word hword hstarts => ?_
          exact h hc word hword (List.isPrefixOf_iff_prefix.1 hstarts)
        rw [hc, escape_backslash hw, ih]
      · rw [escape_cons_of_ne hc, ih]
  · rintro rfl
    exact onePass_escape t

/-- **Escaping is a single pass.** Replacing the escaped words one after the other gives what one
pass through the text gives that takes the longest word behind each backslash. It leaves no escaped
word, so a second time nothing is replaced, and nothing at all in a text without a backslash. -/
theorem escapeInTurn_onePass (t : Text) :
    escapeInTurn t = escape t ∧ (∀ e, OnePass t e ↔ escapeInTurn t = e) ∧
      (∀ replacement ∈ replacements, ¬replacement.1 <:+: escapeInTurn t) ∧
      escapeInTurn (escapeInTurn t) = escapeInTurn t ∧
      ('\\' ∉ t → escapeInTurn t = t) := by
  have heq := escapeInTurn_eq_escape
  refine ⟨heq t, fun e => ?_, fun replacement h => ?_, ?_, fun h => ?_⟩
  · rw [heq]
    exact onePass_iff
  · rw [heq]
    exact not_infix_escape h t
  · rw [heq, heq, escape_escape]
  · rw [heq, escape_eq_self h]

/-- Of words that share their beginnings the longer is replaced, and of two backslashes the second
belongs to the word behind it. -/
theorem escapeInTurn_onePass_overlaps :
    let t := ['\\', '<', '=', '\\', '\\', '<', '\\', '=', '#', '=']
    let e := ['%', '3', 'C', '%', '3', 'D', '\\', '%', '3', 'C',
      '%', '3', 'D', '%', '2', '3', '%', '3', 'D']
    escapeInTurn t = e ∧ OnePass t e ∧
      (['\\', '<'], ['%', '3', 'C']) ∈ replacements ∧ ¬['\\', '<'] <:+: e ∧
      '\\' ∉ ['<', '='] ∧ escapeInTurn ['<', '='] = ['<', '='] := by
  intro t e
  have hword : (['\\', '<'], ['%', '3', 'C']) ∈ replacements := by decide
  have hslash : '\\' ∉ ['<', '='] := by decide
  obtain ⟨heq, hpass, hleft, -, -⟩ := escapeInTurn_onePass t
  have hescape : escape t = e := by
    have hfirst : escape t =
        Percent.encode ['<', '='] ++ escape ['\\', '\\', '<', '\\', '=', '#', '='] :=
      @escape_word_append ['<', '='] _ rfl
    have hcopied : escape ['\\', '\\', '<', '\\', '=', '#', '='] =
        '\\' :: escape ['\\', '<', '\\', '=', '#', '='] := escape_backslash rfl
    have hsecond : escape ['\\', '<', '\\', '=', '#', '='] =
        Percent.encode ['<'] ++ escape ['\\', '=', '#', '='] := @escape_word_append ['<'] _ rfl
    have hlast : escape ['\\', '=', '#', '='] = Percent.encode ['=', '#', '='] ++ escape [] :=
      @escape_word_append ['=', '#', '='] [] rfl
    rw [hfirst, hcopied, hsecond, hlast, escape_nil]
    rfl
  have ht : escapeInTurn t = e := heq.trans hescape
  rw [ht] at hleft
  exact ⟨ht, (hpass e).2 ht, hword, hleft _ hword, hslash,
    (escapeInTurn_onePass ['<', '=']).2.2.2.2 hslash⟩

end RecordFilter
