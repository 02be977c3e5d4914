import Mathlib.Data.List.Find
import RecordFilter.Proofs.Text.Cut

/-! # Replacing several words

Where several words are replaced one after the other, a replacement may make or unmake an occurrence
of a word whose turn comes later. It does not if every word begins with a backslash and has no
other, and if what is put in its place has none and begins with a character that is in none of the
words (`AreSeparate`): such words do not overlap, and whether one of them stands behind a backslash
is not changed by a replacement further on (`prefix_replace_iff`). Replacing in turn then comes to
going through the text once (`replaceInTurn_eq_replaceEach`), and no word is left in the end
(`not_infix_replaceEach`). -/

namespace RecordFilter.Text

/-! ## One word -/

section Replace

variable {word new : Text}

@[simp] theorem replace_nil : replace word new [] = [] := by
  rw [replace]

/-- Where the word stands, it is replaced. -/
theorem replace_word (c : Char) (word rest : Text) :
    replace (c :: word) new (c :: (word ++ rest)) = new ++ replace (c :: word) new rest := by
  have hstarts : (c :: word).isPrefixOf (c :: (word ++ rest)) = true := by simp
  rw [replace, if_pos hstarts]
  simp

/-- Where the word does not stand, a character is copied. -/
theorem replace_cons {c : Char} {t : Text} (h : ¬word <+: c :: t) :
    replace word new (c :: t) = c :: replace word new t := by
  rw [replace, if_neg (by rwa [List.isPrefixOf_iff_prefix])]

/-- A text without a backslash is copied where a word with a backslash in front is replaced. -/
theorem replace_append_of_notMem {a : Text} (h : '\\' ∉ a) (b : Text) :
    replace ('\\' :: word) new (a ++ b) = a ++ replace ('\\' :: word) new b := by
  induction a with
  | nil => rfl
  | cons c a ih =>
    rw [List.mem_cons, not_or] at h
    have hstarts : ¬ '\\' :: word <+: c :: (a ++ b) := fun hle =>
      h.1 (List.cons_prefix_cons.1 hle).1
    rw [List.cons_append, replace_cons hstarts, ih h.2, List.cons_append]

/-- **A replacement makes and unmakes no beginning** of a text that has no backslash, nor the
character with which the replacement begins. -/
theorem prefix_replace_iff {u t : Text} (hslash : '\\' ∉ u) (hne : new ≠ [])
    (hnew : ∀ c ∈ new.head?, c ∉ u) : u <+: replace ('\\' :: word) new t ↔ u <+: t := by
  constructor
  · intro h
    induction u generalizing t with
    | nil => exact List.nil_prefix
    | cons d u ih =>
      cases t with
      | nil => simp at h
      | cons c t =>
        by_cases hstarts : '\\' :: word <+: c :: t
        · -- The beginning would be that of the replacement.
          obtain ⟨rest, hrest⟩ := hstarts
          obtain ⟨e, new, rfl⟩ := List.exists_cons_of_ne_nil hne
          rw [← hrest, List.cons_append, replace_word, List.cons_append,
            List.cons_prefix_cons] at h
          exact absurd (h.1 ▸ List.mem_cons_self) (hnew e rfl)
        · rw [replace_cons hstarts, List.cons_prefix_cons] at h
          rw [List.mem_cons, not_or] at hslash
          have hnew' : ∀ c ∈ new.head?, c ∉ u := fun c hc hm =>
            hnew c hc (List.mem_cons_of_mem d hm)
          exact List.cons_prefix_cons.2 ⟨h.1, ih hslash.2 hnew' h.2⟩
  · rintro ⟨rest, rfl⟩
    rw [replace_append_of_notMem hslash]
    exact List.prefix_append u _

end Replace

/-! ## Words of a table -/

/-- Replace, behind each backslash and together with it, the first word of a table that stands
there. -/
def replaceEach (table : List (Text × Text)) : Text → Text
  | [] => []
  | c :: t =>
    match if c = '\\' then table.find? (·.1.isPrefixOf t) else none with
    | some entry => entry.2 ++ replaceEach table (t.drop entry.1.length)
    | none => c :: replaceEach table t
termination_by t => t.length
decreasing_by all_goals (simp only [List.length_drop, List.length_cons]; omega)

/-- Replace the words of a table, with a backslash in front, one after the other. -/
def replaceInTurn (table : List (Text × Text)) (t : Text) : Text :=
  table.foldl (fun t entry => replace ('\\' :: entry.1) entry.2 t) t

/-- Words without a backslash that are replaced by texts without one, each of which begins with a
character that is in none of the words. -/
structure AreSeparate (table : List (Text × Text)) : Prop where
  slash_notMem_word : ∀ entry ∈ table, '\\' ∉ entry.1
  slash_notMem_new : ∀ entry ∈ table, '\\' ∉ entry.2
  new_ne_nil : ∀ entry ∈ table, entry.2 ≠ []
  head_notMem : ∀ entry ∈ table, ∀ c ∈ entry.2.head?, ∀ other ∈ table, c ∉ other.1

instance (table : List (Text × Text)) : Decidable (AreSeparate table) :=
  decidable_of_iff
    (table.all (fun entry => '\\' ∉ entry.1 ∧ '\\' ∉ entry.2 ∧ entry.2 ≠ [] ∧
      entry.2.head?.all fun c => table.all fun other => c ∉ other.1) = true) <| by
    simp only [List.all_eq_true, Option.all_eq_true, decide_eq_true_eq]
    constructor
    · intro h
      exact ⟨fun e he => (h e he).1, fun e he => (h e he).2.1, fun e he => (h e he).2.2.1,
        fun e he c hc => (h e he).2.2.2 c (Option.mem_def.1 hc)⟩
    · intro h e he
      exact ⟨h.slash_notMem_word e he, h.slash_notMem_new e he, h.new_ne_nil e he,
        fun c hc => h.head_notMem e he c hc⟩

variable {table : List (Text × Text)} {entry : Text × Text} {t : Text}

/-- So are the words behind the first. -/
theorem AreSeparate.tail (h : AreSeparate (entry :: table)) : AreSeparate table where
  slash_notMem_word e he := h.slash_notMem_word e (List.mem_cons_of_mem entry he)
  slash_notMem_new e he := h.slash_notMem_new e (List.mem_cons_of_mem entry he)
  new_ne_nil e he := h.new_ne_nil e (List.mem_cons_of_mem entry he)
  head_notMem e he c hc other hother :=
    h.head_notMem e (List.mem_cons_of_mem entry he) c hc other (List.mem_cons_of_mem entry hother)

@[simp] theorem replaceEach_nil : replaceEach table [] = [] := by
  rw [replaceEach]

/-- Characters other than the backslash are copied. -/
theorem replaceEach_cons_of_ne {c : Char} (h : c ≠ '\\') (t : Text) :
    replaceEach table (c :: t) = c :: replaceEach table t := by
  rw [replaceEach, if_neg h]

/-- A backslash and the word found behind it are replaced. -/
theorem replaceEach_found {word new rest : Text}
    (h : table.find? (·.1.isPrefixOf (word ++ rest)) = some (word, new)) :
    replaceEach table ('\\' :: (word ++ rest)) = new ++ replaceEach table rest := by
  rw [replaceEach, if_pos rfl, h]
  simp

/-- A backslash with no word behind it is copied. -/
theorem replaceEach_backslash (h : table.find? (·.1.isPrefixOf t) = none) :
    replaceEach table ('\\' :: t) = '\\' :: replaceEach table t := by
  rw [replaceEach, if_pos rfl, h]

/-- A text without a backslash is copied. -/
theorem replaceEach_append_of_notMem {a : Text} (h : '\\' ∉ a) (b : Text) :
    replaceEach table (a ++ b) = a ++ replaceEach table b := by
  induction a with
  | nil => rfl
  | cons c a ih =>
    rw [List.mem_cons, not_or] at h
    rw [List.cons_append, replaceEach_cons_of_ne (Ne.symm h.1), ih h.2, List.cons_append]

/-- With no words to replace, a text is copied. -/
theorem replaceEach_nil_table (t : Text) : replaceEach [] t = t := by
  induction t with
  | nil => exact replaceEach_nil
  | cons c t ih =>
    by_cases hc : c = '\\'
    · rw [hc, replaceEach_backslash rfl, ih]
    · rw [replaceEach_cons_of_ne hc, ih]

/-- A word that is found stands at the beginning. -/
theorem exists_append_of_find? (h : table.find? (·.1.isPrefixOf t) = some entry) :
    entry ∈ table ∧ ∃ rest, t = entry.1 ++ rest := by
  have hstarts := List.find?_some h
  obtain ⟨rest, hrest⟩ := List.isPrefixOf_iff_prefix.1 hstarts
  exact ⟨List.mem_of_find?_eq_some h, rest, hrest.symm⟩

/-- **Induction along the words of a table**: what holds of the empty text and is kept by putting in
front a backslash and the word that is found behind it, a backslash with no word behind it, or
another character, holds of every text. -/
@[elab_as_elim]
theorem words_induction (table : List (Text × Text)) {motive : Text → Prop} (nil : motive [])
    (word : ∀ word new rest, table.find? (·.1.isPrefixOf (word ++ rest)) = some (word, new) →
      motive rest → motive ('\\' :: (word ++ rest)))
    (backslash : ∀ t, table.find? (·.1.isPrefixOf t) = none → motive t → motive ('\\' :: t))
    (other : ∀ c t, c ≠ '\\' → motive t → motive (c :: t)) (t : Text) : motive t := by
  induction t using replaceEach.induct table with
  | case1 => exact nil
  | case2 c t entry hfound ih =>
    obtain ⟨rfl, hfound⟩ : c = '\\' ∧ table.find? (·.1.isPrefixOf t) = some entry := by
      simpa using hfound
    obtain ⟨-, rest, rfl⟩ := exists_append_of_find? hfound
    rw [List.drop_left] at ih
    exact word entry.1 entry.2 rest hfound ih
  | case3 c t hnone ih =>
    by_cases hc : c = '\\'
    · subst hc
      exact backslash t (by simpa using hnone) ih
    · exact other c t hc ih

/-- **The first word may be replaced beforehand.** -/
theorem replaceEach_cons_table (h : AreSeparate (entry :: table)) (t : Text) :
    replaceEach (entry :: table) t = replaceEach table (replace ('\\' :: entry.1) entry.2 t) := by
  obtain ⟨word, new⟩ := entry
  have hslash : '\\' ∉ new := h.slash_notMem_new _ List.mem_cons_self
  -- The words behind the first stand in the text where they stand once it has been replaced.
  have hfind : ∀ t, table.find? (·.1.isPrefixOf (replace ('\\' :: word) new t)) =
      table.find? (·.1.isPrefixOf t) := by
    intro t
    refine List.find?_congr fun other hother => ?_
    have hmem := List.mem_cons_of_mem (word, new) hother
    rw [Bool.eq_iff_iff, List.isPrefixOf_iff_prefix, List.isPrefixOf_iff_prefix]
    exact prefix_replace_iff (h.slash_notMem_word other hmem) (h.new_ne_nil _ List.mem_cons_self)
      fun c hc => h.head_notMem _ List.mem_cons_self c hc other hmem
  induction t using words_induction ((word, new) :: table) with
  | nil => rw [replaceEach_nil, replace_nil, replaceEach_nil]
  | word found replaced rest hfound ih =>
    rw [replaceEach_found hfound, ih]
    -- What is found is the first word, or else it is found among the others as well.
    by_cases hword : word.isPrefixOf (found ++ rest)
    · obtain ⟨rfl, rfl⟩ : word = found ∧ new = replaced := by
        simpa [List.find?_cons, hword] using hfound
      rw [replace_word, replaceEach_append_of_notMem hslash]
    · have hlater : table.find? (·.1.isPrefixOf (found ++ rest)) = some (found, replaced) := by
        simpa [List.find?_cons, hword] using hfound
      have hstarts : ¬ '\\' :: word <+: '\\' :: (found ++ rest) := by
        rwa [List.cons_prefix_cons, eq_self, true_and, ← List.isPrefixOf_iff_prefix]
      have hkept : replace ('\\' :: word) new (found ++ rest) =
          found ++ replace ('\\' :: word) new rest :=
        replace_append_of_notMem (h.slash_notMem_word _ (exists_append_of_find? hfound).1) rest
      rw [← hfind, hkept] at hlater
      rw [replace_cons hstarts, hkept, replaceEach_found hlater]
  | backslash t hnone ih =>
    have hall := List.find?_eq_none.1 hnone
    have hlater : table.find? (·.1.isPrefixOf t) = none :=
      List.find?_eq_none.2 fun e he => hall e (List.mem_cons_of_mem _ he)
    have hstarts : ¬ '\\' :: word <+: '\\' :: t := by
      rw [List.cons_prefix_cons, eq_self, true_and, ← List.isPrefixOf_iff_prefix]
      exact hall _ List.mem_cons_self
    rw [replaceEach_backslash hnone, replace_cons hstarts,
      replaceEach_backslash ((hfind t).trans hlater), ih]
  | other c t hc ih =>
    have hstarts : ¬ '\\' :: word <+: c :: t := fun hle =>
      hc (List.cons_prefix_cons.1 hle).1.symm
    rw [replaceEach_cons_of_ne hc, replace_cons hstarts, replaceEach_cons_of_ne hc, ih]

/-- **Replacing the words in turn comes to replacing them all at once**, where of several words that
stand at a place the first of the table is taken. -/
theorem replaceInTurn_eq_replaceEach (h : AreSeparate table) (t : Text) :
    replaceInTurn table t = replaceEach table t := by
  induction table generalizing t with
  | nil => exact (replaceEach_nil_table t).symm
  | cons entry table ih =>
    rw [replaceEach_cons_table h, ← ih h.tail]
    rfl

/-! ## What is left -/

/-- Replacing makes and unmakes no beginning that is a word of the table. -/
theorem prefix_replaceEach_iff (h : AreSeparate table) {word : Text} (hslash : '\\' ∉ word)
    (hhead : ∀ entry ∈ table, ∀ c ∈ entry.2.head?, c ∉ word) :
    word <+: replaceEach table t ↔ word <+: t := by
  induction table generalizing t with
  | nil => rw [replaceEach_nil_table]
  | cons entry table ih =>
    rw [replaceEach_cons_table h, ih h.tail fun e he => hhead e (List.mem_cons_of_mem entry he)]
    exact prefix_replace_iff hslash (h.new_ne_nil entry List.mem_cons_self)
      (hhead entry List.mem_cons_self)

/-- **No word is left** behind a backslash. -/
theorem not_infix_replaceEach (h : AreSeparate table) (hmem : entry ∈ table) (t : Text) :
    ¬ '\\' :: entry.1 <:+: replaceEach table t := by
  intro hleft
  induction t using words_induction table with
  | nil => simp at hleft
  | word found replaced rest hfound ih =>
    have hslash : '\\' ∉ replaced := h.slash_notMem_new _ (exists_append_of_find? hfound).1
    rw [replaceEach_found hfound] at hleft
    exact ih (infix_of_infix_append (by simpa using hslash) (List.cons_ne_nil _ _) hleft)
  | backslash t hnone ih =>
    rw [replaceEach_backslash hnone, List.infix_cons_iff, List.cons_prefix_cons] at hleft
    rcases hleft with ⟨-, hstarts⟩ | hleft
    · -- The word would have been found before.
      have hhead := fun e he c hc => h.head_notMem e he c hc entry hmem
      have hword := (prefix_replaceEach_iff h (h.slash_notMem_word entry hmem) hhead).1 hstarts
      exact List.find?_eq_none.1 hnone entry hmem (List.isPrefixOf_iff_prefix.2 hword)
    · exact ih hleft
  | other c t hc ih =>
    rw [replaceEach_cons_of_ne hc, List.infix_cons_iff, List.cons_prefix_cons] at hleft
    rcases hleft with ⟨hslash, -⟩ | hleft
    · exact hc hslash.symm
    · exact ih hleft

/-- A text in which no word stands behind a backslash stays as it is. -/
theorem replaceEach_eq_self (h : ∀ entry ∈ table, ¬ '\\' :: entry.1 <:+: t) :
    replaceEach table t = t := by
  induction t with
  | nil => exact replaceEach_nil
  | cons c t ih =>
    have hrest : replaceEach table t = t :=
      ih fun entry hentry hword => h entry hentry (List.infix_cons hword)
    by_cases hc : c = '\\'
    · subst hc
      have hnone : table.find? (·.1.isPrefixOf t) = none := by
        refine List.find?_eq_none.2 fun entry hentry hstarts => h entry hentry ?_
        have hword : entry.1 <+: t := List.isPrefixOf_iff_prefix.1 hstarts
        exact ((List.prefix_cons_inj '\\').2 hword).isInfix
      rw [replaceEach_backslash hnone, hrest]
    · rw [replaceEach_cons_of_ne hc, hrest]

/-- **A second time there is nothing to replace.** -/
theorem replaceEach_replaceEach (h : AreSeparate table) (t : Text) :
    replaceEach table (replaceEach table t) = replaceEach table t :=
  replaceEach_eq_self fun _ hentry => not_infix_replaceEach h hentry t

/-- A text stays as it is exactly if no word stands in it behind a backslash. -/
theorem replaceEach_eq_self_iff (h : AreSeparate table) :
    replaceEach table t = t ↔ ∀ entry ∈ table, ¬ '\\' :: entry.1 <:+: t := by
  constructor
  · intro heq entry hentry
    rw [← heq]
    exact not_infix_replaceEach h hentry t
  · exact replaceEach_eq_self

end RecordFilter.Text
