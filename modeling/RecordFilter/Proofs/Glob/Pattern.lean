import RecordFilter.Glob

/-! # Globs as patterns

A glob is handed to the matching engine as a pattern, the text of a regular expression. Nothing in a
glob but an unescaped wildcard may act as an operator there: all else that a pattern holds has to be
read as the characters that the glob asks for.

Two readings are set side by side. `Reads` says which tokens a glob stands for, and `readPattern?`
reads a pattern under the syntax of regular expressions. Each token is written such that it is read
back whatever pattern stands behind it (`readPattern?_char_append`); only the dot has to be kept
from a plus sign, which no pattern starts with (`head?_flatMap_pattern_ne`). -/

namespace RecordFilter

/-! ## The tokens of a glob -/

namespace Glob

/-- A glob stands for a row of tokens. -/
inductive Reads : Text → List GlobToken → Prop where
  | nil : Reads [] []
  /-- A backslash makes the next character stand for itself. -/
  | quoted (c : Char) {t : Text} {row : List GlobToken} :
      Reads t row → Reads ('\\' :: c :: t) (.char c :: row)
  /-- A backslash at the very end stands for nothing. -/
  | trailing : Reads ['\\'] []
  | star {t : Text} {row : List GlobToken} : Reads t row → Reads ('*' :: t) (.many :: row)
  | mark {t : Text} {row : List GlobToken} : Reads t row → Reads ('?' :: t) (.one :: row)
  /-- Every other character stands for itself. -/
  | plain {c : Char} {t : Text} {row : List GlobToken} (hslash : c ≠ '\\') (hstar : c ≠ '*')
      (hmark : c ≠ '?') : Reads t row → Reads (c :: t) (.char c :: row)

/-- A character that means nothing in a glob stands for itself. -/
theorem tokens_cons_of_ne {c : Char} (hslash : c ≠ '\\') (hstar : c ≠ '*') (hmark : c ≠ '?')
    (t : Text) : tokens (c :: t) = .char c :: tokens t := by
  rw [tokens.eq_def]
  split <;> simp_all

/-- The tokens that a glob is taken apart into are those it stands for. -/
theorem reads_tokens (glob : Text) : Reads glob (tokens glob) := by
  induction glob using tokens.induct with
  | case1 c t ih => exact .quoted c ih
  | case2 => exact .trailing
  | case3 t ih => exact .star ih
  | case4 t ih => exact .mark ih
  | case5 c t hquoted htrailing hstar hmark ih =>
    -- A backslash has been dealt with, be there a character behind it or not.
    have hslash : c ≠ '\\' := by
      rintro rfl
      cases t with
      | nil => exact htrailing rfl rfl
      | cons d t => exact hquoted d t rfl rfl
    rw [tokens_cons_of_ne hslash hstar hmark]
    exact .plain hslash hstar hmark ih
  | case6 => exact .nil

/-- **A glob stands for one row of tokens only.** -/
theorem reads_iff {glob : Text} {row : List GlobToken} : Reads glob row ↔ row = tokens glob := by
  constructor
  · intro h
    induction h with
    | nil => rfl
    | quoted c _ ih => rw [tokens, ih]
    | trailing => rfl
    | star _ ih => rw [tokens, ih]
    | mark _ ih => rw [tokens, ih]
    | plain hslash hstar hmark _ ih => rw [tokens_cons_of_ne hslash hstar hmark, ih]
  · rintro rfl
    exact reads_tokens glob

/-! ## Wildcards -/

/-- The wildcards of a glob before which no backslash stands that takes away their meaning. -/
def wildcards : Text → Text
  | '\\' :: _ :: t => wildcards t
  | c :: t => if c = '*' ∨ c = '?' then c :: wildcards t else wildcards t
  | [] => []

theorem wildcards_cons_of_ne {c : Char} (hslash : c ≠ '\\') (t : Text) :
    wildcards (c :: t) = if c = '*' ∨ c = '?' then c :: wildcards t else wildcards t := by
  rw [wildcards]
  rintro d u rfl
  contradiction

end Glob

/-- The wildcard that a token is read from, if it is an operator. -/
def GlobToken.wildcard? : GlobToken → Option Char
  | char _ => none
  | one => some '?'
  | many => some '*'

/-- The operators that a glob stands for are its wildcards, in order. -/
theorem Glob.Reads.wildcards {glob : Text} {row : List GlobToken} (h : Reads glob row) :
    row.filterMap GlobToken.wildcard? = wildcards glob := by
  induction h with
  | nil => rfl
  | quoted c _ ih => rw [Glob.wildcards, ← ih]; rfl
  | trailing => rfl
  | star _ ih => rw [wildcards_cons_of_ne (by decide), ← ih]; rfl
  | mark _ ih => rw [wildcards_cons_of_ne (by decide), ← ih]; rfl
  | plain hslash hstar hmark _ ih =>
    rw [wildcards_cons_of_ne hslash, if_neg (not_or.2 ⟨hstar, hmark⟩), ← ih]
    rfl

/-! ## Reading a pattern -/

namespace Glob

/-- The character that a backslash and the character given stand for in a pattern, written with no
more than these two. -/
def escaped? : Char → Option Char
  | 'n' => some '\n'
  | 't' => some '\t'
  | 'r' => some '\r'
  | 'f' => some '\x0c'
  | c => if GlobToken.metacharacters.contains c then some c else none

/-- Read a pattern. A dot takes one character, with a plus sign behind it one or more, and what a
backslash escapes stands for a character, as does every character that is no metacharacter. Of a
metacharacter anywhere else, and of an escape that is not known, nothing is made. -/
def readPattern? : Text → Option (List GlobToken)
  | [] => some []
  | '.' :: '+' :: t => (readPattern? t).map (.many :: ·)
  | '.' :: t => (readPattern? t).map (.one :: ·)
  | '\\' :: 'x' :: '0' :: '8' :: t => (readPattern? t).map (.char '\x08' :: ·)
  | '\\' :: 'x' :: '0' :: '0' :: t => (readPattern? t).map (.char '\x00' :: ·)
  | '\\' :: c :: t =>
    match escaped? c with
    | some d => (readPattern? t).map (.char d :: ·)
    | none => none
  | c :: t =>
    if GlobToken.metacharacters.contains c then none else (readPattern? t).map (.char c :: ·)

/-- A dot with a plus sign behind it is one operator. -/
theorem readPattern?_many_append (p : Text) :
    readPattern? (GlobToken.many.pattern ++ p) = (readPattern? p).map (.many :: ·) := rfl

/-- A dot is an operator of its own if no plus sign stands behind it. -/
theorem readPattern?_one_append {p : Text} (h : p.head? ≠ some '+') :
    readPattern? (GlobToken.one.pattern ++ p) = (readPattern? p).map (.one :: ·) := by
  cases p with
  | nil => rfl
  | cons c p =>
    show readPattern? ('.' :: c :: p) = _
    rw [readPattern?]
    rintro t heq
    rw [heq] at h
    exact h rfl

/-- **A character is read back**, whatever stands behind it. -/
theorem readPattern?_char_append (c : Char) (p : Text) :
    readPattern? (GlobToken.charPattern c ++ p) = (readPattern? p).map (.char c :: ·) := by
  rw [GlobToken.charPattern.eq_def]
  split
  -- Six control characters have names.
  case h_1 => rfl
  case h_2 => rfl
  case h_3 => rfl
  case h_4 => rfl
  case h_5 => rfl
  case h_6 => rfl
  case h_7 =>
    split
    next h =>
      -- A metacharacter is escaped, and none of them begins the name of a control character.
      simp only [GlobToken.metacharacters, List.contains_eq_mem, List.mem_cons, List.not_mem_nil,
        or_false, decide_eq_true_eq] at h
      rcases h with h | h | h | h | h | h | h | h | h | h | h | h | h | h | h | h | h | h <;>
        (subst h; rfl)
    next h =>
      -- The dot and the backslash, which begin operators and escapes, are metacharacters.
      have hdot : c ≠ '.' := by
        rintro rfl
        exact h rfl
      have hslash : c ≠ '\\' := by
        rintro rfl
        exact h rfl
      show readPattern? (c :: p) = _
      rw [readPattern?.eq_def]
      split <;> simp_all

/-- No pattern starts with a plus sign, which is escaped where it stands for itself. -/
theorem head?_flatMap_pattern_ne (row : List GlobToken) :
    (row.flatMap GlobToken.pattern).head? ≠ some '+' := by
  cases row with
  | nil => simp
  | cons token row =>
    rw [List.flatMap_cons]
    cases token with
    | char c =>
      rw [GlobToken.pattern, GlobToken.charPattern.eq_def]
      split
      case h_7 =>
        split
        next => simp
        next h =>
          have hplus : c ≠ '+' := by
            rintro rfl
            exact h rfl
          simpa using hplus
      all_goals simp
    | one => simp [GlobToken.pattern]
    | many => simp [GlobToken.pattern]

/-- **The pattern of a row of tokens is read as that row.** -/
theorem readPattern?_flatMap_pattern (row : List GlobToken) :
    readPattern? (row.flatMap GlobToken.pattern) = some row := by
  induction row with
  | nil => rfl
  | cons token row ih =>
    rw [List.flatMap_cons]
    cases token with
    | char c => rw [GlobToken.pattern, readPattern?_char_append, ih, Option.map_some]
    | one => rw [readPattern?_one_append (head?_flatMap_pattern_ne row), ih, Option.map_some]
    | many => rw [readPattern?_many_append, ih, Option.map_some]

/-- **No glob puts an operator into its pattern but by a wildcard.** A glob stands for one row of
tokens; its pattern is read to the end, as that very row; whatever else has the same pattern stands
for the same tokens; and the operators of the pattern are the unescaped wildcards of the glob. -/
theorem readPattern?_pattern (glob : Text) :
    ∃ row, (∀ other, Reads glob other ↔ other = row) ∧ readPattern? (pattern glob) = some row ∧
      (∀ second, pattern second = pattern glob ↔ Reads second row) ∧
      row.filterMap GlobToken.wildcard? = wildcards glob := by
  refine ⟨tokens glob, fun _ => reads_iff, readPattern?_flatMap_pattern (tokens glob), ?_,
    (reads_tokens glob).wildcards⟩
  intro second
  rw [reads_iff]
  constructor
  · intro h
    have hread := readPattern?_flatMap_pattern (tokens second)
    rw [← pattern, h, pattern, readPattern?_flatMap_pattern] at hread
    exact Option.some.inj hread
  · intro h
    rw [pattern, pattern, h]

/-- Escaped, a letter that names a control character and a dot before a plus sign stand for
themselves. -/
example : readPattern? (pattern ['\\', 'n', '\\', '.', '+', '\n', '*', '\\', '?', '\\']) =
    some [.char 'n', .char '.', .char '+', .char '\n', .many, .char '?'] := by decide

end Glob

end RecordFilter
