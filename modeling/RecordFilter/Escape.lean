import RecordFilter.Text.Percent

/-! # Escaped reserved words

In a query a backslash takes away the meaning of a structural character or of an operator. Before
anything else is read, each backslash that stands before such a word is replaced, together with the
word, by the word's percent-encoding, which the reading of literals turns back. A backslash before
anything else stays, since the globs have a use for it. -/

namespace RecordFilter

/-- The words that a backslash may precede, a longer one before its own beginnings. -/
def reservedWords : List Text :=
  [['=', '#', '='], ['!', '#', '='], ['=', '='], ['!', '='], ['<', '='], ['>', '='],
    ['<'], ['>'], ['('], [')'], [';'], [','], ['~'], ['|'], ['['], [']']]

/-- The reserved word at the start of a text: the longest there is. -/
def reservedWord? (t : Text) : Option Text := reservedWords.find? (·.isPrefixOf t)

/-- Replace every escaped reserved word by its percent-encoding, in one pass from left to right. -/
def escape : Text → Text
  | [] => []
  | c :: t =>
    match if c = '\\' then reservedWord? t else none with
    | some word => Percent.encode word ++ escape (t.drop word.length)
    | none => c :: escape t
termination_by t => t.length
decreasing_by all_goals (simp only [List.length_drop, List.length_cons]; omega)

/-- The escaped words, each with what is put in its place, in the order in which that is done word
by word. -/
def replacements : List (Text × Text) :=
  [(['\\', '('], ['%', '2', '8']),
    (['\\', ')'], ['%', '2', '9']),
    (['\\', ';'], ['%', '3', 'B']),
    (['\\', ','], ['%', '2', 'C']),
    (['\\', '=', '='], ['%', '3', 'D', '%', '3', 'D']),
    (['\\', '!', '='], ['%', '2', '1', '%', '3', 'D']),
    (['\\', '<', '='], ['%', '3', 'C', '%', '3', 'D']),
    (['\\', '>', '='], ['%', '3', 'E', '%', '3', 'D']),
    (['\\', '<'], ['%', '3', 'C']),
    (['\\', '>'], ['%', '3', 'E']),
    (['\\', '=', '#', '='], ['%', '3', 'D', '%', '2', '3', '%', '3', 'D']),
    (['\\', '!', '#', '='], ['%', '2', '1', '%', '2', '3', '%', '3', 'D']),
    (['\\', '~'], ['%', '7', 'E']),
    (['\\', '|'], ['%', '7', 'C']),
    (['\\', '['], ['%', '5', 'B']),
    (['\\', ']'], ['%', '5', 'D'])]

/-- Replace the escaped words one after the other, each in the whole of what the one before has
left. -/
def escapeInTurn (t : Text) : Text :=
  replacements.foldl (fun t replacement => Text.replace replacement.1 replacement.2 t) t

@[simp] theorem escape_nil : escape [] = [] := by
  rw [escape]

/-- Characters other than the backslash are copied. -/
theorem escape_cons_of_ne {c : Char} (h : c ≠ '\\') (t : Text) :
    escape (c :: t) = c :: escape t := by
  rw [escape, if_neg h]

/-- A text without a backslash stays as it is. -/
theorem escape_eq_self {t : Text} (h : '\\' ∉ t) : escape t = t := by
  induction t with
  | nil => exact escape_nil
  | cons c t ih =>
    rw [List.mem_cons, not_or] at h
    rw [escape_cons_of_ne (Ne.symm h.1), ih h.2]

end RecordFilter
