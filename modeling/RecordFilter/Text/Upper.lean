import RecordFilter.Text.Basic

/-! # Upper case, as far as it reaches ASCII

A date literal is read without regard to case: it is first put into upper case. Its grammar is
ASCII, so of the full Unicode mapping only the characters whose upper case holds an ASCII character
matter; besides the letters `a` to `z` these are the seventeen below. Every other character stays
what it is: its upper case would be refused wherever it is refused itself. -/

namespace RecordFilter

/-- The upper case of a character, where that holds an ASCII character, else the character. -/
def upperCase (c : Char) : Text :=
  if c.isLower then [c.toUpper]
  else match c with
    | 'ß' => ['S', 'S']
    | 'ı' => ['I']
    | 'ŉ' => ['ʼ', 'N']
    | 'ſ' => ['S']
    | 'ǰ' => ['J', '\u030C']
    | 'ẖ' => ['H', '\u0331']
    | 'ẗ' => ['T', '\u0308']
    | 'ẘ' => ['W', '\u030A']
    | 'ẙ' => ['Y', '\u030A']
    | 'ẚ' => ['A', 'ʾ']
    | 'ﬀ' => ['F', 'F']
    | 'ﬁ' => ['F', 'I']
    | 'ﬂ' => ['F', 'L']
    | 'ﬃ' => ['F', 'F', 'I']
    | 'ﬄ' => ['F', 'F', 'L']
    | 'ﬅ' => ['S', 'T']
    | 'ﬆ' => ['S', 'T']
    | c => [c]

/-- A text in upper case, character by character. -/
def Text.upper (t : Text) : Text := t.flatMap upperCase

@[simp] theorem Text.upper_nil : Text.upper [] = [] := rfl

@[simp] theorem Text.upper_cons (c : Char) (t : Text) :
    Text.upper (c :: t) = upperCase c ++ Text.upper t := rfl

@[simp] theorem Text.upper_append (s t : Text) :
    Text.upper (s ++ t) = Text.upper s ++ Text.upper t := by
  simp [Text.upper]

end RecordFilter
