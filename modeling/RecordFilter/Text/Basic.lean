/-! # Text

Queries, literals, field names and documents are all handled as the list of their characters, so
that every scanner below is a recursion on its input. This module holds the cuts that the query
language needs: at the first or last occurrence of a character, and at the first occurrence of a
whole word. Each cut is pinned down by the equation that puts the pieces together again. -/

namespace RecordFilter

/-- A text is the list of its characters. -/
abbrev Text := List Char

namespace Text

/-- The number of bytes a text takes in UTF-8. -/
def byteLength : Text → Nat
  | [] => 0
  | c :: t => c.utf8Size + byteLength t

@[simp] theorem byteLength_nil : byteLength [] = 0 := rfl

@[simp] theorem byteLength_cons (c : Char) (t : Text) :
    byteLength (c :: t) = c.utf8Size + byteLength t := rfl

@[simp] theorem byteLength_append (s t : Text) :
    byteLength (s ++ t) = byteLength s + byteLength t := by
  induction s with
  | nil => simp
  | cons c s ih => simp [ih, Nat.add_assoc]

/-- The texts before and after the first occurrence of a character. -/
def splitFirst? (c : Char) : Text → Option (Text × Text)
  | [] => none
  | d :: t => if d = c then some ([], t) else (splitFirst? c t).map fun (a, b) => (d :: a, b)

@[simp] theorem splitFirst?_nil (c : Char) : splitFirst? c [] = none := rfl

theorem splitFirst?_cons (c d : Char) (t : Text) :
    splitFirst? c (d :: t) =
      if d = c then some ([], t) else (splitFirst? c t).map fun (a, b) => (d :: a, b) := rfl

/-- The pieces of a cut at the first `c` give the text back. -/
theorem eq_of_splitFirst? {c : Char} {t a b : Text} (h : splitFirst? c t = some (a, b)) :
    t = a ++ c :: b := by
  induction t generalizing a b with
  | nil => simp at h
  | cons d t ih =>
    rw [splitFirst?_cons] at h
    split at h
    next hd =>
      obtain ⟨rfl, rfl⟩ : [] = a ∧ t = b := by simpa using h
      simp [hd]
    next =>
      obtain ⟨⟨a', b'⟩, h', hp⟩ := Option.map_eq_some_iff.1 h
      obtain ⟨rfl, rfl⟩ : d :: a' = a ∧ b' = b := by simpa using hp
      rw [ih h', List.cons_append]

/-- The texts before and after the last occurrence of a character. -/
def splitLast? (c : Char) : Text → Option (Text × Text)
  | [] => none
  | d :: t =>
    match splitLast? c t with
    | some (a, b) => some (d :: a, b)
    | none => if d = c then some ([], t) else none

@[simp] theorem splitLast?_nil (c : Char) : splitLast? c [] = none := rfl

/-- The pieces of a cut at the last `c` give the text back. -/
theorem eq_of_splitLast? {c : Char} {t a b : Text} (h : splitLast? c t = some (a, b)) :
    t = a ++ c :: b := by
  induction t generalizing a b with
  | nil => simp at h
  | cons d t ih =>
    rw [splitLast?] at h
    split at h
    next a' b' h' =>
      obtain ⟨rfl, rfl⟩ : d :: a' = a ∧ b' = b := by simpa using h
      rw [ih h', List.cons_append]
    next =>
      split at h
      next hd =>
        obtain ⟨rfl, rfl⟩ : [] = a ∧ t = b := by simpa using h
        simp [hd]
      next => simp at h

/-- The texts before and after the first occurrence of a word. -/
def breakAt? (word : Text) : Text → Option (Text × Text)
  | [] => if word.isEmpty then some ([], []) else none
  | c :: t =>
    match word.isPrefixOf? (c :: t) with
    | some rest => some ([], rest)
    | none => (breakAt? word t).map fun (a, b) => (c :: a, b)

/-- Put another text in the place of each occurrence of a word of at least one character, from left
to right. -/
def replace (word new : Text) : Text → Text
  | [] => []
  | c :: t =>
    if word.isPrefixOf (c :: t) then new ++ replace word new (t.drop (word.length - 1))
    else c :: replace word new t
termination_by t => t.length
decreasing_by all_goals (simp only [List.length_drop, List.length_cons]; omega)

/-- Whether every character of a text is an ASCII letter, compared without case, of `word`, which is
given in small letters. -/
def isWordIgnoringAsciiCase (word t : Text) : Bool := t.map Char.toLower == word

end Text

end RecordFilter
