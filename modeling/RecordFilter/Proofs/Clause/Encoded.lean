import RecordFilter.Clause
import RecordFilter.Proofs.Glob.Quote
import RecordFilter.Proofs.Result
import RecordFilter.Proofs.Text.Percent

/-! # Literals that are encoded throughout

What is percent-encoded has no bar and no bracket, so a literal of which every byte is encoded is
neither an alternation nor a substring: a text is compared with the glob that the literal decodes
to, and nothing can go wrong (`matchesValue_text_encode`). -/

namespace RecordFilter

/-! ## Shapes -/

namespace Literal

/-- A literal without a bar is no alternation. -/
theorem alternation?_eq_none {raw : Text} (h : '|' ∉ raw) : alternation? raw = none :=
  if_neg (by simpa using h)

/-- A literal without an opening bracket is not in brackets. -/
theorem bracketed?_eq_none {raw : Text} (h : '[' ∉ raw) : bracketed? raw = none := by
  rw [bracketed?.eq_def]
  split
  next => exact absurd List.mem_cons_self h
  next => rfl

/-- What an encoded text is read as: the text, or the text with its control characters put in the
place of their names. -/
def reading (unescape : Bool) (t : Text) : Text := if unescape then unescapeControls t else t

@[simp] theorem reading_false (t : Text) : reading false t = t := rfl

@[simp] theorem reading_nil (unescape : Bool) : reading unescape [] = [] := by
  cases unescape <;> rfl

/-- An encoded text is decoded. -/
@[simp] theorem decode_encode (unescape : Bool) (t : Text) :
    decode unescape (Percent.encode t) = .ok (reading unescape t) := by
  simp only [decode, Percent.decode?_encode, reading]

end Literal

/-- The empty glob matches the empty text only, whether case counts or not. -/
theorem Glob.equals_nil (ignoreCase : Bool) (t : Text) : equals ignoreCase [] t = t.isEmpty := by
  cases ignoreCase <;> cases t <;> rfl

/-! ## Comparisons with a text -/

namespace Clause

variable {c : Clause} {s : Settings} {t : Text}

/-- A text is compared with the decoded literal as a glob. -/
theorem textEquals_encode (h : c.literal = Percent.encode t) (decoded text : Text) :
    c.textEquals s decoded text = .ok (Glob.equals c.operator.ignoresCase decoded text) := by
  rw [textEquals, h, Literal.alternation?_eq_none (Percent.notMem_encode (by decide) t),
    Literal.bracketed?_eq_none (Percent.notMem_encode (by decide) t)]
  rfl

/-- Equality of a text with an encoded literal. -/
theorem equals_text_encode (h : c.literal = Percent.encode t) (text : Text) :
    c.equals s (.text text) =
      .ok (Glob.equals c.operator.ignoresCase (Literal.reading s.unescape t) text) := by
  cases t with
  | nil =>
    -- The empty literal is not decoded, but the glob that it would be says the same.
    have hnil : c.literal = [] := h
    rw [equals.eq_def, hnil, Literal.reading_nil, Glob.equals_nil]
    rfl
  | cons d t =>
    have hne : c.literal ≠ [] := by
      rw [h, Ne, Percent.encode_eq_nil_iff]
      exact List.cons_ne_nil d t
    rw [equals.eq_def]
    split
    next h' => exact absurd h' hne
    next => rw [h, Literal.decode_encode, ok_bind, equalsDecoded, textEquals_encode h]

/-- **A text is compared with what an encoded literal decodes to**, and the comparison never
fails. -/
theorem matchesValue_text_encode (h : c.literal = Percent.encode t)
    (hequality : c.operator.isEquality = true) (text : Text) :
    c.matchesValue s (.text text) =
      .ok (Glob.equals c.operator.ignoresCase (Literal.reading s.unescape t) text !=
        c.operator.isNegated) := by
  rw [matchesValue, if_pos hequality, equals_text_encode h]
  rfl

end Clause

end RecordFilter
