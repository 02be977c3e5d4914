import RecordFilter.Proofs.Glob.Pieces

/-! # When one match implies another

What the pieces of a text say about two globs, or about two ways to match one. A match in the same
case is one in any case (`equals_anyCase`, `contains_anyCase`). A glob in brackets has the tokens of
the glob and two more, even if the glob ends in a backslash, which then takes the closing bracket
(`tokens_brackets`); so the glob matches a part of what it matches in brackets
(`contains_of_equals_brackets`). The star alone matches what it takes as a piece
(`equals_star_iff`). -/

namespace RecordFilter

/-! ## Case -/

/-- Characters that are equal are so without regard to case. -/
theorem SameCharacter.anyCase {ignoreCase : Bool} {c d : Char} (h : SameCharacter false c d) :
    SameCharacter ignoreCase c d := by
  have heq : c = d := h
  rw [heq]
  cases ignoreCase <;> rfl

/-- A token takes no less where case does not count. -/
theorem GlobToken.Takes.anyCase {ignoreCase : Bool} {token : GlobToken} {piece : Text}
    (h : token.Takes false piece) : token.Takes ignoreCase piece := by
  cases token with
  | char c =>
    obtain ⟨d, rfl, hd⟩ := h
    exact ⟨d, rfl, hd.anyCase⟩
  | one => exact h
  | many => exact h

namespace Glob

variable {ignoreCase : Bool} {row : List GlobToken} {glob t : Text}

/-- A text that splits into pieces does so where case does not count. -/
theorem Splits.anyCase (h : Splits false row t) : Splits ignoreCase row t := by
  obtain ⟨pieces, heq, hpieces⟩ := h
  exact ⟨pieces, heq, hpieces.imp fun _ _ => GlobToken.Takes.anyCase⟩

/-- **What matches in the same case matches in any case.** -/
theorem equals_anyCase (h : equals false glob t = true) : equals true glob t = true :=
  equals_iff.2 (equals_iff.1 h).anyCase

/-- What matches a part in the same case matches it in any case. -/
theorem contains_anyCase (h : contains false glob t = true) : contains true glob t = true := by
  obtain ⟨before, part, after, heq, hpart⟩ := contains_iff.1 h
  exact contains_iff.2 ⟨before, part, after, heq, hpart.anyCase⟩

/-! ## Brackets -/

/-- The tokens of two rows in turn split a text that can be cut between them. -/
theorem splits_append {row₁ row₂ : List GlobToken} : Splits ignoreCase (row₁ ++ row₂) t ↔
    ∃ a b, t = a ++ b ∧ Splits ignoreCase row₁ a ∧ Splits ignoreCase row₂ b := by
  induction row₁ generalizing t with
  | nil => simp
  | cons token row₁ ih =>
    rw [List.cons_append, splits_cons]
    constructor
    · rintro ⟨piece, rest, rfl, hpiece, hrest⟩
      obtain ⟨a, b, rfl, ha, hb⟩ := ih.1 hrest
      exact ⟨piece ++ a, b, (List.append_assoc ..).symm, splits_cons.2 ⟨piece, a, rfl, hpiece, ha⟩,
        hb⟩
    · rintro ⟨_, b, rfl, ha, hb⟩
      obtain ⟨piece, a, rfl, hpiece, ha⟩ := splits_cons.1 ha
      exact ⟨piece, a ++ b, List.append_assoc .., hpiece, ih.2 ⟨a, b, rfl, ha, hb⟩⟩

/-- A character that means nothing in a glob stands for itself at the end of one, too. A backslash
that it takes away from the end would have stood for nothing there. -/
theorem Reads.concat (h : Reads glob row) {c : Char} (hslash : c ≠ '\\') (hstar : c ≠ '*')
    (hmark : c ≠ '?') : Reads (glob ++ [c]) (row ++ [.char c]) := by
  induction h with
  | nil => exact .plain hslash hstar hmark .nil
  | quoted d _ ih => exact .quoted d ih
  | trailing => exact .quoted c .nil
  | star _ ih => exact .star ih
  | mark _ ih => exact .mark ih
  | plain hslash' hstar' hmark' _ ih => exact .plain hslash' hstar' hmark' ih

/-- The tokens of a glob in brackets are those of the glob between the brackets. -/
theorem tokens_brackets (glob : Text) :
    tokens ('[' :: (glob ++ [']'])) = .char '[' :: (tokens glob ++ [.char ']']) := by
  have hclosing : Reads (glob ++ [']']) (tokens glob ++ [.char ']']) :=
    (reads_tokens glob).concat (by decide) (by decide) (by decide)
  rw [tokens_cons_of_ne (by decide) (by decide) (by decide), reads_iff.1 hclosing]

/-- **A glob matches a part of what it matches in brackets.** -/
theorem contains_of_equals_brackets
    (h : equals ignoreCase ('[' :: (glob ++ [']'])) t = true) :
    contains ignoreCase glob t = true := by
  rw [equals_iff, tokens_brackets] at h
  obtain ⟨opening, rest, rfl, -, hrest⟩ := splits_cons.1 h
  obtain ⟨part, closing, rfl, hpart, -⟩ := splits_append.1 hrest
  exact contains_iff.2 ⟨opening, part, closing, rfl, hpart⟩

/-! ## The star -/

/-- The star matches every text but the empty one and those with a line feed. -/
theorem equals_star_iff : equals ignoreCase ['*'] t = true ↔ t ≠ [] ∧ '\n' ∉ t := by
  rw [equals_iff, tokens, tokens, splits_cons]
  simp [GlobToken.Takes]

end Glob

end RecordFilter
