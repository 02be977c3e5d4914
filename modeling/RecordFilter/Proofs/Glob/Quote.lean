import RecordFilter.Proofs.Glob.Pieces

/-! # Globs without wildcards

A text is quoted by a backslash before every character that means something in a glob. The tokens
of a quoted text are its characters, and a row of characters matches exactly the text that it
spells, since each of them takes one character (`splits_map_char`). -/

namespace RecordFilter.Glob

/-! ## Quoted texts -/

/-- The characters that mean something in a glob. -/
def special : Text := ['*', '?', '\\']

/-- A text as a glob that stands for nothing but itself. -/
def quote : Text → Text
  | [] => []
  | c :: t => if c ∈ special then '\\' :: c :: quote t else c :: quote t

/-- **A quoted text is read as its characters.** -/
theorem tokens_quote (t : Text) : tokens (quote t) = t.map .char := by
  induction t with
  | nil => rfl
  | cons c t ih =>
    rw [quote, List.map_cons]
    split
    next => rw [tokens, ih]
    next h =>
      simp only [special, List.mem_cons, List.not_mem_nil, or_false, not_or] at h
      obtain ⟨hstar, hmark, hslash⟩ := h
      rw [tokens_cons_of_ne hslash hstar hmark, ih]

/-! ## Matching a row of characters -/

/-- A row of characters splits the text that it spells and no other. -/
theorem splits_map_char (s t : Text) : Splits false (s.map .char) t ↔ t = s := by
  induction s generalizing t with
  | nil => exact splits_nil
  | cons c s ih =>
    rw [List.map_cons, splits_cons]
    constructor
    · rintro ⟨piece, rest, rfl, ⟨d, rfl, rfl⟩, hrest⟩
      rw [(ih rest).1 hrest, List.singleton_append]
    · rintro rfl
      exact ⟨[c], s, rfl, ⟨c, rfl, rfl⟩, (ih s).2 rfl⟩

/-- **A quoted text matches itself and no other text** where case counts. -/
theorem equals_quote (s t : Text) : equals false (quote s) t = (t == s) := by
  rw [Bool.eq_iff_iff, equals_iff, tokens_quote, splits_map_char, beq_iff_eq]

end RecordFilter.Glob
