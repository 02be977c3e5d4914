import RecordFilter.Literal
import RecordFilter.Proofs.Text.Cut

/-! # Ranges

A decoded literal without a tilde is no range (`range_eq_none`). One with a tilde has to be two
bounds with the tilde between them, neither of them empty (`IsRange`), and then the bounds are found
(`range_eq_some`). A tilde in any other place, or a second one, makes the literal malformed
(`range_eq_error`). -/

namespace RecordFilter.Literal

variable {t low high : Text}

/-- What may stand on either side of the tilde of a range. -/
structure IsBound (t : Text) : Prop where
  ne_nil : t ≠ []
  tilde_notMem : '~' ∉ t

instance : Decidable (IsBound t) :=
  decidable_of_iff (t ≠ [] ∧ '~' ∉ t) ⟨fun h => ⟨h.1, h.2⟩, fun h => ⟨h.ne_nil, h.tilde_notMem⟩⟩

/-- A text is two bounds with its only tilde between them. -/
structure IsRange (t low high : Text) : Prop where
  eq_append : t = low ++ '~' :: high
  isBound_low : IsBound low
  isBound_high : IsBound high

/-- Without a tilde there is no range. -/
theorem range_eq_none (h : '~' ∉ t) (selector : Text) : range selector t = .ok none := by
  rw [range, List.splitOn_eq_singleton h]

/-- The bounds of a range are found. -/
theorem range_eq_some (h : IsRange t low high) (selector : Text) :
    range selector t = .ok (some (low, high)) := by
  have hsplit : t.splitOn '~' = [low, high] := by
    refine Text.splitOn_eq_iff.2 ⟨List.cons_ne_nil low [high], ?_, ?_⟩
    · simp [h.isBound_low.tilde_notMem, h.isBound_high.tilde_notMem]
    · rw [Text.intercalate_pair, h.eq_append]
  rw [range, hsplit]
  simp [h.isBound_low.ne_nil, h.isBound_high.ne_nil]

/-- **A literal with a tilde that is no range is malformed.** -/
theorem range_eq_error (htilde : '~' ∈ t) (h : ∀ low high, ¬IsRange t low high)
    (selector : Text) : range selector t = .error (.malformedRange selector t) := by
  rw [range]
  split
  next hsplit => exact absurd hsplit (List.splitOn_ne_nil '~' t)
  next piece hsplit =>
    -- The only piece is the text itself, which would have no tilde.
    obtain ⟨-, hfree, hjoin⟩ := Text.splitOn_eq_iff.1 hsplit
    obtain rfl : piece = t := by simpa using hjoin
    exact absurd htilde (hfree piece List.mem_cons_self)
  next low high hsplit =>
    obtain ⟨-, hfree, hjoin⟩ := Text.splitOn_eq_iff.1 hsplit
    split
    next => rfl
    next hempty =>
      rw [Text.intercalate_pair] at hjoin
      rw [Bool.or_eq_true, List.isEmpty_iff, List.isEmpty_iff, not_or] at hempty
      exact absurd ⟨hjoin.symm, ⟨hempty.1, hfree low List.mem_cons_self⟩,
        ⟨hempty.2, hfree high (List.mem_cons_of_mem low List.mem_cons_self)⟩⟩ (h low high)
  next => rfl

end RecordFilter.Literal
