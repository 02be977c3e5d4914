import RecordFilter.Text.Basic

/-! # Places in a text, counted in bytes

A byte offset is a place in a text if it falls between two of its characters, and not within one or
beyond the end. Every operation at byte offsets below fails where an offset is no place; and what it
comes to otherwise is told by the equation that puts the pieces together again
(`cutAt?_eq_some_iff`, `cutsAt?_eq_some_iff`). -/

namespace RecordFilter.Text

/-- The texts before and behind a byte offset. -/
def cutAt? : Nat → Text → Option (Text × Text)
  | 0, t => some ([], t)
  | _ + 1, [] => none
  | n + 1, c :: t =>
    if c.utf8Size ≤ n + 1 then (cutAt? (n + 1 - c.utf8Size) t).map fun (a, b) => (c :: a, b)
    else none

/-- The texts before, between and behind two byte offsets, of which the first is not behind the
second. -/
def cutsAt? (i j : Nat) (t : Text) : Option (Text × Text × Text) := do
  let (front, after) ← cutAt? j t
  let (before, part) ← cutAt? i front
  return (before, part, after)

/-- The character that begins at a byte offset. -/
def charAt? (t : Text) (i : Nat) : Option Char := (cutAt? i t).bind fun (_, after) => after.head?

/-- The text between two byte offsets. -/
def slice? (t : Text) (i j : Nat) : Option Text := (cutsAt? i j t).map fun (_, part, _) => part

/-- The text with another in the place of what is between two byte offsets. -/
def replaceRange? (t : Text) (i j : Nat) (new : Text) : Option Text :=
  (cutsAt? i j t).map fun (before, _, after) => before ++ (new ++ after)

/-! ## Cuts -/

@[simp] theorem cutAt?_zero (t : Text) : cutAt? 0 t = some ([], t) := by
  rw [cutAt?]

/-- A place behind the first character is a place in the rest. -/
theorem cutAt?_cons (c : Char) (n : Nat) (t : Text) :
    cutAt? (c.utf8Size + n) (c :: t) = (cutAt? n t).map fun (a, b) => (c :: a, b) := by
  obtain ⟨m, hm⟩ : ∃ m, c.utf8Size + n = m + 1 :=
    Nat.exists_eq_succ_of_ne_zero (Nat.ne_of_gt (Nat.add_pos_left c.utf8Size_pos n))
  rw [hm, cutAt?, if_pos (by omega), ← hm, Nat.add_sub_cancel_left]

/-- **A text is cut at a byte offset** if that is the length of some beginning of it. -/
theorem cutAt?_eq_some_iff {n : Nat} {t a b : Text} :
    cutAt? n t = some (a, b) ↔ t = a ++ b ∧ byteLength a = n := by
  constructor
  · intro h
    induction t generalizing n a with
    | nil =>
      cases n with
      | zero => simp_all
      | succ n => simp [cutAt?] at h
    | cons c t ih =>
      cases n with
      | zero =>
        obtain ⟨rfl, rfl⟩ : [] = a ∧ c :: t = b := by simpa using h
        exact ⟨rfl, rfl⟩
      | succ n =>
        rw [cutAt?] at h
        split at h
        next hle =>
          obtain ⟨⟨a', b'⟩, h', hp⟩ := Option.map_eq_some_iff.1 h
          obtain ⟨rfl, rfl⟩ : c :: a' = a ∧ b' = b := by simpa using hp
          obtain ⟨rfl, hlength⟩ := ih h'
          exact ⟨rfl, by rw [byteLength_cons, hlength]; omega⟩
        next => cases h
  · rintro ⟨rfl, rfl⟩
    induction a with
    | nil => exact cutAt?_zero b
    | cons c a ih =>
      rw [List.cons_append, byteLength_cons, cutAt?_cons, ih]
      rfl

/-- **A text is cut at two byte offsets** if they are the lengths of two beginnings of it, one of
which continues the other. -/
theorem cutsAt?_eq_some_iff {i j : Nat} {t a p b : Text} :
    cutsAt? i j t = some (a, p, b) ↔
      t = a ++ (p ++ b) ∧ byteLength a = i ∧ byteLength (a ++ p) = j := by
  simp only [cutsAt?, Option.bind_eq_bind, Option.bind_eq_some_iff, Option.pure_def,
    Option.some.injEq, Prod.mk.injEq, Prod.exists, cutAt?_eq_some_iff]
  constructor
  · rintro ⟨_, _, ⟨rfl, rfl⟩, _, _, ⟨rfl, rfl⟩, rfl, rfl, rfl⟩
    exact ⟨List.append_assoc .., rfl, rfl⟩
  · rintro ⟨rfl, rfl, rfl⟩
    exact ⟨a ++ p, b, ⟨(List.append_assoc ..).symm, rfl⟩, a, p, ⟨rfl, rfl⟩, rfl, rfl, rfl⟩

section Pieces

variable {t a p b : Text} {c : Char} {i j : Nat}

/-- A character begins at the length of the text before it. -/
theorem charAt?_eq_some (ht : t = a ++ c :: b) (hi : byteLength a = i) : charAt? t i = some c := by
  rw [charAt?, cutAt?_eq_some_iff.2 ⟨ht, hi⟩]
  rfl

section Part

variable (ht : t = a ++ (p ++ b)) (hi : byteLength a = i) (hj : byteLength (a ++ p) = j)
include ht hi hj

/-- A part of a text is between the lengths of the texts that end before it and with it. -/
theorem slice?_eq_some : slice? t i j = some p := by
  rw [slice?, cutsAt?_eq_some_iff.2 ⟨ht, hi, hj⟩]
  rfl

/-- A part of a text is replaced between these lengths. -/
theorem replaceRange?_eq_some (new : Text) :
    replaceRange? t i j new = some (a ++ (new ++ b)) := by
  rw [replaceRange?, cutsAt?_eq_some_iff.2 ⟨ht, hi, hj⟩]
  rfl

end Part

end Pieces

end RecordFilter.Text
