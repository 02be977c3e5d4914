import RecordFilter.Proofs.Clause.Text
import RecordFilter.Proofs.Literal.Decoding

/-! # Literals that mean no more than they are decoded to

A comparison looks at its literal as it was written in three places only: at a bar, at brackets
around the whole, and at a star that is the whole. A literal with none of these is plain
(`IsPlain`). A comparison with a plain literal depends on what the literal is decoded to and on
nothing else (`matchesValue_eq_of_decode`), so it stays the same when more of the literal is encoded
(`matchesValue_respelled`). -/

namespace RecordFilter

namespace Literal

/-- A written literal with none of the shapes that mean something before it is decoded. -/
structure IsPlain (raw : Text) : Prop where
  bar_notMem : '|' ∉ raw
  ne_inBrackets : ∀ t, raw ≠ inBrackets t
  ne_star : raw ≠ ['*']

/-- What is encoded throughout is plain. -/
theorem isPlain_encode (t : Text) : IsPlain (Percent.encode t) where
  bar_notMem := Percent.notMem_encode (by decide) t
  ne_inBrackets u h := by
    have hopening : '[' ∉ Percent.encode t := Percent.notMem_encode (by decide) t
    rw [h] at hopening
    exact hopening List.mem_cons_self
  ne_star h := by
    have hstar : '*' ∉ Percent.encode t := Percent.notMem_encode (by decide) t
    rw [h] at hstar
    exact hstar List.mem_cons_self

/-- **A respelling of a plain literal is plain**: bars, brackets and stars are no part of an escape,
so those of the respelling stood in the literal. -/
theorem IsPlain.respelled {raw raw' : Text} (h : IsPlain raw) (hraw : Percent.Respells raw raw') :
    IsPlain raw' where
  bar_notMem hbar := by
    obtain ⟨a, b, rfl⟩ := List.append_of_mem hbar
    obtain ⟨_, _, rfl, -⟩ := hraw.exists_eq_append_cons (by decide)
    exact h.bar_notMem (by simp)
  ne_inBrackets t ht := by
    have hopening : raw' = [] ++ '[' :: (t ++ ']' :: []) := ht
    rw [hopening] at hraw
    obtain ⟨_, _, rfl, hbefore, hrest⟩ := hraw.exists_eq_append_cons (by decide)
    obtain ⟨inner, _, rfl, -, hbehind⟩ := hrest.exists_eq_append_cons (by decide)
    rw [hbefore.eq_nil, hbehind.eq_nil] at h
    exact h.ne_inBrackets inner rfl
  ne_star hstar := by
    have hcut : raw' = [] ++ '*' :: [] := hstar
    rw [hcut] at hraw
    obtain ⟨_, _, rfl, hbefore, hbehind⟩ := hraw.exists_eq_append_cons (by decide)
    rw [hbefore.eq_nil, hbehind.eq_nil] at h
    exact h.ne_star rfl

/-- A respelling is decoded to the same text. -/
theorem decode_respelled {unescape : Bool} {raw raw' t : Text} (hraw : Percent.Respells raw raw')
    (h : decode unescape raw = .ok t) : decode unescape raw' = .ok t := by
  rw [decode_eq_ok_iff, Percent.decode?, hraw.bytes?_eq, ← Percent.decode?]
  exact decode_eq_ok_iff.1 h

end Literal

namespace Clause

open Literal (decode inBrackets IsPlain)

variable {c : Clause} {s : Settings} {decoded raw : Text}

/-! ## Equality -/

/-- A text is compared with what a plain literal is decoded to. -/
theorem textEquals_of_isPlain (h : IsPlain c.literal) (text : Text) :
    c.textEquals s decoded text = .ok (Glob.equals c.operator.ignoresCase decoded text) :=
  textEquals_glob h.bar_notMem h.ne_inBrackets

/-- Equality of a leaf with what a plain literal is decoded to does not depend on the literal. -/
theorem equalsDecoded_leaf_of_isPlain (h : IsPlain c.literal) (hraw : IsPlain raw) {leaf : Value}
    (hleaf : leaf.kind ≠ .sequence) :
    equalsDecoded { c with literal := raw } s decoded leaf = c.equalsDecoded s decoded leaf := by
  cases leaf with
  | null => rw [equalsDecoded, equalsDecoded]
  | text t =>
    rw [equalsDecoded, equalsDecoded, textEquals_of_isPlain h, textEquals_of_isPlain hraw]
  | bool b =>
    rw [equalsDecoded, equalsDecoded, textEquals_of_isPlain h, textEquals_of_isPlain hraw]
  | number n =>
    rw [equalsDecoded, equalsDecoded]
    rfl
  | instant t =>
    rw [equalsDecoded, equalsDecoded]
    rfl
  | sequence items => exact absurd rfl hleaf

/-- Nor does equality of a sequence, whose leaves are searched. -/
theorem equalsDecoded_of_isPlain (h : IsPlain c.literal) (hraw : IsPlain raw) (value : Value) :
    equalsDecoded { c with literal := raw } s decoded value = c.equalsDecoded s decoded value := by
  by_cases hleaf : value.kind = .sequence
  · cases value with
    | sequence items =>
      rw [equalsDecoded, equalsDecoded, equalsSome_eq_anyM, equalsSome_eq_anyM]
      refine anyM_congr fun leaf hmem => ?_
      rw [elementEquals_of_ne h.ne_star, elementEquals_of_ne hraw.ne_star]
      exact equalsDecoded_leaf_of_isPlain h hraw (Value.kind_ne_of_mem_leavesOf hmem)
    | null => cases hleaf
    | text t => cases hleaf
    | bool b => cases hleaf
    | number n => cases hleaf
    | instant t => cases hleaf
  · exact equalsDecoded_leaf_of_isPlain h hraw hleaf

/-! ## Order -/

/-- A relational operator looks at what the literal is decoded to only, plain or not. -/
theorem relates_of_decode (h : decode s.unescape c.literal = .ok decoded)
    (hraw : decode s.unescape raw = .ok decoded) (value : Value) :
    relates { c with literal := raw } s value = c.relates s value := by
  have htext : ∀ {c : Clause} t, decode s.unescape c.literal = .ok decoded →
      c.relates s (.text t) = .ok false := by
    -- The empty literal is not decoded for a text, but that makes no difference.
    intro c t h
    rw [relates.eq_def]
    split
    · rfl
    · rw [h]
      rfl
  cases value with
  | text t => rw [htext t h, htext t hraw]
  | null => simp only [relates, h, hraw]
  | bool b => simp only [relates, h, hraw]
  | number n => simp only [relates, h, hraw]
  | instant t => simp only [relates, h, hraw]
  | sequence items => simp only [relates, h, hraw]

/-! ## Comparisons -/

/-- **A comparison with a plain literal depends only on what the literal is decoded to.** -/
theorem matchesValue_eq_of_decode (h : decode s.unescape c.literal = .ok decoded)
    (hraw : decode s.unescape raw = .ok decoded) (hplain : IsPlain c.literal)
    (hplain' : IsPlain raw) (value : Value) :
    matchesValue { c with literal := raw } s value = c.matchesValue s value := by
  by_cases hoperator : c.operator.isEquality = true
  · rw [matchesValue_eq_map (c := { c with literal := raw }) hoperator,
      matchesValue_eq_map hoperator, equals_eq_bind, equals_eq_bind, h, hraw, ok_bind, ok_bind,
      equalsDecoded_of_isPlain hplain hplain']
  · rw [Bool.not_eq_true] at hoperator
    rw [matchesValue_eq_relates (c := { c with literal := raw }) hoperator,
      matchesValue_eq_relates hoperator, relates_of_decode h hraw]

/-- **Only bars, brackets and the star mean something in a literal as it is written.** A literal with
none of them may be replaced by the encoding of what it is decoded to, or by any other in which more
is encoded: every comparison comes to the same, be it an answer or an error. -/
theorem matchesValue_respelled (c : Clause) (s : Settings) (value : Value)
    (hdecodes : decode s.unescape c.literal = .ok decoded) (hbar : '|' ∉ c.literal)
    (hbrackets : ∀ t, c.literal ≠ inBrackets t) (hstar : c.literal ≠ ['*']) :
    matchesValue { c with literal := Percent.encode decoded } s value = c.matchesValue s value ∧
      ∀ raw, Percent.Respells c.literal raw →
        matchesValue { c with literal := raw } s value = c.matchesValue s value := by
  have hplain : IsPlain c.literal := ⟨hbar, hbrackets, hstar⟩
  constructor
  · have hencode : decode s.unescape (Percent.encode decoded) = .ok decoded := by
      rw [Literal.decode_encode, Literal.reading_of_decode hdecodes]
    exact matchesValue_eq_of_decode hdecodes hencode hplain (Literal.isPlain_encode decoded) value
  · intro raw hraw
    exact matchesValue_eq_of_decode hdecodes (Literal.decode_respelled hraw hdecodes) hplain
      (hplain.respelled hraw) value

/-- The name of a line feed may be encoded or not, and an encoded bar is none either way. The error
of a number tells what the literal is decoded to. -/
theorem matchesValue_respelled_control :
    let c : Clause := ⟨['n'], .equal, ['\\', 'n', '%', '7', 'c', '[']⟩
    let s : Settings := { unescape := true }
    let decoded := ['\n', '|', '[']
    let raw := ['%', '5', 'C', 'n', '%', '7', 'c', '[']
    decode s.unescape c.literal = .ok decoded ∧ IsPlain c.literal ∧
      Percent.Respells c.literal raw ∧
      matchesValue { c with literal := Percent.encode decoded } s (.sequence [.text decoded]) =
        .ok true ∧
      matchesValue { c with literal := raw } s (.number (.signed 1)) =
        .error (.invalidNumber decoded .invalid) := by
  intro c s decoded raw
  have hdecodes : decode s.unescape c.literal = .ok decoded := rfl
  have hplain : IsPlain c.literal := ⟨by decide, Literal.ne_inBrackets (by decide), by decide⟩
  have hbackslash : Percent.Escapes (Percent.standsFor '\\') ['%', '5', 'C'] :=
    .cons (by decide) (by decide) .nil
  have hraw : Percent.Respells c.literal raw :=
    .encode (by decide) hbackslash (.keep (by decide)
      (.escape (by decide) (by decide) (.keep (by decide) .nil)))
  have hrespelled := fun value => matchesValue_respelled c s value hdecodes hplain.bar_notMem
    hplain.ne_inBrackets hplain.ne_star
  exact ⟨hdecodes, hplain, hraw, (hrespelled _).1.trans rfl, ((hrespelled _).2 raw hraw).trans rfl⟩

end Clause

end RecordFilter
