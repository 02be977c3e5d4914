import RecordFilter.Proofs.Clause.Text
import RecordFilter.Proofs.Literal.Decoding

/-! # Comparisons that cannot fail behind the decoding of their literal

A comparison with a text decodes its literal as a whole, and where there are alternatives in it,
then each of these on its own. The second time nothing can go wrong: what can be decoded as a whole
can be decoded part by part (`decode_parts`). So such a comparison fails only where its literal
cannot be decoded, and the error tells the whole of it (`matchesValue_eq_error_iff_decode`). -/

namespace RecordFilter

namespace Literal

variable {unescape : Bool} {raw t : Text}

/-- The alternatives of a literal that can be decoded can be decoded. -/
theorem exists_decode_of_mem_options {alternation : Alternation}
    (hdecodes : decode unescape raw = .ok t) (h : alternation? raw = some alternation) :
    ∀ option ∈ alternation.options, ∃ u, decode unescape option = .ok u := by
  have hsplit : ∀ {body : Text}, (∃ u, decode unescape body = .ok u) →
      ∀ option ∈ body.splitOn '|', ∃ u, decode unescape option = .ok u := by
    intro body hbody
    apply exists_decode_joinBars_iff.1
    rwa [joinBars, List.intercalate_splitOn]
  rw [alternation?] at h
  split at h
  next =>
    cases hbracketed : bracketed? raw with
    | none =>
      obtain rfl : ⟨false, raw.splitOn '|'⟩ = alternation := by simpa [hbracketed] using h
      exact hsplit ⟨t, hdecodes⟩
    | some inner =>
      obtain rfl : ⟨true, inner.splitOn '|'⟩ = alternation := by simpa [hbracketed] using h
      rw [bracketed?_eq_some_iff.1 hbracketed] at hdecodes
      exact hsplit (exists_decode_inBrackets_iff.1 ⟨t, hdecodes⟩)
  next => cases h

end Literal

namespace Clause

open Literal (decode)

variable {c : Clause} {s : Settings}

/-- A text can be compared with every literal that can be decoded. -/
theorem exists_textEquals_eq_ok {decoded : Text} (h : decode s.unescape c.literal = .ok decoded)
    (text : Text) : ∃ hit, c.textEquals s decoded text = .ok hit := by
  cases halternation : Literal.alternation? c.literal with
  | none => exact ⟨_, textEquals_no_alternation halternation⟩
  | some alternation =>
    have htotal : ∀ option ∈ alternation.options, ∀ e,
        c.globTest s alternation.contains text option ≠ .error e := by
      intro option hoption e he
      obtain ⟨hit, hhit⟩ := exists_globTest_iff.2
        (Literal.exists_decode_of_mem_options h halternation option hoption)
      cases he.symm.trans hhit
    exact ⟨_, (textEquals_alternation halternation).trans (anyM_eq_any htotal)⟩

/-- **Equality of a text fails exactly if the literal cannot be decoded.** -/
theorem matchesValue_eq_error_iff_decode (hequality : c.operator.isEquality = true) {value : Value}
    {text : Text} (htext : value.textForm? = some text) {e : QueryError} :
    c.matchesValue s value = .error e ↔ decode s.unescape c.literal = .error e := by
  rw [matchesValue_eq_map hequality, map_eq_error_iff, equals_eq_bind, bind_eq_error_iff,
    or_iff_left]
  rintro ⟨decoded, hdecodes, he⟩
  obtain ⟨hit, hhit⟩ := exists_textEquals_eq_ok hdecodes text
  rw [equalsDecoded_eq_textEquals htext, hhit] at he
  cases he

/-- **A literal is decoded part by part**, whatever decoder of escapes is used in the passes over
it. None of the passes looks over a delimiter: a literal with one in it can be decoded exactly if
what stands before it and what stands behind it can, and is then decoded to the two with the
delimiter between them. So once a literal has been decoded, its alternatives can be decoded as well,
and equality of a text fails only as the decoding of the whole literal does. -/
theorem decode_parts (decoder : List UInt8 → List UInt8)
    (hdecoder : Percent.DecodesEscapes decoder) :
    (∀ unescape raw, Literal.decodeInPasses decoder unescape raw = decode unescape raw) ∧
    (∀ unescape, ∀ d ∈ Literal.delimiters, ∀ a b t, decode unescape (a ++ d :: b) = .ok t ↔
      ∃ x y, decode unescape a = .ok x ∧ decode unescape b = .ok y ∧ t = x ++ d :: y) ∧
    (∀ unescape raw t alternation, decode unescape raw = .ok t →
      Literal.alternation? raw = some alternation →
        ∀ option ∈ alternation.options, ∃ u, decode unescape option = .ok u) ∧
    ∀ (c : Clause) (s : Settings) (value : Value), c.operator.isEquality = true →
      value.textForm?.isSome = true →
        ∀ e, c.matchesValue s value = .error e ↔ decode s.unescape c.literal = .error e := by
  refine ⟨Literal.decodeInPasses_eq hdecoder, ?_, ?_, ?_⟩
  · intro unescape d hd a b t
    exact Literal.decode_append_delimiter_eq_ok_iff hd
  · intro unescape raw t alternation hdecodes halternation
    exact Literal.exists_decode_of_mem_options hdecodes halternation
  · intro c s value hequality hform e
    obtain ⟨text, htext⟩ := Option.isSome_iff_exists.1 hform
    exact matchesValue_eq_error_iff_decode hequality htext

/-- The name of a line feed stands behind a bar and an escape before it. An escape does not reach
over the bar, and the alternatives of a literal with a broken one fail it as a whole. -/
theorem decode_parts_bar :
    decode true ['%', '4', '1', '|', '\\', 'n'] = .ok ['A', '|', '\n'] ∧
      (∀ t, decode false ['%', '4', '|', '1'] ≠ .ok t) ∧
      (∃ t, decode false ['%', '4', '2'] = .ok t) ∧
      matchesValue ⟨['n'], .notEqual, ['[', 'b', '|', '%', ']']⟩ {} (.bool true) =
        .error (.undecodable ['[', 'b', '|', '%', ']']) := by
  obtain ⟨-, hparts, hoptions, herror⟩ :=
    decode_parts Percent.decodeEscapes Percent.decodesEscapes_decodeEscapes
  refine ⟨?_, ?_, ?_, ?_⟩
  · have hpart := hparts true '|' (by decide) ['%', '4', '1'] ['\\', 'n']
    exact (hpart _).2 ⟨['A'], ['\n'], rfl, rfl, rfl⟩
  · intro t ht
    obtain ⟨x, -, hx, -⟩ := (hparts false '|' (by decide) ['%', '4'] ['1'] t).1 ht
    cases hx
  · have hdecodes : decode false ['[', '%', '4', '2', '|', 'c', ']'] =
        .ok ['[', 'B', '|', 'c', ']'] := rfl
    exact hoptions false _ _ ⟨true, [['%', '4', '2'], ['c']]⟩ hdecodes rfl _ List.mem_cons_self
  · exact (herror ⟨['n'], .notEqual, ['[', 'b', '|', '%', ']']⟩ {} (.bool true) rfl rfl _).2 rfl

end Clause

end RecordFilter
