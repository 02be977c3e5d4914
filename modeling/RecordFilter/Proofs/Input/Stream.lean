import RecordFilter.Input
import RecordFilter.Proofs.Text.Cut
import RecordFilter.Proofs.Text.Utf8

/-! # Streams of bytes

A stream is read as a whole or line by line. It has a text if and only if it is the stream of that
text (`text?_eq_some_iff`), and its lines are then those of the text (`lines_ofText`): no byte of
another character is a line feed, so bytes and characters are cut at the same places. -/

namespace RecordFilter

namespace InputStream

/-! ## The whole stream -/

/-- **A stream holds a text if it is the stream of that text**, and no other does. -/
theorem text?_eq_some_iff {s : InputStream} {t : Text} : s.text? = some t ↔ s = ofText t := by
  obtain ⟨bytes, breaksOff⟩ := s
  cases breaksOff with
  | false =>
    have htext : text? ⟨bytes, false⟩ = Utf8.decode? bytes := rfl
    rw [htext, Utf8.decode?_eq_some_iff, ofText, mk.injEq, eq_comm, and_iff_left rfl]
  | true => simp [text?, ofText]

@[simp] theorem text?_ofText (t : Text) : (ofText t).text? = some t :=
  text?_eq_some_iff.2 rfl

/-! ## Lines -/

/-- Among the bytes of a character there is a line feed only if the character is one. -/
theorem lineFeed_notMem_utf8EncodeChar {c : Char} (h : c ≠ '\n') :
    (10 : UInt8) ∉ String.utf8EncodeChar c := by
  intro hmem
  by_cases hc : c.toNat < 0x80
  · rw [Utf8.utf8EncodeChar_ascii hc, List.mem_singleton] at hmem
    have hcode : c.toNat = 10 := by
      have hbyte := congrArg UInt8.toNat hmem
      rw [Utf8.toNat_ofNat (Nat.lt_trans hc (by decide))] at hbyte
      exact hbyte.symm
    exact h (Char.toNat_inj.1 hcode)
  · have hlow := Utf8.le_of_mem_utf8EncodeChar (Nat.not_lt.1 hc) hmem
    exact absurd hlow (by decide)

/-- The bytes of a text are cut at line feeds where the text is. -/
theorem splitOn_encode (t : Text) :
    (Utf8.encode t).splitOn 10 = (t.splitOn '\n').map Utf8.encode := by
  induction t with
  | nil => rfl
  | cons c t ih =>
    rw [Utf8.encode_cons, List.splitOn_cons_eq_if_modifyHead]
    by_cases hc : c = '\n'
    · subst hc
      have hbyte : String.utf8EncodeChar '\n' = [10] := rfl
      rw [hbyte, List.singleton_append, List.splitOn_cons_eq_if_modifyHead,
        if_pos (beq_self_eq_true (10 : UInt8)), if_pos (beq_self_eq_true '\n'), ih, List.map_cons,
        Utf8.encode_nil]
    · rw [Text.splitOn_append_of_notMem (lineFeed_notMem_utf8EncodeChar hc), ih,
        if_neg (by simpa using hc)]
      -- The bytes of `c` go in front of those of the first line, as `c` goes in front of it.
      cases hlines : t.splitOn '\n' with
      | nil => exact absurd hlines (List.splitOn_ne_nil '\n' t)
      | cons first others => rfl

/-- **The lines of the stream of a text are those of the text.** -/
@[simp] theorem lines_ofText (t : Text) : (ofText t).lines = (t.splitOn '\n').map some := by
  have hdecode : Utf8.decode? ∘ Utf8.encode = some := by
    funext line
    exact Utf8.decode?_encode line
  rw [lines, ofText, if_neg Bool.false_ne_true, splitOn_encode, List.map_map, hdecode]

end InputStream

/-! ## Arrays -/

/-- From the text of an array its elements are read. -/
theorem Input.read_document_array {t : Text} {items : List Json}
    (h : Json.parse? t = some (.array items)) :
    Input.read .document (.ofText t) = Input.readElements 0 items := by
  rw [Input.read, InputStream.text?_ofText, Option.bind_some, h]

end RecordFilter
