import RecordFilter.Proofs.Literal.Delimiter
import RecordFilter.Proofs.Text.BrokenEscape
import RecordFilter.Proofs.Text.Replace

/-! # What a literal is decoded to

Where control characters may be named in a literal, their names are replaced in what has been
decoded. That leaves no name, so to do it once more changes nothing
(`unescapeControls_unescapeControls`), and a text is kept exactly if it has no name in it
(`unescapeControls_eq_self_iff`).

A literal is decoded to the text that it spells, in whatever way it does, and it cannot be decoded
only if one of its escapes is broken (`decode_spelling`). This may be done in passes over the whole
literal, of which the first looks for broken escapes, or in one reading from left to right
(`decodeInPasses_eq`). -/

namespace RecordFilter.Literal

/-! ## Names of control characters -/

/-- The names of control characters, without their backslash, with the characters they stand for. -/
def controlTable : List (Text × Text) :=
  [(['n'], ['\n']), (['t'], ['\t']), (['r'], ['\r'])]

/-- The names do not overlap, and no control character is in a name. -/
theorem areSeparate_controlTable : Text.AreSeparate controlTable := by
  decide

/-- Control characters are put in the place of their names in one pass. -/
theorem unescapeControls_eq_replaceEach (t : Text) :
    unescapeControls t = Text.replaceEach controlTable t := by
  induction t using controls_induction with
  | nil => rw [unescapeControls, Text.replaceEach_nil]
  | name d hd t ih =>
    have hfound : controlTable.find? (·.1.isPrefixOf ([d] ++ t)) = some ([d], [controlOf d]) := by
      simp only [controlNames, List.mem_cons, List.not_mem_nil, or_false] at hd
      rcases hd with rfl | rfl | rfl <;> rfl
    rw [unescapeControls_name hd, ih]
    exact (Text.replaceEach_found hfound).symm
  | copied c t hcopied ih =>
    rw [unescapeControls_cons hcopied, ih]
    by_cases hc : c = '\\'
    · have hnone : controlTable.find? (·.1.isPrefixOf t) = none := by
        cases t with
        | nil => rfl
        | cons d t =>
          have hd : d ∉ controlNames := fun hd => hcopied hc d hd rfl
          simp only [controlNames, List.mem_cons, List.not_mem_nil, or_false, not_or] at hd
          simp [controlTable, Ne.symm hd.1, Ne.symm hd.2.1, Ne.symm hd.2.2]
      rw [hc, Text.replaceEach_backslash hnone]
    · rw [Text.replaceEach_cons_of_ne hc]

/-- To put control characters in the place of their names once more changes nothing. -/
theorem unescapeControls_unescapeControls (t : Text) :
    unescapeControls (unescapeControls t) = unescapeControls t := by
  simp only [unescapeControls_eq_replaceEach]
  exact Text.replaceEach_replaceEach areSeparate_controlTable t

/-- A text is kept exactly if no control character is named in it. -/
theorem unescapeControls_eq_self_iff {t : Text} :
    unescapeControls t = t ↔ ∀ c ∈ controlNames, ¬['\\', c] <:+: t := by
  rw [unescapeControls_eq_replaceEach, Text.replaceEach_eq_self_iff areSeparate_controlTable]
  simp [controlTable, controlNames]

/-- Without a backslash no control character is named. -/
theorem unescapeControls_eq_self {t : Text} (h : '\\' ∉ t) : unescapeControls t = t := by
  refine unescapeControls_eq_self_iff.2 fun c _ hname => h ?_
  exact hname.subset List.mem_cons_self

/-- Without a backslash what has been decoded is read as it is. -/
theorem reading_eq_self {t : Text} (h : '\\' ∉ t) (unescape : Bool) : reading unescape t = t := by
  cases unescape with
  | false => rfl
  | true => exact unescapeControls_eq_self h

/-- Put in the control characters one after the other, unless there is no backslash anyway. -/
def unescapeControlsInTurn (t : Text) : Text :=
  if '\\' ∈ t then
    Text.replace ['\\', 'r'] ['\r']
      (Text.replace ['\\', 't'] ['\t'] (Text.replace ['\\', 'n'] ['\n'] t))
  else t

/-- **The names may be replaced one after the other.** -/
theorem unescapeControlsInTurn_eq (t : Text) : unescapeControlsInTurn t = unescapeControls t := by
  rw [unescapeControlsInTurn]
  split
  next =>
    rw [unescapeControls_eq_replaceEach,
      ← Text.replaceInTurn_eq_replaceEach areSeparate_controlTable]
    rfl
  next h => exact (unescapeControls_eq_self h).symm

/-- What a literal is decoded to is read as itself. -/
theorem reading_of_decode {unescape : Bool} {raw t : Text} (h : decode unescape raw = .ok t) :
    reading unescape t = t := by
  obtain ⟨plain, -, rfl⟩ := decode_eq_ok_iff.1 h
  cases unescape with
  | false => rfl
  | true => exact unescapeControls_unescapeControls plain

/-! ## Spellings -/

/-- A literal fails to be decoded exactly if one of its escapes is broken, and the error tells the
literal as it was written. -/
theorem decode_eq_error_iff {unescape : Bool} {raw : Text} {e : QueryError} :
    decode unescape raw = .error e ↔ e = .undecodable raw ∧ Percent.HasBrokenEscape raw := by
  rw [← Percent.bytes?_eq_none_iff, decode, Percent.decode?]
  cases Percent.bytes? raw with
  | none => simp [eq_comm]
  | some bytes => simp

/-- A literal without percent signs, plus signs and backslashes is decoded to itself. -/
theorem decode_eq_self {raw : Text} (hpercent : '%' ∉ raw) (hplus : '+' ∉ raw) (hslash : '\\' ∉ raw)
    (unescape : Bool) : decode unescape raw = .ok raw := by
  have hbytes := Percent.bytes?_of_spells (Percent.spells_self hpercent hplus)
  refine decode_eq_ok_iff.2 ⟨raw, ?_, reading_eq_self hslash unescape⟩
  rw [Percent.decode?, hbytes, Option.map_some, Utf8.decode_encode]

/-- Decode a literal in passes over the whole of it: a check for broken escapes, one for the plus
signs, one for the escapes, and one for the bytes that are no UTF-8. Then one name of a control
character is replaced after the other. -/
def decodeInPasses (decoder : List UInt8 → List UInt8) (unescape : Bool) (raw : Text) :
    Except QueryError Text :=
  if Percent.checkEscapes (Utf8.encode raw) then
    let plain := Utf8.decode (decoder (Utf8.encode (Percent.spaced raw)))
    .ok (if unescape then unescapeControlsInTurn plain else plain)
  else .error (.undecodable raw)

/-- **The passes come to one reading from left to right.** -/
theorem decodeInPasses_eq {decoder : List UInt8 → List UInt8}
    (h : Percent.DecodesEscapes decoder) (unescape : Bool) (raw : Text) :
    decodeInPasses decoder unescape raw = decode unescape raw := by
  rw [decodeInPasses, decode, Percent.decode?, h.bytes?_eq]
  split
  · simp only [unescapeControlsInTurn_eq, Option.map_some]
  · rfl

/-- **Decoding undoes every spelling of a text and refuses broken escapes only**, whatever decoder of
escapes is used. It does not matter for that whether control characters may be named; bytes that are
no UTF-8 are decoded like any others once they have been escaped. The check for broken escapes finds
what the decoder would not decode, so all comes to one reading from left to right. -/
theorem decode_spelling (decoder : List UInt8 → List UInt8)
    (hdecoder : Percent.DecodesEscapes decoder) :
    (∀ unescape raw, decodeInPasses decoder unescape raw = decode unescape raw) ∧
    (∀ e t, Percent.Spells e t → decodeInPasses decoder false e = .ok t) ∧
    (∀ unescape raw e, decodeInPasses decoder unescape raw = .error e ↔
      e = .undecodable raw ∧ Percent.HasBrokenEscape raw) ∧
    (∀ raw, Percent.checkEscapes (Utf8.encode raw) = false ↔ Percent.HasBrokenEscape raw) ∧
    ∀ unescape bytes raw, Percent.Escapes bytes raw →
      ∃ t, decodeInPasses decoder unescape raw = .ok t := by
  have heq := decodeInPasses_eq hdecoder
  refine ⟨heq, fun e t h => ?_, fun unescape raw e => ?_,
    fun _ => Percent.checkEscapes_eq_false_iff, fun unescape bytes raw h => ?_⟩
  · rw [heq, decode, Percent.decode?, Percent.bytes?_of_spells h, Option.map_some,
      Utf8.decode_encode]
    rfl
  · rw [heq]
    exact decode_eq_error_iff
  · have hbytes := h.bytes?_append []
    rw [List.append_nil] at hbytes
    rw [heq, decode, Percent.decode?, hbytes]
    exact ⟨_, rfl⟩

/-- The plus sign, small digits and an escaped two-byte character are decoded. An escape that is cut
short at the end is broken, and a byte that ends no character is not. -/
theorem decode_spelling_mixed :
    let decodes := decodeInPasses Percent.decodeEscapes
    Percent.DecodesEscapes Percent.decodeEscapes ∧
      Percent.Spells ['%', 'c', '3', '%', 'A', '9', '+', 'é'] ['é', ' ', 'é'] ∧
      decodes false ['%', 'c', '3', '%', 'A', '9', '+', 'é'] = .ok ['é', ' ', 'é'] ∧
      decodes true ['%', '4', '1', '%', '4'] = .error (.undecodable ['%', '4', '1', '%', '4']) ∧
      Percent.Escapes [0xFF] ['%', 'f', 'F'] ∧ ∃ t, decodes true ['%', 'f', 'F'] = .ok t := by
  have hdecoder := Percent.decodesEscapes_decodeEscapes
  obtain ⟨-, hspells, herror, -, hbytes⟩ := decode_spelling _ hdecoder
  have hdigits : Percent.Escapes (String.utf8EncodeChar 'é') ['%', 'c', '3', '%', 'A', '9'] := by
    have hbytes : String.utf8EncodeChar 'é' = [0xC3, 0xA9] := rfl
    rw [hbytes]
    exact .cons (by decide) (by decide) (.cons (by decide) (by decide) .nil)
  have hspelling : Percent.Spells ['%', 'c', '3', '%', 'A', '9', '+', 'é'] ['é', ' ', 'é'] :=
    .escaped hdigits (.space (.plain (by decide) (by decide) .nil))
  have hbroken : Percent.HasBrokenEscape ['%', '4', '1', '%', '4'] :=
    ⟨['%', '4', '1'], ['4'], rfl, fun ⟨_, _, _, h, _⟩ => by cases h⟩
  have hescapes : Percent.Escapes [0xFF] ['%', 'f', 'F'] := .cons (by decide) (by decide) .nil
  exact ⟨hdecoder, hspelling, hspells _ _ hspelling, (herror _ _ _).2 ⟨rfl, hbroken⟩, hescapes,
    hbytes _ _ _ hescapes⟩

end RecordFilter.Literal
