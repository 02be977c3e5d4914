import RecordFilter.Proofs.Text.Spelling

/-! # Broken escapes

What is no spelling of any bytes is a text with a percent sign that has not its two digits
(`bytes?_eq_none_iff`). That may be found out beforehand, by a pass over the bytes of the text
(`checkEscapes_eq_false_iff`). If it finds nothing, plus signs may be turned to spaces in another
pass and the escapes decoded in a third, by any decoder that decodes them where they are in order
(`DecodesEscapes.bytes?_eq`). -/

namespace RecordFilter.Percent

/-! ## Broken escapes -/

/-- No escape begins with one of its own digits. -/
theorem percent_notMem_hexDigits : '%' ∉ hexDigits := by
  decide

/-- A text that begins with two hexadecimal digits. -/
def StartsWithByte (t : Text) : Prop :=
  ∃ high low rest, t = high :: low :: rest ∧ high ∈ hexDigits ∧ low ∈ hexDigits

/-- Some percent sign is not followed by two hexadecimal digits. -/
def HasBrokenEscape (t : Text) : Prop :=
  ∃ before after, t = before ++ '%' :: after ∧ ¬StartsWithByte after

/-- A broken escape begins at the first character or further on. -/
theorem hasBrokenEscape_cons {c : Char} {t : Text} :
    HasBrokenEscape (c :: t) ↔ c = '%' ∧ ¬StartsWithByte t ∨ HasBrokenEscape t := by
  constructor
  · rintro ⟨before, after, h, hafter⟩
    rcases List.cons_eq_append_iff.1 h with ⟨rfl, h⟩ | ⟨before, rfl, rfl⟩
    · obtain ⟨rfl, rfl⟩ := List.cons.inj h
      exact .inl ⟨rfl, hafter⟩
    · exact .inr ⟨before, after, rfl, hafter⟩
  · rintro (⟨rfl, h⟩ | ⟨before, after, rfl, h⟩)
    · exact ⟨[], t, rfl, h⟩
    · exact ⟨c :: before, after, rfl, h⟩

/-- Only percent signs begin escapes. -/
theorem hasBrokenEscape_cons_of_ne {c : Char} (h : c ≠ '%') {t : Text} :
    HasBrokenEscape (c :: t) ↔ HasBrokenEscape t := by
  rw [hasBrokenEscape_cons, or_iff_right fun hc => h hc.1]

/-! ## Checks

There are three ways to tell whether the escapes of a text are in order: that its percent signs have
their digits, that the text stands for some bytes, and a check on the bytes it is made of. -/

/-- A check that looks at a text from left to right. Behind an escape it goes on after the digits, and
it passes over every other character. -/
structure ChecksEscapes (P : Text → Prop) : Prop where
  nil : P []
  cons : ∀ {c t}, c ≠ '%' → (P (c :: t) ↔ P t)
  percent : ∀ {t}, P ('%' :: t) ↔
    ∃ high low rest, t = high :: low :: rest ∧ (high ∈ hexDigits ∧ low ∈ hexDigits) ∧ P rest

/-- All checks agree. -/
theorem ChecksEscapes.iff {P Q : Text → Prop} (hP : ChecksEscapes P) (hQ : ChecksEscapes Q) :
    ∀ t, P t ↔ Q t
  | [] => iff_of_true hP.nil hQ.nil
  | c :: t => by
    by_cases hc : c = '%'
    · subst hc
      rw [hP.percent, hQ.percent]
      constructor
      · rintro ⟨high, low, rest, rfl, hdigits, h⟩
        exact ⟨high, low, rest, rfl, hdigits, (hP.iff hQ rest).1 h⟩
      · rintro ⟨high, low, rest, rfl, hdigits, h⟩
        exact ⟨high, low, rest, rfl, hdigits, (hP.iff hQ rest).2 h⟩
    · rw [hP.cons hc, hQ.cons hc]
      exact hP.iff hQ t
termination_by t => t.length

/-- To look for broken escapes everywhere is such a check, as no escape begins among digits. -/
theorem checksEscapes_not_hasBrokenEscape : ChecksEscapes fun t => ¬HasBrokenEscape t where
  nil := by simp [HasBrokenEscape]
  cons hc := not_congr (hasBrokenEscape_cons_of_ne hc)
  percent := by
    intro t
    have hdigit : ∀ {c t}, c ∈ hexDigits → (HasBrokenEscape (c :: t) ↔ HasBrokenEscape t) :=
      fun hc => hasBrokenEscape_cons_of_ne fun h => percent_notMem_hexDigits (h ▸ hc)
    rw [hasBrokenEscape_cons, not_or, eq_self, true_and, not_not]
    constructor
    · rintro ⟨⟨high, low, rest, rfl, hhigh, hlow⟩, h⟩
      rw [hdigit hhigh, hdigit hlow] at h
      exact ⟨high, low, rest, rfl, ⟨hhigh, hlow⟩, h⟩
    · rintro ⟨high, low, rest, rfl, ⟨hhigh, hlow⟩, h⟩
      refine ⟨⟨high, low, rest, rfl, hhigh, hlow⟩, ?_⟩
      rwa [hdigit hhigh, hdigit hlow]

/-- Reading the bytes of a text is such a check. -/
theorem checksEscapes_isSome_bytes? : ChecksEscapes fun t => (bytes? t).isSome = true where
  nil := rfl
  cons := by
    intro c t hc
    by_cases hplus : c = '+'
    · rw [hplus, bytes?, Option.isSome_map]
    · rw [bytes?_cons_of_ne hc hplus, Option.isSome_map]
  percent := by
    intro t
    simp only [← isSome_hexValue?_iff]
    rcases t with _ | ⟨high, _ | ⟨low, rest⟩⟩
    · simp [bytes?]
    · simp [bytes?]
    · have hread : (bytes? ('%' :: high :: low :: rest)).isSome = true ↔
          ((hexValue? high).isSome = true ∧ (hexValue? low).isSome = true) ∧
            (bytes? rest).isSome = true := by
        rw [bytes?]
        cases hexValue? high <;> cases hexValue? low <;> cases bytes? rest <;> simp
      rw [hread]
      constructor
      · intro h
        exact ⟨high, low, rest, rfl, h⟩
      · rintro ⟨_, _, _, ⟨⟩, h⟩
        exact h

/-- **A text stands for no bytes exactly if some percent sign has not its two digits.** -/
theorem bytes?_eq_none_iff {t : Text} : bytes? t = none ↔ HasBrokenEscape t := by
  have h := checksEscapes_isSome_bytes?.iff checksEscapes_not_hasBrokenEscape t
  rwa [← not_iff_not, ← Ne, Option.ne_none_iff_isSome]

/-- Whether every percent sign among bytes is followed by two digits. Behind an escape, the check
goes on after its digits. -/
def checkEscapes : List UInt8 → Bool
  | [] => true
  | b :: bs =>
    if b = 0x25 then
      match bs with
      | high :: low :: rest =>
        Char.ofNat high.toNat ∈ hexDigits && Char.ofNat low.toNat ∈ hexDigits && checkEscapes rest
      | _ => false
    else checkEscapes bs

/-- A byte that is no percent sign is passed over. -/
theorem checkEscapes_cons_of_ne {b : UInt8} (h : b ≠ 0x25) (bs : List UInt8) :
    checkEscapes (b :: bs) = checkEscapes bs := by
  rw [checkEscapes.eq_def]
  exact if_neg h

/-- No byte of another character is that of a percent sign. -/
theorem ne_of_mem_utf8EncodeChar {c : Char} (h : c ≠ '%') {b : UInt8}
    (hb : b ∈ String.utf8EncodeChar c) : b ≠ 0x25 := by
  rintro rfl
  by_cases hascii : c.toNat < 0x80
  · rw [Utf8.utf8EncodeChar_ascii hascii, List.mem_singleton] at hb
    have hnat := congrArg UInt8.toNat hb
    rw [Utf8.toNat_ofNat (by omega)] at hnat
    exact h (Char.toNat_inj.1 hnat.symm)
  · exact absurd (Utf8.le_of_mem_utf8EncodeChar (Nat.not_lt.1 hascii) hb) (by decide)

/-- Bytes that are no percent signs are passed over. -/
theorem checkEscapes_append {bs : List UInt8} (h : ∀ b ∈ bs, b ≠ 0x25) (rest : List UInt8) :
    checkEscapes (bs ++ rest) = checkEscapes rest := by
  induction bs with
  | nil => rfl
  | cons b bs ih =>
    rw [List.forall_mem_cons] at h
    rw [List.cons_append, checkEscapes_cons_of_ne h.1, ih h.2]

/-- Behind a percent sign, two digits have to come, and then bytes that are in order. -/
theorem checkEscapes_percent {t : Text} : checkEscapes (Utf8.encode ('%' :: t)) = true ↔
    ∃ high low rest, t = high :: low :: rest ∧ (high ∈ hexDigits ∧ low ∈ hexDigits) ∧
      checkEscapes (Utf8.encode rest) = true := by
  show checkEscapes (0x25 :: Utf8.encode t) = true ↔ _
  rw [checkEscapes.eq_def]
  simp only [if_true]
  constructor
  · intro h
    have hbyte : ∀ {b : UInt8}, Char.ofNat b.toNat ∈ hexDigits → b.toNat < 0x80 := by
      intro b hb
      rw [← Utf8.toNat_ofNat_toNat]
      exact toNat_lt_of_mem_hexDigits hb
    split at h
    next high low rest hbytes =>
      simp only [Bool.and_eq_true, decide_eq_true_eq] at h
      obtain ⟨⟨hhigh, hlow⟩, hrest⟩ := h
      obtain ⟨behind, rfl, hbehind⟩ := Utf8.exists_eq_cons_of_encode hbytes (hbyte hhigh)
      obtain ⟨others, rfl, rfl⟩ := Utf8.exists_eq_cons_of_encode hbehind (hbyte hlow)
      exact ⟨_, _, others, rfl, ⟨hhigh, hlow⟩, hrest⟩
    next => cases h
  · rintro ⟨high, low, rest, rfl, ⟨hhigh, hlow⟩, hrest⟩
    obtain ⟨hhighByte, hhighChar⟩ := byte_of_mem_hexDigits hhigh
    obtain ⟨hlowByte, hlowChar⟩ := byte_of_mem_hexDigits hlow
    rw [Utf8.encode_cons, Utf8.encode_cons, hhighByte, hlowByte]
    simp only [List.singleton_append, hhighChar, hlowChar, hhigh, hlow, hrest, decide_true,
      Bool.and_self]

/-- So is the check on bytes. -/
theorem checksEscapes_checkEscapes :
    ChecksEscapes fun t => checkEscapes (Utf8.encode t) = true where
  nil := rfl
  cons := by
    intro c t hc
    rw [Utf8.encode_cons, checkEscapes_append fun _ => ne_of_mem_utf8EncodeChar hc]
  percent := checkEscapes_percent

/-- **The check on bytes finds the broken escapes of the text.** -/
theorem checkEscapes_eq_false_iff {t : Text} :
    checkEscapes (Utf8.encode t) = false ↔ HasBrokenEscape t := by
  have h := checksEscapes_checkEscapes.iff checksEscapes_not_hasBrokenEscape t
  rwa [← not_iff_not, Bool.not_eq_false]

/-! ## Decoding in passes -/

/-- What a decoder of escapes does to bytes among which they are in order. -/
structure DecodesEscapes (decoder : List UInt8 → List UInt8) : Prop where
  nil : decoder [] = []
  cons : ∀ {b bs}, b ≠ 0x25 → decoder (b :: bs) = b :: decoder bs
  escape : ∀ {high low h l bs}, hexValue? high = some h → hexValue? low = some l →
    decoder (0x25 :: UInt8.ofNat high.toNat :: UInt8.ofNat low.toNat :: bs) =
      UInt8.ofNat (h * 16 + l) :: decoder bs

/-- Decode the escapes among bytes. A percent sign that begins no escape is copied. -/
def decodeEscapes : List UInt8 → List UInt8
  | [] => []
  | [b] => [b]
  | [b, d] => [b, d]
  | b :: high :: low :: rest =>
    if b = 0x25 then
      match hexValue? (Char.ofNat high.toNat), hexValue? (Char.ofNat low.toNat) with
      | some h, some l => UInt8.ofNat (h * 16 + l) :: decodeEscapes rest
      | _, _ => b :: decodeEscapes (high :: low :: rest)
    else b :: decodeEscapes (high :: low :: rest)

/-- It decodes the escapes that are in order. -/
theorem decodesEscapes_decodeEscapes : DecodesEscapes decodeEscapes where
  nil := by rw [decodeEscapes]
  cons := by
    intro b bs hb
    match bs with
    | [] => simp only [decodeEscapes]
    | [_] => simp only [decodeEscapes]
    | high :: low :: rest => rw [decodeEscapes, if_neg hb]
  escape := by
    intro high low h l bs hhigh hlow
    obtain ⟨-, hhighChar⟩ := byte_of_mem_hexDigits (mem_hexDigits_of_hexValue? hhigh)
    obtain ⟨-, hlowChar⟩ := byte_of_mem_hexDigits (mem_hexDigits_of_hexValue? hlow)
    rw [decodeEscapes, if_pos rfl, hhighChar, hlowChar, hhigh, hlow]

/-- A text with a space in the place of each plus sign. -/
def spaced (t : Text) : Text := t.map fun c => if c = '+' then ' ' else c

/-- Other characters are copied. -/
theorem spaced_cons_of_ne {c : Char} (h : c ≠ '+') (t : Text) :
    spaced (c :: t) = c :: spaced t := by
  rw [spaced, List.map_cons, if_neg h]
  rfl

namespace DecodesEscapes

variable {decoder : List UInt8 → List UInt8}

/-- Bytes that are no percent signs are copied. -/
theorem append (h : DecodesEscapes decoder) {bs : List UInt8} (hbs : ∀ b ∈ bs, b ≠ 0x25)
    (rest : List UInt8) : decoder (bs ++ rest) = bs ++ decoder rest := by
  induction bs with
  | nil => rfl
  | cons b bs ih =>
    rw [List.forall_mem_cons] at hbs
    rw [List.cons_append, h.cons hbs.1, ih hbs.2, List.cons_append]

/-- **Reading a text may be done in passes**: if it stands for some bytes, then they are found by
putting spaces for the plus signs and decoding the escapes afterwards. -/
theorem encode_spaced (h : DecodesEscapes decoder) {t : Text} {bytes : List UInt8}
    (hbytes : bytes? t = some bytes) : decoder (Utf8.encode (spaced t)) = bytes := by
  induction t using bytes?.induct generalizing bytes with
  | case1 =>
    rw [bytes?] at hbytes
    exact h.nil.trans (Option.some.inj hbytes)
  | case2 high low t ih =>
    simp only [bytes?, Option.bind_eq_bind, Option.bind_eq_some_iff, Option.pure_def,
      Option.some.injEq] at hbytes
    obtain ⟨m, hhigh, n, hlow, rest, hrest, rfl⟩ := hbytes
    have hplus : ∀ {d k}, hexValue? d = some k → d ≠ '+' := by
      rintro d k hd rfl
      cases hd
    obtain ⟨hhighByte, -⟩ := byte_of_mem_hexDigits (mem_hexDigits_of_hexValue? hhigh)
    obtain ⟨hlowByte, -⟩ := byte_of_mem_hexDigits (mem_hexDigits_of_hexValue? hlow)
    rw [spaced_cons_of_ne (by decide), spaced_cons_of_ne (hplus hhigh),
      spaced_cons_of_ne (hplus hlow), Utf8.encode_cons, Utf8.encode_cons, Utf8.encode_cons,
      hhighByte, hlowByte]
    exact (h.escape hhigh hlow).trans (congrArg _ (ih hrest))
  | case3 t hshort =>
    rw [bytes?] at hbytes
    · cases hbytes
    · exact hshort
  | case4 t ih =>
    simp only [bytes?, Option.map_eq_some_iff] at hbytes
    obtain ⟨rest, hrest, rfl⟩ := hbytes
    exact (h.cons (by decide)).trans (congrArg _ (ih hrest))
  | case5 c t hpercent hshort hplus ih =>
    have hne : c ≠ '%' := by
      rintro rfl
      exact hshort rfl
    rw [bytes?_cons_of_ne hne hplus, Option.map_eq_some_iff] at hbytes
    obtain ⟨rest, hrest, rfl⟩ := hbytes
    rw [spaced_cons_of_ne hplus, Utf8.encode_cons,
      h.append fun _ => ne_of_mem_utf8EncodeChar hne, ih hrest]

/-- **A check, a pass for the plus signs and one for the escapes** read a text or refuse it. -/
theorem bytes?_eq (h : DecodesEscapes decoder) (t : Text) :
    bytes? t = if checkEscapes (Utf8.encode t) then some (decoder (Utf8.encode (spaced t)))
      else none := by
  split
  next hcheck =>
    cases hbytes : bytes? t with
    | some bytes => rw [h.encode_spaced hbytes]
    | none =>
      rw [checkEscapes_eq_false_iff.2 (bytes?_eq_none_iff.1 hbytes)] at hcheck
      cases hcheck
  next hcheck =>
    rw [Bool.not_eq_true] at hcheck
    exact bytes?_eq_none_iff.2 (checkEscapes_eq_false_iff.1 hcheck)

end DecodesEscapes

end RecordFilter.Percent
