import RecordFilter.Text.Utf8

/-! # Reading UTF-8 back

The bytes of a text are read back as the text, whatever bytes follow. A character of several bytes
leaves the reader within the character until its last byte (`decodeFrom_more`, `decodeFrom_last`);
the bounds that its second byte has to keep are those that the code points of characters keep, as
none of them is a surrogate and none has a shorter form. Bytes that need not be well formed are read
piece by piece between the characters of one byte (`decode_append_ascii`). -/

namespace RecordFilter.Utf8

/-! ## Single bytes -/

/-- A number below 256 is the number of its byte. -/
theorem toNat_ofNat {n : Nat} (h : n < 256) : (UInt8.ofNat n).toNat = n :=
  UInt8.toNat_ofNat_of_lt h

/-- The character whose number is a byte. -/
theorem toNat_ofNat_toNat (b : UInt8) : (Char.ofNat b.toNat).toNat = b.toNat := by
  have hvalid : b.toNat.isValidChar := .inl (Nat.lt_trans b.toNat_lt (by decide))
  rw [Char.ofNat, dif_pos hvalid]
  rfl

/-- The byte for the last six bits of a number. -/
theorem toNat_trailing (n : Nat) : (UInt8.ofNat (n % 64 + 128)).toNat = n % 64 + 128 :=
  toNat_ofNat (by omega)

/-- The first byte of a character of two bytes. -/
theorem start_two {b : UInt8} (hlow : 0xC2 ≤ b.toNat) (hhigh : b.toNat < 0xE0) :
    start b = ([], some ⟨1, b.toNat - 0xC0, 0x80, 0xBF⟩) := by
  rw [start, if_neg (by omega), if_neg (by omega), if_pos hhigh]

/-- The first byte of a character of three bytes. -/
theorem start_three {b : UInt8} (hlow : 0xE0 ≤ b.toNat) (hhigh : b.toNat < 0xF0) :
    start b = ([], some ⟨2, b.toNat - 0xE0, if b.toNat = 0xE0 then 0xA0 else 0x80,
      if b.toNat = 0xED then 0x9F else 0xBF⟩) := by
  rw [start, if_neg (by omega), if_neg (by omega), if_neg (by omega), if_pos hhigh]

/-- The first byte of a character of four bytes. -/
theorem start_four {b : UInt8} (hlow : 0xF0 ≤ b.toNat) (hhigh : b.toNat < 0xF5) :
    start b = ([], some ⟨3, b.toNat - 0xF0, if b.toNat = 0xF0 then 0x90 else 0x80,
      if b.toNat = 0xF4 then 0x8F else 0xBF⟩) := by
  rw [start, if_neg (by omega), if_neg (by omega), if_neg (by omega), if_neg (by omega),
    if_pos hhigh]

/-! ## Runs of bytes -/

/-- A byte below 128 is a character of its own. -/
theorem decodeFrom_ascii {b : UInt8} (h : b.toNat < 0x80) (bs : List UInt8) :
    decodeFrom none (b :: bs) = Char.ofNat b.toNat :: decodeFrom none bs := by
  rw [decodeFrom, feed, start, if_pos h]
  rfl

/-- A byte that begins a character is remembered. -/
theorem decodeFrom_start {b : UInt8} {p : Pending} (h : start b = ([], some p)) (bs : List UInt8) :
    decodeFrom none (b :: bs) = decodeFrom (some p) bs := by
  rw [decodeFrom, feed, h]
  rfl

/-- A byte within the bounds goes on with the character begun. -/
theorem decodeFrom_more {b : UInt8} {p : Pending} (hlow : p.low ≤ b.toNat)
    (hhigh : b.toNat ≤ p.high) (hneeded : 1 < p.needed) (bs : List UInt8) :
    decodeFrom (some p) (b :: bs) =
      decodeFrom (some ⟨p.needed - 1, p.value * 64 + (b.toNat - 0x80), 0x80, 0xBF⟩) bs := by
  rw [decodeFrom, feed, if_pos ⟨hlow, hhigh⟩, if_neg (Nat.not_le.2 hneeded)]
  rfl

/-- The last byte completes the character begun. -/
theorem decodeFrom_last {b : UInt8} {p : Pending} (hlow : p.low ≤ b.toNat)
    (hhigh : b.toNat ≤ p.high) (hneeded : p.needed ≤ 1) (bs : List UInt8) :
    decodeFrom (some p) (b :: bs) =
      Char.ofNat (p.value * 64 + (b.toNat - 0x80)) :: decodeFrom none bs := by
  rw [decodeFrom, feed, if_pos ⟨hlow, hhigh⟩, if_pos hneeded]
  rfl

/-! ## Characters -/

/-- The code point of a character is no surrogate and has at most 21 bits. -/
theorem toNat_bounds (c : Char) :
    c.toNat < 0xD800 ∨ 0xDFFF < c.toNat ∧ c.toNat < 0x110000 := c.valid

/-- **A character is read back** from its bytes. -/
theorem decodeFrom_utf8EncodeChar (c : Char) (bs : List UInt8) :
    decodeFrom none (String.utf8EncodeChar c ++ bs) = c :: decodeFrom none bs := by
  have hbounds := toNat_bounds c
  have hchar : Char.ofNat c.toNat = c := Char.ofNat_toNat c
  rw [String.utf8EncodeChar.eq_def]
  simp only [show c.val.toNat = c.toNat from rfl]
  generalize c.toNat = n at hbounds hchar
  split
  next h1 =>
    -- One byte.
    have hb : (UInt8.ofNat n).toNat = n := toNat_ofNat (by omega)
    rw [List.singleton_append, decodeFrom_ascii (by omega), hb, hchar]
  split
  next h1 h2 =>
    -- Two bytes: a smaller number than `0x80` would begin with `0xC0` or `0xC1`.
    have hb : (UInt8.ofNat (n / 64 % 32 + 192)).toNat = n / 64 + 192 := by
      rw [toNat_ofNat (by omega)]
      omega
    have ht := toNat_trailing n
    have hvalue : (n / 64 + 192 - 0xC0) * 64 + (n % 64 + 128 - 0x80) = n := by omega
    rw [List.cons_append, List.singleton_append,
      decodeFrom_start (start_two (by omega) (by omega)),
      decodeFrom_last (by simp only; omega) (by simp only; omega) (Nat.le_refl 1), hb, ht, hvalue,
      hchar]
  split
  next h1 h2 h3 =>
    -- Three bytes: the bounds of the second leave out shorter forms and the surrogates.
    have hb : (UInt8.ofNat (n / 4096 % 16 + 224)).toNat = n / 4096 + 224 := by
      rw [toNat_ofNat (by omega)]
      omega
    have hu := toNat_trailing (n / 64)
    have ht := toNat_trailing n
    have hvalue : ((n / 4096 + 224 - 0xE0) * 64 + (n / 64 % 64 + 128 - 0x80)) * 64 +
        (n % 64 + 128 - 0x80) = n := by omega
    rw [List.cons_append, List.cons_append, List.singleton_append,
      decodeFrom_start (start_three (by omega) (by omega)),
      decodeFrom_more (by simp only; split <;> omega) (by simp only; split <;> omega)
        (Nat.lt_succ_self 1),
      decodeFrom_last (by simp only; omega) (by simp only; omega) (Nat.le_refl 1), hb, hu, ht,
      hvalue, hchar]
  next h1 h2 h3 =>
    -- Four bytes: the bounds of the second leave out shorter forms and what is above `0x10FFFF`.
    have hb : (UInt8.ofNat (n / 262144 % 8 + 240)).toNat = n / 262144 + 240 := by
      rw [toNat_ofNat (by omega)]
      omega
    have hv := toNat_trailing (n / 4096)
    have hu := toNat_trailing (n / 64)
    have ht := toNat_trailing n
    have hvalue : (((n / 262144 + 240 - 0xF0) * 64 + (n / 4096 % 64 + 128 - 0x80)) * 64 +
        (n / 64 % 64 + 128 - 0x80)) * 64 + (n % 64 + 128 - 0x80) = n := by omega
    rw [List.cons_append, List.cons_append, List.cons_append, List.singleton_append,
      decodeFrom_start (start_four (by omega) (by omega)),
      decodeFrom_more (by simp only; split <;> omega) (by simp only; split <;> omega)
        (Nat.lt_succ_of_lt (Nat.lt_succ_self 1)),
      decodeFrom_more (by simp only; omega) (by simp only; omega) (Nat.lt_succ_self 1),
      decodeFrom_last (by simp only; omega) (by simp only; omega) (Nat.le_refl 1), hb, hv, hu, ht,
      hvalue, hchar]

/-- **A text is read back** from its bytes, and what follows it as if it came first. -/
theorem decode_encode_append (t : Text) (bs : List UInt8) :
    decode (encode t ++ bs) = t ++ decode bs := by
  induction t with
  | nil => rfl
  | cons c t ih =>
    rw [encode_cons, List.append_assoc, decode, decodeFrom_utf8EncodeChar, ← decode, ih]
    rfl

/-- A text is read back from its bytes. -/
@[simp] theorem decode_encode (t : Text) : decode (encode t) = t := by
  simpa using decode_encode_append t []

/-- **Bytes are read as the text that they encode**, and only if they encode one. -/
theorem decode?_eq_some_iff {bytes : List UInt8} {t : Text} :
    decode? bytes = some t ↔ encode t = bytes := by
  rw [decode?]
  constructor
  · intro h
    split at h
    next hbytes => rwa [← Option.some.inj h]
    next => cases h
  · rintro rfl
    rw [decode_encode, if_pos rfl]

@[simp] theorem decode?_encode (t : Text) : decode? (encode t) = some t :=
  decode?_eq_some_iff.2 rfl

/-! ## Bytes before a character of one byte -/

/-- One byte is read, and then those behind it after what it leaves. -/
theorem decodeFrom_cons (pending : Option Pending) (b : UInt8) (bs : List UInt8) :
    decodeFrom pending (b :: bs) = (feed b pending).1 ++ decodeFrom (feed b pending).2 bs := rfl

/-- A byte that begins a character leaves only bytes from 128 on for the next one. -/
theorem low_of_mem_start {b : UInt8} {p : Pending} (h : p ∈ (start b).2) : 0x80 ≤ p.low := by
  simp only [start] at h
  split at h
  next => cases h
  split at h
  next => cases h
  split at h
  next =>
    cases h
    exact Nat.le_refl _
  split at h
  next =>
    cases h
    simp only
    split <;> decide
  split at h
  next =>
    cases h
    simp only
    split <;> decide
  next => cases h

/-- So does a byte within a character. -/
theorem low_of_mem_feed {b : UInt8} {pending : Option Pending} {p : Pending}
    (h : p ∈ (feed b pending).2) : 0x80 ≤ p.low := by
  cases pending with
  | none => exact low_of_mem_start h
  | some q =>
    simp only [feed] at h
    split at h
    next =>
      split at h
      next => cases h
      next =>
        cases h
        exact Nat.le_refl _
    next => exact low_of_mem_start h

/-- A byte below 128 ends the character begun, which then reads as U+FFFD. -/
theorem feed_ascii {b : UInt8} (hb : b.toNat < 0x80) {p : Pending} (hp : 0x80 ≤ p.low) :
    feed b (some p) = ([replacement, Char.ofNat b.toNat], none) := by
  have hout : ¬(p.low ≤ b.toNat ∧ b.toNat ≤ p.high) := by omega
  simp only [feed, start, if_neg hout, if_pos hb]

/-- The bytes before and behind one below 128 are read on their own, whatever is pending. -/
theorem decodeFrom_append_ascii {b : UInt8} (hb : b.toNat < 0x80) (before after : List UInt8)
    {pending : Option Pending} (hlow : ∀ p ∈ pending, 0x80 ≤ p.low) :
    decodeFrom pending (before ++ b :: after) =
      decodeFrom pending before ++ Char.ofNat b.toNat :: decodeFrom none after := by
  induction before generalizing pending with
  | nil =>
    cases pending with
    | none => exact decodeFrom_ascii hb after
    | some p =>
      rw [List.nil_append, decodeFrom_cons, feed_ascii hb (hlow p rfl)]
      rfl
  | cons c before ih =>
    -- What `c` leaves keeps the bound again, so the character begun never takes `b`.
    rw [List.cons_append, decodeFrom_cons, decodeFrom_cons, ih fun p => low_of_mem_feed,
      List.append_assoc]

/-- A character below 128 is one byte, that of its code point. -/
theorem utf8EncodeChar_ascii {c : Char} (hc : c.toNat < 0x80) :
    String.utf8EncodeChar c = [UInt8.ofNat c.toNat] := by
  rw [String.utf8EncodeChar.eq_def]
  simp only [show c.val.toNat = c.toNat from rfl]
  rw [if_pos (by omega)]

/-- **Nothing reaches over a character of one byte**: the bytes before it and those behind it are
read on their own, well formed or not. -/
theorem decode_append_ascii {c : Char} (hc : c.toNat < 0x80) (before after : List UInt8) :
    decode (before ++ (String.utf8EncodeChar c ++ after)) = decode before ++ c :: decode after := by
  have hbyte : (UInt8.ofNat c.toNat).toNat = c.toNat := toNat_ofNat (by omega)
  have hcut : decode (before ++ UInt8.ofNat c.toNat :: after) =
      decode before ++ Char.ofNat (UInt8.ofNat c.toNat).toNat :: decode after :=
    decodeFrom_append_ascii (by omega) before after (by simp)
  rw [utf8EncodeChar_ascii hc, List.singleton_append, hcut, hbyte, Char.ofNat_toNat]

/-- The bytes of a character from 128 on are from 128 on. -/
theorem le_of_mem_utf8EncodeChar {c : Char} (hc : 0x80 ≤ c.toNat) {b : UInt8}
    (hb : b ∈ String.utf8EncodeChar c) : 0x80 ≤ b.toNat := by
  have hbounds := toNat_bounds c
  rw [String.utf8EncodeChar.eq_def] at hb
  simp only [show c.val.toNat = c.toNat from rfl] at hb
  generalize c.toNat = n at hc hb hbounds
  split at hb
  next => omega
  split at hb
  next =>
    simp only [List.mem_cons, List.not_mem_nil, or_false] at hb
    rcases hb with rfl | rfl <;> rw [toNat_ofNat (by omega)] <;> omega
  split at hb
  next =>
    simp only [List.mem_cons, List.not_mem_nil, or_false] at hb
    rcases hb with rfl | rfl | rfl <;> rw [toNat_ofNat (by omega)] <;> omega
  next =>
    simp only [List.mem_cons, List.not_mem_nil, or_false] at hb
    rcases hb with rfl | rfl | rfl | rfl <;> rw [toNat_ofNat (by omega)] <;> omega

/-- A byte below 128 at the start of the bytes of a text is the first character. -/
theorem exists_eq_cons_of_encode {t : Text} {b : UInt8} {bs : List UInt8}
    (h : encode t = b :: bs) (hb : b.toNat < 0x80) :
    ∃ rest, t = Char.ofNat b.toNat :: rest ∧ encode rest = bs := by
  cases t with
  | nil => cases h
  | cons c t =>
    rw [encode_cons] at h
    by_cases hc : c.toNat < 0x80
    · rw [utf8EncodeChar_ascii hc, List.singleton_append] at h
      obtain ⟨rfl, rfl⟩ := List.cons.inj h
      rw [toNat_ofNat (by omega), Char.ofNat_toNat]
      exact ⟨t, rfl, rfl⟩
    · obtain ⟨first, others, hbytes⟩ := List.exists_cons_of_ne_nil String.utf8EncodeChar_ne_nil
      have hfirst := le_of_mem_utf8EncodeChar (Nat.not_lt.1 hc) (hbytes ▸ List.mem_cons_self)
      rw [hbytes, List.cons_append] at h
      obtain ⟨rfl, -⟩ := List.cons.inj h
      omega

end RecordFilter.Utf8
