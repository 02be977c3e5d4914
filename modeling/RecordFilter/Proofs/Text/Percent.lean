import RecordFilter.Proofs.Text.Utf8
import RecordFilter.Text.Percent

/-! # Percent-encoded texts

The written form of a text is made of a percent sign and the sixteen digits (`alphabet`), so nothing
in it means anything else, and it reads back as the text (`decode?_encode`). What stands behind it
is read on its own, so the same holds of texts of which only parts are encoded. -/

namespace RecordFilter.Percent

/-! ## Digits -/

/-- The characters that written forms are made of. -/
def alphabet : Text :=
  ['%', '0', '1', '2', '3', '4', '5', '6', '7', '8', '9', 'A', 'B', 'C', 'D', 'E', 'F']

/-- The digits are in the alphabet. -/
theorem hexDigit_mem {n : Nat} (h : n < 16) : hexDigit n ∈ alphabet := by
  have hall : ∀ i : Fin 16, hexDigit i ∈ alphabet := by decide
  exact hall ⟨n, h⟩

/-- The digits of a number below sixteen: the capital and, where it is a letter, the small one. -/
def IsDigitOf (n : Nat) (c : Char) : Prop := c = hexDigit n ∨ c = (hexDigit n).toLower

instance (n : Nat) (c : Char) : Decidable (IsDigitOf n c) := inferInstanceAs (Decidable (_ ∨ _))

/-- A digit is read back, in either case. -/
theorem hexValue?_of_isDigitOf {n : Nat} {c : Char} (hn : n < 16) (h : IsDigitOf n c) :
    hexValue? c = some n := by
  have hcapital : ∀ i : Fin 16, hexValue? (hexDigit i) = some i.val := by decide
  have hsmall : ∀ i : Fin 16, hexValue? (hexDigit i).toLower = some i.val := by decide
  rcases h with rfl | rfl
  · exact hcapital ⟨n, hn⟩
  · exact hsmall ⟨n, hn⟩

/-! ## Bytes -/

/-- A byte is written with characters of the alphabet. -/
theorem encodeByte_subset (b : UInt8) : encodeByte b ⊆ alphabet := by
  have hb : b.toNat < 256 := b.toNat_lt
  intro c hc
  simp only [encodeByte, List.mem_cons, List.not_mem_nil, or_false] at hc
  rcases hc with rfl | rfl | rfl
  · decide
  · exact hexDigit_mem (by omega)
  · exact hexDigit_mem (by omega)

/-- A byte is read back from its digits, and then what follows it. -/
theorem bytes?_escape {b : UInt8} {high low : Char} (hhigh : IsDigitOf (b.toNat / 16) high)
    (hlow : IsDigitOf (b.toNat % 16) low) (t : Text) :
    bytes? ('%' :: high :: low :: t) = (bytes? t).map (b :: ·) := by
  have hb : b.toNat < 256 := b.toNat_lt
  have hvalue : b.toNat / 16 * 16 + b.toNat % 16 = b.toNat := by omega
  rw [bytes?, hexValue?_of_isDigitOf (by omega) hhigh, hexValue?_of_isDigitOf (by omega) hlow]
  simp only [Option.bind_eq_bind, Option.bind_some, hvalue, UInt8.ofNat_toNat]
  cases bytes? t <;> rfl

/-- A byte is read back from its written form. -/
theorem bytes?_encodeByte_append (b : UInt8) (t : Text) :
    bytes? (encodeByte b ++ t) = (bytes? t).map (b :: ·) :=
  bytes?_escape (.inl rfl) (.inl rfl) t

/-- A character other than `%` and `+` stands for its own bytes. -/
theorem bytes?_cons_of_ne {c : Char} (hpercent : c ≠ '%') (hplus : c ≠ '+') (t : Text) :
    bytes? (c :: t) = (bytes? t).map (String.utf8EncodeChar c ++ ·) := by
  rw [bytes?.eq_def]
  split <;> simp_all

/-! ## Texts -/

/-- A text is written with characters of the alphabet. -/
theorem encode_subset (t : Text) : encode t ⊆ alphabet := by
  intro c hc
  obtain ⟨b, -, hc⟩ := List.mem_flatMap.1 hc
  exact encodeByte_subset b hc

/-- No other character is in a written form. -/
theorem notMem_encode {c : Char} (h : c ∉ alphabet) (t : Text) : c ∉ encode t :=
  fun hc => h (encode_subset t hc)

/-- The bytes of a written text are those of the text, and then those of what follows it. -/
theorem bytes?_encode_append (s t : Text) :
    bytes? (encode s ++ t) = (bytes? t).map (Utf8.encode s ++ ·) := by
  rw [encode]
  induction Utf8.encode s with
  | nil => simp
  | cons b bs ih =>
    rw [List.flatMap_cons, List.append_assoc, bytes?_encodeByte_append, ih, Option.map_map]
    rfl

/-- **A text is read back** from its written form. -/
@[simp] theorem decode?_encode (t : Text) : decode? (encode t) = some t := by
  have hbytes := bytes?_encode_append t []
  rw [List.append_nil] at hbytes
  rw [decode?, hbytes]
  simp [bytes?]

/-- Only the empty text has an empty written form. -/
theorem encode_eq_nil_iff {t : Text} : encode t = [] ↔ t = [] := by
  constructor
  · intro h
    have hdecode := decode?_encode t
    rw [h] at hdecode
    exact (Option.some.inj hdecode).symm
  · rintro rfl
    rfl

/-! ## Texts with a character that belongs to no escape -/

/-- No escape reaches over a character that is no hexadecimal digit: what stands before it is read
on its own. -/
theorem bytes?_append_cons {d : Char} (hd : hexValue? d = none) (a b : Text) :
    bytes? (a ++ d :: b) = (bytes? a).bind fun x => (bytes? (d :: b)).map (x ++ ·) := by
  induction a using bytes?.induct with
  | case1 => simp [bytes?]
  | case2 h l t ih =>
    simp only [List.cons_append, bytes?, ih]
    cases hexValue? h with
    | none => rfl
    | some high =>
      cases hexValue? l with
      | none => rfl
      | some low => cases bytes? t <;> cases bytes? (d :: b) <;> rfl
  | case3 t hshort =>
    -- An escape that is cut short is not made whole by `d`.
    have hnone : bytes? ('%' :: t) = none := by
      rw [bytes?]
      exact hshort
    have hcut : bytes? ('%' :: (t ++ d :: b)) = none := by
      match t, b with
      | [], [] => rfl
      | [], e :: b => simp [bytes?, hd]
      | [h], b => simp [bytes?, hd]
      | h :: l :: t, b => exact absurd rfl (hshort h l t)
    rw [List.cons_append, hnone, hcut]
    rfl
  | case4 t ih =>
    simp only [List.cons_append, bytes?, ih]
    cases bytes? t <;> cases bytes? (d :: b) <;> rfl
  | case5 c t hpercent hshort hplus ih =>
    have hne : c ≠ '%' := by
      rintro rfl
      exact hshort rfl
    rw [List.cons_append, bytes?_cons_of_ne hne hplus, bytes?_cons_of_ne hne hplus, ih]
    cases bytes? t <;> cases bytes? (d :: b) <;> simp

/-- **A text is read piece by piece** between characters of one byte that belong to no escape. -/
theorem decode?_append_cons {d : Char} (hascii : d.toNat < 0x80) (hdigit : hexValue? d = none)
    (hpercent : d ≠ '%') (hplus : d ≠ '+') (a b : Text) :
    decode? (a ++ d :: b) =
      (decode? a).bind fun x => (decode? b).map fun y => x ++ d :: y := by
  rw [decode?, decode?, decode?, bytes?_append_cons hdigit, bytes?_cons_of_ne hpercent hplus]
  cases bytes? a with
  | none => rfl
  | some x => cases bytes? b <;> simp [Utf8.decode_append_ascii hascii]

end RecordFilter.Percent
