import RecordFilter.Proofs.Text.Cut
import RecordFilter.Proofs.Text.Percent
import RecordFilter.Proofs.Text.Upper

/-! # Spellings of a text

A text may be percent-encoded as far as one likes: each of its characters is written as itself, or
as its bytes with digits in either case, and a space as a plus sign, too. All its spellings are read
as the text (`bytes?_of_spells`). What is no spelling of anything is a text with a percent sign that
has not its two digits (`bytes?_eq_none_iff`); bytes that are no UTF-8 can be spelled as well as any.
A text in which more is encoded than in another means the same bytes (`Respells.bytes?_eq`), and
holds the same characters that are no part of an escape, in the same places
(`Respells.exists_eq_append_cons`). -/

namespace RecordFilter.Percent

/-! ## Hexadecimal digits -/

/-- The hexadecimal digits in either case. -/
def hexDigits : Text :=
  ['0', '1', '2', '3', '4', '5', '6', '7', '8', '9', 'A', 'B', 'C', 'D', 'E', 'F',
    'a', 'b', 'c', 'd', 'e', 'f']

/-- The hexadecimal digits are below 128. -/
theorem toNat_lt_of_mem_hexDigits {c : Char} (hc : c ∈ hexDigits) : c.toNat < 0x80 := by
  have hall : hexDigits.all (·.toNat < 0x80) = true := by decide
  simpa using List.all_eq_true.1 hall c hc

/-- The hexadecimal digits are the characters that stand for a number. -/
theorem isSome_hexValue?_iff {c : Char} : (hexValue? c).isSome = true ↔ c ∈ hexDigits := by
  by_cases hc : c.toNat < 128
  · exact forall_ascii (P := fun c => (hexValue? c).isSome = true ↔ c ∈ hexDigits) (by decide) hc
  · have hnine : ¬c ≤ '9' := fun h => hc (Nat.lt_of_le_of_lt h (by decide))
    have hcapital : ¬c ≤ 'F' := fun h => hc (Nat.lt_of_le_of_lt h (by decide))
    have hsmall : ¬c ≤ 'f' := fun h => hc (Nat.lt_of_le_of_lt h (by decide))
    have hmem : c ∉ hexDigits := fun h => hc (toNat_lt_of_mem_hexDigits h)
    simp [hexValue?, hnine, hcapital, hsmall, hmem]

/-- A character that stands for a number is a hexadecimal digit. -/
theorem mem_hexDigits_of_hexValue? {c : Char} {n : Nat} (h : hexValue? c = some n) :
    c ∈ hexDigits := by
  rw [← isSome_hexValue?_iff, h]
  rfl

/-- A hexadecimal digit is one byte, of which it is the character. -/
theorem byte_of_mem_hexDigits {c : Char} (hc : c ∈ hexDigits) :
    String.utf8EncodeChar c = [UInt8.ofNat c.toNat] ∧
      Char.ofNat (UInt8.ofNat c.toNat).toNat = c := by
  have hlt := toNat_lt_of_mem_hexDigits hc
  constructor
  · exact Utf8.utf8EncodeChar_ascii hlt
  · rw [Utf8.toNat_ofNat (by omega), Char.ofNat_toNat]

/-- A digit of a number is a hexadecimal digit. -/
theorem mem_hexDigits_of_isDigitOf {n : Nat} {c : Char} (hn : n < 16) (h : IsDigitOf n c) :
    c ∈ hexDigits :=
  mem_hexDigits_of_hexValue? (hexValue?_of_isDigitOf hn h)

/-! ## Escapes -/

/-- Bytes as they may be escaped. -/
inductive Escapes : List UInt8 → Text → Prop
  | nil : Escapes [] []
  | cons {b : UInt8} {bs : List UInt8} {high low : Char} {t : Text}
      (hhigh : IsDigitOf (b.toNat / 16) high) (hlow : IsDigitOf (b.toNat % 16) low)
      (hrest : Escapes bs t) : Escapes (b :: bs) ('%' :: high :: low :: t)

namespace Escapes

variable {bs : List UInt8} {t : Text}

/-- The written form in capitals is an escape. -/
theorem encode (t : Text) : Escapes (Utf8.encode t) (encode t) := by
  rw [Percent.encode]
  induction Utf8.encode t with
  | nil => exact .nil
  | cons b bs ih => exact .cons (.inl rfl) (.inl rfl) ih

/-- Escaped bytes are read back, and then what follows them. -/
theorem bytes?_append (h : Escapes bs t) (rest : Text) :
    bytes? (t ++ rest) = (bytes? rest).map (bs ++ ·) := by
  induction h with
  | nil => simp
  | cons hhigh hlow _ ih =>
    rw [List.cons_append, List.cons_append, List.cons_append, bytes?_escape hhigh hlow, ih,
      Option.map_map]
    rfl

/-- Escapes are made of percent signs and digits. -/
theorem subset (h : Escapes bs t) : t ⊆ '%' :: hexDigits := by
  induction h with
  | nil => exact List.nil_subset _
  | @cons b _ high low _ hhigh hlow _ ih =>
    have hb : b.toNat < 256 := b.toNat_lt
    have hhigh := mem_hexDigits_of_isDigitOf (by omega) hhigh
    have hlow := mem_hexDigits_of_isDigitOf (by omega) hlow
    exact List.cons_subset.2 ⟨List.mem_cons_self, List.cons_subset.2 ⟨List.mem_cons_of_mem _ hhigh,
      List.cons_subset.2 ⟨List.mem_cons_of_mem _ hlow, ih⟩⟩⟩

end Escapes

/-! ## Spellings -/

/-- The ways of writing a text: each character as itself, if it is neither a percent sign nor a plus
sign, or escaped, and a space as a plus sign, too. -/
inductive Spells : Text → Text → Prop
  | nil : Spells [] []
  | plain {c : Char} {e t : Text} (hpercent : c ≠ '%') (hplus : c ≠ '+') (h : Spells e t) :
      Spells (c :: e) (c :: t)
  | space {e t : Text} (h : Spells e t) : Spells ('+' :: e) (' ' :: t)
  | escaped {c : Char} {digits e t : Text} (hdigits : Escapes (String.utf8EncodeChar c) digits)
      (h : Spells e t) : Spells (digits ++ e) (c :: t)

/-- A text without percent signs and plus signs is a spelling of itself. -/
theorem spells_self {t : Text} (hpercent : '%' ∉ t) (hplus : '+' ∉ t) : Spells t t := by
  induction t with
  | nil => exact .nil
  | cons c t ih =>
    rw [List.mem_cons, not_or] at hpercent hplus
    exact .plain (Ne.symm hpercent.1) (Ne.symm hplus.1) (ih hpercent.2 hplus.2)

/-- **A spelling of a text stands for the bytes of the text.** -/
theorem bytes?_of_spells {e t : Text} (h : Spells e t) : bytes? e = some (Utf8.encode t) := by
  induction h with
  | nil => rw [bytes?, Utf8.encode_nil]
  | plain hpercent hplus _ ih =>
    rw [bytes?_cons_of_ne hpercent hplus, ih, Option.map_some, Utf8.encode_cons]
  | space _ ih =>
    rw [bytes?, ih, Option.map_some, Utf8.encode_cons]
    rfl
  | escaped hdigits _ ih =>
    rw [hdigits.bytes?_append, ih, Option.map_some, Utf8.encode_cons]

/-! ## Respellings -/

/-- The bytes of a character that begins no escape: those of a space, for a plus sign, and else its
own. -/
def standsFor (c : Char) : List UInt8 := if c = '+' then [0x20] else String.utf8EncodeChar c

/-- A character that begins no escape is read as the bytes it stands for. -/
theorem bytes?_cons {c : Char} (h : c ≠ '%') (t : Text) :
    bytes? (c :: t) = (bytes? t).map (standsFor c ++ ·) := by
  by_cases hplus : c = '+'
  · rw [hplus, bytes?]
    rfl
  · rw [bytes?_cons_of_ne h hplus, standsFor, if_neg hplus]

/-- A character stands for some byte. -/
theorem standsFor_ne_nil (c : Char) : standsFor c ≠ [] := by
  rw [standsFor]
  split
  · exact List.cons_ne_nil _ _
  · exact String.utf8EncodeChar_ne_nil

/-- Some of the characters of a text that are no part of an escape are escaped as well. -/
inductive Respells : Text → Text → Prop
  | nil : Respells [] []
  | escape {high low : Char} {e e' : Text} (hhigh : high ∈ hexDigits) (hlow : low ∈ hexDigits)
      (h : Respells e e') : Respells ('%' :: high :: low :: e) ('%' :: high :: low :: e')
  | keep {c : Char} {e e' : Text} (hc : c ≠ '%') (h : Respells e e') : Respells (c :: e) (c :: e')
  | encode {c : Char} {digits e e' : Text} (hc : c ≠ '%') (hdigits : Escapes (standsFor c) digits)
      (h : Respells e e') : Respells (c :: e) (digits ++ e')

namespace Respells

variable {e e' : Text}

/-- **A respelling stands for the same bytes.** -/
theorem bytes?_eq (h : Respells e e') : bytes? e' = bytes? e := by
  induction h with
  | nil => rfl
  | escape _ _ _ ih => simp only [bytes?, ih]
  | keep hc _ ih => rw [bytes?_cons hc, bytes?_cons hc, ih]
  | encode hc hdigits _ ih => rw [hdigits.bytes?_append, bytes?_cons hc, ih]

/-- Only the empty text has an empty respelling. -/
theorem eq_nil (h : Respells e []) : e = [] := by
  generalize he' : ([] : Text) = e' at h
  cases h with
  | nil => rfl
  | escape => cases he'
  | keep => cases he'
  | @encode c digits _ _ _ hdigits _ =>
    -- A character stands for at least one byte, which has been escaped.
    obtain ⟨b, bs, hbytes⟩ := List.exists_cons_of_ne_nil (standsFor_ne_nil c)
    rw [hbytes] at hdigits
    cases hdigits
    cases he'

/-- **A character that is no part of an escape stands in a respelling where it stood before.** -/
theorem exists_eq_append_cons {d : Char} (hd : d ∉ '%' :: hexDigits) {a b : Text}
    (h : Respells e (a ++ d :: b)) :
    ∃ a₀ b₀, e = a₀ ++ d :: b₀ ∧ Respells a₀ a ∧ Respells b₀ b := by
  generalize he' : a ++ d :: b = e' at h
  induction h generalizing a with
  | nil => simp at he'
  | @escape high low e e' hhigh hlow h ih =>
    have hnot : d ∉ ['%', high, low] := by
      rw [List.mem_cons, not_or] at hd
      simp only [List.mem_cons, List.not_mem_nil, or_false, not_or]
      exact ⟨hd.1, fun h => hd.2 (h ▸ hhigh), fun h => hd.2 (h ▸ hlow)⟩
    obtain ⟨a, rfl, rfl⟩ := Text.exists_eq_append_of_notMem (a := ['%', high, low]) hnot he'.symm
    obtain ⟨a₀, b₀, rfl, ha, hb⟩ := ih rfl
    exact ⟨'%' :: high :: low :: a₀, b₀, rfl, .escape hhigh hlow ha, hb⟩
  | @keep c e e' hc h ih =>
    rcases List.append_eq_cons_iff.1 he' with ⟨rfl, hcons⟩ | ⟨a, rfl, rfl⟩
    · obtain ⟨rfl, rfl⟩ := List.cons.inj hcons
      exact ⟨[], e, rfl, .nil, h⟩
    · obtain ⟨a₀, b₀, rfl, ha, hb⟩ := ih rfl
      exact ⟨c :: a₀, b₀, rfl, .keep hc ha, hb⟩
  | @encode c digits e e' hc hdigits h ih =>
    obtain ⟨a, rfl, rfl⟩ :=
      Text.exists_eq_append_of_notMem (fun hmem => hd (hdigits.subset hmem)) he'.symm
    obtain ⟨a₀, b₀, rfl, ha, hb⟩ := ih rfl
    exact ⟨c :: a₀, b₀, rfl, .encode hc hdigits ha, hb⟩

end Respells

end RecordFilter.Percent
