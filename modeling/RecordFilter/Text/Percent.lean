import RecordFilter.Text.Utf8

/-! # Percent-encoding

A byte is written as a percent sign and two hexadecimal digits. In a query value a plus sign stands
for a space, and every other character for its own UTF-8 bytes. Reading fails exactly when some
percent sign is not followed by two hexadecimal digits. -/

namespace RecordFilter.Percent

/-- The hexadecimal digit of a number below sixteen, in capitals. -/
def hexDigit (n : Nat) : Char := Char.ofNat (if n < 10 then 0x30 + n else 0x37 + n)

/-- The number a hexadecimal digit stands for. -/
def hexValue? (c : Char) : Option Nat :=
  if '0' ≤ c ∧ c ≤ '9' then some (c.toNat - 0x30)
  else if 'A' ≤ c ∧ c ≤ 'F' then some (c.toNat - 0x37)
  else if 'a' ≤ c ∧ c ≤ 'f' then some (c.toNat - 0x57)
  else none

/-- The written form of a byte. -/
def encodeByte (b : UInt8) : Text := ['%', hexDigit (b.toNat / 16), hexDigit (b.toNat % 16)]

/-- The written form of a text: every byte of its UTF-8 form as two digits. -/
def encode (t : Text) : Text := (Utf8.encode t).flatMap encodeByte

@[simp] theorem encode_nil : encode [] = [] := rfl

@[simp] theorem encode_append (s t : Text) : encode (s ++ t) = encode s ++ encode t := by
  simp [encode]

/-- The bytes a query value stands for, or nothing if a percent sign has not its two digits. -/
def bytes? : Text → Option (List UInt8)
  | [] => some []
  | '%' :: h :: l :: t => do
    let high ← hexValue? h
    let low ← hexValue? l
    let rest ← bytes? t
    return UInt8.ofNat (high * 16 + low) :: rest
  | '%' :: _ => none
  | '+' :: t => (bytes? t).map (0x20 :: ·)
  | c :: t => (bytes? t).map (String.utf8EncodeChar c ++ ·)

/-- The text a query value stands for. Bytes that are not UTF-8 read as U+FFFD. -/
def decode? (t : Text) : Option Text := (bytes? t).map Utf8.decode

end RecordFilter.Percent
