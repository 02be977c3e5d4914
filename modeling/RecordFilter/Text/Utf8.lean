import RecordFilter.Text.Basic

/-! # UTF-8

Writing a text as bytes, and reading bytes that need not be well formed: every maximal part of a
character's encoding that is cut short, and every byte that can stand nowhere, reads as U+FFFD. The
reader is a machine that takes one byte at a time and remembers what the character begun still
needs. Where only well-formed bytes are to be read, they have to be those of the text that they read
as. -/

namespace RecordFilter.Utf8

/-- The bytes of a text. -/
def encode (t : Text) : List UInt8 := t.flatMap String.utf8EncodeChar

@[simp] theorem encode_nil : encode [] = [] := rfl

@[simp] theorem encode_cons (c : Char) (t : Text) :
    encode (c :: t) = String.utf8EncodeChar c ++ encode t := rfl

@[simp] theorem encode_append (s t : Text) : encode (s ++ t) = encode s ++ encode t := by
  simp [encode]

/-- The character that stands for bytes that encode none. -/
def replacement : Char := '\uFFFD'

/-- What a character begun still needs: the number of bytes to come, the value read so far, and the
bounds of the next byte. -/
structure Pending where
  needed : Nat
  value : Nat
  low : Nat
  high : Nat

/-- A byte between characters: the characters it completes, and the character it begins. -/
def start (b : UInt8) : Text × Option Pending :=
  let n := b.toNat
  if n < 0x80 then ([Char.ofNat n], none)
  else if n < 0xC2 then ([replacement], none)
  else if n < 0xE0 then ([], some ⟨1, n - 0xC0, 0x80, 0xBF⟩)
  else if n < 0xF0 then
    ([], some ⟨2, n - 0xE0, if n = 0xE0 then 0xA0 else 0x80, if n = 0xED then 0x9F else 0xBF⟩)
  else if n < 0xF5 then
    ([], some ⟨3, n - 0xF0, if n = 0xF0 then 0x90 else 0x80, if n = 0xF4 then 0x8F else 0xBF⟩)
  else ([replacement], none)

/-- A byte after the bytes of `pending`. One that is out of bounds ends the character begun, which
then reads as U+FFFD, and is taken as a byte between characters. -/
def feed (b : UInt8) : Option Pending → Text × Option Pending
  | none => start b
  | some p =>
    let n := b.toNat
    if p.low ≤ n ∧ n ≤ p.high then
      let value := p.value * 64 + (n - 0x80)
      if p.needed ≤ 1 then ([Char.ofNat value], none)
      else ([], some ⟨p.needed - 1, value, 0x80, 0xBF⟩)
    else
      let (t, q) := start b
      (replacement :: t, q)

/-- Read bytes after those of `pending`. -/
def decodeFrom (pending : Option Pending) : List UInt8 → Text
  | [] => if pending.isSome then [replacement] else []
  | b :: bs =>
    let (t, q) := feed b pending
    t ++ decodeFrom q bs

/-- Read bytes as a text. -/
def decode (bytes : List UInt8) : Text := decodeFrom none bytes

@[simp] theorem decode_nil : decode [] = [] := rfl

/-- The text that bytes are the encoding of, if they are one. -/
def decode? (bytes : List UInt8) : Option Text :=
  if encode (decode bytes) = bytes then some (decode bytes) else none

end RecordFilter.Utf8
