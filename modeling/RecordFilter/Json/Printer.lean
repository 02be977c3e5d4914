import RecordFilter.Json.Basic
import RecordFilter.Number.Shortest

/-! # Writing JSON

Documents are written without white space. In strings only the quotation mark, the backslash and
the control characters below the space are escaped. A binary64 number has its shortest digits,
written positionally from `10 ^ (-5)` up to `10 ^ 16` and with an exponent elsewhere. -/

namespace RecordFilter

/-- Where numbers are written positionally: for decimal exponents of the leading digit from `low` up
to, but not including, `high`. -/
structure PositionalRange where
  low : Int
  high : Int

/-- The range of JSON numbers. -/
def Json.positional : PositionalRange := ⟨-5, 16⟩

/-- The digits of a natural number. -/
def natText (n : Nat) : Text := Nat.toDigits 10 n

/-- The digits of an integer, after a minus if it is negative. -/
def intText (n : Int) : Text := if n < 0 then '-' :: natText n.natAbs else natText n.natAbs

/-- Positional notation of digits whose first has the decimal exponent `leading`. There is always a
digit on both sides of the point. -/
def positionalText (digits : Text) (leading : Int) : Text :=
  if leading < 0 then '0' :: '.' :: (List.replicate (-leading - 1).toNat '0' ++ digits)
  else
    let places := leading.toNat + 1
    let whole := digits.take places ++ List.replicate (places - digits.length) '0'
    let fraction := digits.drop places
    whole ++ '.' :: if fraction.isEmpty then ['0'] else fraction

/-- Notation with an exponent, which is always signed. -/
def exponentText (digits : Text) (leading : Int) : Text :=
  digits.take 1 ++ (if digits.length = 1 then [] else '.' :: digits.drop 1) ++ 'e' ::
    if leading < 0 then intText leading else '+' :: intText leading

/-- A decimal number as text. -/
def Decimal.text (range : PositionalRange) (d : Decimal) : Text :=
  let digits := natText d.digits
  let leading := d.exponent + digits.length - 1
  if range.low ≤ leading ∧ leading < range.high then positionalText digits leading
  else exponentText digits leading

namespace Json

/-- A finite binary64 number as text; any other is written as null. -/
def floatText : Binary64 → Text
  | .signed negative m =>
    if m.isFinite then
      (if negative then ['-'] else []) ++
        if m = .zero then ['0', '.', '0'] else m.shortest.text positional
    else ['n', 'u', 'l', 'l']
  | .nan => ['n', 'u', 'l', 'l']

/-- A number as text. -/
def numberText : Number → Text
  | .signed n => intText n.toInt
  | .unsigned n => natText n.toNat
  | .float x => floatText x

/-- A character inside a string. -/
def escapeChar (c : Char) : Text :=
  match c with
  | '"' => ['\\', '"']
  | '\\' => ['\\', '\\']
  | '\x08' => ['\\', 'b']
  | '\x0c' => ['\\', 'f']
  | '\n' => ['\\', 'n']
  | '\r' => ['\\', 'r']
  | '\t' => ['\\', 't']
  | c =>
    if c.toNat < 0x20 then
      ['\\', 'u', '0', '0', Nat.digitChar (c.toNat / 16), Nat.digitChar (c.toNat % 16)]
    else [c]

/-- A string in quotation marks. -/
def stringText (s : Text) : Text := '"' :: (s.flatMap escapeChar ++ ['"'])

/-- Texts with a comma between any two. -/
def joinCommas : List Text → Text
  | [] => []
  | [t] => t
  | t :: ts => t ++ ',' :: joinCommas ts

mutual

/-- A document as text. -/
def render : Json → Text
  | null => ['n', 'u', 'l', 'l']
  | bool b => Value.boolText b
  | number n => numberText n
  | string s => stringText s
  | array items => '[' :: (joinCommas (renderItems items) ++ [']'])
  | object members => '\x7b' :: (joinCommas (renderMembers members) ++ ['\x7d'])

/-- The elements of an array as texts. -/
def renderItems : List Json → List Text
  | [] => []
  | item :: items => render item :: renderItems items

/-- The members of an object as texts. -/
def renderMembers : List (Text × Json) → List Text
  | [] => []
  | (name, value) :: members => (stringText name ++ ':' :: render value) :: renderMembers members

end

end Json

end RecordFilter
