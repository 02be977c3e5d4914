import RecordFilter.Number.Decimal
import RecordFilter.Value

/-! # JSON numerals

An integer is kept exactly if it has a form of 64 bits. Any other numeral becomes a binary64 number,
in two roundings: its significand, of as many digits as fit into 64 bits, is rounded, and then
multiplied or divided by a power of ten that is itself rounded. A numeral beyond the greatest finite
number is refused. -/

namespace RecordFilter.Json

/-- The significand of a numeral and the power of ten it is scaled by. -/
structure Scaled where
  significand : Nat
  exponent : Int
  deriving DecidableEq, Repr

namespace Scaled

/-- Two to the 64th, which no significand reaches. -/
def limit : Nat := 0x10000000000000000

/-- Take digits before the point. From the first that does not fit into 64 bits on, digits count
only as places. -/
def takeWhole : Scaled → Text → Scaled
  | s, [] => s
  | s, c :: digits =>
    let m := s.significand * 10 + digitValue c
    if m < limit then takeWhole { s with significand := m } digits
    else { s with exponent := s.exponent + (digits.length + 1) }

/-- Take digits after the point, up to the first that does not fit into 64 bits. -/
def takeFraction : Scaled → Text → Scaled
  | s, [] => s
  | s, c :: digits =>
    let m := s.significand * 10 + digitValue c
    if m < limit then takeFraction ⟨m, s.exponent - 1⟩ digits else s

end Scaled

/-- The rounded power of ten, for exponents up to 308. -/
def powerOfTen (exponent : Nat) : Magnitude := .ofNat (tenTo exponent)

/-- Divide by a power of ten, in steps of at most `10 ^ 308`. -/
def divideByPower (m : Magnitude) (exponent : Nat) : Magnitude :=
  if exponent ≤ 308 then m.div (powerOfTen exponent)
  else if m = .zero then .zero
  else divideByPower (m.div (powerOfTen 308)) (exponent - 308)
termination_by exponent

/-- The magnitude of a scaled significand, unless it is beyond the greatest finite one. -/
def Scaled.magnitude? (s : Scaled) : Option Magnitude :=
  let m := Magnitude.ofNat s.significand
  if s.exponent < 0 then some (divideByPower m s.exponent.natAbs)
  else if 308 < s.exponent then if m = .zero then some .zero else none
  else
    let product := m.mul (powerOfTen s.exponent.toNat)
    if product.isFinite then some product else none

/-- The parts of a numeral: sign, digits before the point, digits after it, and exponent. -/
structure Numeral where
  negative : Bool
  whole : Text
  fraction? : Option Text
  exponent? : Option Int
  deriving DecidableEq, Repr

namespace Numeral

/-- The number a numeral denotes. An integer without point and exponent is kept as it is if it
fits; zero with a minus is a binary64 number. -/
def number? (n : Numeral) : Option Number :=
  let whole := digitsValue n.whole
  match n.fraction?, n.exponent? with
  | none, none =>
    if n.negative && whole == 0 then some (.float (.signed true .zero))
    else (Number.ofInt? (if n.negative then -whole else whole)).or scaled
  | _, _ => scaled
where
  /-- The number in binary64. -/
  scaled : Option Number := do
    let s := (Scaled.takeWhole ⟨0, 0⟩ n.whole).takeFraction (n.fraction?.getD [])
    let s := { s with exponent := s.exponent + n.exponent?.getD 0 }
    return .float (.signed n.negative (← s.magnitude?))

/-- Read the digits before the point: a single zero, or digits that do not start with one. -/
def spanWhole? : Text → Option (Text × Text)
  | '0' :: t => some (['0'], t)
  | t =>
    let (digits, rest) := spanDigits t
    if digits.isEmpty then none else some (digits, rest)

/-- Read a fraction, if there is one: a point and at least one digit. -/
def spanFraction? : Text → Option (Option Text × Text)
  | '.' :: t =>
    let (digits, rest) := spanDigits t
    if digits.isEmpty then none else some (some digits, rest)
  | t => some (none, t)

/-- Read an exponent, if there is one: the letter `e` in either case, a sign that may be missing,
and at least one digit. -/
def spanExponent? : Text → Option (Option Int × Text)
  | c :: t =>
    if c = 'e' ∨ c = 'E' then
      let (negative, t) := spanSign t
      let (digits, rest) := spanDigits t
      if digits.isEmpty then none
      else some (some (if negative then -digitsValue digits else digitsValue digits), rest)
    else some (none, c :: t)
  | [] => some (none, [])

/-- Read the sign of a numeral, true if there is a minus. -/
def spanMinus : Text → Bool × Text
  | '-' :: t => (true, t)
  | t => (false, t)

/-- Read a numeral off the start of a text. -/
def span? (t : Text) : Option (Numeral × Text) := do
  let (negative, t) := spanMinus t
  let (whole, t) ← spanWhole? t
  let (fraction?, t) ← spanFraction? t
  let (exponent?, t) ← spanExponent? t
  return (⟨negative, whole, fraction?, exponent?⟩, t)

/-- The digits and what follows them are as long as the text. -/
theorem length_spanDigits {t digits rest : Text} (h : spanDigits t = (digits, rest)) :
    digits.length + rest.length = t.length := by
  obtain ⟨rfl, rfl⟩ : t.takeWhile Char.isDigit = digits ∧ t.dropWhile Char.isDigit = rest := by
    simpa [spanDigits] using h
  rw [← List.length_append, List.takeWhile_append_dropWhile]

theorem length_le_of_spanSign {t rest : Text} {negative : Bool}
    (h : spanSign t = (negative, rest)) : rest.length ≤ t.length := by
  unfold spanSign at h
  split at h <;> simp at h <;> simp [← h.2]

theorem length_le_of_spanMinus {t rest : Text} {negative : Bool}
    (h : spanMinus t = (negative, rest)) : rest.length ≤ t.length := by
  unfold spanMinus at h
  split at h <;> simp at h <;> simp [← h.2]

theorem length_lt_of_spanWhole? {t digits rest : Text} (h : spanWhole? t = some (digits, rest)) :
    rest.length < t.length := by
  unfold spanWhole? at h
  split at h
  next => simp at h; simp [← h.2]
  next =>
    split at h
    next hd =>
      simp only [List.isEmpty_iff, Option.ite_none_left_eq_some, Option.some.injEq,
        Prod.mk.injEq] at h
      obtain ⟨hne, rfl, rfl⟩ := h
      have := length_spanDigits hd
      have := List.length_pos_iff.2 hne
      omega

theorem length_le_of_spanFraction? {t rest : Text} {digits? : Option Text}
    (h : spanFraction? t = some (digits?, rest)) : rest.length ≤ t.length := by
  unfold spanFraction? at h
  split at h
  next =>
    split at h
    next hd =>
      simp only [List.isEmpty_iff, Option.ite_none_left_eq_some, Option.some.injEq,
        Prod.mk.injEq] at h
      obtain ⟨-, -, rfl⟩ := h
      have := length_spanDigits hd
      simp only [List.length_cons]
      omega
  next => simp at h; simp [← h.2]

theorem length_le_of_spanExponent? {t rest : Text} {exponent? : Option Int}
    (h : spanExponent? t = some (exponent?, rest)) : rest.length ≤ t.length := by
  unfold spanExponent? at h
  split at h
  next =>
    split at h
    next =>
      split at h
      next hs =>
        split at h
        next hd =>
          simp only [List.isEmpty_iff, Option.ite_none_left_eq_some, Option.some.injEq,
            Prod.mk.injEq] at h
          obtain ⟨-, -, rfl⟩ := h
          have := length_le_of_spanSign hs
          have := length_spanDigits hd
          simp only [List.length_cons]
          omega
    next => simp at h; simp [← h.2]
  next => simp at h; simp [h.2]

/-- A numeral takes at least one character. -/
theorem length_lt_of_span? {t rest : Text} {n : Numeral} (h : span? t = some (n, rest)) :
    rest.length < t.length := by
  cases hm : spanMinus t with
  | mk negative body =>
    simp only [span?, hm, Option.bind_eq_bind, Option.bind_eq_some_iff, Option.pure_def,
      Option.some.injEq, Prod.mk.injEq, Prod.exists] at h
    obtain ⟨_, _, hw, _, _, hf, _, _, he, -, rfl⟩ := h
    have := length_le_of_spanMinus hm
    have := length_lt_of_spanWhole? hw
    have := length_le_of_spanFraction? hf
    have := length_le_of_spanExponent? he
    omega

end Numeral

end RecordFilter.Json
