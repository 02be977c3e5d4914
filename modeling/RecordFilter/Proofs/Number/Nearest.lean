import Mathlib.Algebra.Order.Field.Power
import Mathlib.Order.Monotone.Basic
import Mathlib.Tactic.Linarith
import Mathlib.Tactic.Positivity
import Mathlib.Tactic.Ring
import RecordFilter.Proofs.Number.Rational

/-! # Rounding to the nearest magnitude

The values of the codes of magnitudes grow with them, by one unit at a time, and the unit doubles
from range to range (`codeValue`). Infinity stands for the power of two that would come next after
the finite values. What a number is rounded to is told by `IsNearest`: no magnitude is nearer, and a
tie goes to the even code. There is just one such magnitude, and a greater number has one that is as
great or greater (`IsNearest.code_le`). The rounding of a quotient, by integer arithmetic alone,
finds it (`isNearest_round`). -/

namespace RecordFilter

namespace Magnitude

/-! ## Values of codes -/

/-- The value that belongs to a code. With each range of codes the value of a unit doubles, and
there is no last one. -/
def codeValue (code : Nat) : ℚ :=
  if code < hiddenBit then code * 2 ^ (-1074 : Int)
  else (code % hiddenBit + hiddenBit : Nat) * 2 ^ ((code / hiddenBit : Nat) - 1075 : Int)

theorem toRat_eq_codeValue (m : Magnitude) : m.toRat = codeValue m.code := by
  rw [toRat, significand, exponent, codeValue]
  split <;> rfl

/-- A code is so many units in a range, of which all ranges but the first have `hiddenBit` from the
start. -/
theorem exists_units (code : Nat) : ∃ range units, code = units + range * hiddenBit ∧
    units < 2 * hiddenBit ∧ (range = 0 ∨ hiddenBit ≤ units) := by
  have hbit : hiddenBit = 0x10000000000000 := rfl
  rw [hbit]
  rcases lt_or_ge code 0x10000000000000 with h | h
  · exact ⟨0, code, by omega, by omega, .inl rfl⟩
  · exact ⟨code / 0x10000000000000 - 1, code % 0x10000000000000 + 0x10000000000000,
      by omega, by omega, .inr (by omega)⟩

/-- **The value of a code** is that of its units. The end of a range may be taken for the start of
the next. -/
theorem codeValue_units {range units : Nat} (hle : units ≤ 2 * hiddenBit)
    (hge : range = 0 ∨ hiddenBit ≤ units) :
    codeValue (units + range * hiddenBit) = units * 2 ^ (range - 1074 : Int) := by
  have hbit : hiddenBit = 0x10000000000000 := rfl
  rcases lt_or_ge units hiddenBit with hsmall | hlarge
  · obtain rfl : range = 0 := hge.resolve_right (not_le.2 hsmall)
    rw [Nat.zero_mul, Nat.add_zero, codeValue, if_pos hsmall]
    simp
  rw [codeValue, if_neg (by omega), Nat.add_mul_mod_self_right,
    Nat.add_mul_div_right _ _ (hbit ▸ by decide)]
  rcases hle.lt_or_eq with hlt | rfl
  · have hfield : units / hiddenBit = 1 ∧ units % hiddenBit + hiddenBit = units := by
      rw [hbit] at *
      omega
    rw [hfield.1, hfield.2]
    congr 2
    push_cast
    ring
  · have hfield : 2 * hiddenBit / hiddenBit = 2 ∧ 2 * hiddenBit % hiddenBit = 0 := ⟨rfl, rfl⟩
    have hexponent : ((2 + range : Nat) - 1075 : Int) = range - 1074 + 1 := by
      push_cast
      ring
    rw [hfield.1, hfield.2, hexponent, zpow_add_one₀ two_ne_zero]
    push_cast
    ring

/-- The next code is one more unit in the same range, if only the end of it. -/
theorem codeValue_units_succ {range units : Nat} (hlt : units < 2 * hiddenBit)
    (hge : range = 0 ∨ hiddenBit ≤ units) :
    codeValue (units + range * hiddenBit + 1) = (units + 1) * 2 ^ (range - 1074 : Int) := by
  rw [Nat.add_right_comm, codeValue_units (Nat.succ_le_of_lt hlt) (hge.imp_right Nat.le_succ_of_le),
    Nat.cast_add_one]

/-- **Codes and values have the same order.** -/
theorem codeValue_strictMono : StrictMono codeValue := by
  refine strictMono_nat_of_lt_succ fun code => ?_
  obtain ⟨range, units, rfl, hlt, hge⟩ := exists_units code
  -- One code more is one unit more, whichever range the code is in.
  rw [codeValue_units hlt.le hge, codeValue_units_succ hlt hge]
  have hunit : (0 : ℚ) < 2 ^ (range - 1074 : Int) := by positivity
  exact mul_lt_mul_of_pos_right (lt_add_one _) hunit

@[simp] theorem toRat_zero : zero.toRat = 0 := by
  simp [toRat, significand, zero, hiddenBit]

theorem toRat_lt_iff {m m' : Magnitude} : m.toRat < m'.toRat ↔ m.code < m'.code := by
  rw [toRat_eq_codeValue, toRat_eq_codeValue, codeValue_strictMono.lt_iff_lt]

/-- Magnitudes with the same code are the same. -/
theorem code_injective : Function.Injective code := by
  rintro ⟨code, _⟩ ⟨code', _⟩ rfl
  rfl

theorem toRat_injective : Function.Injective toRat := by
  intro m m' h
  rw [toRat_eq_codeValue, toRat_eq_codeValue] at h
  exact code_injective (codeValue_strictMono.injective h)

/-! ## Nearest magnitudes -/

/-- The greater of two numbers is the nearer one from their middle on. -/
theorem abs_sub_le_abs_sub_iff {a b x : ℚ} (h : a < b) :
    (|b - x| ≤ |a - x| ↔ a + b ≤ 2 * x) ∧ (|a - x| ≤ |b - x| ↔ 2 * x ≤ a + b) := by
  rw [← sq_le_sq, ← sq_le_sq]
  refine ⟨⟨fun hle => ?_, fun hle => ?_⟩, ⟨fun hle => ?_, fun hle => ?_⟩⟩ <;> nlinarith

/-- A magnitude is what a number is rounded to if none is nearer, and if its code is even where
another is as near. Infinity has the value that would come next after the finite ones. -/
structure IsNearest (x : ℚ) (m : Magnitude) : Prop where
  le : ∀ m' : Magnitude, |m.toRat - x| ≤ |m'.toRat - x|
  even : ∀ m' : Magnitude, m' ≠ m → |m'.toRat - x| = |m.toRat - x| → m.code % 2 = 0

/-- A value is rounded to itself. -/
theorem isNearest_toRat (m : Magnitude) : IsNearest m.toRat m := by
  refine ⟨fun m' => ?_, fun m' hne heq => ?_⟩
  · rw [sub_self, abs_zero]
    exact abs_nonneg _
  · rw [sub_self, abs_zero, abs_eq_zero, sub_eq_zero] at heq
    exact absurd (toRat_injective heq) hne

/-- **Rounding keeps the order.** -/
theorem IsNearest.code_le {x y : ℚ} {m m' : Magnitude} (hm : IsNearest x m) (hm' : IsNearest y m')
    (h : x ≤ y) : m.code ≤ m'.code := by
  by_contra hcode
  rw [not_le] at hcode
  have hvalue : m'.toRat < m.toRat := toRat_lt_iff.2 hcode
  -- The smaller number is not below the middle of the two magnitudes, and the greater not above.
  have hx : m'.toRat + m.toRat ≤ 2 * x := (abs_sub_le_abs_sub_iff hvalue).1.1 (hm.le m')
  have hy : 2 * y ≤ m'.toRat + m.toRat := (abs_sub_le_abs_sub_iff hvalue).2.1 (hm'.le m)
  obtain rfl : x = y := by linarith
  have htie : |m'.toRat - x| = |m.toRat - x| := le_antisymm (hm'.le m) (hm.le m')
  have heven := hm.even m' (fun heq => by simp [heq] at hcode) htie
  have heven' := hm'.even m (fun heq => by simp [heq] at hcode) htie.symm
  -- Both codes are even, so there is another between them, and its value is nearer.
  have hbetween : m'.code + 1 < m.code := by omega
  let middle : Magnitude := ⟨m'.code + 1, hbetween.le.trans m.code_le⟩
  have hlower : m'.toRat < middle.toRat := toRat_lt_iff.2 (Nat.lt_succ_self _)
  have hupper : middle.toRat < m.toRat := toRat_lt_iff.2 hbetween
  have hfar := (abs_sub_le_abs_sub_iff hupper).1.1 (hm.le middle)
  linarith

/-- **There is one magnitude to which a number is rounded.** -/
theorem IsNearest.unique {x : ℚ} {m m' : Magnitude} (hm : IsNearest x m) (hm' : IsNearest x m') :
    m = m' :=
  code_injective (le_antisymm (hm.code_le hm' le_rfl) (hm'.code_le hm le_rfl))

section Neighbours

variable {x : ℚ} {lower upper : Magnitude} (hsucc : upper.code = lower.code + 1)
  (hlower : lower.toRat ≤ x) (hupper : x ≤ upper.toRat)
include hsucc hlower hupper

/-- Every magnitude but two neighbours is farther from what is between them than one of them. -/
theorem eq_or_abs_lt (m : Magnitude) : m = lower ∨ m = upper ∨
    |lower.toRat - x| < |m.toRat - x| ∨ |upper.toRat - x| < |m.toRat - x| := by
  rcases lt_trichotomy m.code lower.code with h | h | h
  · have hvalue : m.toRat < lower.toRat := toRat_lt_iff.2 h
    refine .inr (.inr (.inl (lt_of_not_ge fun hle => ?_)))
    have hmiddle := (abs_sub_le_abs_sub_iff hvalue).2.1 hle
    linarith
  · exact .inl (code_injective h)
  · rcases Nat.lt_or_ge upper.code m.code with h' | h'
    · have hvalue : upper.toRat < m.toRat := toRat_lt_iff.2 h'
      refine .inr (.inr (.inr (lt_of_not_ge fun hle => ?_)))
      have hmiddle := (abs_sub_le_abs_sub_iff hvalue).1.1 hle
      linarith
    · exact .inr (.inl (code_injective (by omega)))

/-- **Between two neighbours** a number is rounded to the nearer one, and if both are as near, to
the even one. -/
theorem isNearest_of_neighbours {m : Magnitude} (hm : m = lower ∨ m = upper)
    (hle : |m.toRat - x| ≤ |lower.toRat - x|) (hle' : |m.toRat - x| ≤ |upper.toRat - x|)
    (heven : |lower.toRat - x| = |upper.toRat - x| → m.code % 2 = 0) : IsNearest x m := by
  refine ⟨fun m' => ?_, fun m' hne heq => ?_⟩
  · rcases eq_or_abs_lt hsucc hlower hupper m' with rfl | rfl | h | h
    · exact hle
    · exact hle'
    · exact hle.trans h.le
    · exact hle'.trans h.le
  · rcases eq_or_abs_lt hsucc hlower hupper m' with rfl | rfl | h | h
    · obtain rfl := hm.resolve_left (Ne.symm hne)
      exact heven heq
    · obtain rfl := hm.resolve_right (Ne.symm hne)
      exact heven heq.symm
    · exact absurd heq (hle.trans_lt h).ne'
    · exact absurd heq (hle'.trans_lt h).ne'

end Neighbours

/-- A number that is not below infinity is rounded to it. -/
theorem isNearest_infinity {x : ℚ} (h : infinity.toRat ≤ x) : IsNearest x infinity := by
  refine ⟨fun m => ?_, fun _ _ _ => rfl⟩
  rcases m.code_le.lt_or_eq with hlt | heq
  · have hvalue : m.toRat < infinity.toRat := toRat_lt_iff.2 hlt
    exact (abs_sub_le_abs_sub_iff hvalue).1.2 (by linarith)
  · rw [toRat_eq_codeValue m, heq]
    exact (toRat_eq_codeValue infinity ▸ le_rfl)

end Magnitude

/-! ## Rounding to an integer -/

/-- What lies between an integer and the next one is rounded to one of them by how far it is beyond
the middle: up to the middle to the lower one, from there on to the upper one, and in the middle to
the even one. -/
inductive RoundsHalfEven (lower : Nat) (excess : ℚ) : Nat → Prop where
  | down (h : excess ≤ 0) (heven : excess = 0 → lower % 2 = 0) :
      RoundsHalfEven lower excess lower
  | up (h : 0 ≤ excess) (hodd : excess = 0 → lower % 2 = 1) :
      RoundsHalfEven lower excess (lower + 1)

/-- A quotient is rounded by its remainder. -/
theorem roundsHalfEven_roundHalfEven (a b : Nat) :
    RoundsHalfEven (a / b) (2 * (a % b : Nat) - b) (roundHalfEven a b) := by
  have hexcess : (2 * (a % b : Nat) - b : ℚ) = ((2 * (a % b) : Nat) : ℚ) - (b : Nat) := by
    push_cast
    rfl
  simp only [roundHalfEven, hexcess]
  split
  next h =>
    refine .down (sub_nonpos.2 (Nat.cast_le.2 h.le)) fun heq => ?_
    exact absurd (Nat.cast_injective (sub_eq_zero.1 heq)) h.ne
  split
  next h =>
    refine .up (sub_nonneg.2 (Nat.cast_le.2 h.le)) fun heq => ?_
    exact absurd (Nat.cast_injective (sub_eq_zero.1 heq)) h.ne'
  next h h' =>
    have htie : 2 * (a % b) = b := by omega
    rw [htie, sub_self]
    rcases Nat.mod_two_eq_zero_or_one (a / b) with hq | hq
    · rw [hq]
      exact .down le_rfl fun _ => hq
    · rw [hq]
      exact .up le_rfl fun _ => hq

/-- An even number of integers more and another scale make no difference. -/
theorem RoundsHalfEven.shift {lower rounded shift : Nat} {excess scale : ℚ}
    (h : RoundsHalfEven lower excess rounded) (hshift : shift % 2 = 0) (hscale : 0 < scale) :
    RoundsHalfEven (lower + shift) (excess * scale) (rounded + shift) := by
  have hzero : excess * scale = 0 → excess = 0 := fun heq =>
    (mul_eq_zero.1 heq).resolve_right hscale.ne'
  cases h with
  | down h heven =>
    refine .down (mul_nonpos_of_nonpos_of_nonneg h hscale.le) fun heq => ?_
    have hlower := heven (hzero heq)
    omega
  | up h hodd =>
    rw [Nat.add_right_comm]
    refine .up (mul_nonneg h hscale.le) fun heq => ?_
    have hlower := hodd (hzero heq)
    omega

/-! ## Powers of two at a number -/

/-- The bounds that the binary logarithm of a natural number gives. -/
theorem log2_bounds {n : Nat} (hn : n ≠ 0) :
    (2 : ℚ) ^ (n.log2 : Int) ≤ n ∧ (n : ℚ) < 2 ^ (n.log2 + 1 : Int) := by
  have hlow := Nat.log2_self_le hn
  have hhigh := Nat.lt_log2_self (n := n)
  rw [← Nat.cast_add_one, zpow_natCast, zpow_natCast]
  exact_mod_cast And.intro hlow hhigh

/-- **The exponent of the greatest power of two that is not above a quotient.** -/
theorem binaryLog_bounds {n d : Nat} (hn : n ≠ 0) (hd : d ≠ 0) :
    (2 : ℚ) ^ binaryLog n d ≤ n / d ∧ (n / d : ℚ) < 2 ^ (binaryLog n d + 1) := by
  obtain ⟨hnlow, hnhigh⟩ := log2_bounds hn
  obtain ⟨hdlow, hdhigh⟩ := log2_bounds hd
  have hdpos : (0 : ℚ) < d := by exact_mod_cast Nat.pos_of_ne_zero hd
  -- The guess is right or one too great, and the comparison of products tells which.
  simp only [binaryLog]
  generalize hguess : (n.log2 : Int) - d.log2 = guess
  have hlow : (2 : ℚ) ^ (guess - 1) < n / d := by
    rw [lt_div_iff₀ hdpos]
    calc (2 : ℚ) ^ (guess - 1) * d < 2 ^ (guess - 1) * 2 ^ (d.log2 + 1 : Int) := by gcongr
      _ = 2 ^ (n.log2 : Int) := by rw [← zpow_add₀ two_ne_zero]; congr 1; omega
      _ ≤ n := hnlow
  have hhigh : (n / d : ℚ) < 2 ^ (guess + 1) := by
    rw [div_lt_iff₀ hdpos]
    calc (n : ℚ) < 2 ^ (n.log2 + 1 : Int) := hnhigh
      _ = 2 ^ (guess + 1) * 2 ^ (d.log2 : Int) := by
        rw [← zpow_add₀ two_ne_zero]; congr 1; omega
      _ ≤ 2 ^ (guess + 1) * d := by gcongr
  have hguessed : d * twoTo guess.toNat ≤ n * twoTo (-guess).toNat ↔ (2 : ℚ) ^ guess ≤ n / d := by
    have hpos : (0 : ℚ) < twoTo (-guess).toNat := by exact_mod_cast twoTo_pos _
    rw [two_zpow_eq_div, div_le_div_iff₀ hpos hdpos, mul_comm (twoTo guess.toNat : ℚ)]
    exact_mod_cast Iff.rfl
  split
  next h => exact ⟨hguessed.1 h, hhigh⟩
  next h => exact ⟨hlow.le, by rw [sub_add_cancel]; exact not_le.1 (mt hguessed.2 h)⟩

namespace Magnitude

/-! ## Rounding a quotient -/

/-- **A number is rounded to one of the codes whose values it lies between**, or to infinity if the
codes are beyond that. -/
theorem isNearest_ofCode {code rounded : Nat} {x : ℚ} (hlower : codeValue code ≤ x)
    (hupper : x ≤ codeValue (code + 1))
    (h : RoundsHalfEven code (2 * x - (codeValue code + codeValue (code + 1))) rounded) :
    IsNearest x (ofCode rounded) := by
  rcases lt_or_ge code infinityCode with hfinite | hinfinite
  · let lower : Magnitude := ⟨code, hfinite.le⟩
    let upper : Magnitude := ⟨code + 1, hfinite⟩
    have hlt : lower.toRat < upper.toRat := toRat_lt_iff.2 (Nat.lt_succ_self code)
    obtain ⟨hnear, hfar⟩ := abs_sub_le_abs_sub_iff hlt (x := x)
    rw [← toRat_eq_codeValue lower] at hlower h
    rw [← toRat_eq_codeValue upper] at hupper h
    have htie : |lower.toRat - x| = |upper.toRat - x| →
        2 * x - (lower.toRat + upper.toRat) = 0 := fun heq =>
      sub_eq_zero.2 (le_antisymm (hfar.1 heq.le) (hnear.1 heq.ge))
    cases h with
    | down h heven =>
      rw [show ofCode code = lower by simp [ofCode, lower, hfinite.le]]
      exact isNearest_of_neighbours rfl hlower hupper (.inl rfl) le_rfl
        (hfar.2 (sub_nonpos.1 h)) fun heq => heven (htie heq)
    | up h hodd =>
      rw [show ofCode (code + 1) = upper by simp [ofCode, upper, Nat.succ_le_of_lt hfinite]]
      refine isNearest_of_neighbours rfl hlower hupper (.inr rfl)
        (hnear.2 (sub_nonneg.1 h)) le_rfl fun heq => ?_
      have hcode := hodd (htie heq)
      show (code + 1) % 2 = 0
      omega
  · -- The lower of the two values is not below that of infinity, nor is the number.
    have hrounded : infinityCode ≤ rounded := by
      cases h <;> omega
    rw [show ofCode rounded = infinity by simp [ofCode, infinity, hrounded]]
    apply isNearest_infinity
    rw [toRat_eq_codeValue]
    exact (codeValue_strictMono.monotone hinfinite).trans hlower

/-- **Parts of a unit are rounded to the nearest number of units**, if `b` of them make up a unit of
the range. -/
theorem isNearest_units {a b range : Nat} {part : ℚ} (hb : 0 < b)
    (hpart : b * part = 2 ^ (range - 1074 : Int)) (hlt : a / b < 2 * hiddenBit)
    (hge : range = 0 ∨ hiddenBit ≤ a / b) :
    IsNearest (a * part) (ofCode (roundHalfEven a b + range * hiddenBit)) := by
  have hpos : 0 < part := by
    have hunit : 0 < b * part := hpart ▸ by positivity
    exact (pos_iff_pos_of_mul_pos hunit).1 (Nat.cast_pos.2 hb)
  have hvalue := codeValue_units hlt.le hge
  have hnext := codeValue_units_succ hlt hge
  rw [← hpart] at hvalue hnext
  have hmod : (a : ℚ) = b * (a / b : Nat) + (a % b : Nat) := by
    exact_mod_cast (Nat.div_add_mod a b).symm
  have hrem : (0 : ℚ) ≤ (a % b : Nat) ∧ ((a % b : Nat) : ℚ) ≤ b :=
    ⟨Nat.cast_nonneg _, Nat.cast_le.2 (Nat.mod_lt a hb).le⟩
  apply isNearest_ofCode
  · rw [hvalue, hmod]
    nlinarith
  · rw [hnext, hmod]
    nlinarith
  · -- How far the number is beyond the middle is told by the remainder.
    have hexcess : 2 * (a * part) - (codeValue (a / b + range * hiddenBit) +
        codeValue (a / b + range * hiddenBit + 1)) = (2 * (a % b : Nat) - b) * part := by
      rw [hvalue, hnext, hmod]
      ring
    rw [hexcess]
    apply (roundsHalfEven_roundHalfEven a b).shift _ hpos
    simp only [hiddenBit]
    omega

/-- A quotient has units enough for its range, and not more than there are. -/
theorem units_bounds {n d range up down : Nat} (hn : n ≠ 0) (hd : d ≠ 0)
    (hrange : max (binaryLog n d - 52) (-1074) = (range - 1074 : Int)) (hup : 0 < up)
    (hdown : 0 < down) (hunit : (2 : ℚ) ^ (range - 1074 : Int) = down / up) :
    n * up / (d * down) < 2 * hiddenBit ∧
      (range = 0 ∨ hiddenBit ≤ n * up / (d * down)) := by
  obtain ⟨hlow, hhigh⟩ := binaryLog_bounds hn hd
  have hdpos : (0 : ℚ) < d := Nat.cast_pos.2 (Nat.pos_of_ne_zero hd)
  have huppos : (0 : ℚ) < up := Nat.cast_pos.2 hup
  have hpos : 0 < d * down := Nat.mul_pos (Nat.pos_of_ne_zero hd) hdown
  constructor
  · -- The power of two above the quotient is at most the end of the range.
    have hend : (n / d : ℚ) < down / up * 2 ^ (53 : Int) := by
      rw [← hunit, ← zpow_add₀ two_ne_zero]
      exact hhigh.trans_le (zpow_le_zpow_right₀ one_le_two (by omega))
    rw [div_mul_eq_mul_div, div_lt_div_iff₀ hdpos huppos] at hend
    have hend' : n * up < down * 2 ^ 53 * d := by exact_mod_cast hend
    rw [Nat.div_lt_iff_lt_mul hpos]
    simp only [hiddenBit]
    linarith
  · rcases Nat.eq_zero_or_pos range with hzero | hnormal
    · exact .inl hzero
    · -- In all ranges but the first the power of two below it is the start.
      have hstart : (down / up * 2 ^ (52 : Int) : ℚ) ≤ n / d := by
        rw [← hunit, ← zpow_add₀ two_ne_zero]
        exact (zpow_le_zpow_right₀ one_le_two (by omega)).trans hlow
      rw [div_mul_eq_mul_div, div_le_div_iff₀ huppos hdpos] at hstart
      have hstart' : down * 2 ^ 52 * d ≤ n * up := by exact_mod_cast hstart
      right
      rw [Nat.le_div_iff_mul_le hpos]
      simp only [hiddenBit]
      linarith

/-- **Rounding is to the nearest magnitude, a tie going to the even one.** -/
theorem isNearest_round (n : Nat) {d : Nat} (hd : d ≠ 0) : IsNearest (n / d) (round n d) := by
  rcases eq_or_ne n 0 with rfl | hn
  · rw [round_zero, Nat.cast_zero, zero_div, ← toRat_zero]
    exact isNearest_toRat zero
  rw [round, if_neg hn]
  simp only
  generalize hexponent : max (binaryLog n d - 52) (-1074) = exponent
  obtain ⟨range, rfl⟩ : ∃ range : Nat, exponent = (range - 1074 : Int) :=
    ⟨(exponent + 1074).toNat, by omega⟩
  rw [Int.sub_add_cancel, Int.toNat_natCast]
  have hup := twoTo_pos (-(range - 1074 : Int)).toNat
  have hdown := twoTo_pos (range - 1074 : Int).toNat
  have hunit := two_zpow_eq_div (range - 1074)
  generalize twoTo (-(range - 1074 : Int)).toNat = up at *
  generalize twoTo (range - 1074 : Int).toNat = down at *
  obtain ⟨hlt, hge⟩ := units_bounds hn hd hexponent hup hdown hunit
  have hdne : (d : ℚ) ≠ 0 := Nat.cast_ne_zero.2 hd
  have hupne : (up : ℚ) ≠ 0 := Nat.cast_ne_zero.2 hup.ne'
  -- The quotient is `n * up` parts, of which `d * down` make up a unit.
  have hparts : (n / d : ℚ) = (n * up : Nat) * (1 / (d * up)) := by
    push_cast
    field_simp
  have hwhole : ((d * down : Nat) : ℚ) * (1 / (d * up)) = 2 ^ (range - 1074 : Int) := by
    rw [hunit]
    push_cast
    field_simp
  rw [hparts]
  exact isNearest_units (Nat.mul_pos (Nat.pos_of_ne_zero hd) hdown) hwhole hlt hge

end Magnitude

end RecordFilter
