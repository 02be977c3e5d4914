/-! # Integers of 64 bits

The bounds of the signed and unsigned integers that fit into 64 bits. -/

namespace RecordFilter

/-- Whether an integer is one of signed 64 bits. -/
def fitsSigned (n : Int) : Bool := -0x8000000000000000 ≤ n && n < 0x8000000000000000

/-- The bounds of the integers that fit. -/
theorem fitsSigned_iff {n : Int} :
    fitsSigned n = true ↔ -0x8000000000000000 ≤ n ∧ n < 0x8000000000000000 := by
  rw [fitsSigned, Bool.and_eq_true, decide_eq_true_eq, decide_eq_true_eq]

/-- What a word of 64 bits stands for fits. -/
theorem fitsSigned_toInt (n : Int64) : fitsSigned n.toInt = true :=
  fitsSigned_iff.2 ⟨n.le_toInt, n.toInt_lt⟩

/-- Whether an integer is one of unsigned 64 bits. -/
def fitsUnsigned (n : Int) : Bool := 0 ≤ n && n < 0x10000000000000000

end RecordFilter
