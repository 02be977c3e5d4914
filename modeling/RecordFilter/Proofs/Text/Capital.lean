import Mathlib.Data.List.Basic
import RecordFilter.Text.Capital

/-! # Runs of code points

A code point is looked up in runs up to the first that begins behind it. Where the runs are in
ascending order nothing is missed by that: a code point is found if and only if it lies in one of
the runs (`inRuns_iff`). So the capitals in circles and squares, whose runs are among those of
capitals, are capitals (`isCapital_of_isEnclosedCapital`). -/

namespace RecordFilter

/-- A code point lies in a run. -/
def LiesIn (n : Nat) (run : Nat × Nat × Nat) : Prop :=
  run.1 ≤ n ∧ n ≤ run.2.1 ∧ (n - run.1) % run.2.2 = 0

/-- The runs are in ascending order. -/
def Ascending (runs : List (Nat × Nat × Nat)) : Prop :=
  runs.Pairwise fun run other => run.1 < other.1

variable {n : Nat} {runs : List (Nat × Nat × Nat)}

/-- A code point that is not before a run is looked up in it, and else behind it. -/
theorem inRuns_cons_of_le {run : Nat × Nat × Nat} (h : run.1 ≤ n) :
    inRuns n (run :: runs) = true ↔ LiesIn n run ∨ inRuns n runs = true := by
  rw [inRuns, if_neg (Nat.not_lt.2 h), Bool.or_eq_true, Bool.and_eq_true, decide_eq_true_eq,
    beq_iff_eq, LiesIn, and_iff_right h]

/-- A code point before the first of ascending runs lies in none of them. -/
theorem not_liesIn_of_lt {run other : Nat × Nat × Nat} (h : n < run.1)
    (hascending : Ascending (run :: runs)) (hother : other ∈ run :: runs) : ¬ LiesIn n other := by
  rintro ⟨hlow, -, -⟩
  have hbehind : run.1 ≤ other.1 := by
    rcases List.mem_cons.1 hother with rfl | hmem
    · exact Nat.le_refl _
    · exact Nat.le_of_lt ((List.pairwise_cons.1 hascending).1 other hmem)
  omega

/-- **A code point is found in ascending runs if it lies in one of them**, and only then. -/
theorem inRuns_iff (h : Ascending runs) : inRuns n runs = true ↔ ∃ run ∈ runs, LiesIn n run := by
  induction runs with
  | nil => simp [inRuns]
  | cons run runs ih =>
    by_cases hlow : run.1 ≤ n
    · rw [inRuns_cons_of_le hlow, ih (List.pairwise_cons.1 h).2]
      simp only [List.mem_cons, exists_eq_or_imp]
    · rw [inRuns, if_pos (Nat.not_le.1 hlow)]
      constructor
      · intro hfalse
        cases hfalse
      · rintro ⟨other, hother, hlies⟩
        exact absurd hlies (not_liesIn_of_lt (Nat.not_le.1 hlow) h hother)

/-! ## The runs of capitals -/

/-- Runs are in ascending order if each begins before the next. -/
theorem ascending_of_isChain (h : (runs.map fun run => run.1).IsChain (· < ·)) : Ascending runs :=
  List.pairwise_map.1 (List.isChain_iff_pairwise.1 h)

theorem ascending_capitalRuns : Ascending capitalRuns :=
  ascending_of_isChain (by decide +kernel)

theorem ascending_enclosedCapitalRuns : Ascending enclosedCapitalRuns :=
  ascending_of_isChain (by decide +kernel)

/-- **A capital in a circle or a square is a capital.** -/
theorem isCapital_of_isEnclosedCapital {c : Char} (h : isEnclosedCapital c = true) :
    isCapital c = true := by
  have hsubset : ∀ run ∈ enclosedCapitalRuns, run ∈ capitalRuns := by decide +kernel
  obtain ⟨run, hrun, hlies⟩ := (inRuns_iff ascending_enclosedCapitalRuns).1 h
  exact (inRuns_iff ascending_capitalRuns).2 ⟨run, hsubset run hrun, hlies⟩

end RecordFilter
