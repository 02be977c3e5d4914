import Mathlib.Data.List.Induction
import RecordFilter.Proofs.Query.Failure

/-! # Parentheses

Whether the parentheses of a query fit is settled by its escaped text alone. The invariant is the
depth of a reader, the number of groups it has open: it is what the text read so far opens less
what it closes (`run_depth`), whatever words stand for the groups that have been closed. From it
follows `evaluate_parentheses`, which says for each way an evaluation can end what it tells about
the parentheses of the query. -/

namespace RecordFilter

/-- No beginning of a text closes more parentheses than it opens. -/
def NeverOvercloses (t : Text) : Prop := ∀ u, u <+: t → u.count ')' ≤ u.count '('

/-- The parentheses of a text fit: each that closes has one that opens, and each that opens has one
that closes. -/
structure Balanced (t : Text) : Prop where
  neverOvercloses : NeverOvercloses t
  closed : t.count '(' = t.count ')'

/-- Beginnings are looked at one length after the other. -/
theorem neverOvercloses_iff {t : Text} :
    NeverOvercloses t ↔ ∀ n < t.length + 1, (t.take n).count ')' ≤ (t.take n).count '(' := by
  constructor
  · intro h n _
    exact h _ (List.take_prefix n t)
  · intro h u hu
    rw [List.prefix_iff_eq_take.1 hu]
    exact h u.length (Nat.lt_succ_of_le hu.length_le)

instance (t : Text) : Decidable (NeverOvercloses t) := decidable_of_iff _ neverOvercloses_iff.symm

instance (t : Text) : Decidable (Balanced t) :=
  decidable_of_iff (NeverOvercloses t ∧ t.count '(' = t.count ')')
    ⟨fun h => ⟨h.1, h.2⟩, fun h => ⟨h.1, h.2⟩⟩

/-! ## The first parenthesis without a partner -/

/-- A text overcloses only with its last character if it does not without it. -/
theorem NeverOvercloses.concat {t : Text} {c : Char} (h : NeverOvercloses t)
    (hc : (t ++ [c]).count ')' ≤ (t ++ [c]).count '(') : NeverOvercloses (t ++ [c]) := by
  intro u hu
  rcases List.prefix_concat_iff.1 hu with rfl | hu
  · exact hc
  · exact h u hu

/-- **A text that overcloses does so with a first parenthesis**: those before it fit. -/
theorem exists_balanced_of_overcloses {t : Text} (h : ¬NeverOvercloses t) :
    ∃ g rest, t = g ++ ')' :: rest ∧ Balanced g := by
  induction t using List.reverseRecOn with
  | nil =>
    refine absurd (fun u hu => ?_) h
    rw [List.prefix_nil.1 hu]
    exact Nat.le_refl 0
  | append_singleton t c ih =>
    by_cases ht : NeverOvercloses t
    · -- The last character overcloses, so it is a closing parenthesis and what is before it fits.
      have hle := ht t (List.prefix_refl t)
      have hlt : ¬(t ++ [c]).count ')' ≤ (t ++ [c]).count '(' := fun hc => h (ht.concat hc)
      rw [List.count_append, List.count_append] at hlt
      by_cases hc : c = ')'
      · subst hc
        rw [show [')'].count ')' = 1 from rfl, show [')'].count '(' = 0 from rfl] at hlt
        exact ⟨t, [], rfl, ht, by omega⟩
      · rw [show [c].count ')' = 0 by simp [hc]] at hlt
        omega
    · obtain ⟨g, rest, rfl, hg⟩ := ih ht
      exact ⟨g, rest ++ [c], by simp, hg⟩

namespace Query

variable {s : Settings} {r : Record}

namespace Reader

/-- One character opens a group, closes one, or does neither. -/
theorem step_depth {reader next : Reader} {c : Char} (h : step s r reader c = .ok next) :
    next.outer.length + [c].count ')' = reader.outer.length + [c].count '(' := by
  obtain ⟨outer, current⟩ := reader
  by_cases ho : c = '('
  · subst ho
    rw [step_open] at h
    obtain rfl := Except.ok.inj h
    rfl
  by_cases hc : c = ')'
  · subst hc
    cases outer with
    | nil => simp at h
    | cons text outer =>
      obtain ⟨outcome, -, hnext⟩ := bind_eq_ok_iff.1 h
      obtain rfl := Except.ok.inj hnext
      rfl
  · rw [step_keep ho hc] at h
    obtain rfl := Except.ok.inj h
    simp [ho, hc]

/-- **The depth of a reader** is what the text opens less what it closes. -/
theorem run_depth {reader last : Reader} {t : Text} (h : run s r reader t = .ok last) :
    last.outer.length + t.count ')' = reader.outer.length + t.count '(' := by
  induction t generalizing reader with
  | nil =>
    rw [run_nil] at h
    obtain rfl := Except.ok.inj h
    rfl
  | cons c t ih =>
    rw [run_cons] at h
    obtain ⟨next, hnext, hlast⟩ := bind_eq_ok_iff.1 h
    have hc := step_depth hnext
    have ht := ih hlast
    rw [← List.singleton_append, List.count_append, List.count_append]
    omega

/-- The depth is never negative. -/
theorem neverOvercloses_of_run {last : Reader} {t : Text} (h : run s r start t = .ok last) :
    NeverOvercloses t := by
  rintro u ⟨v, rfl⟩
  obtain ⟨here, hu, -⟩ := run_eq_ok_of_append h
  have hdepth := run_depth hu
  simp only [start, List.length_nil] at hdepth
  omega

/-- A reader that meets an extra closing parenthesis has met more closing ones than opening ones. -/
theorem overcloses_of_run {t : Text} {position : Nat}
    (h : run s r start t = .error (.extraClosingParenthesis position)) :
    ∃ u, u <+: t ∧ u.count '(' < u.count ')' := by
  obtain ⟨before, c, after, here, rfl, hbefore, hstep⟩ := run_eq_error_iff.1 h
  obtain ⟨rfl, ⟨houter, -⟩ | ⟨-, hcombine⟩⟩ := step_eq_error_iff.1 hstep
  · -- The text before the failing parenthesis fits, so that one is the first too many.
    refine ⟨before ++ [')'], ⟨after, by simp⟩, ?_⟩
    have hdepth := run_depth hbefore
    simp only [start, houter, List.length_nil, Nat.zero_add] at hdepth
    simp [hdepth]
  · exact absurd hcombine (combine_ne_error rfl (by decide) _)

theorem run_ne_unclosed (reader : Reader) (t : Text) :
    run s r reader t ≠ .error .unclosedParenthesis := by
  intro h
  obtain ⟨before, c, after, here, -, -, hstep⟩ := run_eq_error_iff.1 h
  obtain ⟨-, ⟨-, he⟩ | ⟨-, hcombine⟩⟩ := step_eq_error_iff.1 hstep
  · cases he
  · exact combine_ne_error rfl (by decide) _ hcombine

/-- The end of an expression is an error if a group is open, and else what the expression is. -/
theorem finish_cases (reader : Reader) :
    reader.outer = [] ∧ finish s r reader = combine s r reader.current ∨
      reader.outer ≠ [] ∧ finish s r reader = .error .unclosedParenthesis := by
  obtain ⟨outer, current⟩ := reader
  cases outer with
  | nil => exact .inl ⟨rfl, rfl⟩
  | cons text outer => exact .inr ⟨List.cons_ne_nil _ _, rfl⟩

end Reader

/-! ## Evaluations -/

open Reader

/-- The parentheses of a query that has an outcome fit. -/
theorem balanced_of_evaluate {query : Text} {b : Bool} (h : evaluate s query r = .ok b) :
    Balanced (escape query) := by
  rw [evaluate_eq_run] at h
  obtain ⟨last, hrun, h⟩ := bind_eq_ok_iff.1 h
  rcases finish_cases (s := s) (r := r) last with ⟨houter, -⟩ | ⟨-, hf⟩
  · have hdepth := run_depth hrun
    simp only [start, houter, List.length_nil] at hdepth
    exact ⟨neverOvercloses_of_run hrun, by omega⟩
  · cases hf.symm.trans h

/-- If a closing parenthesis is one too many, some beginning of the query overcloses. -/
theorem overcloses_of_evaluate {query : Text} {position : Nat}
    (h : evaluate s query r = .error (.extraClosingParenthesis position)) :
    ∃ u, u <+: escape query ∧ u.count '(' < u.count ')' := by
  rw [evaluate_eq_run] at h
  rcases bind_eq_error_iff.1 h with h | ⟨last, -, h⟩
  · exact overcloses_of_run h
  · rcases finish_cases (s := s) (r := r) last with ⟨-, hf⟩ | ⟨-, hf⟩
    · exact absurd (hf.symm.trans h) (combine_ne_error rfl (by decide) _)
    · cases hf.symm.trans h

/-- If a parenthesis is never closed, the query opens more than it closes, and never overcloses. -/
theorem underclosed_of_evaluate {query : Text}
    (h : evaluate s query r = .error .unclosedParenthesis) :
    NeverOvercloses (escape query) ∧ (escape query).count ')' < (escape query).count '(' := by
  rw [evaluate_eq_run] at h
  rcases bind_eq_error_iff.1 h with h | ⟨last, hrun, h⟩
  · exact absurd h (run_ne_unclosed _ _)
  · rcases finish_cases (s := s) (r := r) last with ⟨-, hf⟩ | ⟨houter, -⟩
    · exact absurd (hf.symm.trans h) (combine_ne_error rfl (by decide) _)
    · have hdepth := run_depth hrun
      have hopen := List.length_pos_iff.2 houter
      simp only [start, List.length_nil] at hdepth
      exact ⟨neverOvercloses_of_run hrun, by omega⟩

/-- **The end of an evaluation tells how the parentheses of the escaped query fit.** They fit if
there is an outcome; if a closing parenthesis is one too many, some beginning of the text
overcloses; if an opening one is never closed, no beginning overcloses but fewer close than open.
Where they fit, no record brings an error of parentheses. -/
theorem evaluate_parentheses (s : Settings) (query : Text) (r : Record) :
    (∀ b, evaluate s query r = .ok b → Balanced (escape query)) ∧
    (∀ position, evaluate s query r = .error (.extraClosingParenthesis position) →
      ∃ u, u <+: escape query ∧ u.count '(' < u.count ')') ∧
    (evaluate s query r = .error .unclosedParenthesis →
      NeverOvercloses (escape query) ∧ (escape query).count ')' < (escape query).count '(') ∧
    (Balanced (escape query) → ∀ r' : Record,
      evaluate s query r' ≠ .error .unclosedParenthesis ∧
        ∀ position, evaluate s query r' ≠ .error (.extraClosingParenthesis position)) := by
  refine ⟨fun b => balanced_of_evaluate, fun position => overcloses_of_evaluate,
    underclosed_of_evaluate, fun hb r' => ⟨fun h => ?_, fun position h => ?_⟩⟩
  · have hlt := (underclosed_of_evaluate h).2
    have heq := hb.closed
    omega
  · obtain ⟨u, hu, hlt⟩ := overcloses_of_evaluate h
    have hle := hb.neverOvercloses u hu
    omega

/-- An escaped parenthesis, an extra one, one that stays open and two that fit. -/
theorem evaluate_parentheses_each :
    Balanced (escape ['(', 'a', '=', '=', '\\', '(', ')']) ∧
    (∃ u, u <+: escape ['(', 't', 'r', 'u', 'e', ')', ')', '('] ∧ u.count '(' < u.count ')') ∧
    NeverOvercloses (escape ['(', '(', 't', 'r', 'u', 'e', ')', ';']) ∧
    (∀ r : Record, evaluate {} ['(', 'a', '=', '=', '1', ')'] r ≠ .error .unclosedParenthesis) :=
  ⟨(evaluate_parentheses {} _ .empty).1 false (by decide +kernel),
    (evaluate_parentheses {} _ .empty).2.1 4 (by decide +kernel),
    ((evaluate_parentheses {} _ .empty).2.2.1 (by decide +kernel)).1,
    fun r => ((evaluate_parentheses {} _ .empty).2.2.2
      (by rw [escape_eq_self (by decide)]; decide) r).1⟩

end Query

end RecordFilter
