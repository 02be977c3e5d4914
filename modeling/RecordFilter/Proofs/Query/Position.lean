import RecordFilter.Proofs.Query.Substitution
import RecordFilter.Proofs.ReservedWords

/-! # Where an extra closing parenthesis is reported

The closing parenthesis that is one too many is the first unescaped one that has no partner in the
query as it was given. The position that is reported with it counts the bytes of what the loop holds
before it, though: escaped words are encoded by then, and every group is replaced by the word for
its outcome. `Collapses` relates a text to what the loop makes of it, and
`evaluate_eq_extraClosingParenthesis_iff` says when the error arises and which position it has. So
the position is the place of the parenthesis in the query where neither a backslash nor a group
comes before it, and in general it is not; it may even depend on the record. -/

namespace RecordFilter.Query

variable {s : Settings} {r : Record}

/-! ## Texts with words for groups -/

variable (s r) in
/-- A text, and the same text with the word for its outcome in the place of each group that stands
within no other. -/
inductive Collapses : Text → Text → Prop where
  | nil : Collapses [] []
  | char {t u : Text} {c : Char} (ho : c ≠ '(') (hc : c ≠ ')') (h : Collapses t u) :
      Collapses (c :: t) (c :: u)
  | group {g t u : Text} {outcome : Bool} (hg : Balanced g) (hb : resolve s r g = .ok outcome)
      (h : Collapses t u) : Collapses ('(' :: g ++ ')' :: t) (Value.boolText outcome ++ u)

namespace Collapses

/-- Without parentheses there is nothing to replace. -/
theorem refl {t : Text} (ho : '(' ∉ t) (hc : ')' ∉ t) : Collapses s r t t := by
  induction t with
  | nil => exact .nil
  | cons c t ih =>
    rw [List.mem_cons, not_or] at ho hc
    exact .char (Ne.symm ho.1) (Ne.symm hc.1) (ih ho.2 hc.2)

/-- Without parentheses nothing is replaced. -/
theorem eq_of_notMem {t u : Text} (h : Collapses s r t u) (ho : '(' ∉ t) : u = t := by
  induction h with
  | nil => rfl
  | char _ _ _ ih => rw [ih fun hm => ho (List.mem_cons_of_mem _ hm)]
  | group => exact absurd (by simp) ho

/-- A reader goes on with the words for the groups of a text. -/
theorem run {t u : Text} (h : Collapses s r t u) (reader : Reader) :
    reader.run s r t = .ok ⟨reader.outer, reader.current ++ u⟩ := by
  induction h generalizing reader with
  | nil => simp
  | char ho hc _ ih =>
    rw [Reader.run_cons, Reader.step_keep ho hc, ok_bind, ih]
    simp
  | @group g t u outcome hg hb _ ih =>
    have hgroup : Reader.start.run s r g >>= Reader.finish s r = .ok outcome :=
      (resolve_eq_run Reader.clean_start g).symm.trans hb
    rw [Reader.run_group hg, hgroup, ok_bind, ih]
    simp

end Collapses

/-- **A reader that ends outside all groups** has read a text whose groups collapse. -/
theorem Reader.collapses_of_run {t current last : Text}
    (h : run s r ⟨[], current⟩ t = .ok ⟨[], last⟩) :
    ∃ u, last = current ++ u ∧ Collapses s r t u := by
  -- By induction on the length of the text: what comes behind its first group is shorter.
  induction hn : t.length using Nat.strong_induction_on generalizing t current with
  | _ n ih =>
    cases t with
    | nil =>
      obtain ⟨-, rfl⟩ := Reader.mk.inj (Except.ok.inj h)
      exact ⟨[], by simp, .nil⟩
    | cons c t =>
      by_cases ho : c = '('
      · subst ho
        -- The group is closed, as nothing is open in the end.
        have hover : ¬NeverOvercloses t := by
          intro hnever
          have hdepth := run_depth h
          have hle := hnever t (List.prefix_refl t)
          simp at hdepth
          omega
        obtain ⟨g, rest, rfl, hg⟩ := exists_balanced_of_overcloses hover
        rw [← List.cons_append, run_group hg] at h
        obtain ⟨outcome, hb, h⟩ := bind_eq_ok_iff.1 h
        have hlength : rest.length < n := by
          rw [← hn]
          simp
          omega
        obtain ⟨u, rfl, hu⟩ := ih rest.length hlength h rfl
        exact ⟨Value.boolText outcome ++ u, by simp,
          .group hg ((resolve_eq_run clean_start g).trans hb) hu⟩
      by_cases hc : c = ')'
      · subst hc
        simp [run_cons] at h
      · rw [run_cons, step_keep ho hc, ok_bind] at h
        obtain ⟨u, rfl, hu⟩ := ih t.length (by simp [← hn]) h rfl
        exact ⟨c :: u, by simp, .char ho hc hu⟩

/-- The parentheses of a text whose groups collapse fit. -/
theorem Collapses.balanced {t u : Text} (h : Collapses s r t u) : Balanced t := by
  have hrun := h.run Reader.start
  have hdepth := Reader.run_depth hrun
  simp only [Reader.start, List.length_nil] at hdepth
  exact ⟨Reader.neverOvercloses_of_run hrun, by omega⟩

/-! ## The position -/

/-- A reader meets an extra closing parenthesis behind a text whose groups collapse. -/
theorem Reader.run_eq_extraClosingParenthesis_iff {t : Text} {position : Nat} :
    run s r start t = .error (.extraClosingParenthesis position) ↔
      ∃ before after u, t = before ++ ')' :: after ∧ Collapses s r before u ∧
        position = Text.byteLength u := by
  constructor
  · intro h
    obtain ⟨before, c, after, ⟨outer, current⟩, rfl, hbefore, hstep⟩ := run_eq_error_iff.1 h
    obtain ⟨rfl, ⟨houter, he⟩ | ⟨-, hcombine⟩⟩ := step_eq_error_iff.1 hstep
    · obtain rfl : outer = [] := houter
      obtain ⟨u, hcurrent, hu⟩ := collapses_of_run hbefore
      obtain rfl : current = u := hcurrent
      exact ⟨before, after, current, rfl, hu, QueryError.extraClosingParenthesis.inj he⟩
    · exact absurd hcombine (combine_ne_error rfl (by decide) _)
  · rintro ⟨before, after, u, rfl, hu, rfl⟩
    rw [run_append, hu.run, ok_bind, run_cons]
    rfl

/-- **An extra closing parenthesis** is the first unescaped one without a partner: it stands behind
a text `before` whose unescaped parentheses fit. Its position is the number of bytes of what has
become of that text, with escaped words encoded and the words for outcomes in the place of
groups. -/
theorem evaluate_eq_extraClosingParenthesis_iff (s : Settings) (query : Text) (r : Record)
    (position : Nat) :
    evaluate s query r = .error (.extraClosingParenthesis position) ↔
      ∃ before after u, query = before ++ ')' :: after ∧ before.getLast? ≠ some '\\' ∧
        Balanced (escape before) ∧ Collapses s r (escape before) u ∧
        position = Text.byteLength u := by
  have hclose : [')'] ∈ reservedWords := by decide
  have hrun : evaluate s query r = .error (.extraClosingParenthesis position) ↔
      Reader.start.run s r (escape query) = .error (.extraClosingParenthesis position) := by
    rw [evaluate_eq_run, bind_eq_error_iff, or_iff_left]
    rintro ⟨last, -, h⟩
    rcases Reader.finish_cases (s := s) (r := r) last with ⟨-, hf⟩ | ⟨-, hf⟩
    · exact combine_ne_error rfl (by decide) _ (hf.symm.trans h)
    · cases hf.symm.trans h
  rw [hrun, Reader.run_eq_extraClosingParenthesis_iff]
  constructor
  · rintro ⟨u, v, w, hquery, hw, hposition⟩
    obtain ⟨before, after, rfl, hlast, rfl, rfl⟩ := exists_of_escape_eq_append hclose hquery
    exact ⟨before, after, w, rfl, hlast, hw.balanced, hw, hposition⟩
  · rintro ⟨before, after, w, rfl, hlast, -, hw, hposition⟩
    refine ⟨escape before, escape after, w, ?_, hw, hposition⟩
    rw [escape_append hlast (resumes_of_singleton_mem hclose after), escape_cons_of_ne (by decide)]

/-- **What the position of an extra closing parenthesis tells.** The parenthesis is the first
unescaped one without a partner, and the position is its place in the query if neither a backslash
nor a group comes before it; then it is the same on every record. Else it is its place behind what
has become of the text before it. -/
theorem extraClosingParenthesis_position (s : Settings) (query : Text) (r : Record)
    (position : Nat) (h : evaluate s query r = .error (.extraClosingParenthesis position)) :
    ∃ before after u, query = before ++ ')' :: after ∧ before.getLast? ≠ some '\\' ∧
      Balanced (escape before) ∧ Collapses s r (escape before) u ∧
      position = Text.byteLength u ∧
      ('\\' ∉ before → '(' ∉ before → position = Text.byteLength before ∧
        ∀ r', evaluate s query r' = .error (.extraClosingParenthesis position)) := by
  obtain ⟨before, after, u, hquery, hlast, hbalanced, hu, hposition⟩ :=
    (evaluate_eq_extraClosingParenthesis_iff s query r position).1 h
  refine ⟨before, after, u, hquery, hlast, hbalanced, hu, hposition, fun hslash ho => ?_⟩
  rw [escape_eq_self hslash] at hu hbalanced
  obtain rfl : u = before := hu.eq_of_notMem ho
  -- What opens no group closes none, so there is nothing that a record could change.
  have hc : ')' ∉ u := by
    rw [← List.count_eq_zero, ← hbalanced.closed, List.count_eq_zero]
    exact ho
  refine ⟨hposition, fun r' => ?_⟩
  refine (evaluate_eq_extraClosingParenthesis_iff s query r' position).2
    ⟨u, after, u, hquery, hlast, ?_, ?_, hposition⟩
  · rwa [escape_eq_self hslash]
  · rw [escape_eq_self hslash]
    exact .refl ho hc

/-- The position counts bytes, and is right where no group comes before it. -/
theorem extraClosingParenthesis_position_bytes :
    ∃ before after, ['日', '=', '=', '1', ')', '('] = before ++ ')' :: after ∧
      Balanced (escape before) ∧ ('\\' ∉ before → '(' ∉ before → Text.byteLength before = 6) := by
  obtain ⟨before, after, u, hquery, -, hbalanced, -, -, hplain⟩ :=
    extraClosingParenthesis_position {} ['日', '=', '=', '1', ')', '('] .empty 6 (by decide +kernel)
  exact ⟨before, after, hquery, hbalanced, fun hslash ho => (hplain hslash ho).1.symm⟩

/-- **The position is not the place in the query.** The last parenthesis of `(a==b))` stands at byte
6. It is reported at byte 4 where the group before it holds, and at byte 5 where it does not. That
of an escaped one followed by an extra one, at byte 2, is reported at byte 3. -/
theorem extraClosingParenthesis_position_shifted :
    let grouped := ['(', 'a', '=', '=', 'b', ')']
    let escaped := ['\\', '(']
    (grouped.getLast? ≠ some '\\' ∧ Balanced (escape grouped) ∧ Text.byteLength grouped = 6 ∧
      evaluate {} (grouped ++ [')']) ⟨[(['a'], .text ['b'])]⟩ =
        .error (.extraClosingParenthesis 4) ∧
      evaluate {} (grouped ++ [')']) .empty = .error (.extraClosingParenthesis 5)) ∧
    escaped.getLast? ≠ some '\\' ∧ Balanced (escape escaped) ∧ Text.byteLength escaped = 2 ∧
      evaluate {} (escaped ++ [')']) .empty = .error (.extraClosingParenthesis 3) := by
  refine ⟨⟨by decide, ?_, rfl, by decide +kernel, by decide +kernel⟩, by decide, ?_, rfl, by decide +kernel⟩
  · rw [escape_eq_self (by decide)]
    decide
  · rw [show escape ['\\', '('] = ['%', '2', '8'] by decide +kernel]
    decide

end RecordFilter.Query
