import RecordFilter.Proofs.Escape
import RecordFilter.Proofs.Query.Expression
import RecordFilter.Proofs.Query.Parentheses

/-! # Groups stand for their outcomes

A group whose parentheses fit can be replaced by the word for its outcome, whatever stands around
it, and its error is the error of every query in which nothing is evaluated before it. The reason
is that a reader works on the innermost open groups only: what it makes of a text that never closes
more than it opens does not depend on the groups that were open before (`run_within`). -/

namespace RecordFilter.Query

variable {s : Settings} {r : Record}

namespace Reader

/-! ## Open groups around a reader -/

/-- A reader with more groups open around those it has open. -/
def within (reader : Reader) (frame : List Text) : Reader :=
  ⟨reader.outer ++ frame, reader.current⟩

/-- A step leaves the groups around a reader alone, unless it closes one of them. -/
theorem step_within {reader : Reader} {c : Char} (h : c = ')' → reader.outer ≠ [])
    (frame : List Text) :
    step s r (reader.within frame) c = (step s r reader c).map (·.within frame) := by
  obtain ⟨outer, current⟩ := reader
  by_cases ho : c = '('
  · subst ho
    rfl
  by_cases hc : c = ')'
  · subst hc
    cases outer with
    | nil => exact absurd rfl (h rfl)
    | cons text outer =>
      simp only [within, List.cons_append, step_close_cons]
      cases combine s r current <;> rfl
  · simp only [step_keep ho hc, map_ok, within]

/-- **The groups around a reader are left alone** by a text that closes none of them. -/
theorem run_within {reader : Reader} {t : Text}
    (h : ∀ u, u <+: t → u.count ')' ≤ reader.outer.length + u.count '(') (frame : List Text) :
    run s r (reader.within frame) t = (run s r reader t).map (·.within frame) := by
  induction t generalizing reader with
  | nil => rfl
  | cons c t ih =>
    have hc : c = ')' → reader.outer ≠ [] := by
      rintro rfl
      have hle := h [')'] ⟨t, rfl⟩
      -- For the beginning `)` the bound says that some group of the reader is open.
      rw [show [')'].count ')' = 1 from rfl, show [')'].count '(' = 0 from rfl] at hle
      exact List.length_pos_iff.1 hle
    rw [run_cons, run_cons, step_within hc]
    cases hstep : step s r reader c with
    | error e => rfl
    | ok next =>
      refine ih fun u hu => ?_
      -- The depth changes by what `c` opens or closes, and so does the bound for `u`.
      have hle := h (c :: u) ((List.prefix_append_right_inj [c]).2 hu)
      have hdepth := step_depth hstep
      rw [← List.singleton_append, List.count_append, List.count_append] at hle
      omega

/-- A group whose parentheses fit is read as the word for its outcome. -/
theorem run_group {g : Text} (hg : Balanced g) (reader : Reader) (t : Text) :
    run s r reader ('(' :: g ++ ')' :: t) =
      (run s r start g >>= finish s r) >>= fun outcome =>
        run s r ⟨reader.outer, reader.current ++ Value.boolText outcome⟩ t := by
  have hframe : run s r ⟨reader.current :: reader.outer, []⟩ g =
      (run s r start g).map (·.within (reader.current :: reader.outer)) := by
    show run s r (start.within (reader.current :: reader.outer)) g = _
    exact run_within (fun u hu => (hg.neverOvercloses u hu).trans (Nat.le_add_left _ _)) _
  -- The group is read as it would be on its own, with the open groups as a frame around it.
  rw [List.cons_append, run_open, run_append, hframe]
  cases hrun : run s r start g with
  | error e => rfl
  | ok last =>
    -- The group is over, so nothing but the frame is open where its closing parenthesis comes.
    obtain ⟨outer, current⟩ := last
    have hdepth := run_depth hrun
    have houter : outer = [] := by
      rw [← List.length_eq_zero_iff]
      have hclosed := hg.closed
      simp only [start, List.length_nil] at hdepth
      omega
    subst houter
    rw [map_ok, ok_bind, ok_bind, run_cons]
    simp only [within, List.nil_append, step_close_cons, finish, bind_assoc]
    rfl

/-- A reader gets past a text without closing parentheses. -/
theorem exists_run_eq_ok {t : Text} (h : ')' ∉ t) (reader : Reader) :
    ∃ last, run s r reader t = .ok last := by
  cases hrun : run s r reader t with
  | ok last => exact ⟨last, rfl⟩
  | error e =>
    obtain ⟨before, c, after, here, rfl, -, hstep⟩ := run_eq_error_iff.1 hrun
    obtain rfl := (step_eq_error_iff.1 hstep).1
    exact absurd (by simp) h

end Reader

open Reader

/-! ## Escaped forms -/

/-- Escaping goes part by part through a query with a group. -/
theorem escape_group {p g : Text} (hp : p.getLast? ≠ some '\\') (hg : g.getLast? ≠ some '\\')
    (t : Text) :
    escape (p ++ '(' :: g ++ ')' :: t) = escape p ++ ('(' :: escape g ++ ')' :: escape t) := by
  have hopen : Resumes ('(' :: (g ++ ')' :: t)) := resumes_cons (by decide) (by decide) _
  have hclose : Resumes (')' :: t) := resumes_cons (by decide) (by decide) _
  rw [List.append_assoc, List.cons_append, escape_append hp hopen,
    escape_cons_of_ne (by decide), escape_append hg hclose, escape_cons_of_ne (by decide),
    List.cons_append]

/-- Escaping goes part by part through a query with the word for an outcome. -/
theorem escape_word_within {p : Text} (hp : p.getLast? ≠ some '\\') (b : Bool) (t : Text) :
    escape (p ++ Value.boolText b ++ t) = escape p ++ (Value.boolText b ++ escape t) := by
  have hword : Resumes (Value.boolText b ++ t) := by
    cases b <;> exact resumes_cons (by decide) (by decide) _
  rw [List.append_assoc, escape_append hp hword,
    escape_append_of_notMem ((by decide : OutsideWords '\\') b)]

/-! ## Evaluations -/

/-- In a query with a group, first comes what stands before the group, then the group, then the
rest. -/
theorem evaluate_group {p g : Text} (hp : p.getLast? ≠ some '\\') (hg : g.getLast? ≠ some '\\')
    (hb : Balanced (escape g)) (t : Text) :
    evaluate s (p ++ '(' :: g ++ ')' :: t) r =
      run s r start (escape p) >>= fun here => evaluate s g r >>= fun outcome =>
        run s r ⟨here.outer, here.current ++ Value.boolText outcome⟩ (escape t) >>= finish s r := by
  rw [evaluate_eq_run, evaluate_eq_run, escape_group hp hg, run_append, bind_assoc]
  congr 1
  funext here
  rw [run_group hb, bind_assoc]

/-- A query with the word for an outcome. -/
theorem evaluate_word {p : Text} (hp : p.getLast? ≠ some '\\') (b : Bool) (t : Text) :
    evaluate s (p ++ Value.boolText b ++ t) r =
      run s r start (escape p) >>= fun here =>
        run s r ⟨here.outer, here.current ++ Value.boolText b⟩ (escape t) >>= finish s r := by
  rw [evaluate_eq_run, escape_word_within hp, run_append, bind_assoc]
  congr 1
  funext here
  obtain ⟨ho, hc⟩ := parentheses_notMem_boolText b
  rw [run_append, run_keep ho hc, ok_bind]

/-- A query in parentheses comes to the same as the query. -/
theorem evaluate_parenthesised {g : Text} (hg : g.getLast? ≠ some '\\')
    (hb : Balanced (escape g)) : evaluate s ('(' :: g ++ [')']) r = evaluate s g r := by
  have hgroup := evaluate_group (s := s) (r := r) (p := []) (by simp) hg hb []
  rw [List.nil_append] at hgroup
  rw [hgroup, escape_nil, run_nil, ok_bind]
  simp only [run_nil, ok_bind, finish, start, List.isEmpty_nil, if_true, List.nil_append,
    combine_boolText]
  cases evaluate s g r <;> rfl

/-- **A group stands for its outcome.** Where the parentheses of `g` fit and neither `p` nor `g`
ends with a backslash, the group of `g` can be replaced by the word for the outcome of `g`; if `g`
fails, so does every query in which no group ends before it; and `g` in parentheses
comes to the same as `g`. -/
theorem evaluate_substitute (s : Settings) (r : Record) (p g t : Text)
    (hp : p.getLast? ≠ some '\\') (hg : g.getLast? ≠ some '\\') (hb : Balanced (escape g)) :
    (∀ b, evaluate s g r = .ok b →
      evaluate s (p ++ '(' :: g ++ ')' :: t) r = evaluate s (p ++ Value.boolText b ++ t) r) ∧
    (∀ e, evaluate s g r = .error e → ')' ∉ escape p →
      evaluate s (p ++ '(' :: g ++ ')' :: t) r = .error e) ∧
    evaluate s ('(' :: g ++ [')']) r = evaluate s g r := by
  refine ⟨fun b h => ?_, fun e h hclose => ?_, ?_⟩
  · rw [evaluate_group hp hg hb, evaluate_word hp, h]
    rfl
  · obtain ⟨here, hrun⟩ := exists_run_eq_ok (s := s) (r := r) hclose start
    rw [evaluate_group hp hg hb, h, hrun]
    rfl
  · rw [evaluate_parenthesised hg hb]

/-- A group is replaced between parts that make no query of their own. -/
theorem evaluate_substitute_within :
    evaluate {} ['x', ',', '(', '(', 't', 'r', 'u', 'e', ')', ')', ';', '('] .empty =
      evaluate {} ['x', ',', 't', 'r', 'u', 'e', ';', '('] .empty :=
  (evaluate_substitute {} .empty ['x', ','] ['(', 't', 'r', 'u', 'e', ')'] [';', '('] (by decide)
    (by decide) (by rw [escape_eq_self (by decide)]; decide)).1 true (by decide +kernel)

end RecordFilter.Query
