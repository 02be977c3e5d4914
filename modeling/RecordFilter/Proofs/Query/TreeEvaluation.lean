import RecordFilter.Proofs.Query.Expression
import RecordFilter.Proofs.Query.Reader
import RecordFilter.Proofs.Query.Tree

/-! # The evaluation of trees

A query written from a tree has the value of the tree, provided that every comparison has an
outcome, and else the error of the first that has none in the order of evaluation.

The text that a reader holds for a fragment is its flat text: that of the fragment with the word
for its value in the place of each part in parentheses (`run_renderIn`). By then the comparisons
within those parts have been evaluated. The flat text has no parentheses left, and evaluating it
evaluates the comparisons of the fragment itself (`combine_flat`). -/

namespace RecordFilter.Query

/-! ## Comparisons one after the other -/

section Check

variable (s : Settings) (r : Record)

/-- The outcome of a comparison on a record. -/
def outcome (c : Clause) : Except QueryError Bool := c.matchesValue s (r.field c.selector)

/-- Whether a comparison holds of a record. One that fails does not. -/
def holds (c : Clause) : Bool := (outcome s r c).toOption.getD false

/-- Evaluate comparisons one after the other for the sake of their errors. -/
def check : List Clause → Except QueryError Unit
  | [] => return ()
  | c :: cs => do
    let _ ← outcome s r c
    check cs

variable {s r}

@[simp] theorem check_nil : check s r [] = .ok () := rfl

/-- Comparisons are evaluated from left to right. -/
theorem check_append (a b : List Clause) :
    check s r (a ++ b) = check s r a >>= fun _ => check s r b := by
  induction a with
  | nil => rfl
  | cons c a ih => simp only [List.cons_append, check, ih, bind_assoc]

/-- A comparison comes to whether it holds, once it has been checked. -/
theorem outcome_eq_check (c : Clause) :
    outcome s r c = check s r [c] >>= fun _ => .ok (holds s r c) := by
  rw [check, holds]
  cases outcome s r c <;> rfl

/-- Comparisons pass if each of them has an outcome. -/
theorem check_eq_ok_iff {cs : List Clause} {u : Unit} :
    check s r cs = .ok u ↔ ∀ c ∈ cs, ∃ hit, outcome s r c = .ok hit := by
  induction cs with
  | nil => simp
  | cons c cs ih => rw [check, bind_eq_ok_iff, List.forall_mem_cons, ← ih, exists_and_right]

/-- The error of comparisons is that of the first that has no outcome. -/
theorem check_eq_error_iff {cs : List Clause} {e : QueryError} :
    check s r cs = .error e ↔ ∃ earlier c later, cs = earlier ++ c :: later ∧
      (∀ d ∈ earlier, ∃ hit, outcome s r d = .ok hit) ∧ outcome s r c = .error e := by
  induction cs with
  | nil => simp
  | cons d cs ih =>
    rw [check, bind_eq_error_iff, exists_and_right, ih]
    constructor
    · -- Either the first comparison fails, or it is one of the earlier ones.
      rintro (hd | ⟨hd, earlier, c, later, rfl, hearlier, hc⟩)
      · exact ⟨[], d, cs, rfl, by simp, hd⟩
      · exact ⟨d :: earlier, c, later, rfl, List.forall_mem_cons.2 ⟨hd, hearlier⟩, hc⟩
    · rintro ⟨earlier, c, later, hcs, hearlier, hc⟩
      cases earlier with
      | nil =>
        obtain ⟨rfl, rfl⟩ := List.cons_eq_cons.1 hcs
        exact .inl hc
      | cons d' earlier =>
        obtain ⟨rfl, rfl⟩ := List.cons_eq_cons.1 hcs
        obtain ⟨hd, hearlier⟩ := List.forall_mem_cons.1 hearlier
        exact .inr ⟨hd, earlier, c, later, rfl, hearlier, hc⟩

end Check

variable {s : Settings} {r : Record}

/-! ## The text of a comparison -/

/-- No character of an operator is a separator, a parenthesis or a backslash. -/
theorem notMem_token {c : Char} (hc : c ∈ ['(', ')', ';', ',', '\\']) (operator : Operator) :
    c ∉ operator.token := by
  intro hm
  have hmem := Clause.token_subset operator hm
  simp only [List.mem_cons, List.not_mem_nil, or_false] at hc hmem
  rcases hc with rfl | rfl | rfl | rfl | rfl <;> revert hmem <;> decide

/-- No comparison is written with a separator, a parenthesis or a backslash. -/
theorem Comparison.notMem_render (c : Comparison) {d : Char}
    (hd : d ∈ ['(', ')', ';', ',', '\\']) : d ∉ c.clause.render := by
  have hstructural : d ∈ structural := List.mem_append_left ['=', '!', '<', '>'] hd
  rw [Clause.render, List.mem_append, List.mem_append]
  rintro (hm | hm | hm)
  · exact c.selector_plain d hstructural hm
  · exact notMem_token hd _ hm
  · exact c.literal_plain d hstructural hm

/-- A plain text has no character of an operator. -/
theorem Plain.operatorFree {t : Text} (h : Plain t) : Clause.OperatorFree t :=
  ⟨h '=' (by decide), h '!' (by decide), h '<' (by decide), h '>' (by decide)⟩

/-- No comparison is written like the word for an outcome, since that has no operator. -/
theorem render_ne_boolText (c : Clause) (b : Bool) : c.render ≠ Value.boolText b := by
  obtain ⟨first, rest, last, htoken, -, hfree⟩ := Clause.exists_token_ends c.operator
  have hword : Clause.OperatorFree (Value.boolText b) := by
    cases b <;> exact ⟨by decide, by decide, by decide, by decide⟩
  intro h
  apply (hfree _ hword).1
  rw [← h, Clause.render, htoken]
  simp

/-- The text of a comparison is evaluated as that comparison. -/
theorem dispatch_render (c : Comparison) : dispatch s r c.clause.render = outcome s r c.clause := by
  rw [dispatch_of_ne (render_ne_boolText c.clause),
    Clause.parse?_render c.selector_plain.operatorFree c.literal_plain.operatorFree]
  rfl

/-- The text of a comparison is an expression of its own. -/
theorem combine_render (c : Comparison) : combine s r c.clause.render = outcome s r c.clause := by
  rw [combine_eq_dispatch (c.notMem_render (by decide)) (c.notMem_render (by decide)),
    dispatch_render]

/-- The text of a comparison is a query of its own. -/
theorem evaluate_comparison (c : Comparison) :
    evaluate s c.clause.render r = outcome s r c.clause := by
  rw [evaluate_eq_run, escape_eq_self (c.notMem_render (by decide)),
    Reader.run_keep (c.notMem_render (by decide)) (c.notMem_render (by decide))]
  exact combine_render c

/-! ## Flat texts -/

section Flat

variable (v : Clause → Bool)

mutual

/-- The text of a tree with the words for their values in place of its parts in parentheses. -/
def flat (nested : Bool) : Tree → Text
  | .word outcome => Value.boolText outcome
  | .comparison c => c.clause.render
  | .all parts => flatRow true ';' parts
  | .any parts => if nested then Value.boolText (parts.any v) else flatRow false ',' parts
  | .group t => Value.boolText (t.value v)

/-- The flat texts of trees, with a separator between them. -/
def flatRow (nested : Bool) (separator : Char) : Row → Text
  | .last t => flat nested t
  | .cons t parts => flat nested t ++ separator :: flatRow nested separator parts

end

mutual

/-- The flat text of a part of a conjunction has no comma, since disjunctions within it stand in
parentheses. -/
theorem comma_notMem_flat : ∀ t : Tree, ',' ∉ flat v true t
  | .word outcome => (by decide : OutsideWords ',') outcome
  | .comparison c => c.notMem_render (by decide)
  | .all parts => comma_notMem_flatRow parts
  | .any parts => (by decide : OutsideWords ',') (parts.any v)
  | .group t => (by decide : OutsideWords ',') (t.value v)

theorem comma_notMem_flatRow : ∀ parts : Row, ',' ∉ flatRow v true ';' parts
  | .last t => comma_notMem_flat t
  | .cons t parts => by
    rw [flatRow, List.mem_append, List.mem_cons]
    rintro (hm | hm | hm)
    · exact comma_notMem_flat t hm
    · exact absurd hm (by decide)
    · exact comma_notMem_flatRow parts hm

end

end Flat

/-! ## The value of a flat text -/

/-- What a word evaluates to within a conjunction. -/
theorem conjunction_boolText (b : Bool) : conjunction s r (Value.boolText b) = .ok b := by
  rw [conjunction_of_notMem ((by decide : OutsideWords ';') b), dispatch_boolText]

mutual

/-- The flat text of a part of a conjunction has the value of that part, once the comparisons of
its fragment have been evaluated. -/
theorem conjunction_flat : ∀ t : Tree, conjunction s r (flat (holds s r) true t) =
    check s r (own true t) >>= fun _ => .ok (t.value (holds s r))
  | .word outcome => conjunction_boolText outcome
  | .comparison c => by
    rw [flat, conjunction_of_notMem (c.notMem_render (by decide)), dispatch_render,
      outcome_eq_check]
    rfl
  | .all parts => conjunction_flatRow parts
  | .any parts => conjunction_boolText (parts.any (holds s r))
  | .group t => conjunction_boolText (t.value (holds s r))

theorem conjunction_flatRow : ∀ parts : Row, conjunction s r (flatRow (holds s r) true ';' parts) =
    check s r (ownRow true parts) >>= fun _ => .ok (parts.all (holds s r))
  | .last t => conjunction_flat t
  | .cons t parts => by
    rw [flatRow, conjunction_append, conjunction_flat t, conjunction_flatRow parts, ownRow,
      check_append]
    simp only [bind_assoc, ok_bind]
    rfl

end

mutual

/-- **The flat text of a tree has the value of the tree**, once the comparisons of its fragment
have been evaluated. -/
theorem combine_flat : ∀ t : Tree, combine s r (flat (holds s r) false t) =
    check s r (own false t) >>= fun _ => .ok (t.value (holds s r))
  | .word outcome => combine_boolText outcome
  | .comparison c => by
    rw [flat, combine_render, outcome_eq_check]
    rfl
  | .all parts => by
    -- A conjunction is a single branch, for its disjunctions stand in parentheses.
    rw [flat, combine_of_notMem (comma_notMem_flatRow _ parts), conjunction_flatRow]
    rfl
  | .any parts => combine_flatRow parts
  | .group t => combine_boolText (t.value (holds s r))

theorem combine_flatRow : ∀ parts : Row, combine s r (flatRow (holds s r) false ',' parts) =
    check s r (ownRow false parts) >>= fun _ => .ok (parts.any (holds s r))
  | .last t => combine_flat t
  | .cons t parts => by
    rw [flatRow, combine_append, combine_flat t, combine_flatRow parts, ownRow, check_append]
    simp only [bind_assoc, ok_bind]
    rfl

end

/-! ## Reading a tree -/

open Reader

/-- A text in parentheses is replaced by the word for its value, if it is read as a text with that
value, once some comparisons within it and then some of its own have been evaluated. -/
theorem run_parenthesised {t current : Text} {within own : List Clause} {value : Bool}
    (hrun : ∀ reader : Reader, run s r reader t =
      check s r within >>= fun _ => .ok ⟨reader.outer, reader.current ++ current⟩)
    (hvalue : combine s r current = check s r own >>= fun _ => .ok value) (reader : Reader) :
    run s r reader (parenthesised t) = check s r (within ++ own) >>= fun _ =>
      .ok ⟨reader.outer, reader.current ++ Value.boolText value⟩ := by
  rw [parenthesised, List.cons_append, run_open, run_append, hrun, check_append]
  simp only [bind_assoc, ok_bind, List.nil_append]
  congr 1
  funext _
  -- At the closing parenthesis nothing of the fragment is left but its flat text.
  rw [run_cons, step_close_cons, hvalue]
  simp only [bind_assoc, ok_bind, run_nil]

mutual

/-- **A tree is read as its flat text**, once the comparisons of the fragments within it have been
evaluated. -/
theorem run_renderIn (nested : Bool) : ∀ (t : Tree) (reader : Reader),
    run s r reader (renderIn nested t) = check s r (inner nested t) >>= fun _ =>
      .ok ⟨reader.outer, reader.current ++ flat (holds s r) nested t⟩
  | .word outcome, reader => by
    obtain ⟨ho, hc⟩ := parentheses_notMem_boolText outcome
    exact run_keep ho hc reader
  | .comparison c, reader =>
    run_keep (c.notMem_render (by decide)) (c.notMem_render (by decide)) reader
  | .all parts, reader => run_renderRow true ';' (by decide) (by decide) parts reader
  | .any parts, reader => by
    have hparts := run_renderRow false ',' (by decide) (by decide) parts
    cases nested with
    | false => exact hparts reader
    | true => exact run_parenthesised hparts (combine_flatRow parts) reader
  | .group t, reader => run_parenthesised (run_renderIn false t) (combine_flat t) reader

theorem run_renderRow (nested : Bool) (separator : Char) (ho : separator ≠ '(')
    (hc : separator ≠ ')') : ∀ (parts : Row) (reader : Reader),
    run s r reader (renderRow nested separator parts) =
      check s r (innerRow nested parts) >>= fun _ =>
        .ok ⟨reader.outer, reader.current ++ flatRow (holds s r) nested separator parts⟩
  | .last t, reader => run_renderIn nested t reader
  | .cons t parts, reader => by
    rw [renderRow, run_append, run_renderIn nested t, innerRow, check_append]
    simp only [bind_assoc, ok_bind]
    congr 1
    funext _
    rw [run_cons, step_keep ho hc, ok_bind, run_renderRow nested separator ho hc parts]
    simp only [flatRow, List.append_assoc, List.singleton_append]

end

mutual

/-- No tree is written with a backslash. -/
theorem backslash_notMem_renderIn (nested : Bool) : ∀ t : Tree, '\\' ∉ renderIn nested t
  | .word outcome => (by decide : OutsideWords '\\') outcome
  | .comparison c => c.notMem_render (by decide)
  | .all parts => backslash_notMem_renderRow true ';' (by decide) parts
  | .any parts => by
    have hparts := backslash_notMem_renderRow false ',' (by decide) parts
    cases nested <;> simpa [renderIn, parenthesised] using hparts
  | .group t => by
    simpa [renderIn, parenthesised] using backslash_notMem_renderIn false t

theorem backslash_notMem_renderRow (nested : Bool) (separator : Char) (hs : '\\' ≠ separator) :
    ∀ parts : Row, '\\' ∉ renderRow nested separator parts
  | .last t => backslash_notMem_renderIn nested t
  | .cons t parts => by
    rw [renderRow, List.mem_append, List.mem_cons]
    rintro (hm | hm | hm)
    · exact backslash_notMem_renderIn nested t hm
    · exact hs hm
    · exact backslash_notMem_renderRow nested separator hs parts hm

end

/-! ## Evaluating a tree -/

/-- Evaluating a tree checks all of its comparisons in the order of evaluation. -/
theorem evaluate_render_eq (t : Tree) : evaluate s t.render r =
    check s r t.evaluationOrder >>= fun _ => .ok (t.value (holds s r)) := by
  rw [evaluate_eq_run, Tree.render, escape_eq_self (backslash_notMem_renderIn false t),
    run_renderIn, Tree.evaluationOrder, check_append]
  simp only [bind_assoc, ok_bind]
  congr 1
  funext _
  exact combine_flat t

/-- **A query means its tree.** It has an outcome exactly if each comparison of the tree has one,
and that is the value of the tree; else it fails, with the error of the first comparison that does
in the order of evaluation. -/
theorem evaluate_render (s : Settings) (r : Record) (t : Tree) :
    (∀ b, evaluate s t.render r = .ok b ↔
      (∀ c ∈ t.comparisons, ∃ hit, c.matchesValue s (r.field c.selector) = .ok hit) ∧
        b = t.value (holds s r)) ∧
    (∀ e, evaluate s t.render r = .error e ↔
      ∃ earlier c later, t.evaluationOrder = earlier ++ c :: later ∧
        (∀ d ∈ earlier, ∃ hit, d.matchesValue s (r.field d.selector) = .ok hit) ∧
        c.matchesValue s (r.field c.selector) = .error e) := by
  refine ⟨fun b => ?_, fun e => ?_⟩
  · -- For the outcome it does not matter in which order the comparisons are evaluated.
    have hmem : ∀ c, c ∈ t.evaluationOrder ↔ c ∈ t.comparisons := fun c =>
      t.evaluationOrder_perm.mem_iff
    rw [evaluate_render_eq, bind_eq_ok_iff]
    simp only [check_eq_ok_iff, hmem, Except.ok.injEq]
    constructor
    · rintro ⟨-, h, rfl⟩
      exact ⟨h, rfl⟩
    · rintro ⟨h, rfl⟩
      exact ⟨(), h, rfl⟩
  · rw [evaluate_render_eq, bind_eq_error_iff, check_eq_error_iff]
    simp [outcome]

end RecordFilter.Query
