import RecordFilter.Proofs.Query.Expression
import RecordFilter.Proofs.Query.Failure
import RecordFilter.Proofs.Query.Shape

/-! # Structure and data

Whether a query is well-formed does not depend on the record it is evaluated on. Two results agree
on the structure (`Agree`) if a structural fault of one is met by no success and by no other
structural fault of the other; an error in the reading of a literal agrees with everything, since
it ends an evaluation before anything more is seen. Agreement passes through chains of steps, so the
simulation between two evaluations is built from one step of a reader: the two
readers have the same groups open, with texts of one shape. -/

namespace RecordFilter

/-! ## Agreement -/

/-- Two results agree on the structure of what has been evaluated; their values are related by
`R`. -/
def Agree {α β : Type} (R : α → β → Prop) : Except QueryError α → Except QueryError β → Prop
  | .ok a, .ok b => R a b
  | .ok _, .error e => e.structuralFault? = none
  | .error e, .ok _ => e.structuralFault? = none
  | .error e, .error e' => ∀ f ∈ e.structuralFault?, ∀ f' ∈ e'.structuralFault?, f = f'

namespace Agree

variable {α β γ δ : Type} {R : α → β → Prop} {S : γ → δ → Prop}

/-- An error in the reading of a literal agrees with everything. -/
theorem of_left {e : QueryError} (h : e.structuralFault? = none) (y : Except QueryError β) :
    Agree R (.error e) y := by
  cases y with
  | ok b => exact h
  | error e' =>
    intro f hf
    rw [h] at hf
    cases hf

/-- An error in the reading of a literal agrees with everything. -/
theorem of_right {e : QueryError} (x : Except QueryError α) (h : e.structuralFault? = none) :
    Agree R x (.error e) := by
  cases x with
  | ok a => exact h
  | error e' =>
    intro f _ f' hf'
    rw [h] at hf'
    cases hf'

/-- Errors that report one fault agree. -/
theorem of_fault {e e' : QueryError} (h : e.structuralFault? = e'.structuralFault?) :
    Agree R (.error e) (.error e') := by
  intro f hf f' hf'
  rw [h] at hf
  exact Option.mem_unique hf hf'

/-- Results without structural faults agree. -/
theorem of_failsWith {x : Except QueryError α} {y : Except QueryError β}
    (hx : FailsWith (·.structuralFault? = none) x) (hy : FailsWith (·.structuralFault? = none) y) :
    Agree (fun _ _ => True) x y := by
  cases x with
  | error e => exact of_left (hx e rfl) y
  | ok a =>
    cases y with
    | error e => exact hy e rfl
    | ok b => trivial

/-- Chains of steps agree if their steps do. -/
theorem bind {x : Except QueryError α} {y : Except QueryError β} {f : α → Except QueryError γ}
    {g : β → Except QueryError δ} (h : Agree R x y) (hfg : ∀ a b, R a b → Agree S (f a) (g b)) :
    Agree S (x >>= f) (y >>= g) := by
  cases x with
  | ok a =>
    cases y with
    | ok b => exact hfg a b h
    | error e' => exact of_right _ h
  | error e =>
    cases y with
    | ok b => exact of_left h _
    | error e' => exact h

/-- Rows of steps agree if the steps do, one by one. -/
theorem mapM {f : α → Except QueryError γ} {g : β → Except QueryError δ} {as : List α}
    {bs : List β} (h : List.Forall₂ R as bs) (hfg : ∀ a b, R a b → Agree S (f a) (g b)) :
    Agree (List.Forall₂ S) (as.mapM f) (bs.mapM g) := by
  induction h with
  | nil => exact .nil
  | cons hab _ ih =>
    rw [List.mapM_cons, List.mapM_cons]
    refine (hfg _ _ hab).bind fun c d hcd => ?_
    exact ih.bind fun cs ds hcds => .cons hcd hcds

end Agree

namespace Query

variable {s : Settings} {r₁ r₂ : Record}

/-! ## Expressions without parentheses -/

/-- Parts of one shape are the same words, or have no operator, or both have one. -/
theorem dispatch_agree {a b : Text} (h : SameShape a b) :
    Agree (fun _ _ => True) (dispatch s r₁ a) (dispatch s r₂ b) := by
  by_cases hword : ∃ v, a = Value.boolText v
  · obtain ⟨v, ha⟩ := hword
    obtain ⟨w, hb⟩ := h.exists_eq_boolText ha
    rw [ha, hb, dispatch_boolText, dispatch_boolText]
    trivial
  · have ha : ∀ v, a ≠ Value.boolText v := fun v hv => hword ⟨v, hv⟩
    have hb : ∀ v, b ≠ Value.boolText v := fun v hv => hword (h.symm.exists_eq_boolText hv)
    -- Neither part is a word, so each is a comparison if it has an operator, and both or none has.
    have hparse := h.isSome_parse?
    rw [dispatch_of_ne ha, dispatch_of_ne hb]
    cases hca : Clause.parse? a with
    | none =>
      cases hcb : Clause.parse? b with
      | none => exact .of_fault rfl
      | some d => simp [hca, hcb] at hparse
    | some c =>
      cases hcb : Clause.parse? b with
      | none => simp [hca, hcb] at hparse
      | some d =>
        exact .of_failsWith (fun _ => c.structuralFault?_of_matchesValue s)
          (fun _ => d.structuralFault?_of_matchesValue s)

/-- Expressions of one shape agree. -/
theorem combine_agree {a b : Text} (h : SameShape a b) :
    Agree (fun _ _ => True) (combine s r₁ a) (combine s r₂ b) := by
  have hbranch : ∀ a b, SameShape a b → Agree (fun _ _ => True)
      (conjunction s r₁ a) (conjunction s r₂ b) := by
    intro a b h
    have hparts := h.splitOn (c := ';') (by decide)
    exact (Agree.mapM hparts fun a b h => dispatch_agree h).bind fun _ _ _ => trivial
  have hbranches := h.splitOn (c := ',') (by decide)
  exact (Agree.mapM hbranches hbranch).bind fun _ _ _ => trivial

/-! ## Readers -/

namespace Reader

/-- Readers that have the same groups open, with texts of one shape. -/
structure SameShape (x y : Reader) : Prop where
  outer : List.Forall₂ Query.SameShape x.outer y.outer
  current : Query.SameShape x.current y.current

/-- **Readers of one shape agree on a character**, and keep one shape if both get past it. -/
theorem step_agree {x y : Reader} (h : x.SameShape y) (c : Char) :
    Agree SameShape (step s r₁ x c) (step s r₂ y c) := by
  obtain ⟨xs, a⟩ := x
  obtain ⟨ys, b⟩ := y
  obtain ⟨houter, hcurrent⟩ := h
  by_cases ho : c = '('
  · subst ho
    exact ⟨.cons hcurrent houter, .nil⟩
  by_cases hc : c = ')'
  · subst hc
    cases houter with
    | nil => exact .of_fault rfl
    | cons htext houter =>
      -- The outcomes may differ, but not the place where the words for them are written.
      rw [step_close_cons, step_close_cons]
      exact (combine_agree hcurrent).bind fun v w _ => ⟨houter, htext.append (.boolText v w)⟩
  · rw [step_keep ho hc, step_keep ho hc]
    exact ⟨houter, hcurrent.append (.refl [c])⟩

/-- Readers of one shape agree on a text. -/
theorem run_agree {x y : Reader} (h : x.SameShape y) (t : Text) :
    Agree SameShape (run s r₁ x t) (run s r₂ y t) := by
  induction t generalizing x y with
  | nil => exact h
  | cons c t ih =>
    rw [run_cons, run_cons]
    exact (step_agree h c).bind fun _ _ hnext => ih hnext

/-- Readers of one shape agree on what has been read. -/
theorem finish_agree {x y : Reader} (h : x.SameShape y) :
    Agree (fun _ _ => True) (finish s r₁ x) (finish s r₂ y) := by
  obtain ⟨xs, a⟩ := x
  obtain ⟨ys, b⟩ := y
  obtain ⟨houter, hcurrent⟩ := h
  cases houter with
  | nil => exact combine_agree hcurrent
  | cons => exact .of_fault rfl

end Reader

open Reader

/-- **Evaluations of one query agree** on its structure. -/
theorem evaluate_agree (s : Settings) (query : Text) (r₁ r₂ : Record) :
    Agree (fun _ _ => True) (evaluate s query r₁) (evaluate s query r₂) := by
  rw [evaluate_eq_run, evaluate_eq_run]
  exact (run_agree ⟨.nil, .nil⟩ _).bind fun _ _ h => finish_agree h

/-- **Structural faults do not depend on the record.** If an evaluation reports one, no record
gives the query an outcome and none brings another structural fault; so a query that has an
outcome on the empty record reports none on any. -/
theorem evaluate_structuralFault (s : Settings) (query : Text) (r₁ r₂ : Record) :
    (∀ e f, evaluate s query r₁ = .error e → e.structuralFault? = some f →
      (∀ b, evaluate s query r₂ ≠ .ok b) ∧
        ∀ e' f', evaluate s query r₂ = .error e' → e'.structuralFault? = some f' → f' = f) ∧
    (∀ b, evaluate s query .empty = .ok b →
      ∀ e, evaluate s query r₁ = .error e → e.structuralFault? = none) := by
  refine ⟨fun e f he hf => ⟨fun b hb => ?_, fun e' f' he' hf' => ?_⟩, fun b hb e he => ?_⟩
  · have hagree := evaluate_agree s query r₁ r₂
    rw [he, hb] at hagree
    exact Option.some_ne_none f (hf.symm.trans hagree)
  · have hagree := evaluate_agree s query r₁ r₂
    rw [he, he'] at hagree
    exact (hagree f hf f' hf').symm
  · have hagree := evaluate_agree s query r₁ .empty
    rw [he, hb] at hagree
    exact hagree

/-- A part without an operator is not hidden by a comparison that fails before it. -/
theorem evaluate_structuralFault_hidden :
    ∀ b, evaluate {} ['a', '=', '=', 'x', ';', 'b'] ⟨[(['a'], .number (.signed 1))]⟩ ≠ .ok b :=
  ((evaluate_structuralFault {} _ .empty _).1 (.unknownOperator ['b']) .unknownOperator (by decide +kernel)
    rfl).1

end Query

end RecordFilter
