import RecordFilter.Error

/-! # Results of steps that may fail

An evaluation is a chain of steps, each of which yields a value or an error. This module holds the
equations that run such a chain, the two ways to take a chain apart that has come to its end, and
`FailsWith P`, which says that a step has no error but those with the property `P`. -/

namespace RecordFilter

section Chain

variable {ε α β : Type}

@[simp] theorem pure_eq_ok (a : α) : (pure a : Except ε α) = .ok a := rfl

@[simp] theorem ok_bind (a : α) (f : α → Except ε β) : (Except.ok a >>= f) = f a := rfl

@[simp] theorem error_bind (e : ε) (f : α → Except ε β) :
    (Except.error e >>= f) = .error e := rfl

@[simp] theorem map_ok (f : α → β) (a : α) : (Except.ok a : Except ε α).map f = .ok (f a) := rfl

@[simp] theorem map_error (f : α → β) (e : ε) :
    (Except.error e : Except ε α).map f = .error e := rfl

@[simp] theorem mapError_ok {γ : Type} (f : ε → γ) (a : α) :
    (Except.ok a : Except ε α).mapError f = .ok a := rfl

@[simp] theorem mapError_error {γ : Type} (f : ε → γ) (e : ε) :
    (Except.error e : Except ε α).mapError f = .error (f e) := rfl

/-- A chain succeeds if its first step does and then the rest. -/
theorem bind_eq_ok_iff {x : Except ε α} {f : α → Except ε β} {b : β} :
    x >>= f = .ok b ↔ ∃ a, x = .ok a ∧ f a = .ok b := by
  cases x <;> simp

/-- A chain fails in its first step, or in the rest once the first step has succeeded. -/
theorem bind_eq_error_iff {x : Except ε α} {f : α → Except ε β} {e : ε} :
    x >>= f = .error e ↔ x = .error e ∨ ∃ a, x = .ok a ∧ f a = .error e := by
  cases x <;> simp

/-- A chain that goes on to a value, whatever its first step yields, succeeds where that step does. -/
theorem exists_bind_eq_ok_iff {x : Except ε α} {f : α → β} :
    (∃ b, (x >>= fun a => .ok (f a)) = .ok b) ↔ ∃ a, x = .ok a := by
  cases x <;> simp

/-- A chain that goes on to a value changes what its first step yields. -/
theorem bind_ok_eq_map {x : Except ε α} {f : α → β} : (x >>= fun a => .ok (f a)) = x.map f := by
  cases x <;> rfl

/-- An error that has been put in other words comes from one of the step itself. -/
theorem mapError_eq_error_iff {γ : Type} {x : Except ε α} {f : ε → γ} {e : γ} :
    x.mapError f = .error e ↔ ∃ fault, x = .error fault ∧ f fault = e := by
  cases x <;> simp

/-- Putting errors in other words leaves a success as it is. -/
theorem mapError_eq_ok_iff {γ : Type} {x : Except ε α} {f : ε → γ} {a : α} :
    x.mapError f = .ok a ↔ x = .ok a := by
  cases x <;> simp

/-- A value that has been changed comes from one of the step itself. -/
theorem map_eq_ok_iff {x : Except ε α} {f : α → β} {b : β} :
    x.map f = .ok b ↔ ∃ a, x = .ok a ∧ f a = b := by
  cases x <;> simp

/-- A value that has been changed is not what a step fails with. -/
theorem map_eq_error_iff {x : Except ε α} {f : α → β} {e : ε} :
    x.map f = .error e ↔ x = .error e := by
  cases x <;> simp

/-- A verdict is denied where it was given. -/
theorem map_not_eq_ok_iff {x : Except ε Bool} {b : Bool} : x.map not = .ok (!b) ↔ x = .ok b := by
  cases x <;> simp

/-- A row of steps depends only on the steps at its elements. -/
theorem mapM_congr_left {f g : α → Except ε β} {as : List α} (h : ∀ a ∈ as, f a = g a) :
    as.mapM f = as.mapM g := by
  induction as with
  | nil => rfl
  | cons a as ih =>
    rw [List.forall_mem_cons] at h
    rw [List.mapM_cons, List.mapM_cons, h.1, ih h.2]

/-- A test that takes a failure for a refusal is passed where the step, failures and all, comes to a
value that passes. -/
theorem any_toOption_eq_true_iff {x : Except ε α} {p : α → Bool} :
    x.toOption.any p = true ↔ (x >>= fun a => .ok (p a)) = .ok true := by
  cases x with
  | error e => simp [Except.toOption]
  | ok a => simp [Except.toOption]

end Chain

/-- No error of a result lacks the property `P`. -/
def FailsWith {α : Type} (P : QueryError → Prop) (x : Except QueryError α) : Prop :=
  ∀ e, x = .error e → P e

namespace FailsWith

variable {α β : Type} {P Q : QueryError → Prop} {x : Except QueryError α}

/-- A success is no failure. -/
@[simp] theorem ok (a : α) : FailsWith P (.ok a) := by
  intro e h
  cases h

/-- An error is the only one of its result. -/
@[simp] theorem error_iff {e : QueryError} :
    FailsWith P (.error e : Except QueryError α) ↔ P e := by
  simp [FailsWith]

/-- The errors of a chain are those of its steps. -/
theorem bind {f : α → Except QueryError β} (hx : FailsWith P x) (hf : ∀ a, FailsWith P (f a)) :
    FailsWith P (x >>= f) := by
  intro e h
  rcases bind_eq_error_iff.1 h with h | ⟨a, -, h⟩
  · exact hx e h
  · exact hf a e h

/-- The errors of a row of steps are those of the steps. -/
theorem mapM {γ : Type} {f : γ → Except QueryError α} (hf : ∀ c, FailsWith P (f c)) (cs : List γ) :
    FailsWith P (cs.mapM f) := by
  induction cs with
  | nil => simp
  | cons c cs ih =>
    rw [List.mapM_cons]
    exact (hf c).bind fun a => ih.bind fun as => by simp

/-- The errors of a search are those of the tests it makes. -/
theorem anyM {γ : Type} {f : γ → Except QueryError Bool} (hf : ∀ c, FailsWith P (f c))
    (cs : List γ) : FailsWith P (cs.anyM f) := by
  induction cs with
  | nil => exact ok false
  | cons c cs ih =>
    refine (hf c).bind fun hit => ?_
    cases hit with
    | true => exact ok true
    | false => exact ih

/-- Errors with one property have every weaker one. -/
theorem mono (hx : FailsWith P x) (h : ∀ e, P e → Q e) : FailsWith Q x :=
  fun e he => h e (hx e he)

end FailsWith

end RecordFilter
