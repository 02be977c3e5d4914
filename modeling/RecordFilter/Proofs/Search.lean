import Mathlib.Data.List.Perm.Basic
import RecordFilter.Proofs.Result

/-! # Searches that may fail

A search takes a row from left to right and stops where a test succeeds or fails. `IsReached` says
which elements of the row it gets to, and `anyM_eq_iff` that all it can come to, apart from having
been refused throughout, is what the test says of one of these. Where no test fails, the order of
the row does not matter (`anyM_perm`), and the search is a disjunction (`isDisjunction_anyM`). A
laxer test makes a laxer search (`IsLaxer.anyM`). -/

namespace RecordFilter

variable {ε α : Type} {test : α → Except ε Bool} {row : List α}

/-! ## The elements a search gets to -/

/-- A search gets to an element if the test refuses all those in front of it. -/
def IsReached (test : α → Except ε Bool) (row : List α) (x : α) : Prop :=
  ∃ before after, row = before ++ x :: after ∧ ∀ y ∈ before, test y = .ok false

/-- A search of the empty row gets to nothing. -/
@[simp] theorem not_isReached_nil (x : α) : ¬IsReached test [] x := by
  rintro ⟨before, after, hrow, -⟩
  exact List.append_ne_nil_of_right_ne_nil before (List.cons_ne_nil x after) hrow.symm

/-- A search gets to the first element and, if that is refused, to what it gets to in the rest. -/
theorem isReached_cons_iff {x y : α} :
    IsReached test (y :: row) x ↔ x = y ∨ test y = .ok false ∧ IsReached test row x := by
  constructor
  · rintro ⟨before, after, hrow, hbefore⟩
    cases before with
    | nil => exact .inl (List.cons.inj hrow).1.symm
    | cons z before =>
      obtain ⟨rfl, rfl⟩ := List.cons.inj hrow
      have hy : test y = .ok false := hbefore y List.mem_cons_self
      have htail : ∀ z ∈ before, test z = .ok false :=
        fun z hz => hbefore z (List.mem_cons_of_mem y hz)
      exact .inr ⟨hy, before, after, rfl, htail⟩
  · rintro (rfl | ⟨hy, before, after, rfl, hbefore⟩)
    · exact ⟨[], row, rfl, fun z hz => absurd hz List.not_mem_nil⟩
    · exact ⟨y :: before, after, rfl, List.forall_mem_cons.2 ⟨hy, hbefore⟩⟩

/-! ## Searches -/

/-- A search of one element comes to what the test says of it. -/
@[simp] theorem anyM_singleton (x : α) : [x].anyM test = test x := by
  rw [List.anyM_cons, List.anyM_nil]
  cases test x with
  | error e => rfl
  | ok hit => cases hit <;> rfl

/-- A search of two rows in turn goes on to the second if the first has been refused throughout. -/
theorem anyM_append (row₁ row₂ : List α) :
    (row₁ ++ row₂).anyM test =
      row₁.anyM test >>= fun hit => if hit then .ok true else row₂.anyM test := by
  induction row₁ with
  | nil => rfl
  | cons x row₁ ih =>
    rw [List.cons_append, List.anyM_cons, List.anyM_cons]
    cases test x with
    | error e => rfl
    | ok hit =>
      cases hit with
      | true => rfl
      | false => exact ih

/-- Two tests that say the same of every element make the same search. -/
theorem anyM_congr {other : α → Except ε Bool} (h : ∀ x ∈ row, test x = other x) :
    row.anyM test = row.anyM other := by
  induction row with
  | nil => rfl
  | cons x row ih =>
    have hx : test x = other x := h x List.mem_cons_self
    have hrow : row.anyM test = row.anyM other := ih fun y hy => h y (List.mem_cons_of_mem x hy)
    rw [List.anyM_cons, List.anyM_cons, hx, hrow]

/-- **A search comes to what the test says of an element it gets to**, unless all are refused. -/
theorem anyM_eq_iff {outcome : Except ε Bool} (h : outcome ≠ .ok false) :
    row.anyM test = outcome ↔ ∃ x, IsReached test row x ∧ test x = outcome := by
  induction row with
  | nil => simpa using h.symm
  | cons y row ih =>
    rw [List.anyM_cons]
    simp only [isReached_cons_iff, or_and_right, exists_or, exists_eq_left]
    cases hy : test y with
    | error e => simp
    | ok hit =>
      cases hit with
      | true => simp
      | false =>
        -- The first element is refused, so it is not what the search comes to.
        simpa [h.symm] using ih

/-- A search finds nothing if all elements are refused, and only then. -/
theorem anyM_eq_false_iff : row.anyM test = .ok false ↔ ∀ x ∈ row, test x = .ok false := by
  induction row with
  | nil => simp
  | cons y row ih =>
    rw [List.anyM_cons, List.forall_mem_cons]
    cases hy : test y with
    | error e => simp
    | ok hit =>
      cases hit with
      | true => simp
      | false => simpa using ih

/-- A search that cannot fail asks whether some element passes the test. -/
theorem anyM_eq_any (h : ∀ x ∈ row, ∀ e, test x ≠ .error e) :
    row.anyM test = .ok (row.any fun x => (test x).toOption.any id) := by
  induction row with
  | nil => rfl
  | cons y row ih =>
    have hrow := ih fun x hx => h x (List.mem_cons_of_mem y hx)
    rw [List.anyM_cons, List.any_cons, hrow]
    cases hy : test y with
    | error e => exact absurd hy (h y List.mem_cons_self e)
    | ok hit => cases hit <;> rfl

/-- **The order of a row does not matter** to a search that cannot fail. -/
theorem anyM_perm {other : List α} (hperm : other.Perm row)
    (h : ∀ x ∈ row, ∀ e, test x ≠ .error e) : other.anyM test = row.anyM test := by
  have hother : ∀ x ∈ other, ∀ e, test x ≠ .error e := fun x hx => h x (hperm.subset hx)
  rw [anyM_eq_any h, anyM_eq_any hother, hperm.any_eq]

/-! ## Disjunctions -/

/-- A result is the disjunction of others: it is a success if they all are, and only then, and it
is a match if one of them is. -/
def IsDisjunction (whole : Except ε Bool) (parts : List (Except ε Bool)) : Prop :=
  ∀ b, whole = .ok b ↔ (∀ part ∈ parts, ∃ hit, part = .ok hit) ∧ (b = true ↔ .ok true ∈ parts)

/-- **A search behind a gate is a disjunction** of tests that succeed where the steps of the search
do, with the same outcome, if the gate lets through exactly those rows that no step fails on. -/
theorem isDisjunction_anyM {β : Type} {gate : Except ε β} {step : α → Except ε Bool}
    (htest : ∀ x ∈ row, ∀ b, test x = .ok b ↔ step x = .ok b)
    (hgate : (∃ a, gate = .ok a) ↔ ∀ x ∈ row, ∃ b, step x = .ok b) :
    IsDisjunction (gate >>= fun _ => row.anyM step) (row.map test) := by
  intro b
  have hsuccess : (∀ part ∈ row.map test, ∃ hit, part = .ok hit) ↔ ∃ a, gate = .ok a := by
    rw [hgate, List.forall_mem_map]
    exact forall₂_congr fun x hx => exists_congr (htest x hx)
  have hmatch : .ok true ∈ row.map test ↔ ∃ x ∈ row, step x = .ok true := by
    rw [List.mem_map]
    exact exists_congr fun x => and_congr_right fun hx => htest x hx true
  rw [hsuccess, hmatch]
  cases hg : gate with
  | error e => simp
  | ok a =>
    have htotal : ∀ x ∈ row, ∀ e, step x ≠ .error e := by
      intro x hx e he
      obtain ⟨b, hb⟩ := hgate.1 ⟨a, hg⟩ x hx
      rw [he] at hb
      cases hb
    have hhit : ∀ x, (step x).toOption.any id = true ↔ step x = .ok true := by
      intro x
      cases step x <;> simp [Except.toOption]
    rw [ok_bind, anyM_eq_any htotal]
    simp only [Except.ok.injEq, exists_eq', true_and, ← hhit, ← List.any_eq_true]
    rw [eq_comm, Bool.eq_iff_iff]

/-! ## Laxer tests -/

/-- A result is laxer than another if it is a match or else the same. -/
def IsLaxer (lax strict : Except ε Bool) : Prop := lax = .ok true ∨ lax = strict

namespace IsLaxer

variable {lax strict : Except ε Bool}

/-- A laxer result matches where the other does. -/
theorem eq_true (h : IsLaxer lax strict) (hstrict : strict = .ok true) : lax = .ok true := by
  rcases h with h | h
  · exact h
  · rw [h, hstrict]

/-- A result is refused where a laxer one is. -/
theorem eq_false (h : IsLaxer lax strict) (hlax : lax = .ok false) : strict = .ok false := by
  rcases h with h | h
  · rw [h] at hlax
    cases hlax
  · rw [← h, hlax]

/-- Of two successes, the laxer one matches where the other does. -/
theorem of_imp {a b : Bool} (h : b = true → a = true) :
    IsLaxer (.ok a : Except ε Bool) (.ok b) := by
  cases b with
  | true => exact .inl (congrArg _ (h rfl))
  | false =>
    cases a with
    | true => exact .inl rfl
    | false => exact .inr rfl

/-- A chain is laxer if it goes on to something laxer. -/
theorem bind {x : Except ε α} {f g : α → Except ε Bool} (h : ∀ a, IsLaxer (f a) (g a)) :
    IsLaxer (x >>= f) (x >>= g) := by
  cases x with
  | error e => exact .inr rfl
  | ok a => exact h a

/-- **A search with a laxer test is laxer**: it may match before it gets to what the other search
fails on. -/
theorem anyM {laxTest strictTest : α → Except ε Bool}
    (h : ∀ x ∈ row, IsLaxer (laxTest x) (strictTest x)) :
    IsLaxer (row.anyM laxTest) (row.anyM strictTest) := by
  induction row with
  | nil => exact .inr rfl
  | cons x row ih =>
    rw [List.forall_mem_cons] at h
    rw [List.anyM_cons, List.anyM_cons]
    rcases h.1 with hx | hx
    · rw [hx]
      exact .inl rfl
    · rw [hx]
      apply bind
      intro hit
      cases hit with
      | true => exact .inr rfl
      | false => exact ih h.2

end IsLaxer

end RecordFilter
