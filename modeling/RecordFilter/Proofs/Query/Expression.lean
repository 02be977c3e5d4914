import Mathlib.Data.List.Basic
import RecordFilter.Proofs.Result
import RecordFilter.Query

/-! # Expressions without parentheses

`combine` cuts an expression at its commas, each branch at its semicolons, and evaluates the parts.
Here it is taken apart by one separator at a time: a comma joins two expressions as a disjunction
(`combine_append`), a semicolon two branches as a conjunction (`conjunction_append`), and every part
is evaluated, so the errors of the left one come first. -/

namespace RecordFilter.Query

variable {s : Settings} {r : Record}

/-! ## Parts -/

/-- A character that no word for an outcome holds. -/
def OutsideWords (c : Char) : Prop := ∀ b, c ∉ Value.boolText b

instance (c : Char) : Decidable (OutsideWords c) :=
  decidable_of_iff (c ∉ Value.boolText true ∧ c ∉ Value.boolText false)
    ⟨fun h b => by cases b; exacts [h.2, h.1], fun h => ⟨h true, h false⟩⟩

/-- The word for an outcome has that outcome. -/
@[simp] theorem dispatch_boolText (b : Bool) : dispatch s r (Value.boolText b) = .ok b := by
  cases b <;> rfl

/-- A part that is no word is a comparison, or nothing at all. -/
theorem dispatch_of_ne {part : Text} (h : ∀ b, part ≠ Value.boolText b) :
    dispatch s r part = match Clause.parse? part with
      | some c => c.matchesValue s (r.field c.selector)
      | none => .error (.unknownOperator part) :=
  (if_neg (h true)).trans (if_neg (h false))

/-! ## Branches -/

variable (s r) in
/-- Evaluate a branch of an expression, which has no commas. -/
def conjunction (branch : Text) : Except QueryError Bool := do
  let parts ← (branch.splitOn ';').mapM (dispatch s r)
  return parts.all id

/-- A branch without semicolons is a part. -/
theorem conjunction_of_notMem {branch : Text} (h : ';' ∉ branch) :
    conjunction s r branch = dispatch s r branch := by
  rw [conjunction, List.splitOn_eq_singleton h, List.mapM_cons, List.mapM_nil]
  cases dispatch s r branch <;> simp

/-- A semicolon joins two branches. -/
theorem conjunction_append (a b : Text) :
    conjunction s r (a ++ ';' :: b) =
      conjunction s r a >>= fun x => conjunction s r b >>= fun y => .ok (x && y) := by
  simp only [conjunction, List.splitOn_append_cons_self, List.mapM_append, bind_assoc, pure_eq_ok,
    ok_bind, List.all_append]

/-! ## Expressions -/

/-- An expression without commas is a branch. -/
theorem combine_of_notMem {expression : Text} (h : ',' ∉ expression) :
    combine s r expression = conjunction s r expression := by
  rw [combine, List.splitOn_eq_singleton h, List.mapM_cons, List.mapM_nil, ← conjunction]
  cases conjunction s r expression <;> simp

/-- A comma joins two expressions. -/
theorem combine_append (a b : Text) :
    combine s r (a ++ ',' :: b) =
      combine s r a >>= fun x => combine s r b >>= fun y => .ok (x || y) := by
  simp only [combine, List.splitOn_append_cons_self, List.mapM_append, bind_assoc, pure_eq_ok,
    ok_bind, List.any_append]

/-- A part without separators is an expression of its own. -/
theorem combine_eq_dispatch {part : Text} (hc : ',' ∉ part) (hs : ';' ∉ part) :
    combine s r part = dispatch s r part := by
  rw [combine_of_notMem hc, conjunction_of_notMem hs]

/-- The word for an outcome has that outcome. -/
@[simp] theorem combine_boolText (b : Bool) : combine s r (Value.boolText b) = .ok b := by
  cases b <;> rfl

end RecordFilter.Query
