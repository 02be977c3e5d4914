import Mathlib.Data.List.Basic
import RecordFilter.Proofs.Clause.Parse
import RecordFilter.Record

/-! # Queries as trees

A tree says what a query means: its leaves are comparisons and the words for outcomes, its nodes
conjunctions and disjunctions of one or more trees, and any part of it may stand in parentheses that
mean nothing. `render` writes a tree as a query and `value` gives its truth value.

Parentheses cut a query into fragments. A fragment consists of what stands in its parentheses less
what stands in parentheses within: `own` lists the comparisons of a fragment, `inner` those of
the fragments within it, and `evaluationOrder` puts both in the order in which a query is
evaluated, groups before what surrounds them. -/

namespace RecordFilter.Query

/-! ## Trees -/

/-- The characters that mean something in a query, in a literal apart. -/
def structural : Text := ['(', ')', ';', ',', '\\', '=', '!', '<', '>']

/-- A text without structural characters. -/
def Plain (t : Text) : Prop := ∀ c ∈ structural, c ∉ t

instance (t : Text) : Decidable (Plain t) := List.decidableBAll _ _

/-- A comparison that is written without structural characters, its operator apart. -/
structure Comparison where
  clause : Clause
  selector_plain : Plain clause.selector
  literal_plain : Plain clause.literal

mutual

/-- A query as a tree. -/
inductive Tree where
  /-- The word for an outcome. -/
  | word (outcome : Bool)
  | comparison (c : Comparison)
  /-- A conjunction. -/
  | all (parts : Row)
  /-- A disjunction. -/
  | any (parts : Row)
  /-- A tree in parentheses that mean nothing. -/
  | group (t : Tree)

/-- One or more trees. -/
inductive Row where
  | last (t : Tree)
  | cons (t : Tree) (parts : Row)

end

/-! ## The text of a tree -/

/-- A text in parentheses. -/
def parenthesised (t : Text) : Text := '(' :: t ++ [')']

mutual

/-- The text of a tree. A disjunction stands in parentheses if it is `nested`, that is, a part of a
conjunction. -/
def renderIn (nested : Bool) : Tree → Text
  | .word outcome => Value.boolText outcome
  | .comparison c => c.clause.render
  | .all parts => renderRow true ';' parts
  | .any parts =>
    if nested then parenthesised (renderRow false ',' parts) else renderRow false ',' parts
  | .group t => parenthesised (renderIn false t)

/-- The texts of trees, with a separator between them. -/
def renderRow (nested : Bool) (separator : Char) : Row → Text
  | .last t => renderIn nested t
  | .cons t parts => renderIn nested t ++ separator :: renderRow nested separator parts

end

/-- The text of a tree as a query. -/
def Tree.render (t : Tree) : Text := renderIn false t

/-! ## The value of a tree -/

section Value

variable (v : Clause → Bool)

mutual

/-- The truth value of a tree, given those of comparisons. -/
def Tree.value : Tree → Bool
  | .word outcome => outcome
  | .comparison c => v c.clause
  | .all parts => parts.all
  | .any parts => parts.any
  | .group t => t.value

/-- Whether all trees of a row are true. -/
def Row.all : Row → Bool
  | .last t => t.value
  | .cons t parts => t.value && parts.all

/-- Whether some tree of a row is true. -/
def Row.any : Row → Bool
  | .last t => t.value
  | .cons t parts => t.value || parts.any

end

end Value

/-! ## The comparisons of a tree -/

mutual

/-- The comparisons of a tree, from left to right. -/
def Tree.comparisons : Tree → List Clause
  | .word _ => []
  | .comparison c => [c.clause]
  | .all parts => parts.comparisons
  | .any parts => parts.comparisons
  | .group t => t.comparisons

/-- The comparisons of trees, from left to right. -/
def Row.comparisons : Row → List Clause
  | .last t => t.comparisons
  | .cons t parts => t.comparisons ++ parts.comparisons

end

mutual

/-- The comparisons that stand in the fragment of a tree itself. -/
def own (nested : Bool) : Tree → List Clause
  | .word _ => []
  | .comparison c => [c.clause]
  | .all parts => ownRow true parts
  | .any parts => if nested then [] else ownRow false parts
  | .group _ => []

/-- The comparisons that stand in the fragment of a row itself. -/
def ownRow (nested : Bool) : Row → List Clause
  | .last t => own nested t
  | .cons t parts => own nested t ++ ownRow nested parts

end

mutual

/-- The comparisons of the fragments within that of a tree, fragment by fragment from left to
right, each with the fragments within it first and its own comparisons after them. -/
def inner (nested : Bool) : Tree → List Clause
  | .word _ => []
  | .comparison _ => []
  | .all parts => innerRow true parts
  | .any parts =>
    if nested then innerRow false parts ++ ownRow false parts else innerRow false parts
  | .group t => inner false t ++ own false t

/-- The comparisons of the fragments within that of a row. -/
def innerRow (nested : Bool) : Row → List Clause
  | .last t => inner nested t
  | .cons t parts => inner nested t ++ innerRow nested parts

end

/-- The comparisons of a tree in the order in which they are evaluated. -/
def Tree.evaluationOrder (t : Tree) : List Clause := inner false t ++ own false t

mutual

/-- A tree has its comparisons in its fragment and in those within. -/
theorem count_inner_own (nested : Bool) (c : Clause) : ∀ t : Tree,
    (inner nested t).count c + (own nested t).count c = t.comparisons.count c
  | .word _ => rfl
  | .comparison d => by simp [inner, own, Tree.comparisons]
  | .all parts => by
    simpa only [inner, own, Tree.comparisons] using count_innerRow_ownRow true c parts
  | .any parts => by
    have hparts := count_innerRow_ownRow false c parts
    cases nested <;> simpa [inner, own, Tree.comparisons] using hparts
  | .group t => by
    simpa [inner, own, Tree.comparisons] using count_inner_own false c t

theorem count_innerRow_ownRow (nested : Bool) (c : Clause) : ∀ parts : Row,
    (innerRow nested parts).count c + (ownRow nested parts).count c = parts.comparisons.count c
  | .last t => count_inner_own nested c t
  | .cons t parts => by
    have ht := count_inner_own nested c t
    have hparts := count_innerRow_ownRow nested c parts
    simp only [innerRow, ownRow, Row.comparisons, List.count_append]
    omega

end

/-- **Every comparison is evaluated**, and as often as it stands in the tree. -/
theorem Tree.evaluationOrder_perm (t : Tree) : t.evaluationOrder.Perm t.comparisons := by
  rw [List.perm_iff_count]
  intro c
  rw [Tree.evaluationOrder, List.count_append, count_inner_own]

end RecordFilter.Query
