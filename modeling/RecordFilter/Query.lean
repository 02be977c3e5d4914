import RecordFilter.Clause
import RecordFilter.Escape
import RecordFilter.Record

/-! # Queries

A query joins clauses by `,` (or) and `;` (and, which binds tighter) and groups them by parentheses.
Groups are resolved innermost first: the group that the first closing parenthesis ends is evaluated
and replaced by the word `true` or `false`, until no parenthesis is left. Every part of a group is
evaluated, even when the outcome is known, so an error is never passed over. -/

namespace RecordFilter.Query

/-- A group within an expression: `before ++ "(" ++ body ++ ")" ++ after`. -/
structure Group where
  before : Text
  body : Text
  after : Text
  deriving DecidableEq, Repr

/-- The group that the first closing parenthesis ends, if the expression has any parenthesis. -/
def innermostGroup? (expression : Text) : Except QueryError (Option Group) :=
  match expression.splitFirst? ')' with
  | some (left, after) =>
    match left.splitLast? '(' with
    | some (before, body) => .ok (some ⟨before, body, after⟩)
    | none => .error (.extraClosingParenthesis left.byteLength)
  | none => if '(' ∈ expression then .error .unclosedParenthesis else .ok none

/-- An expression in which a group is replaced by the word for its outcome. -/
def Group.replace (g : Group) (outcome : Bool) : Text :=
  g.before ++ Value.boolText outcome ++ g.after

/-- A group and its parentheses make up the expression. -/
theorem eq_of_innermostGroup? {expression : Text} {g : Group}
    (h : innermostGroup? expression = .ok (some g)) :
    expression = g.before ++ '(' :: g.body ++ ')' :: g.after := by
  rw [innermostGroup?] at h
  split at h
  next left after hf =>
    split at h
    next before body hl =>
      obtain rfl : Group.mk before body after = g := by simpa using h
      simp [Text.eq_of_splitFirst? hf, Text.eq_of_splitLast? hl]
    next => simp at h
  next => split at h <;> simp at h

/-- The word for an outcome has no parenthesis. -/
theorem count_boolText (b : Bool) : (Value.boolText b).count '(' = 0 := by
  cases b <;> decide

/-- Replacing a group takes one opening parenthesis away. -/
theorem Group.count_replace_lt {expression : Text} {g : Group}
    (h : innermostGroup? expression = .ok (some g)) (outcome : Bool) :
    (g.replace outcome).count '(' < expression.count '(' := by
  have close : (')' == '(') = false := rfl
  rw [eq_of_innermostGroup? h]
  simp only [Group.replace, List.count_append, List.count_cons, count_boolText, close,
    beq_self_eq_true, if_true]
  omega

/-- Evaluate a part that no operator joins: one of the words `true` and `false`, or a clause. -/
def dispatch (s : Settings) (r : Record) (part : Text) : Except QueryError Bool :=
  if part = Value.boolText true then .ok true
  else if part = Value.boolText false then .ok false
  else match Clause.parse? part with
    | some c => c.matchesValue s (r.field c.selector)
    | none => .error (.unknownOperator part)

/-- Evaluate an expression without parentheses: some part between commas has to hold, and it holds
if all its parts between semicolons do. -/
def combine (s : Settings) (r : Record) (expression : Text) : Except QueryError Bool := do
  let branches ← (expression.splitOn ',').mapM fun branch => do
    let parts ← (branch.splitOn ';').mapM (dispatch s r)
    return parts.all id
  return branches.any id

/-- Evaluate an expression in which reserved words are no longer escaped. -/
def resolve (s : Settings) (r : Record) (expression : Text) : Except QueryError Bool :=
  match _hg : innermostGroup? expression with
  | .error e => .error e
  | .ok none => combine s r expression
  | .ok (some g) => do
    let outcome ← combine s r g.body
    resolve s r (g.replace outcome)
termination_by expression.count '('
decreasing_by exact Group.count_replace_lt _hg outcome

/-- Evaluate a query on a record. -/
def evaluate (s : Settings) (query : Text) (r : Record) : Except QueryError Bool :=
  resolve s r (escape query)

/-! ## Collections -/

variable {α : Type} [ToRecord α]

/-- Evaluate a query on a thing that has a record. -/
def evaluateOn (s : Settings) (query : Text) (item : α) : Except QueryError Bool :=
  evaluate s query (ToRecord.toRecord item)

/-- The items that match a query, in order. The first error ends the search. -/
def filter (s : Settings) (query : Text) : List α → Except QueryError (List α)
  | [] => return []
  | item :: items => do
    let hit ← evaluateOn s query item
    let rest ← filter s query items
    return if hit then item :: rest else rest

/-- The number of items that match a query. -/
def count (s : Settings) (query : Text) (items : List α) : Except QueryError Nat :=
  return (← filter s query items).length

/-- The first item that matches a query. Items after it are not evaluated. -/
def find? (s : Settings) (query : Text) : List α → Except QueryError (Option α)
  | [] => return none
  | item :: items => do
    let hit ← evaluateOn s query item
    if hit then return some item else find? s query items

end RecordFilter.Query
