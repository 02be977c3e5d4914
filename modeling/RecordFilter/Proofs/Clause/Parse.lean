import RecordFilter.Clause
import RecordFilter.Proofs.Text.Cut

/-! # Comparisons as texts

A comparison is written as its selector, the token of its operator and its literal. Where neither
selector nor literal has a character that operators begin or go on with, the operator is found
where it was put, since no other token starts before it or overlaps it (`parse?_render`). Of a
selector with such characters it is still known that the operator behind it is the one that was put
there, if the selector is read back at all (`operator_of_parse?`). A text in which operators occur
is split in exactly one way (`parse?_eq_some_iff`): at the operator that goes first, where it occurs
first. -/

namespace RecordFilter

/-- Every operator is looked for. -/
theorem Operator.mem_priority (operator : Operator) : operator ∈ priority := by
  cases operator <;> decide

namespace Clause

/-- A comparison as it is written. -/
def render (c : Clause) : Text := c.selector ++ (c.operator.token ++ c.literal)

/-- A text without the characters that start and end the tokens of operators. -/
def OperatorFree (t : Text) : Prop := '=' ∉ t ∧ '!' ∉ t ∧ '<' ∉ t ∧ '>' ∉ t

/-- The characters that tokens of operators are made of. -/
theorem token_subset (operator : Operator) : operator.token ⊆ ['=', '!', '<', '>', '#'] := by
  cases operator <;> simp [Operator.token]

/-- A token starts and ends with a character that no operator-free text has. -/
theorem exists_token_ends (operator : Operator) :
    ∃ first rest last, operator.token = first :: rest ∧ operator.token.getLast? = some last ∧
      ∀ t, OperatorFree t → first ∉ t ∧ last ∉ t := by
  cases operator
  case equal => exact ⟨'=', _, '=', rfl, rfl, fun t h => ⟨h.1, h.1⟩⟩
  case equalCase => exact ⟨'=', _, '=', rfl, rfl, fun t h => ⟨h.1, h.1⟩⟩
  case notEqualCase => exact ⟨'!', _, '=', rfl, rfl, fun t h => ⟨h.2.1, h.1⟩⟩
  case notEqual => exact ⟨'!', _, '=', rfl, rfl, fun t h => ⟨h.2.1, h.1⟩⟩
  case atLeast => exact ⟨'>', _, '=', rfl, rfl, fun t h => ⟨h.2.2.2, h.1⟩⟩
  case atMost => exact ⟨'<', _, '=', rfl, rfl, fun t h => ⟨h.2.2.1, h.1⟩⟩
  case above => exact ⟨'>', _, '>', rfl, rfl, fun t h => ⟨h.2.2.2, h.2.2.2⟩⟩
  case below => exact ⟨'<', _, '<', rfl, rfl, fun t h => ⟨h.2.2.1, h.2.2.1⟩⟩

/-- Between operator-free texts a token occurs only within what stands there. -/
theorem breakAt?_between (operator : Operator) {a b : Text} (ha : OperatorFree a)
    (hb : OperatorFree b) (t : Text) :
    Text.breakAt? operator.token (a ++ (t ++ b)) =
      (Text.breakAt? operator.token t).map fun (x, y) => (a ++ x, y ++ b) := by
  obtain ⟨first, rest, last, htoken, hlast, hfree⟩ := exists_token_ends operator
  rw [htoken, Text.breakAt?_append (hfree a ha).1, ← htoken,
    Text.breakAt?_append_right hlast (hfree b hb).2, Option.map_map]
  rfl

/-- **A comparison is read back** from its text if its selector and its literal are
operator-free. -/
theorem parse?_render {c : Clause} (hs : OperatorFree c.selector) (hl : OperatorFree c.literal) :
    parse? c.render = some c := by
  obtain ⟨selector, operator, literal⟩ := c
  simp only [parse?, render, breakAt?_between _ hs hl, Option.map_map]
  -- What is left is which tokens occur within which: none within one that is looked for later.
  cases operator <;> simp [Operator.priority, Operator.token, Text.breakAt?, List.isPrefixOf?]

/-! ## What is read off a text -/

/-- A text can be read as a comparison unless no operator occurs in it. -/
theorem parse?_eq_none_iff {t : Text} : parse? t = none ↔
    ∀ operator : Operator, ¬operator.token <:+: t := by
  rw [parse?, List.findSome?_eq_none_iff]
  simp only [Option.map_eq_none_iff, Text.breakAt?_eq_none_iff]
  exact forall_congr' fun operator => forall_prop_of_true (Operator.mem_priority operator)

/-- A comparison is written as the text that it has been read from. -/
theorem render_of_parse? {t : Text} {c : Clause} (h : parse? t = some c) : c.render = t := by
  obtain ⟨operator, -, hoperator⟩ := List.exists_of_findSome?_eq_some h
  obtain ⟨⟨selector, literal⟩, hbreak, rfl⟩ := Option.map_eq_some_iff.1 hoperator
  exact (Text.eq_of_breakAt? hbreak).symm

/-- An operator that is looked for before the one that is found does not occur. -/
theorem not_infix_of_parse? {t : Text} {c : Clause} (h : parse? t = some c) {operator : Operator}
    (hlt : Operator.priority.idxOf operator < Operator.priority.idxOf c.operator) :
    ¬operator.token <:+: t := by
  obtain ⟨earlier, found, later, hpriority, hfound, hearlier⟩ := List.findSome?_eq_some_iff.1 h
  obtain ⟨⟨selector, literal⟩, -, rfl⟩ := Option.map_eq_some_iff.1 hfound
  have hmem : operator ∈ earlier := by
    by_contra hmem
    simp only [hpriority, List.idxOf_append, if_neg hmem, List.idxOf_cons_self] at hlt
    split at hlt
    next hin =>
      have hle := List.idxOf_lt_length_of_mem hin
      omega
    next => omega
  exact Text.breakAt?_eq_none_iff.1 (Option.map_eq_none_iff.1 (hearlier operator hmem))

/-- The operator that is found does not occur before the place at which the text is split. -/
theorem length_selector_le_of_parse? {t : Text} {c : Clause} (h : parse? t = some c) {a b : Text}
    (ht : a ++ (c.operator.token ++ b) = t) : c.selector.length ≤ a.length := by
  obtain ⟨operator, -, hoperator⟩ := List.exists_of_findSome?_eq_some h
  obtain ⟨⟨selector, literal⟩, hbreak, rfl⟩ := Option.map_eq_some_iff.1 hoperator
  exact Text.length_le_of_breakAt? hbreak ht

/-- A way to split a text into a comparison: at the operator that goes first of those that occur in
the text, and at the first of its occurrences. -/
structure IsSplitOf (c : Clause) (t : Text) : Prop where
  /-- Selector, token and literal make up the text. -/
  render_eq : c.render = t
  /-- No occurrence of the token starts before the end of the selector. -/
  isFirst : ∀ a b, a ++ (c.operator.token ++ b) = t → c.selector.length ≤ a.length
  /-- No operator that is looked for earlier occurs anywhere. -/
  goesFirst : ∀ operator,
    Operator.priority.idxOf operator < Operator.priority.idxOf c.operator →
      ¬operator.token <:+: t

namespace IsSplitOf

variable {c c' : Clause} {t : Text}

/-- The operator of a split occurs in the text. -/
theorem occurs (h : c.IsSplitOf t) : c.operator.token <:+: t := by
  rw [← h.render_eq, render, ← List.append_assoc]
  exact List.infix_append c.selector c.operator.token c.literal

/-- There is one way to split a text. -/
theorem unique (h : c.IsSplitOf t) (h' : c'.IsSplitOf t) : c = c' := by
  have hoperator : c.operator = c'.operator := by
    have hle := Nat.not_lt.1 fun hlt => h.goesFirst c'.operator hlt h'.occurs
    have hge := Nat.not_lt.1 fun hlt => h'.goesFirst c.operator hlt h.occurs
    exact (List.idxOf_inj (Operator.mem_priority c.operator)).1 (Nat.le_antisymm hle hge)
  have hlength : c.selector.length = c'.selector.length := by
    apply Nat.le_antisymm
    · exact h.isFirst _ c'.literal (by rw [hoperator]; exact h'.render_eq)
    · exact h'.isFirst _ c.literal (by rw [← hoperator]; exact h.render_eq)
  obtain ⟨hselector, hrest⟩ := List.append_inj (h.render_eq.trans h'.render_eq.symm) hlength
  rw [hoperator] at hrest
  have hliteral : c.literal = c'.literal := List.append_cancel_left hrest
  rw [show c = ⟨c.selector, c.operator, c.literal⟩ from rfl, hselector, hoperator, hliteral]

end IsSplitOf

/-- **A comparison is read from a text exactly if it is the way to split it.** -/
theorem parse?_eq_some_iff {t : Text} {c : Clause} : parse? t = some c ↔ c.IsSplitOf t := by
  have hsplit : ∀ {c}, parse? t = some c → c.IsSplitOf t := fun h =>
    ⟨render_of_parse? h, fun a b => length_selector_le_of_parse? h,
      fun operator => not_infix_of_parse? h⟩
  constructor
  · exact hsplit
  · intro h
    cases hparse : parse? t with
    | none => exact absurd h.occurs (parse?_eq_none_iff.1 hparse c.operator)
    | some c' => rw [h.unique (hsplit hparse)]

/-- An operator-free text behind a comparison belongs to its literal. -/
theorem parse?_append {b : Text} (hb : OperatorFree b) (t : Text) :
    parse? (t ++ b) = (parse? t).map fun c => { c with literal := c.literal ++ b } := by
  rw [parse?, parse?, List.map_findSome?]
  congr 1
  funext operator
  obtain ⟨first, rest, last, -, hlast, hfree⟩ := exists_token_ends operator
  rw [Text.breakAt?_append_right hlast (hfree b hb).2, Option.map_map, Function.comp_apply,
    Option.map_map]
  rfl

/-- Of two tokens that start the same text, the shorter goes on with an equals sign in the longer,
which is looked for first. -/
theorem token_cases {operator operator' : Operator} {a b : Text}
    (h : operator'.token ++ a = operator.token ++ b) :
    operator' = operator ∨ '=' ∈ b ∨
      Operator.priority.idxOf operator < Operator.priority.idxOf operator' := by
  cases operator <;> cases operator' <;> simp [Operator.token] at h ⊢
  case above.atLeast => simp [← h]
  case below.atMost => simp [← h]
  case atLeast.above => exact .inr (by decide)
  case atMost.below => exact .inr (by decide)

/-- **Where the selector ends, the operator is known**: with an operator-free literal behind it, no
other can be found in its place. -/
theorem operator_of_parse? {selector literal literal' : Text} {operator operator' : Operator}
    (hliteral : OperatorFree literal)
    (h : parse? (selector ++ (operator.token ++ literal)) = some ⟨selector, operator', literal'⟩) :
    operator' = operator := by
  have htokens : operator'.token ++ literal' = operator.token ++ literal :=
    List.append_cancel_left (render_of_parse? h)
  rcases token_cases htokens with heq | hmem | hlt
  · exact heq
  · exact absurd hmem hliteral.1
  · -- The longer token occurs, so the shorter would not have been looked for.
    rw [← List.append_assoc] at h
    exact absurd (List.infix_append selector operator.token literal) (not_infix_of_parse? h hlt)

/-! ## Splits -/

/-- **A text is split exactly.** It cannot be read as a comparison if no operator occurs in it, and
only then. Else it is read as the one comparison that makes it up again, whose operator goes first
of all those that occur, and whose selector ends where that operator occurs first. Between
operator-free texts, whatever else is in them, every operator is found where it was put. -/
theorem parse?_splits :
    (∀ t, parse? t = none ↔ ∀ operator : Operator, ¬operator.token <:+: t) ∧
    (∀ t c, parse? t = some c ↔ c.IsSplitOf t) ∧
    ∀ (operator : Operator) selector literal, OperatorFree selector → OperatorFree literal →
      parse? (selector ++ (operator.token ++ literal)) = some ⟨selector, operator, literal⟩ := by
  refine ⟨fun t => parse?_eq_none_iff, fun t c => parse?_eq_some_iff, ?_⟩
  intro operator selector literal hselector hliteral
  exact parse?_render (c := ⟨selector, operator, literal⟩) hselector hliteral

/-- The exclamation mark belongs to the selector, since `==` goes before `!=`, which overlaps it. A
number sign on either side of `!#=` makes no other operator. -/
theorem parse?_splits_overlaps :
    IsSplitOf ⟨['x', '!'], .equal, ['>', 'é']⟩ ['x', '!', '=', '=', '>', 'é'] ∧
      OperatorFree ['é', '#'] ∧
      parse? ['é', '#', '!', '#', '=', '#'] = some ⟨['é', '#'], .notEqualCase, ['#']⟩ ∧
      ∀ operator : Operator, ¬operator.token <:+: ['a', '=', 'b'] := by
  obtain ⟨hnone, hsome, hfound⟩ := parse?_splits
  have hselector : OperatorFree ['é', '#'] := by simp [OperatorFree]
  exact ⟨(hsome _ _).1 rfl, hselector, hfound .notEqualCase _ ['#'] hselector (by simp [OperatorFree]),
    (hnone _).1 rfl⟩

end Clause

end RecordFilter
