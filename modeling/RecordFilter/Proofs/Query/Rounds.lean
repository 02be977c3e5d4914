import RecordFilter.Proofs.Query.Expression
import RecordFilter.Proofs.Query.Reader
import RecordFilter.Proofs.Text.ByteOffset

/-! # The rounds of an evaluation

An evaluation goes in rounds, each of which finds the group that the first closing parenthesis ends,
evaluates it and puts the word for its outcome in its place. A round may be made at byte offsets
(`round?`): those of the two parentheses are found in one pass from left to right, which keeps the
offsets of the opening ones it has met, and the group is cut out and replaced between them. All
these offsets are places in the expression, so such a round never fails to be made.

What decreases from round to round is not the length of the expression, as a word may be longer than
the group it stands for. It is the number of parentheses: each round takes away one pair, so there
are no more rounds than opening parentheses (`rounds_end`). -/

namespace RecordFilter.Query

/-! ## Groups at byte offsets -/

/-- The byte offsets of the parentheses of a group. -/
def Group.offsets (g : Group) : Nat × Nat :=
  (g.before.byteLength, g.before.byteLength + 1 + g.body.byteLength)

/-- Look for the first closing parenthesis from a byte offset on. The offsets of the opening ones
that have been met are given, the last one first. -/
def scanGroup (offset : Nat) (opens : List Nat) : Text → Except QueryError (Option (Nat × Nat))
  | [] => if opens.isEmpty then .ok none else .error .unclosedParenthesis
  | c :: t =>
    if c = '(' then scanGroup (offset + c.utf8Size) (offset :: opens) t
    else if c = ')' then
      match opens.head? with
      | some opened => .ok (some (opened, offset))
      | none => .error (.extraClosingParenthesis offset)
    else scanGroup (offset + c.utf8Size) opens t

/-- The byte offsets of the group that the first closing parenthesis ends. -/
def groupOffsets? (expression : Text) : Except QueryError (Option (Nat × Nat)) :=
  scanGroup 0 [] expression

/-- **The group of a round** is closed by the first closing parenthesis and opened by the last
opening one before that. -/
theorem innermostGroup?_eq_some_iff {expression : Text} {g : Group} :
    innermostGroup? expression = .ok (some g) ↔
      expression = g.before ++ '(' :: (g.body ++ ')' :: g.after) ∧
        ')' ∉ g.before ∧ '(' ∉ g.body ∧ ')' ∉ g.body := by
  constructor
  · intro h
    rw [innermostGroup?] at h
    split at h
    next left after hfirst =>
      obtain ⟨rfl, hclose⟩ := Text.splitFirst?_eq_some_iff.1 hfirst
      split at h
      next before body hlast =>
        obtain ⟨rfl, hopen⟩ := Text.splitLast?_eq_some_iff.1 hlast
        obtain rfl : Group.mk before body after = g := by simpa using h
        rw [List.mem_append, List.mem_cons, not_or, not_or] at hclose
        exact ⟨by simp, hclose.1, hopen, hclose.2.2⟩
      next => cases h
    next => split at h <;> cases h
  · rintro ⟨rfl, hbefore, hopen, hclose⟩
    have hleft : ')' ∉ g.before ++ '(' :: g.body := by
      simp [hbefore, hclose]
    rw [← List.cons_append, ← List.append_assoc, innermostGroup?, Text.splitFirst?_append hleft]
    simp only [Text.splitLast?_append g.before hopen]

/-- **The pass finds the offsets of the group.** Behind a text without closing parentheses, it knows
where the last opening one of that text is. -/
theorem scanGroup_eq_map (read : Text) {opens : List Nat} (t : Text) (hread : ')' ∉ read)
    (hopens : opens.head? = (read.splitLast? '(').map fun (before, _) => Text.byteLength before) :
    scanGroup read.byteLength opens t =
      (innermostGroup? (read ++ t)).map (Option.map Group.offsets) := by
  -- By induction on what is still to be read, whatever has been: an opening parenthesis becomes the
  -- last one that has been met, and other characters move no offset that is kept.
  induction t generalizing read opens with
  | nil =>
    have hempty : opens.isEmpty = true ↔ '(' ∉ read := by
      rw [List.isEmpty_iff, ← List.head?_eq_none_iff, hopens, Option.map_eq_none_iff,
        Text.splitLast?_eq_none_iff]
    rw [List.append_nil, scanGroup, innermostGroup?, Text.splitFirst?_eq_none hread]
    by_cases hopen : '(' ∈ read
    · rw [if_neg (not_not_intro hopen ∘ hempty.1)]
      simp only [if_pos hopen, map_error]
    · rw [if_pos (hempty.2 hopen)]
      simp only [if_neg hopen, map_ok, Option.map_none]
  | cons c t ih =>
    have hnext : read ++ c :: t = (read ++ [c]) ++ t := by
      simp
    have hlength : (read ++ [c]).byteLength = read.byteLength + c.utf8Size := by
      simp
    by_cases ho : c = '('
    · subst ho
      rw [scanGroup, if_pos rfl, ← hlength, hnext]
      apply ih
      · simp [hread]
      · rw [Text.splitLast?_append read List.not_mem_nil]
        rfl
    by_cases hc : c = ')'
    · subst hc
      rw [scanGroup, if_neg ho, if_pos rfl, innermostGroup?, Text.splitFirst?_append hread,
        hopens]
      cases hlast : read.splitLast? '(' with
      | none => simp only [hlast, Option.map_none, map_error]
      | some p =>
        obtain ⟨before, body⟩ := p
        have hparts := Text.eq_of_splitLast? hlast
        simp only [hlast, Option.map_some, map_ok, Group.offsets]
        rw [hparts, Text.byteLength_append, Text.byteLength_cons, ← Nat.add_assoc]
        rfl
    · rw [scanGroup, if_neg ho, if_neg hc, ← hlength, hnext]
      apply ih
      · simp [hread, Ne.symm hc]
      · have hother : '(' ∉ [c] := by simpa using Ne.symm ho
        rw [hopens, Text.splitLast?_append_of_notMem hother, Option.map_map]
        rfl

/-- The offsets are those of the group that is looked for in the text. -/
theorem groupOffsets?_eq_map (expression : Text) :
    groupOffsets? expression = (innermostGroup? expression).map (Option.map Group.offsets) :=
  scanGroup_eq_map [] expression List.not_mem_nil rfl

/-- The first group to be closed is the inner one. -/
example : groupOffsets? ['(', '(', 'a', ')', ';', '(', 'b', ')', ')'] = .ok (some (1, 3)) := rfl

/-- The offsets that are found are those of a group. -/
theorem exists_of_groupOffsets? {expression : Text} {opened closed : Nat}
    (h : groupOffsets? expression = .ok (some (opened, closed))) :
    ∃ g, innermostGroup? expression = .ok (some g) ∧ g.offsets = (opened, closed) := by
  rw [groupOffsets?_eq_map] at h
  obtain ⟨found, hfound, hoffsets⟩ := map_eq_ok_iff.1 h
  obtain ⟨g, rfl, hg⟩ := Option.map_eq_some_iff.1 hoffsets
  exact ⟨g, hfound, hg⟩

/-- A group in an expression, by the byte offsets of its parentheses. -/
structure Group.IsAt (g : Group) (expression : Text) (opened closed : Nat) : Prop where
  opened_lt : opened < closed
  opens : expression.charAt? opened = some '('
  closes : expression.charAt? closed = some ')'
  before : expression.slice? 0 opened = some g.before
  body : expression.slice? (opened + 1) closed = some g.body
  after : expression.slice? (closed + 1) expression.byteLength = some g.after
  open_notMem_body : '(' ∉ g.body
  close_notMem_body : ')' ∉ g.body
  close_notMem_before : ')' ∉ g.before

/-- The group that is found is at the offsets of its parentheses. -/
theorem isAt_of_innermostGroup? {expression : Text} {g : Group}
    (h : innermostGroup? expression = .ok (some g)) :
    g.IsAt expression g.offsets.1 g.offsets.2 := by
  obtain ⟨rfl, hbefore, hopen, hclose⟩ := innermostGroup?_eq_some_iff.1 h
  have hone : '('.utf8Size = 1 ∧ ')'.utf8Size = 1 := ⟨rfl, rfl⟩
  refine ⟨?opened_lt, ?opens, ?closes, ?before, ?body, ?after, hopen, hclose, hbefore⟩
  case opened_lt =>
    rw [Group.offsets]
    omega
  case opens => exact Text.charAt?_eq_some rfl rfl
  case closes =>
    apply Text.charAt?_eq_some (a := g.before ++ '(' :: g.body) (b := g.after)
    · simp
    · simp [Group.offsets, hone, Nat.add_assoc]
  case before => exact Text.slice?_eq_some (a := []) rfl rfl rfl
  case body =>
    apply Text.slice?_eq_some (a := g.before ++ ['(']) (b := ')' :: g.after)
    · simp
    · simp [Group.offsets, hone]
    · simp [Group.offsets, hone, Nat.add_assoc]
  case after =>
    apply Text.slice?_eq_some (a := g.before ++ '(' :: (g.body ++ [')'])) (b := [])
    · simp
    · simp [Group.offsets, hone, Nat.add_assoc]
    · simp

/-! ## What a round replaces -/

/-- A character that no word for an outcome holds is only taken away. -/
theorem Group.count_replace {c : Char} (hc : OutsideWords c) (g : Group) (outcome : Bool) :
    (g.replace outcome).count c = g.before.count c + g.after.count c := by
  rw [Group.replace, List.count_append, List.count_append, List.count_eq_zero.2 (hc outcome),
    Nat.add_zero]

section Replacement

variable {expression : Text} {g : Group} (h : innermostGroup? expression = .ok (some g))
include h

/-- The group is cut out of the expression at the offsets of its parentheses. -/
theorem replaceRange?_of_innermostGroup? (outcome : Bool) :
    expression.replaceRange? g.offsets.1 (g.offsets.2 + 1) (Value.boolText outcome) =
      some (g.replace outcome) := by
  obtain ⟨rfl, -⟩ := innermostGroup?_eq_some_iff.1 h
  have hone : '('.utf8Size = 1 ∧ ')'.utf8Size = 1 := ⟨rfl, rfl⟩
  rw [Group.replace, List.append_assoc]
  apply Text.replaceRange?_eq_some (p := '(' :: (g.body ++ [')']))
  · simp
  · rfl
  · simp [Group.offsets, hone, Nat.add_assoc]

/-- One parenthesis of each kind is taken away. -/
theorem count_parenthesis_replace {c : Char} (hc : c = '(' ∨ c = ')') (outcome : Bool) :
    (g.replace outcome).count c + 1 = expression.count c := by
  obtain ⟨rfl, -, hopen, hclose⟩ := innermostGroup?_eq_some_iff.1 h
  rcases hc with rfl | rfl
  · rw [g.count_replace (by decide)]
    simp [List.count_eq_zero.2 hopen]
    omega
  · rw [g.count_replace (by decide)]
    simp [List.count_eq_zero.2 hclose]
    omega

end Replacement

/-! ## Rounds -/

/-- What a round comes to: the end of the evaluation, or another expression. -/
inductive Round where
  | ended (result : Except QueryError Bool)
  | replaced (expression : Text)

/-- A round at byte offsets. There is none if an offset is no place in the expression. -/
def round? (s : Settings) (r : Record) (expression : Text) : Option Round :=
  match groupOffsets? expression with
  | .error e => some (.ended (.error e))
  | .ok none => some (.ended (combine s r expression))
  | .ok (some (opened, closed)) => do
    let body ← expression.slice? (opened + 1) closed
    match combine s r body with
    | .error e => return .ended (.error e)
    | .ok outcome =>
      let next ← expression.replaceRange? opened (closed + 1) (Value.boolText outcome)
      return .replaced next

variable {s : Settings} {r : Record}

/-- **A round ends the evaluation or replaces a group**, which leaves the result as it is. -/
theorem round?_cases (s : Settings) (r : Record) (expression : Text) :
    round? s r expression = some (.ended (resolve s r expression)) ∨
      ∃ g outcome, innermostGroup? expression = .ok (some g) ∧
        round? s r expression = some (.replaced (g.replace outcome)) ∧
        resolve s r expression = resolve s r (g.replace outcome) := by
  rw [round?, groupOffsets?_eq_map, resolve_eq]
  rcases hg : innermostGroup? expression with e | _ | g
  · exact .inl rfl
  · exact .inl rfl
  · have hat := isAt_of_innermostGroup? hg
    simp only [map_ok, Option.map_some, hat.body, Option.bind_eq_bind, Option.bind_some, ok_bind]
    cases hbody : combine s r g.body with
    | error e => exact .inl rfl
    | ok outcome =>
      refine .inr ⟨g, outcome, rfl, ?_, rfl⟩
      simp only [replaceRange?_of_innermostGroup? hg, Option.bind_some]
      rfl

/-- A round that replaces a group takes one opening parenthesis away. -/
theorem count_of_round? {expression next : Text}
    (h : round? s r expression = some (.replaced next)) :
    next.count '(' + 1 = expression.count '(' := by
  rcases round?_cases s r expression with hend | ⟨g, outcome, hg, hround, -⟩
  · cases h.symm.trans hend
  · obtain rfl : next = g.replace outcome := by simpa using h.symm.trans hround
    exact count_parenthesis_replace hg (.inl rfl) outcome

/-! ## Runs of rounds -/

variable (s r) in
/-- So many rounds, each of which replaces a group, go from one expression to another. -/
inductive GoesTo : Nat → Text → Text → Prop where
  | refl (expression : Text) : GoesTo 0 expression expression
  | round {n : Nat} {expression next last : Text}
      (hround : round? s r expression = some (.replaced next)) (h : GoesTo n next last) :
      GoesTo (n + 1) expression last

/-- **Each round takes one opening parenthesis away.** -/
theorem GoesTo.count_eq {n : Nat} {first last : Text} (h : GoesTo s r n first last) :
    n + last.count '(' = first.count '(' := by
  induction h with
  | refl => exact Nat.zero_add _
  | round hround _ ih =>
    have hcount := count_of_round? hround
    omega

/-- **Rounds come to an end**, with what the expression is evaluated to. -/
theorem exists_goesTo (s : Settings) (r : Record) (expression : Text) :
    ∃ n last, GoesTo s r n expression last ∧
      round? s r last = some (.ended (resolve s r expression)) := by
  -- By induction on the number of opening parentheses, which a round makes smaller.
  induction hn : expression.count '(' using Nat.strongRecOn generalizing expression with
  | ind n ih =>
    rcases round?_cases s r expression with hend | ⟨g, outcome, -, hround, hresolve⟩
    · exact ⟨0, expression, .refl expression, hend⟩
    · have hcount := count_of_round? hround
      obtain ⟨m, last, hlast, hend⟩ := ih _ (by omega) (g.replace outcome) rfl
      exact ⟨m + 1, last, .round hround hlast, hresolve ▸ hend⟩

/-- **An evaluation makes no more rounds than the escaped query has opening parentheses**, beside
the one that ends it. The offsets that a round finds are places in the expression: they hold two
parentheses with none between them and no closing one in front. The word for the outcome goes in the
place of that group, which takes one parenthesis of each kind away and leaves what is before and
behind as it is. So rounds go from the query to one that ends with the result of the evaluation, and
they do although an expression may get longer in a round. -/
theorem rounds_end :
    (∀ expression opened closed, groupOffsets? expression = .ok (some (opened, closed)) →
      ∃ g, innermostGroup? expression = .ok (some g) ∧ g.IsAt expression opened closed ∧
        ∀ outcome,
          expression.replaceRange? opened (closed + 1) (Value.boolText outcome) =
            some (g.replace outcome) ∧
          (g.replace outcome).count '(' + 1 = expression.count '(' ∧
          (g.replace outcome).count ')' + 1 = expression.count ')') ∧
    (∀ s query r,
      (∃ n last, GoesTo s r n (escape query) last ∧
        round? s r last = some (.ended (evaluate s query r))) ∧
      ∀ n last, GoesTo s r n (escape query) last → n ≤ (escape query).count '(') ∧
    ∃ s r expression next, round? s r expression = some (.replaced next) ∧
      expression.length < next.length := by
  refine ⟨?_, ?_, ?_⟩
  · intro expression opened closed h
    obtain ⟨g, hg, hoffsets⟩ := exists_of_groupOffsets? h
    have hat := isAt_of_innermostGroup? hg
    have hreplace := replaceRange?_of_innermostGroup? hg
    rw [hoffsets] at hat hreplace
    have hcount := fun c hc => count_parenthesis_replace hg (c := c) hc
    exact ⟨g, hg, hat, fun outcome =>
      ⟨hreplace outcome, hcount '(' (.inl rfl) outcome, hcount ')' (.inr rfl) outcome⟩⟩
  · intro s query r
    refine ⟨exists_goesTo s r (escape query), fun n last h => ?_⟩
    have hcount := h.count_eq
    omega
  · -- The least comparison, of no field with no literal, is refuted by a word of five characters.
    exact ⟨{}, .empty, ['(', '<', ')'], Value.boolText false, rfl, by decide⟩

/-- A group behind a character of three bytes, and a query with one round. -/
theorem rounds_end_threeBytes :
    (∃ g, innermostGroup? ['日', '(', 'a', '=', '=', 'x', ')', ';'] = .ok (some g) ∧
      g.IsAt ['日', '(', 'a', '=', '=', 'x', ')', ';'] 3 8) ∧
    1 ≤ (escape ['(', '<', ')']).count '(' := by
  obtain ⟨g, hg, hat, -⟩ := rounds_end.1 ['日', '(', 'a', '=', '=', 'x', ')', ';'] 3 8 rfl
  have hround : round? {} .empty (escape ['(', '<', ')']) =
      some (.replaced (Value.boolText false)) := by
    rw [escape_eq_self (by decide)]
    rfl
  exact ⟨⟨g, hg, hat⟩, (rounds_end.2.1 {} _ .empty).2 1 _ (.round hround (.refl _))⟩

end RecordFilter.Query
