import RecordFilter.Proofs.Clause.Sequence
import RecordFilter.Proofs.Glob.Implications
import RecordFilter.Proofs.Literal.Delimiter

/-! # Comparisons with texts

Equality of a text, or of the word for a truth value, comes in three shapes. A literal in brackets
asks for a part of the text, one with bars in it for one of several, and any other is a glob for the
whole text. The shapes fit together: alternatives say what each of them says on its own
(`matchesValue_alternatives`), and a literal in brackets asks for a part and for nothing else,
although it is tried as a glob as well (`matchesValue_brackets`). What does not fit is the literal
`*`, which takes a line feed in a sequence and nowhere else (`matchesValue_star`). -/

namespace RecordFilter.Clause

open Literal (decode inBrackets joinBars)

variable {c : Clause} {s : Settings} {value : Value} {text decoded raw : Text}
  {options : List Text}

/-! ## The shapes of a literal -/

/-- What a written glob says of a text, of the whole of it or of some part. -/
def globTest (c : Clause) (s : Settings) (part : Bool) (text raw : Text) :
    Except QueryError Bool :=
  decode s.unescape raw >>= fun glob => .ok (if part
    then Glob.contains c.operator.ignoresCase glob text
    else Glob.equals c.operator.ignoresCase glob text)

/-- A written glob that can be decoded says something of every text. -/
theorem exists_globTest_iff {part : Bool} :
    (∃ b, c.globTest s part text raw = .ok b) ↔ ∃ t, decode s.unescape raw = .ok t :=
  exists_bind_eq_ok_iff

/-- Alternatives are tried one after the other. -/
theorem textEquals_alternation {part : Bool}
    (h : Literal.alternation? c.literal = some ⟨part, options⟩) :
    c.textEquals s decoded text = options.anyM (c.globTest s part text) := by
  rw [textEquals, h]
  rfl

/-- Without bars, a literal in brackets asks for a part of the text, and every literal for the whole
of it. -/
theorem textEquals_no_alternation (h : Literal.alternation? c.literal = none) :
    c.textEquals s decoded text = .ok (
      ((Literal.bracketed? c.literal).isSome && (Literal.bracketed? decoded).any fun inner =>
        Glob.contains c.operator.ignoresCase inner text) ||
      Glob.equals c.operator.ignoresCase decoded text) := by
  rw [textEquals, h]
  rfl

/-- A literal without bars and brackets is a glob for the whole text. -/
theorem textEquals_glob (hbar : '|' ∉ c.literal) (hplain : ∀ t, c.literal ≠ inBrackets t) :
    c.textEquals s decoded text = .ok (Glob.equals c.operator.ignoresCase decoded text) := by
  rw [textEquals_no_alternation (Literal.alternation?_eq_none hbar),
    Literal.bracketed?_eq_none_iff.2 hplain]
  rfl

/-- **In brackets, a literal asks for a part of the text.** If there is none, the literal does not
match the whole text either, brackets and all. -/
theorem textEquals_inBrackets (hliteral : c.literal = inBrackets raw) (hbar : '|' ∉ raw)
    (inner : Text) : c.textEquals s (inBrackets inner) text =
      .ok (Glob.contains c.operator.ignoresCase inner text) := by
  have hnone : Literal.alternation? c.literal = none := by
    apply Literal.alternation?_eq_none
    rw [hliteral]
    simpa [inBrackets] using hbar
  have hpart : (Glob.contains c.operator.ignoresCase inner text ||
      Glob.equals c.operator.ignoresCase (inBrackets inner) text) =
        Glob.contains c.operator.ignoresCase inner text := by
    rw [Bool.eq_iff_iff, Bool.or_eq_true]
    exact or_iff_left_of_imp Glob.contains_of_equals_brackets
  rw [textEquals_no_alternation hnone, Literal.bracketed?_eq_some_iff.2 hliteral,
    Literal.bracketed?_eq_some_iff.2 rfl]
  exact congrArg Except.ok hpart

/-- A text is compared as such, and a truth value by its word. -/
theorem equalsDecoded_eq_textEquals (htext : value.textForm? = some text) :
    c.equalsDecoded s decoded value = c.textEquals s decoded text := by
  cases value with
  | text t =>
    obtain rfl : t = text := Option.some.inj htext
    rw [equalsDecoded]
  | bool b =>
    obtain rfl : Value.boolText b = text := Option.some.inj htext
    rw [equalsDecoded]
  | null => cases htext
  | number n => cases htext
  | instant t => cases htext
  | sequence items => cases htext

section Fields

variable (hoperator : c.operator = .equal ∨ c.operator = .equalCase)
  (htext : value.textForm? = some text)
include hoperator htext

/-- A text, or the word for a truth value, is compared with the decoded literal. -/
theorem matchesValue_eq_textEquals :
    c.matchesValue s value =
      decode s.unescape c.literal >>= fun decoded => c.textEquals s decoded text := by
  rw [matchesValue_eq_equals hoperator, equals_eq_bind]
  simp only [equalsDecoded_eq_textEquals htext]

/-- **Without bars and brackets, a literal is a glob for the whole text.** -/
theorem matchesValue_eq_globTest (hbar : '|' ∉ c.literal)
    (hplain : ∀ t, c.literal ≠ inBrackets t) :
    c.matchesValue s value = c.globTest s false text c.literal := by
  rw [matchesValue_eq_textEquals hoperator htext]
  simp only [textEquals_glob hbar hplain]
  rfl

/-- A literal in brackets says of a text what the glob between them says of its parts. Where that
cannot be decoded, the errors name different literals. -/
theorem matchesValue_inBrackets_eq_ok_iff (hliteral : c.literal = inBrackets raw)
    (hbar : '|' ∉ raw) {b : Bool} :
    c.matchesValue s value = .ok b ↔ c.globTest s true text raw = .ok b := by
  rw [matchesValue_eq_textEquals hoperator htext, globTest, bind_eq_ok_iff, bind_eq_ok_iff]
  simp only [hliteral, Literal.decode_inBrackets_eq_ok_iff]
  constructor
  · rintro ⟨_, ⟨inner, hinner, rfl⟩, h⟩
    rw [textEquals_inBrackets hliteral hbar] at h
    exact ⟨inner, hinner, h⟩
  · rintro ⟨inner, hinner, h⟩
    refine ⟨inBrackets inner, ⟨inner, hinner, rfl⟩, ?_⟩
    rw [textEquals_inBrackets hliteral hbar]
    exact h

/-- A comparison with alternatives is the disjunction of tests of the alternatives, where the
literal can be decoded if the alternatives can. -/
theorem isDisjunction_matchesValue {part : Bool} {test : Text → Except QueryError Bool}
    (h : Literal.alternation? c.literal = some ⟨part, options⟩)
    (hdecodes : (∃ t, decode s.unescape c.literal = .ok t) ↔
      ∀ option ∈ options, ∃ t, decode s.unescape option = .ok t)
    (htest : ∀ option ∈ options, ∀ b,
      test option = .ok b ↔ c.globTest s part text option = .ok b) :
    IsDisjunction (c.matchesValue s value) (options.map test) := by
  rw [matchesValue_eq_textEquals hoperator htext]
  simp only [textEquals_alternation h]
  apply isDisjunction_anyM htest
  rw [hdecodes]
  exact forall₂_congr fun option _ => exists_globTest_iff.symm

end Fields

/-! ## Alternatives and brackets -/

/-- **Alternatives are the disjunction of what each of them asks for.** The comparison with all of
them succeeds if it succeeds with each, and only then, and it matches if one of them does. So it is
with globs, if neither one of them nor what they are joined to is in brackets; and so it is with
alternatives in common brackets, each of which then has brackets of its own. -/
theorem matchesValue_alternatives (s : Settings) (selector : Text) {operator : Operator}
    (hoperator : operator = .equal ∨ operator = .equalCase)
    (htext : value.textForm? = some text) (hlength : 2 ≤ options.length)
    (hbar : ∀ option ∈ options, '|' ∉ option) :
    let test := fun literal => matchesValue ⟨selector, operator, literal⟩ s value
    ((∀ option ∈ options, ∀ t, option ≠ inBrackets t) → (∀ t, joinBars options ≠ inBrackets t) →
      IsDisjunction (test (joinBars options)) (options.map test)) ∧
    IsDisjunction (test (inBrackets (joinBars options)))
      (options.map fun option => test (inBrackets option)) := by
  intro test
  constructor
  · intro hplain hjoined
    refine isDisjunction_matchesValue hoperator htext
      (Literal.alternation?_joinBars hlength hbar hjoined) Literal.exists_decode_joinBars_iff ?_
    intro option hoption b
    show matchesValue ⟨selector, operator, option⟩ s value = .ok b ↔ _
    rw [matchesValue_eq_globTest hoperator htext (hbar option hoption) (hplain option hoption)]
    rfl
  · have hdecodes : (∃ t, decode s.unescape (inBrackets (joinBars options)) = .ok t) ↔
        ∀ option ∈ options, ∃ t, decode s.unescape option = .ok t :=
      Literal.exists_decode_inBrackets_iff.trans Literal.exists_decode_joinBars_iff
    refine isDisjunction_matchesValue hoperator htext
      (Literal.alternation?_inBrackets_joinBars hlength hbar) hdecodes ?_
    intro option hoption b
    exact matchesValue_inBrackets_eq_ok_iff hoperator htext rfl (hbar option hoption)

/-- The second alternative matches, as a glob and in brackets. One that cannot be decoded fails the
comparison even if the first alternative matches. -/
theorem matchesValue_alternatives_second :
    let test := fun literal => matchesValue ⟨['n'], .equal, literal⟩ {} (.text ['a', 'b'])
    test ['x', '|', '%', '4', '1', '*'] = .ok true ∧
      test ['[', 'x', '|', '%', '4', '2', ']'] = .ok true ∧
      test ['a', 'b'] = .ok true ∧ ∀ b, test ['a', 'b', '|', '%'] ≠ .ok b := by
  intro test
  have htext : (Value.text ['a', 'b']).textForm? = some ['a', 'b'] := rfl
  refine ⟨?_, ?_, rfl, ?_⟩
  · have hlength : 2 ≤ [['x'], ['%', '4', '1', '*']].length := by decide
    have hheads : ∀ option ∈ [['x'], ['%', '4', '1', '*']], option.head? ≠ some '[' := by decide
    have h : IsDisjunction (test ['x', '|', '%', '4', '1', '*']) [.ok false, .ok true] :=
      (matchesValue_alternatives {} ['n'] (.inl rfl) htext hlength (by decide)).1
        (fun option hoption => Literal.ne_inBrackets (hheads option hoption))
        (Literal.ne_inBrackets (by decide))
    exact (h true).2 ⟨by simp, by simp⟩
  · have hlength : 2 ≤ [['x'], ['%', '4', '2']].length := by decide
    have h : IsDisjunction (test ['[', 'x', '|', '%', '4', '2', ']']) [.ok false, .ok true] :=
      (matchesValue_alternatives {} ['n'] (.inl rfl) htext hlength (by decide)).2
    exact (h true).2 ⟨by simp, by simp⟩
  · have hlength : 2 ≤ [['a', 'b'], ['%']].length := by decide
    have hheads : ∀ option ∈ [['a', 'b'], ['%']], option.head? ≠ some '[' := by decide
    have h : IsDisjunction (test ['a', 'b', '|', '%']) [.ok true, .error (.undecodable ['%'])] :=
      (matchesValue_alternatives {} ['n'] (.inl rfl) htext hlength (by decide)).1
        (fun option hoption => Literal.ne_inBrackets (hheads option hoption))
        (Literal.ne_inBrackets (by decide))
    intro b hb
    obtain ⟨hit, hhit⟩ := ((h b).1 hb).1 _ (List.mem_cons_of_mem _ List.mem_cons_self)
    cases hhit

/-- **A literal in brackets matches where the glob between them matches some part of the text**, and
nowhere else. -/
theorem matchesValue_brackets (s : Settings) (selector : Text) {operator : Operator}
    (hoperator : operator = .equal ∨ operator = .equalCase)
    (htext : value.textForm? = some text) (hbar : '|' ∉ raw)
    (hdecodes : decode s.unescape (inBrackets raw) = .ok decoded) :
    ∃ glob, decode s.unescape raw = .ok glob ∧
      matchesValue ⟨selector, operator, inBrackets raw⟩ s value =
        .ok (Glob.contains operator.ignoresCase glob text) := by
  obtain ⟨glob, hglob, rfl⟩ := Literal.decode_inBrackets_eq_ok_iff.1 hdecodes
  refine ⟨glob, hglob, (matchesValue_inBrackets_eq_ok_iff hoperator htext rfl hbar).2 ?_⟩
  rw [globTest, hglob]
  rfl

/-- The backslash at the end of the glob `a\\` takes nothing away from the brackets. -/
theorem matchesValue_brackets_backslash :
    decode false (inBrackets ['a', '\\']) = .ok ['[', 'a', '\\', ']'] ∧
      matchesValue ⟨['n'], .equalCase, ['[', 'a', '\\', ']']⟩ {} (.text ['x', 'a', 'y']) =
        .ok true := by
  have hdecodes : decode false (inBrackets ['a', '\\']) = .ok ['[', 'a', '\\', ']'] := rfl
  have htext : (Value.text ['x', 'a', 'y']).textForm? = some ['x', 'a', 'y'] := rfl
  obtain ⟨glob, hglob, hmatches⟩ :=
    matchesValue_brackets {} ['n'] (.inr rfl) htext (by decide) hdecodes
  obtain rfl : ['a', '\\'] = glob := Except.ok.inj hglob
  exact ⟨hdecodes, hmatches⟩

/-! ## The star -/

/-- The literal `*` is decoded to itself. -/
theorem decode_star (unescape : Bool) : decode unescape ['*'] = .ok ['*'] := by
  cases unescape <;> rfl

section Star

variable (hoperator : c.operator = .equal ∨ c.operator = .equalCase) (hstar : c.literal = ['*'])
include hoperator hstar

/-- As a field, a text matches `*` as it matches every glob. -/
theorem matchesValue_star_text :
    c.matchesValue s (.text text) = .ok (decide (text ≠ [] ∧ '\n' ∉ text)) := by
  have hbar : '|' ∉ c.literal := by
    rw [hstar]
    decide
  have hplain : ∀ t, c.literal ≠ inBrackets t := by
    rw [hstar]
    exact Literal.ne_inBrackets (by decide)
  have hglob : Glob.equals c.operator.ignoresCase ['*'] text =
      decide (text ≠ [] ∧ '\n' ∉ text) := by
    rw [Bool.eq_iff_iff, Glob.equals_star_iff, decide_eq_true_iff]
  rw [matchesValue_eq_globTest hoperator rfl hbar hplain, globTest, hstar, decode_star, ok_bind,
    ← hglob]
  rfl

/-- As an element, a text matches `*` if it is not empty. -/
theorem matchesValue_star_element :
    c.matchesValue s (.sequence [.text text]) = .ok (decide (text ≠ [])) := by
  have hhit : c.elementEquals s ['*'] (.text text) = .ok (decide (text ≠ [])) := by
    rw [elementEquals, starHit?, if_pos hstar]
    cases text <;> rfl
  have hleaves : Value.leavesOf [.text text] = [.text text] :=
    Value.leavesOf_eq_self (by simp [Value.kind])
  rw [matchesValue_eq_equals hoperator, equals_eq_bind, hstar, decode_star, ok_bind,
    equalsDecoded, equalsSome_eq_anyM, hleaves, anyM_singleton, hhit]

end Star

/-- **The literal `*` takes a line feed only in a sequence.** It matches a text as an element if the
text is not empty, but as a field only if, moreover, there is no line feed in it, as is the way of
globs. So the two agree on a text exactly if it has no line feed. -/
theorem matchesValue_star (s : Settings) (selector text : Text) {operator : Operator}
    (hoperator : operator = .equal ∨ operator = .equalCase) :
    let test := matchesValue ⟨selector, operator, ['*']⟩ s
    test (.sequence [.text text]) = .ok (decide (text ≠ [])) ∧
      test (.text text) = .ok (decide (text ≠ [] ∧ '\n' ∉ text)) ∧
      (test (.text text) = test (.sequence [.text text]) ↔ '\n' ∉ text) := by
  intro test
  have helement : test (.sequence [.text text]) = .ok (decide (text ≠ [])) :=
    matchesValue_star_element hoperator rfl
  have hfield : test (.text text) = .ok (decide (text ≠ [] ∧ '\n' ∉ text)) :=
    matchesValue_star_text hoperator rfl
  refine ⟨helement, hfield, ?_⟩
  rw [helement, hfield, Except.ok.injEq, decide_eq_decide, and_iff_left_iff_imp]
  constructor
  · intro h
    by_cases hempty : text = []
    · rw [hempty]
      exact List.not_mem_nil
    · exact h hempty
  · intro h _
    exact h

/-- Two lines are a text that `*` matches as an element only. -/
theorem matchesValue_star_lines :
    let test := matchesValue ⟨['n'], .equal, ['*']⟩ {}
    test (.sequence [.text ['a', '\n', 'b']]) = .ok true ∧
      test (.text ['a', '\n', 'b']) = .ok false ∧
      test (.text ['a']) = test (.sequence [.text ['a']]) := by
  intro test
  obtain ⟨helement, hfield, -⟩ := matchesValue_star {} ['n'] ['a', '\n', 'b'] (.inl rfl)
  obtain ⟨-, -, hword⟩ := matchesValue_star {} ['n'] ['a'] (.inl rfl)
  exact ⟨helement, hfield, hword.2 (by decide)⟩

/-- **A line feed alone is not empty, but `*` does not match it** as a field. -/
theorem matchesValue_star_lineFeed :
    matchesValue ⟨['n'], .equal, ['*']⟩ {} (.text ['\n']) = .ok false ∧
      matchesValue ⟨['n'], .equal, ['*']⟩ {} (.sequence [.text ['\n']]) = .ok true :=
  ⟨rfl, rfl⟩

end RecordFilter.Clause
