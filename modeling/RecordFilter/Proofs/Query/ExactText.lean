import RecordFilter.Proofs.Literal.Decoding
import RecordFilter.Proofs.Query.TreeEvaluation

/-! # Asking for a text exactly

Every text can be asked for, whatever characters it is made of: it is quoted as a glob, so that it
has no wildcards, and percent-encoded throughout, so that nothing in it is read as part of the
query. Such a query holds of that text and of no other (`evaluate_exactText`).

Where control characters may be named, this is not so of every text. The names are looked for in
the quoted text, where `\\n` is a backslash and a name, while the glob would have read it as a
quoted backslash and a letter. A text is then asked for exactly if no control character is named in
it; a text with names is taken for the one with the control characters
(`evaluate_exactText_unescape`). -/

namespace RecordFilter

/-! ## Quoted texts and the names of control characters -/

namespace Glob

open Literal (controlNames unescapeControls)

/-- No character that means something in a glob is the name of a control character. -/
theorem notMem_controlNames_of_mem_special {c : Char} (hc : c ∈ special) : c ∉ controlNames := by
  simp only [special, List.mem_cons, List.not_mem_nil, or_false] at hc
  rcases hc with rfl | rfl | rfl <;> decide

/-- A backslash that quotes a character names no control character. -/
theorem unescapeControls_quoted {c : Char} (hc : c ∈ special) (t : Text) :
    unescapeControls ('\\' :: c :: t) = '\\' :: unescapeControls (c :: t) := by
  apply Literal.unescapeControls_cons
  rintro - d hd ⟨⟩
  exact notMem_controlNames_of_mem_special hc hd

/-- A quoted text starts with the name of a control character only if the text does. -/
theorem head?_quote_ne {t : Text} {d : Char} (hd : d ∈ controlNames) (h : t.head? ≠ some d) :
    (quote t).head? ≠ some d := by
  cases t with
  | nil => exact h
  | cons c t =>
    rw [quote]
    split
    next =>
      rintro ⟨⟩
      exact notMem_controlNames_of_mem_special (c := '\\') (by decide) hd
    next => exact h

/-- **Control characters are named in a quoted text where they are in the text itself**: the second
one of two backslashes still stands before the letter. -/
theorem tokens_unescapeControls_quote (t : Text) :
    tokens (unescapeControls (quote t)) = (unescapeControls t).map .char := by
  induction t using Literal.controls_induction with
  | nil => rw [quote, unescapeControls, tokens, List.map_nil]
  | name d hd t ih =>
    have hslash : '\\' ∈ special := by decide
    have hletter : d ∉ special := fun h => notMem_controlNames_of_mem_special h hd
    -- The first backslash is copied, and the second names a control character.
    have hquote : quote ('\\' :: d :: t) = '\\' :: '\\' :: d :: quote t := by
      rw [quote, if_pos hslash, quote, if_neg hletter]
    rw [hquote, unescapeControls_quoted hslash, Literal.unescapeControls_name hd, tokens, ih,
      Literal.unescapeControls_name hd, List.map_cons]
  | copied c t hcopied ih =>
    have hquoted : c = '\\' → ∀ d ∈ controlNames, (quote t).head? ≠ some d :=
      fun hc d hd => head?_quote_ne hd (hcopied hc d hd)
    rw [Literal.unescapeControls_cons hcopied, List.map_cons, quote]
    split
    next h =>
      -- If `c` is a backslash itself, there is no name behind it in the quoted text either.
      rw [unescapeControls_quoted h, Literal.unescapeControls_cons hquoted, tokens, ih]
    next h =>
      simp only [special, List.mem_cons, List.not_mem_nil, or_false, not_or] at h
      obtain ⟨hstar, hmark, hslash⟩ := h
      rw [Literal.unescapeControls_cons hquoted, tokens_cons_of_ne hslash hstar hmark, ih]

/-- Where control characters may be named, a quoted text matches the text with the control
characters and no other. -/
theorem equals_unescapeControls_quote (s t : Text) :
    equals false (unescapeControls (quote s)) t = (t == unescapeControls s) := by
  rw [Bool.eq_iff_iff, equals_iff, tokens_unescapeControls_quote, splits_map_char, beq_iff_eq]

end Glob

namespace Query

variable {s : Settings} {r : Record}

/-! ## Texts asked for exactly -/

/-- Percent-encoded texts are plain. -/
theorem plain_encode (t : Text) : Plain (Percent.encode t) := by
  have houtside : ∀ c ∈ structural, c ∉ Percent.alphabet := by
    simp [structural, Percent.alphabet]
  exact fun c hc => Percent.notMem_encode (houtside c hc) t

/-- A query that compares a field with an encoded literal says what that comparison says of the
field. -/
theorem evaluate_encode_eq_matchesValue {name : Text} (hname : Plain name) {value : Value}
    (hfield : r.field? name = some value) (operator : Operator) (t : Text) :
    evaluate s (name ++ (operator.token ++ Percent.encode t)) r =
      Clause.matchesValue ⟨name, operator, Percent.encode t⟩ s value := by
  have hvalue : r.field name = value := by rw [Record.field, hfield, Option.getD_some]
  have hcomparison := evaluate_comparison (s := s) (r := r)
    ⟨⟨name, operator, Percent.encode t⟩, hname, plain_encode t⟩
  rw [Clause.render] at hcomparison
  rw [hcomparison, outcome, hvalue]

/-- A query that compares a text with an encoded literal takes the decoded literal as a glob. -/
theorem evaluate_encode {name text : Text} (hname : Plain name)
    (hfield : r.field? name = some (.text text)) {operator : Operator}
    (hequality : operator.isEquality = true) (t : Text) :
    evaluate s (name ++ (operator.token ++ Percent.encode t)) r =
      .ok (Glob.equals operator.ignoresCase (Literal.reading s.unescape t) text !=
        operator.isNegated) := by
  rw [evaluate_encode_eq_matchesValue hname hfield,
    Clause.matchesValue_text_encode rfl hequality]

/-- **Any text can be asked for exactly.** Compared with the encoding of the quoted text `t`, letters
in the same case, a field that holds a text matches if that text is `t`, and else does not; the
query never fails. -/
theorem evaluate_exactText (s : Settings) (r : Record) (name t text : Text)
    (hunescape : s.unescape = false) (hname : Plain name)
    (hfield : r.field? name = some (.text text)) :
    evaluate s (name ++ (Operator.equalCase.token ++ Percent.encode (Glob.quote t))) r =
      .ok (decide (text = t)) := by
  rw [evaluate_encode hname hfield rfl, hunescape, Literal.reading_false]
  show Except.ok (Glob.equals false (Glob.quote t) text != false) = _
  rw [Glob.equals_quote, Bool.bne_false, beq_eq_decide]

/-- Wildcards, a backslash, brackets, a bar and a line feed are asked for like any other text. -/
theorem evaluate_exactText_wildcards :
    let t := ['[', '*', '\\', '?', '|', 'é', '\n', ']']
    evaluate {} (['n'] ++ (Operator.equalCase.token ++ Percent.encode (Glob.quote t)))
        ⟨[(['n'], .text t)]⟩ = .ok true ∧
      evaluate {} (['n'] ++ (Operator.equalCase.token ++ Percent.encode (Glob.quote t)))
        ⟨[(['n'], .text ['[', 'x', '\\', 'y', '|', 'é', '\n', ']'])]⟩ = .ok false :=
  ⟨(evaluate_exactText {} _ ['n'] _ _ rfl (by decide) rfl).trans rfl,
    (evaluate_exactText {} _ ['n'] _ _ rfl (by decide) rfl).trans rfl⟩

/-! ## Where control characters may be named -/

/-- **Where control characters may be named, a text is asked for with them put in.** Compared with
the encoding of the quoted text `t`, a field matches if its text is `t` with a control character in
the place of each name. So `t` itself matches exactly if no name is in it, that is, if none of its
backslashes stands right before `n`, `t` or `r`. -/
theorem evaluate_exactText_unescape (s : Settings) (r : Record) (name t text : Text)
    (hunescape : s.unescape = true) (hname : Plain name)
    (hfield : r.field? name = some (.text text)) :
    evaluate s (name ++ (Operator.equalCase.token ++ Percent.encode (Glob.quote t))) r =
        .ok (decide (text = Literal.unescapeControls t)) ∧
      (text = t →
        (evaluate s (name ++ (Operator.equalCase.token ++ Percent.encode (Glob.quote t))) r =
            .ok true ↔ ∀ c ∈ Literal.controlNames, ¬['\\', c] <:+: t)) := by
  have hresult :
      evaluate s (name ++ (Operator.equalCase.token ++ Percent.encode (Glob.quote t))) r =
        .ok (decide (text = Literal.unescapeControls t)) := by
    rw [evaluate_encode hname hfield rfl, hunescape]
    show Except.ok (Glob.equals false (Literal.unescapeControls (Glob.quote t)) text != false) = _
    rw [Glob.equals_unescapeControls_quote, Bool.bne_false, beq_eq_decide]
  refine ⟨hresult, ?_⟩
  rintro rfl
  rw [hresult, Except.ok.injEq, decide_eq_true_iff, eq_comm]
  exact Literal.unescapeControls_eq_self_iff

/-- Backslashes before other characters, and two of them in a row, are asked for like any other
text. If the second one of two names a control character, the text with the line feed matches. -/
theorem evaluate_exactText_unescape_backslashes :
    let other := ['\\', '\\', '*', 'n', '\\', 'N', '\n', '\\']
    let named := ['\\', '\\', 'n', '?']
    evaluate { unescape := true }
        (['n'] ++ (Operator.equalCase.token ++ Percent.encode (Glob.quote other)))
        ⟨[(['n'], .text other)]⟩ = .ok true ∧
      evaluate { unescape := true }
        (['n'] ++ (Operator.equalCase.token ++ Percent.encode (Glob.quote named)))
        ⟨[(['n'], .text ['\\', '\n', '?'])]⟩ = .ok true ∧
      evaluate { unescape := true }
        (['n'] ++ (Operator.equalCase.token ++ Percent.encode (Glob.quote named)))
        ⟨[(['n'], .text named)]⟩ ≠ .ok true := by
  refine ⟨?_, ?_, ?_⟩
  · refine ((evaluate_exactText_unescape _ _ ['n'] _ _ rfl (by decide) rfl).2 rfl).2 ?_
    simp only [Literal.controlNames, List.forall_mem_cons]
    exact ⟨by decide, by decide, by decide, List.forall_mem_nil _⟩
  · exact (evaluate_exactText_unescape _ _ ['n'] _ _ rfl (by decide) rfl).1.trans rfl
  · intro h
    have hnames := ((evaluate_exactText_unescape _ _ ['n'] _ _ rfl (by decide) rfl).2 rfl).1 h
    exact hnames 'n' (by decide) ⟨['\\'], ['?'], rfl⟩

/-- A backslash and the letter `n` do not match the quotation of themselves where control characters
may be named. -/
theorem evaluate_quotedBackslash :
    evaluate { unescape := true }
      (['n'] ++ (Operator.equalCase.token ++ Percent.encode (Glob.quote ['\\', 'n'])))
      ⟨[(['n'], .text ['\\', 'n'])]⟩ = .ok false :=
  (evaluate_encode (by decide) rfl rfl _).trans rfl

end Query

end RecordFilter
