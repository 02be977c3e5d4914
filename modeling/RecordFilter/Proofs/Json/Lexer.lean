import RecordFilter.Proofs.Json.Numeral

/-! # Tokens of what is written

A word or a string is cut off a text as one token, whatever follows it, and so is the text of a
number, if what follows cannot belong to a numeral. What a number is written as need not be a token
for that number: it may be one for another number or for null, and it may be refused
(`exists_token_numberText`). -/

namespace RecordFilter.Json

/-! ## Strings -/

/-- A lower-case hexadecimal digit is read back. -/
theorem hexValue?_digitChar {n : Nat} (h : n < 16) :
    Percent.hexValue? (Nat.digitChar n) = some n := by
  have hall : ∀ i : Fin 16, Percent.hexValue? (Nat.digitChar i) = some i.val := by decide
  exact hall ⟨n, h⟩

/-- The code of a control character is read back. -/
theorem unit?_control {n : Nat} (h : n < 0x20) :
    unit? '0' '0' (Nat.digitChar (n / 16)) (Nat.digitChar (n % 16)) = some n := by
  have hzero : Percent.hexValue? '0' = some 0 := rfl
  have hvalue : ((0 * 16 + 0) * 16 + n / 16) * 16 + n % 16 = n := by omega
  simp only [unit?, hzero, hexValue?_digitChar (show n / 16 < 16 by omega),
    hexValue?_digitChar (Nat.mod_lt n (by decide)), Option.bind_eq_bind, Option.bind_some,
    Option.pure_def, hvalue]

/-- A character of a string is read back, and then the rest of the string. -/
theorem string?_escapeChar_append (c : Char) (t : Text) :
    string? (escapeChar c ++ t) = (string? t).map fun (s, rest) => (c :: s, rest) := by
  -- Behind a backslash a letter that is not `u` stands for one character.
  have hletter : ∀ letter, letter ≠ 'u' → controlLetter? letter = some c →
      string? ('\\' :: letter :: t) = (string? t).map fun (s, rest) => (c :: s, rest) := by
    intro letter hletter hcontrol
    rw [string?.eq_4 _ _ (fun _ _ _ _ _ heq => absurd heq hletter), hcontrol]
    cases string? t <;> rfl
  unfold escapeChar
  split
  next => exact hletter '"' (by decide) rfl
  next => exact hletter '\\' (by decide) rfl
  next => exact hletter 'b' (by decide) rfl
  next => exact hletter 'f' (by decide) rfl
  next => exact hletter 'n' (by decide) rfl
  next => exact hletter 'r' (by decide) rfl
  next => exact hletter 't' (by decide) rfl
  next hquote hbackslash _ _ _ _ _ =>
    split
    next hcontrol =>
      -- A control character is written as a code unit that stands for itself.
      have hcharacter : character? c.toNat t = some (c, 0) := by
        rw [character?.eq_def, if_neg (by omega), if_neg (by omega), Char.ofNat_toNat]
      simp only [List.cons_append, List.nil_append]
      rw [string?, unit?_control hcontrol]
      simp only [Option.bind_eq_bind, Option.bind_some, hcharacter, List.drop_zero]
      cases string? t <;> rfl
    next hcontrol =>
      rw [List.singleton_append, string?, if_neg]
      · exact fun hor => hor.elim hcontrol hbackslash
      · exact hquote
      · exact fun _ _ _ _ _ h _ => hbackslash h
      · exact fun _ _ h _ => hbackslash h

/-- A string is read back, up to its closing quotation mark. -/
theorem string?_append (s rest : Text) :
    string? (s.flatMap escapeChar ++ '"' :: rest) = some (s, rest) := by
  induction s with
  | nil => rw [List.flatMap_nil, List.nil_append, string?]
  | cons c s ih => rw [List.flatMap_cons, List.append_assoc, string?_escapeChar_append, ih]; rfl

/-! ## Tokens -/

/-- A token that starts a text is the first of its tokens. -/
theorem tokens?_of_token? {c : Char} {t rest : Text} {token : Token} (hspace : isSpace c = false)
    (htoken : token? (c :: t) = some (token, rest)) :
    tokens? (c :: t) = (tokens? rest).map (token :: ·) := by
  rw [tokens?_cons, hspace, htoken]
  rfl

/-- Where no token starts, there are no tokens. -/
theorem tokens?_eq_none {c : Char} {t : Text} (hspace : isSpace c = false)
    (htoken : token? (c :: t) = none) : tokens? (c :: t) = none := by
  rw [tokens?_cons, hspace, htoken]
  rfl

section Marks

variable (t : Text)

@[simp] theorem tokens?_openArray : tokens? ('[' :: t) = (tokens? t).map (.openArray :: ·) :=
  tokens?_of_token? rfl rfl

@[simp] theorem tokens?_closeArray : tokens? (']' :: t) = (tokens? t).map (.closeArray :: ·) :=
  tokens?_of_token? rfl rfl

@[simp] theorem tokens?_openObject : tokens? ('\x7b' :: t) = (tokens? t).map (.openObject :: ·) :=
  tokens?_of_token? rfl rfl

@[simp] theorem tokens?_closeObject :
    tokens? ('\x7d' :: t) = (tokens? t).map (.closeObject :: ·) :=
  tokens?_of_token? rfl rfl

@[simp] theorem tokens?_comma : tokens? (',' :: t) = (tokens? t).map (.comma :: ·) :=
  tokens?_of_token? rfl rfl

@[simp] theorem tokens?_colon : tokens? (':' :: t) = (tokens? t).map (.colon :: ·) :=
  tokens?_of_token? rfl rfl

theorem tokens?_null_append :
    tokens? (['n', 'u', 'l', 'l'] ++ t) = (tokens? t).map (.null :: ·) :=
  tokens?_of_token? rfl rfl

theorem tokens?_boolText_append (b : Bool) :
    tokens? (Value.boolText b ++ t) = (tokens? t).map (.bool b :: ·) := by
  cases b with
  | false => exact tokens?_of_token? rfl rfl
  | true => exact tokens?_of_token? rfl rfl

theorem tokens?_stringText_append (s : Text) :
    tokens? (stringText s ++ t) = (tokens? t).map (.string s :: ·) := by
  have hassoc : stringText s ++ t = '"' :: (s.flatMap escapeChar ++ '"' :: t) := by
    simp [stringText]
  rw [hassoc]
  refine tokens?_of_token? rfl ?_
  rw [token?, string?_append]
  rfl

end Marks

/-! ## Numbers -/

/-- A minus or a digit starts a numeral. -/
theorem token?_numeral {c : Char} (h : c = '-' ∨ c.isDigit = true) (t : Text) :
    token? (c :: t) = do
      let (numeral, rest) ← Numeral.span? (c :: t)
      let n ← numeral.number?
      return (.number n, rest) := by
  rw [token?, if_pos (by simpa using h)]
  -- The marks and the quotation mark are neither a minus nor a digit.
  all_goals
    rintro rfl
    revert h
    decide

theorem isSpace_eq_false {c : Char} (h : c = '-' ∨ c.isDigit = true) : isSpace c = false := by
  rcases h with rfl | h
  · rfl
  · have hcode := toNat_of_isDigit h
    cases hspace : isSpace c with
    | false => rfl
    | true =>
      simp only [isSpace, Bool.or_eq_true, beq_iff_eq] at hspace
      rcases hspace with ((rfl | rfl) | rfl) | rfl <;> revert hcode <;> decide

/-- **A numeral is one token if it denotes a number, and is refused if it does not**, wherever
nothing that could belong to it follows it. -/
theorem tokens?_text_append {numeral : Numeral} (h : numeral.IsGrammatical) {rest : Text}
    (hrest : EndsNumeral rest) :
    tokens? (numeral.text ++ rest) =
      numeral.number?.bind fun n => (tokens? rest).map (.number n :: ·) := by
  obtain ⟨c, t, ht, hc⟩ := Numeral.exists_text_eq_cons h
  have hspan := Numeral.span?_text_append h hrest
  rw [ht, List.cons_append] at hspan
  have htoken : token? (c :: (t ++ rest)) =
      numeral.number?.bind fun n => some (.number n, rest) := by
    rw [token?_numeral hc, hspan]
    rfl
  rw [ht, List.cons_append]
  cases hnumber : numeral.number? with
  | none =>
    rw [hnumber] at htoken
    exact tokens?_eq_none (isSpace_eq_false hc) htoken
  | some n =>
    rw [hnumber] at htoken
    exact tokens?_of_token? (isSpace_eq_false hc) htoken

/-- The text of a number is one token, that of a number or of null, or it is refused. -/
theorem exists_token_numberText (n : Number) :
    (∀ rest, EndsNumeral rest → tokens? (numberText n ++ rest) = none) ∨
      ∃ token, (token = .null ∨ ∃ m, token = .number m) ∧ ∀ rest, EndsNumeral rest →
        tokens? (numberText n ++ rest) = (tokens? rest).map (token :: ·) := by
  rcases Numeral.exists_numeral n with hnull | ⟨numeral, hgrammatical, htext⟩
  · rw [hnull]
    exact .inr ⟨.null, .inl rfl, fun rest _ => tokens?_null_append rest⟩
  · rw [htext]
    cases hnumber : numeral.number? with
    | none =>
      refine .inl fun rest hrest => ?_
      rw [tokens?_text_append hgrammatical hrest, hnumber]
      rfl
    | some m =>
      refine .inr ⟨.number m, .inr ⟨m, rfl⟩, fun rest hrest => ?_⟩
      rw [tokens?_text_append hgrammatical hrest, hnumber]
      rfl

end RecordFilter.Json
