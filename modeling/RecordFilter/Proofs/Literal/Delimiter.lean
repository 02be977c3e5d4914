import RecordFilter.Proofs.Clause.Encoded

/-! # Literals and their delimiters

Bars, brackets and tildes divide a written literal into parts. No percent escape, no character of
several bytes and no name of a control character reaches over one of them, so a literal is decoded
part by part, and it can be decoded exactly if its parts can (`decode_append_delimiter_eq_ok_iff`).
This holds in particular of a literal in brackets (`decode_inBrackets_eq_ok_iff`) and of one made of
alternatives (`exists_decode_joinBars_iff`), which are found again when the literal is taken apart
(`bracketed?_eq_some_iff`, `alternation?_joinBars`). -/

namespace RecordFilter.Literal

variable {unescape : Bool}

/-! ## Delimiters -/

/-- The characters that divide a literal into parts. -/
def delimiters : Text := ['|', '[', ']', '~']

/-- The names of control characters. -/
def controlNames : Text := ['n', 't', 'r']

/-- A delimiter is one byte, and belongs to no escape and to no name of a control character. -/
theorem plain_of_mem_delimiters {d : Char} (hd : d ∈ delimiters) :
    d.toNat < 0x80 ∧ (Percent.hexValue? d = none ∧ d ≠ '%' ∧ d ≠ '+') ∧
      d ≠ '\\' ∧ d ∉ controlNames := by
  simp only [delimiters, List.mem_cons, List.not_mem_nil, or_false] at hd
  rcases hd with rfl | rfl | rfl | rfl <;> decide

/-- The control character that a name stands for. -/
def controlOf : Char → Char
  | 'n' => '\n'
  | 't' => '\t'
  | _ => '\r'

/-- A control character is put in the place of its name. -/
theorem unescapeControls_name {d : Char} (hd : d ∈ controlNames) (t : Text) :
    unescapeControls ('\\' :: d :: t) = controlOf d :: unescapeControls t := by
  simp only [controlNames, List.mem_cons, List.not_mem_nil, or_false] at hd
  rcases hd with rfl | rfl | rfl <;> rw [unescapeControls, controlOf]
  all_goals decide

/-- A character is copied unless it is a backslash in front of the name of a control character. -/
theorem unescapeControls_cons {c : Char} {t : Text}
    (h : c = '\\' → ∀ d ∈ controlNames, t.head? ≠ some d) :
    unescapeControls (c :: t) = c :: unescapeControls t := by
  rw [unescapeControls]
  · rintro u rfl rfl
    exact h rfl 'n' (by decide) rfl
  · rintro u rfl rfl
    exact h rfl 't' (by decide) rfl
  · rintro u rfl rfl
    exact h rfl 'r' (by decide) rfl

/-- A text is taken apart from its start, a name of a control character or one other character at a
time. -/
@[elab_as_elim]
theorem controls_induction {motive : Text → Prop} (nil : motive [])
    (name : ∀ d ∈ controlNames, ∀ t, motive t → motive ('\\' :: d :: t))
    (copied : ∀ c t, (c = '\\' → ∀ d ∈ controlNames, t.head? ≠ some d) → motive t →
      motive (c :: t)) (t : Text) : motive t := by
  induction t using unescapeControls.induct with
  | case1 t ih => exact name 'n' (by decide) t ih
  | case2 t ih => exact name 't' (by decide) t ih
  | case3 t ih => exact name 'r' (by decide) t ih
  | case4 c t hn ht hr ih =>
    refine copied c t (fun hc d hd hhead => ?_) ih
    obtain ⟨u, rfl⟩ := List.head?_eq_some_iff.1 hhead
    simp only [controlNames, List.mem_cons, List.not_mem_nil, or_false] at hd
    rcases hd with rfl | rfl | rfl
    · exact hn u hc rfl
    · exact ht u hc rfl
    · exact hr u hc rfl
  | case5 => exact nil

/-- What stands before a character that is neither a backslash nor a name, and what stands behind
it, has its control characters put in on its own. -/
theorem unescapeControls_append_cons {d : Char} (hslash : d ≠ '\\') (hname : d ∉ controlNames)
    (a b : Text) :
    unescapeControls (a ++ d :: b) = unescapeControls a ++ d :: unescapeControls b := by
  induction a using controls_induction with
  | nil => exact unescapeControls_cons fun h => absurd h hslash
  | name e he t ih =>
    simp only [List.cons_append, unescapeControls_name he, ih]
  | copied c t hcopied ih =>
    -- If `t` is empty, the backslash has `d` behind it, which is no name.
    have hcut : c = '\\' → ∀ e ∈ controlNames, (t ++ d :: b).head? ≠ some e := by
      intro hc e he
      cases t with
      | nil =>
        rintro ⟨⟩
        exact hname he
      | cons f t => exact hcopied hc e he
    rw [List.cons_append, unescapeControls_cons hcut, unescapeControls_cons hcopied, ih,
      List.cons_append]

/-- The reading of a text that has been decoded is taken piece by piece, too. -/
theorem reading_append_delimiter {d : Char} (hd : d ∈ delimiters) (a b : Text) :
    reading unescape (a ++ d :: b) = reading unescape a ++ d :: reading unescape b := by
  cases unescape with
  | false => rfl
  | true =>
    obtain ⟨-, -, hslash, hname⟩ := plain_of_mem_delimiters hd
    exact unescapeControls_append_cons hslash hname a b

/-- A written literal is decoded where its escapes are in order. -/
theorem decode_eq_ok_iff {raw t : Text} :
    decode unescape raw = .ok t ↔ ∃ plain, Percent.decode? raw = some plain ∧
      reading unescape plain = t := by
  rw [decode]
  cases Percent.decode? raw <;> simp [reading]

/-- **A literal is decoded part by part**, and it can be decoded exactly if the part before a
delimiter and the part behind it can. -/
theorem decode_append_delimiter_eq_ok_iff {d : Char} (hd : d ∈ delimiters) {a b t : Text} :
    decode unescape (a ++ d :: b) = .ok t ↔
      ∃ x y, decode unescape a = .ok x ∧ decode unescape b = .ok y ∧ t = x ++ d :: y := by
  obtain ⟨hascii, ⟨hdigit, hpercent, hplus⟩, -, -⟩ := plain_of_mem_delimiters hd
  simp only [decode_eq_ok_iff, Percent.decode?_append_cons hascii hdigit hpercent hplus]
  constructor
  · rintro ⟨plain, hdecode, rfl⟩
    obtain ⟨x, hx, hdecode⟩ := Option.bind_eq_some_iff.1 hdecode
    obtain ⟨y, hy, rfl⟩ := Option.map_eq_some_iff.1 hdecode
    exact ⟨_, _, ⟨x, hx, rfl⟩, ⟨y, hy, rfl⟩, reading_append_delimiter hd x y⟩
  · rintro ⟨_, _, ⟨x, hx, rfl⟩, ⟨y, hy, rfl⟩, rfl⟩
    refine ⟨x ++ d :: y, ?_, reading_append_delimiter hd x y⟩
    rw [hx, hy]
    rfl

/-- The empty literal is decoded. -/
theorem decode_nil : decode unescape [] = .ok [] := by
  cases unescape <;> rfl

/-! ## Brackets -/

/-- A text in brackets. -/
def inBrackets (t : Text) : Text := '[' :: (t ++ [']'])

/-- A text that does not start with a bracket is not in brackets. -/
theorem ne_inBrackets {raw : Text} (h : raw.head? ≠ some '[') (t : Text) : raw ≠ inBrackets t := by
  rintro rfl
  exact h rfl

/-- The text between brackets is the one that the brackets have been put around. -/
theorem bracketed?_eq_some_iff {raw t : Text} : bracketed? raw = some t ↔ raw = inBrackets t := by
  constructor
  · intro h
    rw [bracketed?.eq_def] at h
    split at h
    next u =>
      split at h
      next hlast =>
        obtain rfl := Option.some.inj h
        rw [inBrackets, List.dropLast_append_getLast? _ hlast]
      next => cases h
    next => cases h
  · rintro rfl
    rw [inBrackets, bracketed?, if_pos List.getLast?_concat, List.dropLast_concat]

/-- A literal that is nothing in brackets has no text between its brackets. -/
theorem bracketed?_eq_none_iff {raw : Text} :
    bracketed? raw = none ↔ ∀ t, raw ≠ inBrackets t := by
  rw [Option.eq_none_iff_forall_ne_some]
  exact forall_congr' fun t => not_congr bracketed?_eq_some_iff

/-- **A literal in brackets is decoded between them.** -/
theorem decode_inBrackets_eq_ok_iff {raw t : Text} :
    decode unescape (inBrackets raw) = .ok t ↔
      ∃ inner, decode unescape raw = .ok inner ∧ t = inBrackets inner := by
  have hopening : '[' ∈ delimiters := by decide
  have hclosing : ']' ∈ delimiters := by decide
  show decode unescape ([] ++ '[' :: (raw ++ ']' :: [])) = .ok t ↔ _
  simp only [decode_append_delimiter_eq_ok_iff hopening,
    decode_append_delimiter_eq_ok_iff hclosing, decode_nil]
  constructor
  · rintro ⟨_, _, ⟨⟩, ⟨inner, _, hinner, ⟨⟩, rfl⟩, rfl⟩
    exact ⟨inner, hinner, rfl⟩
  · rintro ⟨inner, hinner, rfl⟩
    exact ⟨[], inner ++ [']'], rfl, ⟨inner, [], hinner, rfl, rfl⟩, rfl⟩

/-- Brackets do not matter to whether a literal can be decoded. -/
theorem exists_decode_inBrackets_iff {raw : Text} :
    (∃ t, decode unescape (inBrackets raw) = .ok t) ↔ ∃ t, decode unescape raw = .ok t := by
  simp only [decode_inBrackets_eq_ok_iff]
  constructor
  · rintro ⟨_, inner, hinner, rfl⟩
    exact ⟨inner, hinner⟩
  · rintro ⟨inner, hinner⟩
    exact ⟨inBrackets inner, inner, hinner, rfl⟩

/-! ## Alternatives -/

/-- Alternatives with bars between them. -/
def joinBars (options : List Text) : Text := ['|'].intercalate options

theorem joinBars_cons (option other : Text) (options : List Text) :
    joinBars (option :: other :: options) = option ++ '|' :: joinBars (other :: options) := by
  rw [joinBars, joinBars, List.intercalate_cons_cons, List.append_assoc, List.singleton_append]

/-- **Alternatives can be decoded together if each of them can.** -/
theorem exists_decode_joinBars_iff {options : List Text} :
    (∃ t, decode unescape (joinBars options) = .ok t) ↔
      ∀ option ∈ options, ∃ t, decode unescape option = .ok t := by
  induction options with
  | nil => simpa using ⟨[], decode_nil⟩
  | cons option options ih =>
    rw [List.forall_mem_cons, ← ih]
    cases options with
    | nil => simp [joinBars, decode_nil]
    | cons other options =>
      have hd : '|' ∈ delimiters := by decide
      simp only [joinBars_cons, decode_append_delimiter_eq_ok_iff hd]
      constructor
      · rintro ⟨_, x, y, hx, hy, rfl⟩
        exact ⟨⟨x, hx⟩, y, hy⟩
      · rintro ⟨⟨x, hx⟩, y, hy⟩
        exact ⟨_, x, y, hx, hy, rfl⟩

/-- Two alternatives or more have a bar between them. -/
theorem bar_mem_joinBars {options : List Text} (h : 2 ≤ options.length) :
    '|' ∈ joinBars options := by
  match options, h with
  | option :: other :: options, _ =>
    rw [joinBars_cons]
    exact List.mem_append_right option List.mem_cons_self

section Alternation

variable {options : List Text}

/-- Alternatives without bars are found again by cutting at the bars. -/
theorem splitOn_joinBars (hlength : 2 ≤ options.length) (hbar : ∀ option ∈ options, '|' ∉ option) :
    (joinBars options).splitOn '|' = options := by
  apply List.splitOn_intercalate '|' hbar
  rintro rfl
  contradiction

/-- **Alternatives are recognised** where they are not in brackets. -/
theorem alternation?_joinBars (hlength : 2 ≤ options.length)
    (hbar : ∀ option ∈ options, '|' ∉ option) (hplain : ∀ t, joinBars options ≠ inBrackets t) :
    alternation? (joinBars options) = some ⟨false, options⟩ := by
  have hcontains : (joinBars options).contains '|' = true := by
    simpa using bar_mem_joinBars hlength
  rw [alternation?, if_pos hcontains, bracketed?_eq_none_iff.2 hplain,
    splitOn_joinBars hlength hbar]

/-- Alternatives in brackets are recognised as such. -/
theorem alternation?_inBrackets_joinBars (hlength : 2 ≤ options.length)
    (hbar : ∀ option ∈ options, '|' ∉ option) :
    alternation? (inBrackets (joinBars options)) = some ⟨true, options⟩ := by
  have hcontains : (inBrackets (joinBars options)).contains '|' = true := by
    simpa [inBrackets] using bar_mem_joinBars hlength
  rw [alternation?, if_pos hcontains, bracketed?_eq_some_iff.2 rfl]
  show some (⟨true, (joinBars options).splitOn '|'⟩ : Alternation) = _
  rw [splitOn_joinBars hlength hbar]

end Alternation

end RecordFilter.Literal
