import RecordFilter.Json.Numeral
import RecordFilter.Text.Percent

/-! # JSON tokens

A document is cut into tokens before it is read. White space between tokens is passed over; a
numeral or a word that touches another token is told apart from it all the same, since no document
has two values side by side. -/

namespace RecordFilter.Json

/-- A token. -/
inductive Token where
  | openArray
  | closeArray
  | openObject
  | closeObject
  | comma
  | colon
  | null
  | bool (b : Bool)
  | number (n : Number)
  | string (s : Text)
  deriving DecidableEq

/-- A character of white space between tokens. -/
def isSpace (c : Char) : Bool := c == ' ' || c == '\t' || c == '\n' || c == '\r'

/-- The number that four hexadecimal digits stand for. -/
def unit? (a b c d : Char) : Option Nat := do
  let a ← Percent.hexValue? a
  let b ← Percent.hexValue? b
  let c ← Percent.hexValue? c
  let d ← Percent.hexValue? d
  return ((a * 16 + b) * 16 + c) * 16 + d

/-- The character that a letter after a backslash stands for. -/
def controlLetter? : Char → Option Char
  | '"' => some '"'
  | '\\' => some '\\'
  | '/' => some '/'
  | 'b' => some '\x08'
  | 'f' => some '\x0c'
  | 'n' => some '\n'
  | 'r' => some '\r'
  | 't' => some '\t'
  | _ => none

/-- The character of a code unit and, if that is the first of a pair, of the code unit behind it,
together with the characters left. A unit that belongs to a pair stands for nothing alone. -/
def character? (u : Nat) (t : Text) : Option (Char × Nat) :=
  if 0xDC00 ≤ u ∧ u < 0xE000 then none
  else if 0xD800 ≤ u ∧ u < 0xDC00 then
    match t with
    | '\\' :: 'u' :: a :: b :: c :: d :: _ => do
      let v ← unit? a b c d
      if 0xDC00 ≤ v ∧ v < 0xE000 then
        return (Char.ofNat (0x10000 + (u - 0xD800) * 0x400 + (v - 0xDC00)), 6)
      else none
    | _ => none
  else some (Char.ofNat u, 0)

/-- Read a string whose opening quotation mark is read already. -/
def string? : Text → Option (Text × Text)
  | [] => none
  | '"' :: t => some ([], t)
  | '\\' :: 'u' :: a :: b :: c :: d :: t => do
    let (character, used) ← character? (← unit? a b c d) t
    let (s, rest) ← string? (t.drop used)
    return (character :: s, rest)
  | '\\' :: c :: t => do
    let character ← controlLetter? c
    let (s, rest) ← string? t
    return (character :: s, rest)
  | c :: t =>
    if c.toNat < 0x20 ∨ c = '\\' then none
    else (string? t).map fun (s, rest) => (c :: s, rest)
termination_by t => t.length
decreasing_by all_goals (simp only [List.length_drop, List.length_cons]; omega)

/-- A string takes at least its closing quotation mark. -/
theorem length_lt_of_string? {t s rest : Text} (h : string? t = some (s, rest)) :
    rest.length < t.length := by
  fun_induction string? t generalizing s rest with
  | case1 => simp at h
  | case2 t =>
    obtain ⟨-, rfl⟩ : [] = s ∧ t = rest := by simpa using h
    simp
  | case3 a b c d t ih =>
    simp only [Option.bind_eq_bind, Option.bind_eq_some_iff, Option.pure_def, Option.some.injEq,
      Prod.mk.injEq, Prod.exists] at h
    obtain ⟨_, -, _, used, -, _, _, hr, -, rfl⟩ := h
    have := ih used hr
    simp only [List.length_drop] at this
    simp only [List.length_cons]
    omega
  | case4 c t _ ih =>
    simp only [Option.bind_eq_bind, Option.bind_eq_some_iff, Option.pure_def, Option.some.injEq,
      Prod.mk.injEq, Prod.exists] at h
    obtain ⟨_, -, _, _, hr, -, rfl⟩ := h
    have := ih hr
    simp only [List.length_cons]
    omega
  | case5 => simp at h
  | case6 c t _ _ _ _ ih =>
    obtain ⟨⟨s', rest'⟩, hr, he⟩ := Option.map_eq_some_iff.1 h
    obtain ⟨-, rfl⟩ : c :: s' = s ∧ rest' = rest := by simpa using he
    exact Nat.lt_succ_of_lt (ih hr)

/-- Read the word `null`, `true` or `false`. -/
def word? : Text → Option (Token × Text)
  | 'n' :: 'u' :: 'l' :: 'l' :: t => some (.null, t)
  | 't' :: 'r' :: 'u' :: 'e' :: t => some (.bool true, t)
  | 'f' :: 'a' :: 'l' :: 's' :: 'e' :: t => some (.bool false, t)
  | _ => none

/-- Read a token off the start of a text that does not start with white space. -/
def token? : Text → Option (Token × Text)
  | [] => none
  | '[' :: t => some (.openArray, t)
  | ']' :: t => some (.closeArray, t)
  | '\x7b' :: t => some (.openObject, t)
  | '\x7d' :: t => some (.closeObject, t)
  | ',' :: t => some (.comma, t)
  | ':' :: t => some (.colon, t)
  | '"' :: t => (string? t).map fun (s, rest) => (.string s, rest)
  | c :: t =>
    if c = '-' || c.isDigit then do
      let (numeral, rest) ← Numeral.span? (c :: t)
      let n ← numeral.number?
      return (.number n, rest)
    else word? (c :: t)

theorem length_lt_of_word? {t rest : Text} {token : Token} (h : word? t = some (token, rest)) :
    rest.length < t.length := by
  unfold word? at h
  split at h <;> simp at h <;> simp [← h.2]
  all_goals omega

/-- A token takes at least one character. -/
theorem length_lt_of_token? {t rest : Text} {token : Token} (h : token? t = some (token, rest)) :
    rest.length < t.length := by
  unfold token? at h
  split at h
  next => simp at h
  iterate 6 next => simp at h; simp [← h.2]
  next t =>
    obtain ⟨⟨s, rest'⟩, hr, he⟩ := Option.map_eq_some_iff.1 h
    obtain ⟨-, rfl⟩ : Token.string s = token ∧ rest' = rest := by simpa using he
    exact Nat.lt_succ_of_lt (length_lt_of_string? hr)
  next c t _ _ _ _ _ _ _ =>
    split at h
    next =>
      simp only [Option.bind_eq_bind, Option.bind_eq_some_iff, Option.pure_def, Option.some.injEq,
        Prod.mk.injEq, Prod.exists] at h
      obtain ⟨_, _, hn, _, -, -, rfl⟩ := h
      exact Numeral.length_lt_of_span? hn
    next => exact length_lt_of_word? h

/-- The tokens of a text. -/
def tokens? : Text → Option (List Token)
  | [] => some []
  | c :: t =>
    if isSpace c then tokens? t
    else match _h : token? (c :: t) with
      | some (token, rest) => (tokens? rest).map (token :: ·)
      | none => none
termination_by t => t.length
decreasing_by
  · simp
  · exact length_lt_of_token? _h

@[simp] theorem tokens?_nil : tokens? [] = some [] := by rw [tokens?]

/-- The tokens of a text are the first, if it does not start with white space, and those of what
follows it. -/
theorem tokens?_cons (c : Char) (t : Text) :
    tokens? (c :: t) =
      if isSpace c then tokens? t
      else (token? (c :: t)).bind fun (token, rest) => (tokens? rest).map (token :: ·) := by
  rw [tokens?]
  split
  · rfl
  · split <;> simp [*]

end RecordFilter.Json
