import RecordFilter.Proofs.Result
import RecordFilter.Proofs.Text.Cut
import RecordFilter.Query

/-! # Reading a query from left to right

`resolve` looks for the group that the first closing parenthesis ends, writes the word for its
outcome in its place and starts again with the text that results. A reader comes to the same end in
one pass: it keeps the texts of the groups that are open, puts a new one on top at every opening
parenthesis, and at every closing one evaluates the text on top and writes the word for its outcome
behind the text below.

The state of the loop is the text of the reader followed by what it has not read yet, which is
the invariant behind `resolve_eq_run`. All that is said of queries elsewhere is said of
readers first: what one character does (`step`), then what a text does (`run`). -/

namespace RecordFilter.Query

/-- A place in an expression, as a reader from the left sees it. -/
@[ext] structure Reader where
  /-- The texts of the groups around the current one, the innermost first. -/
  outer : List Text
  /-- The text of the current group as far as it has been read, with words for closed groups. -/
  current : Text
  deriving DecidableEq

namespace Reader

/-- The reader that has read nothing. -/
def start : Reader := ⟨[], []⟩

variable (s : Settings) (r : Record)

/-- Read a character. -/
def step (reader : Reader) (c : Char) : Except QueryError Reader :=
  if c = '(' then .ok ⟨reader.current :: reader.outer, []⟩
  else if c = ')' then
    match reader.outer with
    | [] => .error (.extraClosingParenthesis reader.current.byteLength)
    | text :: outer => do
      let outcome ← combine s r reader.current
      return ⟨outer, text ++ Value.boolText outcome⟩
  else .ok ⟨reader.outer, reader.current ++ [c]⟩

/-- Read a text. -/
def run (reader : Reader) (t : Text) : Except QueryError Reader := t.foldlM (step s r) reader

/-- The outcome of an expression that has been read to its end. -/
def finish (reader : Reader) : Except QueryError Bool :=
  if reader.outer.isEmpty then combine s r reader.current else .error .unclosedParenthesis

variable {s r}

/-! ## Single steps -/

/-- An opening parenthesis opens a group. -/
@[simp] theorem step_open (reader : Reader) :
    step s r reader '(' = .ok ⟨reader.current :: reader.outer, []⟩ := rfl

/-- A closing parenthesis is one too many if no group is open. -/
@[simp] theorem step_close_nil (current : Text) :
    step s r ⟨[], current⟩ ')' = .error (.extraClosingParenthesis current.byteLength) := rfl

/-- A closing parenthesis replaces the current group by the word for its outcome. -/
@[simp] theorem step_close_cons (text : Text) (outer : List Text) (current : Text) :
    step s r ⟨text :: outer, current⟩ ')' = combine s r current >>= fun outcome =>
      .ok ⟨outer, text ++ Value.boolText outcome⟩ := rfl

/-- Every other character is kept. -/
theorem step_keep {c : Char} (ho : c ≠ '(') (hc : c ≠ ')') (reader : Reader) :
    step s r reader c = .ok ⟨reader.outer, reader.current ++ [c]⟩ := by
  rw [step, if_neg ho, if_neg hc]

/-! ## Runs -/

@[simp] theorem run_nil (reader : Reader) : run s r reader [] = .ok reader := rfl

theorem run_cons (reader : Reader) (c : Char) (t : Text) :
    run s r reader (c :: t) = step s r reader c >>= fun next => run s r next t := by
  rw [run, List.foldlM_cons]
  rfl

theorem run_append (reader : Reader) (a b : Text) :
    run s r reader (a ++ b) = run s r reader a >>= fun next => run s r next b := by
  rw [run, List.foldlM_append]
  rfl

/-- Behind an opening parenthesis a group is read. -/
@[simp] theorem run_open (reader : Reader) (t : Text) :
    run s r reader ('(' :: t) = run s r ⟨reader.current :: reader.outer, []⟩ t := by
  rw [run_cons, step_open]
  rfl

/-- A text without parentheses is kept as a whole. -/
theorem run_keep {t : Text} (ho : '(' ∉ t) (hc : ')' ∉ t) (reader : Reader) :
    run s r reader t = .ok ⟨reader.outer, reader.current ++ t⟩ := by
  induction t generalizing reader with
  | nil => simp
  | cons c t ih =>
    rw [List.mem_cons, not_or] at ho hc
    rw [run_cons, step_keep (Ne.symm ho.1) (Ne.symm hc.1)]
    refine (ih ho.2 hc.2 _).trans ?_
    rw [List.append_assoc, List.singleton_append]

/-! ## The text of a reader -/

/-- The texts of open groups, each followed by the parenthesis that opens the next. -/
def opened : List Text → Text
  | [] => []
  | text :: outer => opened outer ++ text ++ ['(']

/-- The expression that the loop holds in place of what has been read. -/
def text (reader : Reader) : Text := opened reader.outer ++ reader.current

@[simp] theorem text_nil (current : Text) : text ⟨[], current⟩ = current := rfl

/-- The text of an open group stands behind those of the groups around it. -/
theorem text_cons (text : Text) (outer : List Text) (current : Text) :
    Reader.text ⟨text :: outer, current⟩ = Reader.text ⟨outer, text⟩ ++ '(' :: current := by
  simp [Reader.text, opened]

/-- What is read within a group is read within the expression. -/
theorem text_append (outer : List Text) (current t : Text) :
    text ⟨outer, current ++ t⟩ = text ⟨outer, current⟩ ++ t := by
  simp [text]

/-- There are no parentheses in the texts of a reader. -/
structure Clean (reader : Reader) : Prop where
  outer : ∀ text ∈ reader.outer, '(' ∉ text ∧ ')' ∉ text
  current : '(' ∉ reader.current ∧ ')' ∉ reader.current

theorem clean_start : Clean start := ⟨by simp [start], by simp [start]⟩

/-- No word for an outcome holds a parenthesis. -/
theorem parentheses_notMem_boolText (b : Bool) :
    '(' ∉ Value.boolText b ∧ ')' ∉ Value.boolText b := by
  cases b <;> decide

/-- Opening a group keeps a reader clean. -/
theorem Clean.open {reader : Reader} (h : reader.Clean) :
    Clean ⟨reader.current :: reader.outer, []⟩ :=
  ⟨List.forall_mem_cons.2 ⟨h.current, h.outer⟩, by simp⟩

/-- Closing a group keeps a reader clean. -/
theorem Clean.close {text : Text} {outer : List Text} {current : Text}
    (h : Clean ⟨text :: outer, current⟩) (outcome : Bool) :
    Clean ⟨outer, text ++ Value.boolText outcome⟩ := by
  obtain ⟨htext, houter⟩ := List.forall_mem_cons.1 h.outer
  have hword := parentheses_notMem_boolText outcome
  exact ⟨houter, by simp [htext, hword]⟩

/-- Keeping a character other than a parenthesis keeps a reader clean. -/
theorem Clean.keep {reader : Reader} (h : reader.Clean) {c : Char} (ho : c ≠ '(') (hc : c ≠ ')') :
    Clean ⟨reader.outer, reader.current ++ [c]⟩ :=
  ⟨h.outer, by simp [h.current, Ne.symm ho, Ne.symm hc]⟩

/-- No closing parenthesis is left in the text of a clean reader. -/
theorem Clean.close_notMem_text {reader : Reader} (h : reader.Clean) : ')' ∉ reader.text := by
  obtain ⟨outer, current⟩ := reader
  induction outer generalizing current with
  | nil => exact h.current.2
  | cons text outer ih =>
    obtain ⟨htext, houter⟩ := List.forall_mem_cons.1 h.outer
    rw [text_cons, List.mem_append, List.mem_cons]
    rintro (hm | hm | hm)
    · exact ih text ⟨houter, htext⟩ hm
    · exact absurd hm (by decide)
    · exact h.current.2 hm

end Reader

/-! ## The loop and the reader -/

variable {s : Settings} {r : Record}

open Reader

/-- One round of the loop. -/
theorem resolve_eq (expression : Text) :
    resolve s r expression = innermostGroup? expression >>= fun
      | none => combine s r expression
      | some g => combine s r g.body >>= fun outcome => resolve s r (g.replace outcome) := by
  rw [resolve]
  split <;> simp [*]

/-- The first closing parenthesis ends the current group of the reader before it. -/
theorem innermostGroup?_close_cons {text : Text} {outer : List Text} {current : Text}
    (h : Clean ⟨text :: outer, current⟩) (t : Text) :
    innermostGroup? (Reader.text ⟨text :: outer, current⟩ ++ ')' :: t) =
      .ok (some ⟨Reader.text ⟨outer, text⟩, current, t⟩) := by
  rw [innermostGroup?, Text.splitFirst?_append h.close_notMem_text, text_cons]
  simp only [Text.splitLast?_append _ h.current.1]

/-- The first closing parenthesis is one too many if the reader before it has no open group. -/
theorem innermostGroup?_close_nil {current : Text} (h : Clean ⟨[], current⟩) (t : Text) :
    innermostGroup? (current ++ ')' :: t) =
      .error (.extraClosingParenthesis current.byteLength) := by
  rw [innermostGroup?, Text.splitFirst?_append h.current.2]
  simp only [Text.splitLast?_eq_none h.current.1]

/-- Once all is read, the loop ends as the reader does. -/
theorem resolve_text {reader : Reader} (h : reader.Clean) :
    resolve s r reader.text = reader.finish s r := by
  obtain ⟨outer, current⟩ := reader
  rw [resolve_eq, innermostGroup?, Text.splitFirst?_eq_none h.close_notMem_text]
  cases outer with
  | nil => simp [h.current.1, finish]
  | cons text outer => simp [text_cons, finish]

/-- **The loop reads from left to right.** Resolving the text of a clean reader and what
follows it comes to what the reader makes of what follows. -/
theorem resolve_eq_run {reader : Reader} (h : reader.Clean) (t : Text) :
    resolve s r (reader.text ++ t) = run s r reader t >>= finish s r := by
  -- By induction on what has not been read, for all readers: a round of the loop takes up where
  -- the reader closes a group, and between two rounds the reader moves on alone.
  induction t generalizing reader with
  | nil => rw [List.append_nil, resolve_text h]; rfl
  | cons c t ih =>
    obtain ⟨outer, current⟩ := reader
    by_cases ho : c = '('
    · subst ho
      rw [run_open, ← ih h.open, text_cons]
      simp
    by_cases hc : c = ')'
    · subst hc
      cases outer with
      | nil => rw [text_nil, resolve_eq, innermostGroup?_close_nil h]; rfl
      | cons text outer =>
        rw [resolve_eq, innermostGroup?_close_cons h, run_cons, step_close_cons]
        simp only [ok_bind, bind_assoc, Group.replace]
        congr 1
        funext outcome
        rw [← text_append, ih (h.close outcome)]
    · rw [run_cons, step_keep ho hc, ok_bind, ← ih (h.keep ho hc), text_append]
      simp

/-- A query is evaluated by reading its escaped form from left to right. -/
theorem evaluate_eq_run (query : Text) :
    evaluate s query r = run s r start (escape query) >>= finish s r :=
  resolve_eq_run clean_start (escape query)

end RecordFilter.Query
