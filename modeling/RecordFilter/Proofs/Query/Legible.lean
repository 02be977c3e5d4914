import RecordFilter.Proofs.Query.TreeEvaluation
import RecordFilter.Proofs.ReservedWords

/-! # Names that queries can refer to

A field may have any name, but a query that writes the name of a field, an operator and a literal is
not always read as that comparison: a comma in the name cuts it in two, a backslash may take the
operator away, and an operator within the name comes first. A name is `Legible` if nothing of the
kind happens in front of any operator. With a legible name every comparison works
(`evaluate_of_legible`).

The converse rests on what a query depends on. Only a part that is read as a comparison of a field
depends on that field (`evaluate_congr`), so a query that depends on a field has its name in one of
its parts. If the query is nothing but the name, an operator and a literal, it is then read as it
has been written, and the name is legible (`legible_of_evaluate`). -/

namespace RecordFilter.Query

variable {s : Settings} {r r' : Record}

/-! ## Texts that are one part -/

/-- The characters at which a query is cut into parts. -/
def cutting : Text := ['(', ')', ';', ',']

/-- A text that is not cut. -/
def Uncut (t : Text) : Prop := ∀ c ∈ cutting, c ∉ t

/-- A text is cut within its beginning or within its end. -/
theorem uncut_append {a b : Text} : Uncut (a ++ b) ↔ Uncut a ∧ Uncut b := by
  simp only [Uncut, List.mem_append, not_or, forall_and]

/-- A plain text is not cut. -/
theorem Plain.uncut {t : Text} (h : Plain t) : Uncut t := by
  have hstructural : cutting ⊆ structural := by simp [cutting, structural]
  intro c hc
  exact h c (hstructural hc)

/-- No operator is cut. -/
theorem uncut_token (operator : Operator) : Uncut operator.token := by
  have hcutting : cutting ⊆ ['(', ')', ';', ',', '\\'] := by simp [cutting]
  intro c hc
  exact notMem_token (hcutting hc) operator

/-- A comparison is cut nowhere if its name is not and its literal is plain. -/
theorem Uncut.comparison {name : Text} (h : Uncut name) (operator : Operator) {literal : Text}
    (hliteral : Plain literal) : Uncut (name ++ (operator.token ++ literal)) := by
  simp only [uncut_append]
  exact ⟨h, uncut_token operator, hliteral.uncut⟩

/-- Escaping cuts nothing. -/
theorem Uncut.escape {t : Text} (h : Uncut t) : Uncut (escape t) := by
  have hreserved : ∀ c ∈ cutting, [c] ∈ reservedWords := by simp [cutting, reservedWords]
  intro c hc hm
  obtain ⟨u, v, huv⟩ := List.append_of_mem hm
  obtain ⟨a, b, rfl, -, -⟩ := exists_of_escape_eq_cons (hreserved c hc) huv
  exact h c hc (by simp)

/-- A query that is not cut is evaluated as a part. -/
theorem evaluate_eq_dispatch {query : Text} (h : Uncut query) :
    evaluate s query r = dispatch s r (escape query) := by
  have huncut := h.escape
  rw [evaluate_eq_run, Reader.run_keep (huncut '(' (by decide)) (huncut ')' (by decide))]
  exact combine_eq_dispatch (huncut ',' (by decide)) (huncut ';' (by decide))

/-- A part that is read as a comparison has its outcome. -/
theorem dispatch_of_parse? {part : Text} {c : Clause} (h : Clause.parse? part = some c) :
    dispatch s r part = outcome s r c := by
  have hword : ∀ b, part ≠ Value.boolText b := by
    intro b
    rw [← Clause.render_of_parse? h]
    exact render_ne_boolText c b
  rw [dispatch_of_ne hword, h]
  rfl

/-! ## Comparisons by a legible name -/

/-- A name that can be told from any operator behind it. -/
structure Legible (name : Text) : Prop where
  /-- No parenthesis or separator cuts the name. -/
  uncut : Uncut name
  /-- No backslash in the name escapes a reserved word, be it in the name or the operator. -/
  unescaped : ∀ operator : Operator, escape (name ++ operator.token) = name ++ operator.token
  /-- The first operator that is found is the one behind the name. -/
  parsed : ∀ operator : Operator,
    Clause.parse? (name ++ operator.token) = some ⟨name, operator, []⟩

/-- A name without structural characters is legible. -/
theorem Plain.legible {name : Text} (h : Plain name) : Legible name where
  uncut := h.uncut
  unescaped := by
    intro operator
    apply escape_eq_self
    rw [List.mem_append, not_or]
    exact ⟨h '\\' (by decide), notMem_token (by decide) operator⟩
  parsed := by
    intro operator
    have hempty : Clause.OperatorFree [] := ⟨by simp, by simp, by simp, by simp⟩
    have hrender : Clause.render ⟨name, operator, []⟩ = name ++ operator.token := by
      rw [Clause.render, List.append_nil]
    rw [← hrender]
    exact Clause.parse?_render h.operatorFree hempty

/-- No token of an operator ends with a backslash. -/
theorem getLast?_append_token_ne (t : Text) (operator : Operator) :
    (t ++ operator.token).getLast? ≠ some '\\' := by
  obtain ⟨-, -, last, -, hlast, -⟩ := Clause.exists_token_ends operator
  rw [List.getLast?_append, hlast]
  intro h
  have hmem : '\\' ∈ operator.token := List.mem_of_getLast? (hlast.trans h)
  exact notMem_token (by decide) operator hmem

/-- Behind an operator a plain literal is not escaped, nor does it change what is. -/
theorem escape_append_plain (t : Text) (operator : Operator) {literal : Text}
    (h : Plain literal) :
    escape (t ++ (operator.token ++ literal)) = escape (t ++ operator.token) ++ literal := by
  have hequals : '=' ∉ literal := h '=' (by decide)
  have hbackslash : '\\' ∉ literal := h '\\' (by decide)
  rw [← List.append_assoc, escape_append_of_seam (getLast?_append_token_ne t operator)
    fun _ ht => reservedWord?_append_of_notMem ht hequals, escape_eq_self hbackslash]

/-- **A legible name works in every query**: followed by an operator and a plain literal, it is
evaluated as the comparison of these. -/
theorem evaluate_of_legible {name : Text} (h : Legible name) (operator : Operator) {literal : Text}
    (hliteral : Plain literal) :
    evaluate s (name ++ (operator.token ++ literal)) r = outcome s r ⟨name, operator, literal⟩ := by
  have hparse : Clause.parse? (name ++ operator.token ++ literal) =
      some ⟨name, operator, literal⟩ := by
    rw [Clause.parse?_append hliteral.operatorFree, h.parsed]
    rfl
  rw [evaluate_eq_dispatch (h.uncut.comparison operator hliteral),
    escape_append_plain name operator hliteral, h.unescaped, dispatch_of_parse? hparse]

/-! ## What a query depends on -/

/-- A part depends on the field that it is read as a comparison of. -/
theorem dispatch_congr {part : Text}
    (h : ∀ c, Clause.parse? part = some c → r.field c.selector = r'.field c.selector) :
    dispatch s r part = dispatch s r' part := by
  unfold dispatch
  cases hparse : Clause.parse? part with
  | none => rfl
  | some c => simp only [h c hparse]

/-- An expression depends on its parts, which are not cut any further. -/
theorem combine_congr {expression : Text} (ho : '(' ∉ expression) (hc : ')' ∉ expression)
    (h : ∀ part, Uncut part → dispatch s r part = dispatch s r' part) :
    combine s r expression = combine s r' expression := by
  unfold combine
  congr 1
  apply mapM_congr_left
  intro branch hbranch
  obtain ⟨hcomma, hinExpression⟩ := Text.mem_splitOn hbranch
  congr 1
  apply mapM_congr_left
  intro part hpart
  obtain ⟨hsemicolon, hinBranch⟩ := Text.mem_splitOn hpart
  apply h
  simp only [Uncut, cutting, List.forall_mem_cons, List.not_mem_nil, false_implies, implies_true,
    and_true]
  exact ⟨fun hm => ho (hinExpression (hinBranch hm)), fun hm => hc (hinExpression (hinBranch hm)),
    hsemicolon, fun hm => hcomma (hinBranch hm)⟩

/-- Reading on depends on parts, as no text that a reader holds has a parenthesis. -/
theorem Reader.run_congr (h : ∀ part, Uncut part → dispatch s r part = dispatch s r' part)
    {reader : Reader} (hclean : reader.Clean) (t : Text) :
    run s r reader t >>= finish s r = run s r' reader t >>= finish s r' := by
  -- By induction on what is read, for all readers: groups are opened and closed on the way.
  induction t generalizing reader with
  | nil =>
    rw [run_nil, run_nil, ok_bind, ok_bind, finish, finish,
      combine_congr hclean.current.1 hclean.current.2 h]
  | cons c t ih =>
    obtain ⟨outer, current⟩ := reader
    by_cases ho : c = '('
    · subst ho
      rw [run_open, run_open]
      exact ih hclean.open
    by_cases hc : c = ')'
    · subst hc
      cases outer with
      | nil => rfl
      | cons text outer =>
        rw [run_cons, run_cons, step_close_cons, step_close_cons,
          combine_congr hclean.current.1 hclean.current.2 h, bind_assoc, bind_assoc, bind_assoc,
          bind_assoc]
        congr 1
        funext outcome
        exact ih (hclean.close outcome)
    · rw [run_cons, run_cons, step_keep ho hc, step_keep ho hc, ok_bind, ok_bind]
      exact ih (hclean.keep ho hc)

/-- **A query depends only on the fields that its parts are comparisons of.** -/
theorem evaluate_congr {query : Text}
    (h : ∀ part, Uncut part → ∀ c, Clause.parse? part = some c →
      r.field c.selector = r'.field c.selector) :
    evaluate s query r = evaluate s query r' := by
  rw [evaluate_eq_run, evaluate_eq_run]
  exact Reader.run_congr (fun part hpart => dispatch_congr (h part hpart)) Reader.clean_start _

/-! ## Names that work -/

/-- A text that stays at the start of its escaped form, with no backslash behind it, has no escaped
word. -/
theorem escape_eq_self_of_prefix {a b : Text} (hb : '\\' ∉ b) (h : a <+: escape (a ++ b)) :
    escape (a ++ b) = a ++ b := by
  induction a with
  | nil => exact escape_eq_self hb
  | cons c a ih =>
    rw [List.cons_append] at h ⊢
    by_cases hc : c = '\\'
    · subst hc
      cases hword : reservedWord? (a ++ b) with
      | none =>
        rw [escape_backslash hword, List.cons_prefix_cons] at h
        rw [escape_backslash hword, ih h.2]
      | some word =>
        -- The encoding of the word begins with a percent sign and not with the backslash.
        have hhead := head?_encode_reservedWord word (mem_and_prefix_of_reservedWord? hword).1
        obtain ⟨rest, hrest⟩ := List.head?_eq_some_iff.1 hhead
        rw [escape_word hword, hrest, List.cons_append, List.cons_prefix_cons] at h
        exact absurd h.1 (by decide)
    · rw [escape_cons_of_ne hc, List.cons_prefix_cons] at h
      rw [escape_cons_of_ne hc, ih h.2]

/-- A name that is read back in front of an operator and a plain literal is not escaped there, and
the operator is found behind it. -/
theorem parse?_of_selector_eq {name literal : Text} {operator : Operator}
    (hliteral : Plain literal) {c : Clause}
    (h : Clause.parse? (escape (name ++ (operator.token ++ literal))) = some c)
    (hselector : c.selector = name) :
    escape (name ++ operator.token) = name ++ operator.token ∧
      Clause.parse? (name ++ operator.token) = some ⟨name, operator, []⟩ := by
  have hescape : escape (name ++ operator.token) = name ++ operator.token := by
    -- The escaped text starts with the name, so nothing in the name has been escaped.
    have hbackslash : '\\' ∉ operator.token ++ literal := by
      rw [List.mem_append, not_or]
      exact ⟨notMem_token (by decide) operator, hliteral '\\' (by decide)⟩
    have hprefix : name <+: escape (name ++ (operator.token ++ literal)) := by
      rw [← Clause.render_of_parse? h, Clause.render, hselector]
      exact List.prefix_append _ _
    have hwhole := escape_eq_self_of_prefix hbackslash hprefix
    rw [escape_append_plain name operator hliteral, ← List.append_assoc] at hwhole
    exact List.append_cancel_right hwhole
  -- Without the literal the same selector and operator are found, and nothing behind them.
  rw [escape_append_plain name operator hliteral, hescape,
    Clause.parse?_append hliteral.operatorFree] at h
  obtain ⟨⟨selector, operator', literal'⟩, hparse, rfl⟩ := Option.map_eq_some_iff.1 h
  obtain rfl : selector = name := hselector
  have hempty : Plain [] := by decide
  rw [← List.append_nil operator.token] at hparse
  obtain rfl := Clause.operator_of_parse? hempty.operatorFree hparse
  have hnil : literal' = [] :=
    List.append_cancel_left (List.append_cancel_left (Clause.render_of_parse? hparse))
  rw [List.append_nil, hnil] at hparse
  exact ⟨hescape, hparse⟩

/-- A query by which two records differ that differ in one field only has a part that is read as a
comparison of this field. -/
theorem exists_part_of_evaluate_ne {name query : Text}
    (hrecords : ∀ other, other ≠ name → r.field other = r'.field other)
    (h : evaluate s query r ≠ evaluate s query r') :
    ∃ part c, Uncut part ∧ Clause.parse? part = some c ∧ c.selector = name := by
  by_contra hnone
  apply h
  apply evaluate_congr
  intro part hpart c hparse
  apply hrecords
  intro hselector
  exact hnone ⟨part, c, hpart, hparse, hselector⟩

/-- A name that a query depends on is not cut. -/
theorem uncut_of_evaluate_ne {name query : Text}
    (hrecords : ∀ other, other ≠ name → r.field other = r'.field other)
    (h : evaluate s query r ≠ evaluate s query r') : Uncut name := by
  obtain ⟨part, c, hpart, hparse, rfl⟩ := exists_part_of_evaluate_ne hrecords h
  rw [← Clause.render_of_parse? hparse, Clause.render, uncut_append] at hpart
  exact hpart.1

/-- **A name is legible if it works with every operator**, that is, if its comparison with some
plain literal depends on the field. -/
theorem legible_of_evaluate {name literal : Text} (hliteral : Plain literal)
    (h : ∀ operator : Operator, ∃ r r' : Record,
      (∀ other, other ≠ name → r.field other = r'.field other) ∧
      evaluate s (name ++ (operator.token ++ literal)) r ≠
        evaluate s (name ++ (operator.token ++ literal)) r') : Legible name := by
  -- Any operator shows that the name is not cut.
  have huncut : Uncut name := by
    obtain ⟨r, r', hrecords, hne⟩ := h .equal
    exact uncut_of_evaluate_ne hrecords hne
  have hread : ∀ operator : Operator,
      escape (name ++ operator.token) = name ++ operator.token ∧
        Clause.parse? (name ++ operator.token) = some ⟨name, operator, []⟩ := by
    intro operator
    obtain ⟨r, r', hrecords, hne⟩ := h operator
    have hwhole := huncut.comparison operator hliteral
    -- As the query is not cut, it is itself the part that is read as a comparison of the field.
    rw [evaluate_eq_dispatch hwhole, evaluate_eq_dispatch hwhole] at hne
    by_contra hnot
    apply hne
    apply dispatch_congr
    intro c hparse
    apply hrecords
    intro hselector
    exact hnot (parse?_of_selector_eq hliteral hparse hselector)
  exact ⟨huncut, fun operator => (hread operator).1, fun operator => (hread operator).2⟩

end RecordFilter.Query
