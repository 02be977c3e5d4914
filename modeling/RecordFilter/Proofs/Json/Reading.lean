import RecordFilter.Json.Parser
import RecordFilter.Proofs.Json.Lexer

/-! # Reading what is written

What is read of a written document is put together from what is read of its parts: a number becomes
what its own text is read as, and the members of an object are sorted (`reread?`). The machine that
reads a text takes the text of a document for that value, whatever is open and whatever follows, as
long as no more arrays and objects are open at once than may be (`needText_render`). So a document
is read from its text just if it is what its parts are read as (`parse?_render`). -/

namespace RecordFilter.Json

/-! ## The machine on texts -/

/-- Read on in a text where a value is needed. -/
def needText (stack : List Frame) (t : Text) : Option Json := (tokens? t).bind (needValue stack)

/-- Read on in a text where a value is complete. -/
def haveText (value : Json) (stack : List Frame) (t : Text) : Option Json :=
  (tokens? t).bind (haveValue value stack)

theorem parse?_eq_needText (t : Text) : parse? t = needText [] t := rfl

section Steps

variable {value : Json} {stack : List Frame} {t : Text}

@[simp] theorem haveText_nil : haveText value [] [] = some value := by
  rw [haveText, tokens?_nil]
  rfl

/-- A token that is a value by itself completes it. -/
theorem needText_of_token {s : Text} {token : Token}
    (htokens : tokens? s = (tokens? t).map (token :: ·))
    (hvalue : ∀ rest, needValue stack (token :: rest) = haveValue value stack rest) :
    needText stack s = haveText value stack t := by
  rw [needText, haveText, htokens]
  cases tokens? t with
  | none => rfl
  | some rest => exact hvalue rest

theorem haveText_array_comma {items : List Json} :
    haveText value (.array items :: stack) (',' :: t) =
      needText (.array (value :: items) :: stack) t := by
  rw [haveText, needText, tokens?_comma]
  cases tokens? t <;> rfl

theorem haveText_array_close {items : List Json} :
    haveText value (.array items :: stack) (']' :: t) =
      haveText (.array (value :: items).reverse) stack t := by
  rw [haveText, haveText, tokens?_closeArray]
  cases tokens? t <;> rfl

theorem haveText_object_comma {members : Members} {name next : Text} :
    haveText value (.object members name :: stack) (',' :: (stringText next ++ ':' :: t)) =
      needText (.object ((name, value) :: members) next :: stack) t := by
  rw [haveText, needText, tokens?_comma, tokens?_stringText_append, tokens?_colon]
  cases tokens? t <;> rfl

theorem haveText_object_close {members : Members} {name : Text} :
    haveText value (.object members name :: stack) ('\x7d' :: t) =
      haveText (.object (Members.ofList ((name, value) :: members).reverse)) stack t := by
  rw [haveText, haveText, tokens?_closeObject]
  cases tokens? t <;> rfl

theorem needText_emptyArray (hopen : stack.length < maxDepth) :
    needText stack ('[' :: ']' :: t) = haveText (.array []) stack t := by
  rw [needText, haveText, tokens?_openArray, tokens?_closeArray]
  cases tokens? t with
  | none => rfl
  | some rest => exact if_neg (Nat.not_le.2 hopen)

theorem needText_emptyObject (hopen : stack.length < maxDepth) :
    needText stack ('\x7b' :: '\x7d' :: t) = haveText (.object []) stack t := by
  rw [needText, haveText, tokens?_openObject, tokens?_closeObject]
  cases tokens? t with
  | none => rfl
  | some rest => exact if_neg (Nat.not_le.2 hopen)

/-- Only a closing bracket is a token that closes an array. -/
theorem token?_ne_closeArray {c : Char} (hc : c ≠ ']') {token : Token} {rest : Text}
    (h : token? (c :: t) = some (token, rest)) : token ≠ .closeArray := by
  rintro rfl
  rw [token?.eq_def] at h
  split at h
  case h_3 heq => exact hc (List.cons.inj heq).1
  case h_8 =>
    obtain ⟨_, -, h⟩ := Option.map_eq_some_iff.1 h
    cases h
  case h_9 =>
    split at h
    · obtain ⟨_, -, h⟩ := Option.bind_eq_some_iff.1 h
      obtain ⟨_, -, h⟩ := Option.bind_eq_some_iff.1 h
      cases h
    · rw [word?.eq_def] at h
      split at h <;> cases h
  all_goals cases h

/-- An array is opened by a bracket that does not close at once. -/
theorem needText_openArray (hopen : stack.length < maxDepth) {c : Char}
    (hspace : isSpace c = false) (hc : c ≠ ']') :
    needText stack ('[' :: c :: t) = needText (.array [] :: stack) (c :: t) := by
  rw [needText, needText, tokens?_openArray]
  cases htoken : token? (c :: t) with
  | none => rw [tokens?_eq_none hspace htoken]; rfl
  | some first =>
    obtain ⟨token, rest⟩ := first
    rw [tokens?_of_token? hspace htoken]
    cases tokens? rest with
    | none => rfl
    | some ts =>
      have hne : token ≠ .closeArray := token?_ne_closeArray hc htoken
      show needValue stack (.openArray :: token :: ts) =
        needValue (.array [] :: stack) (token :: ts)
      rw [needValue.eq_6 _ _ (fun _ heq => hne (List.cons.inj heq).1),
        if_neg (Nat.not_le.2 hopen)]

/-- An object is opened by a brace and the name of its first member. -/
theorem needText_openObject (hopen : stack.length < maxDepth) {name : Text} :
    needText stack ('\x7b' :: (stringText name ++ ':' :: t)) =
      needText (.object [] name :: stack) t := by
  rw [needText, needText, tokens?_openObject, tokens?_stringText_append, tokens?_colon]
  cases tokens? t with
  | none => rfl
  | some rest => exact if_neg (Nat.not_le.2 hopen)

/-- The text of a number is taken for what it is read as on its own. -/
theorem needText_numberText (n : Number) (ht : EndsNumeral t) :
    needText stack (numberText n ++ t) =
      (parse? (numberText n)).bind fun value => haveText value stack t := by
  have halone : numberText n = numberText n ++ [] := (List.append_nil _).symm
  -- What the number is read as is found by taking an empty stack and nothing behind it.
  rcases exists_token_numberText n with hnone | ⟨token, htoken, hsome⟩
  · have hparse : parse? (numberText n) = none := by
      rw [halone, parse?_eq_needText, needText, hnone [] EndsNumeral.nil]
      rfl
    rw [hparse, needText, hnone t ht]
    rfl
  · obtain ⟨v, hv⟩ : ∃ v, ∀ stack rest, needValue stack (token :: rest) =
        haveValue v stack rest := by
      rcases htoken with rfl | ⟨m, rfl⟩
      · exact ⟨.null, fun _ _ => rfl⟩
      · exact ⟨.number m, fun _ _ => rfl⟩
    have hparse : parse? (numberText n) = some v := by
      rw [halone, parse?_eq_needText, needText_of_token (hsome [] EndsNumeral.nil) (hv []),
        haveText_nil]
    rw [hparse, needText_of_token (hsome t ht) (hv stack)]
    rfl

/-- The text of a numeral is read as the number that it denotes. -/
theorem parse?_text {numeral : Numeral} {n : Number} (h : numeral.IsGrammatical)
    (hnumber : numeral.number? = some n) : parse? numeral.text = some (.number n) := by
  have htokens := tokens?_text_append h EndsNumeral.nil
  rw [List.append_nil, hnumber, tokens?_nil] at htokens
  rw [parse?, htokens]
  rfl

/-- The text of an integer is read as that integer, if it has a form of 64 bits. -/
theorem parse?_intText {i : Int} {n : Number} (h : Number.ofInt? i = some n) :
    parse? (intText i) = some (.number n) := by
  have hnumber : Numeral.number? ⟨decide (i < 0), natText i.natAbs, none, none⟩ = some n := by
    have hzero : (decide (i < 0) && i.natAbs == 0) = false := by
      by_cases hi : i < 0
      · simp [hi, Int.ne_of_lt hi]
      · simp [hi]
    have hvalue : (if decide (i < 0) = true then -(i.natAbs : Int) else i.natAbs) = i := by
      by_cases hi : i < 0
      · rw [decide_eq_true hi, if_pos rfl]
        omega
      · rw [decide_eq_false hi, if_neg Bool.false_ne_true]
        omega
    simp only [Numeral.number?, digitsValue_natText, hzero, Bool.false_eq_true, if_false, hvalue, h]
    rfl
  rw [Numeral.intText_eq_text]
  exact parse?_text (Numeral.isGrammatical_natText _ _) hnumber

/-- **Signed integers are read back.** -/
theorem parse?_signed (n : Int64) :
    parse? (numberText (.signed n)) = some (.number (.signed n)) := by
  refine parse?_intText ?_
  rw [Number.ofInt?, if_pos (fitsSigned_toInt n), Int64.ofInt_toInt]

end Steps

/-! ## Depth and reading of a document -/

mutual

/-- How many arrays and objects are open at once, at most, when a document is read. -/
def depth : Json → Nat
  | .array items => depthItems items + 1
  | .object members => depthMembers members + 1
  | .null | .bool _ | .number _ | .string _ => 0

/-- The greatest depth among elements. -/
def depthItems : List Json → Nat
  | [] => 0
  | item :: items => max item.depth (depthItems items)

/-- The greatest depth among members. -/
def depthMembers : Members → Nat
  | [] => 0
  | (_, value) :: members => max value.depth (depthMembers members)

end

theorem depthItems_le_iff {items : List Json} {n : Nat} :
    depthItems items ≤ n ↔ ∀ item ∈ items, item.depth ≤ n := by
  induction items with
  | nil => simp [depthItems]
  | cons item items ih => rw [depthItems, Nat.max_le, ih, List.forall_mem_cons]

mutual

/-- What is read of the text of a document, if it is not nested too deep. -/
def reread? : Json → Option Json
  | .null => some .null
  | .bool b => some (.bool b)
  | .number n => parse? (numberText n)
  | .string s => some (.string s)
  | .array items => (rereadItems? items).map .array
  | .object members => (rereadMembers? members).map fun members => .object (Members.ofList members)

/-- What is read of the texts of elements. -/
def rereadItems? : List Json → Option (List Json)
  | [] => some []
  | item :: items =>
    item.reread?.bind fun item => (rereadItems? items).map fun items => item :: items

/-- What is read of the texts of members, before they are sorted. -/
def rereadMembers? : Members → Option Members
  | [] => some []
  | (name, value) :: members =>
    value.reread?.bind fun value => (rereadMembers? members).map fun members =>
      (name, value) :: members

end

/-! ## What a written document is read as -/

/-- What stands behind the first of some texts that are joined by commas. -/
def joinedAfter : List Text → Text
  | [] => []
  | t :: ts => ',' :: joinCommas (t :: ts)

theorem joinCommas_cons (t : Text) (ts : List Text) :
    joinCommas (t :: ts) = t ++ joinedAfter ts := by
  cases ts with
  | nil => rw [joinCommas, joinedAfter, List.append_nil]
  | cons u ts => rfl

theorem joinedAfter_cons (t : Text) (ts : List Text) :
    joinedAfter (t :: ts) = ',' :: (t ++ joinedAfter ts) := by
  rw [joinedAfter, joinCommas_cons]

/-- A document starts with no white space and no closing bracket. -/
theorem exists_render_eq_cons (v : Json) :
    ∃ c t, v.render = c :: t ∧ isSpace c = false ∧ c ≠ ']' := by
  cases v with
  | null => exact ⟨_, _, rfl, by decide, by decide⟩
  | bool b => cases b <;> exact ⟨_, _, rfl, by decide, by decide⟩
  | number n =>
    rcases Numeral.exists_numeral n with hnull | ⟨numeral, hgrammatical, htext⟩
    · exact ⟨'n', ['u', 'l', 'l'], hnull, by decide, by decide⟩
    · obtain ⟨c, t, ht, hc⟩ := Numeral.exists_text_eq_cons hgrammatical
      refine ⟨c, t, htext.trans ht, isSpace_eq_false hc, ?_⟩
      rintro rfl
      revert hc
      decide
  | string s => exact ⟨_, _, rfl, by decide, by decide⟩
  | array items => exact ⟨_, _, rfl, by decide, by decide⟩
  | object members => exact ⟨_, _, rfl, by decide, by decide⟩

/-- What stands behind an element or a member, up to the mark that closes the array or object, does
not belong to a numeral. -/
theorem endsNumeral_joinedAfter {close : Char}
    (hclose : close.isDigit = false ∧ close ≠ '.' ∧ close ≠ 'e' ∧ close ≠ 'E') (ts : List Text)
    (rest : Text) : EndsNumeral (joinedAfter ts ++ close :: rest) := by
  cases ts with
  | nil => exact .cons hclose rest
  | cons t ts => exact .cons (by decide) _

mutual

/-- **The text of a document is taken for what its parts are read as**, whatever is open and
whatever follows that does not belong to a numeral. -/
theorem needText_render (v : Json) (stack : List Frame) (rest : Text)
    (hdepth : v.depth + stack.length ≤ maxDepth) (hrest : EndsNumeral rest) :
    needText stack (v.render ++ rest) =
      v.reread?.bind fun value => haveText value stack rest := by
  -- The induction is on the document; the stack grows as much as the depth that is left shrinks.
  match v with
  | .null => exact needText_of_token (tokens?_null_append rest) fun _ => rfl
  | .bool b => exact needText_of_token (tokens?_boolText_append rest b) fun _ => rfl
  | .number n => exact needText_numberText n hrest
  | .string s => exact needText_of_token (tokens?_stringText_append rest s) fun _ => rfl
  | .array [] =>
    rw [depth] at hdepth
    exact needText_emptyArray (by omega)
  | .array (item :: items) =>
    rw [depth, depthItems] at hdepth
    have htext : (Json.array (item :: items)).render ++ rest =
        '[' :: (item.render ++ (joinedAfter (renderItems items) ++ ']' :: rest)) := by
      simp [render, renderItems, joinCommas_cons]
    have hends : EndsNumeral (joinedAfter (renderItems items) ++ ']' :: rest) :=
      endsNumeral_joinedAfter (by decide) _ rest
    obtain ⟨c, t, ht, hspace, hc⟩ := exists_render_eq_cons item
    -- The first element opens the array, and then the others are read behind it.
    rw [htext, ht, List.cons_append, needText_openArray (by omega) hspace hc, ← List.cons_append,
      ← ht, needText_render item _ _ (by rw [List.length_cons]; omega) hends, reread?,
      rereadItems?]
    cases item.reread? with
    | none => rfl
    | some value =>
      rw [Option.bind_some, haveText_renderItems items [] value stack rest (by omega)]
      cases rereadItems? items <;> rfl
  | .object [] =>
    rw [depth] at hdepth
    exact needText_emptyObject (by omega)
  | .object ((name, value) :: members) =>
    rw [depth, depthMembers] at hdepth
    have htext : (Json.object ((name, value) :: members)).render ++ rest =
        '\x7b' :: (stringText name ++ ':' ::
          (value.render ++ (joinedAfter (renderMembers members) ++ '\x7d' :: rest))) := by
      simp [render, renderMembers, joinCommas_cons]
    have hends : EndsNumeral (joinedAfter (renderMembers members) ++ '\x7d' :: rest) :=
      endsNumeral_joinedAfter (by decide) _ rest
    have hopen : stack.length < maxDepth := by omega
    -- The name of the first member is read with the brace.
    rw [htext, needText_openObject hopen,
      needText_render value _ _ (by rw [List.length_cons]; omega) hends, reread?, rereadMembers?]
    cases value.reread? with
    | none => rfl
    | some value =>
      rw [Option.bind_some, haveText_renderMembers members [] name value stack rest (by omega)]
      cases rereadMembers? members <;> rfl

/-- The texts of further elements are taken for what these are read as. -/
theorem haveText_renderItems (items before : List Json) (value : Json) (stack : List Frame)
    (rest : Text) (hdepth : depthItems items + stack.length < maxDepth) :
    haveText value (.array before :: stack) (joinedAfter (renderItems items) ++ ']' :: rest) =
      (rereadItems? items).bind fun items =>
        haveText (.array ((value :: before).reverse ++ items)) stack rest := by
  match items with
  | [] =>
    rw [rereadItems?, Option.bind_some, List.append_nil]
    exact haveText_array_close
  | item :: items =>
    rw [depthItems] at hdepth
    have htext : joinedAfter (renderItems (item :: items)) ++ ']' :: rest =
        ',' :: (item.render ++ (joinedAfter (renderItems items) ++ ']' :: rest)) := by
      simp [renderItems, joinedAfter_cons]
    have hends : EndsNumeral (joinedAfter (renderItems items) ++ ']' :: rest) :=
      endsNumeral_joinedAfter (by decide) _ rest
    rw [htext, haveText_array_comma,
      needText_render item _ _ (by rw [List.length_cons]; omega) hends, rereadItems?]
    cases item.reread? with
    | none => rfl
    | some next =>
      rw [Option.bind_some, haveText_renderItems items (value :: before) next stack rest (by omega)]
      cases rereadItems? items with
      | none => rfl
      | some items => simp

/-- The texts of further members are taken for what these are read as. -/
theorem haveText_renderMembers (members before : Members) (name : Text) (value : Json)
    (stack : List Frame) (rest : Text) (hdepth : depthMembers members + stack.length < maxDepth) :
    haveText value (.object before name :: stack)
        (joinedAfter (renderMembers members) ++ '\x7d' :: rest) =
      (rereadMembers? members).bind fun members =>
        haveText (.object (Members.ofList (((name, value) :: before).reverse ++ members))) stack
          rest := by
  match members with
  | [] =>
    rw [rereadMembers?, Option.bind_some, List.append_nil]
    exact haveText_object_close
  | (next, nextValue) :: members =>
    rw [depthMembers] at hdepth
    have htext : joinedAfter (renderMembers ((next, nextValue) :: members)) ++ '\x7d' :: rest =
        ',' :: (stringText next ++ ':' ::
          (nextValue.render ++ (joinedAfter (renderMembers members) ++ '\x7d' :: rest))) := by
      simp [renderMembers, joinedAfter_cons]
    have hends : EndsNumeral (joinedAfter (renderMembers members) ++ '\x7d' :: rest) :=
      endsNumeral_joinedAfter (by decide) _ rest
    rw [htext, haveText_object_comma,
      needText_render nextValue _ _ (by rw [List.length_cons]; omega) hends, rereadMembers?]
    cases nextValue.reread? with
    | none => rfl
    | some nextValue =>
      rw [Option.bind_some, haveText_renderMembers members ((name, value) :: before) next nextValue
        stack rest (by omega)]
      cases rereadMembers? members with
      | none => rfl
      | some members => simp

end

/-- **A written document is read as what its parts are read as**, if it is not nested too deep. -/
theorem parse?_render {v : Json} (h : v.depth ≤ maxDepth) : parse? v.render = v.reread? := by
  have hneed := needText_render v [] [] h EndsNumeral.nil
  rw [List.append_nil] at hneed
  rw [parse?_eq_needText, hneed]
  cases v.reread? with
  | none => rfl
  | some value => exact haveText_nil

end RecordFilter.Json
