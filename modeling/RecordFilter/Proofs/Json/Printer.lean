import RecordFilter.Proofs.Json.Numeral

/-! # Characters of written documents

A document is written without control characters: in strings they are escaped, and nothing else has
any (`visible_render`). So a written document takes no more than one line. -/

namespace RecordFilter.Json

/-- A text without control characters. -/
def Visible (t : Text) : Prop := ∀ c ∈ t, 0x20 ≤ c.toNat

instance (t : Text) : Decidable (Visible t) := List.decidableBAll _ _

namespace Visible

variable {s t : Text} {c : Char}

theorem append (hs : Visible s) (ht : Visible t) : Visible (s ++ t) :=
  List.forall_mem_append.2 ⟨hs, ht⟩

theorem cons (hc : 0x20 ≤ c.toNat) (ht : Visible t) : Visible (c :: t) :=
  List.forall_mem_cons.2 ⟨hc, ht⟩

theorem of_allDigits (h : AllDigits t) : Visible t :=
  fun c hc => Nat.le_trans (by decide) (toNat_of_isDigit (h c hc)).1

/-- There is no line feed among visible characters. -/
theorem lineFeed_notMem (h : Visible t) : '\n' ∉ t :=
  fun hmem => absurd (h '\n' hmem) (by decide)

end Visible

/-! ## Numbers -/

theorem visible_intText (n : Int) : Visible (intText n) := by
  have hdigits : Visible (natText n.natAbs) := .of_allDigits (allDigits_natText n.natAbs)
  rw [intText]
  split
  next => exact .cons (by decide) hdigits
  next => exact hdigits

namespace Numeral

theorem visible_fractionPart {fraction? : Option Text}
    (h : ∀ digits ∈ fraction?, AllDigits digits) : Visible (fractionPart fraction?) := by
  cases fraction? with
  | none => exact fun c hc => absurd hc List.not_mem_nil
  | some digits => exact .cons (by decide) (.of_allDigits (h digits rfl))

theorem visible_exponentPart (exponent? : Option Int) : Visible (exponentPart exponent?) := by
  cases exponent? with
  | none => exact fun c hc => absurd hc List.not_mem_nil
  | some exponent =>
    refine .cons (by decide) ?_
    split
    next => exact visible_intText exponent
    next => exact .cons (by decide) (visible_intText exponent)

theorem visible_text {n : Numeral} (h : n.IsGrammatical) : Visible n.text := by
  have hparts : Visible (n.whole ++ (fractionPart n.fraction? ++ exponentPart n.exponent?)) :=
    (Visible.of_allDigits h.whole_digits).append
      ((visible_fractionPart h.fraction_digits).append (visible_exponentPart n.exponent?))
  rw [text]
  cases n.negative with
  | true => exact .cons (by decide) hparts
  | false => exact hparts

end Numeral

theorem visible_numberText (n : Number) : Visible (numberText n) := by
  rcases Numeral.exists_numeral n with hnull | ⟨numeral, hgrammatical, htext⟩
  · rw [hnull]
    decide
  · rw [htext]
    exact Numeral.visible_text hgrammatical

/-! ## Strings -/

theorem visible_hexDigit {n : Nat} (h : n < 16) : 0x20 ≤ (Nat.digitChar n).toNat := by
  have hall : ∀ i : Fin 16, 0x20 ≤ (Nat.digitChar i).toNat := by decide
  exact hall ⟨n, h⟩

/-- A control character is written by its name or by its code. -/
theorem visible_escapeChar (c : Char) : Visible (escapeChar c) := by
  unfold escapeChar
  split
  iterate 7 next => decide
  next =>
    split
    next hcontrol =>
      have hhigh := visible_hexDigit (show c.toNat / 16 < 16 by omega)
      have hlow := visible_hexDigit (show c.toNat % 16 < 16 by omega)
      exact .cons (by decide) (.cons (by decide) (.cons (by decide) (.cons (by decide)
        (.cons hhigh (.cons hlow (fun c hc => absurd hc List.not_mem_nil))))))
    next hcontrol =>
      intro d hd
      rw [List.mem_singleton.1 hd]
      exact Nat.le_of_not_lt hcontrol

theorem visible_stringText (s : Text) : Visible (stringText s) := by
  have hcharacters : Visible (s.flatMap escapeChar) := by
    intro c hc
    obtain ⟨d, -, hc⟩ := List.mem_flatMap.1 hc
    exact visible_escapeChar d c hc
  exact .cons (by decide) (hcharacters.append (by decide))

/-! ## Documents -/

theorem visible_joinCommas {ts : List Text} (h : ∀ t ∈ ts, Visible t) :
    Visible (joinCommas ts) := by
  induction ts with
  | nil => exact fun c hc => absurd hc List.not_mem_nil
  | cons t ts ih =>
    have ht : Visible t := h t List.mem_cons_self
    have hts : Visible (joinCommas ts) := ih fun u hu => h u (List.mem_cons_of_mem t hu)
    cases ts with
    | nil => exact ht
    | cons u ts => exact ht.append (.cons (by decide) hts)

mutual

/-- **A document is written without control characters.** -/
theorem visible_render (v : Json) : Visible v.render := by
  match v with
  | .null => decide
  | .bool b => cases b <;> decide
  | .number n => exact visible_numberText n
  | .string s => exact visible_stringText s
  | .array items =>
    exact .cons (by decide) ((visible_joinCommas (visible_renderItems items)).append (by decide))
  | .object members =>
    exact .cons (by decide)
      ((visible_joinCommas (visible_renderMembers members)).append (by decide))

theorem visible_renderItems (items : List Json) : ∀ t ∈ renderItems items, Visible t := by
  match items with
  | [] => exact fun t ht => absurd ht List.not_mem_nil
  | item :: items =>
    exact List.forall_mem_cons.2 ⟨visible_render item, visible_renderItems items⟩

theorem visible_renderMembers (members : Members) : ∀ t ∈ renderMembers members, Visible t := by
  match members with
  | [] => exact fun t ht => absurd ht List.not_mem_nil
  | (name, value) :: members =>
    exact List.forall_mem_cons.2
      ⟨(visible_stringText name).append (.cons (by decide) (visible_render value)),
        visible_renderMembers members⟩

end

end RecordFilter.Json
