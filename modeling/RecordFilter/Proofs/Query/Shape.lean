import Mathlib.Data.List.Forall2
import RecordFilter.Proofs.Clause.Parse
import RecordFilter.Proofs.Query.Expression

/-! # Texts of one shape

Two evaluations of a query differ in the words that stand for groups, and these words can end up
within selectors and literals. `SameShape` relates the texts of two evaluations: they are equal but
for words for outcomes at the same places. No separator, no operator and no part that is a word
can tell two such texts apart, since the words hold neither separators nor characters of
operators and no beginning of a word ends another. -/

namespace RecordFilter.Query

/-- Texts that differ in nothing but words for outcomes at the same places. -/
inductive SameShape : Text → Text → Prop where
  | nil : SameShape [] []
  | char {a b : Text} (c : Char) (h : SameShape a b) : SameShape (c :: a) (c :: b)
  | word {a b : Text} (v w : Bool) (h : SameShape a b) :
      SameShape (Value.boolText v ++ a) (Value.boolText w ++ b)

namespace SameShape

theorem refl (t : Text) : SameShape t t := by
  induction t with
  | nil => exact .nil
  | cons c t ih => exact .char c ih

theorem symm {a b : Text} (h : SameShape a b) : SameShape b a := by
  induction h with
  | nil => exact .nil
  | char c _ ih => exact .char c ih
  | word v w _ ih => exact .word w v ih

theorem append {a b a' b' : Text} (h : SameShape a b) (h' : SameShape a' b') :
    SameShape (a ++ a') (b ++ b') := by
  induction h with
  | nil => exact h'
  | char c _ ih => exact .char c ih
  | word v w _ ih =>
    rw [List.append_assoc, List.append_assoc]
    exact .word v w ih

/-- The words for two outcomes have one shape. -/
theorem boolText (v w : Bool) : SameShape (Value.boolText v) (Value.boolText w) := by
  simpa using word v w nil

/-! ## Separators -/

/-- Lengthening the first pieces of two rows of texts of one shape by the same. -/
theorem modifyHead {as bs : List Text} (h : List.Forall₂ SameShape as bs) {u v : Text}
    (huv : SameShape u v) :
    List.Forall₂ SameShape (as.modifyHead (u ++ ·)) (bs.modifyHead (v ++ ·)) := by
  cases h with
  | nil => exact .nil
  | cons hhead htail => exact .cons (huv.append hhead) htail

/-- A separator cuts texts of one shape into pieces of one shape. -/
theorem splitOn {a b : Text} (h : SameShape a b) {c : Char} (hc : OutsideWords c) :
    List.Forall₂ SameShape (a.splitOn c) (b.splitOn c) := by
  induction h with
  | nil => exact .cons .nil .nil
  | char d _ ih =>
    rw [List.splitOn_cons_eq_if_modifyHead, List.splitOn_cons_eq_if_modifyHead]
    split
    · exact .cons .nil ih
    · exact modifyHead ih (refl [d])
  | word v w _ ih =>
    rw [Text.splitOn_append_of_notMem (hc v), Text.splitOn_append_of_notMem (hc w)]
    exact modifyHead ih (boolText v w)

/-! ## Operators -/

/-- The words for outcomes start with no character outside them. -/
theorem isPrefixOf_boolText_append {c : Char} (hc : OutsideWords c) (word : Text) (b : Bool)
    (t : Text) : (c :: word).isPrefixOf (Value.boolText b ++ t) = false := by
  have hne : Value.boolText b ≠ [] := by
    cases b <;> decide
  obtain ⟨d, rest, hb⟩ := List.exists_cons_of_ne_nil hne
  have hd : c ≠ d := by
    rintro rfl
    exact hc b (hb ▸ List.mem_cons_self)
  simp [hb, List.isPrefixOf, hd]

/-- Texts of one shape start with the same tokens. -/
theorem isPrefixOf {a b : Text} (h : SameShape a b) {token : Text}
    (ht : ∀ c ∈ token, OutsideWords c) : token.isPrefixOf a = token.isPrefixOf b := by
  induction h generalizing token with
  | nil => rfl
  | char d _ ih =>
    cases token with
    | nil => rfl
    | cons c token =>
      rw [List.isPrefixOf, List.isPrefixOf, ih (fun e he => ht e (List.mem_cons_of_mem c he))]
  | word v w _ _ =>
    cases token with
    | nil => simp
    | cons c token =>
      have hc := ht c List.mem_cons_self
      rw [isPrefixOf_boolText_append hc, isPrefixOf_boolText_append hc]

/-- A token occurs in both of two texts of one shape or in neither. -/
theorem isSome_breakAt? {a b : Text} (h : SameShape a b) {token : Text}
    (ht : ∀ c ∈ token, OutsideWords c) :
    (Text.breakAt? token a).isSome = (Text.breakAt? token b).isSome := by
  induction h with
  | nil => rfl
  | char d h ih =>
    rw [Text.isSome_breakAt?_cons, Text.isSome_breakAt?_cons, ih, (char d h).isPrefixOf ht]
  | @word a b v w h ih =>
    -- No token starts within a word, so each is looked for behind the words.
    cases token with
    | nil => cases v <;> cases w <;> rfl
    | cons c token =>
      have hc := ht c List.mem_cons_self
      rw [Text.breakAt?_append (hc v), Text.breakAt?_append (hc w), Option.isSome_map,
        Option.isSome_map, ih]

/-- No operator has a character of a word for an outcome. -/
theorem outsideWords_of_mem_token (operator : Operator) : ∀ c ∈ operator.token, OutsideWords c := by
  intro c hc
  have hmem := Clause.token_subset operator hc
  simp only [List.mem_cons, List.not_mem_nil, or_false] at hmem
  rcases hmem with rfl | rfl | rfl | rfl | rfl <;> decide

/-- Both of two texts of one shape have an operator or neither has. -/
theorem isSome_parse? {a b : Text} (h : SameShape a b) :
    (Clause.parse? a).isSome = (Clause.parse? b).isSome := by
  rw [Bool.eq_iff_iff, Clause.parse?, Clause.parse?, List.findSome?_isSome_iff,
    List.findSome?_isSome_iff]
  simp only [Option.isSome_map, h.isSome_breakAt? (outsideWords_of_mem_token _)]

/-! ## Words -/

/-- Without the first characters of words there is no place for a word. -/
theorem eq_of_notMem {a b : Text} (h : SameShape a b) (ht : 't' ∉ a) (hf : 'f' ∉ a) : a = b := by
  induction h with
  | nil => rfl
  | char c _ ih =>
    rw [List.mem_cons, not_or] at ht hf
    rw [ih ht.2 hf.2]
  | word v w _ _ =>
    cases v with
    | true => exact absurd (by simp [Value.boolText]) ht
    | false => exact absurd (by simp [Value.boolText]) hf

/-- A text of the shape of a word is a word. -/
theorem exists_eq_boolText {a b : Text} (h : SameShape a b) {v : Bool}
    (ha : a = Value.boolText v) : ∃ w, b = Value.boolText w := by
  cases h with
  | nil => cases v <;> simp [Value.boolText] at ha
  | @char a b c h =>
    -- The rest of a word, `rue` or `alse`, has no place for another.
    have hrest : a = b := by
      cases v with
      | true =>
        obtain ⟨rfl, rfl⟩ := List.cons.inj ha
        exact h.eq_of_notMem (by decide) (by decide)
      | false =>
        obtain ⟨rfl, rfl⟩ := List.cons.inj ha
        exact h.eq_of_notMem (by decide) (by decide)
    exact ⟨v, by rw [← hrest, ha]⟩
  | @word a b v' w h =>
    -- No word is the beginning of another, so nothing follows the word.
    have hnil : a = [] := by
      cases v <;> cases v' <;> simp_all [Value.boolText]
    subst hnil
    exact ⟨w, by rw [← h.eq_of_notMem (by simp) (by simp), List.append_nil]⟩

end SameShape

end RecordFilter.Query
