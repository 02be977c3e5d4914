import Mathlib.Data.List.Forall2
import Mathlib.Data.List.Infix
import RecordFilter.Proofs.Glob.Pattern

/-! # What globs match

A glob matches a text that splits into consecutive pieces, one for each of its tokens: a character
takes one that equals it, a question mark one that is no line feed, and a star one or more that are
none (`Takes`, `Splits`).

The matcher comes to this without trying splits. It passes through the tokens from the last to the
first and keeps a flag for every suffix of the text. These flags are the values of one predicate on
suffixes (`flags_tails`), which says that the suffix starts with a part that splits into pieces
(`foldr_flag_eq_true_iff`). Where case does not count, tokens and text are folded before they are
compared; folding makes no line feed, so pieces and folded pieces are taken alike
(`splits_fold`). -/

namespace RecordFilter

/-! ## Pieces -/

/-- Two characters are equal, or if case does not count, are folded to one character. -/
def SameCharacter (ignoreCase : Bool) (c d : Char) : Prop :=
  if ignoreCase then foldCase c = foldCase d else c = d

/-- A token takes a piece of text. -/
def GlobToken.Takes (ignoreCase : Bool) : GlobToken → Text → Prop
  | char c, piece => ∃ d, piece = [d] ∧ SameCharacter ignoreCase c d
  | one, piece => ∃ d, piece = [d] ∧ d ≠ '\n'
  | many, piece => piece ≠ [] ∧ '\n' ∉ piece

namespace Glob

/-- A text splits into consecutive pieces, one for each token. -/
def Splits (ignoreCase : Bool) (row : List GlobToken) (t : Text) : Prop :=
  ∃ pieces : List Text, t = pieces.flatten ∧ List.Forall₂ (GlobToken.Takes ignoreCase) row pieces

variable {ignoreCase : Bool} {token : GlobToken} {row : List GlobToken} {t : Text}

/-- Without tokens there are no pieces. -/
@[simp] theorem splits_nil : Splits ignoreCase [] t ↔ t = [] := by
  constructor
  · rintro ⟨pieces, rfl, hpieces⟩
    rw [List.forall₂_nil_left_iff.1 hpieces, List.flatten_nil]
  · rintro rfl
    exact ⟨[], rfl, .nil⟩

/-- The first token takes a piece and the others split what is left. -/
theorem splits_cons : Splits ignoreCase (token :: row) t ↔
    ∃ piece rest, t = piece ++ rest ∧ token.Takes ignoreCase piece ∧
      Splits ignoreCase row rest := by
  constructor
  · rintro ⟨pieces, rfl, hpieces⟩
    obtain ⟨piece, others, hpiece, hothers, rfl⟩ := List.forall₂_cons_left_iff.1 hpieces
    exact ⟨piece, others.flatten, List.flatten_cons, hpiece, others, rfl, hothers⟩
  · rintro ⟨piece, rest, rfl, hpiece, pieces, rfl, hpieces⟩
    exact ⟨piece :: pieces, List.flatten_cons.symm, .cons hpiece hpieces⟩

end Glob

/-! ## Flags -/

/-- The flag of a token for a suffix, given the flags of what stands behind the token. -/
def GlobToken.flag (token : GlobToken) (after : Text → Bool) : Text → Bool
  | [] => false
  | c :: t =>
    match token with
    | char d => c == d && after t
    | one => c != '\n' && after t
    | many => c != '\n' && (after t || token.flag after t)

/-- A token is flagged where it takes a piece and a flag stands behind the piece. -/
theorem GlobToken.flag_eq_true_iff {token : GlobToken} {after : Text → Bool} {t : Text} :
    token.flag after t = true ↔
      ∃ piece rest, t = piece ++ rest ∧ token.Takes false piece ∧ after rest = true := by
  cases token with
  | char d =>
    cases t with
    | nil => simp [flag, Takes]
    | cons c t =>
      simp only [flag, Takes, SameCharacter, Bool.and_eq_true, beq_iff_eq]
      constructor
      · rintro ⟨rfl, hafter⟩
        exact ⟨[c], t, rfl, ⟨c, rfl, rfl⟩, hafter⟩
      · rintro ⟨piece, rest, heq, ⟨e, rfl, rfl⟩, hafter⟩
        obtain ⟨rfl, rfl⟩ := List.cons_eq_cons.1 heq
        exact ⟨rfl, hafter⟩
  | one =>
    cases t with
    | nil => simp [flag, Takes]
    | cons c t =>
      simp only [flag, Takes, Bool.and_eq_true, bne_iff_ne]
      constructor
      · rintro ⟨hc, hafter⟩
        exact ⟨[c], t, rfl, ⟨c, rfl, hc⟩, hafter⟩
      · rintro ⟨piece, rest, heq, ⟨e, rfl, he⟩, hafter⟩
        obtain ⟨rfl, rfl⟩ := List.cons_eq_cons.1 heq
        exact ⟨he, hafter⟩
  | many =>
    -- A star takes its first character alone, or with it what a star takes behind it.
    induction t with
    | nil => simp [flag, Takes]
    | cons c t ih =>
      simp only [flag, Bool.and_eq_true, Bool.or_eq_true, bne_iff_ne, ih]
      constructor
      · rintro ⟨hc, hafter | ⟨piece, rest, rfl, ⟨-, hpiece⟩, hafter⟩⟩
        · exact ⟨[c], t, rfl, ⟨by simp, by simpa using hc.symm⟩, hafter⟩
        · refine ⟨c :: piece, rest, rfl, ⟨by simp, ?_⟩, hafter⟩
          exact fun hm => (List.mem_cons.1 hm).elim (fun h => hc h.symm) hpiece
      · rintro ⟨piece, rest, heq, ⟨hne, hpiece⟩, hafter⟩
        obtain ⟨d, piece, rfl⟩ := List.exists_cons_of_ne_nil hne
        obtain ⟨rfl, rfl⟩ := List.cons_eq_cons.1 heq
        rw [List.mem_cons, not_or] at hpiece
        refine ⟨Ne.symm hpiece.1, ?_⟩
        cases piece with
        | nil => exact .inl hafter
        | cons d piece => exact .inr ⟨d :: piece, rest, rfl, ⟨by simp, hpiece.2⟩, hafter⟩

/-- A token put in front of flags turns the predicate behind them into that of the token. -/
theorem GlobToken.extend_tails (token : GlobToken) (after : Text → Bool) (t : Text) :
    token.extend t (t.tails.map after) = t.tails.map (token.flag after) := by
  induction t with
  | nil => rfl
  | cons c t ih =>
    have hhead : ∀ p : Text → Bool, (t.tails.map p).headD false = p t := by
      intro p
      cases t <;> rfl
    rw [List.tails_cons, List.map_cons, List.map_cons]
    simp only [extend, ih, hhead]
    cases token <;> rfl

namespace Glob

/-- **The flags of a row are the values of one predicate** over the suffixes of the text. -/
theorem flags_tails (row : List GlobToken) (last : Text → Bool) (t : Text) :
    flags row t (t.tails.map last) = t.tails.map (row.foldr GlobToken.flag last) := by
  induction row with
  | nil => rfl
  | cons token row ih =>
    show token.extend t (flags row t _) = _
    rw [ih, GlobToken.extend_tails]
    rfl

/-- A row is flagged where a part splits into pieces and a flag stands behind the part. -/
theorem foldr_flag_eq_true_iff {row : List GlobToken} {last : Text → Bool} {t : Text} :
    row.foldr GlobToken.flag last t = true ↔
      ∃ part rest, t = part ++ rest ∧ Splits false row part ∧ last rest = true := by
  induction row generalizing t with
  | nil => simp
  | cons token row ih =>
    rw [List.foldr_cons, GlobToken.flag_eq_true_iff]
    constructor
    · rintro ⟨piece, rest, rfl, hpiece, hrest⟩
      obtain ⟨part, rest, rfl, hpart, hlast⟩ := ih.1 hrest
      exact ⟨piece ++ part, rest, (List.append_assoc ..).symm,
        splits_cons.2 ⟨piece, part, rfl, hpiece, hpart⟩, hlast⟩
    · rintro ⟨part, rest, rfl, hpart, hlast⟩
      obtain ⟨piece, part, rfl, hpiece, hpart⟩ := splits_cons.1 hpart
      exact ⟨piece, part ++ rest, List.append_assoc .., hpiece,
        ih.2 ⟨part, rest, rfl, hpart, hlast⟩⟩

/-- The flags of no tokens are set for the empty suffix only. -/
theorem emptyFlags_eq (t : Text) : emptyFlags t = t.tails.map List.isEmpty := by
  induction t with
  | nil => rfl
  | cons c t ih => rw [emptyFlags, ih, List.tails_cons, List.map_cons]; rfl

/-- **Tokens match a text that splits into pieces.** -/
theorem matchesWhole_iff {row : List GlobToken} {t : Text} :
    matchesWhole row t = true ↔ Splits false row t := by
  have hflag : matchesWhole row t = row.foldr GlobToken.flag List.isEmpty t := by
    rw [matchesWhole, emptyFlags_eq, flags_tails]
    cases t <;> rfl
  rw [hflag, foldr_flag_eq_true_iff]
  constructor
  · rintro ⟨part, rest, rfl, hpart, hrest⟩
    rw [List.isEmpty_iff] at hrest
    rwa [hrest, List.append_nil]
  · intro h
    exact ⟨t, [], (List.append_nil t).symm, h, rfl⟩

/-- **Tokens match part of a text** if some part of it splits into pieces. -/
theorem matchesPart_iff {row : List GlobToken} {t : Text} :
    matchesPart row t = true ↔
      ∃ before part after, t = before ++ (part ++ after) ∧ Splits false row part := by
  have htrue : ∀ t : Text, (true :: t.map fun _ => true) = t.tails.map fun _ => true := by
    intro t
    induction t with
    | nil => rfl
    | cons c t ih => rw [List.map_cons, ih, List.tails_cons, List.map_cons]
  rw [matchesPart, htrue, flags_tails, List.any_map, List.any_eq_true]
  simp only [Function.comp, id, List.mem_tails, foldr_flag_eq_true_iff, and_true]
  constructor
  · rintro ⟨suffix, ⟨before, rfl⟩, part, after, rfl, hpart⟩
    exact ⟨before, part, after, rfl, hpart⟩
  · rintro ⟨before, part, after, rfl, hpart⟩
    exact ⟨part ++ after, ⟨before, rfl⟩, part, after, rfl, hpart⟩

end Glob

/-! ## Folding -/

/-- Folding leaves a code point as it is, or shifts one that lies in a run. -/
theorem foldCodePoint_eq_or (n : Nat) (runs : List FoldRun) :
    foldCodePoint n runs = n ∨
      ∃ run ∈ runs, run.first ≤ n ∧ foldCodePoint n runs = (n + run.shift).toNat := by
  induction runs with
  | nil => exact .inl rfl
  | cons run runs ih =>
    rw [foldCodePoint]
    split
    next => exact .inl rfl
    next hfirst =>
      split
      next => exact .inr ⟨run, List.mem_cons_self, Nat.le_of_not_lt hfirst, rfl⟩
      next =>
        refine ih.imp_right ?_
        rintro ⟨other, hmem, h⟩
        exact ⟨other, List.mem_cons_of_mem run hmem, h⟩

/-- The character of a code point other than that of the line feed is no line feed. -/
theorem ofNat_ne_lineFeed {n : Nat} (h : n ≠ 10) : Char.ofNat n ≠ '\n' := by
  by_cases hvalid : n.isValidChar
  · rw [Char.ofNat, dif_pos hvalid]
    intro heq
    have hcode : (Char.ofNatAux n hvalid).toNat = n := rfl
    rw [heq] at hcode
    exact h hcode.symm
  · rw [Char.ofNat, dif_neg hvalid]
    decide

/-- No character but the line feed is folded to a line feed. -/
theorem foldCase_eq_lineFeed_iff {c : Char} : foldCase c = '\n' ↔ c = '\n' := by
  constructor
  · intro h
    have hcode : foldCodePoint c.toNat foldRuns = 10 := by
      by_contra hne
      exact ofNat_ne_lineFeed hne h
    rcases foldCodePoint_eq_or c.toNat foldRuns with heq | ⟨run, hmem, hfirst, heq⟩
    · rw [heq] at hcode
      rw [← Char.ofNat_toNat c, hcode]
    · -- Every run is shifted to code points above that of the line feed.
      have habove : ∀ run ∈ foldRuns, 10 < (run.first : Int) + run.shift := by decide +kernel
      have hrun := habove run hmem
      omega
  · rintro rfl
    rfl

/-- A folded token takes the folded form of what it takes where case does not count. -/
theorem GlobToken.takes_fold {token : GlobToken} {piece : Text} :
    token.fold.Takes false (piece.map foldCase) ↔ token.Takes true piece := by
  cases token with
  | char c =>
    simp only [fold, Takes, List.map_eq_singleton_iff]
    constructor
    · rintro ⟨_, ⟨d, rfl, rfl⟩, hd⟩
      exact ⟨d, rfl, hd⟩
    · rintro ⟨d, rfl, hd⟩
      exact ⟨foldCase d, ⟨d, rfl, rfl⟩, hd⟩
  | one =>
    simp only [fold, Takes, List.map_eq_singleton_iff]
    constructor
    · rintro ⟨_, ⟨d, rfl, rfl⟩, hd⟩
      exact ⟨d, rfl, fun h => hd (foldCase_eq_lineFeed_iff.2 h)⟩
    · rintro ⟨d, rfl, hd⟩
      exact ⟨foldCase d, ⟨d, rfl, rfl⟩, fun h => hd (foldCase_eq_lineFeed_iff.1 h)⟩
  | many => simp [fold, Takes, foldCase_eq_lineFeed_iff]

namespace Glob

/-- **Folding a text folds its pieces.** -/
theorem splits_fold {row : List GlobToken} {t : Text} :
    Splits false (row.map GlobToken.fold) (t.map foldCase) ↔ Splits true row t := by
  induction row generalizing t with
  | nil => simp
  | cons token row ih =>
    rw [List.map_cons, splits_cons, splits_cons]
    constructor
    · rintro ⟨_, _, heq, hpiece, hrest⟩
      obtain ⟨piece, rest, rfl, rfl, rfl⟩ := List.map_eq_append_iff.1 heq
      exact ⟨piece, rest, rfl, GlobToken.takes_fold.1 hpiece, ih.1 hrest⟩
    · rintro ⟨piece, rest, rfl, hpiece, hrest⟩
      exact ⟨piece.map foldCase, rest.map foldCase, List.map_append, GlobToken.takes_fold.2 hpiece,
        ih.2 hrest⟩

/-! ## Globs -/

/-- A glob matches a text that splits into pieces for its tokens. -/
theorem equals_iff {ignoreCase : Bool} {glob t : Text} :
    equals ignoreCase glob t = true ↔ Splits ignoreCase (tokens glob) t := by
  cases ignoreCase with
  | false => exact matchesWhole_iff
  | true => exact matchesWhole_iff.trans splits_fold

/-- A glob matches part of a text if some part of it splits into pieces for its tokens. -/
theorem contains_iff {ignoreCase : Bool} {glob t : Text} :
    contains ignoreCase glob t = true ↔
      ∃ before part after, t = before ++ (part ++ after) ∧
        Splits ignoreCase (tokens glob) part := by
  cases ignoreCase with
  | false => exact matchesPart_iff
  | true =>
    refine matchesPart_iff.trans ?_
    constructor
    · rintro ⟨_, _, _, heq, hpart⟩
      obtain ⟨before, rest, rfl, rfl, hrest⟩ := List.map_eq_append_iff.1 heq
      obtain ⟨part, after, rfl, rfl, rfl⟩ := List.map_eq_append_iff.1 hrest
      exact ⟨before, part, after, rfl, splits_fold.1 hpart⟩
    · rintro ⟨before, part, after, rfl, hpart⟩
      refine ⟨before.map foldCase, part.map foldCase, after.map foldCase, ?_, splits_fold.2 hpart⟩
      rw [List.map_append, List.map_append]

/-- **A glob matches what its tokens take.** Every glob stands for one row of tokens, of which its
pattern is a well-formed text, so matching cannot fail. The glob matches a whole text exactly if the
text splits into consecutive pieces that the tokens take, and it matches part of a text exactly if
there is a part, possibly empty, that it matches as a whole. -/
theorem equals_iff_contains_iff (ignoreCase : Bool) (glob t : Text) :
    ∃ row, (∀ other, Reads glob other ↔ other = row) ∧ readPattern? (pattern glob) = some row ∧
      (equals ignoreCase glob t = true ↔ ∃ pieces : List Text,
        t = pieces.flatten ∧ List.Forall₂ (GlobToken.Takes ignoreCase) row pieces) ∧
      (contains ignoreCase glob t = true ↔ ∃ before part after,
        t = before ++ (part ++ after) ∧ equals ignoreCase glob part = true) := by
  refine ⟨tokens glob, fun _ => reads_iff, readPattern?_flatMap_pattern (tokens glob), equals_iff,
    ?_⟩
  rw [contains_iff]
  constructor
  · rintro ⟨before, part, after, heq, hpart⟩
    exact ⟨before, part, after, heq, equals_iff.2 hpart⟩
  · rintro ⟨before, part, after, heq, hpart⟩
    exact ⟨before, part, after, heq, equals_iff.1 hpart⟩

end Glob

end RecordFilter
