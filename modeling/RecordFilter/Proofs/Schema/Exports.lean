import Mathlib.Data.List.Induction
import Mathlib.Data.List.Nodup
import RecordFilter.Proofs.Schema.Attribute
import RecordFilter.Proofs.Schema.ConstantName
import RecordFilter.Query
import RecordFilter.Schema.Derivation

/-! # Which types are exported, and what of them

The fields of a type are taken in the order of declaration, and each is checked against those before
it. Whether a field goes wrong, and how, is said by `Offence`; fields none of which goes wrong are
`AreExportable`. The loop over the fields is described by what it does with one field
(`exportFields_exportable`, `exportFields_offence`), from which follows what it does with any number
of them (`exportFields_append`): on exportable fields it succeeds, with the exports of those that
are not skipped, and else it fails with the offence of the first field that commits one.

A selector settles its constant, so fields with distinct constants have distinct selectors, and the
record of an object has one entry for each field that is not skipped.

The checks ask for a letter or a digit in a constant, but not for an identifier. So there are names
that pass all of them and still end the derivation (`exports_enclosed_capital`). -/

namespace RecordFilter.Schema

/-! ## Fields -/

namespace Field

/-- The field is left out of records. -/
def IsSkipped (f : Field) : Prop := Item.skip ∈ itemsOf f.attributes

instance : DecidablePred IsSkipped := fun _ => List.instDecidableMemOfLawfulBEq _ _

/-- The name of a field in queries: the last that is given to it, else its own. -/
def selector (f : Field) : Text :=
  ((itemsOf f.attributes).filterMap Item.name?).getLast?.getD f.name

/-- The name of the constant for a field. -/
def constant (f : Field) : Text := ConstantName.ofName f.selector

/-- The constant of a field has a letter or a digit. -/
def HasConstant (f : Field) : Prop := ∃ c ∈ f.constant, ConstantName.IsProperCharacter c

/-- The constant of a field is an identifier: there is no capital in a circle or a square in the
name it is made from. -/
def HasIdentifier (f : Field) : Prop := ∀ c ∈ f.selector, isEnclosedCapital c = false

/-- What a field is exported as. -/
def exported (f : Field) : Export := ⟨f.selector, f.constant, f.name⟩

end Field

/-- The fields that are not skipped. -/
def keptFields (fields : List Field) : List Field := fields.filter fun f => !decide f.IsSkipped

theorem mem_keptFields {f : Field} {fields : List Field} :
    f ∈ keptFields fields ↔ f ∈ fields ∧ ¬ f.IsSkipped := by
  simp [keptFields]

theorem keptFields_append (a b : List Field) : keptFields (a ++ b) = keptFields a ++ keptFields b :=
  List.filter_append ..

/-- Fields that can all be exported. -/
structure AreExportable (fields : List Field) : Prop where
  /-- The attributes can be read, also those of fields that are skipped. -/
  readable : ∀ f ∈ fields, AreReadable f.attributes
  /-- Every constant has a letter or a digit. -/
  constants : ∀ f ∈ keptFields fields, f.HasConstant
  /-- No two constants are the same. -/
  distinct : ((keptFields fields).map Field.constant).Nodup
  /-- Every constant is an identifier. -/
  identifiers : ∀ f ∈ keptFields fields, f.HasIdentifier

/-- What goes wrong with a field that is declared behind others. -/
inductive Offence (earlier : List Field) (f : Field) : DerivationError → Prop where
  /-- Its attributes cannot be read. -/
  | attributes {e : AttributeError} :
    FieldOptions.ofAttributes f.attributes = .error e → Offence earlier f (.badAttribute e)
  /-- Its constant has neither a letter nor a digit. -/
  | constant : AreReadable f.attributes → ¬ f.IsSkipped → ¬ f.HasConstant →
    Offence earlier f (.noConstant f.selector)
  /-- It has the selector of an earlier field. -/
  | sameSelector {g : Field} : AreReadable f.attributes → ¬ f.IsSkipped → f.HasConstant →
    g ∈ keptFields earlier → g.selector = f.selector →
    Offence earlier f (.duplicateSelector f.selector)
  /-- It has another selector than an earlier field, but the same constant. -/
  | sameConstant {g : Field} : AreReadable f.attributes → ¬ f.IsSkipped → f.HasConstant →
    g ∈ keptFields earlier → g.selector ≠ f.selector → g.constant = f.constant →
    Offence earlier f (.duplicateConstant g.selector f.selector f.constant)
  /-- It passes all these checks, but its constant is no identifier. -/
  | notIdentifier : AreReadable f.attributes → ¬ f.IsSkipped → f.HasConstant →
    (∀ g ∈ keptFields earlier, g.constant ≠ f.constant) → ¬ f.HasIdentifier →
    Offence earlier f (.notIdentifier f.constant)

/-! ## One more field -/

theorem areExportable_nil : AreExportable [] :=
  ⟨by simp, by simp [keptFields], by simp [keptFields], by simp [keptFields]⟩

/-- A field that is skipped is none of those that are kept. -/
theorem keptFields_singleton (f : Field) : keptFields [f] = if f.IsSkipped then [] else [f] := by
  by_cases h : f.IsSkipped <;> simp [keptFields, h]

/-- Constants are all different behind one more if it is none of those before it. -/
theorem nodup_constants_concat_iff {fields : List Field} {f : Field} :
    ((fields ++ [f]).map Field.constant).Nodup ↔
      (fields.map Field.constant).Nodup ∧ ∀ g ∈ fields, g.constant ≠ f.constant := by
  rw [List.map_append, List.map_singleton, ← List.concat_eq_append, List.nodup_concat, and_comm,
    List.mem_map]
  refine and_congr_right fun _ => ?_
  constructor
  · intro h g hg heq
    exact h ⟨g, hg, heq⟩
  · rintro h ⟨g, hg, heq⟩
    exact h g hg heq

/-- Of a field that is skipped, only the attributes count. -/
theorem areExportable_concat_of_isSkipped {earlier : List Field} {f : Field}
    (hskip : f.IsSkipped) :
    AreExportable (earlier ++ [f]) ↔ AreExportable earlier ∧ AreReadable f.attributes := by
  have hkept : keptFields (earlier ++ [f]) = keptFields earlier := by
    rw [keptFields_append, keptFields_singleton, if_pos hskip, List.append_nil]
  constructor
  · rintro ⟨hreadable, hconstants, hdistinct, hidentifiers⟩
    rw [hkept] at hconstants hdistinct hidentifiers
    rw [List.forall_mem_append, List.forall_mem_singleton] at hreadable
    exact ⟨⟨hreadable.1, hconstants, hdistinct, hidentifiers⟩, hreadable.2⟩
  · rintro ⟨⟨hreadable, hconstants, hdistinct, hidentifiers⟩, hf⟩
    rw [← hkept] at hconstants hdistinct hidentifiers
    exact ⟨List.forall_mem_append.2 ⟨hreadable, List.forall_mem_singleton.2 hf⟩, hconstants,
      hdistinct, hidentifiers⟩

/-- A field that is kept has to have a proper constant that none of the others has and that is an
identifier. -/
theorem areExportable_concat_of_not_isSkipped {earlier : List Field} {f : Field}
    (hskip : ¬ f.IsSkipped) :
    AreExportable (earlier ++ [f]) ↔ AreExportable earlier ∧ AreReadable f.attributes ∧
      f.HasConstant ∧ (∀ g ∈ keptFields earlier, g.constant ≠ f.constant) ∧ f.HasIdentifier := by
  have hkept : keptFields (earlier ++ [f]) = keptFields earlier ++ [f] := by
    rw [keptFields_append, keptFields_singleton, if_neg hskip]
  constructor
  · rintro ⟨hreadable, hconstants, hdistinct, hidentifiers⟩
    rw [List.forall_mem_append, List.forall_mem_singleton] at hreadable
    rw [hkept, List.forall_mem_append, List.forall_mem_singleton] at hconstants hidentifiers
    rw [hkept, nodup_constants_concat_iff] at hdistinct
    exact ⟨⟨hreadable.1, hconstants.1, hdistinct.1, hidentifiers.1⟩, hreadable.2, hconstants.2,
      hdistinct.2, hidentifiers.2⟩
  · rintro ⟨⟨hreadable, hconstants, hdistinct, hidentifiers⟩, hf, hconstant, hnew, hidentifier⟩
    refine ⟨List.forall_mem_append.2 ⟨hreadable, List.forall_mem_singleton.2 hf⟩, ?_, ?_, ?_⟩
    · rw [hkept]
      exact List.forall_mem_append.2 ⟨hconstants, List.forall_mem_singleton.2 hconstant⟩
    · rw [hkept, nodup_constants_concat_iff]
      exact ⟨hdistinct, hnew⟩
    · rw [hkept]
      exact List.forall_mem_append.2 ⟨hidentifiers, List.forall_mem_singleton.2 hidentifier⟩

/-- **A field can be exported behind others** if its attributes can be read and it is skipped or has
a proper constant that none of the others has and that is an identifier. -/
theorem areExportable_concat_iff {earlier : List Field} {f : Field} :
    AreExportable (earlier ++ [f]) ↔ AreExportable earlier ∧ AreReadable f.attributes ∧
      (¬ f.IsSkipped → f.HasConstant ∧ (∀ g ∈ keptFields earlier, g.constant ≠ f.constant) ∧
        f.HasIdentifier) := by
  by_cases hskip : f.IsSkipped
  · rw [areExportable_concat_of_isSkipped hskip, and_iff_left fun hkeep => absurd hskip hkeep]
  · rw [areExportable_concat_of_not_isSkipped hskip, imp_iff_right hskip]

/-- The first of exportable fields are exportable. -/
theorem AreExportable.of_append {a b : List Field} (h : AreExportable (a ++ b)) :
    AreExportable a := by
  induction b using List.reverseRecOn with
  | nil => rwa [List.append_nil] at h
  | append_singleton b f ih =>
    rw [← List.append_assoc] at h
    exact ih (areExportable_concat_iff.1 h).1

/-- **A field that cannot be exported behind exportable ones commits an offence.** -/
theorem exists_offence {earlier : List Field} (hearlier : AreExportable earlier) {f : Field}
    (h : ¬ AreExportable (earlier ++ [f])) : ∃ e, Offence earlier f e := by
  cases hoptions : FieldOptions.ofAttributes f.attributes with
  | error e => exact ⟨_, .attributes hoptions⟩
  | ok options =>
    have hf : AreReadable f.attributes := (FieldOptions.ofAttributes_eq_ok_iff.1 hoptions).1
    by_cases hskip : f.IsSkipped
    · exact absurd (areExportable_concat_iff.2 ⟨hearlier, hf, fun h => absurd hskip h⟩) h
    by_cases hconstant : f.HasConstant
    · -- The constant is proper, so it is taken or no identifier.
      by_cases hnew : ∀ g ∈ keptFields earlier, g.constant ≠ f.constant
      · refine ⟨_, .notIdentifier hf hskip hconstant hnew fun hidentifier => h ?_⟩
        exact areExportable_concat_iff.2 ⟨hearlier, hf, fun _ => ⟨hconstant, hnew, hidentifier⟩⟩
      · simp only [not_forall, not_not] at hnew
        obtain ⟨g, hg, heq⟩ := hnew
        by_cases hselector : g.selector = f.selector
        · exact ⟨_, .sameSelector hf hskip hconstant hg hselector⟩
        · exact ⟨_, .sameConstant hf hskip hconstant hg hselector heq⟩
    · exact ⟨_, .constant hf hskip hconstant⟩

/-! ## The export of a field -/

namespace Field

variable {f : Field}

/-- The export of a field whose attributes can be read. -/
theorem export?_eq (h : AreReadable f.attributes) :
    f.export? = if f.IsSkipped then .ok none
      else if ConstantName.isProper f.constant then .ok (some f.exported)
      else .error (.noConstant f.selector) := by
  have hoptions := FieldOptions.ofAttributes_eq_ok_iff.2 ⟨h, rfl⟩
  have hasked : (FieldOptions.asked (itemsOf f.attributes)).skip = true ↔ f.IsSkipped :=
    decide_eq_true_iff
  rw [export?, hoptions, mapError_ok, ok_bind]
  by_cases hskip : f.IsSkipped
  · rw [if_pos hskip, if_pos (hasked.2 hskip)]
    rfl
  · rw [if_neg hskip, if_neg (mt hasked.1 hskip)]
    rfl

/-- A field that is skipped has no export. -/
theorem export?_of_isSkipped (h : AreReadable f.attributes) (hskip : f.IsSkipped) :
    f.export? = .ok none := by
  rw [export?_eq h, if_pos hskip]

/-- A field with a proper constant is exported. -/
theorem export?_of_hasConstant (h : AreReadable f.attributes) (hskip : ¬ f.IsSkipped)
    (hconstant : f.HasConstant) : f.export? = .ok (some f.exported) := by
  have hproper : ConstantName.isProper f.constant = true := ConstantName.isProper_iff.2 hconstant
  rw [export?_eq h, if_neg hskip, if_pos hproper]

/-- A field without a proper constant is refused. -/
theorem export?_of_not_hasConstant (h : AreReadable f.attributes) (hskip : ¬ f.IsSkipped)
    (hconstant : ¬ f.HasConstant) : f.export? = .error (.noConstant f.selector) := by
  have hproper : ¬ ConstantName.isProper f.constant = true :=
    mt ConstantName.isProper_iff.1 hconstant
  rw [export?_eq h, if_neg hskip, if_neg hproper]

/-- Whether a constant is an identifier is settled by the name it is made from. -/
theorem isIdentifier_constant_iff :
    ConstantName.isIdentifier f.constant = true ↔ f.HasIdentifier :=
  ConstantName.isIdentifier_ofName_iff

/-- Exports collide with the first earlier one that has the same constant. -/
theorem collision?_map (f : Field) (gs : List Field) :
    f.exported.collision? (gs.map exported) =
      (gs.find? fun g => g.constant = f.constant).map fun g =>
        if g.selector = f.selector then .duplicateSelector f.selector
        else .duplicateConstant g.selector f.selector f.constant := by
  induction gs with
  | nil => rfl
  | cons g gs ih =>
    rw [List.map_cons, Export.collision?, List.find?_cons, ih]
    -- The same selector makes the same constant.
    have hsame : g.selector = f.selector → g.constant = f.constant := by
      intro h
      rw [constant, h, constant]
    by_cases hselector : g.selector = f.selector
    · simp [exported, hselector, hsame hselector]
    · by_cases hconstant : g.constant = f.constant <;> simp [exported, hselector, hconstant]

end Field

/-- A field whose constant none of the others has does not collide with them. -/
theorem Field.collision?_eq_none {f : Field} {gs : List Field}
    (h : ∀ g ∈ gs, g.constant ≠ f.constant) : f.exported.collision? (gs.map exported) = none := by
  have hnone : (gs.find? fun g => g.constant = f.constant) = none := by
    rw [List.find?_eq_none]
    intro g hg heq
    exact h g hg (of_decide_eq_true heq)
  rw [collision?_map, hnone, Option.map_none]

/-- Among fields with distinct constants there is one at most with a given constant. -/
theorem find?_constant_eq {gs : List Field} (h : (gs.map Field.constant).Nodup) {g : Field}
    (hg : g ∈ gs) {constant : Text} (heq : g.constant = constant) :
    (gs.find? fun other => other.constant = constant) = some g := by
  have hsome : (gs.find? fun other => other.constant = constant).isSome := by
    rw [List.find?_isSome]
    exact ⟨g, hg, decide_eq_true heq⟩
  obtain ⟨other, hother⟩ := Option.isSome_iff_exists.1 hsome
  have hmem : other ∈ gs := List.mem_of_find?_eq_some hother
  have hconstant : other.constant = constant := by simpa using List.find?_some hother
  rw [hother, List.inj_on_of_nodup_map h hmem hg (hconstant.trans heq.symm)]

/-! ## One step of the loop -/

/-- A field that can be exported is added to the exports, unless it is skipped. -/
theorem exportFields_exportable {earlier : List Field} {f : Field}
    (h : AreExportable (earlier ++ [f])) (fields : List Field) :
    exportFields ((keptFields earlier).map Field.exported) (f :: fields) =
      exportFields ((keptFields (earlier ++ [f])).map Field.exported) fields := by
  obtain ⟨-, hf, hkeep⟩ := areExportable_concat_iff.1 h
  rw [exportFields, keptFields_append, keptFields_singleton]
  by_cases hskip : f.IsSkipped
  · rw [if_pos hskip, Field.export?_of_isSkipped hf hskip, ok_bind, List.append_nil]
  · obtain ⟨hconstant, hnew, hidentifier⟩ := hkeep hskip
    have hnamed : ConstantName.isIdentifier f.exported.constant = true :=
      Field.isIdentifier_constant_iff.2 hidentifier
    rw [if_neg hskip, Field.export?_of_hasConstant hf hskip hconstant, ok_bind]
    simp only [Field.collision?_eq_none hnew, if_pos hnamed, List.map_append, List.map_singleton]

/-- An offence ends the loop. -/
theorem exportFields_offence {earlier : List Field} (hearlier : AreExportable earlier) {f : Field}
    {e : DerivationError} (h : Offence earlier f e) (fields : List Field) :
    exportFields ((keptFields earlier).map Field.exported) (f :: fields) = .error e := by
  rw [exportFields]
  cases h with
  | attributes hoptions =>
    rw [Field.export?, hoptions]
    rfl
  | constant hf hskip hconstant =>
    rw [Field.export?_of_not_hasConstant hf hskip hconstant]
    rfl
  | sameSelector hf hskip hconstant hg hselector =>
    have heq : Field.constant _ = f.constant := congrArg ConstantName.ofName hselector
    rw [Field.export?_of_hasConstant hf hskip hconstant, ok_bind]
    simp only [Field.collision?_map, find?_constant_eq hearlier.distinct hg heq, Option.map_some,
      if_pos hselector]
    rfl
  | sameConstant hf hskip hconstant hg hselector heq =>
    rw [Field.export?_of_hasConstant hf hskip hconstant, ok_bind]
    simp only [Field.collision?_map, find?_constant_eq hearlier.distinct hg heq, Option.map_some,
      if_neg hselector]
    rfl
  | notIdentifier hf hskip hconstant hnew hidentifier =>
    have hnamed : ¬ ConstantName.isIdentifier f.exported.constant = true :=
      mt Field.isIdentifier_constant_iff.1 hidentifier
    rw [Field.export?_of_hasConstant hf hskip hconstant, ok_bind]
    simp only [Field.collision?_eq_none hnew, if_neg hnamed]
    rfl

/-! ## The loop -/

/-- **Exportable fields are exported**, and the loop goes on behind them. -/
theorem exportFields_append {earlier fields : List Field} (h : AreExportable (earlier ++ fields))
    (rest : List Field) :
    exportFields ((keptFields earlier).map Field.exported) (fields ++ rest) =
      exportFields ((keptFields (earlier ++ fields)).map Field.exported) rest := by
  -- By induction on the fields, for all earlier ones, which each field joins once it is done.
  induction fields generalizing earlier with
  | nil => rw [List.append_nil, List.nil_append]
  | cons f fields ih =>
    rw [List.append_cons] at h ⊢
    rw [List.cons_append, exportFields_exportable h.of_append, ih h]

/-- **The first offence among fields**: either all can be exported, or there is a first that cannot
be exported behind those before it. -/
theorem areExportable_or_offence (fields : List Field) :
    AreExportable fields ∨ ∃ before f after e,
      fields = before ++ f :: after ∧ AreExportable before ∧ Offence before f e := by
  -- By induction from the last field, as a field is judged by those before it.
  induction fields using List.reverseRecOn with
  | nil => exact .inl areExportable_nil
  | append_singleton fields f ih =>
    rcases ih with hfields | ⟨before, g, after, e, rfl, hbefore, he⟩
    · by_cases h : AreExportable (fields ++ [f])
      · exact .inl h
      · obtain ⟨e, he⟩ := exists_offence hfields h
        exact .inr ⟨fields, f, [], e, rfl, hfields, he⟩
    · exact .inr ⟨before, g, after ++ [f], e, by simp, hbefore, he⟩

/-- Exportable fields are exported. -/
theorem exports_of_areExportable {fields : List Field} (h : AreExportable fields) :
    TypeDescription.exports ⟨.namedFields, fields⟩ =
      .ok ((keptFields fields).map Field.exported) := by
  have hrun := @exportFields_append [] fields h []
  rwa [List.append_nil] at hrun

/-- Nothing is exported from the first offence on. -/
theorem exports_of_offence {before : List Field} (hbefore : AreExportable before) {f : Field}
    {e : DerivationError} (h : Offence before f e) (after : List Field) :
    TypeDescription.exports ⟨.namedFields, before ++ f :: after⟩ = .error e := by
  have hrun := @exportFields_append [] before hbefore (f :: after)
  rw [List.nil_append, exportFields_offence hbefore h] at hrun
  exact hrun

/-- **A type with named fields is exported if and only if its fields are exportable.** -/
theorem exports_eq_ok_iff {fields : List Field} {es : List Export} :
    TypeDescription.exports ⟨.namedFields, fields⟩ = .ok es ↔
      AreExportable fields ∧ es = (keptFields fields).map Field.exported := by
  constructor
  · intro h
    rcases areExportable_or_offence fields with hfields | ⟨before, f, after, e, rfl, hbefore, he⟩
    · rw [exports_of_areExportable hfields, Except.ok.injEq] at h
      exact ⟨hfields, h.symm⟩
    · rw [exports_of_offence hbefore he] at h
      cases h
  · rintro ⟨hfields, rfl⟩
    exact exports_of_areExportable hfields

/-- **The error is that of the first offence.** -/
theorem exports_eq_error_iff {fields : List Field} {e : DerivationError} :
    TypeDescription.exports ⟨.namedFields, fields⟩ = .error e ↔
      ∃ before f after, fields = before ++ f :: after ∧ AreExportable before ∧
        Offence before f e := by
  constructor
  · intro h
    rcases areExportable_or_offence fields with hfields | ⟨before, f, after, e', rfl, hbefore, he⟩
    · rw [exports_of_areExportable hfields] at h
      cases h
    · rw [exports_of_offence hbefore he, Except.error.injEq] at h
      subst h
      exact ⟨before, f, after, rfl, hbefore, he⟩
  · rintro ⟨before, f, after, rfl, hbefore, he⟩
    exact exports_of_offence hbefore he after

/-! ## Records of objects -/

/-- Exported fields have distinct selectors, as a selector settles its constant. -/
theorem AreExportable.nodup_selectors {fields : List Field} (h : AreExportable fields) :
    (((keptFields fields).map Field.exported).map Export.selector).Nodup := by
  have hconstants : (((keptFields fields).map Field.exported).map Export.selector).map
      ConstantName.ofName = (keptFields fields).map Field.constant := by
    rw [List.map_map, List.map_map]
    rfl
  apply List.Nodup.of_map ConstantName.ofName
  rw [hconstants]
  exact h.distinct

/-- A name stands for the first field that is exported under it. -/
theorem field?_recordOf_cons (first : Export) (es : List Export) (value : Text → Value)
    (name : Text) : (recordOf (first :: es) value).field? name =
      if name = first.selector then some (value first.field)
      else (recordOf es value).field? name := by
  rw [recordOf, recordOf, Record.field?, Record.field?, List.map_cons, List.lookup_cons]
  by_cases hname : name = first.selector
  · rw [if_pos hname, beq_iff_eq.2 hname]
  · rw [if_neg hname, beq_false_of_ne hname]

/-- In a record, an export whose selector is no other's has the value of its field. -/
theorem field?_recordOf {es : List Export} (h : (es.map Export.selector).Nodup) {e : Export}
    (he : e ∈ es) (value : Text → Value) :
    (recordOf es value).field? e.selector = some (value e.field) := by
  induction es with
  | nil => exact absurd he List.not_mem_nil
  | cons first es ih =>
    rw [List.map_cons, List.nodup_cons] at h
    rw [field?_recordOf_cons]
    rcases List.mem_cons.1 he with rfl | hmem
    · rw [if_pos rfl]
    · have hne : e.selector ≠ first.selector := by
        intro heq
        exact h.1 (heq ▸ List.mem_map_of_mem hmem)
      rw [if_neg hne, ih h.2 hmem]

/-- The record of exported fields: their selectors and values, in order. -/
theorem recordOf_exported (fields : List Field) (value : Text → Value) :
    recordOf (fields.map Field.exported) value =
      ⟨fields.map fun f => (f.selector, value f.name)⟩ := by
  rw [recordOf, List.map_map]
  rfl

/-- Objects with the same values of exported fields have the same record. -/
theorem recordOf_congr {es : List Export} {v w : Text → Value}
    (h : ∀ e ∈ es, v e.field = w e.field) : recordOf es v = recordOf es w := by
  rw [recordOf, recordOf, Record.mk.injEq]
  exact List.map_congr_left fun e he => by rw [h e he]

/-- **What is exported of a type with named fields, and when.** Its fields are exported if and only
if all of them are exportable. The exports are then the fields that are not skipped, once each and
in the order of declaration, and have distinct selectors; the record of an object has an entry for
each of them, with the value of that field, so that skipped fields are of no account in any query.
If nothing is exported, the outcome is that of the first field with an offence: an error, or the end
of the derivation at a constant that is no identifier. -/
theorem exports_namedFields (fields : List Field) :
    ((∃ es, TypeDescription.exports ⟨.namedFields, fields⟩ = .ok es) ↔ AreExportable fields) ∧
      (∀ es, TypeDescription.exports ⟨.namedFields, fields⟩ = .ok es →
        es = (keptFields fields).map Field.exported ∧
        (es.map Export.selector).Nodup ∧
        (∀ value : Text → Value,
          (recordOf es value).fields =
              (keptFields fields).map (fun f => (f.selector, value f.name)) ∧
            ∀ f ∈ keptFields fields,
              (recordOf es value).field? f.selector = some (value f.name)) ∧
        ∀ v w : Text → Value, (∀ f ∈ keptFields fields, v f.name = w f.name) →
          ∀ s query, Query.evaluate s query (recordOf es v) =
            Query.evaluate s query (recordOf es w)) ∧
      ∀ e, TypeDescription.exports ⟨.namedFields, fields⟩ = .error e ↔
        ∃ before f after, fields = before ++ f :: after ∧ AreExportable before ∧
          Offence before f e := by
  refine ⟨?accepts, ?exports, fun e => exports_eq_error_iff⟩
  case accepts =>
    constructor
    · rintro ⟨es, hes⟩
      exact (exports_eq_ok_iff.1 hes).1
    · intro h
      exact ⟨_, exports_of_areExportable h⟩
  case exports =>
    intro es hes
    obtain ⟨hfields, rfl⟩ := exports_eq_ok_iff.1 hes
    refine ⟨rfl, hfields.nodup_selectors, fun value => ⟨?_, ?_⟩, ?_⟩
    · rw [recordOf_exported]
    · intro f hf
      exact field?_recordOf hfields.nodup_selectors (List.mem_map_of_mem hf) value
    · intro v w h s query
      have hvalues : ∀ e ∈ (keptFields fields).map Field.exported, v e.field = w e.field := by
        rw [List.forall_mem_map]
        exact h
      rw [recordOf_congr hvalues]

/-- Objects with a field `i` that is skipped and a field `n` that is renamed to `who`. -/
theorem exports_namedFields_skip_rename :
    TypeDescription.exports ⟨.namedFields,
        [⟨['i'], [⟨['f', 'i', 'q', 'l'], some [.path ['s', 'k', 'i', 'p']]⟩]⟩,
          ⟨['n'], [⟨['f', 'i', 'q', 'l'],
            some [.assignment ['r', 'e', 'n', 'a', 'm', 'e'] (.string ['w', 'h', 'o'])]⟩]⟩]⟩ =
        .ok [⟨['w', 'h', 'o'], ['W', 'H', 'O'], ['n']⟩] ∧
      ∀ s query, Query.evaluate s query (recordOf [⟨['w', 'h', 'o'], ['W', 'H', 'O'], ['n']⟩]
          fun name => .text name) =
        Query.evaluate s query (recordOf [⟨['w', 'h', 'o'], ['W', 'H', 'O'], ['n']⟩]
          fun name => if name = ['i'] then .null else .text name) := by
  have hexports : TypeDescription.exports ⟨.namedFields,
      [⟨['i'], [⟨['f', 'i', 'q', 'l'], some [.path ['s', 'k', 'i', 'p']]⟩]⟩,
        ⟨['n'], [⟨['f', 'i', 'q', 'l'],
          some [.assignment ['r', 'e', 'n', 'a', 'm', 'e'] (.string ['w', 'h', 'o'])]⟩]⟩]⟩ =
      .ok [⟨['w', 'h', 'o'], ['W', 'H', 'O'], ['n']⟩] := rfl
  refine ⟨hexports, ((exports_namedFields _).2.1 _ hexports).2.2.2 _ _ ?_⟩
  intro f hf
  obtain rfl := List.mem_singleton.1 hf
  rfl

/-- **A field may pass all checks and not be exported.** The name `Ⓐ` is a single capital, so its
constant has a letter; but that is in a circle, and the derivation ends at a constant that is no
identifier, with no error that is told. -/
theorem exports_enclosed_capital :
    let f : Field := ⟨['f'], [⟨['f', 'i', 'q', 'l'],
      some [.assignment ['r', 'e', 'n', 'a', 'm', 'e'] (.string ['Ⓐ'])]⟩]⟩
    AreReadable f.attributes ∧ keptFields [f] = [f] ∧ f.constant = ['Ⓐ'] ∧ f.HasConstant ∧
      ((keptFields [f]).map Field.constant).Nodup ∧
      TypeDescription.exports ⟨.namedFields, [f]⟩ = .error (.notIdentifier ['Ⓐ']) := by
  intro f
  have hoptions : FieldOptions.ofAttributes f.attributes = .ok ⟨false, some ['Ⓐ']⟩ := rfl
  have hreadable : AreReadable f.attributes := (FieldOptions.ofAttributes_eq_ok_iff.1 hoptions).1
  have hconstant : f.constant = ['Ⓐ'] := by decide +kernel
  have hproper : f.HasConstant := by
    refine ⟨'Ⓐ', ?_, .inr (by decide +kernel)⟩
    rw [hconstant]
    exact List.mem_cons_self
  exact ⟨hreadable, rfl, hconstant, hproper, List.nodup_singleton _, rfl⟩

end RecordFilter.Schema
