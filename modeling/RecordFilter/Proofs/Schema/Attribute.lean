import RecordFilter.Proofs.Result
import RecordFilter.Schema.Attribute

/-! # What the attributes of a field ask for

The options of a field are merged twice, over the items of an attribute and over the attributes.
Both merges come to the same as asking all items at once, in order (`asked`): the field is skipped
if some item says so, and of the names given the last one counts. The options can be read if every
attribute that counts has items, and each of them is known (`ofAttributes_eq_ok_iff`). -/

namespace RecordFilter.Schema

/-! ## Items -/

/-- The item by which a field is left out. -/
def Item.skip : Item := .path ['s', 'k', 'i', 'p']

/-- The name that an item gives to its field. -/
def Item.name? : Item → Option Text
  | .assignment key (.string s) => if key = ['r', 'e', 'n', 'a', 'm', 'e'] then some s else none
  | _ => none

/-- An item that an attribute may have: it skips the field or gives it a name that is not empty. -/
def Item.IsKnown (item : Item) : Prop :=
  item = skip ∨ ∃ s, s ≠ [] ∧ item = .assignment ['r', 'e', 'n', 'a', 'm', 'e'] (.string s)

/-- The items of the attributes that count, in order. -/
def itemsOf (attributes : List Attribute) : List Item :=
  attributes.flatMap fun a => if a.path = ['f', 'i', 'q', 'l'] then a.items?.getD [] else []

/-- All attributes that count have items, and only known ones. -/
def AreReadable (attributes : List Attribute) : Prop :=
  ∀ a ∈ attributes, a.path = ['f', 'i', 'q', 'l'] →
    ∃ items, a.items? = some items ∧ ∀ item ∈ items, item.IsKnown

namespace FieldOptions

/-! ## All items at once -/

/-- What items ask for: to skip the field if one of them does, and the last of the names given. -/
def asked (items : List Item) : FieldOptions :=
  ⟨decide (Item.skip ∈ items), (items.filterMap Item.name?).getLast?⟩

@[simp] theorem asked_nil : asked [] = none := rfl

/-- Joined items ask for what they ask for one after the other. -/
theorem asked_append (a b : List Item) : asked (a ++ b) = (asked a).merge (asked b) := by
  simp [asked, merge, List.getLast?_append, Bool.decide_or]

/-- The options of an item are what it asks for, if it is known. -/
theorem ofItem_eq_ok_iff {item : Item} {o : FieldOptions} :
    ofItem item = .ok o ↔ item.IsKnown ∧ o = asked [item] := by
  cases item with
  | path key =>
    by_cases hkey : key = ['s', 'k', 'i', 'p']
    · subst hkey
      have hasked : asked [.path ['s', 'k', 'i', 'p']] = ⟨true, .none⟩ := rfl
      simp [ofItem, Item.IsKnown, Item.skip, hasked, eq_comm]
    · simp [ofItem, Item.IsKnown, Item.skip, hkey]
  | list key => simp [ofItem, Item.IsKnown, Item.skip]
  | assignment key value =>
    by_cases hkey : key = ['r', 'e', 'n', 'a', 'm', 'e']
    · subst hkey
      cases value with
      | string s =>
        have hasked : asked [.assignment ['r', 'e', 'n', 'a', 'm', 'e'] (.string s)] =
            ⟨false, some s⟩ := by
          simp [asked, Item.skip, Item.name?]
        cases s <;> simp [ofItem, Item.IsKnown, Item.skip, hasked, eq_comm]
      | other => simp [ofItem, Item.IsKnown, Item.skip]
    · cases value <;> simp [ofItem, Item.IsKnown, Item.skip, hkey]

/-- The options of items are what they ask for, if all of them are known. -/
theorem ofItems_eq_ok_iff {items : List Item} {o : FieldOptions} :
    ofItems items = .ok o ↔ (∀ item ∈ items, item.IsKnown) ∧ o = asked items := by
  induction items generalizing o with
  | nil => simp [ofItems, eq_comm]
  | cons item items ih =>
    rw [ofItems, bind_eq_ok_iff, List.forall_mem_cons]
    simp only [ofItem_eq_ok_iff, bind_eq_ok_iff, ih, pure_eq_ok, Except.ok.injEq]
    constructor
    · rintro ⟨_, ⟨hitem, rfl⟩, _, ⟨hitems, rfl⟩, rfl⟩
      exact ⟨⟨hitem, hitems⟩, (asked_append [item] items).symm⟩
    · rintro ⟨⟨hitem, hitems⟩, rfl⟩
      exact ⟨_, ⟨hitem, rfl⟩, _, ⟨hitems, rfl⟩, (asked_append [item] items).symm⟩

/-- The options of an attribute are what its items ask for, if it counts. -/
theorem ofAttribute_eq_ok_iff {a : Attribute} {o : FieldOptions} :
    ofAttribute a = .ok o ↔ AreReadable [a] ∧ o = asked (itemsOf [a]) := by
  rw [ofAttribute]
  by_cases hpath : a.path = ['f', 'i', 'q', 'l']
  · cases hitems : a.items? with
    | none => simp [AreReadable, hpath, hitems]
    | some items => simp [AreReadable, itemsOf, hpath, hitems, ofItems_eq_ok_iff]
  · simp [AreReadable, itemsOf, hpath, eq_comm]

/-- **The options of a field are what its items ask for**, if its attributes can be read. -/
theorem ofAttributes_eq_ok_iff {attributes : List Attribute} {o : FieldOptions} :
    ofAttributes attributes = .ok o ↔ AreReadable attributes ∧ o = asked (itemsOf attributes) := by
  induction attributes generalizing o with
  | nil => simp [ofAttributes, AreReadable, itemsOf, eq_comm]
  | cons a attributes ih =>
    have hreadable : AreReadable (a :: attributes) ↔ AreReadable [a] ∧ AreReadable attributes := by
      simp [AreReadable]
    have hitems : itemsOf (a :: attributes) = itemsOf [a] ++ itemsOf attributes := by
      simp [itemsOf]
    rw [ofAttributes, bind_eq_ok_iff, hreadable, hitems, asked_append]
    simp only [ofAttribute_eq_ok_iff, bind_eq_ok_iff, ih, pure_eq_ok, Except.ok.injEq]
    constructor
    · rintro ⟨_, ⟨ha, rfl⟩, _, ⟨hattributes, rfl⟩, rfl⟩
      exact ⟨⟨ha, hattributes⟩, rfl⟩
    · rintro ⟨⟨ha, hattributes⟩, rfl⟩
      exact ⟨_, ⟨ha, rfl⟩, _, ⟨hattributes, rfl⟩, rfl⟩

end FieldOptions

end RecordFilter.Schema
