import RecordFilter.Proofs.Schema.Attribute

/-! # Attributes on several lines

The items of a field may stand in one attribute or be spread over several, with attributes for
someone else between them. Merging options is associative, and where nothing is asked for there is
nothing to merge; so joined items come to what they come to one part after the other, be it options
or an error (`ofItems_append`). Attributes on several lines therefore come to what one attribute
with all the items does, and what fails them is the first item that is refused
(`ofAttributes_lines`). -/

namespace RecordFilter.Schema

/-- An item is refused if it gives an empty name, or a name that is no string, or if it neither
skips the field nor names it. -/
inductive Item.IsRefused : Item → AttributeError → Prop where
  | emptyName : IsRefused (.assignment ['r', 'e', 'n', 'a', 'm', 'e'] (.string [])) .emptyName
  | nameNotString : IsRefused (.assignment ['r', 'e', 'n', 'a', 'm', 'e'] .other) .nameNotString
  | unknownItem {item : Item} (hskip : item ≠ skip)
      (hrename : ∀ value, item ≠ .assignment ['r', 'e', 'n', 'a', 'm', 'e'] value) :
      IsRefused item .unknownItem

namespace FieldOptions

/-! ## Merging -/

@[simp] theorem none_merge (o : FieldOptions) : none.merge o = o := by
  simp [none, merge]

@[simp] theorem merge_none (o : FieldOptions) : o.merge none = o := by
  simp [none, merge]

/-- Of three options, the last two may be merged first. -/
theorem merge_assoc (a b c : FieldOptions) : (a.merge b).merge c = a.merge (b.merge c) := by
  simp [merge, Bool.or_assoc, Option.or_assoc]

/-! ## Rows of items -/

/-- **Joined items come to what they come to part after part**, and fail where that does. -/
theorem ofItems_append (a b : List Item) :
    ofItems (a ++ b) = ofItems a >>= fun first => (ofItems b).map first.merge := by
  induction a with
  | nil =>
    rw [List.nil_append, ofItems, ok_bind]
    cases ofItems b with
    | error e => rfl
    | ok o => rw [map_ok, none_merge]
  | cons item a ih =>
    rw [List.cons_append, ofItems, ofItems, ih]
    cases ofItem item with
    | error e => rfl
    | ok first =>
      cases ofItems a with
      | error e => rfl
      | ok second =>
        cases ofItems b with
        | error e => rfl
        | ok third => exact congrArg Except.ok (merge_assoc first second third).symm

/-- An item fails exactly if it is refused. -/
theorem ofItem_eq_error_iff {item : Item} {e : AttributeError} :
    ofItem item = .error e ↔ item.IsRefused e := by
  constructor
  · intro h
    cases item with
    | path key =>
      by_cases hkey : key = ['s', 'k', 'i', 'p']
      · simp [ofItem, hkey] at h
      · obtain rfl : .unknownItem = e := by simpa [ofItem, hkey] using h
        exact .unknownItem (by simpa [Item.skip] using hkey) (by simp)
    | list key =>
      obtain rfl : .unknownItem = e := by simpa [ofItem] using h
      exact .unknownItem (by simp [Item.skip]) (by simp)
    | assignment key value =>
      by_cases hkey : key = ['r', 'e', 'n', 'a', 'm', 'e']
      · subst hkey
        cases value with
        | string s =>
          cases s with
          | nil =>
            obtain rfl : .emptyName = e := by simpa [ofItem] using h
            exact .emptyName
          | cons c s => simp [ofItem] at h
        | other =>
          obtain rfl : .nameNotString = e := by simpa [ofItem] using h
          exact .nameNotString
      · obtain rfl : .unknownItem = e := by simpa [ofItem, hkey] using h
        exact .unknownItem (by simp [Item.skip]) (by simp [hkey])
  · intro h
    cases h with
    | emptyName => rfl
    | nameNotString => rfl
    | unknownItem hskip hrename =>
      cases item with
      | path key => exact if_neg fun hkey => hskip (by rw [hkey, Item.skip])
      | list key => rfl
      | assignment key value => exact if_neg fun hkey => hrename value (by rw [hkey])

/-- Every item is either known or refused. -/
theorem not_isKnown_iff {item : Item} : ¬item.IsKnown ↔ ∃ e, item.IsRefused e := by
  cases h : ofItem item with
  | ok o =>
    have hknown : item.IsKnown := (ofItem_eq_ok_iff.1 h).1
    refine iff_of_false (fun hunknown => hunknown hknown) ?_
    rintro ⟨e, he⟩
    cases h.symm.trans (ofItem_eq_error_iff.2 he)
  | error e =>
    refine iff_of_true ?_ ⟨e, ofItem_eq_error_iff.1 h⟩
    intro hknown
    cases h.symm.trans (ofItem_eq_ok_iff.2 ⟨hknown, rfl⟩)

/-- **Items fail exactly if one of them is refused**, with the error of the first that is. -/
theorem ofItems_eq_error_iff {items : List Item} {e : AttributeError} :
    ofItems items = .error e ↔ ∃ before item after, items = before ++ item :: after ∧
      (∀ known ∈ before, known.IsKnown) ∧ item.IsRefused e := by
  constructor
  · intro h
    induction items with
    | nil => cases h
    | cons item items ih =>
      rw [ofItems] at h
      rcases bind_eq_error_iff.1 h with hitem | ⟨first, hitem, h⟩
      · exact ⟨[], item, items, rfl, by simp, ofItem_eq_error_iff.1 hitem⟩
      · rcases bind_eq_error_iff.1 h with hitems | ⟨rest, -, h⟩
        · obtain ⟨before, refused, after, rfl, hbefore, hrefused⟩ := ih hitems
          refine ⟨item :: before, refused, after, rfl, ?_, hrefused⟩
          exact List.forall_mem_cons.2 ⟨(ofItem_eq_ok_iff.1 hitem).1, hbefore⟩
        · cases h
  · rintro ⟨before, item, after, rfl, hbefore, hitem⟩
    rw [ofItems_append, ofItems_eq_ok_iff.2 ⟨hbefore, rfl⟩, ok_bind, ofItems,
      ofItem_eq_error_iff.2 hitem]
    rfl

/-! ## Attributes -/

/-- An attribute that counts, with a list of items. -/
def line (items : List Item) : Attribute := ⟨['f', 'i', 'q', 'l'], some items⟩

theorem ofAttribute_line (items : List Item) : ofAttribute (line items) = ofItems items := rfl

/-- Attributes come to what the items of those that count do, one after the other. -/
theorem ofAttributes_eq_ofItems {attributes : List Attribute} {lists : List (List Item)}
    (h : attributes.filter (·.path = ['f', 'i', 'q', 'l']) = lists.map line) :
    ofAttributes attributes = ofItems lists.flatten := by
  induction attributes generalizing lists with
  | nil =>
    obtain rfl : [] = lists := by simpa using h
    rfl
  | cons a attributes ih =>
    rw [List.filter_cons] at h
    split at h
    next =>
      cases lists with
      | nil => cases h
      | cons items lists =>
        obtain ⟨rfl, hothers⟩ := List.cons.inj h
        rw [List.flatten_cons, ofItems_append, ofAttributes, ofAttribute_line,
          ih hothers]
        cases ofItems items <;> cases ofItems lists.flatten <;> rfl
    next hpath =>
      -- An attribute of someone else asks for nothing, so what follows it is all there is.
      have hnone : ofAttribute a = .ok none := if_neg (by simpa using hpath)
      rw [ofAttributes, hnone, ih h]
      cases ofItems lists.flatten with
      | error e => rfl
      | ok o => exact congrArg Except.ok (none_merge o)

/-- **It does not matter on how many lines the items of a field stand.** Attributes of which those
that count have the given lists of items, in order and with any others between them, come to the same
as one attribute with all these items. The field is skipped if some item says so and renamed as the
last name says; and reading the attributes fails exactly if some item is neither of these, with the
error of the first that is not. -/
theorem ofAttributes_lines {attributes : List Attribute} {lists : List (List Item)}
    (h : attributes.filter (·.path = ['f', 'i', 'q', 'l']) = lists.map line) :
    ofAttributes attributes = ofAttributes [line lists.flatten] ∧
    (∀ o, ofAttributes attributes = .ok o → (o.skip = true ↔ Item.skip ∈ lists.flatten) ∧
      o.rename? = (lists.flatten.filterMap Item.name?).getLast?) ∧
    ((∃ e, ofAttributes attributes = .error e) ↔ ∃ item ∈ lists.flatten, ¬item.IsKnown) ∧
    ∀ e, ofAttributes attributes = .error e ↔
      ∃ before item after, lists.flatten = before ++ item :: after ∧
        (∀ known ∈ before, known.IsKnown) ∧ item.IsRefused e := by
  have hline : [line lists.flatten].filter (·.path = ['f', 'i', 'q', 'l']) =
      [lists.flatten].map line := rfl
  rw [ofAttributes_eq_ofItems h, ofAttributes_eq_ofItems hline]
  refine ⟨by simp, ?_, ?_, fun e => ofItems_eq_error_iff⟩
  · intro o ho
    obtain ⟨-, rfl⟩ := ofItems_eq_ok_iff.1 ho
    exact ⟨decide_eq_true_iff, rfl⟩
  · constructor
    · rintro ⟨e, he⟩
      obtain ⟨before, item, after, hitems, -, hitem⟩ := ofItems_eq_error_iff.1 he
      refine ⟨item, ?_, not_isKnown_iff.2 ⟨e, hitem⟩⟩
      rw [hitems]
      exact List.mem_append_right before List.mem_cons_self
    · rintro ⟨item, hmem, hitem⟩
      cases hok : ofItems lists.flatten with
      | ok o => exact absurd ((ofItems_eq_ok_iff.1 hok).1 item hmem) hitem
      | error e => exact ⟨e, rfl⟩

/-- A name on one line and the word that skips on another, with an attribute for someone else
between them, and a third line that gives the name anew; and a line on which the first item is
refused. -/
theorem ofAttributes_lines_three :
    let renamed := fun s => Item.assignment ['r', 'e', 'n', 'a', 'm', 'e'] (.string s)
    let other : Attribute := ⟨['d', 'o', 'c'], .none⟩
    ofAttributes [line [renamed ['A']], other, line [Item.skip], line [renamed ['B']]] =
        ofAttributes [line [renamed ['A'], Item.skip, renamed ['B']]] ∧
      ofAttributes [line [renamed ['A'], Item.skip, renamed ['B']]] = .ok ⟨true, some ['B']⟩ ∧
      ofAttributes [line [Item.skip], other, line [renamed [], .list ['a']]] =
        .error .emptyName := by
  intro renamed other
  have hlines : [line [renamed ['A']], other, line [Item.skip], line [renamed ['B']]].filter
      (·.path = ['f', 'i', 'q', 'l']) =
        [[renamed ['A']], [Item.skip], [renamed ['B']]].map line := rfl
  have hrefused : [line [Item.skip], other, line [renamed [], .list ['a']]].filter
      (·.path = ['f', 'i', 'q', 'l']) = [[Item.skip], [renamed [], .list ['a']]].map line := rfl
  refine ⟨(ofAttributes_lines hlines).1, rfl, ((ofAttributes_lines hrefused).2.2.2 _).2 ?_⟩
  exact ⟨[Item.skip], renamed [], [.list ['a']], rfl, by simp [Item.IsKnown], .emptyName⟩

end FieldOptions

end RecordFilter.Schema
