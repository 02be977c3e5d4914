import RecordFilter.Query
import RecordFilter.Proofs.Result

/-! # Queries on collections

A query is evaluated on the items of a collection in order, to collect those that match (`filter`),
to count them (`count`) or to look for the first (`find?`). Items that do not fail leave behind
those of them that match, whatever comes after them (`filter_append`, `find?_append`). So the three
agree where no item fails, and where one does they differ only in that the search may have ended
before it (`filter_count_find?`). -/

namespace RecordFilter.Query

variable {α : Type} [ToRecord α] {s : Settings} {query : Text}

/-- A query can be evaluated on an item. -/
def Succeeds (s : Settings) (query : Text) (item : α) : Prop :=
  ∃ hit, evaluateOn s query item = .ok hit

/-- Whether a query matches an item. A failure is no match. -/
def hits (s : Settings) (query : Text) (item : α) : Bool :=
  (evaluateOn s query item).toOption == some true

/-- Where a query can be evaluated, it comes to whether it matches. -/
theorem Succeeds.evaluateOn_eq {item : α} (h : Succeeds s query item) :
    evaluateOn s query item = .ok (hits s query item) := by
  obtain ⟨hit, hhit⟩ := h
  rw [hits, hhit]
  cases hit <;> rfl

/-! ## Items that do not fail -/

/-- An item that does not fail is collected if it matches, and the collection goes on. -/
theorem filter_cons {item : α} (h : Succeeds s query item) (items : List α) :
    filter s query (item :: items) =
      (filter s query items).map fun rest =>
        if hits s query item then item :: rest else rest := by
  rw [filter, h.evaluateOn_eq, ok_bind]
  exact bind_ok_eq_map

/-- An item that does not fail ends the search if it matches. -/
theorem find?_cons {item : α} (h : Succeeds s query item) (items : List α) :
    find? s query (item :: items) =
      if hits s query item then .ok (some item) else find? s query items := by
  rw [find?, h.evaluateOn_eq]
  rfl

/-- **Items that do not fail leave behind those that match** in a collection. -/
theorem filter_append {before : List α} (h : ∀ item ∈ before, Succeeds s query item)
    (after : List α) :
    filter s query (before ++ after) =
      (filter s query after).map (before.filter (hits s query) ++ ·) := by
  induction before with
  | nil =>
    show filter s query after = (filter s query after).map fun rest => rest
    cases filter s query after <;> rfl
  | cons item before ih =>
    rw [List.forall_mem_cons] at h
    rw [List.cons_append, filter_cons h.1, ih h.2, List.filter_cons]
    cases filter s query after with
    | error e => rfl
    | ok rest => cases hits s query item <;> rfl

/-- **Items that do not fail end a search at the first that matches**, and are passed over if there
is none. -/
theorem find?_append {before : List α} (h : ∀ item ∈ before, Succeeds s query item)
    (after : List α) :
    find? s query (before ++ after) =
      match (before.filter (hits s query)).head? with
      | some item => .ok (some item)
      | none => find? s query after := by
  induction before with
  | nil => rfl
  | cons item before ih =>
    rw [List.forall_mem_cons] at h
    rw [List.cons_append, find?_cons h.1, ih h.2, List.filter_cons]
    cases hits s query item <;> rfl

/-- Where no item fails, exactly the items that match are collected. -/
theorem filter_eq_ok {items : List α} (h : ∀ item ∈ items, Succeeds s query item) :
    filter s query items = .ok (items.filter (hits s query)) := by
  have happend := filter_append h []
  rwa [List.append_nil, filter, pure_eq_ok, map_ok, List.append_nil] at happend

/-- Where no item fails, the search comes to the first that matches, if there is one. -/
theorem find?_eq_ok {items : List α} (h : ∀ item ∈ items, Succeeds s query item) :
    find? s query items = .ok (items.filter (hits s query)).head? := by
  have happend := find?_append h []
  rw [List.append_nil] at happend
  rw [happend, find?]
  cases (items.filter (hits s query)).head? <;> rfl

/-! ## The first failure -/

/-- A collection that gets to an item that fails, fails like it. -/
theorem filter_eq_error {before : List α} {item : α} {e : QueryError}
    (hbefore : ∀ item ∈ before, Succeeds s query item)
    (hitem : evaluateOn s query item = .error e) (after : List α) :
    filter s query (before ++ item :: after) = .error e := by
  rw [filter_append hbefore, filter, hitem]
  rfl

/-- A search that gets to an item that fails, fails like it. -/
theorem find?_eq_match {before : List α} {item : α} {e : QueryError}
    (hbefore : ∀ item ∈ before, Succeeds s query item)
    (hitem : evaluateOn s query item = .error e) (after : List α) :
    find? s query (before ++ item :: after) =
      match (before.filter (hits s query)).head? with
      | some item => .ok (some item)
      | none => .error e := by
  rw [find?_append hbefore, find?, hitem]
  rfl

/-- If all items can be collected, none of them fails. -/
theorem succeeds_of_filter_eq_ok {items found : List α} (h : filter s query items = .ok found) :
    ∀ item ∈ items, Succeeds s query item := by
  induction items generalizing found with
  | nil => exact fun item hitem => absurd hitem List.not_mem_nil
  | cons item items ih =>
    rw [filter] at h
    obtain ⟨hit, hhit, h⟩ := bind_eq_ok_iff.1 h
    obtain ⟨rest, hrest, -⟩ := bind_eq_ok_iff.1 h
    exact List.forall_mem_cons.2 ⟨⟨hit, hhit⟩, ih hrest⟩

/-- A search may end with a match before the item that a collection fails on. -/
theorem exists_find?_eq_ok_of_filter_eq_error (s : Settings) :
    ∃ (query : Text) (items : List Record) (item : Record) (e : QueryError),
      filter s query items = .error e ∧ find? s query items = .ok (some item) := by
  let text : Record := ⟨[(['n'], .text ['x'])]⟩
  let instant : Record := ⟨[(['n'], .instant ⟨0⟩)]⟩
  have htext : evaluateOn s ['n', '=', '=', 'x'] text = .ok true := by
    obtain ⟨offset, unescape⟩ := s
    cases unescape <;> with_unfolding_all rfl
  have hinstant : evaluateOn s ['n', '=', '=', 'x'] instant = .error (.missingDateFormat ['x']) := by
    obtain ⟨offset, unescape⟩ := s
    cases unescape <;> with_unfolding_all rfl
  refine ⟨['n', '=', '=', 'x'], [text, instant], text, .missingDateFormat ['x'], ?_, ?_⟩
  · exact filter_eq_error (List.forall_mem_singleton.2 ⟨true, htext⟩) hinstant []
  · rw [find?, htext]
    rfl

/-- **Collecting, counting and searching agree with each other and with the evaluation on single
items.** Where the query fails on no item, exactly the items that match are collected, in order, the
count is their number, and the search comes to the first of them or to none. Otherwise let `i` be
the least index of an item that fails: collecting and counting fail with its error, and the search
comes to the first match before it, or fails with that error if there is none. So wherever items can
be collected, the search comes to the first of those; and it may succeed where they cannot. -/
theorem filter_count_find? (s : Settings) (query : Text) (items : List α) :
    ((∀ item ∈ items, Succeeds s query item) →
      let found := items.filter (hits s query)
      filter s query items = .ok found ∧ count s query items = .ok found.length ∧
        find? s query items = .ok found.head?) ∧
    (∀ (i : Nat) (hi : i < items.length) (e : QueryError),
      (∀ item ∈ items.take i, Succeeds s query item) → evaluateOn s query items[i] = .error e →
      filter s query items = .error e ∧ count s query items = .error e ∧
        find? s query items =
          match ((items.take i).filter (hits s query)).head? with
          | some item => .ok (some item)
          | none => .error e) ∧
    (∀ found, filter s query items = .ok found → find? s query items = .ok found.head?) ∧
    ∃ (other : Text) (records : List Record) (r : Record) (e : QueryError),
      filter s other records = .error e ∧ find? s other records = .ok (some r) := by
  refine ⟨fun h => ?_, fun i hi e hbefore hitem => ?_, fun found hfound => ?_,
    exists_find?_eq_ok_of_filter_eq_error s⟩
  · intro found
    refine ⟨filter_eq_ok h, ?_, find?_eq_ok h⟩
    rw [count, filter_eq_ok h]
    rfl
  · -- The first failure cuts the items in two.
    have hsplit : items.take i ++ items[i] :: items.drop (i + 1) = items := by
      rw [← List.drop_eq_getElem_cons hi, List.take_append_drop]
    have hfilter := filter_eq_error hbefore hitem (items.drop (i + 1))
    have hfind := find?_eq_match hbefore hitem (items.drop (i + 1))
    rw [hsplit] at hfilter hfind
    refine ⟨hfilter, ?_, hfind⟩
    rw [count, hfilter]
    rfl
  · have h := succeeds_of_filter_eq_ok hfound
    rw [filter_eq_ok h] at hfound
    cases hfound
    exact find?_eq_ok h

/-- Of a match, a miss, a failure and another match, nothing can be collected, and the search comes
to the first. -/
theorem filter_count_find?_failure :
    let row : List Record := [⟨[(['n'], .text ['x'])]⟩, ⟨[]⟩, ⟨[(['n'], .instant ⟨0⟩)]⟩,
      ⟨[(['n'], .text ['x'])]⟩]
    filter {} ['n', '=', '=', 'x'] row = .error (.missingDateFormat ['x']) ∧
      count {} ['n', '=', '=', 'x'] row = .error (.missingDateFormat ['x']) ∧
      find? {} ['n', '=', '=', 'x'] row = .ok (some ⟨[(['n'], .text ['x'])]⟩) ∧
      find? {} ['n', '=', '=', 'x'] row.tail = .error (.missingDateFormat ['x']) := by
  intro row
  have hfirst : Succeeds {} ['n', '=', '=', 'x'] row[0] := ⟨true, by with_unfolding_all rfl⟩
  have hsecond : Succeeds {} ['n', '=', '=', 'x'] row[1] := ⟨false, by with_unfolding_all rfl⟩
  have hthird : evaluateOn {} ['n', '=', '=', 'x'] row[2] = .error (.missingDateFormat ['x']) := by
    with_unfolding_all rfl
  have hhits : (row.take 2).filter (hits {} ['n', '=', '=', 'x']) = [row[0]] := by with_unfolding_all rfl
  have htail : (row.tail.take 1).filter (hits {} ['n', '=', '=', 'x']) = [] := by with_unfolding_all rfl
  obtain ⟨hfilter, hcount, hfind⟩ := (filter_count_find? {} ['n', '=', '=', 'x'] row).2.1 2
    (by decide) _ (List.forall_mem_cons.2 ⟨hfirst, List.forall_mem_singleton.2 hsecond⟩) hthird
  obtain ⟨-, -, hfindTail⟩ := (filter_count_find? {} ['n', '=', '=', 'x'] row.tail).2.1 1
    (by decide) _ (List.forall_mem_singleton.2 hsecond) hthird
  rw [hhits] at hfind
  rw [htail] at hfindTail
  exact ⟨hfilter, hcount, hfind, hfindTail⟩

end RecordFilter.Query
