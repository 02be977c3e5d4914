import RecordFilter.Value

/-! # Leaves

The leaves of a value are what is left of it when all sequences are opened, from left to right. A
sequence and its leaves in one row have the same leaves (`leavesOf_leavesOf`). -/

namespace RecordFilter.Value

mutual

/-- The values that are no sequences within a value, itself included. -/
def leaves : Value → List Value
  | sequence items => leavesOf items
  | null => [null]
  | text s => [text s]
  | bool b => [bool b]
  | number n => [number n]
  | instant t => [instant t]

/-- The leaves of a row of values. -/
def leavesOf : List Value → List Value
  | [] => []
  | item :: items => leaves item ++ leavesOf items

end

/-- A value that is no sequence is its only leaf. -/
theorem leaves_of_kind_ne {v : Value} (h : v.kind ≠ .sequence) : v.leaves = [v] := by
  cases v with
  | sequence items => exact absurd rfl h
  | _ => rw [leaves]

mutual

/-- No leaf is a sequence. -/
theorem kind_ne_of_mem_leaves {leaf : Value} :
    ∀ {v : Value}, leaf ∈ v.leaves → leaf.kind ≠ .sequence
  | .sequence items, h => by
    rw [leaves] at h
    exact kind_ne_of_mem_leavesOf h
  | .null, h | .text _, h | .bool _, h | .number _, h | .instant _, h => by
    rw [leaves, List.mem_singleton] at h
    rw [h]
    nofun

/-- No leaf of a row is a sequence. -/
theorem kind_ne_of_mem_leavesOf {leaf : Value} :
    ∀ {items : List Value}, leaf ∈ leavesOf items → leaf.kind ≠ .sequence
  | [], h => by simp [leavesOf] at h
  | item :: items, h => by
    rw [leavesOf, List.mem_append] at h
    rcases h with h | h
    · exact kind_ne_of_mem_leaves h
    · exact kind_ne_of_mem_leavesOf h

end

/-- A row without sequences has itself for leaves. -/
theorem leavesOf_eq_self {items : List Value} (h : ∀ item ∈ items, item.kind ≠ .sequence) :
    leavesOf items = items := by
  induction items with
  | nil => rw [leavesOf]
  | cons item items ih =>
    have hitem : item.leaves = [item] := leaves_of_kind_ne (h item List.mem_cons_self)
    have hitems : leavesOf items = items := ih fun x hx => h x (List.mem_cons_of_mem item hx)
    rw [leavesOf, hitem, hitems, List.singleton_append]

/-- **Leaves have no leaves but themselves.** -/
@[simp] theorem leavesOf_leavesOf (items : List Value) :
    leavesOf (leavesOf items) = leavesOf items :=
  leavesOf_eq_self fun _ => kind_ne_of_mem_leavesOf

end RecordFilter.Value
