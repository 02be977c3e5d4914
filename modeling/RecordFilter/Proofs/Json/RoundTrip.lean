import Mathlib.Data.Char
import Mathlib.Data.List.Lex
import RecordFilter.Proofs.Json.Reading

/-! # Documents that are read back

A document is read back from its text just if it is faithful: the members of its objects are in the
order of their names, into which reading puts them, and each of its numbers is read back from its
own text (`parse?_render_eq_some_iff`). Signed integers of 64 bits always are (`parse?_signed`); the
numeral of a binary64 number is rounded twice, so that number need not be. -/

namespace RecordFilter.Json

/-! ## Sorted members -/

namespace Members

/-- Members are in the order of their names, which are all different. -/
def IsSorted (members : Members) : Prop := members.Pairwise fun m n => m.1 < n.1

instance (members : Members) : Decidable (IsSorted members) :=
  inferInstanceAs (Decidable (List.Pairwise _ members))

variable {members : Members} {name : Text} {value : Json}

theorem mem_of_mem_insert {m : Text × Json} (h : m ∈ insert name value members) :
    m = (name, value) ∨ m ∈ members := by
  induction members with
  | nil => exact .inl (List.mem_singleton.1 h)
  | cons other members ih =>
    rw [insert] at h
    split at h
    · exact List.mem_cons.1 h
    · split at h
      · exact (List.mem_cons.1 h).imp_right (List.mem_cons_of_mem other)
      · rcases List.mem_cons.1 h with rfl | h
        · exact .inr List.mem_cons_self
        · exact (ih h).imp_right (List.mem_cons_of_mem other)

/-- A member that is put into sorted members leaves them sorted. -/
theorem isSorted_insert (h : IsSorted members) : IsSorted (insert name value members) := by
  induction members with
  | nil => exact List.pairwise_singleton _ _
  | cons other members ih =>
    obtain ⟨hother, hmembers⟩ := List.pairwise_cons.1 h
    rw [insert]
    by_cases hlt : name < other.1
    · rw [if_pos hlt]
      refine List.pairwise_cons.2 ⟨List.forall_mem_cons.2 ⟨hlt, fun m hm => ?_⟩, h⟩
      exact lt_trans hlt (hother m hm)
    · rw [if_neg hlt]
      by_cases heq : name = other.1
      · rw [if_pos heq]
        exact List.pairwise_cons.2 ⟨fun m hm => heq ▸ hother m hm, hmembers⟩
      · rw [if_neg heq]
        have hgt : other.1 < name := lt_of_le_of_ne (not_lt.1 hlt) (Ne.symm heq)
        refine List.pairwise_cons.2 ⟨fun m hm => ?_, ih hmembers⟩
        rcases mem_of_mem_insert hm with rfl | hm
        · exact hgt
        · exact hother m hm

/-- Members that were given in any order are sorted. -/
theorem isSorted_ofList (members : Members) : IsSorted (ofList members) := by
  have hfold : ∀ rest sorted : Members, IsSorted sorted →
      IsSorted (rest.foldl (fun sorted m => insert m.1 m.2 sorted) sorted) := by
    intro rest
    induction rest with
    | nil => exact fun _ h => h
    | cons m rest ih => exact fun _ h => ih _ (isSorted_insert h)
  exact hfold members [] List.Pairwise.nil

/-- A member with the last name goes to the end. -/
theorem insert_of_lt (h : ∀ m ∈ members, m.1 < name) :
    insert name value members = members ++ [(name, value)] := by
  induction members with
  | nil => rfl
  | cons other members ih =>
    obtain ⟨hother, hmembers⟩ := List.forall_mem_cons.1 h
    rw [insert, if_neg (lt_asymm hother), if_neg (ne_of_gt hother), ih hmembers, List.cons_append]

/-- Sorted members are left as they are. -/
theorem ofList_eq_self (h : IsSorted members) : ofList members = members := by
  -- What has been put in by then is a beginning of the members.
  have hfold : ∀ rest before : Members, IsSorted (before ++ rest) →
      rest.foldl (fun sorted m => insert m.1 m.2 sorted) before = before ++ rest := by
    intro rest
    induction rest with
    | nil => simp
    | cons m rest ih =>
      intro before hsorted
      have hlast : ∀ other ∈ before, other.1 < m.1 := fun other hother =>
        (List.pairwise_append.1 hsorted).2.2 other hother m List.mem_cons_self
      have happend : before ++ [m] ++ rest = before ++ m :: rest := (List.append_cons ..).symm
      rw [List.foldl_cons, insert_of_lt hlast, ← happend]
      exact ih _ (happend ▸ hsorted)
  exact hfold members [] h

/-- Only the names tell whether members are sorted. -/
theorem isSorted_congr {others : Members} (h : members.map Prod.fst = others.map Prod.fst) :
    IsSorted members ↔ IsSorted others := by
  have hnames : ∀ members : Members,
      IsSorted members ↔ (members.map Prod.fst).Pairwise (· < ·) :=
    fun _ => List.pairwise_map.symm
  rw [hnames, hnames, h]

end Members

/-! ## Faithful documents -/

mutual

/-- Every number in a document is read back from its text, and the members of every object are
sorted. -/
def IsFaithful : Json → Prop
  | .null | .bool _ | .string _ => True
  | .number n => parse? (numberText n) = some (.number n)
  | .array items => AreFaithful items
  | .object members => Members.IsSorted members ∧ HaveFaithfulValues members

/-- All elements are faithful. -/
def AreFaithful : List Json → Prop
  | [] => True
  | item :: items => item.IsFaithful ∧ AreFaithful items

/-- The values of all members are faithful. -/
def HaveFaithfulValues : Members → Prop
  | [] => True
  | (_, value) :: members => value.IsFaithful ∧ HaveFaithfulValues members

end

theorem areFaithful_iff {items : List Json} :
    AreFaithful items ↔ ∀ item ∈ items, item.IsFaithful := by
  induction items with
  | nil => simp [AreFaithful]
  | cons item items ih => rw [AreFaithful, ih, List.forall_mem_cons]

/-- Members are read back under the names that they have. -/
theorem map_fst_of_rereadMembers? {members reread : Members}
    (h : rereadMembers? members = some reread) : reread.map Prod.fst = members.map Prod.fst := by
  induction members generalizing reread with
  | nil =>
    obtain rfl : [] = reread := Option.some.inj h
    rfl
  | cons m members ih =>
    obtain ⟨value, -, h⟩ := Option.bind_eq_some_iff.1 h
    obtain ⟨others, hothers, rfl⟩ := Option.map_eq_some_iff.1 h
    rw [List.map_cons, List.map_cons, ih hothers]

mutual

/-- A document is what its parts are read as, just if it is faithful. -/
theorem reread?_eq_some_iff (v : Json) : v.reread? = some v ↔ v.IsFaithful := by
  match v with
  | .null | .bool _ | .string _ => simp [reread?, IsFaithful]
  | .number n => rw [reread?, IsFaithful]
  | .array items =>
    rw [IsFaithful, ← rereadItems?_eq_some_iff items, reread?]
    simp
  | .object members =>
    rw [IsFaithful, ← rereadMembers?_eq_some_iff members, reread?, Option.map_eq_some_iff]
    constructor
    · rintro ⟨reread, hreread, heq⟩
      obtain rfl : Members.ofList reread = members := Json.object.inj heq
      -- What is read back has the names of what was sorted, so it was sorted before.
      have hsorted : Members.IsSorted reread :=
        (Members.isSorted_congr (map_fst_of_rereadMembers? hreread)).2
          (Members.isSorted_ofList reread)
      rw [Members.ofList_eq_self hsorted] at hreread ⊢
      exact ⟨hsorted, hreread⟩
    · rintro ⟨hsorted, hreread⟩
      exact ⟨members, hreread, by rw [Members.ofList_eq_self hsorted]⟩

theorem rereadItems?_eq_some_iff (items : List Json) :
    rereadItems? items = some items ↔ AreFaithful items := by
  match items with
  | [] => simp [rereadItems?, AreFaithful]
  | item :: items =>
    rw [AreFaithful, ← reread?_eq_some_iff item, ← rereadItems?_eq_some_iff items, rereadItems?]
    constructor
    · intro h
      obtain ⟨first, hfirst, h⟩ := Option.bind_eq_some_iff.1 h
      obtain ⟨others, hothers, h⟩ := Option.map_eq_some_iff.1 h
      obtain ⟨rfl, rfl⟩ := List.cons.inj h
      exact ⟨hfirst, hothers⟩
    · rintro ⟨hitem, hitems⟩
      rw [hitem, hitems]
      rfl

theorem rereadMembers?_eq_some_iff (members : Members) :
    rereadMembers? members = some members ↔ HaveFaithfulValues members := by
  match members with
  | [] => simp [rereadMembers?, HaveFaithfulValues]
  | (name, value) :: members =>
    rw [HaveFaithfulValues, ← reread?_eq_some_iff value, ← rereadMembers?_eq_some_iff members,
      rereadMembers?]
    constructor
    · intro h
      obtain ⟨first, hfirst, h⟩ := Option.bind_eq_some_iff.1 h
      obtain ⟨others, hothers, h⟩ := Option.map_eq_some_iff.1 h
      obtain ⟨hpair, rfl⟩ := List.cons.inj h
      obtain rfl : first = value := congrArg Prod.snd hpair
      exact ⟨hfirst, hothers⟩
    · rintro ⟨hvalue, hmembers⟩
      rw [hvalue, hmembers]
      rfl

end

/-- **A document is read back from its text just if it is faithful**, as long as it is not nested
too deep. -/
theorem parse?_render_eq_some_iff {v : Json} (h : v.depth ≤ maxDepth) :
    parse? v.render = some v ↔ v.IsFaithful := by
  rw [parse?_render h]
  exact reread?_eq_some_iff v

end RecordFilter.Json
