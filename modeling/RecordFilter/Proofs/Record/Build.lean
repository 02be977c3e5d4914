import RecordFilter.Proofs.Json.RoundTrip
import RecordFilter.Proofs.Number.Rational
import RecordFilter.RecordBuilder

/-! # Records that are built from objects

A designated member of an object is read as points in time. Which documents can be so read is a
matter of their leaves, what is left of them when all arrays are opened
(`exists_toInstant_eq_ok_iff`), and what they come to has the shape of their arrays (`Denotes`,
`toInstant_eq_ok_iff`). A record is built member by member, up to the first that cannot be read
(`build_fields`). -/

namespace RecordFilter

/-! ## Points in time -/

namespace Timestamp

/-- **A number is a point in time if what is left of its value once its fraction is cut off fits
into 64 bits.** -/
theorem ofNumber?_eq_some_iff {n : Number} {t : Timestamp} :
    ofNumber? n = some t ↔
      ∃ q, n.toRat? = some q ∧ fitsSigned (towardZero q) = true ∧ t = ⟨towardZero q⟩ := by
  have hfitting : ∀ millis : Int,
      ofNumber?.fitting millis = some t ↔ fitsSigned millis = true ∧ t = ⟨millis⟩ := by
    intro millis
    rw [ofNumber?.fitting]
    split
    next h => simp [h, eq_comm]
    next h => simp [h]
  cases n with
  | signed n =>
    simp only [ofNumber?, Number.toRat?, Option.some.injEq, exists_eq_left', towardZero_intCast,
      fitsSigned_toInt, true_and]
    exact eq_comm
  | unsigned n =>
    have hcut : towardZero (n.toNat : ℚ) = n.toNat := towardZero_intCast n.toNat
    simp only [ofNumber?, Number.toRat?, Option.some.injEq, exists_eq_left', hcut, hfitting]
  | float x =>
    simp only [ofNumber?, Number.toRat?, Binary64.truncate?_eq_map, Option.bind_map,
      Option.bind_eq_some_iff, Function.comp_apply, hfitting]

/-- A text is a point in time if it is a timestamp, or else if it is a date literal. -/
theorem ofText_eq_ok_iff {offset : Int} {s : Text} {t : Timestamp} :
    ofText offset s = .ok t ↔
      Rfc3339.read s = .ok t ∨
        (∀ t, Rfc3339.read s ≠ .ok t) ∧ DateLiteral.read offset s = .ok t := by
  rw [ofText]
  cases Rfc3339.read s with
  | ok instant => simp
  | error e => simp

end Timestamp

/-! ## Documents -/

namespace Json

mutual

/-- The documents other than arrays within a document, itself included. -/
def leaves : Json → List Json
  | array items => leavesOf items
  | null => [null]
  | bool b => [bool b]
  | number n => [number n]
  | string s => [string s]
  | object members => [object members]

/-- The documents other than arrays within the elements of an array. -/
def leavesOf : List Json → List Json
  | [] => []
  | item :: items => leaves item ++ leavesOf items

end

/-- A document other than an array can be read as a point in time: it is null, which stands for a
missing one, a number whose value fits into 64 bits once its fraction is cut off, or a text that is
a timestamp or a date literal. -/
def IsInstant (offset : Int) : Json → Prop
  | null => True
  | number n => ∃ q, n.toRat? = some q ∧ fitsSigned (towardZero q) = true
  | string s => (∃ t, Rfc3339.read s = .ok t) ∨ ∃ t, DateLiteral.read offset s = .ok t
  | bool _ | array _ | object _ => False

mutual

/-- The points in time that a document stands for: null for null, an instant for a number or a text,
and a sequence for an array. -/
inductive Denotes (offset : Int) : Json → Value → Prop
  | null : Denotes offset .null .null
  | number {n : Number} {q : ℚ} (hvalue : n.toRat? = some q)
    (hfits : fitsSigned (towardZero q) = true) :
    Denotes offset (.number n) (.instant ⟨towardZero q⟩)
  | timestamp {s : Text} {t : Timestamp} (hread : Rfc3339.read s = .ok t) :
    Denotes offset (.string s) (.instant t)
  | literal {s : Text} {t : Timestamp} (hno : ∀ t, Rfc3339.read s ≠ .ok t)
    (hread : DateLiteral.read offset s = .ok t) :
    Denotes offset (.string s) (.instant t)
  | array {items : List Json} {values : List Value} (h : DenoteEach offset items values) :
    Denotes offset (.array items) (.sequence values)

/-- The points in time that the elements of an array stand for, one after the other. -/
inductive DenoteEach (offset : Int) : List Json → List Value → Prop
  | nil : DenoteEach offset [] []
  | cons {item : Json} {value : Value} {items : List Json} {values : List Value}
    (hitem : Denotes offset item value) (hitems : DenoteEach offset items values) :
    DenoteEach offset (item :: items) (value :: values)

end

variable {offset : Int}

mutual

/-- **A document is read as the points in time that it stands for**, and not at all if it stands for
none. -/
theorem toInstant_eq_ok_iff :
    ∀ {json : Json} {value : Value}, json.toInstant offset = .ok value ↔ Denotes offset json value
  | .null, value => by
    rw [toInstant]
    constructor
    · rintro ⟨⟩
      exact .null
    · rintro ⟨⟩
      rfl
  | .bool b, value => by
    rw [toInstant]
    constructor <;> rintro ⟨⟩
  | .object members, value => by
    rw [toInstant]
    constructor <;> rintro ⟨⟩
  | .number n, value => by
    rw [toInstant]
    constructor
    · intro h
      split at h
      next instant hinstant =>
        cases h
        obtain ⟨q, hvalue, hfits, rfl⟩ := Timestamp.ofNumber?_eq_some_iff.1 hinstant
        exact .number hvalue hfits
      next => cases h
    · rintro ⟨⟩
      next q hfits hvalue =>
        rw [Timestamp.ofNumber?_eq_some_iff.2 ⟨q, hvalue, hfits, rfl⟩]
  | .string s, value => by
    rw [toInstant, mapError_eq_ok_iff, map_eq_ok_iff]
    constructor
    · rintro ⟨t, ht, rfl⟩
      rcases Timestamp.ofText_eq_ok_iff.1 ht with hread | ⟨hno, hread⟩
      · exact .timestamp hread
      · exact .literal hno hread
    · rintro (⟨⟩ | ⟨⟩ | hread | ⟨hno, hread⟩)
      · exact ⟨_, Timestamp.ofText_eq_ok_iff.2 (.inl hread), rfl⟩
      · exact ⟨_, Timestamp.ofText_eq_ok_iff.2 (.inr ⟨hno, hread⟩), rfl⟩
  | .array items, value => by
    rw [toInstant, map_eq_ok_iff]
    constructor
    · rintro ⟨values, hvalues, rfl⟩
      exact .array (toInstants_eq_ok_iff.1 hvalues)
    · rintro ⟨⟩
      next values h => exact ⟨values, toInstants_eq_ok_iff.2 h, rfl⟩

/-- The elements of an array are read as the points in time that they stand for. -/
theorem toInstants_eq_ok_iff :
    ∀ {items : List Json} {values : List Value},
      toInstants offset items = .ok values ↔ DenoteEach offset items values
  | [], values => by
    rw [toInstants]
    constructor
    · rintro ⟨⟩
      exact .nil
    · rintro ⟨⟩
      rfl
  | item :: items, values => by
    rw [toInstants]
    constructor
    · intro h
      obtain ⟨value, hvalue, h⟩ := bind_eq_ok_iff.1 h
      obtain ⟨rest, hrest, h⟩ := bind_eq_ok_iff.1 h
      cases h
      exact .cons (toInstant_eq_ok_iff.1 hvalue) (toInstants_eq_ok_iff.1 hrest)
    · rintro ⟨⟩
      next value values hitem hitems =>
        rw [toInstant_eq_ok_iff.2 hitem, ok_bind, toInstants_eq_ok_iff.2 hitems]
        rfl

end

/-- A document other than an array stands for something if it can be read as a point in time. -/
theorem exists_denotes_iff_isInstant {json : Json} (h : ∀ items, json ≠ .array items) :
    (∃ value, Denotes offset json value) ↔ IsInstant offset json := by
  constructor
  · rintro ⟨value, hdenotes⟩
    cases hdenotes with
    | null => trivial
    | number hvalue hfits => exact ⟨_, hvalue, hfits⟩
    | timestamp hread => exact .inl ⟨_, hread⟩
    | literal _ hread => exact .inr ⟨_, hread⟩
    | array => exact absurd rfl (h _)
  · intro hinstant
    cases json with
    | null => exact ⟨_, .null⟩
    | bool b => exact hinstant.elim
    | object members => exact hinstant.elim
    | array items => exact hinstant.elim
    | number n =>
      obtain ⟨q, hvalue, hfits⟩ := hinstant
      exact ⟨_, .number hvalue hfits⟩
    | string s =>
      -- A text that is a timestamp is not tried as a date literal.
      by_cases htimestamp : ∃ t, Rfc3339.read s = .ok t
      · obtain ⟨t, hread⟩ := htimestamp
        exact ⟨_, .timestamp hread⟩
      · obtain ⟨t, hread⟩ := hinstant.resolve_left htimestamp
        exact ⟨_, .literal (not_exists.1 htimestamp) hread⟩

mutual

/-- **A document stands for points in time if all its leaves do.** -/
theorem exists_denotes_iff :
    ∀ {json : Json}, (∃ value, Denotes offset json value) ↔
      ∀ leaf ∈ json.leaves, IsInstant offset leaf
  | .null | .bool _ | .number _ | .string _ | .object _ => by
    rw [leaves, List.forall_mem_singleton]
    exact exists_denotes_iff_isInstant (by simp)
  | .array items => by
    rw [leaves, ← exists_denoteEach_iff]
    constructor
    · rintro ⟨_, ⟨⟩⟩
      next values h => exact ⟨values, h⟩
    · rintro ⟨values, h⟩
      exact ⟨_, .array h⟩

/-- The elements of an array stand for points in time if all their leaves do. -/
theorem exists_denoteEach_iff :
    ∀ {items : List Json}, (∃ values, DenoteEach offset items values) ↔
      ∀ leaf ∈ leavesOf items, IsInstant offset leaf
  | [] => by
    rw [leavesOf]
    exact ⟨fun _ _ h => absurd h List.not_mem_nil, fun _ => ⟨_, .nil⟩⟩
  | item :: items => by
    rw [leavesOf, List.forall_mem_append, ← exists_denotes_iff, ← exists_denoteEach_iff]
    constructor
    · rintro ⟨_, ⟨⟩⟩
      next value values hitem hitems => exact ⟨⟨value, hitem⟩, values, hitems⟩
    · rintro ⟨⟨value, hitem⟩, values, hitems⟩
      exact ⟨_, .cons hitem hitems⟩

end

end Json

/-! ## Members -/

namespace RecordBuilder

variable {b : RecordBuilder} {name : Text} {json : Json} {members : Json.Members}

/-- A member can be made into a field: if it is a designated one, all leaves of its document can be
read as points in time. -/
def Accepts (b : RecordBuilder) (name : Text) (json : Json) : Prop :=
  name ∈ b.instants → ∀ leaf ∈ json.leaves, leaf.IsInstant b.offset

/-- What the field of a member holds: the points in time that the document stands for if it is a
designated one, and otherwise the value of the document. -/
def Holds (b : RecordBuilder) (name : Text) (json : Json) (value : Value) : Prop :=
  if name ∈ b.instants then json.Denotes b.offset value else value = json.toValue

/-- **A member is built into what its field holds.** -/
theorem buildField_eq_ok_iff {value : Value} :
    b.buildField name json = .ok value ↔ b.Holds name json value := by
  rw [buildField, Holds]
  by_cases hname : name ∈ b.instants
  · rw [if_pos (List.contains_iff_mem.2 hname), if_pos hname, mapError_eq_ok_iff,
      Json.toInstant_eq_ok_iff]
  · rw [if_neg (mt List.contains_iff_mem.1 hname), if_neg hname, Except.ok.injEq, eq_comm]

/-- A member is built into something if it can be made into a field. -/
theorem exists_buildField_eq_ok_iff :
    (∃ value, b.buildField name json = .ok value) ↔ b.Accepts name json := by
  simp only [buildField_eq_ok_iff, Holds, Accepts]
  by_cases hname : name ∈ b.instants
  · simp only [hname, if_true, true_imp_iff, Json.exists_denotes_iff]
  · simp only [hname, if_false, exists_eq, false_imp_iff]

/-- A member that cannot be made into a field fails under its own name. -/
theorem name_of_buildField_eq_error {e : FieldError} (h : b.buildField name json = .error e) :
    e.name = name := by
  rw [buildField] at h
  split at h
  next =>
    obtain ⟨fault, -, rfl⟩ := mapError_eq_error_iff.1 h
    rfl
  next => cases h

/-! ## Records -/

/-- **The fields of a record are the members of the object**, in their order, each with what it
holds. -/
theorem buildFields_eq_ok_iff {fields : List (Text × Value)} :
    b.buildFields members = .ok fields ↔
      List.Forall₂ (fun m field => field.1 = m.1 ∧ b.Holds m.1 m.2 field.2) members fields := by
  induction members generalizing fields with
  | nil =>
    rw [buildFields, List.forall₂_nil_left_iff, Except.ok.injEq, eq_comm]
  | cons m members ih =>
    rw [buildFields, List.forall₂_cons_left_iff]
    constructor
    · intro h
      obtain ⟨value, hvalue, h⟩ := bind_eq_ok_iff.1 h
      obtain ⟨rest, hrest, h⟩ := bind_eq_ok_iff.1 h
      cases h
      exact ⟨_, _, ⟨rfl, buildField_eq_ok_iff.1 hvalue⟩, ih.1 hrest, rfl⟩
    · rintro ⟨⟨_, value⟩, rest, ⟨rfl, hvalue⟩, hrest, rfl⟩
      rw [buildField_eq_ok_iff.2 hvalue, ok_bind, ih.2 hrest]
      rfl

/-- **A record that cannot be built fails under the name of the first member** that cannot be made
into a field. -/
theorem buildFields_eq_error {e : FieldError} (h : b.buildFields members = .error e) :
    ∃ before json after, members = before ++ (e.name, json) :: after ∧
      (∀ m ∈ before, b.Accepts m.1 m.2) ∧ ¬b.Accepts e.name json := by
  induction members with
  | nil => cases h
  | cons m members ih =>
    obtain ⟨name, json⟩ := m
    rw [buildFields] at h
    rcases bind_eq_error_iff.1 h with hfield | ⟨value, hvalue, h⟩
    · obtain rfl := name_of_buildField_eq_error hfield
      refine ⟨[], json, members, rfl, fun m hm => absurd hm List.not_mem_nil, fun haccepts => ?_⟩
      obtain ⟨value, hvalue⟩ := exists_buildField_eq_ok_iff.2 haccepts
      rw [hvalue] at hfield
      cases hfield
    · rcases bind_eq_error_iff.1 h with hrest | ⟨rest, -, h⟩
      · obtain ⟨before, faulty, after, rfl, hbefore, hfaulty⟩ := ih hrest
        have hfirst : b.Accepts name json := exists_buildField_eq_ok_iff.1 ⟨value, hvalue⟩
        exact ⟨(name, json) :: before, faulty, after, rfl,
          List.forall_mem_cons.2 ⟨hfirst, hbefore⟩, hfaulty⟩
      · cases h

/-- A record can be built if each member can be made into a field. -/
theorem exists_buildFields_eq_ok_iff :
    (∃ fields, b.buildFields members = .ok fields) ↔ ∀ m ∈ members, b.Accepts m.1 m.2 := by
  constructor
  · rintro ⟨fields, hfields⟩
    have hrow : List.Forall₂ (fun m field => b.Accepts m.1 m.2 ∧ b.Holds m.1 m.2 field.2) members
        fields :=
      (buildFields_eq_ok_iff.1 hfields).imp fun m field h =>
        ⟨exists_buildField_eq_ok_iff.1 ⟨field.2, buildField_eq_ok_iff.2 h.2⟩, h.2⟩
    exact ((List.forall₂_and_left members fields).1 hrow).1
  · intro haccepts
    cases hfields : b.buildFields members with
    | ok fields => exact ⟨fields, rfl⟩
    | error e =>
      obtain ⟨before, json, after, rfl, -, hfaulty⟩ := buildFields_eq_error hfields
      exact absurd (haccepts _ (List.mem_append_right before List.mem_cons_self)) hfaulty

/-- The field of a name holds what the member of that name does, and there is none if there is no
such member. -/
theorem lookup_fields {fields : List (Text × Value)}
    (h : List.Forall₂ (fun m field => field.1 = m.1 ∧ b.Holds m.1 m.2 field.2) members fields)
    (name : Text) : Option.Rel (b.Holds name) (members.lookup name) (fields.lookup name) := by
  induction h with
  | nil => exact .none
  | @cons m field members fields hfield hrest ih =>
    obtain ⟨_, json⟩ := m
    obtain ⟨stored, value⟩ := field
    obtain ⟨rfl, hholds⟩ := hfield
    rw [List.lookup_cons, List.lookup_cons]
    by_cases hname : name = stored
    · subst hname
      simpa using hholds
    · simpa only [beq_false_of_ne hname] using ih

/-- **Records are built exactly.** A record can be built if and only if all leaves of the documents
of designated members, through arrays of any depth, can be read as points in time: nulls, numbers
whose value fits into 64 bits once its fraction is cut off, and texts that are timestamps or date
literals. It then has a field for each member, in the same order; the field of a designated name
holds the points in time that the document of that member stands for, null, an instant or a sequence
in the shape of its arrays, and any other field the value of the document. If no record can be
built, the outermost layer of the failure names the first designated member whose document has
another leaf, which is the one with the least name where members are in the order of their names. -/
theorem build_exact (b : RecordBuilder) (members : Json.Members) :
    ((∃ r, b.build members = .ok r) ↔ ∀ m ∈ members, b.Accepts m.1 m.2) ∧
    (∀ r, b.build members = .ok r →
      r.fields.map Prod.fst = members.map Prod.fst ∧
      ∀ name, Option.Rel (b.Holds name) (members.lookup name) (r.field? name)) ∧
    ∀ e, b.build members = .error e →
      e.chain.head? = some (.message ("Field " ++ quoted e.name ++ ": not a date")) ∧
      (∃ before json after, members = before ++ (e.name, json) :: after ∧
        (∀ m ∈ before, b.Accepts m.1 m.2) ∧ ¬b.Accepts e.name json) ∧
      (members.IsSorted → ∀ m ∈ members, ¬b.Accepts m.1 m.2 → m.1 ≠ e.name → e.name < m.1) := by
  refine ⟨?_, fun r hbuild => ?_, fun e hbuild => ⟨rfl, ?_⟩⟩
  · rw [← exists_buildFields_eq_ok_iff]
    constructor
    · rintro ⟨r, hbuild⟩
      obtain ⟨fields, hfields, -⟩ := map_eq_ok_iff.1 hbuild
      exact ⟨fields, hfields⟩
    · rintro ⟨fields, hfields⟩
      exact ⟨⟨fields⟩, map_eq_ok_iff.2 ⟨fields, hfields, rfl⟩⟩
  · obtain ⟨fields, hfields, rfl⟩ := map_eq_ok_iff.1 hbuild
    have hrow := buildFields_eq_ok_iff.1 hfields
    refine ⟨?_, lookup_fields hrow⟩
    rw [← List.forall₂_eq_eq_eq, List.forall₂_map_left_iff, List.forall₂_map_right_iff]
    exact (hrow.imp fun m field h => h.1).flip
  · obtain ⟨before, json, after, rfl, hbefore, hfaulty⟩ :=
      buildFields_eq_error (map_eq_error_iff.1 hbuild)
    refine ⟨⟨before, json, after, rfl, hbefore, hfaulty⟩, fun hsorted m hm hother hname => ?_⟩
    rcases List.mem_append.1 hm with hm | hm
    · exact absurd (hbefore m hm) hother
    · rcases List.mem_cons.1 hm with rfl | hm
      · exact absurd rfl hname
      · -- The faulty members behind the first have greater names.
        exact (List.pairwise_cons.1 (List.pairwise_append.1 hsorted).2.1).1 m hm

/-- The least binary64 number that fits, within an array, and the least integer that does not. -/
theorem build_exact_bounds :
    let b : RecordBuilder := ⟨[['a'], ['b']], 0⟩
    let fitting : Text × Json :=
      (['a'], .array [.number (.float (.ofBits 0xC3E0000000000000)), .null])
    let tooLarge : Text × Json := (['b'], .number (.unsigned 0x8000000000000000))
    (∃ r, b.build [fitting] = .ok r ∧ r.fields.map Prod.fst = [['a']] ∧
      r.field? ['a'] = some (.sequence [.instant ⟨-0x8000000000000000⟩, .null])) ∧
    ∃ e, b.build [fitting, tooLarge] = .error e ∧
      e.chain.head? = some (.message ("Field " ++ quoted ['b'] ++ ": not a date")) := by
  intro b fitting tooLarge
  refine ⟨?_, ?_⟩
  · have hbuild : b.build [fitting] =
        .ok ⟨[(['a'], .sequence [.instant ⟨-0x8000000000000000⟩, .null])]⟩ := by rfl
    exact ⟨_, hbuild, ((build_exact b [fitting]).2.1 _ hbuild).1, rfl⟩
  · have hbuild : b.build [fitting, tooLarge] =
        .error ⟨['b'], .outOfRange (.unsigned 0x8000000000000000)⟩ := by rfl
    exact ⟨_, hbuild, ((build_exact b [fitting, tooLarge]).2.2 _ hbuild).1⟩

end RecordBuilder

end RecordFilter
