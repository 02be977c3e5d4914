import RecordFilter.CommandLine.Run
import RecordFilter.Proofs.Input.Stream
import RecordFilter.Proofs.Result

/-! # What a run writes

A run takes the objects of its input in order until one fails, because its record cannot be built or
because the query cannot be evaluated on it. What it has written by then are the lines of the
objects that matched before that one, and no failure takes any of it back (`writeMatches_append` is
the step over any number of objects that do not fail). With the count option the same failure or the
same number comes out, and only the number is written, at the end (`run_writes_matches`). -/

namespace RecordFilter.CommandLine

/-- The outermost layer of a failure tells the index of a record. -/
def RunError.NamesRecord (e : RunError) (index : Nat) : Prop :=
  e.chain.head? = some (.message ("Record " ++ toString index)) ∨
    e.chain.head? = some (.message ("Query: failed on record " ++ toString index))

namespace Arguments

variable {a b : Arguments}

/-! ## Single objects -/

/-- What the query says of an object, if its record can be built and the query evaluated on it. -/
def verdict? (a : Arguments) (object : Json.Members) : Option Bool := do
  let r ← (a.builder.build object).toOption
  (Query.evaluate a.settings a.query r).toOption

/-- Whether an object fails. -/
def fails (a : Arguments) (object : Json.Members) : Bool := (a.verdict? object).isNone

/-- Whether an object matches. -/
def hits (a : Arguments) (object : Json.Members) : Bool := a.verdict? object == some true

/-- What is wrong with an object, which has the given index. -/
inductive FailsAt (a : Arguments) (index : Nat) (object : Json.Members) : RunError → Prop
  /-- Its record cannot be built. -/
  | record {e : FieldError} (hbuild : a.builder.build object = .error e) :
    FailsAt a index object (.record index e)
  /-- The query fails on its record. -/
  | query {r : Record} {e : QueryError} (hbuild : a.builder.build object = .ok r)
    (hevaluate : Query.evaluate a.settings a.query r = .error e) :
    FailsAt a index object (.query index e)

/-- A failure tells the object it comes from. -/
theorem FailsAt.namesRecord {index : Nat} {object : Json.Members} {e : RunError}
    (h : a.FailsAt index object e) : e.NamesRecord index := by
  cases h with
  | record => exact .inl rfl
  | query => exact .inr rfl

/-- Either something is wrong with an object, and that is why it is not selected, or it is selected
as the query says of it. -/
theorem failsAt_or_verdict (a : Arguments) (index : Nat) (object : Json.Members) :
    (∃ e, a.FailsAt index object e ∧ a.selects index object = .error e ∧
      a.verdict? object = none) ∨
    ∃ hit, a.selects index object = .ok hit ∧ a.verdict? object = some hit := by
  rw [selects, verdict?]
  cases hbuild : a.builder.build object with
  | error e => exact .inl ⟨.record index e, .record hbuild, rfl, rfl⟩
  | ok r =>
    show (∃ e, _ ∧ (Query.evaluate a.settings a.query r).mapError (RunError.query index) = _ ∧
        (Query.evaluate a.settings a.query r).toOption = none) ∨
      ∃ hit, (Query.evaluate a.settings a.query r).mapError (RunError.query index) = _ ∧
        (Query.evaluate a.settings a.query r).toOption = some hit
    cases hevaluate : Query.evaluate a.settings a.query r with
    | error e => exact .inl ⟨.query index e, .query hbuild hevaluate, rfl, rfl⟩
    | ok hit => exact .inr ⟨hit, rfl, rfl⟩

/-- An object that does not fail is selected if it matches. -/
theorem selects_eq_hits {object : Json.Members} (h : a.fails object = false) (index : Nat) :
    a.selects index object = .ok (a.hits object) := by
  rcases a.failsAt_or_verdict index object with ⟨e, -, -, hverdict⟩ | ⟨hit, hselects, hverdict⟩
  · rw [fails, hverdict] at h
    cases h
  · rw [hselects, hits, hverdict]
    cases hit <;> rfl

/-- An object that fails is not selected, for what is wrong with it. -/
theorem exists_failsAt {object : Json.Members} (h : a.fails object = true) (index : Nat) :
    ∃ e, a.FailsAt index object e ∧ a.selects index object = .error e := by
  rcases a.failsAt_or_verdict index object with ⟨e, hfails, hselects, -⟩ | ⟨hit, -, hverdict⟩
  · exact ⟨e, hfails, hselects⟩
  · rw [fails, hverdict] at h
    cases h

/-! ## Rows of objects -/

/-- An object that does not fail: its line is written if it matches, and the run goes on. -/
theorem writeMatches_cons {object : Json.Members} (h : a.fails object = false) (index : Nat)
    (objects : List Json.Members) :
    a.writeMatches index (object :: objects) =
      let rest := a.writeMatches (index + 1) objects
      if a.hits object then ⟨line object ++ rest.written, rest.result.map (· + 1)⟩ else rest := by
  rw [writeMatches, selects_eq_hits h index]

/-- **Objects that do not fail leave behind the lines of those that match**, whatever comes after
them. -/
theorem writeMatches_append {before : List Json.Members}
    (h : ∀ object ∈ before, a.fails object = false) (index : Nat) (after : List Json.Members) :
    a.writeMatches index (before ++ after) =
      let rest := a.writeMatches (index + before.length) after
      let hits := before.filter a.hits
      ⟨hits.flatMap line ++ rest.written, rest.result.map (· + hits.length)⟩ := by
  induction before generalizing index with
  | nil =>
    show a.writeMatches index after =
      ⟨(a.writeMatches index after).written, (a.writeMatches index after).result.map (· + 0)⟩
    cases hresult : (a.writeMatches index after).result with
    | error e => rw [map_error, ← hresult]
    | ok n => rw [map_ok, Nat.add_zero, ← hresult]
  | cons object before ih =>
    have hobject : a.fails object = false := h object List.mem_cons_self
    have hbefore : ∀ other ∈ before, a.fails other = false :=
      fun other hother => h other (List.mem_cons_of_mem object hother)
    have hindex : index + 1 + before.length = index + (object :: before).length := by
      rw [List.length_cons]
      omega
    rw [List.cons_append, writeMatches_cons hobject, ih hbefore, hindex]
    by_cases hhits : a.hits object = true
    · rw [List.filter_cons_of_pos hhits]
      simp only [if_pos hhits, List.flatMap_cons, List.append_assoc, List.length_cons]
      -- One more match, counted behind the others here and among them there.
      cases (a.writeMatches (index + (before.length + 1)) after).result with
      | error e => rfl
      | ok n => rfl
    · rw [List.filter_cons_of_neg hhits]
      simp only [if_neg hhits]

/-- A run over objects that do not fail counts those that match. -/
theorem writeMatches_eq_ok {objects : List Json.Members}
    (h : ∀ object ∈ objects, a.fails object = false) (index : Nat) :
    a.writeMatches index objects =
      ⟨(objects.filter a.hits).flatMap line, .ok (objects.filter a.hits).length⟩ := by
  have happend := writeMatches_append h index []
  rw [List.append_nil] at happend
  rw [happend, writeMatches]
  simp only [List.append_nil, map_ok, Nat.zero_add]

/-- A run that gets to an object that fails ends with what is wrong with it. -/
theorem writeMatches_eq_error {before : List Json.Members} {object : Json.Members}
    (hbefore : ∀ object ∈ before, a.fails object = false) (hfails : a.fails object = true)
    (index : Nat) (after : List Json.Members) :
    ∃ e, a.FailsAt (index + before.length) object e ∧
      a.writeMatches index (before ++ object :: after) =
        ⟨(before.filter a.hits).flatMap line, .error e⟩ := by
  obtain ⟨e, hat, hselects⟩ := exists_failsAt hfails (index + before.length)
  have hrest : a.writeMatches (index + before.length) (object :: after) = ⟨[], .error e⟩ := by
    rw [writeMatches, hselects]
  refine ⟨e, hat, ?_⟩
  rw [writeMatches_append hbefore, hrest]
  simp only [List.append_nil, map_error]

/-- **A run writes the lines of the objects that match before the first failure**, and ends with
their number or with that failure. -/
theorem writeMatches_until_failure (objects : List Json.Members) :
    let k := objects.findIdx a.fails
    let hits := (objects.take k).filter a.hits
    (k = objects.length → a.writeMatches 0 objects = ⟨hits.flatMap line, .ok hits.length⟩) ∧
    ∀ hk : k < objects.length,
      ∃ e, a.FailsAt k objects[k] e ∧ a.writeMatches 0 objects = ⟨hits.flatMap line, .error e⟩ := by
  intro k hits
  have hbefore : ∀ object ∈ objects.take k, a.fails object = false := by
    intro object hobject
    obtain ⟨i, hi, rfl⟩ := List.mem_take_iff_getElem.1 hobject
    exact List.not_of_lt_findIdx (Nat.lt_of_lt_of_le hi (Nat.min_le_left ..))
  refine ⟨fun hlast => ?_, fun hk => ?_⟩
  · have htake : objects.take k = objects := List.take_of_length_le (Nat.le_of_eq hlast.symm)
    have hhits : hits = objects.filter a.hits := congrArg (List.filter a.hits) htake
    rw [htake] at hbefore
    rw [hhits]
    exact writeMatches_eq_ok hbefore 0
  · have hlength : 0 + (objects.take k).length = k := by
      rw [Nat.zero_add, List.length_take_of_le (Nat.le_of_lt hk)]
    have hsplit : objects.take k ++ objects[k] :: objects.drop (k + 1) = objects := by
      rw [← List.drop_eq_getElem_cons hk, List.take_append_drop]
    have hfails : a.fails objects[k] = true := List.findIdx_getElem
    obtain ⟨e, hat, hrun⟩ := writeMatches_eq_error hbefore hfails 0 (objects.drop (k + 1))
    rw [hlength] at hat
    rw [hsplit] at hrun
    exact ⟨e, hat, hrun⟩

/-! ## Counting -/

/-- Counting changes what is written and not what a run comes to. -/
theorem result_runOn (objects : List Json.Members) :
    (a.runOn objects).result = (a.writeMatches 0 objects).result := by
  rw [runOn]
  by_cases hcount : a.has .count = true
  · simp only [if_pos hcount, Outcome.counted]
    cases (a.writeMatches 0 objects).result <;> rfl
  · simp only [if_neg hcount]

/-- A run that ends well writes its matches, or only their number. -/
theorem runOn_eq_ok {objects : List Json.Members} {written : Text} {n : Nat}
    (h : a.writeMatches 0 objects = ⟨written, .ok n⟩) :
    a.runOn objects = ⟨if a.has .count then natText n ++ ['\n'] else written, .ok n⟩ := by
  rw [runOn, h]
  by_cases hcount : a.has .count = true
  · simp only [if_pos hcount, Outcome.counted]
  · simp only [if_neg hcount]

/-- A run that fails leaves the matches it has written, or nothing if it was to count them. -/
theorem runOn_eq_error {objects : List Json.Members} {written : Text} {e : RunError}
    (h : a.writeMatches 0 objects = ⟨written, .error e⟩) :
    a.runOn objects = ⟨if a.has .count then [] else written, .error e⟩ := by
  rw [runOn, h]
  by_cases hcount : a.has .count = true
  · simp only [if_pos hcount, Outcome.counted]
  · simp only [if_neg hcount]

/-- Two command lines ask for the same, apart from whether matches are to be counted. -/
structure AgreeButForCount (a b : Arguments) : Prop where
  query : a.query = b.query
  input? : a.input? = b.input?
  format? : a.format? = b.format?
  instants : a.instants = b.instants
  offset : a.offset = b.offset
  has : ∀ flag, flag ≠ .count → a.has flag = b.has flag

namespace AgreeButForCount

theorem settings_eq (h : AgreeButForCount a b) : a.settings = b.settings := by
  rw [settings, settings, h.offset, h.has .unescape (by decide)]

theorem checkQuery_eq (h : AgreeButForCount a b) : a.checkQuery = b.checkQuery := by
  rw [checkQuery, checkQuery, h.settings_eq, h.query]

theorem objects_eq (h : AgreeButForCount a b) (source : InputSource) :
    a.objects source = b.objects source := by
  have hformat : a.format = b.format := by rw [format, format, h.format?, h.input?]
  cases source with
  | missing => rw [objects, objects, h.input?]
  | opened s => rw [objects, objects, hformat]

theorem writeMatches_eq (h : AgreeButForCount a b) (index : Nat) (objects : List Json.Members) :
    a.writeMatches index objects = b.writeMatches index objects := by
  have hbuilder : a.builder = b.builder := by rw [builder, builder, h.instants, h.offset]
  have hselects : ∀ index object, a.selects index object = b.selects index object := by
    intro index object
    rw [selects, selects, h.settings_eq, hbuilder, h.query]
  induction objects generalizing index with
  | nil => rw [writeMatches, writeMatches]
  | cons object objects ih => rw [writeMatches, writeMatches, hselects, ih]

/-- Two such runs come to the same number or the same failure. -/
theorem result_run_eq (h : AgreeButForCount a b) (source : InputSource) :
    (a.run source).result = (b.run source).result := by
  rw [run, run, h.checkQuery_eq, h.objects_eq]
  split
  · rfl
  · rw [result_runOn, result_runOn, h.writeMatches_eq]

end AgreeButForCount

/-! ## Runs -/

/-- A run whose query is not refused reads its input, and fails there or goes over the objects. -/
theorem run_of_checkQuery (h : a.checkQuery = .ok ()) (source : InputSource) :
    a.run source =
      match a.objects source with
      | .error e => ⟨[], .error e⟩
      | .ok objects => a.runOn objects := by
  rw [run, h]
  rfl

/-- **What a run writes are the lines of the matches before the first failure.** Nothing is written
if the query is refused or the input cannot be read. Otherwise let `k` be the index of the first
object that fails, or the number of objects if none does. Of the objects before it those that match
are written in order, each as its compact text and a line feed, and the run ends with their number
or with the failure, whose outermost layer names `k`. With the count option the run comes to the
same, and what is written is the number if no object fails, and nothing if one does. -/
theorem run_writes_matches (a : Arguments) (source : InputSource) :
    (∀ e, a.checkQuery = .error e → a.run source = ⟨[], .error e⟩) ∧
    (∀ e, a.checkQuery = .ok () → a.objects source = .error e → a.run source = ⟨[], .error e⟩) ∧
    (∀ objects, a.checkQuery = .ok () → a.objects source = .ok objects →
      let k := objects.findIdx a.fails
      let hits := (objects.take k).filter a.hits
      let lines := hits.flatMap fun object => (Json.object object).render ++ ['\n']
      (k = objects.length → a.run source =
        ⟨if a.has .count then natText hits.length ++ ['\n'] else lines, .ok hits.length⟩) ∧
      ∀ hk : k < objects.length, ∃ e, a.FailsAt k objects[k] e ∧ e.NamesRecord k ∧
        a.run source = ⟨if a.has .count then [] else lines, .error e⟩) ∧
    ∀ b, AgreeButForCount a b → (a.run source).result = (b.run source).result := by
  refine ⟨fun e hcheck => ?_, fun e hcheck hobjects => ?_, fun objects hcheck hobjects => ?_,
    fun b h => h.result_run_eq source⟩
  · rw [run, hcheck]
    rfl
  · rw [run_of_checkQuery hcheck, hobjects]
  · intro k hits lines
    obtain ⟨hlast, hfailure⟩ := writeMatches_until_failure (a := a) objects
    rw [run_of_checkQuery hcheck, hobjects]
    refine ⟨fun hk => runOn_eq_ok (hlast hk), fun hk => ?_⟩
    obtain ⟨e, hat, hrun⟩ := hfailure hk
    exact ⟨e, hat, hat.namesRecord, runOn_eq_error hrun⟩

/-- The first object matches and is written; the second has no point in time where one should be,
and ends the run before the third. -/
theorem run_writes_matches_before_failure :
    let a : Arguments := ⟨['n', '=', '=', 'n', 'u', 'l', 'l'], none, some .document, [['n']], 0, []⟩
    let hit : Json.Members := [(['n'], .null)]
    let failure : Json.Members := [(['n'], .bool true)]
    ∃ e, e.NamesRecord 1 ∧
      a.run (.text (Json.array [.object hit, .object failure, .object hit]).render) =
        ⟨['\x7b', '"', 'n', '"', ':', 'n', 'u', 'l', 'l', '\x7d', '\n'], .error e⟩ := by
  intro a hit failure
  have hcheck : a.checkQuery = .ok () := by with_unfolding_all rfl
  have hparse : Json.parse? (Json.array [.object hit, .object failure, .object hit]).render =
      some (.array [.object hit, .object failure, .object hit]) := by
    show Json.parse? ['[', '\x7b', '"', 'n', '"', ':', 'n', 'u', 'l', 'l', '\x7d', ',',
      '\x7b', '"', 'n', '"', ':', 't', 'r', 'u', 'e', '\x7d', ',',
      '\x7b', '"', 'n', '"', ':', 'n', 'u', 'l', 'l', '\x7d', ']'] = _
    simp [Json.parse?, Json.tokens?_cons, Json.token?, Json.isSpace, Json.string?, Json.word?,
      Json.needValue, Json.haveValue, Json.maxDepth, Json.Members.ofList, Json.Members.insert, hit,
      failure]
  have hobjects :
      a.objects (.text (Json.array [.object hit, .object failure, .object hit]).render) =
        .ok [hit, failure, hit] := by
    show (Input.read .document _).mapError _ = _
    rw [Input.read_document_array hparse]
    rfl
  have hk : [hit, failure, hit].findIdx a.fails = 1 := by with_unfolding_all rfl
  have hhits : ([hit, failure, hit].take 1).filter a.hits = [hit] := by with_unfolding_all rfl
  obtain ⟨e, -, hnames, hrun⟩ :=
    ((run_writes_matches a _).2.2.1 _ hcheck hobjects).2 (by rw [hk]; decide)
  rw [hk] at hnames hrun
  rw [hhits] at hrun
  exact ⟨e, hnames, hrun⟩

end Arguments

end RecordFilter.CommandLine
