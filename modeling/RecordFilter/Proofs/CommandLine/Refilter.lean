import RecordFilter.Proofs.CommandLine.Output
import RecordFilter.Proofs.Input.Formats

/-! # Filtering what was filtered

What a run writes can be filtered again: it is a text of objects on lines, all of which match. So a
second run of the same query over it, which reads lines, comes to the same number and writes the
same text (`run_written`), in whatever format the first run read its input. -/

namespace RecordFilter.CommandLine.Arguments

variable {a b : Arguments} {source : InputSource} {objects : List Json.Members}

/-! ## Written lines -/

/-- Objects that are read back from their texts are read from the lines that are written for
them. -/
theorem read_lines_written
    (hread : ∀ object ∈ objects,
      Json.parse? (Json.object object).render = some (.object object)) :
    Input.read .lines (.ofText (objects.flatMap line)) = .ok objects := by
  -- Every line is an object, so the number of the first one does not matter.
  have hlines : ∀ number,
      Input.readLines number (InputStream.ofText (objects.flatMap line)).lines = .ok objects := by
    induction objects with
    | nil => exact fun _ => rfl
    | cons object objects ih =>
      intro number
      obtain ⟨hobject, hobjects⟩ := List.forall_mem_cons.1 hread
      have hline : (object :: objects).flatMap line =
          (Json.object object).render ++ '\n' :: objects.flatMap line := by
        simp [line]
      have hblank := Input.isAllBlank_object_append object []
      rw [List.append_nil] at hblank
      rw [hline, Input.readLines_object (Input.lineFeed_notMem_render object) hblank hobject,
        ih hobjects]
      rfl
  exact hlines 1

/-! ## Runs that end well -/

/-- No object fails in a run over objects that ends well. -/
theorem fails_eq_false_of_runOn {n : Nat} (h : (a.runOn objects).result = .ok n) :
    ∀ object ∈ objects, a.fails object = false := by
  rw [result_runOn] at h
  obtain ⟨-, hfailure⟩ := writeMatches_until_failure (a := a) objects
  by_cases hk : objects.findIdx a.fails < objects.length
  · obtain ⟨e, -, hrun⟩ := hfailure hk
    rw [hrun] at h
    cases h
  · have hlast : objects.findIdx a.fails = objects.length :=
      Nat.le_antisymm List.findIdx_le_length (Nat.le_of_not_lt hk)
    exact List.findIdx_eq_length.1 hlast

/-- A run that ends well does so over the objects of its input, after the query has been
checked. -/
theorem exists_objects_of_run {n : Nat} (h : (a.run source).result = .ok n) :
    a.checkQuery = .ok () ∧
      ∃ objects, a.objects source = .ok objects ∧ a.run source = a.runOn objects := by
  cases hcheck : a.checkQuery with
  | error e =>
    rw [run, hcheck] at h
    cases h
  | ok =>
    cases hobjects : a.objects source with
    | error e =>
      rw [run_of_checkQuery hcheck, hobjects] at h
      cases h
    | ok objects =>
      refine ⟨rfl, objects, rfl, ?_⟩
      rw [run_of_checkQuery hcheck, hobjects]

/-! ## The second run -/

/-- A command line asks the same of lines as another one asks of its input, and writes the
matches. -/
structure Refilters (b a : Arguments) : Prop where
  query : b.query = a.query
  instants : b.instants = a.instants
  offset : b.offset = a.offset
  unescape : b.has .unescape = a.has .unescape
  format : b.format = .lines
  writes : b.has .count = false

namespace Refilters

theorem settings_eq (h : Refilters b a) : b.settings = a.settings := by
  rw [settings, settings, h.offset, h.unescape]

theorem checkQuery_eq (h : Refilters b a) : b.checkQuery = a.checkQuery := by
  rw [checkQuery, checkQuery, h.settings_eq, h.query]

/-- The same is said of an object, which does not depend on where it was read. -/
theorem verdict?_eq (h : Refilters b a) : b.verdict? = a.verdict? := by
  have hbuilder : b.builder = a.builder := by rw [builder, builder, h.instants, h.offset]
  funext object
  rw [verdict?, verdict?, hbuilder, h.settings_eq, h.query]

theorem fails_eq (h : Refilters b a) : b.fails = a.fails := by
  funext object
  rw [fails, fails, h.verdict?_eq]

theorem hits_eq (h : Refilters b a) : b.hits = a.hits := by
  funext object
  rw [hits, hits, h.verdict?_eq]

end Refilters

/-- **Filtering is idempotent.** Where a run that does not count ends well, the same query over the
lines that it wrote ends with the same number and writes the same text, provided that each object
written is read back from its text. -/
theorem run_written (a b : Arguments) (source : InputSource) (n : Nat)
    (hcount : a.has .count = false) (hb : Refilters b a) (hrun : (a.run source).result = .ok n)
    (hread : ∀ objects, a.objects source = .ok objects → ∀ object ∈ objects,
      a.hits object = true → Json.parse? (Json.object object).render = some (.object object)) :
    b.run (.text (a.run source).written) = ⟨(a.run source).written, .ok n⟩ := by
  obtain ⟨hcheck, objects, hobjects, hrunOn⟩ := exists_objects_of_run hrun
  rw [hrunOn] at hrun
  have hfails : ∀ object ∈ objects, a.fails object = false := fails_eq_false_of_runOn hrun
  let hits := objects.filter a.hits
  have hfirst : a.runOn objects = ⟨hits.flatMap line, .ok hits.length⟩ := by
    rw [runOn_eq_ok (writeMatches_eq_ok hfails 0), hcount, if_neg Bool.false_ne_true]
  obtain rfl : hits.length = n := by
    rw [hfirst] at hrun
    exact Except.ok.inj hrun
  have hhits : ∀ object ∈ hits, object ∈ objects ∧ a.hits object = true :=
    fun object hobject => List.mem_filter.1 hobject
  -- The second run reads exactly the objects that the first one wrote.
  have hsecond : b.objects (.text (hits.flatMap line)) = .ok hits := by
    have hlines : Input.read .lines (.ofText (hits.flatMap line)) = .ok hits :=
      read_lines_written fun object hobject =>
        hread objects hobjects object (hhits object hobject).1 (hhits object hobject).2
    rw [InputSource.text, Arguments.objects, hb.format, hlines]
    rfl
  have hnone : ∀ object ∈ hits, b.fails object = false := by
    intro object hobject
    rw [hb.fails_eq]
    exact hfails object (hhits object hobject).1
  have hall : hits.filter b.hits = hits := by
    rw [hb.hits_eq]
    exact List.filter_eq_self.2 fun object hobject => (hhits object hobject).2
  rw [hrunOn, hfirst, run_of_checkQuery (hb.checkQuery_eq.trans hcheck), hsecond]
  simp only []
  rw [runOn_eq_ok (writeMatches_eq_ok hnone 0), hall, hb.writes, if_neg Bool.false_ne_true]

/-- Two of three objects of an array match, one with a line feed in a string; a second run over the
two lines writes them again. -/
theorem run_written_array :
    let a : Arguments :=
      ⟨['n', '=', '=', 'n', 'u', 'l', 'l'], none, some .document, [['d']], 3600, [.unescape]⟩
    let b : Arguments :=
      ⟨['n', '=', '=', 'n', 'u', 'l', 'l'], none, none, [['d']], 3600, [.verbose, .unescape]⟩
    let first : Json.Members := [(['d'], .null), (['n'], .null), (['t'], .string ['\n', '"'])]
    let second : Json.Members := [(['n'], .string ['x'])]
    let source :=
      InputSource.text (Json.array [.object first, .object second, .object first]).render
    b.run (.text (a.run source).written) = ⟨(a.run source).written, .ok 2⟩ := by
  intro a b first second source
  have hparse : Json.parse? (Json.array [.object first, .object second, .object first]).render =
      some (.array [.object first, .object second, .object first]) :=
    Json.parse?_render (by decide)
  have hobjects : a.objects source = .ok [first, second, first] := by
    show (Input.read .document _).mapError _ = _
    rw [Input.read_document_array hparse]
    rfl
  have hcheck : a.checkQuery = .ok () := by with_unfolding_all rfl
  have hfails : ∀ object ∈ [first, second, first], a.fails object = false := by
    simp only [List.forall_mem_cons]
    refine ⟨?_, ?_, ?_, fun _ h => absurd h List.not_mem_nil⟩ <;> with_unfolding_all rfl
  have hhits : [first, second, first].filter a.hits = [first, first] := by with_unfolding_all rfl
  have hrun : (a.run source).result = .ok 2 := by
    rw [run_of_checkQuery hcheck, hobjects]
    simp only []
    rw [runOn_eq_ok (writeMatches_eq_ok hfails 0), hhits]
    rfl
  refine run_written a b source 2 rfl ⟨rfl, rfl, rfl, rfl, rfl, rfl⟩ hrun ?_
  intro objects h object hobject hhit
  obtain rfl : [first, second, first] = objects := by
    rw [hobjects] at h
    exact Except.ok.inj h
  have hmem : object ∈ [first, first] := hhits ▸ List.mem_filter.2 ⟨hobject, hhit⟩
  obtain rfl : object = first := by simpa using hmem
  exact Json.parse?_render (by decide)

end RecordFilter.CommandLine.Arguments
