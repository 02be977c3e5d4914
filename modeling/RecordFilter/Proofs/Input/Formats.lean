import RecordFilter.Proofs.Input.Stream
import RecordFilter.Proofs.Json.Printer
import RecordFilter.Proofs.Json.RoundTrip
import RecordFilter.Proofs.Result
import RecordFilter.Proofs.Text.Cut

/-! # The two formats of the input

Objects can be given one per line or as one array. Written objects are read back from lines, with
white space on lines of its own put anywhere (`OnLines`), and from the array of their texts, so both
formats give the same list. Where a line is neither white space nor an object, the first such line
ends the reading, and if it is a text it is named, counted with the lines of white space
(`read_formats`). A line that is no text is refused without its number
(`read_lines_unreadable_second`). -/

namespace RecordFilter

/-- The outermost layer of an error tells the number of a line. -/
def InputError.NamesLine (e : InputError) (number : Nat) : Prop :=
  e.chain.head? = some (.message ("Input: invalid JSON on line " ++ toString number)) ∨
    e.chain.head? = some (.message ("Input: line " ++ toString number))

/-- What is said of a line that cannot be read tells no number. -/
theorem InputError.not_namesLine_unreadableLine (number : Nat) :
    ¬ InputError.unreadableLine.NamesLine number := by
  -- The wordings differ in the first letter behind the colon.
  rintro (h | h)
  all_goals
    have hwords := congrArg String.toList (ErrorLayer.message.inj (Option.some.inj h))
    rw [String.toList_append] at hwords
    exact absurd (congrArg (·[7]?) hwords) (by simp)

namespace Input

variable {line t : Text} {object : Json.Members} {objects : List Json.Members}

/-! ## Lines of white space -/

/-- The lines of white space are white space. -/
theorem isAllBlank_of_mem_splitOn (h : t.isAllBlank = true) :
    ∀ line ∈ t.splitOn '\n', Text.isAllBlank line = true := by
  induction t with
  | nil => simp [Text.isAllBlank]
  | cons c t ih =>
    obtain ⟨hc, ht⟩ := Bool.and_eq_true_iff.1 (show (isBlank c && Text.isAllBlank t) = true from h)
    rw [List.splitOn_cons_eq_if_modifyHead]
    split
    next => exact List.forall_mem_cons.2 ⟨rfl, ih ht⟩
    next =>
      have hlines := ih ht
      cases hsplit : t.splitOn '\n' with
      | nil => simp
      | cons first rest =>
        rw [hsplit] at hlines
        obtain ⟨hfirst, hrest⟩ := List.forall_mem_cons.1 hlines
        refine List.forall_mem_cons.2 ⟨?_, hrest⟩
        exact Bool.and_eq_true_iff.2 ⟨hc, hfirst⟩

/-- Lines of white space are passed over and counted. -/
theorem readLines_append {blank : List Text} (h : ∀ line ∈ blank, Text.isAllBlank line = true)
    (number : Nat) (lines : List (Option Text)) :
    readLines number (blank.map some ++ lines) = readLines (number + blank.length) lines := by
  induction blank generalizing number with
  | nil => rfl
  | cons line blank ih =>
    obtain ⟨hline, hblank⟩ := List.forall_mem_cons.1 h
    rw [List.map_cons, List.cons_append, readLines, if_pos hline, ih hblank, List.length_cons,
      Nat.add_assoc, Nat.add_comm 1]

/-! ## Lines of objects -/

/-- A line from which an object is read gives that object, and the lines behind it are read on. -/
theorem readLines_object (hfeed : '\n' ∉ line) (hblank : line.isAllBlank = false)
    (hread : Json.parse? line = some (.object object)) (number : Nat) :
    readLines number (InputStream.ofText (line ++ '\n' :: t)).lines =
      (readLines (number + 1) (InputStream.ofText t).lines).map (object :: ·) := by
  have hsplit : (InputStream.ofText (line ++ '\n' :: t)).lines =
      some line :: (InputStream.ofText t).lines := by
    rw [InputStream.lines_ofText, InputStream.lines_ofText, List.splitOn_append_cons_self,
      List.splitOn_eq_singleton hfeed, List.singleton_append, List.map_cons]
  have hline : readLine number line = .ok object := by
    rw [readLine, hread]
  rw [hsplit, readLines, hblank, hline, if_neg Bool.false_ne_true, ok_bind]
  cases readLines (number + 1) (InputStream.ofText t).lines <;> rfl

/-- An object is written on one line. -/
theorem lineFeed_notMem_render (object : Json.Members) : '\n' ∉ (Json.object object).render :=
  (Json.visible_render (.object object)).lineFeed_notMem

/-- The line of an object is not white space. -/
theorem isAllBlank_object_append (object : Json.Members) (t : Text) :
    ((Json.object object).render ++ t).isAllBlank = false := rfl

/-- A carriage return behind a document is passed over. -/
theorem parse?_render_append_return {v : Json} (hdepth : v.depth ≤ Json.maxDepth) :
    Json.parse? (v.render ++ ['\r']) = Json.parse? v.render := by
  have hreturn : ∀ value, Json.haveText value [] ['\r'] = some value := by
    intro value
    rw [Json.haveText, Json.tokens?_cons, if_pos (by decide), Json.tokens?_nil]
    rfl
  rw [Json.parse?_render hdepth, Json.parse?_eq_needText,
    Json.needText_render v [] ['\r'] hdepth (.cons (by decide) [])]
  cases v.reread? with
  | none => rfl
  | some value => exact hreturn value

/-- A text in which objects are written one per line, each line ended by a line feed that may have a
carriage return in front of it, with white space on lines of its own anywhere between them, before
them and behind them. -/
inductive OnLines : List Json.Members → Text → Prop
  /-- Behind the last object there may be white space. -/
  | blank {t : Text} (ht : t.isAllBlank = true) : OnLines [] t
  /-- A line of white space. -/
  | blankLine {line t : Text} {objects : List Json.Members} (hline : line.isAllBlank = true)
    (h : OnLines objects t) : OnLines objects (line ++ '\n' :: t)
  /-- The line of an object. -/
  | object {object : Json.Members} {ending t : Text} {objects : List Json.Members}
    (hending : ending = [] ∨ ending = ['\r']) (h : OnLines objects t) :
    OnLines (object :: objects) ((Json.object object).render ++ ending ++ '\n' :: t)

/-- Objects that are read back from their texts are read from the lines they are written on. -/
theorem OnLines.readLines_eq_ok (h : OnLines objects t)
    (hread : ∀ object ∈ objects,
      Json.parse? (Json.object object).render = some (.object object) ∧
        (Json.object object).depth ≤ Json.maxDepth) (number : Nat) :
    readLines number (InputStream.ofText t).lines = .ok objects := by
  induction h generalizing number with
  | blank ht =>
    have happend := readLines_append (isAllBlank_of_mem_splitOn ht) number []
    rw [List.append_nil] at happend
    rw [InputStream.lines_ofText, happend, readLines]
  | blankLine hline _ ih =>
    rw [InputStream.lines_ofText, List.splitOn_append_cons_self, List.map_append,
      readLines_append (isAllBlank_of_mem_splitOn hline), ← InputStream.lines_ofText]
    exact ih hread _
  | @object object ending t objects hending _ ih =>
    obtain ⟨⟨hparse, hdepth⟩, hobjects⟩ := List.forall_mem_cons.1 hread
    have hfeed : '\n' ∉ (Json.object object).render ++ ending := by
      rw [List.mem_append, not_or]
      refine ⟨lineFeed_notMem_render object, ?_⟩
      rcases hending with rfl | rfl <;> decide
    have hline : Json.parse? ((Json.object object).render ++ ending) = some (.object object) := by
      rcases hending with rfl | rfl
      · rw [List.append_nil, hparse]
      · rw [parse?_render_append_return hdepth, hparse]
    rw [readLines_object hfeed (isAllBlank_object_append object ending) hline, ih hobjects]
    rfl

/-! ## One array -/

/-- The elements of an array of objects are those objects. -/
theorem readElements_objects (index : Nat) (objects : List Json.Members) :
    readElements index (objects.map Json.object) = .ok objects := by
  induction objects generalizing index with
  | nil => rfl
  | cons object objects ih => rw [List.map_cons, readElements, ih]; rfl

/-- Objects that are read back from their texts are read from the array of these, which is nested
one level deeper than they are. -/
theorem read_array
    (hread : ∀ object ∈ objects,
      Json.parse? (Json.object object).render = some (.object object) ∧
        (Json.object object).depth + 1 ≤ Json.maxDepth) :
    read .document (.ofText (Json.array (objects.map Json.object)).render) = .ok objects := by
  have hdepth : (Json.array (objects.map Json.object)).depth ≤ Json.maxDepth := by
    have hitems : Json.depthItems (objects.map Json.object) ≤ Json.maxDepth - 1 :=
      Json.depthItems_le_iff.2 (List.forall_mem_map.2 fun object hobject =>
        Nat.le_sub_one_of_lt (hread object hobject).2)
    exact Nat.add_le_of_le_sub (by decide) hitems
  have hfaithful : (Json.array (objects.map Json.object)).IsFaithful := by
    refine Json.areFaithful_iff.2 (List.forall_mem_map.2 fun object hobject => ?_)
    obtain ⟨hparse, hobjectDepth⟩ := hread object hobject
    exact (Json.parse?_render_eq_some_iff (Nat.le_of_succ_le hobjectDepth)).1 hparse
  rw [read_document_array ((Json.parse?_render_eq_some_iff hdepth).2 hfaithful)]
  exact readElements_objects 0 objects

/-! ## Faulty lines -/

/-- Whether a line is neither white space nor an object. A line that cannot be read is neither. -/
def isFaulty : Option Text → Bool
  | none => true
  | some line =>
    !line.isAllBlank && match Json.parse? line with
      | some (.object _) => false
      | _ => true

/-- What is wrong with a line, which has the given number. -/
inductive FaultyAt (number : Nat) : Option Text → InputError → Prop
  /-- It cannot be read. -/
  | unreadable : FaultyAt number none .unreadableLine
  /-- It is no document. -/
  | malformed {line : Text} (hread : Json.parse? line = none) :
    FaultyAt number (some line) (.malformedLine number)
  /-- It is a document of another type. -/
  | notObject {line : Text} {found : Json} (hread : Json.parse? line = some found)
    (hfound : ∀ members, found ≠ .object members) :
    FaultyAt number (some line) (.lineNotObject number found)

namespace FaultyAt

variable {number : Nat} {e : InputError}

/-- The error of a line that is a text tells where it comes from. -/
theorem namesLine (h : FaultyAt number (some line) e) : e.NamesLine number := by
  cases h with
  | malformed => exact .inl rfl
  | notObject => exact .inr rfl

theorem eq_unreadableLine (h : FaultyAt number none e) : e = .unreadableLine := by
  cases h
  rfl

end FaultyAt

/-- A faulty line that is a text is not read, for what is wrong with it. -/
theorem exists_faultyAt (h : isFaulty (some line) = true) (number : Nat) :
    line.isAllBlank = false ∧
      ∃ e, FaultyAt number (some line) e ∧ readLine number line = .error e := by
  obtain ⟨hblank, hobject⟩ := Bool.and_eq_true_iff.1 h
  refine ⟨by simpa using hblank, ?_⟩
  rw [readLine]
  cases hread : Json.parse? line with
  | none => exact ⟨_, .malformed hread, rfl⟩
  | some found =>
    rw [hread] at hobject
    cases found with
    | object members => cases hobject
    | null => exact ⟨_, .notObject hread (by simp), rfl⟩
    | bool b => exact ⟨_, .notObject hread (by simp), rfl⟩
    | number n => exact ⟨_, .notObject hread (by simp), rfl⟩
    | string s => exact ⟨_, .notObject hread (by simp), rfl⟩
    | array items => exact ⟨_, .notObject hread (by simp), rfl⟩

/-- A faulty line ends the reading, whatever comes behind it. -/
theorem readLines_of_faulty {line : Option Text} (h : isFaulty line = true) (number : Nat)
    (lines : List (Option Text)) :
    ∃ e, FaultyAt number line e ∧ readLines number (line :: lines) = .error e := by
  cases line with
  | none => exact ⟨_, .unreadable, rfl⟩
  | some line =>
    obtain ⟨hblank, e, hat, hline⟩ := exists_faultyAt h number
    refine ⟨e, hat, ?_⟩
    rw [readLines, hblank, hline]
    rfl

/-- A line that is not faulty is passed over or read. -/
theorem readLines_of_not_faulty {line : Option Text} (h : isFaulty line = false) {number : Nat}
    {lines : List (Option Text)} {e : InputError}
    (herror : readLines (number + 1) lines = .error e) :
    readLines number (line :: lines) = .error e := by
  cases line with
  | none => cases h
  | some line =>
    rw [readLines]
    by_cases hblank : line.isAllBlank = true
    · rw [if_pos hblank, herror]
    · obtain ⟨members, hread⟩ : ∃ members, Json.parse? line = some (.object members) := by
        simp only [isFaulty, Bool.eq_false_iff.2 hblank, Bool.not_false, Bool.true_and] at h
        split at h
        next members hread => exact ⟨members, hread⟩
        next => cases h
      rw [if_neg hblank, readLine, hread, herror]
      rfl

/-- **The first faulty line ends the reading**, with what is wrong with it. -/
theorem readLines_findIdx (number : Nat) (lines : List (Option Text)) :
    let k := lines.findIdx isFaulty
    ∀ hk : k < lines.length,
      ∃ e, FaultyAt (number + k) lines[k] e ∧ readLines number lines = .error e := by
  -- Passing over a line moves one from the index to the number of the line that comes first.
  induction lines generalizing number with
  | nil => exact fun hk => absurd hk (Nat.not_lt_zero _)
  | cons line lines ih =>
    intro k hk
    by_cases hfaulty : isFaulty line = true
    · have hzero : k = 0 := by simp [k, List.findIdx_cons, hfaulty]
      obtain ⟨e, hat, herror⟩ := readLines_of_faulty hfaulty number lines
      refine ⟨e, ?_, herror⟩
      simpa only [hzero, Nat.add_zero, List.getElem_cons_zero] using hat
    · have hsucc : k = lines.findIdx isFaulty + 1 := by
        simp [k, List.findIdx_cons, Bool.eq_false_iff.2 hfaulty]
      have hrest : lines.findIdx isFaulty < lines.length := by
        rw [hsucc, List.length_cons] at hk
        exact Nat.lt_of_succ_lt_succ hk
      obtain ⟨e, hat, herror⟩ := ih (number + 1) hrest
      refine ⟨e, ?_, readLines_of_not_faulty (Bool.eq_false_iff.2 hfaulty) herror⟩
      have hnumber : number + 1 + lines.findIdx isFaulty = number + k := by omega
      rw [hnumber] at hat
      simpa only [hsucc, List.getElem_cons_succ] using hat

/-- **The two formats of the input agree.** Objects that are nested at most 126 levels deep, and
that are read back from their texts, are read from these texts on lines of their own, in order and
with lines of white space anywhere, and they are read from the array of the texts. A stream that has
a line which is neither white space nor an object is refused for the first such line, whatever comes
behind it. Where that line is a text, the outermost layer of the error names it, where lines are
counted from one and lines of white space count. Where it cannot be read, the outermost layer says
so, and names no line. -/
theorem read_formats :
    (∀ objects : List Json.Members,
      (∀ object ∈ objects, Json.parse? (Json.object object).render = some (.object object)) →
      (∀ object ∈ objects, (Json.object object).depth ≤ 126) →
      (∀ t, OnLines objects t → read .lines (.ofText t) = .ok objects) ∧
        read .document (.ofText (Json.array (objects.map Json.object)).render) = .ok objects) ∧
    ∀ s : InputStream,
      let k := s.lines.findIdx isFaulty
      ∀ hk : k < s.lines.length,
        ∃ e, FaultyAt (k + 1) s.lines[k] e ∧ read .lines s = .error e ∧
          (∀ line, s.lines[k] = some line → e.NamesLine (k + 1)) ∧
          (s.lines[k] = none →
            e.chain.head? = some (.message "Input: failed to read line") ∧
              ∀ number, ¬ e.NamesLine number) := by
  refine ⟨fun objects hread hdepth => ⟨fun t ht => ?_, ?_⟩, ?_⟩
  · exact ht.readLines_eq_ok (fun object hobject => ⟨hread object hobject,
      Nat.le_trans (hdepth object hobject) (by decide)⟩) 1
  · exact read_array fun object hobject => ⟨hread object hobject,
      Nat.succ_le_succ (hdepth object hobject)⟩
  · intro s k hk
    obtain ⟨e, hat, herror⟩ := readLines_findIdx 1 s.lines hk
    rw [Nat.add_comm 1] at hat
    refine ⟨e, hat, herror, fun line hline => ?_, fun hnone => ?_⟩
    · rw [hline] at hat
      exact hat.namesLine
    · rw [hnone] at hat
      rw [hat.eq_unreadableLine]
      exact ⟨rfl, InputError.not_namesLine_unreadableLine⟩

/-- An integer, a string with a line feed in it, and a zero with a minus, on lines with both endings
between lines of white space, and in an array; a text whose third line is an array; and the same
with bytes behind it that are no text, and with such bytes in front of it. -/
theorem read_formats_mixed :
    let first : Json.Members := [(['a'], .number (.signed (-7))), (['b'], .string ['"', '\n'])]
    let second : Json.Members := [([], .array [.number (.float (.signed true .zero))])]
    read .lines (.ofText ([' '] ++ '\n' :: ((Json.object first).render ++ ['\r'] ++
        '\n' :: (['\t', '\r'] ++
          '\n' :: ((Json.object second).render ++ [] ++ '\n' :: ['\n', ' ']))))) =
          .ok [first, second] ∧
      read .document (.ofText (Json.array [.object first, .object second]).render) =
        .ok [first, second] ∧
      (∃ e, e.NamesLine 3 ∧
        read .lines (.ofText ['\n', ' ', '\r', '\n', '[', ']', '\n', '\x7b', '\x7d']) =
          .error e) ∧
      (∃ e, e.NamesLine 3 ∧
        read .lines ⟨[10, 32, 13, 10, 91, 93, 10, 255], true⟩ = .error e) ∧
      ∃ e, e.chain.head? = some (.message "Input: failed to read line") ∧
        read .lines ⟨[10, 32, 195, 10, 91, 93], false⟩ = .error e := by
  intro first second
  have hzero : Json.Numeral.number? ⟨true, ['0'], some ['0'], none⟩ =
      some (.float (.signed true .zero)) := by
    show (some (Json.divideByPower (.ofNat 0) 1)).bind
      (fun m => some (Number.float (.signed true m))) = _
    rw [Json.divideByPower, if_pos (by decide)]
    decide +kernel
  have hfloat : Json.parse? (Json.numberText (.float (.signed true .zero))) =
      some (.number (.float (.signed true .zero))) :=
    Json.parse?_text ⟨by simp [AllDigits], by simp, by simp, by simp [AllDigits], by simp⟩ hzero
  have hfirst : Json.parse? (Json.object first).render = some (.object first) :=
    (Json.parse?_render_eq_some_iff (by decide)).2
      ⟨by decide, Json.parse?_signed (-7), trivial, trivial⟩
  have hsecond : Json.parse? (Json.object second).render = some (.object second) :=
    (Json.parse?_render_eq_some_iff (by decide)).2
      ⟨by decide, ⟨hfloat, trivial⟩, trivial⟩
  have hread : ∀ object ∈ [first, second],
      Json.parse? (Json.object object).render = some (.object object) := by
    simp only [List.forall_mem_cons]
    exact ⟨hfirst, hsecond, fun _ h => absurd h List.not_mem_nil⟩
  obtain ⟨hlines, hdocument⟩ := read_formats.1 [first, second] hread (by decide)
  have harray : isFaulty (some ['[', ']']) = true := by
    have hparse : Json.parse? ['[', ']'] = some (.array []) :=
      Json.parse?_render (v := .array []) (by decide)
    rw [isFaulty, hparse]
    rfl
  -- Of lines that begin like this, the third is the first that is faulty.
  have hk : ∀ others, List.findIdx isFaulty
      (some [] :: some [' ', '\r'] :: some ['[', ']'] :: others) = 2 := by
    intro others
    simp only [List.findIdx_cons, harray, cond_true]
    rfl
  have hthird : ∀ (s : InputStream) others,
      s.lines = some [] :: some [' ', '\r'] :: some ['[', ']'] :: others →
        ∃ e, e.NamesLine 3 ∧ read .lines s = .error e := by
    intro s others hs
    obtain ⟨e, -, herror, hnames, -⟩ := read_formats.2 s (by rw [hs, hk]; simp)
    simp only [hs, hk] at hnames
    exact ⟨e, hnames _ rfl, herror⟩
  refine ⟨hlines _ (.blankLine rfl (.object (.inr rfl) (.blankLine rfl (.object (.inl rfl)
    (.blank rfl))))), hdocument, hthird _ [some ['\x7b', '\x7d']] (by decide),
    hthird _ [none] (by decide), ?_⟩
  have hs : InputStream.lines ⟨[10, 32, 195, 10, 91, 93], false⟩ =
      [some [], none, some ['[', ']']] := by decide
  have hsecondLine : List.findIdx isFaulty [some [], none, some ['[', ']']] = 1 := rfl
  obtain ⟨e, -, herror, -, hunreadable⟩ :=
    read_formats.2 ⟨[10, 32, 195, 10, 91, 93], false⟩ (by rw [hs, hsecondLine]; decide)
  simp only [hs, hsecondLine] at hunreadable
  exact ⟨e, (hunreadable rfl).1, herror⟩

/-- **A line that is no text is refused without its number.** Of three lines the second is the first
that is neither white space nor an object; it is a byte that begins no character, and the outermost
layer of the error does not name it. The same holds of a stream that breaks off in its first
line. -/
theorem read_lines_unreadable_second :
    let s : InputStream := ⟨[123, 125, 10, 255, 10], false⟩
    s.lines = [some ['\x7b', '\x7d'], none, some []] ∧ s.lines.findIdx isFaulty = 1 ∧
      read .lines s = .error .unreadableLine ∧
      InputStream.lines ⟨[], true⟩ = [none] ∧ read .lines ⟨[], true⟩ = .error .unreadableLine ∧
      InputError.unreadableLine.chain = [.message "Input: failed to read line", .system] ∧
      ¬ InputError.unreadableLine.NamesLine 2 ∧ ¬ InputError.unreadableLine.NamesLine 1 := by
  intro s
  have hlines : s.lines = [some ['\x7b', '\x7d'], none, some []] := by decide
  have hbroken : InputStream.lines ⟨[], true⟩ = [none] := by decide
  have hparse : Json.parse? ['\x7b', '\x7d'] = some (.object []) :=
    Json.parse?_render (v := .object []) (by decide)
  have hobject : isFaulty (some ['\x7b', '\x7d']) = false := by
    rw [isFaulty, hparse]
    rfl
  refine ⟨hlines, ?_, ?_, hbroken, ?_, rfl, InputError.not_namesLine_unreadableLine 2,
    InputError.not_namesLine_unreadableLine 1⟩
  · rw [hlines, List.findIdx_cons, hobject]
    rfl
  · rw [read, hlines]
    exact readLines_of_not_faulty hobject rfl
  · rw [read, hbroken]
    rfl

end Input

end RecordFilter
