import TraceProfile.Counter.Document
import TraceProfile.Proofs.Counter.Lines
import TraceProfile.Proofs.Json.Pairs
import TraceProfile.Proofs.Number.Reading

/-!
# One counter in two forms

What a counter file says can be written in lines or as a document. Both are read as the same
counter: the forms split, strip, convert and default in ways of their own, but where a text can be
written in either form they agree on it.
-/

namespace TraceProfile.Counter

/-- What a counter file says, within the bounds of both forms. -/
structure Source where
  /-- The category. -/
  category : CounterCategory
  /-- The name. -/
  name : String
  /-- The description. -/
  description : String
  /-- The text of the color, which may be none of the palette. -/
  color : String
  /-- Ticks, changes and numbers of operations. -/
  samples : List (Int × Int × Int)
  /-- The name fits between two commas. -/
  nameFits : ',' ∉ name.toList ∧ Text.IsLine name.toList
  /-- The description does. -/
  descriptionFits : ',' ∉ description.toList ∧ Text.IsLine description.toList
  /-- The color fits on a line. -/
  colorFits : Text.IsLine color.toList
  /-- Ticks and numbers of operations have a text, and changes are exact as decimals. -/
  samplesFit : ∀ s ∈ samples, Numeral.hasText s.1 ∧ s.2.1.natAbs ≤ Binary64.integerBound ∧
    Numeral.hasText s.2.2

namespace Source

/-- The line that defines the counter. -/
def definition (source : Source) : String :=
  source.category.name ++ "," ++ source.name ++ "," ++ source.description ++ "," ++ source.color

/-- The line of a sample. -/
def sampleLine (s : Int × Int × Int) : String :=
  toString s.1 ++ "," ++ toString s.2.1 ++ "," ++ toString s.2.2

/-- The entry of a sample in a document. -/
def sampleEntry (s : Int × Int × Int) : Json := .list [.int s.1, .int s.2.1, .int s.2.2]

/-- A text says this in lines: first the definition, then the samples with any number of blank
lines around them. -/
def InLines (source : Source) (content : String) : Prop :=
  ∃ lines : List (Text.LineEnd × List Char),
    content.toList = source.definition.toList ++ Text.joinLines lines ∧
      (∀ entry ∈ lines, Text.IsLine entry.2) ∧
      (lines.map (·.2)).filter (fun line => !line.all Text.isBlank) =
        source.samples.map fun s => (sampleLine s).toList

/-- A document is read without loss as far as this goes: no half of a pair stands alone in it, or
the character that would stand for it is in none of these texts. -/
def KeptBy (source : Source) (content : String) : Prop :=
  Json.isPaired content = true ∨
    ∀ text ∈ [source.name, source.description, source.color], '\ufffd' ∉ text.toList

/-- A text says this as a document, for a reader that follows it so many levels deep: it starts with
a brace, and it is read without loss as an object with these fields, and perhaps others. -/
def InDocument (nesting : Nat) (source : Source) (content : String) : Prop :=
  isDocument content = true ∧ source.KeptBy content ∧
    ∃ fields, Json.read nesting content = .ok (.object fields) ∧
    fields.lookup "name" = some (.text source.name) ∧
    fields.lookup "category" = some (.text source.category.name) ∧
    fields.lookup "description" = some (.text source.description) ∧
    fields.lookup "color" = some (.text source.color) ∧
    fields.lookup "samples" = some (.list (source.samples.map sampleEntry))

/-- A sample as it is read. -/
def sample (clock : Clock) (s : Int × Int × Int) : CounterSample :=
  ⟨clock.convert s.1, .real (Binary64.ofQuotient (s.2.1 < 0) s.2.1.natAbs 1), s.2.2⟩

/-- The counter as it is read. -/
def counter (source : Source) (clock : Clock) : Counter :=
  ⟨source.name, source.category, source.description, GraphColor.ofName? source.color,
    source.samples.map (sample clock)⟩

variable (source : Source) (nesting : Nat) (clock : Clock)

section Definition

/-- The characters of the definition. -/
theorem toList_definition :
    source.definition.toList =
      source.category.name.toList ++ ',' :: (source.name.toList ++
        ',' :: (source.description.toList ++ ',' :: source.color.toList)) := by
  simp [definition]

/-- The name of a category can stand at the front of a line. -/
theorem name_of_category (category : CounterCategory) :
    Text.IsLine category.name.toList ∧
      ∃ c rest, category.name.toList = c :: rest ∧ Text.isBlank c = false ∧ c ≠ '\x7b' := by
  cases category <;> exact ⟨by decide, _, _, rfl, by decide, by decide⟩

/-- The definition fits on a line. -/
theorem isLine_definition : Text.IsLine source.definition.toList := by
  intro c hc
  simp only [toList_definition, List.mem_append, List.mem_cons] at hc
  rcases hc with hc | rfl | hc | rfl | hc | rfl | hc
  · exact (name_of_category source.category).1 c hc
  · rfl
  · exact source.nameFits.2 c hc
  · rfl
  · exact source.descriptionFits.2 c hc
  · rfl
  · exact source.colorFits c hc

/-- The definition starts with a visible character, which is no brace. -/
theorem definition_eq_cons :
    ∃ c rest, source.definition.toList = c :: rest ∧ Text.isBlank c = false ∧ c ≠ '\x7b' := by
  obtain ⟨-, c, rest, hname, hvisible, hbrace⟩ := name_of_category source.category
  rw [toList_definition, hname]
  exact ⟨c, _, List.cons_append, hvisible, hbrace⟩

/-- The definition is read as the counter without its samples. -/
theorem ofDefinition_definition :
    ofDefinition source.definition = .ok { source.counter clock with samples := [] } := by
  refine ofDefinition_eq_ok_iff.mpr ⟨source.color, ?_, source.nameFits.1, source.descriptionFits.1,
    GraphColor.eq_ofName?_iff.mp rfl, rfl⟩
  rw [source.isLine_definition.stripLineEnd_eq_self]
  rfl

end Definition

section Samples

variable {s : Int × Int × Int}

/-- The characters of the line of a sample. -/
theorem toList_sampleLine (s : Int × Int × Int) :
    (sampleLine s).toList =
      (toString s.1).toList ++
        ',' :: ((toString s.2.1).toList ++ ',' :: (toString s.2.2).toList) := by
  rw [sampleLine]
  simp only [String.toList_append, List.append_assoc]
  rfl

/-- The line of a sample has no blank. -/
theorem isBlank_of_mem_sampleLine (s : Int × Int × Int) :
    ∀ c ∈ (sampleLine s).toList, Text.isBlank c = false := by
  intro c hc
  simp only [toList_sampleLine, List.mem_append, List.mem_cons] at hc
  rcases hc with hc | rfl | hc | rfl | hc
  · exact (Numeral.isWritten_of_mem hc).isBlank_eq_false
  · decide
  · exact (Numeral.isWritten_of_mem hc).isBlank_eq_false
  · decide
  · exact (Numeral.isWritten_of_mem hc).isBlank_eq_false

/-- The line of a sample is read as the sample. -/
theorem sampleOfLine_sampleLine (hs : Numeral.hasText s.1 ∧
      s.2.1.natAbs ≤ Binary64.integerBound ∧ Numeral.hasText s.2.2) :
    sampleOfLine clock (sampleLine s) = .ok (sample clock s) := by
  have hstrip : Text.strip (sampleLine s) = sampleLine s := by
    rw [Text.strip, Text.trim_eq_self (isBlank_of_mem_sampleLine s), String.ofList_toList]
  obtain ⟨htick, hchange, hcount⟩ := hs
  exact sampleOfLine_eq_ok_iff.mpr ⟨toString s.1, toString s.2.1, toString s.2.2, s.1, _, hstrip,
    Numeral.comma_notMem_toString _, Numeral.comma_notMem_toString _,
    Numeral.readInteger_eq_ok_iff.mp (Numeral.readInteger_toString htick),
    Numeral.readDecimal_eq_ok_iff.mp (Numeral.readDecimal_toString hchange),
    Numeral.readInteger_eq_ok_iff.mp (Numeral.readInteger_toString hcount), rfl, rfl⟩

/-- The entry of a sample is read as the sample. -/
theorem sampleOfEntry_sampleEntry (hs : s.2.1.natAbs ≤ Binary64.integerBound) :
    sampleOfEntry clock (sampleEntry s) = .ok (sample clock s) := by
  have hchange : (Json.int s.2.1).toDecimal = _ := Binary64.decimalOfInteger_eq hs
  rw [sampleEntry, sampleOfEntry, sampleOfValues, hchange]
  rfl

end Samples

/-- What is written in lines is read. -/
theorem ofText_of_inLines {content : String} (h : source.InLines content) :
    ofText nesting clock content = .ok (source.counter clock) := by
  obtain ⟨lines, hcontent, hlines, hvisible⟩ := h
  have hends := Text.endsLine_joinLines lines
  obtain ⟨c, rest, hcons, hblank, hbrace⟩ := source.definition_eq_cons
  have hkind : isDocument content = false := by
    rw [isDocument, hcontent, hcons, List.cons_append,
      List.dropWhile_cons_of_neg (by simp [hblank])]
    exact beq_eq_false_iff_ne.mpr fun heq => hbrace (Option.some.inj heq)
  have hcut : Text.lines content =
      source.definition :: (Text.linesOfList (Text.joinLines lines)).tail.map String.ofList := by
    rw [Text.lines, hcontent, Text.linesOfList_append source.isLine_definition hends
      (hcons ▸ List.cons_ne_nil c rest), List.map_cons, String.ofList_toList]
  have hsamples : samplesOfLines clock
      ((Text.linesOfList (Text.joinLines lines)).tail.map String.ofList) =
        .ok (source.samples.map (sample clock)) := by
    have hkept : (fun line => !Text.isBlankText line) ∘ String.ofList =
        fun line => !line.all Text.isBlank := by
      funext line
      simp [Text.isBlankText]
    rw [samplesOfLines, List.filter_map, hkept, ← Text.visibleLines_eq_tail hends,
      Text.visibleLines_joinLines hlines, hvisible, List.map_map, mapM_eq_ok_iff,
      List.forall₂_map_left_iff, List.forall₂_map_right_iff, List.forall₂_same]
    intro s hs
    rw [Function.comp_apply, String.ofList_toList]
    exact sampleOfLine_sampleLine clock (source.samplesFit s hs)
  have hshown : Text.isBlankText source.definition = false := by
    rw [Text.isBlankText, hcons, List.all_cons, hblank, Bool.false_and]
  rw [ofText, hkind, if_neg Bool.false_ne_true, hcut, ofLines, hshown,
    source.ofDefinition_definition clock, hsamples]
  rfl

/-- What is written as a document is read. -/
theorem ofText_of_inDocument {content : String} (h : source.InDocument nesting content) :
    ofText nesting clock content = .ok (source.counter clock) := by
  obtain ⟨hkind, -, fields, hread, hname, hcategory, hdescription, hcolor, hsamples⟩ := h
  have hentries : samplesOfField clock (fields.lookup "samples") =
      .ok (source.samples.map (sample clock)) := by
    rw [hsamples, samplesOfField, mapM_eq_ok_iff, List.forall₂_map_left_iff,
      List.forall₂_map_right_iff, List.forall₂_same]
    exact fun s hs => sampleOfEntry_sampleEntry clock (source.samplesFit s hs).2.1
  have hvalue : categoryOfValue (.text source.category.name) = .ok source.category := by
    have hfound := CounterCategory.ofName?_eq_some_iff.mpr (rfl : source.category.name = _)
    rw [categoryOfValue, Json.text?, Option.bind_some, hfound]
  have hoptional (name text : String) (h : fields.lookup name = some (.text text)) :
      optionalText fields name = text := by
    rw [optionalText, h]
    change (if text.isEmpty then "" else text) = text
    by_cases hempty : text.isEmpty = true
    · rw [if_pos hempty, String.isEmpty_iff.mp hempty]
    · rw [if_neg hempty]
  rw [ofText, if_pos hkind, ofDocument, hread]
  dsimp only [Json.fields?]
  rw [ofFields, hname, hcategory]
  dsimp only
  rw [hvalue, hentries, hoptional _ _ hdescription, hoptional _ _ hcolor]
  rfl

end Source

/-- A counter that can be written in either form is read from both, as the same counter: with the
color that has the name given, if the palette has one, and with a sample for each one, at the time
of its tick, with its change exactly and its number of operations. -/
theorem ofText_agree (nesting : Nat) (clock : Clock) (source : Source) (lines document : String)
    (hlines : source.InLines lines) (hdocument : source.InDocument nesting document) :
    ∃ counter, ofText nesting clock lines = .ok counter ∧
      ofText nesting clock document = .ok counter ∧
      counter.name = source.name ∧ counter.category = source.category ∧
      counter.description = source.description ∧
      (∀ color, counter.color = some color ↔ color.name = source.color) ∧
      List.Forall₂ (fun s sample => sample.time = clock.convert s.1 ∧
        (∃ x, sample.value = .real x ∧ x.IsInteger s.2.1) ∧ sample.count = s.2.2)
        source.samples counter.samples := by
  refine ⟨source.counter clock, source.ofText_of_inLines nesting clock hlines,
    source.ofText_of_inDocument nesting clock hdocument, rfl, rfl, rfl, fun color => ?_, ?_⟩
  · exact GraphColor.ofName?_eq_some_iff
  rw [Source.counter, List.forall₂_map_right_iff, List.forall₂_same]
  exact fun s hs => ⟨rfl, ⟨_, rfl, Binary64.isInteger_ofQuotient (source.samplesFit s hs).2.1⟩, rfl⟩

/-- A counter of one sample. -/
def heapSource : Source where
  category := .memory
  name := "heap"
  description := ""
  color := "red"
  samples := [(5, -8, 1)]
  nameFits := by decide
  descriptionFits := by decide
  colorFits := by decide
  samplesFit := by
    intro s hs
    rw [List.mem_singleton.mp hs]
    decide +kernel

/-- The document of this counter has been read. -/
private def isHeapDocument : Except Json.Flaw Json → Bool
  | .ok (.object [(k₁, .text t₁), (k₂, .text t₂), (k₃, .text t₃), (k₄, .text t₄),
      (k₅, .list [.list [.int i, .int j, .int k]])]) =>
    [k₁, k₂, k₃, k₄, k₅] == ["name", "category", "description", "color", "samples"] &&
      [t₁, t₂, t₃, t₄] == ["heap", "Memory", "", "red"] && [i, j, k] == [5, -8, 1]
  | _ => false

/-- A counter with a red graph, written in both forms. -/
theorem ofText_agree_on_heap :
    let lines := "Memory,heap,,red\r\n\n5,-8,1\n"
    let document := "\x7b\"name\": \"heap\", \"category\": \"Memory\", " ++
      "\"description\": \"\", \"color\": \"red\", \"samples\": [[5, -8, 1]]\x7d"
    heapSource.InLines lines ∧ heapSource.InDocument 3 document ∧
      ∃ counter, ofText 3 ⟨1, 10⟩ lines = .ok counter ∧ ofText 3 ⟨1, 10⟩ document = .ok counter ∧
        counter.color = some .red ∧ counter.samples.map (·.time) = [40] := by
  intro lines document
  have hlines : heapSource.InLines lines := by
    refine ⟨[(.returnFeed, []), (.single '\n' rfl, "5,-8,1".toList), (.single '\n' rfl, [])],
      ?_, ?_, ?_⟩
    · decide
    · decide
    · decide
  have hdocument : heapSource.InDocument 3 document := by
    refine ⟨by decide, .inl (by decide +kernel), ?_⟩
    have hread : isHeapDocument (Json.read 3 document) = true := by decide +kernel
    unfold isHeapDocument at hread
    split at hread
    · rename_i heq
      simp only [Bool.and_eq_true, beq_iff_eq, List.cons.injEq, and_true] at hread
      obtain ⟨⟨⟨rfl, rfl, rfl, rfl, rfl⟩, rfl, rfl, rfl, rfl⟩, rfl, rfl, rfl⟩ := hread
      exact ⟨_, heq, rfl, rfl, rfl, rfl, rfl⟩
    · cases hread
  obtain ⟨counter, hfirst, hsecond, -, -, -, hcolor, hsamples⟩ :=
    ofText_agree 3 ⟨1, 10⟩ heapSource lines document hlines hdocument
  obtain ⟨sample, rest, hsample, hrest, hsame⟩ := List.forall₂_cons_left_iff.mp hsamples
  refine ⟨hlines, hdocument, counter, hfirst, hsecond, (hcolor .red).mpr rfl, ?_⟩
  rw [hsame, List.forall₂_nil_left_iff.mp hrest, List.map_singleton, hsample.1]
  rfl

end TraceProfile.Counter
