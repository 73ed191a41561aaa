import Mathlib.Data.List.Basic
import TraceProfile.Counter.Lines
import TraceProfile.Proofs.Fault
import TraceProfile.Proofs.Number.DecimalForm
import TraceProfile.Proofs.Text.Cutting

/-!
# Lines that are a counter

A counter file in lines is read if its first line defines a counter and every other line is blank or
states a sample. In any other case it is refused as a counter file, wherever the line stands that
does not fit.
-/

namespace TraceProfile.Counter

/-- A line defines a counter without samples: without its line end it is the name of the category,
the name, the description and the color, with commas between them, of which the first three count.
-/
def Defines (line : String) (counter : Counter) : Prop :=
  ∃ color, Text.stripLineEnd line =
      counter.category.name ++ "," ++ counter.name ++ "," ++ counter.description ++ "," ++ color ∧
    ',' ∉ counter.name.toList ∧ ',' ∉ counter.description.toList ∧
    (∀ found, counter.color = some found ↔ found.name = color) ∧ counter.samples = []

/-- A line states a sample: without the blanks at its ends it is an integer, a decimal and another
integer, with commas between them, which are the tick, the value and the count. -/
def LineStates (clock : Clock) (line : String) (sample : CounterSample) : Prop :=
  ∃ tick value count time change, Text.strip line = tick ++ "," ++ value ++ "," ++ count ∧
    ',' ∉ tick.toList ∧ ',' ∉ value.toList ∧ Numeral.IntegerForm tick time ∧
    Numeral.DecimalForm value change ∧ Numeral.IntegerForm count sample.count ∧
    sample.time = clock.convert time ∧ sample.value = .real change

section Definition

variable {line : String} {counter : Counter} {f : Fault}

/-- The name of a category can stand between commas. -/
theorem comma_notMem_category (category : CounterCategory) : ',' ∉ category.name.toList := by
  cases category <;> decide

/-- A line is cut in four at its first three commas. -/
theorem splitAtMost_three_eq_iff {s category name description color : String} :
    Text.splitAtMost ',' 3 s = [category, name, description, color] ↔
      s = category ++ "," ++ name ++ "," ++ description ++ "," ++ color ∧
        ',' ∉ category.toList ∧ ',' ∉ name.toList ∧ ',' ∉ description.toList := by
  rw [Text.splitAtMost_eq_iff rfl, ← String.toList_inj]
  simp [List.intercalate]

/-- A category is found by its name only. -/
theorem categoryOf_eq_ok_iff {name : String} {category : CounterCategory} :
    categoryOf name = .ok category ↔ category.name = name := by
  rw [← CounterCategory.ofName?_eq_some_iff, categoryOf]
  cases CounterCategory.ofName? name <;> simp

/-- A line is taken for the counter that it defines. -/
theorem ofDefinition_eq_ok_iff : ofDefinition line = .ok counter ↔ Defines line counter := by
  constructor
  · intro h
    unfold ofDefinition at h
    split at h
    · rename_i category name description color hparts
      obtain ⟨category, hcategory, rfl⟩ := map_eq_ok_iff.mp h
      obtain rfl := categoryOf_eq_ok_iff.mp hcategory
      obtain ⟨hline, -, hname, hdescription⟩ := splitAtMost_three_eq_iff.mp hparts
      exact ⟨color, hline, hname, hdescription, GraphColor.eq_ofName?_iff.mp rfl, rfl⟩
    · cases h
  · rintro ⟨color, hline, hname, hdescription, hcolor, hsamples⟩
    have hparts : Text.splitAtMost ',' 3 (Text.stripLineEnd line) =
        [counter.category.name, counter.name, counter.description, color] :=
      splitAtMost_three_eq_iff.mpr
        ⟨hline, comma_notMem_category _, hname, hdescription⟩
    rw [ofDefinition, hparts]
    dsimp only
    rw [categoryOf_eq_ok_iff.mpr rfl, Except.map, ← GraphColor.eq_ofName?_iff.mpr hcolor,
      ← hsamples]

/-- A line that defines no counter is refused. -/
theorem kind_of_ofDefinition (h : ofDefinition line = .error f) : f.kind = .counterFile := by
  unfold ofDefinition at h
  split at h
  · rename_i category name description color hparts
    cases hcategory : categoryOf category with
    | ok category =>
      rw [hcategory] at h
      cases h
    | error reason =>
      rw [hcategory] at h
      cases h
      unfold categoryOf at hcategory
      split at hcategory <;> cases hcategory
      rfl
  · cases h
    rfl

/-- A line defines a counter if it has at least three commas, and in front of the first one the name
of a category. -/
theorem exists_defines_iff :
    (∃ counter, Defines line counter) ↔ 3 ≤ line.toList.count ',' ∧
      ∃ (category : CounterCategory) (rest : List Char),
        line.toList = category.name.toList ++ ',' :: rest := by
  obtain ⟨ending, hline, hending⟩ :=
    Text.eq_trimEnd_append (fun c => c == '\r' || c == '\n') line.toList
  have hstrip : (Text.stripLineEnd line).toList =
      Text.trimEnd (fun c => c == '\r' || c == '\n') line.toList := String.toList_ofList
  rw [← hstrip] at hline
  have hcount : line.toList.count ',' = (Text.stripLineEnd line).toList.count ',' := by
    rw [hline, List.count_append,
      List.count_eq_zero_of_not_mem fun h => absurd (hending _ h) (by decide), Nat.add_zero]
  constructor
  · rintro ⟨counter, color, hparts, -⟩
    rw [hcount, hline, hparts]
    refine ⟨?_, counter.category, _, by simp; rfl⟩
    simp [List.count_append]
    omega
  · rintro ⟨hcommas, category, rest, hcategory⟩
    have hlength : (Text.splitAtMost ',' 3 (Text.stripLineEnd line)).length = 4 := by
      rw [Text.splitAtMost, List.length_map, Text.length_splitList, ← hcount]
      omega
    obtain ⟨first, name, description, color, hparts⟩ := List.length_eq_four.mp hlength
    obtain ⟨hstripped, hfirst, hname, hdescription⟩ := splitAtMost_three_eq_iff.mp hparts
    have hcut : Text.cutList? ',' line.toList = some (first.toList, _) :=
      Text.cutList?_eq_some_iff.mpr ⟨by rw [hline, hstripped]; simp; rfl, hfirst⟩
    rw [hcategory, Text.cutList?_append (comma_notMem_category category), Option.some.injEq,
      Prod.mk.injEq, String.toList_inj] at hcut
    obtain ⟨rfl, -⟩ := hcut
    exact ⟨⟨name, category, description, GraphColor.ofName? color, []⟩, color, hstripped, hname,
      hdescription, GraphColor.eq_ofName?_iff.mp rfl, rfl⟩

/-- A line that defines a counter is not blank. -/
theorem Defines.isBlankText_eq_false (h : Defines line counter) :
    Text.isBlankText line = false := by
  obtain ⟨-, category, rest, hline⟩ := exists_defines_iff.mp ⟨counter, h⟩
  rw [Text.isBlankText, hline]
  cases category <;> rfl

end Definition

section Samples

variable {clock : Clock} {line : String} {rest : List String} {sample : CounterSample} {f : Fault}

/-- A line is taken for the sample that it states. -/
theorem sampleOfLine_eq_ok_iff :
    sampleOfLine clock line = .ok sample ↔ LineStates clock line sample := by
  constructor
  · intro h
    unfold sampleOfLine at h
    split at h
    · rename_i tick value count hparts
      obtain ⟨hline, htick, hvalue⟩ := (Text.splitAtMost_two_eq_iff "," rfl).mp hparts
      split at h
      · rename_i time change number htime hchange hnumber
        cases h
        exact ⟨tick, value, count, time, change, hline, htick, hvalue,
          Numeral.readInteger_eq_ok_iff.mp htime, Numeral.readDecimal_eq_ok_iff.mp hchange,
          Numeral.readInteger_eq_ok_iff.mp hnumber, rfl, rfl⟩
      · cases h
    · cases h
  · rintro ⟨tick, value, count, time, change, hline, htick, hvalue, htime, hchange, hnumber,
      hconverted, hreal⟩
    have hparts : Text.splitAtMost ',' 2 (Text.strip line) = [tick, value, count] :=
      (Text.splitAtMost_two_eq_iff "," rfl).mpr ⟨hline, htick, hvalue⟩
    rw [sampleOfLine, hparts]
    simp only [Numeral.readInteger_eq_ok_iff.mpr htime, Numeral.readDecimal_eq_ok_iff.mpr hchange,
      Numeral.readInteger_eq_ok_iff.mpr hnumber, ← hconverted, ← hreal]

/-- A line that states no sample is refused. -/
theorem kind_of_sampleOfLine (h : sampleOfLine clock line = .error f) : f.kind = .counterFile := by
  unfold sampleOfLine at h
  split at h
  · split at h <;> cases h
    rfl
  · cases h
    rfl

/-- Lines are taken for the samples that the visible ones state. -/
theorem samplesOfLines_eq_ok_iff {samples : List CounterSample} :
    samplesOfLines clock rest = .ok samples ↔
      List.Forall₂ (LineStates clock) (rest.filter (!Text.isBlankText ·)) samples := by
  simp only [samplesOfLines, mapM_eq_ok_iff, sampleOfLine_eq_ok_iff]

/-- There are samples if every line that is not blank states one. -/
theorem exists_samplesOfLines_iff :
    (∃ samples, samplesOfLines clock rest = .ok samples) ↔
      ∀ line ∈ rest, Text.isBlankText line = false → ∃ sample, LineStates clock line sample := by
  constructor
  · rintro ⟨samples, hsamples⟩ line hline hvisible
    obtain ⟨sample, hsample⟩ :=
      exists_of_mapM_eq_ok hsamples (List.mem_filter.mpr ⟨hline, by rw [hvisible]; rfl⟩)
    exact ⟨sample, sampleOfLine_eq_ok_iff.mp hsample⟩
  · intro hstates
    cases hsamples : samplesOfLines clock rest with
    | ok samples => exact ⟨samples, rfl⟩
    | error f =>
      obtain ⟨before, line, after, -, hsplit, -, hline⟩ := mapM_eq_error_iff.mp hsamples
      have hmem : line ∈ rest.filter (!Text.isBlankText ·) := by simp [hsplit]
      obtain ⟨hrest, hvisible⟩ := List.mem_filter.mp hmem
      obtain ⟨sample, hsample⟩ := hstates line hrest (by simpa using hvisible)
      rw [sampleOfLine_eq_ok_iff.mpr hsample] at hline
      cases hline

/-- Lines of which one states no sample are refused. -/
theorem kind_of_samplesOfLines (h : samplesOfLines clock rest = .error f) :
    f.kind = .counterFile := by
  obtain ⟨-, line, -, -, -, -, hline⟩ := mapM_eq_error_iff.mp h
  exact kind_of_sampleOfLine hline

end Samples

section Files

variable {clock : Clock} {lines : List String} {counter : Counter} {f : Fault}

/-- A counter is read from exactly those lines that define it and state its samples. -/
theorem ofLines_eq_ok_iff :
    ofLines clock lines = .ok counter ↔ ∃ definition rest, lines = definition :: rest ∧
      Defines definition { counter with samples := [] } ∧
      List.Forall₂ (LineStates clock) (rest.filter (!Text.isBlankText ·)) counter.samples := by
  constructor
  · intro h
    cases lines with
    | nil => cases h
    | cons definition rest =>
      refine ⟨definition, rest, rfl, ?_⟩
      rw [ofLines] at h
      split at h
      · cases h
      · obtain ⟨header, hheader, h⟩ := bind_eq_ok_iff.mp h
        obtain ⟨samples, hsamples, h⟩ := bind_eq_ok_iff.mp h
        cases h
        obtain ⟨color, hline, hname, hdescription, hcolor, -⟩ := ofDefinition_eq_ok_iff.mp hheader
        exact ⟨⟨color, hline, hname, hdescription, hcolor, rfl⟩,
          samplesOfLines_eq_ok_iff.mp hsamples⟩
  · rintro ⟨definition, rest, rfl, hdefines, hsamples⟩
    rw [ofLines, hdefines.isBlankText_eq_false, ofDefinition_eq_ok_iff.mpr hdefines,
      samplesOfLines_eq_ok_iff.mpr hsamples]
    rfl

/-- Lines that are no counter are refused. -/
theorem kind_of_ofLines (h : ofLines clock lines = .error f) : f.kind = .counterFile := by
  cases lines with
  | nil =>
    cases h
    rfl
  | cons definition rest =>
    rw [ofLines] at h
    split at h
    · cases h
      rfl
    · rcases bind_eq_error_iff.mp h with hheader | ⟨header, -, h⟩
      · exact kind_of_ofDefinition hheader
      · rcases bind_eq_error_iff.mp h with hsamples | ⟨samples, -, h⟩
        · exact kind_of_samplesOfLines hsamples
        · cases h

/-- Lines are a counter if the first one defines it and no other fails to state a sample. -/
theorem exists_ofLines_iff :
    (∃ counter, ofLines clock lines = .ok counter) ↔ ∃ definition rest, lines = definition :: rest ∧
      (∃ header, Defines definition header) ∧
      ∀ line ∈ rest, Text.isBlankText line = false → ∃ sample, LineStates clock line sample := by
  simp only [ofLines_eq_ok_iff, ← exists_samplesOfLines_iff, samplesOfLines_eq_ok_iff]
  constructor
  · rintro ⟨counter, definition, rest, hlines, hdefines, hsamples⟩
    exact ⟨definition, rest, hlines, ⟨_, hdefines⟩, _, hsamples⟩
  · rintro ⟨definition, rest, hlines, ⟨header, color, hline, hname, hdescription, hcolor, -⟩,
      samples, hsamples⟩
    exact ⟨{ header with samples }, definition, rest, hlines,
      ⟨color, hline, hname, hdescription, hcolor, rfl⟩, hsamples⟩

end Files

/-- The lines of a counter file are accepted exactly by their grammar: the first one has at least
three commas and in front of them the name of a category, and every other one is blank or states a
sample. The counter is the one that the first line defines, with a sample for each line that is not
blank, in the order of the lines. All other lines are refused as a counter file, wherever the line
stands that does not fit. Blank lines behind the first one make no difference. -/
theorem ofLines_accepts_grammar (clock : Clock) (lines : List String) :
    ((∃ counter, ofLines clock lines = .ok counter) ↔
      ∃ definition rest, lines = definition :: rest ∧ 3 ≤ definition.toList.count ',' ∧
        (∃ (category : CounterCategory) (after : List Char),
          definition.toList = category.name.toList ++ ',' :: after) ∧
        ∀ line ∈ rest, Text.isBlankText line = false → ∃ sample, LineStates clock line sample) ∧
    (∀ counter, ofLines clock lines = .ok counter ↔ ∃ definition rest, lines = definition :: rest ∧
      Defines definition { counter with samples := [] } ∧
      List.Forall₂ (LineStates clock) (rest.filter (!Text.isBlankText ·)) counter.samples) ∧
    (∀ f, ofLines clock lines = .error f → f.kind = .counterFile) ∧
    (∀ definition before line after, lines = definition :: (before ++ line :: after) →
      Text.isBlankText line = false → (∀ sample, ¬ LineStates clock line sample) →
        ∃ f, ofLines clock lines = .error f) ∧
    ∀ definition rest rest', lines = definition :: rest →
      rest'.filter (!Text.isBlankText ·) = rest.filter (!Text.isBlankText ·) →
        ofLines clock (definition :: rest') = ofLines clock lines := by
  refine ⟨?_, fun counter => ofLines_eq_ok_iff, fun f => kind_of_ofLines, ?_, ?_⟩
  · rw [exists_ofLines_iff]
    simp only [exists_defines_iff, and_assoc]
  · rintro definition before line after rfl hvisible hstates
    cases h : ofLines clock (definition :: (before ++ line :: after)) with
    | error f => exact ⟨f, rfl⟩
    | ok counter =>
      obtain ⟨definition', rest, hlines, -, hsamples⟩ := exists_ofLines_iff.mp ⟨counter, h⟩
      cases hlines
      obtain ⟨sample, hsample⟩ := hsamples line (by simp) hvisible
      exact absurd hsample (hstates sample)
  · rintro definition rest rest' rfl hvisible
    rw [ofLines, ofLines, samplesOfLines, samplesOfLines, hvisible]

/-- The lines of a counter whose color has a comma, with a blank line before its sample. -/
def loadLines : List String := ["CPU,load,,red,blue\r\n", " \t", "+1_0 , 2.5e-1, -3\n"]

/-- The counter of these lines. -/
def loadCounter : Counter :=
  ⟨"load", .cpu, "", none, [⟨10, .real (.finite false (2 ^ 52) (-54)), -3⟩]⟩

/-- The counter is read with the blank line and without it. With a line that states no sample there
is no counter. -/
theorem ofLines_accepts_grammar_of_load :
    ofLines ⟨5, 2⟩ loadLines = .ok loadCounter ∧
      Defines "CPU,load,,red,blue\r\n" { loadCounter with samples := [] } ∧
      List.Forall₂ (LineStates ⟨5, 2⟩) ["+1_0 , 2.5e-1, -3\n"] loadCounter.samples ∧
      ofLines ⟨5, 2⟩ ["CPU,load,,red,blue\r\n", "+1_0 , 2.5e-1, -3\n"] = .ok loadCounter ∧
      ∃ f, ofLines ⟨5, 2⟩ (loadLines ++ ["20,inf,1,"]) = .error f ∧ f.kind = .counterFile := by
  have hload : ofLines ⟨5, 2⟩ loadLines = .ok loadCounter := by decide +kernel
  obtain ⟨-, hread, -, -, hblank⟩ := ofLines_accepts_grammar ⟨5, 2⟩ loadLines
  obtain ⟨definition, rest, hlines, hdefines, hsamples⟩ := (hread _).mp hload
  cases hlines
  obtain ⟨-, -, hkind, hmalformed, -⟩ :=
    ofLines_accepts_grammar ⟨5, 2⟩ (loadLines ++ ["20,inf,1,"])
  have hunstated (sample : CounterSample) : ¬ LineStates ⟨5, 2⟩ "20,inf,1," sample := by
    intro hstates
    have hrefused : sampleOfLine ⟨5, 2⟩ "20,inf,1," =
        .error (.refusal (.badSample "'20,inf,1,'")) := by decide +kernel
    cases hrefused.symm.trans (sampleOfLine_eq_ok_iff.mpr hstates)
  obtain ⟨f, hf⟩ := hmalformed _ loadLines.tail "20,inf,1," [] rfl (by decide) hunstated
  refine ⟨hload, hdefines, hsamples, ?_, f, hf, hkind f hf⟩
  exact (hblank _ _ _ rfl rfl).trans hload

end TraceProfile.Counter
