import TraceProfile.Counter.Document
import TraceProfile.Proofs.Fault
import TraceProfile.Proofs.Number.Conversion

/-!
# Documents that are no counters

A document is read as the counter that it states, with a sample for each entry, or it is refused as
a counter file. Only what is beyond all bounds does more harm: an integer with too many digits or a
list or object inside too many others anywhere in the document, an infinite tick or count, and an
integer beyond all decimals as a value end the reading with a failure of their own.
-/

namespace TraceProfile.Counter

/-- An entry of a document states a sample. -/
def EntryStates (clock : Clock) (entry : Json) (sample : CounterSample) : Prop :=
  ∃ tick value count time change number, entry = .list [tick, value, count] ∧
    tick.toInteger = .ok time ∧ value.toDecimal = .ok change ∧ count.toInteger = .ok number ∧
    sample = ⟨clock.convert time, .real change, number⟩

/-- The first number of an entry that cannot be read is one without range, and the failure that
comes of it. -/
inductive LacksRange : Json → Failure → Prop where
  /-- The tick is an infinity. -/
  | tick {tick value count : Json} (htick : tick.IsInfinite) :
    LacksRange (.list [tick, value, count]) .infiniteInteger
  /-- The value is an integer beyond all decimals. -/
  | value {tick value count : Json} {time : Int} (htick : tick.toInteger = .ok time)
    (hvalue : value.ExceedsDecimals) : LacksRange (.list [tick, value, count]) .decimalRange
  /-- The count is an infinity. -/
  | count {tick value count : Json} {time : Int} {change : Binary64}
    (htick : tick.toInteger = .ok time) (hvalue : value.toDecimal = .ok change)
    (hcount : count.IsInfinite) : LacksRange (.list [tick, value, count]) .infiniteInteger

/-- The entries of the list of samples; without the field there are none. -/
def entries? (fields : Json.Fields) : Option (List Json) :=
  match fields.lookup "samples" with
  | none => some []
  | some (.list entries) => some entries
  | some _ => none

/-- The fields name a counter, and its category is one that exists. -/
def Names (fields : Json.Fields) (name : Json) (category : CounterCategory) : Prop :=
  fields.lookup "name" = some name ∧ fields.lookup "category" = some (.text category.name)

/-- A document states a counter: it is an object that names it and says what it is about, which may
be the name of its color, and whose entries state its samples one by one. -/
def DocumentStates (nesting : Nat) (clock : Clock) (document : String) (counter : Counter) : Prop :=
  ∃ fields name entries, Json.read nesting document = .ok (.object fields) ∧
    Names fields name counter.category ∧ counter.name = name.asText ∧
    counter.description = optionalText fields "description" ∧
    (∀ color, counter.color = some color ↔ color.name = optionalText fields "color") ∧
    entries? fields = some entries ∧ List.Forall₂ (EntryStates clock) entries counter.samples

/-- A document fails outside its format, by an integer that is too long, by a list or object inside
too many others, or by an entry that lacks range where nothing before it is wrong. -/
inductive Escapes (nesting : Nat) (clock : Clock) (document : String) : Failure → Prop where
  /-- An integer has too many digits. -/
  | length {digits : Nat} (hread : Json.read nesting document = .error (.tooLong digits)) :
    Escapes nesting clock document (.integerLength digits)
  /-- A list or an object stands inside too many others. -/
  | depth {container : String} (hread : Json.read nesting document = .error (.tooDeep container)) :
    Escapes nesting clock document (.nesting container)
  /-- An entry lacks range. -/
  | range {fields : Json.Fields} {name entry : Json} {category : CounterCategory}
    {before after : List Json} {samples : List CounterSample} {failure : Failure}
    (hread : Json.read nesting document = .ok (.object fields))
    (hnames : Names fields name category)
    (hentries : entries? fields = some (before ++ entry :: after))
    (hbefore : List.Forall₂ (EntryStates clock) before samples)
    (hrange : LacksRange entry failure) : Escapes nesting clock document failure

section Entries

variable {clock : Clock} {entry : Json} {sample : CounterSample} {failure : Failure} {f : Fault}

/-- A fault is one of a sample if it is one of a wrong value. -/
theorem isBadValue_iff : isBadValue f = true ↔ f.IsBadValue := by
  rw [isBadValue, Bool.or_eq_true, beq_iff_eq, beq_iff_eq, Fault.IsBadValue]

/-- Three values are read as the sample that they state. -/
theorem sampleOfValues_eq_ok_iff {tick value count : Json} :
    sampleOfValues clock tick value count = .ok sample ↔
      EntryStates clock (.list [tick, value, count]) sample := by
  simp only [sampleOfValues, bind_eq_ok_iff, EntryStates, Json.list.injEq, List.cons.injEq,
    and_true]
  constructor
  · rintro ⟨time, htick, change, hvalue, number, hcount, hsample⟩
    exact ⟨_, _, _, time, change, number, ⟨rfl, rfl, rfl⟩, htick, hvalue, hcount,
      (Except.ok.inj hsample).symm⟩
  · rintro ⟨_, _, _, time, change, number, ⟨rfl, rfl, rfl⟩, htick, hvalue, hcount, rfl⟩
    exact ⟨time, htick, change, hvalue, number, hcount, rfl⟩

/-- An entry is read as the sample that it states. -/
theorem sampleOfEntry_eq_ok_iff :
    sampleOfEntry clock entry = .ok sample ↔ EntryStates clock entry sample := by
  unfold sampleOfEntry
  split
  · rename_i tick value count
    rw [← sampleOfValues_eq_ok_iff]
    cases sampleOfValues clock tick value count <;> simp [Except.mapError]
  · rename_i hentry
    refine iff_of_false (by simp) ?_
    rintro ⟨tick, value, count, -, -, -, rfl, -⟩
    exact hentry tick value count rfl

/-- Three values of which one cannot be read are wrong in value or type, or lack range. -/
theorem isBadValue_or_lacksRange {tick value count : Json}
    (h : sampleOfValues clock tick value count = .error f) :
    f.IsBadValue ∨ ∃ failure, f = .failure failure ∧
      LacksRange (.list [tick, value, count]) failure := by
  rcases bind_eq_error_iff.mp h with hbad | ⟨time, htick, h⟩
  · exact (Json.isBadValue_or_isInfinite hbad).imp_right fun ⟨hf, ht⟩ => ⟨_, hf, .tick ht⟩
  rcases bind_eq_error_iff.mp h with hbad | ⟨change, hvalue, h⟩
  · exact (Json.isBadValue_or_exceedsDecimals hbad).imp_right fun ⟨hf, hv⟩ =>
      ⟨_, hf, .value htick hv⟩
  rcases bind_eq_error_iff.mp h with hbad | ⟨number, -, h⟩
  · exact (Json.isBadValue_or_isInfinite hbad).imp_right fun ⟨hf, hc⟩ =>
      ⟨_, hf, .count htick hvalue hc⟩
  · cases h

/-- A number without range is reported as it is. -/
theorem sampleOfEntry_of_lacksRange (h : LacksRange entry failure) :
    sampleOfEntry clock entry = .error failure := by
  cases h with
  | tick htick =>
    rw [sampleOfEntry, sampleOfValues, Json.toInteger_of_isInfinite htick]
    rfl
  | value htick hvalue =>
    rw [sampleOfEntry, sampleOfValues, htick, Json.toDecimal_of_exceedsDecimals hvalue]
    rfl
  | count htick hvalue hcount =>
    rw [sampleOfEntry, sampleOfValues, htick, hvalue, Json.toInteger_of_isInfinite hcount]
    rfl

/-- Any other entry that cannot be read is refused. -/
theorem sampleOfEntry_eq_error (h : sampleOfEntry clock entry = .error f) :
    f = .refusal (.badSample entry.describe) ∨
      ∃ failure, f = .failure failure ∧ LacksRange entry failure := by
  by_cases hrange : ∃ failure, LacksRange entry failure
  · obtain ⟨failure, hrange⟩ := hrange
    rw [sampleOfEntry_of_lacksRange hrange] at h
    exact .inr ⟨failure, (Except.error.inj h).symm, hrange⟩
  · left
    unfold sampleOfEntry at h
    split at h
    · rename_i tick value count
      cases hvalues : sampleOfValues clock tick value count with
      | ok sample =>
        rw [hvalues] at h
        cases h
      | error reason =>
        have hbad := (isBadValue_or_lacksRange hvalues).resolve_right fun ⟨failure, _, hlacks⟩ =>
          hrange ⟨failure, hlacks⟩
        rw [hvalues, Except.mapError, if_pos (isBadValue_iff.mpr hbad)] at h
        exact (Except.error.inj h).symm
    · exact (Except.error.inj h).symm

end Entries

section Fields

variable {clock : Clock} {fields : Json.Fields} {counter : Counter} {samples : List CounterSample}
  {failure : Failure} {f : Fault}

/-- Only the text of its name is a category. -/
theorem categoryOfValue_eq_ok_iff {value : Json} {category : CounterCategory} :
    categoryOfValue value = .ok category ↔ value = .text category.name := by
  have hname : value.text?.bind CounterCategory.ofName? = some category ↔
      value = .text category.name := by
    cases value with
    | text s =>
      rw [Json.text?, Option.bind_some, CounterCategory.ofName?_eq_some_iff, Json.text.injEq,
        eq_comm]
    | _ => simp [Json.text?]
  rw [← hname, categoryOfValue]
  cases value.text?.bind CounterCategory.ofName? <;> simp

/-- The samples of an object are those of its entries. -/
theorem samplesOfField_eq_ok_iff :
    samplesOfField clock (fields.lookup "samples") = .ok samples ↔
      ∃ entries, entries? fields = some entries ∧
        List.Forall₂ (EntryStates clock) entries samples := by
  have hread (entries : List Json) : entries.mapM (sampleOfEntry clock) = .ok samples ↔
      List.Forall₂ (EntryStates clock) entries samples := by
    simp only [mapM_eq_ok_iff, sampleOfEntry_eq_ok_iff]
  rw [entries?]
  cases fields.lookup "samples" with
  | none => simp [samplesOfField, eq_comm]
  | some value =>
    cases value with
    | list entries => simp [samplesOfField, hread]
    | _ => simp [samplesOfField]

/-- The first entry that lacks range decides, if all before it are read. -/
theorem samplesOfField_of_lacksRange {entry : Json} {before after : List Json}
    (hentries : entries? fields = some (before ++ entry :: after))
    (hbefore : List.Forall₂ (EntryStates clock) before samples)
    (hrange : LacksRange entry failure) :
    samplesOfField clock (fields.lookup "samples") = .error failure := by
  have hread : (before ++ entry :: after).mapM (sampleOfEntry clock) = .error failure :=
    mapM_eq_error_iff.mpr ⟨before, entry, after, samples, rfl,
      hbefore.imp fun _ _ => sampleOfEntry_eq_ok_iff.mpr, sampleOfEntry_of_lacksRange hrange⟩
  unfold entries? at hentries
  split at hentries
  · simp at hentries
  · rename_i hlist
    cases hentries
    rw [hlist, samplesOfField, hread]
  · cases hentries

/-- Otherwise samples that cannot be read are refused. -/
theorem samplesOfField_eq_error
    (h : samplesOfField clock (fields.lookup "samples") = .error f) :
    f.kind = .counterFile ∨ ∃ before entry after samples failure,
      entries? fields = some (before ++ entry :: after) ∧
        List.Forall₂ (EntryStates clock) before samples ∧ LacksRange entry failure ∧
        f = .failure failure := by
  cases hfield : fields.lookup "samples" with
  | none =>
    rw [hfield] at h
    cases h
  | some value =>
    rw [hfield] at h
    cases value with
    | list entries =>
      obtain ⟨before, entry, after, samples, rfl, hbefore, hentry⟩ := mapM_eq_error_iff.mp h
      rcases sampleOfEntry_eq_error hentry with rfl | ⟨failure, hf, hrange⟩
      · exact .inl rfl
      · refine .inr ⟨before, entry, after, samples, failure, ?_, ?_, hrange, hf⟩
        · rw [entries?, hfield]
        · exact hbefore.imp fun _ _ => sampleOfEntry_eq_ok_iff.mp
    | _ =>
      cases h
      exact .inl rfl

/-- The fields of a counter that has a name and a category. -/
theorem ofFields_of_names {name : Json} {category : CounterCategory}
    (h : Names fields name category) :
    ofFields clock fields = (samplesOfField clock (fields.lookup "samples")).map fun samples =>
      ⟨name.asText, category, optionalText fields "description",
        GraphColor.ofName? (optionalText fields "color"), samples⟩ := by
  rw [ofFields, h.1, h.2]
  dsimp only
  rw [categoryOfValue_eq_ok_iff.mpr rfl]
  rfl

/-- Without a name or a category that exists the fields are refused. -/
theorem ofFields_of_not_names (h : ∀ name category, ¬ Names fields name category) :
    ∃ f, ofFields clock fields = .error f ∧ f.kind = .counterFile := by
  unfold ofFields
  split
  · rename_i name value hname hvalue
    cases hcategory : categoryOfValue value with
    | ok category =>
      exact absurd ⟨hname, categoryOfValue_eq_ok_iff.mp hcategory ▸ hvalue⟩ (h name category)
    | error f =>
      refine ⟨f, rfl, ?_⟩
      unfold categoryOfValue at hcategory
      split at hcategory <;> cases hcategory
      rfl
  · exact ⟨_, rfl, rfl⟩

end Fields

section Documents

variable {nesting : Nat} {clock : Clock} {document : String} {fields : Json.Fields}
  {counter : Counter} {failure : Failure} {f : Fault}

/-- No failure is told as a wrong counter file. -/
theorem kind_ne_counterFile (failure : Failure) : failure.kind ≠ .counterFile := by
  cases failure <;> exact FaultKind.noConfusion

/-- A document that is an object is read by its fields. -/
theorem ofDocument_of_object (h : Json.read nesting document = .ok (.object fields)) :
    ofDocument nesting clock document = ofFields clock fields := by
  rw [ofDocument, h]
  rfl

/-- A document is an object that names a counter, or escapes before it is an object, or is
refused. -/
theorem document_cases (nesting : Nat) (clock : Clock) (document : String) :
    (∃ fields name category, Json.read nesting document = .ok (.object fields) ∧
      Names fields name category) ∨
    (∃ failure : Failure, ofDocument nesting clock document = .error failure ∧
      Escapes nesting clock document failure) ∨
    ∃ f, ofDocument nesting clock document = .error f ∧ f.kind = .counterFile := by
  cases hread : Json.read nesting document with
  | error flaw =>
    cases flaw with
    | malformed => exact .inr (.inr ⟨_, by rw [ofDocument, hread], rfl⟩)
    | tooLong digits => exact .inr (.inl ⟨_, by rw [ofDocument, hread], .length hread⟩)
    | tooDeep container => exact .inr (.inl ⟨_, by rw [ofDocument, hread], .depth hread⟩)
  | ok value =>
    cases value with
    | object fields =>
      by_cases hnames : ∃ name category, Names fields name category
      · obtain ⟨name, category, hnames⟩ := hnames
        exact .inl ⟨fields, name, category, rfl, hnames⟩
      · rw [ofDocument_of_object hread]
        exact .inr (.inr (ofFields_of_not_names fun name category h => hnames ⟨name, category, h⟩))
    | _ => exact .inr (.inr ⟨_, by rw [ofDocument, hread]; rfl, rfl⟩)

/-- A document is read as the counter that it states. -/
theorem ofDocument_eq_ok_iff :
    ofDocument nesting clock document = .ok counter ↔
      DocumentStates nesting clock document counter := by
  constructor
  · intro h
    rcases document_cases nesting clock document with
      ⟨fields, name, category, hread, hnames⟩ | ⟨failure, hf, -⟩ | ⟨f, hf, -⟩
    · rw [ofDocument_of_object hread, ofFields_of_names hnames, map_eq_ok_iff] at h
      obtain ⟨samples, hsamples, rfl⟩ := h
      obtain ⟨entries, hentries, hstates⟩ := samplesOfField_eq_ok_iff.mp hsamples
      exact ⟨fields, name, entries, hread, hnames, rfl, rfl, GraphColor.eq_ofName?_iff.mp rfl,
        hentries, hstates⟩
    · rw [hf] at h
      cases h
    · rw [hf] at h
      cases h
  · rintro ⟨fields, name, entries, hread, hnames, hname, hdescription, hcolor, hentries, hstates⟩
    have hsamples := samplesOfField_eq_ok_iff.mpr ⟨entries, hentries, hstates⟩
    rw [ofDocument_of_object hread, ofFields_of_names hnames, hsamples, Except.map, ← hname,
      ← hdescription, ← GraphColor.eq_ofName?_iff.mpr hcolor]

/-- A document that fails outside its format ends in that failure. -/
theorem ofDocument_of_escapes (h : Escapes nesting clock document failure) :
    ofDocument nesting clock document = .error failure := by
  cases h with
  | length hread => rw [ofDocument, hread]
  | depth hread => rw [ofDocument, hread]
  | range hread hnames hentries hbefore hrange =>
    rw [ofDocument_of_object hread, ofFields_of_names hnames,
      samplesOfField_of_lacksRange hentries hbefore hrange]
    rfl

/-- A document that gives no counter is refused, unless it fails outside its format. -/
theorem ofDocument_eq_error (h : ofDocument nesting clock document = .error f) :
    f.kind = .counterFile ∨
      ∃ failure, f = .failure failure ∧ Escapes nesting clock document failure := by
  rcases document_cases nesting clock document with
    ⟨fields, name, category, hread, hnames⟩ | ⟨failure, hf, hescapes⟩ | ⟨f', hf, hkind⟩
  · rw [ofDocument_of_object hread, ofFields_of_names hnames] at h
    cases hsamples : samplesOfField clock (fields.lookup "samples") with
    | ok samples =>
      rw [hsamples] at h
      cases h
    | error f' =>
      rw [hsamples] at h
      cases h
      refine (samplesOfField_eq_error hsamples).imp_right ?_
      rintro ⟨before, entry, after, samples, failure, hentries, hbefore, hrange, hf⟩
      exact ⟨failure, hf, .range hread hnames hentries hbefore hrange⟩
  · rw [hf] at h
    exact .inr ⟨failure, (Except.error.inj h).symm, hescapes⟩
  · rw [hf] at h
    cases h
    exact .inl hkind

end Documents

/-- What becomes of a document, for a reader that follows it so many levels deep. It is read exactly
as the counter that it states, with one sample for each entry in their order. If it gives no counter
it is refused as a counter file, unless it escapes: that is if an integer in it has too many digits,
if a list or object in it stands inside too many others, or if the first entry that cannot be read
has an infinite tick or count, or as its value an integer beyond all decimals. Exactly then the
document ends in a failure, and never in one that is told as a wrong counter file. -/
theorem ofDocument_unless_escapes (nesting : Nat) (clock : Clock) (document : String) :
    (∀ counter, ofDocument nesting clock document = .ok counter ↔
      DocumentStates nesting clock document counter) ∧
    ((∀ failure, ¬ Escapes nesting clock document failure) →
      (∃ counter, ofDocument nesting clock document = .ok counter) ∨
        ∃ f, ofDocument nesting clock document = .error f ∧ f.kind = .counterFile) ∧
    ∀ failure, (ofDocument nesting clock document = .error (.failure failure) ↔
      Escapes nesting clock document failure) ∧ failure.kind ≠ .counterFile := by
  refine ⟨fun _ => ofDocument_eq_ok_iff, fun hescapes => ?_, fun failure =>
    ⟨⟨fun h => ?_, ofDocument_of_escapes⟩, kind_ne_counterFile failure⟩⟩
  · cases h : ofDocument nesting clock document with
    | ok counter => exact .inl ⟨counter, rfl⟩
    | error f =>
      refine .inr ⟨f, rfl, (ofDocument_eq_error h).resolve_right ?_⟩
      rintro ⟨failure, -, hescape⟩
      exact hescapes failure hescape
  · rcases ofDocument_eq_error h with hkind | ⟨failure', hf, hescape⟩
    · exact absurd hkind (kind_ne_counterFile failure)
    · cases hf
      exact hescape

/-- A document with these samples. -/
def heapDocument (samples : String) : String :=
  "\x7b\"name\": \"heap\", \"category\": \"Memory\", \"samples\": " ++ samples ++ "\x7d"

/-- Three levels are enough for samples. An entry with a list in it is refused by a reader that
follows it there, and ends the reading of any other. -/
theorem ofDocument_unless_escapes_of_heap :
    (DocumentStates 3 ⟨1, 10⟩ (heapDocument "[[5, 2, \"7\"], [6.5, true, -1]]")
      ⟨"heap", .memory, "", none, [⟨40, .real (.finite false (2 ^ 52) (-51)), 7⟩,
        ⟨50, .real (.finite false (2 ^ 52) (-52)), -1⟩]⟩) ∧
    (∀ failure, ¬ Escapes 4 ⟨1, 10⟩ (heapDocument "[[5, 2, 7], [NaN, [], 1]]") failure) ∧
    ofDocument 4 ⟨1, 10⟩ (heapDocument "[[5, 2, 7], [NaN, [], 1]]") =
      .error (.refusal (.badSample "[nan, [], 1]")) ∧
    Escapes 3 ⟨1, 10⟩ (heapDocument "[[5, 2, 7], [NaN, [], 1]]") (.nesting "array") := by
  obtain ⟨hread, -⟩ :=
    ofDocument_unless_escapes 3 ⟨1, 10⟩ (heapDocument "[[5, 2, \"7\"], [6.5, true, -1]]")
  obtain ⟨-, -, hfails⟩ :=
    ofDocument_unless_escapes 4 ⟨1, 10⟩ (heapDocument "[[5, 2, 7], [NaN, [], 1]]")
  obtain ⟨-, -, hdeep⟩ :=
    ofDocument_unless_escapes 3 ⟨1, 10⟩ (heapDocument "[[5, 2, 7], [NaN, [], 1]]")
  have hrefused : ofDocument 4 ⟨1, 10⟩ (heapDocument "[[5, 2, 7], [NaN, [], 1]]") =
      .error (.refusal (.badSample "[nan, [], 1]")) := by decide +kernel
  refine ⟨(hread _).mp (by decide +kernel), fun failure hescape => ?_, hrefused,
    (hdeep _).1.mp (by decide +kernel)⟩
  cases hrefused.symm.trans ((hfails failure).1.mpr hescape)

/-- An infinite tick is reported as a number without range, not as a wrong counter file. -/
theorem ofDocument_escapes_at_infinite_tick :
    ofDocument 3 ⟨0, 1⟩ (heapDocument "[[Infinity, 1, 1]]") = .error Failure.infiniteInteger := by
  decide +kernel

end TraceProfile.Counter
