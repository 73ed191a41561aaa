import TraceProfile.Proofs.Assembly.Export
import TraceProfile.Proofs.Profile.Reflection

/-!
# References in an export

If every handle that was passed to a profile had been answered by it, then the export succeeds, and
it can be written from the ledger of the calls alone: everything stands in the order of the calls
with the texts that were passed, and every category is one of those that are exported. Only in the
data of a marker a value can be missing. Data is a flat object, so of fields with the same key only
the last one is seen.
-/

namespace TraceProfile

/-- A frame in a document. -/
def ShownFrame.document (frame : ShownFrame) : Json :=
  .object
    [("kind", .text frame.kind.name), ("category", .int frame.category),
     ("address", .int frame.address), ("lib", .ofText? frame.library),
     ("relative_address", .ofInt? frame.offset), ("label", .ofText? frame.label)]

/-- A sample in a document. -/
def ShownSample.document (sample : ShownSample) : Json :=
  .object
    [("time", .int sample.time), ("cpu_delta", .int sample.delta),
     ("weight", .int sample.weight), ("frames", .list (sample.frames.map ShownFrame.document))]

/-- The value of a field in a document. -/
def ShownValue.document : ShownValue → Json
  | text s => .text s
  | number amount => .ofAmount amount

namespace ShownMarker

/-- Fields are put into the data of a marker. -/
def putFields (fields : List (FieldSchema × ShownValue)) (data : Json.Fields) : Json.Fields :=
  fields.foldl (fun data entry => Assoc.insert entry.1.key entry.2.document data) data

/-- The data of a marker: its type name and its fields. -/
def data (m : ShownMarker) : Json.Fields := putFields m.fields [("type", .text m.typeName)]

/-- A marker in a document. -/
def document (m : ShownMarker) : Json :=
  .object
    [("name", .text m.name), ("category", .int m.category), ("start", .int m.timing.start),
     ("end", .ofInt? m.timing.stop), ("data", .object m.data),
     ("stack", m.stack.elim .null fun frames => .list (frames.map ShownFrame.document))]

/-- Fields leave what the data has under another key. -/
theorem lookup_putFields {fields : List (FieldSchema × ShownValue)} {key : String}
    (h : ∀ entry ∈ fields, entry.1.key ≠ key) (data : Json.Fields) :
    (putFields fields data).lookup key = data.lookup key := by
  induction fields generalizing data with
  | nil => rfl
  | cons entry fields ih =>
    obtain ⟨hentry, hfields⟩ := List.forall_mem_cons.mp h
    rw [putFields, List.foldl_cons, ← putFields, ih hfields, Assoc.lookup_insert,
      if_neg (by simpa using hentry.symm)]

/-- The value of a field is found under its key if no later field has this key. -/
theorem lookup_data {m : ShownMarker} {before after : List (FieldSchema × ShownValue)}
    {field : FieldSchema} {value : ShownValue}
    (hfields : m.fields = before ++ (field, value) :: after)
    (hlast : ∀ later ∈ after, later.1.key ≠ field.key) :
    m.data.lookup field.key = some value.document := by
  have hsplit : m.data = putFields after
      (Assoc.insert field.key value.document (putFields before [("type", .text m.typeName)])) := by
    rw [data, hfields, putFields, List.foldl_append, List.foldl_cons]
    rfl
  rw [hsplit, lookup_putFields hlast, Assoc.lookup_insert, if_pos (beq_self_eq_true _)]

end ShownMarker

/-- A thread in a document. -/
def ShownThread.document (t : ShownThread) : Json :=
  .object
    [("pid", t.pid.document), ("tid", t.tid.document), ("name", .text t.name),
     ("is_main", .bool t.isMain), ("samples", .list (t.samples.map ShownSample.document)),
     ("markers", .list (t.markers.map (·.2.document)))]

/-- The categories that a reader sees in a thread. -/
def ShownThread.categories (t : ShownThread) : List Int :=
  t.samples.flatMap (fun sample => sample.frames.map (·.category)) ++
    t.markers.flatMap (·.2.categories)

/-- A counter track in a document, under the number that the system gave its process. -/
def CounterTrack.shown (pid : SystemId) (track : CounterTrack) : Json :=
  .object
    [("pid", pid.document), ("name", .text track.name), ("category", .text track.category.name),
     ("description", .text track.description), ("color", .ofColor? track.color),
     ("samples", .list (track.samples.map fun (time, value, count) =>
       .object [("time", .int time), ("value", .ofAmount value), ("count", .int count)]))]

/-- A document shows what the ledger holds. -/
structure Ledger.ShownIn (l : Ledger) (document : Json.Fields) : Prop where
  /-- The processes. -/
  processes : document.lookup "processes" = some (.list (l.processes.map fun (_, pid, name) =>
    .object [("pid", pid.document), ("name", .text name)]))
  /-- The threads with their samples and markers. -/
  threads : document.lookup "threads" = some (.list (l.threads.map (·.2.document)))
  /-- The counter tracks. -/
  counters : document.lookup "counters" =
    some (.list (l.counters.map fun (_, pid, track) => track.shown pid))
  /-- The value of a field stands under its key in the data of its marker, unless a later field
  has the same key. -/
  values : ∀ entry ∈ l.threads, ∀ m ∈ entry.2.markers, ∀ before field value after,
    m.2.fields = before ++ (field, value) :: after →
      (∀ later ∈ after, later.1.key ≠ field.key) →
        ∃ data, m.2.document.field? "data" = some (.object data) ∧
          data.lookup field.key = some value.document
  /-- A category is a place in the list of categories. -/
  categories : ∃ categories, document.lookup "categories" = some (.list categories) ∧
    ∀ entry ∈ l.threads, ∀ category ∈ entry.2.categories,
      0 ≤ category ∧ category < categories.length

namespace Profile

variable {p : Profile} {l : Ledger}

/-- The document of a frame shows what the frame is read back as. -/
theorem frameDocument_of_shown {frame : StoredFrame} {shown : ShownFrame}
    (h : p.showFrame frame = .ok shown) : p.frameDocument frame = .ok shown.document := by
  obtain ⟨library, label, hlibrary, hlabel, rfl⟩ := showFrame_eq_ok_iff.mp h
  rw [frameDocument, hlibrary, hlabel]
  rfl

/-- The document of a stack shows what its frames are read back as, in their order. -/
theorem stackDocument_of_shown {frames : List StoredFrame} {shown : List ShownFrame}
    (h : frames.mapM p.showFrame = .ok shown) :
    p.stackDocument frames = .ok (.list (shown.map ShownFrame.document)) := by
  rw [stackDocument, mapM_eq_ok_map h fun _ _ => frameDocument_of_shown]
  rfl

/-- The document of a sample shows what the sample is read back as. -/
theorem sampleDocument_of_shown {sample : StoredSample} {shown : ShownSample}
    (h : p.showSample sample = .ok shown) : p.sampleDocument sample = .ok shown.document := by
  obtain ⟨frames, hframes, rfl⟩ := showSample_eq_ok_iff.mp h
  rw [sampleDocument, stackDocument_of_shown hframes]
  rfl

/-- The document of a value shows what the value is read back as. -/
theorem valueDocument_of_shown {format : FieldFormat} {value : FieldValue} {shown : ShownValue}
    (h : p.showValue format value = .ok shown) :
    p.valueDocument format value = .ok shown.document := by
  by_cases hformat : format = .text
  · cases value with
    | text handle =>
      rw [showValue, if_pos hformat] at h
      obtain ⟨text, htext, rfl⟩ := map_eq_ok_iff.mp h
      rw [valueDocument, if_pos hformat, htext]
      rfl
    | number amount =>
      rw [showValue, if_pos hformat] at h
      cases h
  · cases value with
    | text handle =>
      rw [showValue, if_neg hformat] at h
      cases h
      exact if_neg hformat
    | number amount =>
      rw [showValue, if_neg hformat] at h
      cases h
      exact if_neg hformat

/-- The fields of a marker go into its data one after the other, each under its key. -/
theorem dataFields_of_shown {entries : List (FieldSchema × FieldValue)}
    {shown : List (FieldSchema × ShownValue)}
    (h : List.Forall₂ (fun entry shown => shown.1 = entry.1 ∧
      p.showValue entry.1.format entry.2 = .ok shown.2) entries shown) (data : Json.Fields) :
    p.dataFields data entries = .ok (ShownMarker.putFields shown data) := by
  induction h generalizing data with
  | nil => rfl
  | @cons entry shown _ _ hfirst _ ih =>
    obtain ⟨field, value⟩ := entry
    obtain ⟨_, shown⟩ := shown
    obtain ⟨rfl, hvalue⟩ := hfirst
    rw [dataFields, valueDocument_of_shown hvalue]
    exact ih _

/-- The document of a marker shows what the ledger holds of it. -/
theorem markerDocument_of_reflects {s : StoredMarker} {m : ShownMarker} (h : s.Reflects p l m) :
    p.markerDocument s = .ok m.document := by
  obtain ⟨schema, hschema, hname, hfields⟩ := h.fields
  have hentry : PayloadBody.entry p.schemas.entries s.schema = .ok schema := by
    rw [PayloadBody.entry, ← Catalogue.get?, hschema]
  have hdata : p.dataDocument schema s.values = .ok (.object m.data) := by
    rw [dataDocument, ← hname, dataFields_of_shown hfields]
    rfl
  have hstack := h.stack
  rw [markerDocument, hentry]
  refine bind_eq_ok_iff.mpr ⟨schema, rfl, bind_eq_ok_iff.mpr ⟨_, hdata, ?_⟩⟩
  refine bind_eq_ok_iff.mpr ⟨m.name, h.name, ?_⟩
  rw [ShownMarker.document, h.timing, h.category]
  generalize s.stack = frames, m.stack = shown at hstack ⊢
  cases hstack with
  | none => rfl
  | some hframes => exact bind_eq_ok_iff.mpr ⟨_, stackDocument_of_shown hframes, rfl⟩

namespace Reflects

/-- The process of a handle that has an entry. -/
theorem entry_processes (h : p.Reflects l) {handle : Nat} {pid : SystemId} {name : String}
    (hmem : (handle, pid, name) ∈ l.processes) :
    ∃ o, PayloadBody.entry p.processes handle = .ok o ∧ o.pid = pid := by
  obtain ⟨i, o, rfl, ho, hsame⟩ := h.processes.exists_of_mem hmem
  cases hsame
  exact ⟨o, by rw [PayloadBody.entry, ho], rfl⟩

/-- The document of a thread shows what the ledger holds of it, with the process that owns it. -/
theorem threadDocument (h : p.Reflects l) {handle : Nat} {t : Thread} {shown : ShownThread}
    (ht : Thread.Reflects p l handle t shown) : p.threadDocument t = .ok shown.document := by
  obtain ⟨name, hname⟩ := ht.owner
  obtain ⟨o, ho, hpid⟩ := h.entry_processes hname
  have hsamples := mapM_eq_ok_map ht.samples fun _ _ => sampleDocument_of_shown
  have hmarkers : t.markers.mapM p.markerDocument = .ok (shown.markers.map (·.2.document)) :=
    mapM_eq_ok_iff.mpr (List.forall₂_map_right_iff.mpr
      (ht.markers.forall₂.imp fun _ _ => markerDocument_of_reflects))
  rw [Profile.threadDocument, ho]
  refine bind_eq_ok_iff.mpr ⟨o, rfl, bind_eq_ok_iff.mpr ⟨_, hsamples, ?_⟩⟩
  refine bind_eq_ok_iff.mpr ⟨_, hmarkers, ?_⟩
  rw [ShownThread.document, ht.tid, ht.name, ht.isMain, hpid]
  rfl

/-- The document of a counter shows its track, with the process that owns it. -/
theorem counterDocument (h : p.Reflects l) {track : CounterTrack} {pid : SystemId}
    (hpid : ∃ name, (track.process, pid, name) ∈ l.processes) :
    p.counterDocument track = .ok (track.shown pid) := by
  obtain ⟨name, hname⟩ := hpid
  obtain ⟨o, ho, rfl⟩ := h.entry_processes hname
  rw [Profile.counterDocument, ho]
  rfl

/-- The categories that a reader sees are places in the list of categories. -/
theorem categories_lt (h : p.Reflects l) {entry : Nat × ShownThread} (hentry : entry ∈ l.threads)
    {category : Int} (hcategory : category ∈ entry.2.categories) :
    0 ≤ category ∧ category < p.categories.size := by
  obtain ⟨_, t, -, -, ht⟩ := h.threads.exists_of_mem hentry
  have hknown : l.HasCategory category := by
    rcases List.mem_append.mp hcategory with hsample | hmarker
    · obtain ⟨sample, hmem, hcategory⟩ := List.mem_flatMap.mp hsample
      obtain ⟨frame, hframe, rfl⟩ := List.mem_map.mp hcategory
      exact ht.known sample hmem frame hframe
    · obtain ⟨m, hmem, hm⟩ := List.mem_flatMap.mp hmarker
      obtain ⟨_, s, -, -, hs⟩ := ht.markers.exists_of_mem hmem
      exact hs.known category hm
  obtain ⟨handle, hhandle, rfl⟩ := hknown
  have hlt := h.categories handle hhandle
  omega

/-- A profile that reflects a ledger is exported, and the export shows the ledger. -/
theorem document_spec (h : p.Reflects l) :
    ∃ document, p.document = .ok (.object document) ∧ l.ShownIn document := by
  have hthreads : p.threads.mapM p.threadDocument = .ok (l.threads.map (·.2.document)) :=
    mapM_eq_ok_iff.mpr (List.forall₂_map_right_iff.mpr
      (h.threads.forall₂.imp fun _ _ => h.threadDocument))
  have hcounters : p.counters.mapM p.counterDocument =
      .ok (l.counters.map fun (_, pid, track) => track.shown pid) := by
    refine mapM_eq_ok_iff.mpr (List.forall₂_map_right_iff.mpr (h.counters.forall₂.imp ?_))
    rintro track ⟨_, pid, _⟩ ⟨rfl, hpid⟩
    exact h.counterDocument hpid
  have hprocesses : (p.processes.map fun process =>
      Json.object [("pid", process.pid.document), ("name", .text process.name)]) =
      l.processes.map fun (_, pid, name) =>
        .object [("pid", pid.document), ("name", .text name)] := by
    refine List.forall₂_eq_eq_eq ▸ List.forall₂_map_left_iff.mpr
      (List.forall₂_map_right_iff.mpr (h.processes.forall₂.imp ?_))
    rintro process ⟨_, pid, name⟩ ⟨⟩
    rfl
  refine ⟨_, bind_eq_ok_iff.mpr ⟨_, hthreads, bind_eq_ok_iff.mpr ⟨_, hcounters, rfl⟩⟩, ?_⟩
  exact
    { processes := congrArg (fun written => some (Json.list written)) hprocesses
      threads := rfl
      counters := rfl
      values := fun entry _ m _ before field value after hfields hlast =>
        ⟨m.2.data, rfl, ShownMarker.lookup_data hfields hlast⟩
      categories := ⟨_, rfl, fun entry hentry category hcategory => by
        rw [List.length_map]
        exact h.categories_lt hentry hcategory⟩ }

end Reflects

end Profile

/-- A handle stands for one text, the one that was passed when it was answered. -/
theorem Recorded.lookup_texts {product : String} {interval : Int}
    (recorded : Recorded product interval p l) {handle : Nat} {text : String}
    (hmem : (handle, text) ∈ l.texts) : l.texts.lookup handle = some text := by
  obtain ⟨found, hfound⟩ := exists_lookup (List.mem_map_of_mem (f := (·.1)) hmem)
  have hread := recorded.reflects.texts
  rw [hfound, ← hread handle found (mem_of_lookup hfound), hread handle text hmem]

/-- At every point of a recording, whose calls were passed nothing but handles that had been
answered, a handle stands for the text that was passed, a call with such handles is answered if it
has what it needs, the profile is exported, and the export shows what was recorded. -/
theorem Recorded.document_shows {product : String} {interval : Int}
    (recorded : Recorded product interval p l) :
    (∀ handle text, (handle, text) ∈ l.texts → l.texts.lookup handle = some text) ∧
      (∀ call : ProfileCall, call.Admissible l →
        ((∃ answer, (call.edit.runOn p).1 = .ok answer) ↔ call.Answerable l)) ∧
      ∃ document, p.document = .ok (.object document) ∧ l.ShownIn document :=
  ⟨fun _ _ => recorded.lookup_texts,
    fun call admissible => (call.sound recorded.reflects admissible).answered,
    recorded.reflects.document_spec⟩

/-- A schema with three fields, two of which have the same key. -/
def noteSchema : MarkerSchema :=
  ⟨"Note", [.table], [⟨"cause", "Cause", .text, true⟩, ⟨"note", "Note", .text, true⟩,
    ⟨"note", "Number", .integer, true⟩], none, none, none, [], []⟩

/-- The calls that record one marker with this schema. -/
def noteCalls : List ProfileCall :=
  [.addProcess (.number 1) "server", .addThread 0 (.number 2) "main" true, .internString "load",
    .internString "late", .registerSchema noteSchema,
    .addMarker 0 (.instant 5) ⟨0, 0, 0, .values [.whole 0, .whole 1, .whole 7]⟩]

/-- The profile with this marker, and its ledger. -/
def noteRecording : Profile × Ledger :=
  noteCalls.foldl (fun (p, l) call => ((call.edit.runOn p).2, l.note call (call.edit.runOn p).1))
    (.create "tracer" 1, .empty)

/-- These calls pass only handles that were answered before. -/
theorem noteRecording_recorded : Recorded "tracer" 1 noteRecording.1 noteRecording.2 := by
  have hstart : Recorded "tracer" 1 _ _ := .start
  have hprocess := hstart.call (.addProcess (.number 1) "server") trivial
  have hthread := hprocess.call (.addThread 0 (.number 2) "main" true) List.mem_cons_self
  have htexts := (hthread.call (.internString "load") trivial).call (.internString "late") trivial
  have hschema := htexts.call (.registerSchema noteSchema) trivial
  refine hschema.call (.addMarker 0 (.instant 5) ⟨0, 0, 0, .values [.whole 0, .whole 1, .whole 7]⟩)
    ⟨List.mem_cons_self, List.mem_cons_self, ⟨0, List.mem_cons_self, rfl⟩, List.mem_cons_self, ?_⟩
  intro schema hfound place field hfield hformat value hvalue
  obtain rfl : noteSchema = schema := Option.some.inj hfound
  match place with
  | 0 =>
    cases hvalue
    exact ⟨0, List.mem_cons_self, rfl⟩
  | 1 =>
    cases hvalue
    exact ⟨1, List.mem_cons_of_mem _ List.mem_cons_self, rfl⟩
  | 2 =>
    cases hfield
    cases hformat
  | place + 3 => cases hfield

/-- The document of the profile with this marker, as the ledger has it. -/
theorem Recorded.document_shows_note :
    Recorded "tracer" 1 noteRecording.1 noteRecording.2 ∧
      noteRecording.2.threads.map (fun entry => entry.2.markers.map (·.2.name)) = [["load"]] ∧
      ∃ document, noteRecording.1.document = .ok (.object document) ∧
        noteRecording.2.ShownIn document :=
  ⟨noteRecording_recorded, by decide +kernel, (Recorded.document_shows noteRecording_recorded).2.2⟩

/-- Of two fields with the same key only the later one is seen: a text that was interned and passed
for the earlier one is nowhere in the data. -/
theorem note_hidden :
    Recorded "tracer" 1 noteRecording.1 noteRecording.2 ∧
      (∃ entry ∈ noteRecording.2.threads, ∃ m ∈ entry.2.markers, ∃ field ∈ m.2.fields,
        field.1.key = "note" ∧ field.2 = .text "late") ∧
      ((noteRecording.1.document.toOption.bind (·.markerData? 0 0)).map fun data =>
        data.map fun (key, value) => (key, value.text?)) =
          some [("type", some "Note"), ("cause", some "load"), ("note", none)] :=
  ⟨noteRecording_recorded, by decide +kernel, by decide +kernel⟩

end TraceProfile
