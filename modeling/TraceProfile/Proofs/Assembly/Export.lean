import TraceProfile.Profile.Document
import TraceProfile.Proofs.Assembly.Markers
import TraceProfile.Proofs.Json.Pairs
import TraceProfile.Proofs.Marker.FieldNames

/-!
# Markers in an export

The data of a marker is one flat object, in which the type, the fixed fields of the kind and the
further fields stand side by side. The further fields come last, so their values are always found;
the message is found as well, since the log leaves its name free. The type and the times of a span
are found only if no further field has taken their place.
-/

namespace TraceProfile

namespace Json

/-- The value of a field of an object. -/
def field? (value : Json) (name : String) : Option Json := value.fields?.bind (·.lookup name)

/-- An item of a list. -/
def item? (value : Json) (index : Nat) : Option Json :=
  match value with
  | list items => items[index]?
  | _ => none

/-- The data of a marker in the document of a profile. -/
def markerData? (document : Json) (thread marker : Nat) : Option Fields := do
  let thread ← (← document.field? "threads").item? thread
  let marker ← (← thread.field? "markers").item? marker
  (← marker.field? "data").fields?

end Json

namespace Profile

variable {p : Profile}

/-- Text fields with distinct names are all found, and nothing else in the data changes. -/
theorem dataFields_textFields {entries : List (String × String)} {handles : List Nat}
    (hnames : (entries.map (·.1)).Nodup)
    (hhandles : List.Forall₂ (fun handle text => p.getString handle = .ok text) handles
      (entries.map (·.2))) (data : Json.Fields) :
    ∃ data', p.dataFields data
        (((entries.map (·.1)).map MarkerSchema.textField).zip (handles.map .text)) = .ok data' ∧
      (∀ name text, (name, text) ∈ entries → data'.lookup name = some (.text text)) ∧
      ∀ name, name ∉ entries.map (·.1) → data'.lookup name = data.lookup name := by
  induction entries generalizing handles data with
  | nil =>
    cases hhandles
    exact ⟨data, rfl, fun _ _ h => (List.not_mem_nil h).elim, fun _ _ => rfl⟩
  | cons entry rest ih =>
    obtain ⟨hnew, hrest⟩ := List.nodup_cons.mp hnames
    cases hhandles with
    | @cons handle _ handles _ hhandle hhandles =>
      obtain ⟨data', hrun, hfound, hsame⟩ :=
        ih hrest hhandles (Assoc.insert entry.1 (.text entry.2) data)
      refine ⟨data', ?_, fun name text hmem => ?_, fun name hname => ?_⟩
      · have hvalue : p.valueDocument (MarkerSchema.textField entry.1).format (.text handle) =
            .ok (.text entry.2) := by
          rw [MarkerSchema.textField, valueDocument, if_pos rfl, hhandle]
          rfl
        rw [List.map_cons, List.map_cons, List.map_cons, List.zip_cons_cons, dataFields, hvalue]
        exact hrun
      · rcases List.mem_cons.mp hmem with rfl | hmem
        · rw [hsame name hnew, Assoc.lookup_insert, if_pos (beq_self_eq_true name)]
        · exact hfound name text hmem
      · obtain ⟨hne, hname⟩ := not_or.mp (mt List.mem_cons.mpr hname)
        rw [hsame name hname, Assoc.lookup_insert, if_neg (by simpa using hne)]

end Profile

namespace Marker

/-- The data tells what a marker is: the texts of all its further fields and its message, and its
type and times as far as no further field has their names. -/
structure ShownIn (m : Marker) (data : Json.Fields) : Prop where
  /-- The further fields. -/
  fields : ∀ name text, (name, text) ∈ m.fields → data.lookup name = some (.text text)
  /-- The message. -/
  message : data.lookup m.messageKey = some (.text m.message)
  /-- The type name of the schema. -/
  type : "type" ∉ m.fields.map (·.1) → data.lookup "type" = some (.text m.schema.typeName)
  /-- The times of a span in milliseconds. -/
  times : ∀ span ∈ m.span, ∃ idle busy, Duration.toMilliseconds span.timings.idle = .ok idle ∧
    Duration.toMilliseconds span.timings.busy = .ok busy ∧
    ("time_idle" ∉ m.fields.map (·.1) → data.lookup "time_idle" = some (.real idle)) ∧
    ("time_busy" ∉ m.fields.map (·.1) → data.lookup "time_busy" = some (.real busy))

/-- The data holds what the fixed fields of a marker give, with the type. -/
structure FixedIn (m : Marker) (data : Json.Fields) : Prop where
  /-- The type name of the schema. -/
  type : data.lookup "type" = some (.text m.schema.typeName)
  /-- The message. -/
  message : data.lookup m.messageKey = some (.text m.message)
  /-- The times of a span in milliseconds. -/
  times : ∀ span ∈ m.span, ∃ idle busy, Duration.toMilliseconds span.timings.idle = .ok idle ∧
    Duration.toMilliseconds span.timings.busy = .ok busy ∧
    data.lookup "time_idle" = some (.real idle) ∧ data.lookup "time_busy" = some (.real busy)

variable {m : Marker} {p : Profile} {s : StoredMarker}

/-- The fixed fields of a stored marker come first, behind the type. -/
theorem StoredAs.dataFields_fixed (h : m.StoredAs p s) :
    ∃ start extra, p.dataFields [("type", .text m.schema.typeName)] (m.schema.fields.zip s.values) =
        p.dataFields start ((m.fieldNames.map MarkerSchema.textField).zip (extra.map .text)) ∧
      List.Forall₂ (fun handle text => p.getString handle = .ok text) extra m.fieldValues ∧
      m.FixedIn start := by
  obtain ⟨fixed, extra, hvalues, ⟨message, hmessage, hfixed⟩, hextra⟩ := h.values
  have hmessageField : p.valueDocument .text (.text message) = .ok (.text m.message) := by
    rw [Profile.valueDocument, if_pos rfl, hmessage]
    rfl
  rw [hvalues]
  cases hspan : m.span with
  | none =>
    rw [hspan] at hfixed
    refine ⟨[("type", .text m.schema.typeName), ("message", .text m.message)], extra, ?_, hextra,
      rfl, ?_, by rw [hspan]; exact fun _ h => nomatch h⟩
    · rw [hfixed, schema_of_event hspan, MarkerSchema.event, List.cons_append, List.zip_cons_cons,
        Profile.dataFields, hmessageField]
      rfl
    · rw [messageKey, hspan]
      rfl
  | some span =>
    rw [hspan] at hfixed
    obtain ⟨idle, busy, hidle, hbusy, rfl⟩ := hfixed
    refine ⟨[("type", .text m.schema.typeName), ("time_idle", .real idle),
      ("time_busy", .real busy), ("name", .text m.message)], extra, ?_, hextra, rfl, ?_, ?_⟩
    · rw [schema_of_span hspan, MarkerSchema.span]
      simp only [List.cons_append, List.nil_append, List.zip_cons_cons, Profile.dataFields,
        hmessageField]
      rfl
    · rw [messageKey, hspan]
      rfl
    · rw [hspan]
      rintro _ ⟨⟩
      exact ⟨idle, busy, hidle, hbusy, rfl, rfl⟩

/-- The data of a stored marker, if its field names are distinct and leave that of the message
free. -/
theorem StoredAs.dataDocument_spec (h : m.StoredAs p s) (hnames : m.WellNamed) :
    ∃ data, p.dataDocument m.schema s.values = .ok (.object data) ∧ m.ShownIn data := by
  have hdistinct : (m.sortedFields.map (·.1)).Nodup :=
    (Assoc.keys_sorted_perm m.fields).nodup_iff.mpr hnames.distinct
  obtain ⟨start, extra, hstart, hextra, hfixed⟩ := h.dataFields_fixed
  obtain ⟨data, hrun, hfound, hsame⟩ := Profile.dataFields_textFields hdistinct hextra start
  -- A name that no further field has is found where the fixed fields have left it.
  have hfree {name : String} (hname : name ∉ m.fields.map (·.1)) :
      data.lookup name = start.lookup name :=
    hsame name (mt (Assoc.keys_sorted_perm m.fields).mem_iff.mp hname)
  rw [Profile.dataDocument, hstart]
  refine ⟨data, congrArg (Except.map Json.object) hrun, ?_, ?_, fun htype => ?_,
    fun span hspan => ?_⟩
  · intro name text hmem
    exact hfound name text ((List.mergeSort_perm m.fields _).mem_iff.mpr hmem)
  · rw [hfree hnames.message, hfixed.message]
  · rw [hfree htype, hfixed.type]
  · obtain ⟨idle, busy, hidle, hbusy, hidleField, hbusyField⟩ := hfixed.times span hspan
    exact ⟨idle, busy, hidle, hbusy, fun hname => (hfree hname).trans hidleField,
      fun hname => (hfree hname).trans hbusyField⟩

/-- A stored marker is written, and its data tells what it is. -/
theorem StoredAs.markerDocument_spec (h : m.StoredAs p s) (hnames : m.WellNamed) :
    ∃ document data, p.markerDocument s = .ok document ∧
      document.field? "data" = some (.object data) ∧ m.ShownIn data := by
  obtain ⟨data, hdata, hshown⟩ := h.dataDocument_spec hnames
  have hschema : PayloadBody.entry p.schemas.entries s.schema = .ok m.schema := by
    rw [PayloadBody.entry, ← Catalogue.get?, h.schema]
  refine ⟨.object [("name", .text m.shownName), ("category", .int s.category),
    ("start", .int s.timing.start), ("end", .ofInt? s.timing.stop), ("data", .object data),
    ("stack", .null)], data, ?_, rfl, hshown⟩
  rw [Profile.markerDocument, hschema, h.name, h.stack]
  simp only [bind, Except.bind, hdata]
  rfl

end Marker

namespace Profile

/-- A profile with a process and a thread of it, before anything is collected. -/
def withThread (product : String) (interval : Int) (pid : SystemId) (process : String)
    (tid : SystemId) (thread : String) (isMain : Bool) : Profile :=
  let (handle, p) := (create product interval).addProcess pid process
  ((Edit.addThread handle tid thread isMain).runOn p).2

/-- Such a profile has this process and this thread, and is else as it was created. -/
theorem withThread_eq (product : String) (interval : Int) (pid : SystemId) (process : String)
    (tid : SystemId) (thread : String) (isMain : Bool) :
    withThread product interval pid process tid thread isMain =
      { create product interval with
        processes := [⟨pid, process, [0]⟩]
        threads := [⟨0, tid, thread, isMain, [], []⟩] } :=
  rfl

end Profile

/-- The document of a profile whose only marker is written. -/
theorem Profile.document_spec {p : Profile} {owner : Process} {t : Thread} {s : StoredMarker}
    {shown : Json} {data : Json.Fields} (hprocesses : p.processes[t.process]? = some owner)
    (hthreads : p.threads = [t]) (hsamples : t.samples = []) (hmarkers : t.markers = [s])
    (hcounters : p.counters = []) (hshown : p.markerDocument s = .ok shown)
    (hdata : shown.field? "data" = some (.object data)) :
    ∃ document, p.document = .ok document ∧ document.markerData? 0 0 = some data := by
  have howner : PayloadBody.entry p.processes t.process = .ok owner := by
    rw [PayloadBody.entry, hprocesses]
  have hthread : p.threadDocument t = .ok (.object
      [("pid", owner.pid.document), ("tid", t.tid.document), ("name", .text t.name),
       ("is_main", .bool t.isMain), ("samples", .list []), ("markers", .list [shown])]) := by
    have hall : [s].mapM p.markerDocument = .ok [shown] :=
      mapM_eq_ok_iff.mpr (.cons hshown .nil)
    rw [threadDocument, howner, hsamples, hmarkers, hall]
    rfl
  have hall := mapM_eq_ok_iff.mpr (.cons hthread .nil)
  rw [Profile.document, hthreads, hcounters, hall]
  exact ⟨_, rfl, congrArg (Option.bind · Json.fields?) hdata⟩

/-- No half of a pair stands alone in a line, so that each text in it is read without loss. -/
def JournalLine.isPaired (source : JournalLine) : Bool :=
  (source.content?.map Json.isPaired).getD true

/-- A log of lines whose texts are read without loss gives these markers, in the order of their
starts, to a reader that follows documents so many levels deep. -/
structure Journal.Gives (nesting : Nat) (clock : Clock) (lines : List JournalLine)
    (found : List Marker) : Prop where
  /-- No half of a pair stands alone. -/
  paired : ∀ source ∈ lines, source.isPaired = true
  /-- The markers. -/
  result : (markers nesting clock lines).result = .ok found

/-- A marker of a log that is flushed alone, into a profile that has nothing but its thread, can be
told from the export. All its further fields and its message are in the data; so are its type and
the times of a span, unless a further field is named like one of them. Nothing is exported only if
the times of the span cannot be given in milliseconds, and then the flush says so. -/
theorem exported_marker_shown {nesting : Nat} {clock : Clock} {lines : List JournalLine}
    {found : List Marker} {m : Marker} (hgives : Journal.Gives nesting clock lines found)
    (hm : m ∈ found) (hordered : ∀ span ∈ m.span, m.start ≤ span.stop) (product : String)
    (interval : Int) (pid : SystemId) (process : String) (tid : SystemId) (thread : String)
    (isMain : Bool) :
    ∃ result p', (flushMarkers [(0, m)]).runOn
        (.withThread product interval pid process tid thread isMain) = (result, p') ∧
      if m.isMeasurable then
        result = .ok (.ofMarkers [m]) ∧
          ∃ s document data, p'.threads.map (·.markers) = [[s]] ∧ m.StoredAs p' s ∧
            p'.document = .ok document ∧ document.markerData? 0 0 = some data ∧ m.ShownIn data
      else result = .error Failure.decimalRange := by
  have hnames := Journal.wellNamed_of_markers hgives.result m hm
  rw [Profile.withThread_eq]
  generalize hfresh : ({ Profile.create product interval with
    processes := [⟨pid, process, [0]⟩]
    threads := [⟨0, tid, thread, isMain, [], []⟩] } : Profile) = fresh
  have htell : Marker.NamesTell fresh [(0, m)] := by
    rw [← hfresh]
    intro entry hentry schema huse _
    rcases huse with hold | ⟨other, hother, rfl⟩
    · cases hold
    · rw [List.mem_singleton.mp hentry, List.mem_singleton.mp hother]
  have hthreads : ∀ entry ∈ [((0 : Nat), m)], entry.1 < fresh.threads.length := by
    rw [← hfresh]
    exact List.forall_mem_singleton.mpr Nat.one_pos
  obtain ⟨result, p', stored, hrun, hresult, hgains, hstored, -⟩ :=
    flushMarkers_spec (List.forall_mem_singleton.mpr hordered) hthreads htell
  refine ⟨result, p', hrun, ?_⟩
  rw [List.all_cons, List.all_nil, Bool.and_true] at hresult
  rw [List.takeWhile_cons, List.takeWhile_nil] at hstored
  cases hmeasurable : m.isMeasurable with
  | false =>
    rw [hmeasurable] at hresult
    exact hresult
  | true =>
    rw [hmeasurable] at hresult hstored
    cases hstored with
    | @cons _ entry _ _ hentry hrest =>
      cases hrest
      obtain ⟨_, s⟩ := entry
      obtain ⟨rfl, hs⟩ := hentry
      have hthreads' : p'.threads = [⟨0, tid, thread, isMain, [], [s]⟩] := by
        rw [hgains.threads, ← hfresh]
        rfl
      have hprocesses : p'.processes = [⟨pid, process, [0]⟩] :=
        (congrArg Profile.processes hgains.rest).trans (hfresh ▸ rfl)
      have hcounters : p'.counters = [] :=
        (congrArg Profile.counters hgains.rest).trans (hfresh ▸ rfl)
      obtain ⟨shown, data, hdocument, hdata, hshown⟩ := hs.markerDocument_spec hnames
      obtain ⟨document, hdocument', hdata'⟩ := Profile.document_spec
        (by rw [hprocesses]; rfl) hthreads' rfl rfl hcounters hdocument hdata
      exact ⟨hresult, s, document, data, by rw [hthreads']; rfl, hs, hdocument', hdata', hshown⟩

/-- A log with one span. -/
def loadLog : List JournalLine :=
  [.text "7 \x7b\"timestamp\":5,\"fields\":\x7b\"message\":\"new\"\x7d\x7d",
   .text ("7 \x7b\"timestamp\":9,\"fields\":\x7b\"message\":\"close\"\x7d," ++
     "\"span\":\x7b\"name\":\"load\",\"path\":\"a,b\"\x7d\x7d")]

/-- Its marker. -/
def loadMarker : Marker :=
  ⟨5, "load", "", [("path", "a,b")], some ⟨.total, 9, ⟨4, 0⟩, "-", none, none⟩⟩

/-- The type, the message and the further field of the span are shown. -/
theorem exported_marker_shown_of_load :
    Journal.Gives 2 .plain loadLog [loadMarker] ∧
      ∃ p' document data, (flushMarkers [(0, loadMarker)]).runOn
          (.withThread "tracer" 1 (.number 1) "server" (.number 1) "main" true) =
            (.ok (.ofMarkers [loadMarker]), p') ∧
        p'.document = .ok document ∧ document.markerData? 0 0 = some data ∧
        data.lookup "type" = some (.text "Span-path") ∧
        data.lookup "name" = some (.text "load") ∧ data.lookup "path" = some (.text "a,b") := by
  have hgives : Journal.Gives 2 .plain loadLog [loadMarker] :=
    { paired := by decide +kernel
      result := by decide +kernel }
  have htype : loadMarker.schema.typeName = "Span-path" := by decide +kernel
  have hmeasurable : loadMarker.isMeasurable = true := by decide
  obtain ⟨result, p', hrun, hshown⟩ := exported_marker_shown hgives List.mem_cons_self (by decide)
    "tracer" 1 (.number 1) "server" (.number 1) "main" true
  rw [if_pos hmeasurable] at hshown
  obtain ⟨rfl, s, document, data, -, -, hdocument, hdata, hshown⟩ := hshown
  exact ⟨hgives, p', document, data, hrun, hdocument, hdata, htype ▸ hshown.type (by decide),
    hshown.message, hshown.fields "path" "a,b" (by decide)⟩

/-- A field named like the type takes its place in the data. -/
theorem exported_type_overwritten :
    let m : Marker := ⟨5, "tick", "", [("type", "clock")], none⟩
    let p := ((flushMarkers [(0, m)]).runOn
      (.withThread "tracer" 1 (.number 1) "server" (.number 1) "main" true)).2
    (Journal.markers 2 .plain [.text ("0 \x7b\"timestamp\":5,\"fields\":" ++
        "\x7b\"message\":\"tick\",\"type\":\"clock\"\x7d\x7d")]).result = .ok [m] ∧
      m.schema.typeName = "Event-type" ∧
      ((p.document.toOption.bind (·.markerData? 0 0)).bind (·.lookup "type")).bind Json.text? =
        some "clock" := by
  decide +kernel

end TraceProfile
