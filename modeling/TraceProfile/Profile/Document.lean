import TraceProfile.Json.Writer
import TraceProfile.Profile.Basic

/-!
# Profile documents

A profile is written as one JSON object in which the handles of texts, schemas and processes are
replaced by what they denote; only categories stay handles into the list of categories. The data
of a marker is one flat object: the type first, then its fields, a later field taking the place
of an earlier one with its name.
-/

namespace TraceProfile

/-- An optional text. -/
def Json.ofText? : Option String → Json
  | none => .null
  | some s => .text s

/-- An optional integer. -/
def Json.ofInt? : Option Int → Json
  | none => .null
  | some n => .int n

/-- An amount. -/
def Json.ofAmount : Amount → Json
  | .whole n => .int n
  | .real x => .real x

/-- The name of an optional color. -/
def Json.ofColor? (color : Option GraphColor) : Json := .ofText? (color.map GraphColor.name)

namespace MarkerSchema

/-- A field of a schema in a document. -/
def fieldDocument (field : FieldSchema) : Json :=
  .object [("key", .text field.key), ("label", .text field.label),
    ("format", .text field.format.name), ("searchable", .bool field.searchable)]

/-- A schema in a document. -/
def document (schema : MarkerSchema) : Json :=
  .object
    [("name", .text schema.typeName),
     ("display", .list (schema.locations.map fun location => .text location.name)),
     ("chartLabel", .ofText? schema.chartLabel),
     ("tooltipLabel", .ofText? schema.tooltipLabel),
     ("tableLabel", .ofText? schema.tableLabel),
     ("fields", .list (schema.fields.map fieldDocument)),
     ("staticFields", .list (schema.staticFields.map fun field =>
       .object [("label", .text field.label), ("value", .text field.value)])),
     ("graphs", .list (schema.graphs.map fun graph =>
       .object [("key", .text graph.key), ("type", .text "line"),
         ("color", .ofColor? graph.color)]))]

end MarkerSchema

namespace Profile

/-- The text of an optional handle. -/
def getOptional (p : Profile) : Option Nat → Except Fault (Option String)
  | none => .ok none
  | some handle => (p.getString handle).map some

/-- A frame in a document. -/
def frameDocument (p : Profile) (frame : StoredFrame) : Except Fault Json := do
  let library ← p.getOptional frame.library
  let label ← p.getOptional frame.label
  pure (.object
    [("kind", .text frame.kind.name), ("category", .int frame.category),
     ("address", .int frame.address), ("lib", .ofText? library),
     ("relative_address", .ofInt? frame.offset), ("label", .ofText? label)])

/-- A stack in a document. -/
def stackDocument (p : Profile) (frames : List StoredFrame) : Except Fault Json :=
  (frames.mapM p.frameDocument).map .list

/-- The value of a field in a document: the text of a text field, else the number. -/
def valueDocument (p : Profile) (format : FieldFormat) : FieldValue → Except Fault Json
  | .text handle =>
    if format = .text then (p.getString handle).map .text else .ok (.int handle)
  | .number amount =>
    if format = .text then .error Failure.notWhole else .ok (.ofAmount amount)

/-- The data of a marker: fields are put into an object that starts with the type. -/
def dataFields (p : Profile) (data : Json.Fields) :
    List (FieldSchema × FieldValue) → Except Fault Json.Fields
  | [] => .ok data
  | (field, value) :: rest => do
    let shown ← p.valueDocument field.format value
    p.dataFields (Assoc.insert field.key shown data) rest

/-- The data of a marker with the given schema. -/
def dataDocument (p : Profile) (schema : MarkerSchema) (values : List FieldValue) :
    Except Fault Json :=
  (p.dataFields [("type", .text schema.typeName)] (schema.fields.zip values)).map .object

/-- A marker in a document. -/
def markerDocument (p : Profile) (marker : StoredMarker) : Except Fault Json := do
  let schema ← PayloadBody.entry p.schemas.entries marker.schema
  let data ← p.dataDocument schema marker.values
  let name ← p.getString marker.name
  let stack ←
    match marker.stack with
    | none => pure .null
    | some frames => p.stackDocument frames
  pure (.object
    [("name", .text name), ("category", .int marker.category),
     ("start", .int marker.timing.start), ("end", .ofInt? marker.timing.stop),
     ("data", data), ("stack", stack)])

/-- A sample in a document. -/
def sampleDocument (p : Profile) (sample : StoredSample) : Except Fault Json := do
  let frames ← p.stackDocument sample.frames
  pure (.object
    [("time", .int sample.time), ("cpu_delta", .int sample.delta),
     ("weight", .int sample.weight), ("frames", frames)])

/-- A thread in a document. -/
def threadDocument (p : Profile) (thread : Thread) : Except Fault Json := do
  let process ← PayloadBody.entry p.processes thread.process
  let samples ← thread.samples.mapM p.sampleDocument
  let markers ← thread.markers.mapM p.markerDocument
  pure (.object
    [("pid", process.pid.document), ("tid", thread.tid.document), ("name", .text thread.name),
     ("is_main", .bool thread.isMain), ("samples", .list samples), ("markers", .list markers)])

/-- A counter track in a document. -/
def counterDocument (p : Profile) (track : CounterTrack) : Except Fault Json := do
  let process ← PayloadBody.entry p.processes track.process
  pure (.object
    [("pid", process.pid.document), ("name", .text track.name),
     ("category", .text track.category.name), ("description", .text track.description),
     ("color", .ofColor? track.color),
     ("samples", .list (track.samples.map fun (time, value, count) =>
       .object [("time", .int time), ("value", .ofAmount value), ("count", .int count)]))])

/-- The document of a profile; every handle in the profile must denote something. -/
def document (p : Profile) : Except Fault Json := do
  let threads ← p.threads.mapM p.threadDocument
  let counters ← p.counters.mapM p.counterDocument
  pure (.object
    [("meta", .object [("product", .text p.product), ("interval_ns", .int p.interval)]),
     ("categories", .list (p.categories.entries.map fun category =>
       .object [("name", .text category.name), ("color", .text category.color.name)])),
     ("marker_schemas", .list (p.schemas.entries.map MarkerSchema.document)),
     ("processes", .list (p.processes.map fun process =>
       .object [("pid", process.pid.document), ("name", .text process.name)])),
     ("threads", .list threads),
     ("counters", .list counters),
     ("strings", .list (p.strings.entries.map .text))])

end Profile

end TraceProfile
