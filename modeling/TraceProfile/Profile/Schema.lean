import TraceProfile.Palette

/-!
# Marker schemas

A schema says how the markers of one type are shown: their fields in order, the labels they are
drawn with, and the graphs that their number fields make. The fields of an event or a span start
with fixed ones, and the names of the others are part of the type name.
-/

namespace TraceProfile

/-- How the value of a field is shown. -/
inductive FieldFormat where
  | text | integer | decimal | duration | bytes
  deriving DecidableEq, Repr

/-- The name of a field format. -/
def FieldFormat.name : FieldFormat → String
  | text => "string"
  | integer => "integer"
  | decimal => "decimal"
  | duration => "duration"
  | bytes => "bytes"

/-- All field formats. -/
def FieldFormat.all : List FieldFormat := [text, integer, decimal, duration, bytes]

/-- The field format of a name. -/
def FieldFormat.ofName? (name : String) : Option FieldFormat := all.find? (·.name == name)

/-- A place where markers are shown. -/
inductive MarkerLocation where
  | chart | table
  deriving DecidableEq, Repr

/-- The name of a location. -/
def MarkerLocation.name : MarkerLocation → String
  | chart => "marker-chart"
  | table => "marker-table"

/-- All locations. -/
def MarkerLocation.all : List MarkerLocation := [chart, table]

/-- The location of a name. -/
def MarkerLocation.ofName? (name : String) : Option MarkerLocation := all.find? (·.name == name)

/-- A field of the markers of a type. -/
structure FieldSchema where
  /-- The name of the field in the data of a marker. -/
  key : String
  /-- The name that is shown. -/
  label : String
  /-- How its value is shown. -/
  format : FieldFormat
  /-- Searches look at it. -/
  searchable : Bool
  deriving DecidableEq, Repr

/-- A field with the same value for all markers of a type. -/
structure StaticField where
  /-- The name that is shown. -/
  label : String
  /-- The value. -/
  value : String
  deriving DecidableEq, Repr

/-- A line graph over a number field. -/
structure MarkerGraph where
  /-- The field. -/
  key : String
  /-- The color of the line. -/
  color : Option GraphColor
  deriving DecidableEq, Repr

/-- The schema of the markers of one type. -/
structure MarkerSchema where
  /-- The name of the type. -/
  typeName : String
  /-- Where the markers are shown. -/
  locations : List MarkerLocation
  /-- The fields, in the order of the values of a marker. -/
  fields : List FieldSchema
  /-- The label in a chart. -/
  chartLabel : Option String
  /-- The label in a tooltip. -/
  tooltipLabel : Option String
  /-- The label in a table. -/
  tableLabel : Option String
  /-- The fields with a fixed value. -/
  staticFields : List StaticField
  /-- The graphs. -/
  graphs : List MarkerGraph
  deriving DecidableEq, Repr

namespace MarkerSchema

/-- One character of a field name inside a type name: a backslash marks itself and the comma. -/
def escapeNameChar (c : Char) : List Char := if c = '\\' ∨ c = ',' then ['\\', c] else [c]

/-- A field name inside a type name. -/
def escapeName (name : List Char) : List Char := name.flatMap escapeNameChar

/-- Field names inside a type name: escaped, with commas between them. -/
def nameSuffix (names : List String) : String :=
  String.ofList ([','].intercalate (names.map fun name => escapeName name.toList))

/-- A text field whose label is its name. -/
def textField (name : String) : FieldSchema := ⟨name, name, .text, true⟩

/-- The schema of events with the given further fields. -/
def event (names : List String) : MarkerSchema where
  typeName := "Event-" ++ nameSuffix names
  locations := [.chart, .table]
  fields := ⟨"message", "Message", .text, true⟩ :: names.map textField
  chartLabel := some "\x7bmarker.data.message\x7d"
  tooltipLabel := some "\x7bmarker.data.message\x7d"
  tableLabel := some "\x7bmarker.data.message\x7d"
  staticFields := []
  graphs := []

/-- The schema of spans with the given further fields. -/
def span (names : List String) : MarkerSchema where
  typeName := "Span-" ++ nameSuffix names
  locations := [.chart, .table]
  fields :=
    ⟨"time_idle", "time_idle", .duration, true⟩ :: ⟨"time_busy", "time_busy", .duration, true⟩ ::
      ⟨"name", "name", .text, true⟩ :: names.map textField
  chartLabel := some "\x7bmarker.data.name\x7d"
  tooltipLabel := some "\x7bmarker.data.name\x7d"
  tableLabel := some "\x7bmarker.data.name\x7d"
  staticFields := []
  graphs := []

/-- The schema of the points of a graph. -/
def graph (name : String) (color : Option GraphColor) : MarkerSchema where
  typeName := "CustomGraph-" ++ name
  locations := []
  fields := [⟨"value", "Value", .decimal, false⟩]
  chartLabel := none
  tooltipLabel := none
  tableLabel := none
  staticFields := []
  graphs := [⟨"value", color⟩]

end MarkerSchema

end TraceProfile
