import TraceProfile.Json.Basic
import TraceProfile.Mapping.Basic

/-!
# Log records

What the program reports about its input without stopping. A record keeps what it is about, and
has a level, a place of origin and a wording.
-/

namespace TraceProfile

/-- The name of a log level. -/
def levelName (level : Int) : String :=
  if level = 10 then "DEBUG"
  else if level = 20 then "INFO"
  else if level = 30 then "WARNING"
  else if level = 40 then "ERROR"
  else if level = 50 then "CRITICAL"
  else if level = 0 then "NOTSET"
  else s!"Level {level}"

/-- Why a line of a span log is dropped. -/
inductive DropReason where
  /-- No blank ends an id. -/
  | noId
  /-- The id is no integer. -/
  | invalidId
  /-- The id is negative. -/
  | negativeId
  /-- What follows the id is no JSON. -/
  | invalidJson
  /-- What follows the id is no object. -/
  | notObject
  /-- The line is no text. -/
  | invalidUtf8 (flaw : Text.Utf8Flaw)
  /-- The record cannot be made into a marker. -/
  | fault (f : Fault)
  deriving DecidableEq, Repr

/-- The wording of a reason. -/
def DropReason.message : DropReason → String
  | noId => "no id prefix"
  | invalidId => "invalid id"
  | negativeId => "negative id"
  | invalidJson => "invalid json"
  | notObject => "record is not an object"
  | invalidUtf8 flaw => s!"invalid utf-8 ({flaw.message})"
  | fault f => f.message

/-- A log record. -/
inductive LogRecord where
  /-- A line of a span log is dropped. -/
  | droppedLine (lineNumber : Nat) (reason : DropReason) (line : String)
  /-- A span record comes at the wrong moment. -/
  | spanOutOfTurn (expected got : String) (record : Json.Fields)
  /-- A line of a symbol map is skipped. -/
  | malformedSymbol (mapName : String) (lineNumber : Nat) (line : String)
  /-- A mapping gives way to a new one. -/
  | evicted (mapping : Mapping) (newcomer : Mapping)
  /-- No mapping starts where one is to be removed. -/
  | unmatchedRemoval (start time : Int)

namespace LogRecord

/-- How much a record matters, on the scale of log levels. -/
def level : LogRecord → Int
  | droppedLine .. | spanOutOfTurn .. | malformedSymbol .. => 30
  | evicted .. | unmatchedRemoval .. => 10

/-- The place in the program that a record names as its origin. -/
def origin : LogRecord → String
  | droppedLine .. => "marker_file._drop"
  | spanOutOfTurn .. => "marker_file.process_line"
  | malformedSymbol .. => "perf_map.parse_perf_map_lines"
  | evicted .. => "lib_mappings.add"
  | unmatchedRemoval .. => "lib_mappings._apply"

/-- The wording of a record. -/
def message : LogRecord → String
  | droppedLine lineNumber reason line =>
    s!"line {lineNumber}: {reason.message}, dropping '{line}'"
  | spanOutOfTurn expected got record =>
    s!"Dropping span - expected '{expected}', got '{got}' for span " ++
      (Json.object record).describe
  | malformedSymbol mapName lineNumber line =>
    s!"{mapName}:{lineNumber}: skipping malformed line '{line}'"
  | evicted mapping newcomer =>
    s!"evicting {mapping.describe}, overlapped by {newcomer.library.name} at " ++
      Text.hexNumeral newcomer.start
  | unmatchedRemoval start time =>
    s!"no mapping at {Text.hexNumeral start} to remove (ts {time})"

/-- A record as a line. -/
def line (record : LogRecord) : String :=
  s!"{levelName record.level} [{record.origin}] {record.message}"

/-- A record as a line of a log file, after the time at which it was made. -/
def datedLine (record : LogRecord) (stamp : String) : String := s!"{stamp} {record.line}"

end LogRecord

end TraceProfile
