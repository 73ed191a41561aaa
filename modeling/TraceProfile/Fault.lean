import TraceProfile.Text.Quoted
import TraceProfile.Text.Utf8

/-!
# Faults

An operation either succeeds or ends in a fault. A refusal is the program's own verdict on its
input and states the reason; a failure is a step that cannot be carried out, such as reading a
numeral from text that is none. Every fault has a kind, by which its handlers tell it apart.
-/

namespace TraceProfile

/-- The kinds of fault. -/
inductive FaultKind where
  /-- A value that is not acceptable. -/
  | value
  /-- A value of a type that does not fit. -/
  | type
  /-- A handle or place that does not exist. -/
  | index
  /-- A number without the range that is needed. -/
  | overflow
  /-- A request at the wrong time. -/
  | state
  /-- A counter file that does not follow its format. -/
  | counterFile
  /-- A document that is no JSON. -/
  | document
  /-- A document of too many levels. -/
  | depth
  /-- Bytes that are no text. -/
  | encoding
  /-- A file that is not there. -/
  | missingFile
  /-- A path that leads through a file. -/
  | notDirectory
  /-- A directory where a file is needed. -/
  | isDirectory
  /-- A request that the system cannot carry out for another reason. -/
  | system
  deriving DecidableEq, Repr

/-- Steps that cannot be carried out. -/
inductive Failure where
  /-- Text that is no integer. -/
  | integerText (text : String)
  /-- An integer with too many digits. -/
  | integerLength (digits : Nat)
  /-- A text asked of an integer with too many digits. -/
  | integerSize
  /-- Text that is no decimal. -/
  | decimalText (text : String)
  /-- An integer asked of a number that is undefined. -/
  | undefinedInteger
  /-- An integer asked of an infinity. -/
  | infiniteInteger
  /-- A decimal asked of an integer beyond all decimals. -/
  | decimalRange
  /-- A number asked of a value that has none; the name of the value's type. -/
  | notNumeric (typeName : String)
  /-- A whole number asked of something else. -/
  | notWhole
  /-- A handle without an entry. -/
  | noEntry
  /-- A document that is no JSON. -/
  | malformedDocument
  /-- A list or an object inside too many others; what it is called. -/
  | nesting (container : String)
  /-- Bytes that are no text. -/
  | undecodable (flaw : Text.Utf8Flaw)
  /-- A file or directory that is not there. -/
  | noFile
  /-- A path that leads through a file. -/
  | fileOnPath
  /-- A directory in the place of a file. -/
  | directoryInPlace
  /-- A path with a character that no path has. -/
  | nulInPath
  /-- A path, or a name in it, that is too long. -/
  | nameTooLong
  /-- A path asked of an argument that has none. -/
  | noPath
  deriving DecidableEq, Repr

/-- The reasons for which the program turns an input away. -/
inductive Refusal where
  /-- A duration field that is no text; the value as a message shows it. -/
  | durationNotText (field shown : String)
  /-- A duration with an unknown unit. -/
  | unknownUnit (unit text : String)
  /-- A span that ends before it starts. -/
  | reversedSpan (start stop : Int)
  /-- An event that says nothing. -/
  | silentEvent
  /-- A mapping without an address. -/
  | emptyRange (start stop : Int)
  /-- A mapping operation that is older than the one before. -/
  | olderOperation (time previous : Int)
  /-- A stack depth that leaves no frame. -/
  | depthBelowOne (depth : Int)
  /-- A marker that ends before it starts. -/
  | reversedMarker (start stop : Int)
  /-- A marker of another thread. -/
  | foreignMarker (owner thread : Nat)
  /-- A text asked of a field that holds none. -/
  | notTextField (field : Nat)
  /-- A number asked of a field that holds none. -/
  | notNumberField (field : Nat)
  /-- A number asked of an event, which has none. -/
  | eventNumber (field : Nat)
  /-- A text asked of a graph point, which has none. -/
  | graphText (field : Nat)
  /-- A second flush of the same data. -/
  | alreadyFlushed
  /-- A conversion without an input. -/
  | nothingToConvert
  /-- A counter category that does not exist; the value as a message shows it. -/
  | unknownCategory (shown : String)
  /-- A counter definition that lacks a part. -/
  | badDefinition (line : String)
  /-- A counter sample that cannot be read; the sample as a message shows it. -/
  | badSample (shown : String)
  /-- A counter file without a definition. -/
  | noDefinition
  /-- A counter document that is no JSON. -/
  | badDocument
  /-- A counter document without a name or category. -/
  | incompleteDocument
  /-- Counter samples that are no list; the value as a message shows it. -/
  | samplesNotList (shown : String)
  /-- A file found in none of the given number of places. -/
  | notFound (path : String) (places : Nat)
  deriving DecidableEq, Repr

/-- A fault: a refusal or a failure. -/
inductive Fault where
  /-- The program's verdict. -/
  | refusal (r : Refusal)
  /-- A step that cannot be carried out. -/
  | failure (f : Failure)
  deriving DecidableEq, Repr

instance : Coe Refusal Fault := ⟨Fault.refusal⟩
instance : Coe Failure Fault := ⟨Fault.failure⟩

/-- The kind of a failure. -/
def Failure.kind : Failure → FaultKind
  | integerText _ | integerLength _ | integerSize | decimalText _ | undefinedInteger
  | nulInPath => .value
  | infiniteInteger | decimalRange => .overflow
  | notNumeric _ | notWhole | noPath => .type
  | noEntry => .index
  | malformedDocument => .document
  | nesting _ => .depth
  | undecodable _ => .encoding
  | noFile => .missingFile
  | fileOnPath => .notDirectory
  | directoryInPlace => .isDirectory
  | nameTooLong => .system

/-- The most characters that a message shows of text that is no integer. -/
def shownTextLength : Nat := 200

/-- The wording of a failure in a log. -/
def Failure.message : Failure → String
  | integerText text =>
    let shown := String.ofList ((Text.quote text).toList.take shownTextLength)
    s!"invalid literal for int() with base 10: {shown}"
  | integerLength digits =>
    s!"Exceeds the limit (4300 digits) for integer string conversion: value has {digits} " ++
      "digits; use sys.set_int_max_str_digits() to increase the limit"
  | integerSize =>
    "Exceeds the limit (4300 digits) for integer string conversion; " ++
      "use sys.set_int_max_str_digits() to increase the limit"
  | decimalText text => s!"could not convert string to float: {Text.quote text}"
  | undefinedInteger => "cannot convert float NaN to integer"
  | infiniteInteger => "cannot convert float infinity to integer"
  | decimalRange => "int too large to convert to float"
  | notNumeric typeName =>
    "int() argument must be a string, a bytes-like object or a real number, not " ++
      s!"'{typeName}'"
  | notWhole => "an integer is required"
  | noEntry => "list index out of range"
  | malformedDocument => "malformed document"
  | nesting container =>
    s!"maximum recursion depth exceeded while decoding a JSON {container} from a unicode string"
  | undecodable flaw => flaw.message
  | noFile => "No such file or directory"
  | fileOnPath => "Not a directory"
  | directoryInPlace => "Is a directory"
  | nulInPath => "embedded null byte"
  | nameTooLong => "File name too long"
  | noPath => "expected a path"

/-- The kind of a refusal. -/
def Refusal.kind : Refusal → FaultKind
  | durationNotText .. | unknownUnit .. | reversedSpan .. | silentEvent | emptyRange ..
  | olderOperation .. | depthBelowOne .. | reversedMarker .. | foreignMarker .. => .value
  | notTextField .. | notNumberField .. | eventNumber .. | graphText .. => .index
  | alreadyFlushed | nothingToConvert => .state
  | unknownCategory .. | badDefinition .. | badSample .. | noDefinition | badDocument
  | incompleteDocument | samplesNotList .. => .counterFile
  | notFound .. => .missingFile

/-- The wording of a refusal. -/
def Refusal.message : Refusal → String
  | durationNotText field shown => s!"{field} is not a string: {shown}"
  | unknownUnit unit text => s!"unknown unit '{unit}' in field {text}"
  | reversedSpan start stop => s!"span ends before it starts ({start} > {stop})"
  | silentEvent => "event without a message"
  | emptyRange start stop =>
    s!"empty mapping range {Text.hexNumeral start}..{Text.hexNumeral stop}"
  | olderOperation time previous =>
    s!"lib mapping op at {time} is older than the previous op at {previous}"
  | depthBelowOne depth => s!"max stack depth must be at least 1, got {depth}"
  | reversedMarker start stop => s!"marker ends before it starts: {start} > {stop}"
  | foreignMarker owner thread => s!"marker belongs to thread {owner}, not {thread}"
  | notTextField field => s!"field {field} is not a string field"
  | notNumberField field => s!"field {field} is not a number field"
  | eventNumber field => s!"event markers have no number fields ({field})"
  | graphText field => s!"custom graph markers have no string fields ({field})"
  | alreadyFlushed => "process sample data has already been flushed"
  | nothingToConvert => "nothing to convert, pass at least one marker or counter file"
  | unknownCategory shown => s!"unknown counter category: {shown}"
  | badDefinition line => s!"invalid counter definition: {Text.quote line}"
  | badSample shown => s!"invalid counter sample: {shown}"
  | noDefinition => "missing counter definition line"
  | badDocument => "invalid counter json"
  | incompleteDocument => "counter json needs at least 'name' and 'category'"
  | samplesNotList shown => s!"counter samples must be a list, got {shown}"
  | notFound path places => s!"could not find {path} (looked in {places} places)"

/-- The kind of a fault. -/
def Fault.kind : Fault → FaultKind
  | refusal r => r.kind
  | failure f => f.kind

/-- The wording of a fault. -/
def Fault.message : Fault → String
  | refusal r => r.message
  | failure f => f.message

end TraceProfile
