import TraceProfile.Counter.Lines
import TraceProfile.Json.Reader
import TraceProfile.Number.Conversion

/-!
# Counters in a document

A counter may also be one JSON object with a name, a category and, if need be, a description, a
color and a list of samples. A file whose first visible character is a brace is such a document.
-/

namespace TraceProfile.Counter

/-- The text of an optional field: empty if the field is missing or says nothing. -/
def optionalText (fields : Json.Fields) (name : String) : String :=
  match fields.lookup name with
  | none => ""
  | some value => if value.isVacant then "" else value.asText

/-- The category of a value. -/
def categoryOfValue (value : Json) : Except Fault CounterCategory :=
  match value.text?.bind CounterCategory.ofName? with
  | some category => .ok category
  | none => .error (Refusal.unknownCategory value.describe)

/-- A fault that comes from a sample with a wrong value or type. -/
def isBadValue (f : Fault) : Bool := f.kind == .value || f.kind == .type

/-- The sample of a list of three values. -/
def sampleOfValues (clock : Clock) (tick value count : Json) : Except Fault CounterSample := do
  let tick ← tick.toInteger
  let value ← value.toDecimal
  let count ← count.toInteger
  pure ⟨clock.convert tick, .real value, count⟩

/-- The sample of an entry. A number without bound is reported as it is. -/
def sampleOfEntry (clock : Clock) (entry : Json) : Except Fault CounterSample :=
  match entry with
  | .list [tick, value, count] =>
    (sampleOfValues clock tick value count).mapError fun f =>
      if isBadValue f then .refusal (.badSample entry.describe) else f
  | _ => .error (Refusal.badSample entry.describe)

/-- The samples of a field; without the field there are none. -/
def samplesOfField (clock : Clock) : Option Json → Except Fault (List CounterSample)
  | none => .ok []
  | some (.list entries) => entries.mapM (sampleOfEntry clock)
  | some value => .error (Refusal.samplesNotList value.describe)

/-- The counter of an object. -/
def ofFields (clock : Clock) (fields : Json.Fields) : Except Fault Counter :=
  match fields.lookup "name", fields.lookup "category" with
  | some name, some category => do
    let category ← categoryOfValue category
    let samples ← samplesOfField clock (fields.lookup "samples")
    pure ⟨name.asText, category, optionalText fields "description",
      GraphColor.ofName? (optionalText fields "color"), samples⟩
  | _, _ => .error Refusal.incompleteDocument

/-- The counter of a document, which may be nested so many levels deep. -/
def ofDocument (nesting : Nat) (clock : Clock) (document : String) : Except Fault Counter :=
  match Json.read nesting document with
  | .error .malformed => .error Refusal.badDocument
  | .error (.tooLong digits) => .error (Failure.integerLength digits)
  | .error (.tooDeep container) => .error (Failure.nesting container)
  | .ok value =>
    match value.fields? with
    | none => .error Refusal.incompleteDocument
    | some fields => ofFields clock fields

/-- The first visible character is an opening brace. -/
def isDocument (content : String) : Bool :=
  (content.toList.dropWhile Text.isBlank).head? == some '\x7b'

/-- The counter of a file's content, in either form. -/
def ofText (nesting : Nat) (clock : Clock) (content : String) : Except Fault Counter :=
  if isDocument content then ofDocument nesting clock content
  else ofLines clock (Text.lines content)

end TraceProfile.Counter
