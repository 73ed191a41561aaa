import TraceProfile.Marker.Basic
import TraceProfile.Marker.Duration
import TraceProfile.Number.Amount
import TraceProfile.Profile.Schema

/-!
# Marker payloads

A payload holds what a profile needs to store a marker: its schema, name and category, and a
value for every field of the schema. Fields are asked for by their place, as a text or as a
number; a payload refuses the kind that it does not hold there.
-/

namespace TraceProfile

/-- The value of a field: the handle of a text, or a number. -/
inductive FieldValue where
  /-- The handle of a text. -/
  | text (handle : Nat)
  /-- A number. -/
  | number (amount : Amount)
  deriving DecidableEq, Repr

/-- A number of nanoseconds in milliseconds, to the microsecond. -/
def Duration.toMilliseconds (ns : Int) : Except Fault Binary64 :=
  (decimalOfInteger (ns / 1000)).map (·.divide 1000)

/-- The field values of a marker by its kind. -/
inductive PayloadBody where
  /-- An event: its message and further texts. -/
  | event (message : Nat) (extra : List Nat)
  /-- A span: idle and busy time, its message and further texts. -/
  | span (timings : Timings) (message : Nat) (extra : List Nat)
  /-- A point of a graph. -/
  | graphPoint (value : Amount)
  /-- Any values, in the order of the fields. -/
  | values (amounts : List Amount)
  deriving DecidableEq, Repr

/-- What a profile stores of a marker, its times apart. -/
structure Payload where
  /-- The handle of its schema. -/
  schema : Nat
  /-- The handle of its name. -/
  name : Nat
  /-- The handle of its category. -/
  category : Int
  /-- The field values. -/
  body : PayloadBody
  deriving DecidableEq, Repr

namespace PayloadBody

/-- The fields that come before the further texts of a span. -/
def fixedSpanFields : Nat := 3

/-- The entry of a list of values; there must be one. -/
def entry {α : Type} (values : List α) (place : Nat) : Except Fault α :=
  match values[place]? with
  | some value => .ok value
  | none => .error Failure.noEntry

/-- A number in the place of a text: it is the handle of the text if it can be one. -/
def handleOf : Amount → FieldValue
  | .whole (.ofNat handle) => .text handle
  | amount => .number amount

/-- The text in a field. -/
def text (body : PayloadBody) (field : Nat) : Except Fault FieldValue :=
  match body with
  | event message extra =>
    if field = 0 then .ok (.text message) else (entry extra (field - 1)).map .text
  | span _ message extra =>
    if field = 2 then .ok (.text message)
    else if field < fixedSpanFields then .error (Refusal.notTextField field)
    else (entry extra (field - fixedSpanFields)).map .text
  | graphPoint _ => .error (Refusal.graphText field)
  | values amounts => (entry amounts field).map handleOf

/-- The number in a field. -/
def number (body : PayloadBody) (field : Nat) : Except Fault FieldValue :=
  match body with
  | event _ _ => .error (Refusal.eventNumber field)
  | span timings _ _ =>
    if field = 0 then (Duration.toMilliseconds timings.idle).map fun ms => .number (.real ms)
    else if field = 1 then (Duration.toMilliseconds timings.busy).map fun ms => .number (.real ms)
    else .error (Refusal.notNumberField field)
  | graphPoint value =>
    if field = 0 then .ok (.number value) else .error (Refusal.notNumberField field)
  | values amounts => (entry amounts field).map .number

/-- The value in a field of the given format. -/
def value (body : PayloadBody) (format : FieldFormat) (field : Nat) : Except Fault FieldValue :=
  if format = .text then body.text field else body.number field

/-- The values of all fields from the given place on. -/
def valuesFrom (body : PayloadBody) (place : Nat) :
    List FieldSchema → Except Fault (List FieldValue)
  | [] => .ok []
  | field :: rest => do
    let first ← body.value field.format place
    let others ← body.valuesFrom (place + 1) rest
    pure (first :: others)

end PayloadBody

end TraceProfile
