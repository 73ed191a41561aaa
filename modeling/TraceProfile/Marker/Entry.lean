import TraceProfile.Json.Reader
import TraceProfile.Log
import TraceProfile.Marker.Pairing

/-!
# Entries of span logs

A line holds an id, a blank and a JSON object; a second number may follow the id after a comma.
The object of an entry with an id other than zero is a record of a span, and its message says
which part of the span it is.
-/

namespace TraceProfile

/-- A record after its line has been taken apart. -/
structure JournalEntry where
  /-- The id. -/
  id : Int
  /-- The number after the id. -/
  thread : Option Int
  /-- The object. -/
  record : Json.Fields

namespace JournalEntry

/-- The id of a line and the number after it. -/
def readIds (ids : String) : Option (Int × Option Int) :=
  let (id, thread) := (Text.cut? ',' ids).getD (ids, "")
  match Numeral.readInteger id with
  | .error _ => none
  | .ok id =>
    if thread.isEmpty then some (id, none)
    else (Numeral.readInteger thread).toOption.map fun thread => (id, some thread)

/-- Why a line gives no entry: it is dropped, or it stops the reading. -/
inductive Defect where
  /-- The line is dropped. -/
  | dropped (reason : DropReason)
  /-- The reading stops. -/
  | fatal (f : Failure)

/-- The entry of a line, whose object may be nested so many levels deep. -/
def read (nesting : Nat) (line : String) : Except Defect JournalEntry :=
  match Text.cut? ' ' line with
  | none => .error (.dropped .noId)
  | some (ids, document) =>
    match readIds ids with
    | none => .error (.dropped .invalidId)
    | some (id, thread) =>
      if id < 0 then .error (.dropped .negativeId)
      else
        match Json.read nesting document with
        | .error .malformed => .error (.dropped .invalidJson)
        | .error (.tooLong digits) => .error (.fatal (.integerLength digits))
        | .error (.tooDeep container) => .error (.fatal (.nesting container))
        | .ok value =>
          match value.fields? with
          | none => .error (.dropped .notObject)
          | some record => .ok ⟨id, thread, record⟩

/-- The message of a span record, if it is a text. -/
def message? (e : JournalEntry) : Option String := do
  let fields ← (← e.record.lookup "fields").fields?
  (← fields.lookup "message").text?

/-- The convention and the part of a span record. -/
def role? (e : JournalEntry) : Option (Convention × Turn) :=
  if e.id = 0 then none else e.message?.bind Convention.ofMessage?

end JournalEntry

end TraceProfile
