import TraceProfile.Assembly.Recording

/-!
# Flushing markers

Every marker is stored under the schema for its kind and the names of its further fields, in
ascending order. Handles of categories and schemas are kept for the time of a flush.
-/

namespace TraceProfile

/-- Handles that a flush has been given already. -/
structure HandleCache where
  /-- Categories by name. -/
  categories : List (String × Nat)
  /-- Schemas of events by field names. -/
  events : List (List String × Nat)
  /-- Schemas of spans by field names. -/
  spans : List (List String × Nat)

namespace HandleCache

/-- No handles. -/
def empty : HandleCache := ⟨[], [], []⟩

/-- The handle that is kept for a key. If there is none, the profile is asked for one, which is
kept from then on. -/
def fetch {β : Type} [BEq β] (table : List (β × Nat)) (b : β) (request : Edit Nat) :
    Edit (Nat × List (β × Nat)) :=
  match table.lookup b with
  | some handle => pure (handle, table)
  | none => do
    let handle ← request
    pure (handle, Assoc.insert b handle table)

/-- The handle of the category of a span. -/
def category (cache : HandleCache) (name : String) : Edit (Nat × HandleCache) := do
  let (handle, categories) ← fetch cache.categories name (Edit.addCategory name .green)
  pure (handle, { cache with categories })

/-- The handle of the schema of a span or of an event, for which there are two tables. -/
def schema (cache : HandleCache) (isSpan : Bool) (names : List String) :
    Edit (Nat × HandleCache) :=
  match isSpan with
  | false => do
    let (handle, events) ← fetch cache.events names (Edit.registerSchema (.event names))
    pure (handle, { cache with events })
  | true => do
    let (handle, spans) ← fetch cache.spans names (Edit.registerSchema (.span names))
    pure (handle, { cache with spans })

end HandleCache

namespace Payload

/-- The payload of an event. -/
def ofEvent (category : Int) (marker : Marker) (schema : Nat) (values : List String) :
    Edit Payload := do
  let message ← Edit.internString marker.message
  let target ← Edit.internString marker.target
  let extra ← values.mapM Edit.internString
  pure ⟨schema, target, category, .event message extra⟩

/-- The payload of a span: its name is the label under which it is shown, or else its kind. -/
def ofSpan (cache : HandleCache) (marker : Marker) (span : Span) (schema : Nat)
    (values : List String) : Edit (Payload × HandleCache) := do
  let label ← Edit.internString (span.profilerLabel.getD span.kind.name)
  let (category, cache) ← cache.category span.category
  let message ← Edit.internString marker.message
  let extra ← values.mapM Edit.internString
  pure (⟨schema, label, category, .span span.timings message extra⟩, cache)

end Payload

namespace Marker

/-- The further fields in ascending order of their names. -/
def sortedFields (m : Marker) : List (String × String) := Assoc.sorted m.fields

/-- The names of the further fields. -/
def fieldNames (m : Marker) : List String := m.sortedFields.map (·.1)

/-- The values of the further fields. -/
def fieldValues (m : Marker) : List String := m.sortedFields.map (·.2)

/-- A marker is stored on a thread. -/
def store (m : Marker) (logging : Nat) (thread : Nat) (cache : HandleCache) :
    Edit HandleCache :=
  match m.span with
  | none => do
    let (schema, cache) ← cache.schema false m.fieldNames
    let payload ← Payload.ofEvent logging m schema m.fieldValues
    let _ ← Edit.addMarker thread (.instant m.start) payload
    pure cache
  | some span => do
    let (schema, cache) ← cache.schema true m.fieldNames
    let (payload, cache) ← Payload.ofSpan cache m span schema m.fieldValues
    let timing ← Edit.ofExcept (MarkerTiming.interval m.start span.stop)
    let _ ← Edit.addMarker thread timing payload
    pure cache

end Marker

/-- The category of events. -/
def loggingCategory : String := "(Logging)"

/-- Markers are stored one after the other; the result is their statistics. -/
def flushMarkers (markers : List (Nat × Marker)) : Edit Statistics := do
  let logging ← Edit.addCategory loggingCategory .green
  let _ ← markers.foldlM (fun cache (thread, m) => m.store logging thread cache) HandleCache.empty
  pure (.ofMarkers (markers.map (·.2)))

end TraceProfile
