import TraceProfile.Json.Writer
import TraceProfile.Marker.Basic

/-!
# Pairing span records

A span is logged by an opening and a closing record under one id. Two conventions pair records
independently: one for the lifetime of a span, one for each stretch of its activity. A record
that comes out of turn is dropped, and what is pending stays as it is.
-/

namespace TraceProfile

/-- A way to log spans in pairs of records. -/
inductive Convention where
  /-- The creation and the end of a span. -/
  | lifetime
  /-- The start and the end of a stretch of activity. -/
  | activity
  deriving DecidableEq, Repr

/-- The part of a record in its pair. -/
inductive Turn where
  | opening | closing
  deriving DecidableEq, Repr

namespace Convention

/-- The message of the records with a part. -/
def keyword : Convention → Turn → String
  | lifetime, .opening => "new"
  | lifetime, .closing => "close"
  | activity, .opening => "enter"
  | activity, .closing => "exit"

/-- The kind of span that a pair makes. -/
def spanKind : Convention → SpanKind
  | lifetime => .total
  | activity => .running

/-- The part of the records with a message. -/
def turn? (c : Convention) (message : String) : Option Turn :=
  if message = c.keyword .opening then some .opening
  else if message = c.keyword .closing then some .closing
  else none

/-- The convention and the part of the records with a message. -/
def ofMessage? (message : String) : Option (Convention × Turn) :=
  match turn? .lifetime message with
  | some turn => some (.lifetime, turn)
  | none => (turn? .activity message).map fun turn => (.activity, turn)

end Convention

/-- The opening records that wait for their closing records, by id. -/
structure Tracker where
  /-- The records. -/
  pending : List (Int × Json.Fields)

/-- What a record brings about. -/
inductive PairingStep where
  /-- It waits for its closing record. -/
  | opened
  /-- It closes the span of the given opening record. -/
  | closed (start : Json.Fields)
  /-- It is dropped, since a record with the given part was due. -/
  | outOfTurn (due : Turn)

namespace Tracker

/-- The tracker without pending records. -/
def empty : Tracker := ⟨[]⟩

/-- The ids with a pending record, in ascending order. -/
def ids (t : Tracker) : List Int := (t.pending.map (·.1)).mergeSort fun a b => a ≤ b

/-- A record comes in. -/
def step (t : Tracker) (id : Int) (record : Json.Fields) (turn : Turn) : Tracker × PairingStep :=
  match t.pending.lookup id, turn with
  | some start, .closing => (⟨Assoc.erase id t.pending⟩, .closed start)
  | some _, .opening => (t, .outOfTurn .closing)
  | none, .opening => (⟨Assoc.insert id record t.pending⟩, .opened)
  | none, .closing => (t, .outOfTurn .opening)

end Tracker

end TraceProfile
