import TraceProfile.Fault

/-!
# Markers

A marker is an event at one time or a span between two. A span carries how long it was busy and
idle, its category, and the labels under which it is shown and counted.
-/

namespace TraceProfile

/-- Busy and idle time of a span, in nanoseconds. -/
structure Timings where
  /-- The busy time. -/
  busy : Int
  /-- The idle time. -/
  idle : Int
  deriving DecidableEq, Repr

namespace Timings

/-- No time. -/
def zero : Timings := ⟨0, 0⟩

/-- Busy and idle time together. -/
def total (t : Timings) : Int := t.busy + t.idle

/-- The times of two spans. -/
def add (a b : Timings) : Timings := ⟨a.busy + b.busy, a.idle + b.idle⟩

instance : Add Timings := ⟨add⟩

/-- Timings as a message shows them. -/
def describe (t : Timings) : String := s!"TracingTimings(busy={t.busy}ns, idle={t.idle}ns)"

/-- The busy times of two timings add up. -/
@[simp] theorem busy_add (a b : Timings) : (a + b).busy = a.busy + b.busy := rfl

/-- The idle times of two timings add up. -/
@[simp] theorem idle_add (a b : Timings) : (a + b).idle = a.idle + b.idle := rfl

end Timings

/-- The kinds of span: from creation to end, or one stretch of activity. -/
inductive SpanKind where
  | total | running
  deriving DecidableEq, Repr

/-- The name of a span kind. -/
def SpanKind.name : SpanKind → String
  | total => "Total"
  | running => "Running"

/-- All span kinds. -/
def SpanKind.all : List SpanKind := [total, running]

/-- The span kind of a name. -/
def SpanKind.ofName? (name : String) : Option SpanKind := all.find? (·.name == name)

/-- What a span has beyond an event. -/
structure Span where
  /-- The kind of span. -/
  kind : SpanKind
  /-- The time of its end. -/
  stop : Int
  /-- Busy and idle time. -/
  timings : Timings
  /-- The name of its category. -/
  category : String
  /-- The label under which it is shown. -/
  profilerLabel : Option String
  /-- The label under which it is counted. -/
  statsLabel : Option String
  deriving DecidableEq, Repr

/-- An event or a span. -/
structure Marker where
  /-- The time of the event, or of the start of the span. -/
  start : Int
  /-- What happened. -/
  message : String
  /-- The part of the program that it happened in. -/
  target : String
  /-- Further fields; their names are distinct. -/
  fields : List (String × String)
  /-- What makes the marker a span. -/
  span : Option Span
  deriving DecidableEq, Repr

namespace Marker

/-- A marker as a message shows it. -/
def describe (m : Marker) : String :=
  let kind := (m.span.map (·.kind.name)).getD "Event"
  s!"EventOrSpanMarker({kind}, {Text.quote m.message}, start={m.start})"

/-- Markers in the order of their starts; equal starts keep their order. -/
def inStartOrder (markers : List Marker) : List Marker :=
  markers.mergeSort fun a b => a.start ≤ b.start

end Marker

end TraceProfile
