import TraceProfile.Fault
import TraceProfile.Number.Numeral

/-!
# Times of markers

A marker is instant or lasts from a start to an end that does not come before it.
-/

namespace TraceProfile

/-- The times of a marker: a start and, unless it is instant, an end. -/
structure MarkerTiming where
  /-- The start. -/
  start : Int
  /-- The end. -/
  stop : Option Int
  /-- A marker does not end before it starts. -/
  ordered : ∀ last ∈ stop, start ≤ last

namespace MarkerTiming

/-- The times of an instant marker. -/
def instant (time : Int) : MarkerTiming := ⟨time, none, by simp⟩

/-- The fault of a marker that ends before it starts: a refusal that states both times, which must
have a text for that. -/
def reversal (start stop : Int) : Fault :=
  if Numeral.hasText start && Numeral.hasText stop then .refusal (.reversedMarker start stop)
  else .failure .integerSize

/-- The times of a marker with the given end. -/
def interval (start stop : Int) : Except Fault MarkerTiming :=
  if h : stop < start then .error (reversal start stop)
  else .ok ⟨start, some stop, by intro last same; simp at same; omega⟩

/-- The times of a marker with or without an end. -/
def make (start : Int) : Option Int → Except Fault MarkerTiming
  | none => .ok (instant start)
  | some stop => interval start stop

/-- The marker has no end of its own. -/
def isInstant (t : MarkerTiming) : Bool := t.stop.isNone

end MarkerTiming

end TraceProfile
