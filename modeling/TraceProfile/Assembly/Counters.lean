import TraceProfile.Assembly.Recording

/-!
# Flushing counters

A counter becomes a track of its process. A custom counter has no track that could show it; each
of its samples becomes an instant marker under the schema of its graph.
-/

namespace TraceProfile.Counter

/-- The samples of a custom counter are stored as points of a graph. -/
def storeGraph (c : Counter) (thread : Nat) : Edit Unit := do
  let schema ← Edit.registerSchema (.graph c.name c.color)
  let name ← Edit.internString c.name
  c.samples.forM fun sample => do
    let _ ← Edit.addMarker thread (.instant sample.time)
      ⟨schema, name, Profile.otherCategory, .graphPoint sample.value⟩

/-- The samples of a counter are stored as a track. -/
def storeTrack (c : Counter) (process : Nat) : Edit Unit := do
  let track ← Edit.addCounter process c.name c.category c.description c.color
  c.samples.forM (Edit.addCounterSample track)

/-- A counter is stored. -/
def store (c : Counter) (process thread : Nat) : Edit Unit :=
  if c.category = .custom then c.storeGraph thread else c.storeTrack process

end TraceProfile.Counter

namespace TraceProfile

/-- Counters are stored one after the other. -/
def flushCounters (process : Nat) (counters : List (Nat × Counter)) : Edit Unit :=
  counters.forM fun (thread, c) => c.store process thread

end TraceProfile
