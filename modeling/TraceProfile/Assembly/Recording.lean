import TraceProfile.Counter.Basic
import TraceProfile.Mapping.Replay
import TraceProfile.Marker.Statistics
import TraceProfile.Profile.Edit
import TraceProfile.Stack.Resolution
import TraceProfile.Stack.Store

/-!
# Recordings

A recording is everything that was recorded of one process: samples, mapping operations, markers
and counters. It waits to be flushed into a profile, which can be done once.
-/

namespace TraceProfile

/-- What was recorded of one process. -/
structure Recording where
  /-- The samples that have not been flushed. -/
  samples : List RawSample
  /-- The mappings that the system reported. -/
  regular : OpQueue
  /-- The mappings of generated code. -/
  generated : List OpQueue
  /-- The mappings of a symbol map. -/
  symbols : Option OpQueue
  /-- The markers, each with its thread. -/
  markers : List (Nat × Marker)
  /-- The counters, each with its thread. -/
  counters : List (Nat × Counter)
  /-- The handle of the process. -/
  process : Nat
  /-- It has been flushed, successfully or not. -/
  flushed : Bool

namespace Recording

/-- No sample waits. -/
def isEmpty (r : Recording) : Bool := r.samples.isEmpty

/-- The queues in the order of their registration: the regular one first. -/
def queues (r : Recording) : List OpQueue := r.regular :: r.generated ++ r.symbols.toList

/-- The replay of all mapping operations. -/
def replay (r : Recording) : Replay := .ofQueues r.queues

end Recording

/-- How a recording is flushed. -/
structure FlushPlan where
  /-- The categories of frames. -/
  categories : FrameCategories
  /-- The stacks of the samples. -/
  store : StackStore
  /-- The depth limit; without one the standard limit holds. -/
  depth : Option Int
  /-- The number of samples is reported. -/
  verbose : Bool

end TraceProfile
