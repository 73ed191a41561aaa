/-!
# Raw samples

A raw sample is a stack taken on a thread at a time. It counts processor time or belongs to a
marker. Its tick tells which mappings were active.
-/

namespace TraceProfile

/-- A marker of a profile: its thread and its place among the markers of the thread. -/
structure MarkerHandle where
  /-- The thread. -/
  thread : Nat
  /-- The place. -/
  index : Nat
  deriving DecidableEq, Repr

/-- What a sample is about. -/
inductive SamplePayload where
  /-- Processor time and the weight of the sample. -/
  | processor (delta weight : Int)
  /-- The stack of a marker. -/
  | marker (handle : MarkerHandle)
  deriving DecidableEq, Repr

/-- A sample as it was recorded. -/
structure RawSample where
  /-- The thread. -/
  thread : Nat
  /-- The time in the profile. -/
  time : Int
  /-- The tick, for the replay of mappings. -/
  tick : Int
  /-- The id of the stack in the stack store. -/
  stack : Option Nat
  /-- What the sample is about. -/
  payload : SamplePayload
  /-- The label in front of the leaf. -/
  label : Option String
  deriving DecidableEq, Repr

/-- Samples in the order of their ticks; equal ticks keep their order. -/
def RawSample.inTickOrder (samples : List RawSample) : List RawSample :=
  samples.mergeSort fun a b => a.tick ≤ b.tick

end TraceProfile
