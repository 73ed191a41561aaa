import TraceProfile.Fault
import TraceProfile.Number.Amount
import TraceProfile.Palette

/-!
# Counters

A counter is a named series of samples. Each sample changes the counted value by an amount, in
a number of operations.
-/

namespace TraceProfile

/-- A change of a counter. -/
structure CounterSample where
  /-- The time of the change. -/
  time : Int
  /-- The change of the value. -/
  value : Amount
  /-- The number of operations. -/
  count : Int
  deriving DecidableEq, Repr

/-- A sample as a message shows it. -/
def CounterSample.describe (s : CounterSample) : String :=
  s!"CounterSample({s.time}, {s.value.text}, {s.count})"

/-- A counter. -/
structure Counter where
  /-- The name. -/
  name : String
  /-- What it counts. -/
  category : CounterCategory
  /-- What it is about. -/
  description : String
  /-- The color of its graph. -/
  color : Option GraphColor
  /-- The changes, in the order of the file. -/
  samples : List CounterSample
  deriving DecidableEq, Repr

end TraceProfile
