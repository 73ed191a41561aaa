import TraceProfile.Assoc
import TraceProfile.Marker.Basic
import TraceProfile.Marker.Duration
import TraceProfile.Text.Split

/-!
# Statistics

The timings of all spans of whole lifetimes are summed up per label, and per type, which is what
a label says before its first dash. A report ranks the labels by total, busy and idle time.
-/

namespace TraceProfile

/-- Summed timings by label, in the order in which the labels came. -/
structure Statistics where
  /-- The sums. -/
  sums : List (String × Timings)
  deriving DecidableEq, Repr

namespace Statistics

/-- The statistics of no span. -/
def empty : Statistics := ⟨[]⟩

/-- Nothing has been counted. -/
def isEmpty (s : Statistics) : Bool := s.sums.isEmpty

/-- Timings are added to the sum of a label. -/
def credit (s : Statistics) (label : String) (timings : Timings) : Statistics :=
  ⟨Assoc.insert label ((s.sums.lookup label).getD .zero + timings) s.sums⟩

/-- The label and timings that a marker counts with: spans of whole lifetimes with a label. -/
def contribution? (m : Marker) : Option (String × Timings) := do
  let span ← m.span
  if span.kind = .total then (← span.statsLabel, span.timings) else none

/-- A marker is counted. -/
def count (s : Statistics) (m : Marker) : Statistics :=
  match contribution? m with
  | some (label, timings) => s.credit label timings
  | none => s

/-- The statistics of a list of markers. -/
def ofMarkers (markers : List Marker) : Statistics := markers.foldl count empty

/-- The type of a label. -/
def typeOf (label : String) : String := Text.before '-' label

/-- The sums of the labels of each type. -/
def perType (s : Statistics) : Statistics :=
  s.sums.foldl (fun byType (label, timings) => byType.credit (typeOf label) timings) empty

/-- One entry comes before another in a ranking: by greater value, then by label. -/
def ranksBefore (a b : String × Int) : Bool :=
  b.2 < a.2 || (a.2 == b.2 && decide (a.1 ≤ b.1))

/-- The labels with a value of their sums, ranked. -/
def ranked (s : Statistics) (value : Timings → Int) : List (String × Int) :=
  (s.sums.map fun (label, timings) => (label, value timings)).mergeSort ranksBefore

/-- The lines of one ranking. -/
def rankingLines (s : Statistics) (title : String) (value : Timings → Int) : List String :=
  s!"\t{title}:" :: (s.ranked value).map fun (label, amount) =>
    s!"\t\t{Text.padRight 40 label}\t{Duration.format amount}"

/-- The lines of the three rankings. -/
def tableLines (s : Statistics) (title : String) : List String :=
  s!"{title}:" :: (s.rankingLines "Total" Timings.total ++
    s.rankingLines "Busy" Timings.busy ++ s.rankingLines "Idle" Timings.idle)

/-- The lines of the report. -/
def reportLines (s : Statistics) : List String :=
  s.perType.tableLines "Per Type" ++ s.tableLines "Per Collection"

end Statistics

end TraceProfile
