import TraceProfile.Catalogue
import TraceProfile.Counter.Basic
import TraceProfile.Frame
import TraceProfile.Profile.Payload
import TraceProfile.Profile.Timing
import TraceProfile.Sample
import TraceProfile.SystemId

/-!
# Profiles

A profile collects the processed samples, markers and counters of any number of processes.
Texts, categories and marker schemas have one entry each per text or name, and everything else
refers to them by handle.
-/

namespace TraceProfile

/-- A category of frames and markers. -/
structure Category where
  /-- The name. -/
  name : String
  /-- The color. -/
  color : CategoryColor
  deriving DecidableEq, Repr

/-- A process and its threads. -/
structure Process where
  /-- The number that the system gave it. -/
  pid : SystemId
  /-- The name. -/
  name : String
  /-- The handles of its threads. -/
  threads : List Nat
  deriving DecidableEq, Repr

/-- A resolved frame as a profile stores it. -/
structure StoredFrame where
  /-- Where it runs. -/
  kind : FrameKind
  /-- The handle of its category. -/
  category : Int
  /-- The address. -/
  address : Int
  /-- The handle of the name of its library. -/
  library : Option Nat
  /-- The address relative to the library. -/
  offset : Option Int
  /-- The handle of its label. -/
  label : Option Nat
  deriving DecidableEq, Repr

/-- The address of the frame lies in a library. -/
def StoredFrame.isResolved (frame : StoredFrame) : Bool := frame.library.isSome

/-- A sample of a thread. -/
structure StoredSample where
  /-- The time. -/
  time : Int
  /-- The stack, leaf first. -/
  frames : List StoredFrame
  /-- The processor time since the sample before. -/
  delta : Int
  /-- The weight. -/
  weight : Int
  deriving DecidableEq, Repr

/-- A marker of a thread. -/
structure StoredMarker where
  /-- The times. -/
  timing : MarkerTiming
  /-- The handle of its name. -/
  name : Nat
  /-- The handle of its category. -/
  category : Int
  /-- The handle of its schema. -/
  schema : Nat
  /-- The values of the fields of the schema. -/
  values : List FieldValue
  /-- The stack, if one was attached. -/
  stack : Option (List StoredFrame)

/-- A thread. -/
structure Thread where
  /-- The handle of its process. -/
  process : Nat
  /-- The number that the system gave it. -/
  tid : SystemId
  /-- The name. -/
  name : String
  /-- It is the main thread of its process. -/
  isMain : Bool
  /-- The samples. -/
  samples : List StoredSample
  /-- The markers. -/
  markers : List StoredMarker

/-- A counter shown as a track of its process. -/
structure CounterTrack where
  /-- The handle of the process. -/
  process : Nat
  /-- The name. -/
  name : String
  /-- What is counted. -/
  category : CounterCategory
  /-- What it is about. -/
  description : String
  /-- The color. -/
  color : Option GraphColor
  /-- Times, changes and numbers of operations. -/
  samples : List (Int × Amount × Int)
  deriving DecidableEq, Repr

/-- A profile. -/
structure Profile where
  /-- The product that made it. -/
  product : String
  /-- The sampling interval in nanoseconds. -/
  interval : Int
  /-- The texts. -/
  strings : Catalogue (id : String → String)
  /-- The categories, one per name. -/
  categories : Catalogue Category.name
  /-- The marker schemas, one per type name. -/
  schemas : Catalogue MarkerSchema.typeName
  /-- The processes. -/
  processes : List Process
  /-- The threads of all processes. -/
  threads : List Thread
  /-- The counter tracks of all processes. -/
  counters : List CounterTrack

namespace Profile

/-- The handle of the category for everything without one. -/
def otherCategory : Nat := 0

/-- The profile of a product before anything is collected. -/
def create (product : String) (interval : Int) : Profile where
  product := product
  interval := interval
  strings := .empty
  categories := (Catalogue.empty.ensure ⟨"Other", .grey⟩).2
  schemas := .empty
  processes := []
  threads := []
  counters := []

/-- The text of a handle. -/
def getString (p : Profile) (handle : Nat) : Except Fault String :=
  PayloadBody.entry p.strings.entries handle

/-- A text gets a handle. -/
def internString (s : String) (p : Profile) : Nat × Profile :=
  let (handle, strings) := p.strings.ensure s
  (handle, { p with strings })

/-- A category gets a handle; the first color of a name stays. -/
def addCategory (name : String) (color : CategoryColor) (p : Profile) : Nat × Profile :=
  let (handle, categories) := p.categories.ensure ⟨name, color⟩
  (handle, { p with categories })

/-- A schema gets a handle; the first schema of a type name stays. -/
def registerSchema (schema : MarkerSchema) (p : Profile) : Nat × Profile :=
  let (handle, schemas) := p.schemas.ensure schema
  (handle, { p with schemas })

/-- A process is added. -/
def addProcess (pid : SystemId) (name : String) (p : Profile) : Nat × Profile :=
  (p.processes.length, { p with processes := p.processes ++ [⟨pid, name, []⟩] })

/-- A counter track is added. -/
def addCounter (track : CounterTrack) (p : Profile) : Nat × Profile :=
  (p.counters.length, { p with counters := p.counters ++ [track] })

/-- A thread is added to the list of all threads. -/
def appendThread (thread : Thread) (p : Profile) : Nat × Profile :=
  (p.threads.length, { p with threads := p.threads ++ [thread] })

end Profile

end TraceProfile
