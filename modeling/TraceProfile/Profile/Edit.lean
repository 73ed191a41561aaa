import TraceProfile.Profile.Basic

/-!
# Edits of profiles

An edit stores something in a profile and may end in a fault. What it had stored before the fault
stays stored: a fault can leave texts behind that nothing refers to.
-/

namespace TraceProfile

/-- An operation on a profile. It has an effect also if it ends in a fault. -/
abbrev Edit := ExceptT Fault (StateM Profile)

namespace Edit

/-- A result without an effect. -/
def ofExcept {α : Type} (result : Except Fault α) : Edit α := ExceptT.mk (pure result)

/-- The result of an operation on a profile, and the profile afterwards. -/
def runOn {α : Type} (edit : Edit α) (p : Profile) : Except Fault α × Profile :=
  (ExceptT.run edit).run p

/-- A text gets a handle. -/
def internString (s : String) : Edit Nat := modifyGet (Profile.internString s)

/-- A category gets a handle. -/
def addCategory (name : String) (color : CategoryColor) : Edit Nat :=
  modifyGet (Profile.addCategory name color)

/-- A schema gets a handle. -/
def registerSchema (schema : MarkerSchema) : Edit Nat := modifyGet (Profile.registerSchema schema)

/-- An optional text gets a handle. -/
def internOptional : Option String → Edit (Option Nat)
  | none => pure none
  | some s => some <$> internString s

/-- The texts of a frame get handles. -/
def internFrame (frame : Frame) : Edit StoredFrame := do
  let library ← internOptional (frame.library.map (·.name))
  let label ← internOptional frame.label
  pure ⟨frame.kind, frame.category, frame.address, library, frame.offset, label⟩

/-- The process of a handle is changed. -/
def changeProcess (handle : Nat) (change : Process → Process) : Edit Unit := do
  match (← get).processes[handle]? with
  | none => throw (.failure .noEntry)
  | some process =>
    modify fun p => { p with processes := p.processes.set handle (change process) }

/-- The thread of a handle is changed. -/
def changeThread (handle : Nat) (change : Thread → Thread) : Edit Unit := do
  match (← get).threads[handle]? with
  | none => throw (.failure .noEntry)
  | some thread => modify fun p => { p with threads := p.threads.set handle (change thread) }

/-- A thread is added to a process. It is stored before the process is looked for, and so stays
behind when there is no such process. -/
def addThread (process : Nat) (tid : SystemId) (name : String) (isMain : Bool) :
    Edit Nat := do
  let handle ← modifyGet (Profile.appendThread ⟨process, tid, name, isMain, [], []⟩)
  changeProcess process fun owner => { owner with threads := owner.threads ++ [handle] }
  pure handle

/-- A sample is added to a thread. -/
def addSample (thread : Nat) (time : Int) (frames : List Frame) (delta weight : Int) :
    Edit Unit := do
  let stored ← frames.mapM internFrame
  changeThread thread fun t => { t with samples := t.samples ++ [⟨time, stored, delta, weight⟩] }

/-- The schema of a handle. -/
def getSchema (handle : Nat) : Edit MarkerSchema := do
  match (← get).schemas.get? handle with
  | none => throw (.failure .noEntry)
  | some schema => pure schema

/-- A marker is added to a thread, with a value for every field of its schema. -/
def addMarker (thread : Nat) (timing : MarkerTiming) (payload : Payload) : Edit MarkerHandle := do
  let schema ← getSchema payload.schema
  let values ← ofExcept (payload.body.valuesFrom 0 schema.fields)
  match (← get).threads[thread]? with
  | none => throw (.failure .noEntry)
  | some t =>
    let marker := ⟨timing, payload.name, payload.category, payload.schema, values, none⟩
    modify fun p =>
      { p with threads := p.threads.set thread { t with markers := t.markers ++ [marker] } }
    pure ⟨thread, t.markers.length⟩

/-- A marker of a thread gets a stack. The texts of the frames get handles even if there is no
such thread or marker. -/
def setMarkerStack (thread : Nat) (marker : MarkerHandle) (frames : List Frame) : Edit Unit := do
  if marker.thread ≠ thread then throw (.refusal (.foreignMarker marker.thread thread))
  let stored ← frames.mapM internFrame
  match (← get).threads[thread]? with
  | none => throw (.failure .noEntry)
  | some t =>
    match t.markers[marker.index]? with
    | none => throw (.failure .noEntry)
    | some m =>
      let markers := t.markers.set marker.index { m with stack := some stored }
      modify fun p => { p with threads := p.threads.set thread { t with markers } }

/-- A counter track is added. -/
def addCounter (process : Nat) (name : String) (category : CounterCategory) (description : String)
    (color : Option GraphColor) : Edit Nat :=
  modifyGet (Profile.addCounter ⟨process, name, category, description, color, []⟩)

/-- A sample is added to a counter track. -/
def addCounterSample (counter : Nat) (sample : CounterSample) : Edit Unit := do
  match (← get).counters[counter]? with
  | none => throw (.failure .noEntry)
  | some track =>
    let samples := track.samples ++ [(sample.time, sample.value, sample.count)]
    modify fun p => { p with counters := p.counters.set counter { track with samples } }

end Edit

end TraceProfile
