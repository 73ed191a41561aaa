import TraceProfile.Assembly.Flush
import TraceProfile.CommandLine.Invocation
import TraceProfile.Inputs
import TraceProfile.Marker.FileName
import TraceProfile.Profile.Document

/-!
# Commands

The three commands: two print what they read, and one makes a profile of any number of files.
All times are those of the files. How deep the documents in them may be nested is given from
outside.
-/

namespace TraceProfile.CommandLine

/-- A marker as a line. -/
def markerLine (m : Marker) : String :=
  match m.span with
  | none => s!"{m.start}\tevent\t{m.target}\t{m.message}"
  | some span =>
    s!"{m.start}\t{span.kind.name}\t{span.category}\t{m.message}\t" ++
      Duration.format (span.stop - m.start)

/-- The lines of all markers, with their number and statistics. -/
def markerLines (markers : List Marker) : List String :=
  markers.map markerLine ++ [s!"{markers.length} markers"] ++
    Recording.statisticsLines (.ofMarkers markers)

/-- A sample as a line. -/
def sampleLine (sample : CounterSample) : String :=
  s!"{sample.time}\t{sample.value.text}\t{sample.count}"

/-- The line above the samples of a counter, in bold type. -/
def counterTitle (c : Counter) : String :=
  let color := (c.color.map GraphColor.name).getD "-"
  s!"\x1b[1m{c.name} [{c.category.name}] {color}: {c.description}\x1b[0m"

/-- The lines of a counter. -/
def counterLines (c : Counter) : List String := counterTitle c :: c.samples.map sampleLine

/-- The path that an argument gives. -/
def pathOf (argument : Option String) : Except Fault String :=
  match argument with
  | some path => .ok path
  | none => .error Failure.noPath

namespace Conversion

/-- The first of all files. -/
def firstFile? (c : Conversion) : Option (Option String) :=
  (c.markerFiles ++ c.counterFiles).head?

/-- The file of the profile: the one named, else one beside the first file. -/
def outputPath (c : Conversion) (first : Option String) : Except Fault String :=
  match c.output.filter (!·.isEmpty) with
  | some path => .ok path
  | none => (pathOf first).map fun first => Path.withoutExtension first ++ "_profile.json"

/-- The number of the process: the one given, else the one in the name of the first span log. -/
def processId (c : Conversion) : Except Fault SystemId :=
  match c.pid, c.markerFiles with
  | some id, _ => .ok id
  | none, [] => .ok (.number 0)
  | none, first :: _ =>
    (pathOf first).map fun first => .number (((MarkerFileName.read? first).map (·.pid)).getD 0)

/-- The name of the process; an empty name is none. -/
def givenName (c : Conversion) : String := c.name.getD ""

/-- The name under which the process is listed. -/
def processName (c : Conversion) (id : SystemId) : String :=
  if c.givenName.isEmpty then s!"pid {id.text}" else c.givenName

/-- The process, its thread, and the categories of frames. -/
structure Groundwork where
  /-- The handle of the process. -/
  process : Nat
  /-- The handle of its main thread. -/
  thread : Nat
  /-- The categories of frames. -/
  categories : FrameCategories

/-- A profile is prepared for the process. -/
def prepare (c : Conversion) (id : SystemId) : Edit Groundwork := do
  let process ← modifyGet (Profile.addProcess id (c.processName id))
  let thread ← Edit.addThread process id c.givenName true
  let user ← Edit.addCategory "User" .yellow
  let kernel ← Edit.addCategory "Kernel" .orange
  pure ⟨process, thread, ⟨user, kernel⟩⟩

/-- The recording of markers and counters on a thread. -/
def recording (base : Groundwork) (markers : List Marker) (counters : List Counter) :
    Recording where
  samples := []
  regular := .empty
  generated := []
  symbols := none
  markers := markers.map fun m => (base.thread, m)
  counters := counters.map fun c => (base.thread, c)
  process := base.process
  flushed := false

end Conversion

variable {m : Type → Type} [Monad m] [FileAccess m] (nesting : Nat)

namespace Conversion

/-- The recording is flushed into the prepared profile. -/
def fill (base : Groundwork) (recording : Recording) (profile : Profile) : Session m Profile := do
  let plan : FlushPlan := ⟨base.categories, .empty, none, (← get).verbose⟩
  let flush := recording.flush plan profile
  Session.sayAll flush.printed
  Session.logAll flush.log
  let _ ← Session.ofExcept flush.result
  pure flush.profile

/-- The markers of all span logs, one after the other. -/
def markers (c : Conversion) (directories : List String) : Session m (List Marker) := do
  let read (file : Option String) : Session m (List Marker) := do
    Session.markersOf nesting .plain (← Session.ofExcept (pathOf file)) directories
  return (← c.markerFiles.mapM read).flatten

/-- The counters of all counter files. -/
def counters (c : Conversion) (directories : List String) : Session m (List Counter) :=
  c.counterFiles.mapM fun file => do
    Session.counterOf nesting .plain (← Session.ofExcept (pathOf file)) directories

/-- A profile is made and written to its file. -/
def run (c : Conversion) (directories : List (Option String)) : Session m Unit := do
  match c.firstFile? with
  | none => throw (.refusal .nothingToConvert)
  | some first =>
    let path ← Session.ofExcept (c.outputPath first)
    let id ← Session.ofExcept c.processId
    let (prepared, profile) := (c.prepare id).runOn (.create "symtrace" 1000000)
    let base ← Session.ofExcept prepared
    let directories ← Session.ofExcept (directories.mapM pathOf)
    let markers ← c.markers nesting directories
    let counters ← c.counters nesting directories
    let profile ← fill base (recording base markers counters) profile
    let document ← Session.ofExcept profile.document
    match document.written? with
    | none => throw (.failure .integerSize)
    | some text => Session.writeFile path text
    Session.say s!"profile file: {path}"

end Conversion

/-- A command is carried out. -/
def Command.run (command : Command) (directories : List (Option String)) : Session m Unit :=
  match command with
  | .markers path => do
    let directories ← Session.ofExcept (directories.mapM pathOf)
    Session.sayAll (markerLines (← Session.markersOf nesting .plain path directories))
  | .counter path => do
    let directories ← Session.ofExcept (directories.mapM pathOf)
    Session.sayAll (counterLines (← Session.counterOf nesting .plain path directories))
  | .convert conversion => conversion.run nesting directories

/-- An invocation is carried out. -/
def Invocation.run (i : Invocation) : Session m Unit := do
  modify fun transcript => { transcript with verbose := i.verbose }
  Session.configure (if i.verbose then some Logger.debugLevel else none) i.logDirectory
  i.command.run nesting i.lookupDirectories

/-- What a run of the program leaves behind, apart from files. -/
structure Report where
  /-- The exit status, or the fault that ended the run. -/
  result : Except Fault Nat
  /-- The lines printed. -/
  printed : List String
  /-- The log records kept. -/
  records : List LogRecord

/-- A command line is carried out. -/
def run (arguments : List String) : m Report := do
  match Invocation.read arguments with
  | .error ending => return ⟨.ok ending.status, [], []⟩
  | .ok invocation =>
    let session : Session m Unit := invocation.run nesting
    let (result, transcript) ← (ExceptT.run session).run (.start .initial false)
    return ⟨result.map fun () => 0, transcript.printed, transcript.records⟩

end TraceProfile.CommandLine
