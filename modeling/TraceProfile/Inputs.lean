import TraceProfile.Counter.Document
import TraceProfile.Marker.Journal
import TraceProfile.Session
import TraceProfile.SymbolMap
import TraceProfile.Text.Blocks

/-!
# Input files

An input file is looked for at its path, and then under its name in other directories. Span logs
are read as bytes, so that a line that is no text costs that line only. Counter files and symbol
maps must be text throughout; all forms of line end count alike in them. A counter file is read as
a whole, a symbol map line by line up to a flaw.
-/

namespace TraceProfile

/-- The paths at which a file is looked for, in order. -/
def candidates (path : String) (directories : List String) : List String :=
  path :: directories.map fun directory => Path.join directory (Path.fileName path)

/-- The text of a file. -/
def textOfBytes (bytes : List UInt8) : Except Fault String :=
  (Text.decodeBytes bytes).mapError fun flaw => .failure (.undecodable flaw)

namespace Session

variable {m : Type → Type} [Monad m] [FileAccess m]

/-- The first file at one of the given paths. -/
def openFirst : List String → Session m (Option (String × List UInt8))
  | [] => pure none
  | candidate :: rest => do
    match ← read? candidate with
    | none => openFirst rest
    | some bytes =>
      if (← get).verbose then say s!"open: {candidate}"
      pure (some (candidate, bytes))

/-- A file, which must be at its path or in one of the directories. -/
def openFile (path : String) (directories : List String) : Session m (String × List UInt8) := do
  let paths := candidates path directories
  match ← openFirst paths with
  | some file => pure file
  | none => throw (.refusal (.notFound path paths.length))

/-- The markers of a span log, in the order of their starts. -/
def markersOf (nesting : Nat) (clock : Clock) (path : String) (directories : List String) :
    Session m (List Marker) := do
  let (_, bytes) ← openFile path directories
  let outcome := Journal.markers nesting clock (Journal.linesOfFile bytes)
  logAll outcome.log
  ofExcept outcome.result

/-- The counter of a counter file. -/
def counterOf (nesting : Nat) (clock : Clock) (path : String) (directories : List String) :
    Session m Counter := do
  let (_, bytes) ← openFile path directories
  let content ← ofExcept (textOfBytes bytes)
  ofExcept (Counter.ofText nesting clock (String.ofList (Text.unifyLineEnds content.toList)))

/-- The mapping operations of a symbol map, which is named for its file. -/
def symbolsOf (category : Option Int) (path : String) (directories : List String) :
    Session m OpQueue := do
  let (found, bytes) ← openFile path directories
  let content := Text.readLines bytes
  let reading := SymbolMap.read (Path.fileName found) category content.lines
  logAll reading.log
  let queue ← ofExcept reading.result
  match content.flaw with
  | some flaw => throw (.failure (.undecodable flaw))
  | none => pure queue

end Session

end TraceProfile
