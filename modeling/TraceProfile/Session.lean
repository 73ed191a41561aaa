import TraceProfile.Files.Access
import TraceProfile.Logger

/-!
# Sessions

A session is a run of the program over files. It prints lines and keeps log records; both stay
when a fault ends it.
-/

namespace TraceProfile

/-- What a session has done so far, apart from files. -/
structure Transcript where
  /-- The logger. -/
  logger : Logger
  /-- The files that are opened are named. -/
  verbose : Bool
  /-- The lines printed. -/
  printed : List String
  /-- The log records kept. -/
  records : List LogRecord

/-- The transcript of a session that has just begun. -/
def Transcript.start (logger : Logger) (verbose : Bool) : Transcript := ⟨logger, verbose, [], []⟩

/-- A session over files that may end in a fault. -/
abbrev Session (m : Type → Type) := ExceptT Fault (StateT Transcript m)

namespace Session

variable {m : Type → Type} [Monad m]

/-- A result without an effect. -/
def ofExcept {α : Type} (result : Except Fault α) : Session m α := ExceptT.mk (pure result)

/-- A line is printed. -/
def say (line : String) : Session m Unit :=
  modify fun transcript => { transcript with printed := transcript.printed ++ [line] }

/-- Lines are printed. -/
def sayAll (lines : List String) : Session m Unit := lines.forM say

variable [FileAccess m]

/-- A record is logged, if its level matters. -/
def log (record : LogRecord) : Session m Unit := do
  let logger := (← get).logger
  if logger.admits record.level then
    modify fun transcript => { transcript with records := transcript.records ++ [record] }
    let written : m Unit := logger.write record
    written

/-- Records are logged. -/
def logAll (records : List LogRecord) : Session m Unit := records.forM log

/-- The logger is configured. -/
def configure (level : Option Int) (directory : Option String) : Session m Unit := do
  let configured : m (Except Fault Unit × Logger) :=
    (← get).logger.configure true level directory
  let (result, logger) ← configured
  modify fun transcript => { transcript with logger }
  ofExcept result

/-- Text becomes the content of a file. -/
def writeFile (path text : String) : Session m Unit := do
  let written : m (Except Failure Unit) := FileAccess.write path text
  ofExcept ((← written).mapError .failure)

/-- The bytes of the file at a path; none if there is no file. -/
def read? (path : String) : Session m (Option (List UInt8)) := do
  let bytes : m (Option (List UInt8)) := FileAccess.read? path
  bytes

end Session

end TraceProfile
