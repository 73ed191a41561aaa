import TraceProfile.Files.Access
import TraceProfile.Files.Path
import TraceProfile.Log

/-!
# Loggers

A logger decides which records are kept and where they go: to the console and to any number of
log files. It may be configured again at any time; a handler that it has already stays as it is.
-/

namespace TraceProfile

/-- What becomes of log records. -/
structure Logger where
  /-- Records go to the console. -/
  console : Bool
  /-- The log files in the order in which they came. -/
  files : List String
  /-- The level that a record must reach; zero stands for the usual level. -/
  level : Int
  /-- No record is kept. -/
  disabled : Bool
  deriving DecidableEq, Repr

namespace Logger

/-- The logger before it is configured. -/
def initial : Logger := ⟨false, [], 0, false⟩

/-- The level of a logger that has none of its own. -/
def inheritedLevel : Int := 30

/-- The level of a logger that is configured without one. -/
def standardLevel : Int := 20

/-- The level at which everything is kept. -/
def debugLevel : Int := 10

/-- The level that a record must reach. -/
def effectiveLevel (l : Logger) : Int := if l.level = 0 then inheritedLevel else l.level

/-- Records of a level are kept. -/
def admits (l : Logger) (level : Int) : Bool :=
  !l.disabled && decide (0 < level) && decide (l.effectiveLevel ≤ level)

/-- The names of the places that records go to. -/
def handlers (l : Logger) : List String := (if l.console then ["console"] else []) ++ l.files

/-- The log file of a directory. -/
def fileIn (directory : String) : String := Path.normalize (Path.join directory "symtrace.log")

variable {m : Type → Type} [Monad m] [FileAccess m]

/-- A log file is added, and made if it is not there. -/
def addFile (l : Logger) (file : String) : m (Except Fault Logger) := do
  if l.files.contains file then return .ok l
  match ← FileAccess.append file "" with
  | .error f => return .error f
  | .ok () => return .ok { l with files := l.files ++ [file] }

/-- The log file of a directory is added, if a directory is named. -/
def addDirectory (l : Logger) : Option String → m (Except Fault Logger)
  | none => return .ok l
  | some directory =>
    if directory.isEmpty then return .ok l else l.addFile (fileIn directory)

/-- A logger is configured: it writes to the console and to the log file of a directory, from the
given level on. If the log file cannot be made, level and state stay as they were. -/
def configure (l : Logger) (enabled : Bool) (level : Option Int) (directory : Option String) :
    m (Except Fault Unit × Logger) := do
  let l := { l with console := true }
  match ← l.addDirectory directory with
  | .error f => return (.error f, l)
  | .ok l =>
    return (.ok (), { l with level := level.getD standardLevel, disabled := !enabled })

/-- A record is written to the log files. -/
def write (l : Logger) (record : LogRecord) : m Unit := do
  let stamp ← FileAccess.stamp
  l.files.forM fun file => discard (FileAccess.append file (record.datedLine stamp ++ "\n"))

end Logger

end TraceProfile
