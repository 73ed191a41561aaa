/-!
# Commands and switches

A command line names a command, and switches that say how to carry it out. A switch has one or
two names; some switches take a value.
-/

namespace TraceProfile.CommandLine

/-- What the program can be asked for. -/
inductive Verb where
  /-- Print the markers of a span log. -/
  | markers
  /-- Print a counter. -/
  | counter
  /-- Make a profile of span logs and counters. -/
  | convert
  deriving DecidableEq, Repr

/-- The switches of all commands. -/
inductive Switch where
  | help | verbose | lookupDirectory | logDirectory | markers | counter | pid | name | output
  deriving DecidableEq, Repr

namespace Switch

/-- The names of a switch. -/
def names : Switch → List String
  | help => ["-h", "--help"]
  | lookupDirectory => ["-L", "--lookup_dir"]
  | verbose => ["-v", "--verbose"]
  | logDirectory => ["--log_dir"]
  | markers => ["-m", "--markers"]
  | counter => ["-c", "--counter"]
  | pid => ["-p", "--pid"]
  | name => ["-n", "--name"]
  | output => ["-o", "--output"]

/-- The switch takes a value. -/
def takesValue : Switch → Bool
  | help | verbose => false
  | _ => true

/-- The switches that every command knows. -/
def common : List Switch := [help, lookupDirectory, verbose, logDirectory]

/-- Every name of some switches, with its switch. -/
def spellings (known : List Switch) : List (String × Switch) :=
  known.flatMap fun s => s.names.map fun name => (name, s)

/-- The switch of a name among some switches. -/
def ofName? (known : List Switch) (name : String) : Option Switch := (spellings known).lookup name

end Switch

namespace Verb

/-- The name of a command. -/
def name : Verb → String
  | markers => "markers"
  | counter => "counter"
  | convert => "convert"

/-- All commands. -/
def all : List Verb := [markers, counter, convert]

/-- The command of a name. -/
def ofName? (name : String) : Option Verb := all.find? (·.name == name)

/-- The switches of a command. -/
def switches : Verb → List Switch
  | markers | counter => Switch.common
  | convert => Switch.common ++ [.markers, .counter, .pid, .name, .output]

/-- The command needs the path of a file. -/
def takesPath : Verb → Bool
  | markers | counter => true
  | convert => false

end Verb

end TraceProfile.CommandLine
