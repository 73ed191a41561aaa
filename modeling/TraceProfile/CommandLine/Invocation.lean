import TraceProfile.CommandLine.Choices

/-!
# Invocations

An invocation is a command line that has been understood: a command with its switches. Only help
can be asked for in front of the command.
-/

namespace TraceProfile.CommandLine

/-- What a profile is made of. -/
structure Conversion where
  /-- The span logs. -/
  markerFiles : List (Option String)
  /-- The counter files. -/
  counterFiles : List (Option String)
  /-- The number of the process. -/
  pid : Option SystemId
  /-- The name of the process. -/
  name : Option String
  /-- The file of the profile. -/
  output : Option String
  deriving DecidableEq, Repr

/-- A command with its arguments. -/
inductive Command where
  /-- Print the markers of a span log. -/
  | markers (path : String)
  /-- Print a counter. -/
  | counter (path : String)
  /-- Make a profile. -/
  | convert (conversion : Conversion)
  deriving DecidableEq, Repr

/-- A command line that has been understood. -/
structure Invocation where
  /-- The command. -/
  command : Command
  /-- Further directories of input files; one without a path spoils the look-up. -/
  lookupDirectories : List (Option String)
  /-- More is reported. -/
  verbose : Bool
  /-- The directory of the log file. -/
  logDirectory : Option String
  deriving DecidableEq, Repr

/-- The command that choices make of a verb, if they name the path that it needs. -/
def Choices.command? (c : Choices) : Verb → Option Command
  | .markers => c.path.map .markers
  | .counter => c.path.map .counter
  | .convert => some (.convert ⟨c.markerFiles, c.counterFiles, c.pid, c.name, c.output⟩)

namespace Invocation

/-- The invocation of a verb with its arguments. -/
def ofVerb (verb : Verb) (stray : Bool) (arguments : List String) : Except Ending Invocation := do
  let words ← Word.ofArguments verb.switches arguments
  let choices ← Choices.none.follow verb words
  match choices.command? verb with
  | some command =>
    if stray || choices.stray then throw .misuse
    pure ⟨command, choices.lookupDirectories, choices.verbose, choices.logDirectory⟩
  | none => throw .misuse

/-- The arguments up to the verb: only help can be asked for in front of it. -/
def readVerb (stray : Bool) : List String → Except Ending Invocation
  | [] => .error .misuse
  | argument :: rest => do
    if argument = "--" then throw .misuse
    match ← Word.ofArgument [.help] argument with
    | .plain name =>
      match Verb.ofName? name with
      | some verb => ofVerb verb stray rest
      | none => throw .misuse
    | .switch s name attached => do
      let _ ← Cluster.read [.help] s name attached
      throw .help
    | _ => readVerb true rest

/-- The invocation of a command line. -/
def read (arguments : List String) : Except Ending Invocation :=
  if arguments.isEmpty then .error .noArguments else readVerb false arguments

end Invocation

end TraceProfile.CommandLine
