import TraceProfile.CommandLine.Word
import TraceProfile.Number.Numeral
import TraceProfile.SystemId

/-!
# Choices on a command line

Switches take effect from left to right, so that help asked for before a mistake is given. A word
in excess, and a switch that does not exist, spoil the whole command line, but only at its end.
-/

namespace TraceProfile.CommandLine

/-- The value that an attached text gives: a double dash gives none. -/
def attachedValue (text : List Char) : Option String :=
  if text = ['-', '-'] then none else some (String.ofList text)

/-- Switches that share an argument. -/
structure Cluster where
  /-- The switches with their values. -/
  settled : List (Switch × Option String)
  /-- The last switch, if its value is the next argument. -/
  waiting : Option Switch

namespace Cluster

/-- A switch with nothing attached. -/
def bare (s : Switch) : Cluster := if s.takesValue then ⟨[], some s⟩ else ⟨[(s, none)], none⟩

/-- A switch in front of others. -/
def cons (s : Switch) (cluster : Cluster) : Cluster :=
  { cluster with settled := (s, none) :: cluster.settled }

/-- A switch with its value attached. -/
def valued (s : Switch) (text : List Char) : Cluster := ⟨[(s, attachedValue text)], none⟩

/-- A short switch with something attached: its value, or further short switches. -/
def ofShort (known : List Switch) (s : Switch) : List Char → Except Ending Cluster
  | [] => if s.takesValue then .ok (valued s []) else .error .misuse
  | c :: rest =>
    if s.takesValue then .ok (valued s (c :: rest))
    else
      match Switch.ofName? known (String.ofList ['-', c]) with
      | none => .error .misuse
      | some next =>
        if rest.isEmpty then .ok (cons s (bare next))
        else (ofShort known next rest).map (cons s)

/-- A switch under one of its names. -/
def read (known : List Switch) (s : Switch) (name : String) :
    Option (List Char) → Except Ending Cluster
  | none => .ok (bare s)
  | some text =>
    if s.takesValue then .ok (valued s text)
    else if name.startsWith "--" then .error .misuse
    else ofShort known s text

end Cluster

/-- What the words of a command line have said so far. -/
structure Choices where
  /-- The file. -/
  path : Option String
  /-- Further directories of input files. -/
  lookupDirectories : List (Option String)
  /-- More is reported. -/
  verbose : Bool
  /-- The directory of the log file. -/
  logDirectory : Option String
  /-- The span logs. -/
  markerFiles : List (Option String)
  /-- The counter files. -/
  counterFiles : List (Option String)
  /-- The number of the process. -/
  pid : Option SystemId
  /-- The name of the process. -/
  name : Option String
  /-- The file of the profile. -/
  output : Option String
  /-- There is something in excess. -/
  stray : Bool
  deriving DecidableEq, Repr

namespace Choices

/-- What no word has said. -/
def none : Choices where
  path := .none
  lookupDirectories := []
  verbose := false
  logDirectory := .none
  markerFiles := []
  counterFiles := []
  pid := .none
  name := .none
  output := .none
  stray := false

/-- A switch takes effect. -/
def choose (c : Choices) : Switch → Option String → Except Ending Choices
  | .help, _ => .error .help
  | .verbose, _ => .ok { c with verbose := true }
  | .lookupDirectory, value => .ok { c with lookupDirectories := c.lookupDirectories ++ [value] }
  | .logDirectory, value => .ok { c with logDirectory := value }
  | .markers, value => .ok { c with markerFiles := c.markerFiles ++ [value] }
  | .counter, value => .ok { c with counterFiles := c.counterFiles ++ [value] }
  | .pid, .none => .ok { c with pid := some .blank }
  | .pid, some value =>
    match Numeral.readInteger value with
    | .ok pid => .ok { c with pid := some (.number pid) }
    | .error _ => .error .misuse
  | .name, value => .ok { c with name := value }
  | .output, value => .ok { c with output := value }

/-- Switches take effect one after the other. -/
def chooseAll (c : Choices) (switches : List (Switch × Option String)) :
    Except Ending Choices :=
  switches.foldlM (fun c (s, value) => c.choose s value) c

/-- Something is in excess. -/
def spoil (c : Choices) : Choices := { c with stray := true }

/-- The words are followed from left to right. The double dash belongs to a path next to it. -/
def follow (verb : Verb) (c : Choices) : List Word → Except Ending Choices
  | [] => .ok c
  | .unknown :: rest => follow verb c.spoil rest
  | .plain text :: rest =>
    if verb.takesPath && c.path.isNone then
      let c := { c with path := some text }
      match rest with
      | .divider :: others => follow verb c others
      | others => follow verb c others
    else follow verb c.spoil rest
  | .divider :: rest =>
    match rest with
    | .plain text :: others =>
      if verb.takesPath && c.path.isNone then follow verb { c with path := some text } others
      else follow verb c.spoil others
    | others => follow verb c.spoil others
  | .switch s name attached :: rest => do
    let cluster ← Cluster.read verb.switches s name attached
    match cluster.waiting, rest with
    | some last, .plain value :: others =>
      let c ← c.chooseAll (cluster.settled ++ [(last, some value)])
      follow verb c others
    | some _, _ => .error .misuse
    | .none, others =>
      let c ← c.chooseAll cluster.settled
      follow verb c others

end Choices

end TraceProfile.CommandLine
