import Std.Time.Format
import TraceProfile.CommandLine.Commands

/-!
# The program

The command line over the files of the system. Records go to standard error, and a fault ends
the program with a message there.
-/

namespace TraceProfile

/-- The failure that the program tells from other errors of the system. -/
def failureOfError? : IO.Error → Option Failure
  | .noFileOrDirectory .. => some .noFile
  | .inappropriateType _ code _ => if code = 21 then some .directoryInPlace else some .fileOnPath
  | _ => none

/-- An action on a file, with its failure as a value. -/
def attempt (action : IO Unit) : IO (Except Failure Unit) := do
  match ← action.toBaseIO with
  | .ok () => return .ok ()
  | .error e =>
    match failureOfError? e with
    | some f => return .error f
    | none => throw e

instance : FileAccess IO where
  read? path := do
    match ← (IO.FS.readBinFile path).toBaseIO with
    | .ok bytes => return some bytes.toList
    | .error _ => return none
  append path text := attempt do
    let handle ← IO.FS.Handle.mk path .append
    handle.putStr text
  write path text := attempt (IO.FS.writeFile path text)
  stamp := return (← Std.Time.PlainDateTime.now).format "uuuu-MM-dd HH:mm:ss,SSS"

/-- How deep the documents of an input may be nested. -/
def nestingAllowed : Nat := 990

/-- The program is run: lines are printed, records and faults are reported. -/
def perform (arguments : List String) : IO UInt32 := do
  let report ← CommandLine.run nestingAllowed arguments
  report.printed.forM IO.println
  report.records.forM fun record => IO.eprintln record.line
  match report.result with
  | .ok status => return status.toUInt32
  | .error fault =>
    IO.eprintln fault.message
    return 1

end TraceProfile

/-- The program. -/
def main (arguments : List String) : IO UInt32 := TraceProfile.perform arguments
