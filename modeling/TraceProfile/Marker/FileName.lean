import TraceProfile.Files.Path
import TraceProfile.Number.Numeral

/-!
# Names of span log files

The name of a span log tells its process and, for a log of one thread, the thread:
`name-process.txt` or `name-process-thread.txt`.
-/

namespace TraceProfile

/-- What the name of a span log tells. -/
structure MarkerFileName where
  /-- The part in front. -/
  name : String
  /-- The process. -/
  pid : Int
  /-- The thread. -/
  tid : Option Int
  deriving DecidableEq, Repr

/-- What the file name of a path tells, if it has the form of a span log. -/
def MarkerFileName.read? (path : String) : Option MarkerFileName :=
  match Text.splitAtMost '-' 2 (Path.stem path) with
  | [name, pid] => (Numeral.readInteger pid).toOption.map fun pid => ⟨name, pid, none⟩
  | [name, pid, tid] => do
    let pid ← (Numeral.readInteger pid).toOption
    let tid ← (Numeral.readInteger tid).toOption
    pure ⟨name, pid, some tid⟩
  | _ => none

end TraceProfile
