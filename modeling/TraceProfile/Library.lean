import TraceProfile.Text.Quoted

/-!
# Libraries

A library is a file or a generated region whose code runs in a process. It may carry the symbol
of the one function that it holds, and a category for the frames that run in it.
-/

namespace TraceProfile

/-- A library. -/
structure Library where
  /-- The name shown for its frames. -/
  name : String
  /-- The path of its file. -/
  path : String
  /-- The category of user frames in it, if it has one of its own. -/
  category : Option Int
  /-- The function that it holds, if it holds just one. -/
  symbol : Option String
  deriving DecidableEq, Repr

/-- The path of a library: its name when none is given. -/
def Library.pathOf (name path : String) : String := if path.isEmpty then name else path

/-- A library as a message shows it. -/
def Library.describe (library : Library) : String :=
  s!"LibMappingInfo({Text.quote library.name})"

end TraceProfile
