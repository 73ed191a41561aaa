import TraceProfile.Json.Basic

/-!
# Numbers of processes and threads

Processes and threads carry the number that the system gave them. The place of the number may
also be left empty on purpose, which is not the same as saying nothing about it.
-/

namespace TraceProfile

/-- What stands in the place of the number of a process or thread. -/
inductive SystemId where
  /-- The number that the system gave. -/
  | number (n : Int)
  /-- Nothing. -/
  | blank
  deriving DecidableEq, Repr

instance : Coe Int SystemId := ⟨SystemId.number⟩

/-- The number in a document; nothing is an empty list. -/
def SystemId.document : SystemId → Json
  | number n => .int n
  | blank => .list []

/-- The number in running text, where it looks as it does in a document. -/
def SystemId.text (id : SystemId) : String := id.document.describe

end TraceProfile
