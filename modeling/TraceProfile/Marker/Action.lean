import TraceProfile.Marker.Basic
import TraceProfile.Text.Split

/-!
# Actions

The action of a span may name an atom, and a collection by type and id: `atom/type-id`. Then the
span gets its category from the atom and labels from the collection. Any other action is the
category as it stands.
-/

namespace TraceProfile

/-- An action that names an atom and a collection. -/
structure Action where
  /-- The atom; it is not empty and has no slash. -/
  atom : List Char
  /-- The type of the collection; it is not empty and has no slash and no dash. -/
  type : List Char
  /-- The id of the collection; it is not empty and has no line feed. -/
  id : List Char
  deriving DecidableEq, Repr

/-- How a span is filed. -/
structure ActionLabels where
  /-- The name of the category. -/
  category : String
  /-- The label under which the span is shown. -/
  profiler : Option String
  /-- The label under which the span is counted. -/
  stats : Option String
  deriving DecidableEq, Repr

namespace Action

/-- The characters of a collection id that labels show. -/
def shownIdLength : Nat := 8

/-- Text without the line feed at its end, if it has one. -/
def dropLineFeed (cs : List Char) : List Char :=
  if cs.getLast? = some '\n' then cs.dropLast else cs

/-- The atom and the collection that an action names. One line feed at the end does not count. -/
def read? (s : String) : Option Action := do
  let (atom, rest) ← Text.cutList? '/' s.toList
  let (type, rest) ← Text.cutList? '-' rest
  let id := dropLineFeed rest
  if atom.isEmpty ∨ type.isEmpty ∨ type.contains '/' ∨ id.isEmpty ∨ id.contains '\n' then none
  else some ⟨atom, type, id⟩

/-- The category of an atom is what comes before its first dash. -/
def category (action : Action) : String := String.ofList (action.atom.takeWhile (· ≠ '-'))

/-- The characters of the id that labels show. -/
def shownId (action : Action) : String := String.ofList (action.id.take shownIdLength)

/-- How a span with this action is filed. -/
def labels (action : Action) (message : String) (kind : SpanKind) : ActionLabels where
  category := action.category
  profiler := some s!"{String.ofList action.type}-{action.shownId} {kind.name}"
  stats := some s!"{String.ofList action.type}::{message}-{action.shownId}"

end Action

/-- How a span with the given action and message is filed. -/
def ActionLabels.ofAction (action message : String) (kind : SpanKind) : ActionLabels :=
  match Action.read? action with
  | some action => action.labels message kind
  | none => ⟨action, none, none⟩

end TraceProfile
