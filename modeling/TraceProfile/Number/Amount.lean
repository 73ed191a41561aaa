import TraceProfile.Number.Shortest

/-!
# Amounts

A number of a record is either whole or real, and is written as what it is.
-/

namespace TraceProfile

/-- A whole or real number. -/
inductive Amount where
  /-- A whole number of any size. -/
  | whole (n : Int)
  /-- A floating-point number. -/
  | real (x : Binary64)
  deriving DecidableEq, Repr

/-- The text of an amount. -/
def Amount.text : Amount → String
  | whole n => toString n
  | real x => x.text

end TraceProfile
