import TraceProfile.Frame

/-!
# Mappings

A mapping puts a library at a range of addresses. Over time mappings are added and removed by
operations, each with the time at which it happened.
-/

namespace TraceProfile

/-- A library at the addresses from `start` up to, but without, `stop`. -/
structure Mapping where
  /-- The first address. -/
  start : Int
  /-- The address after the last one. -/
  stop : Int
  /-- The place in the library of the first address. -/
  offset : Int
  /-- The library. -/
  library : Library
  deriving DecidableEq, Repr

namespace Mapping

/-- The address lies in the range. -/
def contains (m : Mapping) (address : Int) : Bool := m.start ≤ address && address < m.stop

/-- A range holds the addresses from its start up to, but without, its stop. -/
theorem contains_iff {m : Mapping} {address : Int} :
    m.contains address = true ↔ m.start ≤ address ∧ address < m.stop := by
  simp [contains]

/-- The place of an address in the library. -/
def relative (m : Mapping) (address : Int) : Int := address - m.start + m.offset

/-- Two ranges share an address. -/
def Overlaps (a b : Mapping) : Prop := ∃ address, a.contains address ∧ b.contains address

/-- A mapping as a message shows it. -/
def describe (m : Mapping) : String :=
  s!"LibMapping({Text.hexNumeral m.start}..{Text.hexNumeral m.stop}, " ++
    s!"{Text.quote m.library.name})"

end Mapping

/-- What an operation does. -/
inductive MappingChange where
  /-- Put a mapping in place. -/
  | add (mapping : Mapping)
  /-- Take away the mapping with this first address. -/
  | remove (start : Int)
  deriving DecidableEq, Repr

/-- A change of the mappings and its time. -/
structure MappingOp where
  /-- When it happened. -/
  time : Int
  /-- What happened. -/
  change : MappingChange
  deriving DecidableEq, Repr

/-- The operation that adds a mapping; its range must hold an address. -/
def MappingOp.add (time : Int) (mapping : Mapping) : Except Fault MappingOp :=
  if mapping.stop ≤ mapping.start then .error (Refusal.emptyRange mapping.start mapping.stop)
  else .ok ⟨time, .add mapping⟩

/-- The operation that removes a mapping. -/
def MappingOp.remove (time start : Int) : MappingOp := ⟨time, .remove start⟩

end TraceProfile
