import TraceProfile.Mapping.Basic

/-!
# The mapping table

The mappings that are active at one moment, in ascending order of their first addresses. A new
mapping replaces the one with its first address and evicts those that its range runs into. To
find them the table looks at the nearest mapping below the range and at those that start inside.
-/

namespace TraceProfile

/-- The active mappings; no two have the same first address. -/
structure MappingTable where
  /-- The mappings, by ascending first address. -/
  entries : List Mapping
  /-- First addresses ascend. -/
  ascending : entries.Pairwise fun a b => a.start < b.start

namespace MappingTable

/-- The table without mappings. -/
def empty : MappingTable := ⟨[], .nil⟩

/-- The number of mappings. -/
def size (t : MappingTable) : Nat := t.entries.length

/-- The mapping with the given first address. -/
def get? (t : MappingTable) (start : Int) : Option Mapping :=
  t.entries.find? (·.start == start)

/-- The mapping with the greatest first address that is not above the given one. -/
def floor? (t : MappingTable) (address : Int) : Option Mapping :=
  (t.entries.filter (·.start ≤ address)).getLast?

/-- The mapping whose range holds an address; only the nearest one below is looked at. -/
def lookup (t : MappingTable) (address : Int) : Option Mapping :=
  (t.floor? address).filter (·.contains address)

/-- The place of an address in the library that holds it. -/
def resolve (t : MappingTable) (address : Int) : Option (Int × Library) :=
  (t.lookup address).map fun m => (m.relative address, m.library)

/-- The table without the mapping of the given first address. -/
def erase (t : MappingTable) (start : Int) : MappingTable :=
  ⟨t.entries.filter (·.start ≠ start), t.ascending.filter _⟩

/-- The table with a mapping in the place of its first address. -/
def put (t : MappingTable) (m : Mapping) : MappingTable where
  entries := t.entries.filter (·.start < m.start) ++ m :: t.entries.filter (m.start < ·.start)
  ascending := by
    refine List.pairwise_append.2 ⟨t.ascending.filter _, ?_, ?_⟩
    · refine List.pairwise_cons.2 ⟨?_, t.ascending.filter _⟩
      intro b hb
      simpa using (List.mem_filter.1 hb).2
    · intro a ha b hb
      have low : a.start < m.start := by simpa using (List.mem_filter.1 ha).2
      rcases List.mem_cons.1 hb with rfl | hb
      · exact low
      · have high : m.start < b.start := by simpa using (List.mem_filter.1 hb).2
        omega

/-- The mappings that a range runs into: the nearest one at or below its start if that reaches
beyond the start, then those that start inside it. -/
def hitBy (t : MappingTable) (start stop : Int) : List Mapping :=
  ((t.floor? start).filter (start < ·.stop)).toList ++
    t.entries.filter fun m => start < m.start && m.start < stop

/-- The mappings that give way to a new one, other than the one whose first address it has. -/
def evictedBy (t : MappingTable) (m : Mapping) : List Mapping :=
  (t.hitBy m.start m.stop).filter (·.start ≠ m.start)

/-- The table after a mapping has come in. -/
def add (t : MappingTable) (m : Mapping) : MappingTable :=
  ((t.evictedBy m).foldl (fun t evicted => t.erase evicted.start) t).put m

/-- There are no mappings in the empty table. -/
@[simp] theorem entries_empty : empty.entries = [] := rfl

/-- Erasing removes the mappings at one start and no others. -/
@[simp] theorem mem_entries_erase {t : MappingTable} {start : Int} {m : Mapping} :
    m ∈ (t.erase start).entries ↔ m ∈ t.entries ∧ m.start ≠ start := by
  simp [erase]

/-- A mapping that is put in stands in place of all others at its start. -/
@[simp] theorem mem_entries_put {t : MappingTable} {m e : Mapping} :
    e ∈ (t.put m).entries ↔ e = m ∨ e ∈ t.entries ∧ e.start ≠ m.start := by
  simp only [put, List.mem_append, List.mem_cons, List.mem_filter, decide_eq_true_eq]
  constructor
  · rintro (⟨h, low⟩ | rfl | ⟨h, high⟩)
    · exact .inr ⟨h, by omega⟩
    · exact .inl rfl
    · exact .inr ⟨h, by omega⟩
  · rintro (rfl | ⟨h, apart⟩)
    · exact .inr (.inl rfl)
    · rcases Int.lt_or_gt_of_ne apart with low | high
      · exact .inl ⟨h, low⟩
      · exact .inr (.inr ⟨h, high⟩)

end MappingTable

end TraceProfile
