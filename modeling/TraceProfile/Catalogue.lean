/-!
# Catalogues

A catalogue keeps one entry per key and hands out its place as a handle. The first entry of a
key stays, and entries never move, so a handle denotes the same entry for good.
-/

namespace TraceProfile

/-- Entries in the order in which their keys came. -/
structure Catalogue {α κ : Type} (key : α → κ) where
  /-- The entries. -/
  entries : List α

namespace Catalogue

variable {α κ : Type} [DecidableEq κ] {key : α → κ}

/-- The catalogue without entries. -/
def empty : Catalogue key := ⟨[]⟩

/-- The number of entries. -/
def size (c : Catalogue key) : Nat := c.entries.length

/-- The entry of a handle. -/
def get? (c : Catalogue key) (handle : Nat) : Option α := c.entries[handle]?

/-- The handle of a key. -/
def find? (c : Catalogue key) (k : κ) : Option Nat := c.entries.findIdx? fun entry => key entry = k

/-- The handle of an entry's key; the entry is added if its key has none. -/
def ensure (entry : α) (c : Catalogue key) : Nat × Catalogue key :=
  match c.find? (key entry) with
  | some handle => (handle, c)
  | none => (c.entries.length, ⟨c.entries ++ [entry]⟩)

/-- A handle that was found denotes an entry with its key. -/
theorem get?_of_find? {c : Catalogue key} {k : κ} {handle : Nat} (h : c.find? k = some handle) :
    ∃ entry, c.get? handle = some entry ∧ key entry = k := by
  obtain ⟨inside, same, _⟩ := List.findIdx?_eq_some_iff_getElem.1 h
  exact ⟨c.entries[handle], List.getElem?_eq_getElem inside, by simpa using same⟩

/-- Adding an entry keeps all earlier ones in their places. -/
theorem entries_ensure_append (entry : α) (c : Catalogue key) :
    ∃ added, (c.ensure entry).2.entries = c.entries ++ added := by
  unfold ensure
  split
  · exact ⟨[], by simp⟩
  · exact ⟨[entry], rfl⟩

/-- The handle of an entry denotes an entry with the same key. -/
theorem get?_ensure (entry : α) (c : Catalogue key) :
    ∃ kept, (c.ensure entry).2.get? (c.ensure entry).1 = some kept ∧ key kept = key entry := by
  unfold ensure
  split
  · rename_i handle found
    exact get?_of_find? found
  · exact ⟨entry, by simp [get?], rfl⟩

end Catalogue

end TraceProfile
