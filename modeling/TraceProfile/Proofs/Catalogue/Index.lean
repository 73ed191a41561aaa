import TraceProfile.Assoc
import TraceProfile.Proofs.Catalogue.Filling

/-!
# Catalogues with an index

A catalogue finds the handle of a key among its entries. With an index beside the entries it need
not look through them, but then the two have to stay in step: the index must map a key to a handle
if and only if the entry of the handle has the key. Whatever entries a catalogue with an index is
filled with, they are in step, and it has the entries and the handles of the catalogue without one.
-/

namespace TraceProfile

variable {α κ : Type} {key : α → κ}

/-- Entries, and an index that maps keys to handles. Nothing in it says that the two are in step. -/
structure IndexedCatalogue {α κ : Type} (key : α → κ) where
  /-- The entries. -/
  entries : List α
  /-- The index. -/
  index : List (κ × Nat)

namespace IndexedCatalogue

/-- No entries and no keys. -/
def empty : IndexedCatalogue key := ⟨[], []⟩

/-- The catalogue without its index. -/
def plain (c : IndexedCatalogue key) : Catalogue key := ⟨c.entries⟩

variable [DecidableEq κ] {c : IndexedCatalogue key} {entry : α}

/-- The index maps a key to a handle if and only if the entry of the handle has the key. -/
def InStep (c : IndexedCatalogue key) : Prop :=
  ∀ k handle, c.index.lookup k = some handle ↔
    ∃ entry, c.plain.get? handle = some entry ∧ key entry = k

/-- The handle that the index has for an entry's key. If it has none, the entry is added and its
place comes into the index. -/
def ensure (entry : α) (c : IndexedCatalogue key) : Nat × IndexedCatalogue key :=
  match c.index.lookup (key entry) with
  | some handle => (handle, c)
  | none =>
    (c.entries.length,
      ⟨c.entries ++ [entry], Assoc.insert (key entry) c.entries.length c.index⟩)

/-- The catalogue after some entries have been given handles. -/
def ensureAll (entries : List α) (c : IndexedCatalogue key) : IndexedCatalogue key :=
  entries.foldl (fun c entry => (c.ensure entry).2) c

/-- An index without keys is in step with a catalogue without entries. -/
theorem inStep_empty : InStep (empty : IndexedCatalogue key) := by
  intro k handle
  simp [empty, plain, Catalogue.get?]

/-- An index in step has the handles that are found among the entries. -/
theorem InStep.lookup_eq (h : c.InStep) (k : κ) : c.index.lookup k = c.plain.find? k := by
  refine Option.ext fun handle => ?_
  constructor
  · intro hlookup
    refine Catalogue.find?_eq_some_iff.mpr ⟨(h k handle).mp hlookup, ?_⟩
    intro i other hi hother hkey
    have hfirst : c.index.lookup k = some i := (h k i).mpr ⟨other, hother, hkey⟩
    have hsame : i = handle := Option.some.inj (hfirst.symm.trans hlookup)
    omega
  · intro hfound
    exact (h k handle).mpr (Catalogue.find?_eq_some_iff.mp hfound).1

/-- An entry gets the same handle with an index and without one. -/
theorem InStep.ensure_eq (h : c.InStep) (entry : α) :
    (c.ensure entry).1 = (c.plain.ensure entry).1 ∧
      (c.ensure entry).2.plain = (c.plain.ensure entry).2 := by
  rw [ensure, Catalogue.ensure, h.lookup_eq]
  cases c.plain.find? (key entry) with
  | some handle => exact ⟨rfl, rfl⟩
  | none => exact ⟨rfl, rfl⟩

/-- The entries of a longer list are those of the list, and behind them the new one. -/
private theorem getElem?_concat_eq_some_iff {l : List α} {a b : α} {i : Nat} :
    (l ++ [a])[i]? = some b ↔ l[i]? = some b ∨ (i = l.length ∧ b = a) := by
  rcases Nat.lt_trichotomy i l.length with hlt | rfl | hgt
  · rw [List.getElem?_append_left hlt]
    exact ⟨.inl, fun h => h.resolve_right fun hlast => by omega⟩
  · rw [List.getElem?_concat_length, List.getElem?_eq_none (Nat.le_refl _)]
    simp [eq_comm]
  · rw [List.getElem?_eq_none (by simp; omega), List.getElem?_eq_none (by omega)]
    simp only [reduceCtorEq, false_or, false_iff]
    omega

/-- An entry that is given a handle leaves the index in step. -/
theorem InStep.ensure (h : c.InStep) (entry : α) : (c.ensure entry).2.InStep := by
  unfold IndexedCatalogue.ensure
  split
  · exact h
  · rename_i hnone
    -- The key is new, and entries and index gain the same place for it.
    intro k handle
    rw [Assoc.lookup_insert]
    simp only [plain, Catalogue.get?, getElem?_concat_eq_some_iff]
    by_cases hk : k = key entry
    · rw [if_pos (beq_iff_eq.mpr hk)]
      constructor
      · intro hlast
        exact ⟨entry, .inr ⟨(Option.some.inj hlast).symm, rfl⟩, hk.symm⟩
      · rintro ⟨other, hold | ⟨rfl, -⟩, hkey⟩
        · have hlookup := (h (key entry) handle).mpr ⟨other, hold, hkey.trans hk⟩
          cases hnone.symm.trans hlookup
        · rfl
    · rw [if_neg (by simpa using hk)]
      constructor
      · intro hlookup
        obtain ⟨other, hold, hkey⟩ := (h k handle).mp hlookup
        exact ⟨other, .inl hold, hkey⟩
      · rintro ⟨other, hold | ⟨-, rfl⟩, hkey⟩
        · exact (h k handle).mpr ⟨other, hold, hkey⟩
        · exact (hk hkey.symm).elim

/-- Filling a catalogue leaves its index in step. -/
theorem InStep.ensureAll (h : c.InStep) (entries : List α) : (c.ensureAll entries).InStep := by
  induction entries generalizing c with
  | nil => exact h
  | cons entry rest ih => exact ih (h.ensure entry)

/-- Filling a catalogue brings in the same entries with an index and without one. -/
theorem InStep.plain_ensureAll (h : c.InStep) (entries : List α) :
    (c.ensureAll entries).plain = c.plain.ensureAll entries := by
  induction entries generalizing c with
  | nil => rfl
  | cons entry rest ih =>
    rw [Catalogue.ensureAll_cons, ← (h.ensure_eq entry).2]
    exact ih (h.ensure entry)

end IndexedCatalogue

end TraceProfile
