import Mathlib.Data.List.Nodup
import TraceProfile.Catalogue

/-!
# Growth of catalogues

Catalogues only grow at their end. What a handle denotes is the same in every later catalogue, and
so is the handle of a key that has one. A catalogue that starts empty has one entry per key.
-/

namespace TraceProfile.Catalogue

variable {α κ : Type} {key : α → κ} {c c' c'' : Catalogue key}

/-- Every entry of the one catalogue is at the same place in the other. -/
def Extends (c c' : Catalogue key) : Prop := c.entries <+: c'.entries

/-- A catalogue extends itself. -/
theorem Extends.refl (c : Catalogue key) : c.Extends c := List.prefix_refl _

/-- A catalogue may be extended more than once. -/
theorem Extends.trans (h : c.Extends c') (h' : c'.Extends c'') : c.Extends c'' :=
  List.IsPrefix.trans h h'

/-- A handle denotes the same entry in an extended catalogue. -/
theorem Extends.get? {handle : Nat} {entry : α} (h : c.Extends c')
    (hentry : c.get? handle = some entry) : c'.get? handle = some entry := by
  obtain ⟨added, hadded⟩ := h
  have hlt : handle < c.entries.length := (List.getElem?_eq_some_iff.mp hentry).1
  rw [Catalogue.get?, ← hadded, List.getElem?_append_left hlt]
  exact hentry

/-- Giving an entry a handle extends the catalogue. -/
theorem extends_ensure [DecidableEq κ] (entry : α) (c : Catalogue key) :
    c.Extends (c.ensure entry).2 := by
  obtain ⟨added, hadded⟩ := entries_ensure_append entry c
  exact ⟨added, hadded.symm⟩

/-- A value that is its own key is what its handle denotes. -/
theorem get?_ensure_id [DecidableEq α] (entry : α) (c : Catalogue (id : α → α)) :
    (c.ensure entry).2.get? (c.ensure entry).1 = some entry := by
  obtain ⟨kept, hkept, hkey⟩ := get?_ensure entry c
  rw [hkept]
  exact congrArg some hkey

/-- A handle denotes what it did, or else the new entry. -/
theorem get?_ensure_eq_or [DecidableEq κ] (entry : α) (c : Catalogue key) (handle : Nat) :
    (c.ensure entry).2.get? handle =
      (c.get? handle).or (if handle = (c.ensure entry).1 then some entry else none) := by
  unfold ensure
  cases hfound : c.find? (key entry) with
  | some place =>
    dsimp only
    by_cases hsame : handle = place
    · obtain ⟨kept, hkept, -⟩ := get?_of_find? hfound
      rw [hsame, hkept, Option.some_or]
    · rw [if_neg hsame, Option.or_none]
  | none =>
    dsimp only
    rw [get?, get?]
    rcases Nat.lt_trichotomy handle c.entries.length with hlt | rfl | hgt
    · rw [List.getElem?_append_left hlt, List.getElem?_eq_getElem hlt, Option.some_or]
    · rw [List.getElem?_concat_length, List.getElem?_eq_none (Nat.le_refl _), if_pos rfl,
        Option.none_or]
    · rw [List.getElem?_eq_none (Nat.le_of_lt hgt), if_neg (Nat.ne_of_gt hgt),
        List.getElem?_eq_none (by simp; omega), Option.none_or]

/-- No key has two entries. -/
def Distinct (c : Catalogue key) : Prop := (c.entries.map key).Nodup

/-- No two entries of the empty catalogue share a key. -/
theorem distinct_empty : Distinct (empty : Catalogue key) := List.nodup_nil

section Keys

variable [DecidableEq κ]

/-- The handle of a key denotes the first entry with it. -/
theorem find?_eq_some_iff {k : κ} {handle : Nat} :
    c.find? k = some handle ↔
      (∃ entry, c.get? handle = some entry ∧ key entry = k) ∧
        ∀ i entry, i < handle → c.get? i = some entry → key entry ≠ k := by
  rw [find?, List.findIdx?_eq_some_iff_getElem]
  constructor
  · rintro ⟨hlt, hkey, hfirst⟩
    refine ⟨⟨c.entries[handle], List.getElem?_eq_getElem hlt, of_decide_eq_true hkey⟩, ?_⟩
    intro i entry hi hentry
    obtain ⟨hlength, rfl⟩ := List.getElem?_eq_some_iff.mp hentry
    simpa using hfirst i hi
  · rintro ⟨⟨entry, hentry, hkey⟩, hfirst⟩
    obtain ⟨hlt, rfl⟩ := List.getElem?_eq_some_iff.mp hentry
    refine ⟨hlt, decide_eq_true hkey, fun i hi => ?_⟩
    simpa using hfirst i _ hi (List.getElem?_eq_getElem (Nat.lt_trans hi hlt))

/-- A key keeps its handle. -/
theorem Extends.find? {k : κ} {handle : Nat} (h : c.Extends c')
    (hfound : c.find? k = some handle) : c'.find? k = some handle := by
  obtain ⟨⟨entry, hentry, hkey⟩, hfirst⟩ := find?_eq_some_iff.mp hfound
  refine find?_eq_some_iff.mpr ⟨⟨entry, h.get? hentry, hkey⟩, fun i other hi hother => ?_⟩
  have hlt : i < c.entries.length := Nat.lt_trans hi (List.getElem?_eq_some_iff.mp hentry).1
  have hsame : c'.get? i = c.get? i :=
    (h.get? (List.getElem?_eq_getElem hlt)).trans (List.getElem?_eq_getElem hlt).symm
  exact hfirst i other hi (hsame ▸ hother)

/-- An entry whose key has a handle is given this handle, and nothing is added. -/
theorem ensure_of_find? {entry : α} {handle : Nat} (h : c.find? (key entry) = some handle) :
    c.ensure entry = (handle, c) := by
  rw [ensure, h]

/-- A key is found under the handle that it gets. -/
theorem find?_ensure (entry : α) (c : Catalogue key) :
    (c.ensure entry).2.find? (key entry) = some (c.ensure entry).1 := by
  unfold ensure
  split
  · assumption
  · rename_i hnone
    rw [find?, List.findIdx?_eq_none_iff] at hnone
    refine find?_eq_some_iff.mpr ⟨⟨entry, by simp [get?], rfl⟩, fun i other hi hother => ?_⟩
    rw [get?, List.getElem?_append_left hi] at hother
    simpa using hnone other (List.mem_of_getElem? hother)

/-- The entries afterwards are those before, or these and the new one. -/
theorem mem_entries_ensure {entry other : α} (h : other ∈ (c.ensure entry).2.entries) :
    other ∈ c.entries ∨ other = entry := by
  unfold ensure at h
  split at h
  · exact .inl h
  · simpa using h

/-- The handle of an entry denotes it, if no other entry has its key. -/
theorem get?_ensure_of_unique {entry : α}
    (h : ∀ other ∈ c.entries, key other = key entry → other = entry) :
    (c.ensure entry).2.get? (c.ensure entry).1 = some entry := by
  obtain ⟨kept, hkept, hkey⟩ := get?_ensure entry c
  rw [hkept]
  rcases mem_entries_ensure (List.mem_of_getElem? hkept) with hold | hnew
  · exact congrArg some (h kept hold hkey)
  · exact congrArg some hnew

/-- Only the new entry may stand behind those that were there. -/
theorem eq_of_get?_ensure {entry other : α} {handle : Nat}
    (h : (c.ensure entry).2.get? handle = some other) (hhandle : c.size ≤ handle) :
    other = entry := by
  unfold ensure at h
  split at h
  · have hlt : handle < c.size := (List.getElem?_eq_some_iff.mp h).1
    omega
  · rw [get?, List.getElem?_append_right hhandle] at h
    exact List.mem_singleton.mp (List.mem_of_getElem? h)

/-- No two entries share a key after one more was given a handle. -/
theorem Distinct.ensure (h : c.Distinct) (entry : α) : (c.ensure entry).2.Distinct := by
  unfold Catalogue.ensure
  split
  · exact h
  · rename_i hnone
    rw [find?, List.findIdx?_eq_none_iff] at hnone
    have hnew : key entry ∉ c.entries.map key := by
      intro hmem
      obtain ⟨other, hother, hkey⟩ := List.mem_map.mp hmem
      simpa [hkey] using hnone other hother
    rw [Distinct, List.map_append, List.map_singleton]
    exact List.nodup_append.mpr ⟨h, List.nodup_singleton _, by simpa using hnew⟩

/-- If no key has two entries, then the handle of any entry is the one that its key is found
under. -/
theorem Distinct.find?_eq {entry : α} {handle : Nat} (h : c.Distinct)
    (hentry : c.get? handle = some entry) : c.find? (key entry) = some handle := by
  refine find?_eq_some_iff.mpr ⟨⟨entry, hentry, rfl⟩, fun i other hi hother hkey => ?_⟩
  have hlt : i < (c.entries.map key).length := by
    rw [List.length_map]
    exact (List.getElem?_eq_some_iff.mp hother).1
  rw [get?] at hentry hother
  have hsame : i = handle := by
    refine (List.getElem?_inj hlt h).mp ?_
    rw [List.getElem?_map, List.getElem?_map, hentry, hother, Option.map_some, Option.map_some,
      hkey]
  omega

end Keys

end TraceProfile.Catalogue
