import TraceProfile.Proofs.Catalogue

/-!
# Filling a catalogue

Entries that are given handles one after the other, at any time and in any order, leave a catalogue
that depends on nothing but their sequence. It has one entry per key, the first one that came with
it.
-/

namespace TraceProfile.Catalogue

variable {α κ : Type} [DecidableEq κ] {key : α → κ} {c : Catalogue key} {entries : List α}

/-- The catalogue after some entries have been given handles. -/
def ensureAll (entries : List α) (c : Catalogue key) : Catalogue key :=
  entries.foldl (fun c entry => (c.ensure entry).2) c

/-- No entries leave the catalogue as it is. -/
@[simp]
theorem ensureAll_nil (c : Catalogue key) : c.ensureAll [] = c := rfl

/-- The first entry is given its handle before the others. -/
@[simp]
theorem ensureAll_cons (entry : α) (rest : List α) (c : Catalogue key) :
    c.ensureAll (entry :: rest) = (c.ensure entry).2.ensureAll rest := rfl

/-- A catalogue may be filled in two parts. -/
@[simp]
theorem ensureAll_append (first second : List α) (c : Catalogue key) :
    c.ensureAll (first ++ second) = (c.ensureAll first).ensureAll second :=
  List.foldl_append

/-- Filling a catalogue extends it. -/
theorem extends_ensureAll (entries : List α) (c : Catalogue key) :
    c.Extends (c.ensureAll entries) := by
  induction entries generalizing c with
  | nil => exact .refl c
  | cons entry rest ih => exact (extends_ensure entry c).trans (ih _)

/-- No two entries share a key after a catalogue was filled. -/
theorem Distinct.ensureAll (h : c.Distinct) (entries : List α) :
    (c.ensureAll entries).Distinct := by
  induction entries generalizing c with
  | nil => exact h
  | cons entry rest ih => exact ih (h.ensure entry)

/-- An entry whose key is there already does not become the first one of its key. -/
theorem find?_entries_ensure (entry : α) (c : Catalogue key) (k : κ) :
    (c.ensure entry).2.entries.find? (key · = k) = (c.entries ++ [entry]).find? (key · = k) := by
  unfold ensure
  split
  · rename_i handle hfound
    obtain ⟨kept, hkept, hkey⟩ := get?_of_find? hfound
    rw [List.find?_append]
    by_cases hk : key entry = k
    · have hsome : (c.entries.find? (key · = k)).isSome := by
        rw [List.find?_isSome]
        exact ⟨kept, List.mem_of_getElem? hkept, by simpa using hkey.trans hk⟩
      rw [Option.or_of_isSome hsome]
    · rw [List.find?_singleton, if_neg (by simpa using hk), Option.or_none]
  · rfl

/-- Of the entries with one key, a catalogue keeps the first that it was given. -/
theorem find?_entries_ensureAll (entries : List α) (c : Catalogue key) (k : κ) :
    (c.ensureAll entries).entries.find? (key · = k) =
      (c.entries ++ entries).find? (key · = k) := by
  induction entries generalizing c with
  | nil => rw [ensureAll_nil, List.append_nil]
  | cons entry rest ih =>
    rw [ensureAll_cons, ih, List.find?_append, find?_entries_ensure, ← List.find?_append,
      List.append_assoc, List.singleton_append]

/-- Every entry of a catalogue is the first one that the catalogue was given with its key. -/
theorem Distinct.find?_of_mem_ensureAll (h : c.Distinct) {entry : α}
    (hmem : entry ∈ (c.ensureAll entries).entries) :
    (c.entries ++ entries).find? (key · = key entry) = some entry := by
  rw [← find?_entries_ensureAll]
  obtain ⟨first, hfirst⟩ : ∃ first,
      (c.ensureAll entries).entries.find? (key · = key entry) = some first := by
    refine Option.isSome_iff_exists.mp (List.find?_isSome.mpr ⟨entry, hmem, ?_⟩)
    exact decide_eq_true rfl
  have hkey : key first = key entry := of_decide_eq_true (List.find?_some hfirst :)
  have hsame : first = entry :=
    List.inj_on_of_nodup_map (h.ensureAll entries) (List.mem_of_find?_eq_some hfirst) hmem hkey
  rw [hfirst, hsame]

end TraceProfile.Catalogue
