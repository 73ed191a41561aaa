/-!
# Association lists

A table from keys to values that remembers the order in which its keys came. A key has one
entry; a new value for it takes the old one's place. Lookup is `List.lookup`.
-/

namespace TraceProfile.Assoc

variable {κ α : Type} [BEq κ]

/-- The table with a value put under a key: in its old place if the key is there, else at the
end. -/
def insert (key : κ) (value : α) : List (κ × α) → List (κ × α)
  | [] => [(key, value)]
  | entry :: rest =>
    if key == entry.1 then (key, value) :: rest else entry :: insert key value rest

/-- The table without a key. -/
def erase (key : κ) (table : List (κ × α)) : List (κ × α) :=
  table.filter fun entry => !(key == entry.1)

/-- The table of a sequence of entries; a later value replaces an earlier one of its key. -/
def ofList (entries : List (κ × α)) : List (κ × α) :=
  entries.foldl (fun table entry => insert entry.1 entry.2 table) []

/-- The entries of a table with text keys, in ascending order of the keys. -/
def sorted (table : List (String × α)) : List (String × α) :=
  table.mergeSort fun a b => a.1 ≤ b.1

/-- The first entry settles its own key. -/
private theorem lookup_cons_ite (key other : κ) (value : α) (table : List (κ × α)) :
    ((key, value) :: table).lookup other =
      if other == key then some value else table.lookup other := by
  rw [List.lookup_cons]
  cases other == key <;> rfl

/-- An insertion is seen at its own key only. -/
theorem lookup_insert [LawfulBEq κ] (key other : κ) (value : α) (table : List (κ × α)) :
    (insert key value table).lookup other =
      if other == key then some value else table.lookup other := by
  induction table with
  | nil => rw [insert, lookup_cons_ite]
  | cons entry rest ih => grind [insert, lookup_cons_ite]

/-- An erased key is gone and no other key is. -/
theorem lookup_erase [LawfulBEq κ] (key other : κ) (table : List (κ × α)) :
    (erase key table).lookup other = if other == key then none else table.lookup other := by
  induction table with
  | nil => simp [erase]
  | cons entry rest ih => grind [erase, lookup_cons_ite]

/-- An insertion brings in no entry but its own. -/
theorem mem_insert {key : κ} {value : α} {table : List (κ × α)} {entry : κ × α}
    (h : entry ∈ insert key value table) : entry = (key, value) ∨ entry ∈ table := by
  induction table with
  | nil => exact .inl (List.mem_singleton.mp h)
  | cons first rest ih =>
    rw [insert] at h
    split at h
    · exact (List.mem_cons.mp h).imp_right (List.mem_cons_of_mem _)
    · rcases List.mem_cons.mp h with rfl | hrest
      · exact .inr List.mem_cons_self
      · exact (ih hrest).imp_right (List.mem_cons_of_mem _)

/-- An insertion brings in no key but its own. -/
theorem mem_keys_insert [LawfulBEq κ] {key other : κ} {value : α} {table : List (κ × α)} :
    other ∈ (insert key value table).map (·.1) ↔ other = key ∨ other ∈ table.map (·.1) := by
  induction table with
  | nil => simp [insert]
  | cons entry rest ih => grind [insert]

/-- An insertion keeps the keys distinct. -/
theorem nodup_keys_insert [LawfulBEq κ] (key : κ) (value : α) {table : List (κ × α)}
    (h : (table.map (·.1)).Nodup) : ((insert key value table).map (·.1)).Nodup := by
  induction table with
  | nil => simp [insert]
  | cons entry rest ih =>
    obtain ⟨hentry, hrest⟩ := List.nodup_cons.mp h
    rw [insert]
    split
    · rename_i hkey
      rw [eq_of_beq hkey]
      exact List.nodup_cons.mpr ⟨hentry, hrest⟩
    · rename_i hkey
      refine List.nodup_cons.mpr ⟨fun hmem => ?_, ih hrest⟩
      rcases mem_keys_insert.mp hmem with heq | hold
      · exact hkey (beq_iff_eq.mpr heq.symm)
      · exact hentry hold

/-- Erasing keeps the keys distinct. -/
theorem nodup_keys_erase (key : κ) {table : List (κ × α)} (h : (table.map (·.1)).Nodup) :
    ((erase key table).map (·.1)).Nodup :=
  h.sublist (List.filter_sublist.map _)

/-- An erased key is none of those that stay. -/
theorem not_mem_keys_erase [LawfulBEq κ] (key : κ) (table : List (κ × α)) :
    key ∉ (erase key table).map (·.1) := by
  intro hmem
  obtain ⟨entry, hentry, rfl⟩ := List.mem_map.mp hmem
  simp [erase] at hentry

/-- The keys of a table are distinct. -/
theorem nodup_keys_ofList [LawfulBEq κ] (entries : List (κ × α)) :
    ((ofList entries).map (·.1)).Nodup := by
  refine List.foldlRecOn (motive := fun table : List (κ × α) => (table.map (·.1)).Nodup) entries _
    ?_ fun table h entry _ => nodup_keys_insert entry.1 entry.2 h
  exact List.nodup_nil

/-- The entries of a table are among those that it was made from. -/
theorem mem_of_mem_ofList {entries : List (κ × α)} {entry : κ × α}
    (h : entry ∈ ofList entries) : entry ∈ entries := by
  have hall : ∀ entry ∈ ofList entries, entry ∈ entries := by
    refine List.foldlRecOn (motive := fun table : List (κ × α) => ∀ entry ∈ table, entry ∈ entries)
      entries _ (fun _ h => nomatch h) fun table h first hfirst entry hentry => ?_
    rcases mem_insert hentry with rfl | hold
    · exact hfirst
    · exact h entry hold
  exact hall entry h

section Sorted

variable {t t' : List (String × α)}

/-- Sorting a table loses no key and adds none. -/
theorem keys_sorted_perm (t : List (String × α)) :
    ((sorted t).map (·.1)).Perm (t.map (·.1)) :=
  (List.mergeSort_perm t _).map _

/-- The keys of a sorted table ascend. -/
theorem keys_sorted_pairwise (t : List (String × α)) :
    ((sorted t).map (·.1)).Pairwise (· ≤ ·) := by
  have htrans (a b c : String × α) (hab : decide (a.1 ≤ b.1) = true)
      (hbc : decide (b.1 ≤ c.1) = true) : decide (a.1 ≤ c.1) = true := by
    simp only [decide_eq_true_eq] at hab hbc ⊢
    exact String.le_trans hab hbc
  have htotal (a b : String × α) : (decide (a.1 ≤ b.1) || decide (b.1 ≤ a.1)) = true := by
    simp only [Bool.or_eq_true, decide_eq_true_eq]
    exact String.le_total a.1 b.1
  exact List.pairwise_map.mpr
    ((List.pairwise_mergeSort htrans htotal t).imp fun hab => of_decide_eq_true hab)

/-- The keys of two tables are the same list in ascending order if and only if they are the same
keys. -/
theorem keys_sorted_eq_iff (h : (t.map (·.1)).Nodup) (h' : (t'.map (·.1)).Nodup) :
    (sorted t).map (·.1) = (sorted t').map (·.1) ↔
      ∀ key, key ∈ t.map (·.1) ↔ key ∈ t'.map (·.1) := by
  rw [← List.perm_ext_iff_of_nodup h h']
  constructor
  · intro heq
    exact ((keys_sorted_perm t).symm.trans (heq ▸ List.Perm.refl _)).trans (keys_sorted_perm t')
  · intro hkeys
    exact List.Perm.eq_of_pairwise (fun a b _ _ => String.le_antisymm) (keys_sorted_pairwise t)
      (keys_sorted_pairwise t')
      (((keys_sorted_perm t).trans hkeys).trans (keys_sorted_perm t').symm)

end Sorted

end TraceProfile.Assoc
