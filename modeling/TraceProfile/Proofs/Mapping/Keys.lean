import TraceProfile.Proofs.Mapping.Separation

/-!
# Tables with their keys

A mapping table leaves out the keys of its mappings, for they are their first addresses. A keyed
table has them written out. Nothing in it says that a mapping stands under its first address, and
an eviction fails if there is nothing under its key. Any calls on an empty table, with whatever
ranges, lead to the same mappings in both: no eviction fails, every key is the first address of its
mapping, and the table stays separated. One look at the nearest mapping below an address then tells
the same as a scan.
-/

namespace TraceProfile

/-- A call that changes a table. -/
inductive TableCall where
  /-- A mapping comes in; its range may be empty or reversed. -/
  | add (m : Mapping)
  /-- The mapping of a first address is taken out, if there is one. -/
  | remove (start : Int)
  deriving DecidableEq, Repr

/-- Mappings under keys, by ascending key. -/
structure KeyedTable where
  /-- The keys with their mappings. -/
  entries : List (Int × Mapping)
  deriving DecidableEq, Repr

namespace KeyedTable

/-- The table without mappings. -/
def empty : KeyedTable := ⟨[]⟩

/-- The table with a mapping under a key, in the place of what is under it. -/
def put (t : KeyedTable) (key : Int) (m : Mapping) : KeyedTable :=
  ⟨t.entries.filter (·.1 < key) ++ (key, m) :: t.entries.filter (key < ·.1)⟩

/-- The table without what is under a key, where there must be something. -/
def pop? (t : KeyedTable) (key : Int) : Option KeyedTable :=
  if key ∈ t.entries.map (·.1) then some ⟨t.entries.filter (·.1 ≠ key)⟩ else none

/-- The entry with the greatest key that is not above an address. -/
def floor? (t : KeyedTable) (address : Int) : Option (Int × Mapping) :=
  (t.entries.filter (·.1 ≤ address)).getLast?

/-- The keys by which mappings give way to a range: for the nearest one at or below its start this
is the first address of the mapping, for those that start inside it is the key in the table. -/
def hitBy (t : KeyedTable) (start stop : Int) : List Int :=
  ((t.floor? start).filter (start < ·.2.stop)).toList.map (·.2.start) ++
    (t.entries.filter fun entry => start < entry.1 && entry.1 < stop).map (·.1)

/-- The table after a mapping has come in; none if an eviction finds nothing. -/
def add? (t : KeyedTable) (m : Mapping) : Option KeyedTable :=
  (((t.hitBy m.start m.stop).filter (· ≠ m.start)).foldlM pop? t).map (·.put m.start m)

/-- The table after a call. -/
def after? (t : KeyedTable) : TableCall → Option KeyedTable
  | .add m => t.add? m
  | .remove start => some ((t.pop? start).getD t)

/-- The table after some calls on an empty one. -/
def run? (calls : List TableCall) : Option KeyedTable := calls.foldlM after? empty

end KeyedTable

namespace MappingTable

/-- The table after a call. -/
def after (t : MappingTable) : TableCall → MappingTable
  | .add m => t.add m
  | .remove start => t.erase start

/-- The table after some calls on an empty one. -/
def run (calls : List TableCall) : MappingTable := calls.foldl after empty

/-- The mappings of a table under their first addresses. -/
def keyed (t : MappingTable) : KeyedTable := ⟨t.entries.map fun m => (m.start, m)⟩

/-- Every mapping is under its first address. -/
theorem mem_keyed {t : MappingTable} {key : Int} {m : Mapping} :
    (key, m) ∈ t.keyed.entries ↔ m ∈ t.entries ∧ key = m.start := by
  simp only [keyed, List.mem_map, Prod.mk.injEq]
  constructor
  · rintro ⟨n, hn, rfl, rfl⟩
    exact ⟨hn, rfl⟩
  · rintro ⟨hm, rfl⟩
    exact ⟨m, hm, rfl, rfl⟩

/-- A mapping put in its place is put under its first address. -/
theorem put_keyed (t : MappingTable) (m : Mapping) :
    t.keyed.put m.start m = (t.put m).keyed := by
  simp [KeyedTable.put, keyed, put, List.filter_map, Function.comp_def]

/-- The nearest mapping below an address is under the nearest key. -/
theorem floor?_keyed (t : MappingTable) (address : Int) :
    t.keyed.floor? address = (t.floor? address).map fun m => (m.start, m) := by
  rw [KeyedTable.floor?, keyed, List.filter_map, List.getLast?_map, floor?]
  rfl

/-- The keys that a range runs into are those of the mappings that it runs into. -/
theorem hitBy_keyed (t : MappingTable) (start stop : Int) :
    t.keyed.hitBy start stop = (t.hitBy start stop).map (·.start) := by
  rw [KeyedTable.hitBy, floor?_keyed, hitBy, List.map_append, keyed, List.filter_map, List.map_map]
  congr 1
  cases t.floor? start with
  | none => rfl
  | some m => by_cases hstop : start < m.stop <;> simp [Option.filter, hstop]

/-- A mapping is taken out under its first address. -/
theorem pop?_keyed {t : MappingTable} {m : Mapping} (h : m ∈ t.entries) :
    t.keyed.pop? m.start = some (t.erase m.start).keyed := by
  have hkey : m.start ∈ t.keyed.entries.map (·.1) :=
    List.mem_map_of_mem (f := (·.1)) (mem_keyed.mpr ⟨h, rfl⟩)
  rw [KeyedTable.pop?, if_pos hkey]
  simp [keyed, erase, List.filter_map, Function.comp_def]

/-- Nothing is under a key that is not the first address of a mapping. -/
theorem pop?_keyed_of_absent {t : MappingTable} {start : Int}
    (h : ∀ m ∈ t.entries, m.start ≠ start) : t.keyed.pop? start = none := by
  refine if_neg fun hkey => ?_
  obtain ⟨⟨_, m⟩, hentry, rfl⟩ := List.mem_map.mp hkey
  obtain ⟨hm, hstart⟩ := mem_keyed.mp hentry
  exact h m hm hstart.symm

/-- Mappings of a table with different first addresses are taken out one after the other, and
each is found under its first address. -/
theorem foldlM_pop?_keyed {evicted : List Mapping} {t : MappingTable}
    (hmem : ∀ m ∈ evicted, m ∈ t.entries)
    (hapart : evicted.Pairwise fun a b => a.start ≠ b.start) :
    (evicted.map (·.start)).foldlM KeyedTable.pop? t.keyed =
      some (evicted.foldl (fun t old => t.erase old.start) t).keyed := by
  induction evicted generalizing t with
  | nil => rfl
  | cons m rest ih =>
    obtain ⟨hm, hrest⟩ := List.forall_mem_cons.mp hmem
    obtain ⟨hfirst, hlater⟩ := List.pairwise_cons.mp hapart
    rw [List.map_cons, List.foldlM_cons, pop?_keyed hm]
    exact ih (fun n hn => mem_entries_erase.mpr ⟨hrest n hn, (hfirst n hn).symm⟩) hlater

/-- What a range runs into is in the table. -/
theorem mem_of_mem_hitBy {t : MappingTable} {start stop : Int} {m : Mapping}
    (h : m ∈ t.hitBy start stop) : m ∈ t.entries := by
  rcases List.mem_append.mp h with hbelow | hinside
  · rw [Option.mem_toList, Option.filter_eq_some_iff, floor?_eq_some_iff] at hbelow
    exact hbelow.1.1
  · exact (List.mem_filter.mp hinside).1

/-- No two mappings that a range runs into have the same first address. -/
theorem pairwise_hitBy (t : MappingTable) (start stop : Int) :
    (t.hitBy start stop).Pairwise fun a b => a.start ≠ b.start := by
  refine List.pairwise_append.mpr ⟨?_, ?_, fun a ha b hb => ?_⟩
  · cases (t.floor? start).filter (start < ·.stop) with
    | none => exact .nil
    | some m => exact List.pairwise_singleton _ _
  · exact (t.ascending.filter _).imp Int.ne_of_lt
  · rw [Option.mem_toList, Option.filter_eq_some_iff, floor?_eq_some_iff] at ha
    have hb := (List.mem_filter.mp hb).2
    simp only [Bool.and_eq_true, decide_eq_true_eq] at hb
    omega

/-- In an addition no eviction fails. -/
theorem add?_keyed (t : MappingTable) (m : Mapping) :
    t.keyed.add? m = some (t.add m).keyed := by
  have hkeys : (t.keyed.hitBy m.start m.stop).filter (· ≠ m.start) =
      (t.evictedBy m).map (·.start) := by
    rw [hitBy_keyed, List.filter_map, evictedBy]
    rfl
  have hevicted : ((t.evictedBy m).map (·.start)).foldlM KeyedTable.pop? t.keyed =
      some ((t.evictedBy m).foldl (fun t old => t.erase old.start) t).keyed :=
    foldlM_pop?_keyed (fun n hn => mem_of_mem_hitBy (List.mem_filter.mp hn).1)
      ((t.pairwise_hitBy _ _).filter _)
  rw [KeyedTable.add?, hkeys, hevicted, Option.map_some, put_keyed, add]

/-- A call succeeds, and leaves the same mappings under their first addresses. -/
theorem after?_keyed (t : MappingTable) (call : TableCall) :
    t.keyed.after? call = some (t.after call).keyed := by
  cases call with
  | add m => exact add?_keyed t m
  | remove start =>
    rw [KeyedTable.after?, after]
    by_cases hfound : ∃ m ∈ t.entries, m.start = start
    · obtain ⟨m, hm, rfl⟩ := hfound
      rw [pop?_keyed hm, Option.getD_some]
    · have habsent : ∀ m ∈ t.entries, m.start ≠ start :=
        fun m hm hstart => hfound ⟨m, hm, hstart⟩
      have hsame : (t.erase start).entries = t.entries :=
        List.filter_eq_self.mpr fun m hm => decide_eq_true (habsent m hm)
      rw [pop?_keyed_of_absent habsent, Option.getD_none, keyed, keyed, hsame]

/-- Calls on both tables lead to the same mappings, each under its first address. -/
theorem foldlM_after?_keyed (calls : List TableCall) (t : MappingTable) :
    calls.foldlM KeyedTable.after? t.keyed = some (calls.foldl after t).keyed := by
  induction calls generalizing t with
  | nil => rfl
  | cons call rest ih =>
    rw [List.foldlM_cons, after?_keyed]
    exact ih (t.after call)

/-- A call keeps a table separated, whatever its range. -/
theorem Separated.after {t : MappingTable} (h : t.Separated) (call : TableCall) :
    (t.after call).Separated := by
  cases call with
  | add m => exact h.add m
  | remove start => exact h.erase start

/-- The table is separated after any calls. -/
theorem separated_run (calls : List TableCall) : (run calls).Separated :=
  List.foldlRecOn (motive := Separated) calls after separated_empty fun _ h call _ => h.after call

/-- A separated table has at most one mapping for an address, so a scan finds the one that is
looked up. -/
theorem Separated.lookup_eq_find? {t : MappingTable} (h : t.Separated) (address : Int) :
    t.lookup address = t.entries.find? fun m => m.start ≤ address && address < m.stop := by
  cases hscan : t.entries.find? fun m => m.start ≤ address && address < m.stop with
  | none =>
    rw [Option.eq_none_iff_forall_ne_some]
    intro m hm
    obtain ⟨hmem, hcontains⟩ := h.lookup_eq_some_iff.mp hm
    exact List.find?_eq_none.mp hscan m hmem hcontains
  | some m =>
    have hcontains := List.find?_some hscan
    exact h.lookup_eq_some_iff.mpr ⟨List.mem_of_find?_eq_some hscan, hcontains⟩

/-- Any calls on an empty table, with ranges that may be empty or reversed, succeed also where the
keys are written out, and leave the same mappings. Every key is the first address of its mapping.
Of two keys the mapping under the lower one ends before the other. A lookup looks at no mapping but
the one with the greatest first address that is not above the address, and finds what a scan of the
whole table for a range with the address does; there is at most one to be found. -/
theorem run_lookup_eq_scan (calls : List TableCall) :
    let t := run calls
    (∃ keyed, KeyedTable.run? calls = some keyed ∧
      keyed.entries.map (·.2) = t.entries ∧
      (∀ key m, (key, m) ∈ keyed.entries → key = m.start) ∧
      keyed.entries.Pairwise (fun a b => a.1 < b.1) ∧
      ∀ low ∈ keyed.entries, ∀ high ∈ keyed.entries, low.1 < high.1 → low.2.stop ≤ high.1) ∧
    ∀ address,
      (∀ m, t.lookup address = some m ↔ m ∈ t.entries ∧ m.start ≤ address ∧
        (∀ n ∈ t.entries, n.start ≤ address → n.start ≤ m.start) ∧ address < m.stop) ∧
      (t.lookup address = t.entries.find? fun m => m.start ≤ address && address < m.stop) ∧
      ∀ a ∈ t.entries, ∀ b ∈ t.entries, a.start ≤ address → address < a.stop →
        b.start ≤ address → address < b.stop → a = b := by
  intro t
  have hseparated : t.Separated := separated_run calls
  refine ⟨⟨t.keyed, foldlM_after?_keyed calls empty, ?_, ?_, ?_, ?_⟩, fun address => ⟨?_, ?_, ?_⟩⟩
  · simp [keyed, Function.comp_def]
  · exact fun key m hentry => (mem_keyed.mp hentry).2
  · exact List.pairwise_map.mpr t.ascending
  · rintro ⟨_, a⟩ ha ⟨_, b⟩ hb hlt
    obtain ⟨hamem, rfl⟩ := mem_keyed.mp ha
    obtain ⟨hbmem, rfl⟩ := mem_keyed.mp hb
    exact hseparated a hamem b hbmem hlt
  · intro m
    rw [lookup, Option.filter_eq_some_iff, floor?_eq_some_iff, Mapping.contains_iff]
    constructor
    · rintro ⟨⟨hm, hstart, hnearest⟩, -, hstop⟩
      exact ⟨hm, hstart, hnearest, hstop⟩
    · rintro ⟨hm, hstart, hnearest, hstop⟩
      exact ⟨⟨hm, hstart, hnearest⟩, hstart, hstop⟩
  · exact hseparated.lookup_eq_find? address
  · intro a ha b hb hstart hstop hstart' hstop'
    exact hseparated.eq_of_contains ha hb (Mapping.contains_iff.mpr ⟨hstart, hstop⟩)
      (Mapping.contains_iff.mpr ⟨hstart', hstop'⟩)

/-- An empty range inside another one evicts it and a reversed one too, a range may start where
another ends, and one at an address that is taken takes its place. -/
example :
    let library : Library := ⟨"a", "a", none, none⟩
    let calls : List TableCall :=
      [.add ⟨0, 10, 0, library⟩, .add ⟨5, 5, 0, library⟩, .add ⟨10, 20, 0, library⟩,
        .add ⟨12, 11, 0, library⟩, .add ⟨12, 30, 1, library⟩, .remove 10]
    (run calls).entries = [⟨5, 5, 0, library⟩, ⟨12, 30, 1, library⟩] := by
  decide +kernel

end MappingTable

end TraceProfile
