import Mathlib.Data.List.Pairwise
import TraceProfile.Mapping.Table

/-!
# Separated mappings

A table evicts what a new range runs into, and to find it looks at one mapping below the range
and at those that start inside. That is enough because the table is separated: every mapping
ends before the next one starts. An addition and a removal both keep it so, for empty ranges
and reversed ones too.
-/

namespace TraceProfile

/-- A mapping has to give way to a new one: it has the same first address, or reaches from below
beyond the new first address, or starts inside the new range. -/
def Mapping.GivesWay (old new : Mapping) : Prop :=
  old.start = new.start ∨ (old.start < new.start ∧ new.start < old.stop) ∨
    (new.start < old.start ∧ old.start < new.stop)

namespace MappingTable

/-- Of two mappings, the one that starts lower ends before the other starts. -/
def Separated (t : MappingTable) : Prop :=
  ∀ a ∈ t.entries, ∀ b ∈ t.entries, a.start < b.start → a.stop ≤ b.start

/-- The first address tells the mappings of a table apart. -/
theorem eq_of_start_eq {t : MappingTable} {a b : Mapping} (ha : a ∈ t.entries)
    (hb : b ∈ t.entries) (hstart : a.start = b.start) : a = b := by
  by_contra hne
  have hapart : t.entries.Pairwise fun a b => a.start ≠ b.start :=
    t.ascending.imp fun h => by omega
  have : Std.Symm fun a b : Mapping => a.start ≠ b.start := ⟨fun _ _ h => h.symm⟩
  exact hapart.forall ha hb hne hstart

/-- The mapping of a first address is the entry that has it. -/
theorem get?_eq_some_iff {t : MappingTable} {start : Int} {m : Mapping} :
    t.get? start = some m ↔ m ∈ t.entries ∧ m.start = start := by
  constructor
  · intro h
    exact ⟨List.mem_of_find?_eq_some h, by simpa using List.find?_some h⟩
  · rintro ⟨hm, rfl⟩
    cases hfind : t.get? m.start with
    | none =>
      have := List.find?_eq_none.mp hfind m hm
      simp at this
    | some n =>
      have hn : n.start = m.start := by simpa using List.find?_some hfind
      rw [eq_of_start_eq (List.mem_of_find?_eq_some hfind) hm hn]

/-- A first address without a mapping is that of no entry. -/
theorem get?_eq_none_iff {t : MappingTable} {start : Int} :
    t.get? start = none ↔ ∀ m ∈ t.entries, m.start ≠ start := by
  simp [get?]

private theorem greatest_of_floor? {t : MappingTable} {address : Int} {m : Mapping}
    (h : t.floor? address = some m) :
    m ∈ t.entries ∧ m.start ≤ address ∧
      ∀ n ∈ t.entries, n.start ≤ address → n.start ≤ m.start := by
  have hsorted := t.ascending.filter (·.start ≤ address)
  have hm := List.mem_of_getLast? h
  obtain ⟨lower, hlower⟩ := List.getLast?_eq_some_iff.mp h
  refine ⟨(List.mem_filter.mp hm).1, by simpa using (List.mem_filter.mp hm).2, fun n hn hle => ?_⟩
  have hn' : n ∈ t.entries.filter (·.start ≤ address) :=
    List.mem_filter.mpr ⟨hn, by simpa using hle⟩
  rw [hlower] at hsorted hn'
  rcases List.mem_append.mp hn' with hn' | hn'
  · exact Int.le_of_lt ((List.pairwise_append.mp hsorted).2.2 n hn' m (by simp))
  · obtain rfl := List.mem_singleton.mp hn'
    exact Int.le_refl _

/-- The nearest mapping at or below an address is the one with the greatest first address. -/
theorem floor?_eq_some_iff {t : MappingTable} {address : Int} {m : Mapping} :
    t.floor? address = some m ↔ m ∈ t.entries ∧ m.start ≤ address ∧
      ∀ n ∈ t.entries, n.start ≤ address → n.start ≤ m.start := by
  refine ⟨greatest_of_floor?, fun ⟨hm, hle, hgreatest⟩ => ?_⟩
  cases hfloor : t.floor? address with
  | none =>
    have hempty := List.filter_eq_nil_iff.mp (List.getLast?_eq_none_iff.mp hfloor) m hm
    simp [hle] at hempty
  | some n =>
    obtain ⟨hn, hnle, hn'⟩ := greatest_of_floor? hfloor
    have hmn := hn' m hm hle
    have hnm := hgreatest n hn hnle
    rw [eq_of_start_eq hn hm (by omega)]

/-- On a separated table a range runs into exactly the mappings that have to give way to it. -/
theorem Separated.mem_hitBy {t : MappingTable} (ht : t.Separated) {e : Mapping}
    {start stop : Int} :
    e ∈ t.hitBy start stop ↔ e ∈ t.entries ∧
      ((e.start ≤ start ∧ start < e.stop) ∨ (start < e.start ∧ e.start < stop)) := by
  simp only [hitBy, List.mem_append, Option.mem_toList, Option.filter_eq_some_iff,
    floor?_eq_some_iff, List.mem_filter, decide_eq_true_eq, Bool.and_eq_true]
  constructor
  · rintro (⟨⟨he, hle, -⟩, hstop⟩ | ⟨he, hinside⟩)
    · exact ⟨he, .inl ⟨hle, hstop⟩⟩
    · exact ⟨he, .inr hinside⟩
  · rintro ⟨he, ⟨hle, hstop⟩ | hinside⟩
    · -- A mapping between `e` and the start would begin where `e` has not ended yet.
      refine .inl ⟨⟨he, hle, fun n hn hnle => ?_⟩, hstop⟩
      by_contra hlt
      have := ht e he n hn (by omega)
      omega
    · exact .inr ⟨he, hinside⟩

/-- Only mappings with other first addresses are evicted. -/
theorem Separated.mem_evictedBy {t : MappingTable} (ht : t.Separated) {e m : Mapping} :
    e ∈ t.evictedBy m ↔ e ∈ t.entries ∧ e.GivesWay m ∧ e.start ≠ m.start := by
  simp only [evictedBy, List.mem_filter, ht.mem_hitBy, decide_eq_true_eq, Mapping.GivesWay,
    and_assoc]
  constructor
  · rintro ⟨he, hhit, hne⟩
    exact ⟨he, by omega, hne⟩
  · rintro ⟨he, hhit, hne⟩
    exact ⟨he, by omega, hne⟩

private theorem mem_foldl_erase {evicted : List Mapping} {t : MappingTable} {e : Mapping} :
    e ∈ (evicted.foldl (fun t old => t.erase old.start) t).entries ↔
      e ∈ t.entries ∧ ∀ old ∈ evicted, e.start ≠ old.start := by
  induction evicted generalizing t with
  | nil => simp
  | cons old evicted ih =>
    rw [List.foldl_cons, ih, mem_entries_erase, List.forall_mem_cons, and_assoc]

/-- An addition puts the new mapping in and takes out exactly those that give way to it. -/
theorem Separated.mem_add {t : MappingTable} (ht : t.Separated) {e m : Mapping} :
    e ∈ (t.add m).entries ↔ e = m ∨ e ∈ t.entries ∧ ¬ e.GivesWay m := by
  rw [add, mem_entries_put, mem_foldl_erase]
  refine or_congr_right ⟨?_, ?_⟩
  · rintro ⟨⟨he, hkept⟩, hstart⟩
    refine ⟨he, fun hgives => ?_⟩
    exact hkept e (ht.mem_evictedBy.mpr ⟨he, hgives, hstart⟩) rfl
  · rintro ⟨he, hstays⟩
    refine ⟨⟨he, fun old hold hstart => ?_⟩, fun hstart => hstays (.inl hstart)⟩
    obtain ⟨hmem, hgives, -⟩ := ht.mem_evictedBy.mp hold
    exact hstays (eq_of_start_eq he hmem hstart ▸ hgives)

/-- The empty table is separated. -/
theorem separated_empty : empty.Separated := by
  intro a ha
  simp at ha

/-- A removal keeps a table separated. -/
theorem Separated.erase {t : MappingTable} (ht : t.Separated) (start : Int) :
    (t.erase start).Separated := by
  intro a ha b hb hlt
  exact ht a (mem_entries_erase.mp ha).1 b (mem_entries_erase.mp hb).1 hlt

/-- An addition keeps a table separated, whatever the range of the new mapping. -/
theorem Separated.add {t : MappingTable} (ht : t.Separated) (m : Mapping) :
    (t.add m).Separated := by
  intro a ha b hb hlt
  rcases ht.mem_add.mp ha with rfl | ⟨ha, hastays⟩
  · rcases ht.mem_add.mp hb with rfl | ⟨hb, hbstays⟩
    · omega
    · unfold Mapping.GivesWay at hbstays
      omega
  · rcases ht.mem_add.mp hb with rfl | ⟨hb, hbstays⟩
    · unfold Mapping.GivesWay at hastays
      omega
    · exact ht a ha b hb hlt

/-- On a separated table the nearest mapping below an address is the only one that can hold it. -/
theorem Separated.lookup_eq_some_iff {t : MappingTable} (ht : t.Separated) {address : Int}
    {m : Mapping} : t.lookup address = some m ↔ m ∈ t.entries ∧ m.contains address := by
  simp only [lookup, Option.filter_eq_some_iff, floor?_eq_some_iff]
  constructor
  · rintro ⟨⟨hm, -⟩, hcontains⟩
    exact ⟨hm, hcontains⟩
  · rintro ⟨hm, hcontains⟩
    have hin : m.start ≤ address ∧ address < m.stop := by
      simpa [Mapping.contains] using hcontains
    refine ⟨⟨hm, hin.1, fun n hn hle => ?_⟩, hcontains⟩
    by_contra hlt
    have := ht m hm n hn (by omega)
    omega

/-- At most one mapping of a separated table holds an address. -/
theorem Separated.eq_of_contains {t : MappingTable} (ht : t.Separated) {a b : Mapping}
    {address : Int} (ha : a ∈ t.entries) (hb : b ∈ t.entries)
    (hacontains : a.contains address) (hbcontains : b.contains address) : a = b := by
  have hla := ht.lookup_eq_some_iff.mpr ⟨ha, hacontains⟩
  have hlb := ht.lookup_eq_some_iff.mpr ⟨hb, hbcontains⟩
  exact Option.some.inj (hla.symm.trans hlb)

end MappingTable

end TraceProfile
