import Mathlib.Data.Set.Card
import TraceProfile.Mapping.Replay
import TraceProfile.Proofs.Mapping.Separation

/-!
# Surviving mappings

An address space is changed operation by operation and keeps no history. Its table can still be
read off the history: it holds the mappings that were added and that no later operation kills.
The argument goes by the last operation, and rests on the table being separated at every moment.
-/

namespace TraceProfile

/-- Two ranges share an address when neither is empty and each starts before the other ends. -/
theorem Mapping.overlaps_iff {a b : Mapping} :
    a.Overlaps b ↔ a.start < a.stop ∧ b.start < b.stop ∧ a.start < b.stop ∧ b.start < a.stop := by
  simp only [Overlaps, contains, Bool.and_eq_true, decide_eq_true_eq]
  constructor
  · rintro ⟨address, ha, hb⟩
    omega
  · intro h
    exact ⟨max a.start b.start, by omega, by omega⟩

namespace MappingOp

/-- The range that an operation adds holds an address. -/
def Proper (op : MappingOp) : Prop := ∀ m, op.change = .add m → m.start < m.stop

/-- An operation kills a mapping: it removes the first address of the mapping, or adds a range
that shares an address with it. -/
def Kills (op : MappingOp) (m : Mapping) : Prop :=
  match op.change with
  | .add new => new.Overlaps m
  | .remove start => start = m.start

/-- An operation that adds a mapping can only be made if the range holds an address. -/
theorem proper_of_add {time : Int} {m : Mapping} {op : MappingOp} (h : add time m = .ok op) :
    op.Proper := by
  unfold add at h
  split at h
  · cases h
  · cases h
    intro new hnew
    cases hnew
    omega

/-- The operations that can be made are the proper ones. -/
theorem proper_iff_made {op : MappingOp} :
    op.Proper ↔ (∃ time m, add time m = .ok op) ∨ ∃ time start, op = remove time start := by
  constructor
  · intro hproper
    obtain ⟨time, change⟩ := op
    cases change with
    | add m => exact .inl ⟨time, m, if_neg (Int.not_le.mpr (hproper m rfl))⟩
    | remove start => exact .inr ⟨time, start, rfl⟩
  · rintro (⟨time, m, hadd⟩ | ⟨time, start, rfl⟩)
    · exact proper_of_add hadd
    · rintro m ⟨⟩

end MappingOp

/-- A mapping survives a sequence of operations: one of them adds it, and no later one kills it. -/
def Survives (ops : List MappingOp) (m : Mapping) : Prop :=
  ∃ before time after, ops = before ++ ⟨time, .add m⟩ :: after ∧
    ∀ later ∈ after, ¬ later.Kills m

/-- The operation at a place is a removal, and when it is carried out no mapping that survives
has its first address. -/
def UnmatchedAt (ops : List MappingOp) (i : Nat) : Prop :=
  ∃ time start, ops[i]? = some ⟨time, .remove start⟩ ∧
    ∀ m, Survives (ops.take i) m → m.start ≠ start

/-- Nothing survives when nothing has happened. -/
theorem not_survives_nil (m : Mapping) : ¬ Survives [] m := by
  rintro ⟨before, time, after, h, -⟩
  simp at h

/-- What survives one more operation: the mapping that it adds, and what it does not kill. -/
theorem survives_append_singleton {ops : List MappingOp} {op : MappingOp} {m : Mapping} :
    Survives (ops ++ [op]) m ↔ op.change = .add m ∨ Survives ops m ∧ ¬ op.Kills m := by
  constructor
  · rintro ⟨before, time, after, hops, hlater⟩
    rcases List.eq_nil_or_concat after with rfl | ⟨after, last, rfl⟩
    · obtain ⟨-, hop⟩ := List.append_inj' hops rfl
      left
      rw [List.singleton_inj.mp hop]
    · rw [List.concat_eq_append, ← List.cons_append, ← List.append_assoc] at hops
      obtain ⟨rfl, hop⟩ := List.append_inj' hops rfl
      obtain rfl := List.singleton_inj.mp hop
      right
      refine ⟨⟨before, time, after, rfl, fun later hmem => ?_⟩, ?_⟩
      · exact hlater later (by simp [hmem])
      · exact hlater op (by simp)
  · rintro (hadd | ⟨⟨before, time, after, rfl, hlater⟩, hspared⟩)
    · exact ⟨ops, op.time, [], by rw [← hadd], by simp⟩
    · refine ⟨before, time, after ++ [op], by simp, fun later hmem => ?_⟩
      rcases List.mem_append.mp hmem with hmem | hmem
      · exact hlater later hmem
      · rwa [List.mem_singleton.mp hmem]

/-- The range of a mapping that survives is not empty when that holds of all that was added. -/
theorem Survives.start_lt_stop {ops : List MappingOp} {m : Mapping} (h : Survives ops m)
    (hproper : ∀ op ∈ ops, op.Proper) : m.start < m.stop := by
  obtain ⟨before, time, after, rfl, -⟩ := h
  exact hproper ⟨time, .add m⟩ (by simp) m rfl

/-- Whether a removal finds nothing is settled by what comes before it. -/
theorem unmatchedAt_append {ops more : List MappingOp} {i : Nat} (hi : i < ops.length) :
    UnmatchedAt (ops ++ more) i ↔ UnmatchedAt ops i := by
  unfold UnmatchedAt
  rw [List.getElem?_append_left hi, List.take_append_of_le_length (by omega)]

/-- Only places in the sequence count. -/
theorem UnmatchedAt.lt_length {ops : List MappingOp} {i : Nat} (h : UnmatchedAt ops i) :
    i < ops.length := by
  obtain ⟨time, start, hop, -⟩ := h
  exact (List.getElem?_eq_some_iff.mp hop).1

namespace AddressSpace

/-- An operation keeps the table separated. -/
theorem separated_apply {space : AddressSpace} (h : space.table.Separated) (op : MappingOp) :
    (space.apply op).table.Separated := by
  unfold apply
  split
  · exact h.add _
  · split
    · exact h.erase _
    · exact h

/-- The table is separated after any sequence of operations. -/
theorem separated_applyAll {space : AddressSpace} (h : space.table.Separated)
    (ops : List MappingOp) : (space.applyAll ops).table.Separated := by
  induction ops generalizing space with
  | nil => exact h
  | cons op ops ih => exact ih (separated_apply h op)

/-- The table is separated after any history. -/
theorem separated_applyAll_empty (ops : List MappingOp) :
    (empty.applyAll ops).table.Separated :=
  separated_applyAll MappingTable.separated_empty ops

/-- The last operation is applied after all others. -/
theorem applyAll_append_singleton (space : AddressSpace) (ops : List MappingOp)
    (op : MappingOp) : space.applyAll (ops ++ [op]) = (space.applyAll ops).apply op :=
  space.applyAll_append ops [op]

/-- What an operation leaves in a separated table: the mapping that it adds, and what it does
not kill. Ranges without an address would give way without sharing one. -/
theorem mem_entries_apply {space : AddressSpace} (h : space.table.Separated) {op : MappingOp}
    (hop : op.Proper) {m : Mapping} (hm : m ∈ space.table.entries → m.start < m.stop) :
    m ∈ (space.apply op).table.entries ↔
      op.change = .add m ∨ m ∈ space.table.entries ∧ ¬ op.Kills m := by
  cases hchange : op.change with
  | add new =>
    have hnew := hop new hchange
    simp only [apply, MappingOp.Kills, hchange, h.mem_add, MappingChange.add.injEq]
    refine or_congr ⟨Eq.symm, Eq.symm⟩ (and_congr_right fun hmem => not_congr ?_)
    have hrange := hm hmem
    rw [Mapping.overlaps_iff, Mapping.GivesWay]
    omega
  | remove start =>
    simp only [apply, MappingOp.Kills, hchange, reduceCtorEq, false_or]
    split
    · rw [MappingTable.mem_entries_erase]
      exact and_congr_right fun _ => not_congr ⟨Eq.symm, Eq.symm⟩
    · rename_i hnone
      refine ⟨fun hmem => ⟨hmem, fun hstart => hnone ?_⟩, And.left⟩
      rw [Option.isSome_iff_exists]
      exact ⟨m, MappingTable.get?_eq_some_iff.mpr ⟨hmem, hstart.symm⟩⟩

/-- The table after a history holds exactly the mappings that survive it. -/
theorem mem_entries_applyAll {ops : List MappingOp} (hproper : ∀ op ∈ ops, op.Proper)
    (m : Mapping) : m ∈ (empty.applyAll ops).table.entries ↔ Survives ops m := by
  induction ops using List.reverseRecOn generalizing m with
  | nil => exact iff_of_false (by simp [applyAll, empty]) (not_survives_nil m)
  | append_singleton ops op ih =>
    have hbefore : ∀ op ∈ ops, op.Proper := fun op hop => hproper op (by simp [hop])
    rw [applyAll_append_singleton, survives_append_singleton, mem_entries_apply
      (separated_applyAll_empty ops) (hproper op (by simp)), ih hbefore]
    exact fun hmem => ((ih hbefore m).mp hmem).start_lt_stop hbefore

/-- The operation is a removal, and no mapping has its first address. -/
def findsNothing (space : AddressSpace) (op : MappingOp) : Bool :=
  match op.change with
  | .add _ => false
  | .remove start => (space.table.get? start).isNone

/-- Only removals that find nothing are counted. -/
theorem unmatched_apply (space : AddressSpace) (op : MappingOp) :
    (space.apply op).unmatched = space.unmatched + (space.findsNothing op).toNat := by
  cases hchange : op.change with
  | add m => simp only [apply, findsNothing, hchange, Bool.toNat_false, Nat.add_zero]
  | remove start =>
    simp only [apply, findsNothing, hchange]
    cases hfound : space.table.get? start <;> simp

/-- A removal finds nothing in the table when no mapping with its first address survives. -/
theorem findsNothing_applyAll {ops : List MappingOp} (hproper : ∀ op ∈ ops, op.Proper)
    (op : MappingOp) :
    (empty.applyAll ops).findsNothing op = true ↔ UnmatchedAt (ops ++ [op]) ops.length := by
  obtain ⟨time, change⟩ := op
  simp only [UnmatchedAt, List.getElem?_concat_length, List.take_left, findsNothing]
  cases change with
  | add m => simp
  | remove start =>
    simp only [Option.isNone_iff_eq_none, MappingTable.get?_eq_none_iff,
      mem_entries_applyAll hproper]
    constructor
    · intro hnone
      exact ⟨time, start, rfl, hnone⟩
    · rintro ⟨time', start', hop, hnone⟩
      cases hop
      exact hnone

/-- The places of the removals that find nothing, after one more operation. -/
theorem setOf_unmatchedAt_append_singleton (ops : List MappingOp) (op : MappingOp) :
    {i | UnmatchedAt (ops ++ [op]) i} =
      {i | UnmatchedAt ops i} ∪ {i | i = ops.length ∧ UnmatchedAt (ops ++ [op]) i} := by
  ext i
  simp only [Set.mem_ofPred_eq, Set.mem_union]
  constructor
  · intro h
    have hi := h.lt_length
    rw [List.length_append, List.length_singleton] at hi
    by_cases hlast : i = ops.length
    · exact .inr ⟨hlast, h⟩
    · exact .inl ((unmatchedAt_append (by omega)).mp h)
  · rintro (h | ⟨-, h⟩)
    · exact (unmatchedAt_append h.lt_length).mpr h
    · exact h

/-- The removals that found nothing are counted one by one. -/
theorem unmatched_applyAll {ops : List MappingOp} (hproper : ∀ op ∈ ops, op.Proper) :
    (empty.applyAll ops).unmatched = {i | UnmatchedAt ops i}.ncard := by
  induction ops using List.reverseRecOn with
  | nil =>
    have hnone : {i | UnmatchedAt [] i} = ∅ :=
      Set.eq_empty_of_forall_notMem fun i hi => by simpa using hi.lt_length
    rw [hnone, Set.ncard_empty]
    rfl
  | append_singleton ops op ih =>
    have hbefore : ∀ op ∈ ops, op.Proper := fun op hop => hproper op (by simp [hop])
    have hfinite : {i | UnmatchedAt ops i}.Finite :=
      (Set.finite_lt_nat ops.length).subset fun i hi => hi.lt_length
    rw [applyAll_append_singleton, unmatched_apply, ih hbefore,
      setOf_unmatchedAt_append_singleton]
    cases hfound : (empty.applyAll ops).findsNothing op with
    | false =>
      have hlast : {i | i = ops.length ∧ UnmatchedAt (ops ++ [op]) i} = ∅ := by
        refine Set.eq_empty_of_forall_notMem ?_
        rintro i ⟨rfl, hi⟩
        rw [← findsNothing_applyAll hbefore, hfound] at hi
        cases hi
      rw [hlast, Set.union_empty]
      rfl
    | true =>
      have hlast : {i | i = ops.length ∧ UnmatchedAt (ops ++ [op]) i} = {ops.length} := by
        ext i
        refine ⟨fun h => h.1, ?_⟩
        rintro rfl
        exact ⟨rfl, (findsNothing_applyAll hbefore op).mp hfound⟩
      have hnew : ops.length ∉ {i | UnmatchedAt ops i} := fun h => by
        have := h.lt_length
        omega
      rw [hlast, Set.union_singleton, Set.ncard_insert_of_notMem hnew hfinite]
      rfl

/-- An address space is what its history makes of it. The table holds exactly the mappings that
were added and that no later operation killed. An address is looked up to the one of them whose
range holds it, and resolved to its place there. The removals that are counted are those that
found no such mapping with their first address. -/
theorem holds_exactly_survivors (ops : List MappingOp) (hproper : ∀ op ∈ ops, op.Proper) :
    (∀ m, m ∈ (empty.applyAll ops).table.entries ↔ Survives ops m) ∧
    (∀ address a b, Survives ops a → Survives ops b → a.contains address → b.contains address →
      a = b) ∧
    (∀ address m, (empty.applyAll ops).table.lookup address = some m ↔
      Survives ops m ∧ m.contains address) ∧
    (∀ address, (empty.applyAll ops).table.lookup address = none ↔
      ∀ m, Survives ops m → ¬ m.contains address) ∧
    (∀ address m, Survives ops m → m.contains address →
      (empty.applyAll ops).table.resolve address =
        some (address - m.start + m.offset, m.library)) ∧
    (∀ address, (∀ m, Survives ops m → ¬ m.contains address) →
      (empty.applyAll ops).table.resolve address = none) ∧
    (empty.applyAll ops).unmatched = {i | UnmatchedAt ops i}.ncard := by
  have hmem := mem_entries_applyAll hproper
  have hseparated := separated_applyAll_empty ops
  have hlookup : ∀ address m, (empty.applyAll ops).table.lookup address = some m ↔
      Survives ops m ∧ m.contains address := fun address m => by
    rw [hseparated.lookup_eq_some_iff, hmem]
  have hnone : ∀ address, (empty.applyAll ops).table.lookup address = none ↔
      ∀ m, Survives ops m → ¬ m.contains address := fun address => by
    rw [Option.eq_none_iff_forall_ne_some]
    refine forall_congr' fun m => ?_
    rw [ne_eq, hlookup, not_and]
  refine ⟨hmem, ?_, hlookup, hnone, ?_, ?_, unmatched_applyAll hproper⟩
  · intro address a b ha hb
    exact hseparated.eq_of_contains ((hmem a).mpr ha) ((hmem b).mpr hb)
  · intro address m hm hcontains
    rw [MappingTable.resolve, (hlookup address m).mpr ⟨hm, hcontains⟩]
    rfl
  · intro address h
    rw [MappingTable.resolve, (hnone address).mpr h]
    rfl

/-- A history with an eviction, a removal that succeeds, and two that find nothing: one repeats
a removal, and one comes for a mapping that was evicted. -/
theorem holds_exactly_survivors_of_eviction :
    let library : Library := ⟨"a", "a", none, none⟩
    let ops : List MappingOp :=
      [⟨0, .add ⟨0, 10, 0, library⟩⟩, ⟨1, .add ⟨20, 30, 7, library⟩⟩, ⟨1, .remove 0⟩,
        ⟨2, .remove 0⟩, ⟨3, .add ⟨5, 25, 3, library⟩⟩, ⟨3, .remove 20⟩]
    (∀ op ∈ ops, op.Proper) ∧ {i | UnmatchedAt ops i}.ncard = 2 ∧
      Survives ops ⟨5, 25, 3, library⟩ ∧ ¬ Survives ops ⟨20, 30, 7, library⟩ := by
  intro library ops
  have hmade : ∀ op ∈ ops,
      (∃ time m, MappingOp.add time m = .ok op) ∨ ∃ time start, op = .remove time start := by
    simp only [ops, List.forall_mem_cons]
    exact ⟨.inl ⟨0, ⟨0, 10, 0, library⟩, rfl⟩, .inl ⟨1, ⟨20, 30, 7, library⟩, rfl⟩,
      .inr ⟨1, 0, rfl⟩, .inr ⟨2, 0, rfl⟩, .inl ⟨3, ⟨5, 25, 3, library⟩, rfl⟩, .inr ⟨3, 20, rfl⟩,
      fun _ h => nomatch h⟩
  have hproper : ∀ op ∈ ops, op.Proper := fun op hop => MappingOp.proper_iff_made.mpr (hmade op hop)
  have htable : (empty.applyAll ops).table.entries = [⟨5, 25, 3, library⟩] := by decide +kernel
  obtain ⟨hmem, -, -, -, -, -, hunmatched⟩ := holds_exactly_survivors ops hproper
  refine ⟨hproper, ?_, ?_, ?_⟩
  · rw [← hunmatched]
    decide +kernel
  · rw [← hmem, htable]
    simp
  · rw [← hmem, htable]
    simp

end AddressSpace

end TraceProfile
