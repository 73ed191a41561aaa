import TraceProfile.Proofs.Mapping.Merge
import TraceProfile.Proofs.Mapping.Survival
import TraceProfile.Proofs.Text.Cutting
import TraceProfile.SymbolMap

/-!
# Addresses in a symbol map

All symbols of a map come in at one moment, in the order of their lines, and each evicts the
earlier ones that it overlaps. An address can therefore only belong to the last symbol that covers
it: every earlier one shares the address with this symbol and is gone. The last one is still there
unless a later symbol overlaps it elsewhere.
-/

namespace TraceProfile.SymbolMap

/-- What a line of a symbol map states. -/
structure Symbol where
  /-- The first address. -/
  start : Int
  /-- The number of addresses. -/
  size : Int
  /-- The name. -/
  name : String
  deriving DecidableEq, Repr

/-- A line states a symbol. Without the blanks at its ends it is a start, a size and a name, with a
space between them; neither the start nor the size has a space, and both are numerals in base
sixteen. -/
def States (line : String) (s : Symbol) : Prop :=
  ∃ start size : String, Text.strip line = start ++ " " ++ size ++ " " ++ s.name ∧
    ' ' ∉ start.toList ∧ ' ' ∉ size.toList ∧
    Numeral.readHexadecimal start = .ok s.start ∧ Numeral.readHexadecimal size = .ok s.size

/-- The symbol of a line, if it has one with any addresses. -/
def symbol? (line : String) : Option Symbol :=
  match readLine (Text.strip line) with
  | .symbol start size name => if 0 < size then some ⟨start, size, name⟩ else none
  | _ => none

/-- The symbols of some lines, in the order of the lines. -/
def symbols (lines : List String) : List Symbol := lines.filterMap symbol?

namespace Symbol

/-- The address is one of the symbol. -/
def Covers (s : Symbol) (address : Int) : Prop := s.start ≤ address ∧ address < s.start + s.size

/-- Two symbols have an address in common. -/
def Overlaps (a b : Symbol) : Prop := ∃ address, a.Covers address ∧ b.Covers address

/-- The mapping that a symbol becomes. -/
def mapping (mapName : String) (category : Option Int) (s : Symbol) : Mapping :=
  ⟨s.start, s.start + s.size, 0, ⟨mapName, mapName, category, some s.name⟩⟩

/-- The operation that adds it. -/
def operation (mapName : String) (category : Option Int) (s : Symbol) : MappingOp :=
  ⟨0, .add (s.mapping mapName category)⟩

end Symbol

section Lines

variable {line : String} {s : Symbol}

/-- The reader takes a line for a symbol exactly if the line states it. -/
theorem readLine_eq_symbol_iff :
    readLine (Text.strip line) = .symbol s.start s.size s.name ↔ States line s := by
  unfold States
  generalize Text.strip line = line
  constructor
  · intro h
    unfold readLine at h
    split at h
    · cases h
    · split at h
      · rename_i start size name hparts
        split at h
        · rename_i hstart hsize
          cases h
          obtain ⟨hline, hspaces⟩ := (Text.splitAtMost_two_eq_iff " " rfl).mp hparts
          exact ⟨start, size, hline, hspaces.1, hspaces.2, hstart, hsize⟩
        · cases h
      · cases h
  · rintro ⟨start, size, hline, hstart, hsize, hreadStart, hreadSize⟩
    have hfilled : ¬ line.isEmpty := by
      rw [String.isEmpty_iff, hline, ← String.toList_inj]
      simp
    have hparts : Text.splitAtMost ' ' 2 line = [start, size, s.name] :=
      (Text.splitAtMost_two_eq_iff " " rfl).mpr ⟨hline, hstart, hsize⟩
    rw [readLine, if_neg hfilled, hparts]
    simp only [hreadStart, hreadSize]

/-- A line has the symbol that it states, if this has any addresses. -/
theorem symbol?_eq_some_iff : symbol? line = some s ↔ States line s ∧ 0 < s.size := by
  rw [← readLine_eq_symbol_iff, symbol?]
  cases hline : readLine (Text.strip line) with
  | blank => simp
  | malformed => simp
  | symbol start size name =>
    by_cases hsize : 0 < size
    · simp only [hsize, if_true, Option.some.injEq, Line.symbol.injEq]
      constructor
      · rintro rfl
        exact ⟨⟨rfl, rfl, rfl⟩, hsize⟩
      · rintro ⟨⟨rfl, rfl, rfl⟩, -⟩
        rfl
    · simp only [hsize, if_false, reduceCtorEq, Line.symbol.injEq, false_iff]
      rintro ⟨⟨rfl, rfl, rfl⟩, hpositive⟩
      exact hsize hpositive

end Lines

section Reading

variable {mapName : String} {category : Option Int} {q q' : OpQueue} {lines : List String}

/-- The reading of a map succeeds unless a line states a negative size, and then its symbols are
pushed in the order of their lines. -/
theorem readFrom_eq_ok_iff {lineNumber : Nat} :
    (readFrom mapName category q lineNumber lines).result = .ok q' ↔
      (∀ line ∈ lines, ∀ s, States line s → 0 ≤ s.size) ∧
        ((symbols lines).map (Symbol.operation mapName category)).foldlM OpQueue.push q =
          .ok q' := by
  induction lines generalizing q lineNumber with
  | nil => simp [readFrom, symbols, pure, Except.pure]
  | cons line rest ih =>
    rw [List.forall_mem_cons, symbols, List.filterMap_cons, ← symbols, symbol?]
    simp only [readFrom, ← @readLine_eq_symbol_iff line]
    cases hline : readLine (Text.strip line) with
    | blank => simp [ih]
    | malformed => simp [ih]
    | symbol start size name =>
      have hstates : (∀ s : Symbol, Line.symbol start size name = .symbol s.start s.size s.name →
          0 ≤ s.size) ↔ 0 ≤ size := by
        constructor
        · intro h
          exact h ⟨start, size, name⟩ rfl
        · rintro h s ⟨⟩
          exact h
      simp only [hstates]
      rcases Int.lt_trichotomy size 0 with hneg | hzero | hpos
      · have hempty : operation mapName category start size name =
            .error (Refusal.emptyRange start (start + size)) := if_pos (by simp; omega)
        rw [if_neg (by omega), hempty]
        refine iff_of_false (fun h => by cases h) fun h => ?_
        omega
      · simp [hzero, ih]
      · have hadd : operation mapName category start size name >>= q.push =
            q.push (Symbol.operation mapName category ⟨start, size, name⟩) := by
          rw [operation, MappingOp.add, if_neg (by simp; omega)]
          rfl
        simp only [if_pos hpos, List.map_cons, List.foldlM_cons]
        rw [if_neg (by omega), hadd]
        cases hpush : q.push (Symbol.operation mapName category ⟨start, size, name⟩) with
        | error f => simp [bind, Except.bind]
        | ok next =>
          simp only [ih, bind, Except.bind]
          rw [and_iff_right (Int.le_of_lt hpos)]

/-- The operations of a symbol map, in the order of the lines. -/
def operations (mapName : String) (category : Option Int) (lines : List String) : List MappingOp :=
  (symbols lines).map (Symbol.operation mapName category)

/-- All operations of a map have the same time. -/
theorem ascending_operations (mapName : String) (category : Option Int) (lines : List String) :
    Ascending MappingOp.time (operations mapName category lines) :=
  List.pairwise_map.mpr (List.pairwise_of_forall fun _ _ => Int.le_refl _)

/-- A map has a queue unless a line states a negative size, and the queue holds its symbols. -/
theorem read_eq_ok_iff :
    (read mapName category lines).result = .ok q ↔
      (∀ line ∈ lines, ∀ s, States line s → 0 ≤ s.size) ∧
        q = ⟨[], operations mapName category lines⟩ := by
  rw [read, readFrom_eq_ok_iff]
  refine and_congr_right fun _ => ?_
  change OpQueue.ofList (operations mapName category lines) = .ok q ↔ _
  rw [OpQueue.ofList_eq_ok_iff, and_iff_right (ascending_operations mapName category lines)]

/-- A map that is read next to an empty queue has been carried out as a whole from time zero on. -/
theorem space_advance {time : Int} (htime : 0 ≤ time) :
    (((Replay.ofQueues [.empty]).register ⟨[], operations mapName category lines⟩).advance
      time).space = AddressSpace.empty.applyAll (operations mapName category lines) := by
  have hascending := ascending_operations mapName category lines
  have hfresh : ∀ q ∈ [OpQueue.empty, ⟨[], operations mapName category lines⟩], q.Fresh := by
    simp only [List.forall_mem_cons]
    exact ⟨⟨[], rfl⟩, ⟨_, OpQueue.ofList_eq_ok_iff.mpr ⟨hascending, rfl⟩⟩, by simp⟩
  have hdue : (operations mapName category lines).filter (·.time ≤ time) =
      operations mapName category lines := by
    refine List.filter_eq_self.mpr fun op hop => ?_
    obtain ⟨s, -, rfl⟩ := List.mem_map.mp hop
    exact decide_eq_true htime
  have hspace := Replay.space_advance_ofQueues hfresh time
  simp only [List.flatMap_cons, List.flatMap_nil, List.append_nil, OpQueue.history, OpQueue.empty,
    List.reverse_nil, List.nil_append, hascending.stableOrder_eq, hdue] at hspace
  exact hspace

end Reading

section Survival

variable {mapName : String} {category : Option Int} {lines : List String} {m : Mapping}

/-- The mapping of a symbol contains the addresses that the symbol covers. -/
theorem contains_mapping {s : Symbol} {address : Int} :
    (s.mapping mapName category).contains address ↔ s.Covers address := by
  rw [Mapping.contains, Bool.and_eq_true, decide_eq_true_iff, decide_eq_true_iff]
  exact Iff.rfl

/-- What survives is a symbol that no later one overlaps. -/
theorem survives_operations_iff :
    Survives (operations mapName category lines) m ↔
      ∃ before s after, symbols lines = before ++ s :: after ∧ m = s.mapping mapName category ∧
        ∀ later ∈ after, ¬ later.Overlaps s := by
  have hkills : ∀ later s : Symbol,
      (later.operation mapName category).Kills (s.mapping mapName category) ↔ later.Overlaps s := by
    intro later s
    exact exists_congr fun address => and_congr contains_mapping contains_mapping
  constructor
  · rintro ⟨before, time, after, hops, hlater⟩
    obtain ⟨before, rest, hsymbols, rfl, hrest⟩ := List.map_eq_append_iff.mp hops
    obtain ⟨s, after, rfl, hs, rfl⟩ := List.map_eq_cons_iff.mp hrest
    cases hs
    refine ⟨before, s, after, hsymbols, rfl, fun later hmem hoverlaps => ?_⟩
    exact hlater _ (List.mem_map_of_mem hmem) ((hkills later s).mpr hoverlaps)
  · rintro ⟨before, s, after, hsymbols, rfl, hlater⟩
    refine ⟨before.map (Symbol.operation mapName category), 0,
      after.map (Symbol.operation mapName category), ?_, ?_⟩
    · rw [operations, hsymbols, List.map_append, List.map_cons]
      rfl
    · intro op hop
      obtain ⟨later, hmem, rfl⟩ := List.mem_map.mp hop
      exact fun hkill => hlater later hmem ((hkills later s).mp hkill)

/-- The symbols of a map have addresses, so each of them can be added. -/
theorem proper_operations : ∀ op ∈ operations mapName category lines, op.Proper := by
  intro op hop
  obtain ⟨s, hs, rfl⟩ := List.mem_map.mp hop
  obtain ⟨line, -, hline⟩ := List.mem_filterMap.mp hs
  have hsize := (symbol?_eq_some_iff.mp hline).2
  have hmade : operation mapName category s.start s.size s.name =
      .ok (s.operation mapName category) := if_neg (by simp only; omega)
  exact MappingOp.proper_of_add hmade

/-- An address belongs to a symbol that covers it and that no later one overlaps. -/
theorem lookup_eq_some_iff {address : Int} :
    (AddressSpace.empty.applyAll (operations mapName category lines)).table.lookup address =
        some m ↔
      ∃ before s after, symbols lines = before ++ s :: after ∧ m = s.mapping mapName category ∧
        (∀ later ∈ after, ¬ later.Overlaps s) ∧ s.Covers address := by
  rw [(AddressSpace.separated_applyAll_empty _).lookup_eq_some_iff,
    AddressSpace.mem_entries_applyAll proper_operations, survives_operations_iff]
  constructor
  · rintro ⟨⟨before, s, after, hsymbols, rfl, hlater⟩, hcontains⟩
    exact ⟨before, s, after, hsymbols, rfl, hlater, contains_mapping.mp hcontains⟩
  · rintro ⟨before, s, after, hsymbols, rfl, hlater, hcovers⟩
    exact ⟨⟨before, s, after, hsymbols, rfl, hlater⟩, contains_mapping.mpr hcovers⟩

/-- If an address belongs to a symbol, then to the last one that covers it. -/
theorem eq_of_lookup {address : Int} {before after : List Symbol} {s : Symbol}
    (hsymbols : symbols lines = before ++ s :: after) (hcovers : s.Covers address)
    (hlast : ∀ later ∈ after, ¬ later.Covers address)
    (hfound : (AddressSpace.empty.applyAll (operations mapName category lines)).table.lookup
      address = some m) :
    m = s.mapping mapName category ∧ ∀ later ∈ after, ¬ later.Overlaps s := by
  obtain ⟨before', s', after', hsymbols', rfl, hspared, hcovers'⟩ := lookup_eq_some_iff.mp hfound
  rcases List.append_eq_append_iff.mp (hsymbols.symm.trans hsymbols') with
    ⟨between, -, hbehind⟩ | ⟨between, -, hfront⟩
  · cases between with
    | nil =>
      cases hbehind
      exact ⟨rfl, hspared⟩
    | cons first between =>
      -- The other symbol stands behind the last one that covers the address.
      cases hbehind
      exact (hlast s' (by simp) hcovers').elim
  · cases between with
    | nil =>
      cases hfront
      exact ⟨rfl, hspared⟩
    | cons first between =>
      -- The other symbol stands before, and shares the address with this one.
      cases hfront
      exact (hspared s (by simp) ⟨address, hcovers, hcovers'⟩).elim

/-- A symbol map has a queue exactly if no line states a negative size. Registered next to an empty
queue and replayed up to any time from zero on, it leaves an address to the last symbol that covers
it, with its name and the place of the address in it, if no later symbol overlaps this one, and to
none otherwise; an address that no symbol covers belongs to none. -/
theorem address_of_last_symbol (mapName : String) (category : Option Int) (lines : List String) :
    (∀ line s, symbol? line = some s ↔ States line s ∧ 0 < s.size) ∧
    ((∃ q, (read mapName category lines).result = .ok q) ↔
      ∀ line ∈ lines, ∀ s, States line s → 0 ≤ s.size) ∧
    ∀ q, (read mapName category lines).result = .ok q → ∀ time, 0 ≤ time →
      let replay := ((Replay.ofQueues [.empty]).register q).advance time
      ∀ address,
        ((∀ s ∈ symbols lines, ¬ s.Covers address) →
          replay.lookup address = none ∧ replay.resolve address = none) ∧
        ∀ before s after, symbols lines = before ++ s :: after → s.Covers address →
          (∀ later ∈ after, ¬ later.Covers address) →
          ((∀ later ∈ after, ¬ later.Overlaps s) →
            replay.lookup address =
              some ⟨s.start, s.start + s.size, 0, ⟨mapName, mapName, category, some s.name⟩⟩ ∧
            replay.resolve address =
              some (address - s.start, ⟨mapName, mapName, category, some s.name⟩)) ∧
          ((∃ later ∈ after, later.Overlaps s) →
            replay.lookup address = none ∧ replay.resolve address = none) := by
  refine ⟨fun _ _ => symbol?_eq_some_iff, ?_, fun q hq time htime => ?_⟩
  · simp only [read_eq_ok_iff]
    exact ⟨fun ⟨_, hsizes, _⟩ => hsizes, fun hsizes => ⟨_, hsizes, rfl⟩⟩
  obtain ⟨-, rfl⟩ := read_eq_ok_iff.mp hq
  intro replay address
  have hspace : replay.space =
      AddressSpace.empty.applyAll (operations mapName category lines) := space_advance htime
  have hresolve : ∀ m, replay.lookup address = m →
      replay.resolve address = m.map fun m => (m.relative address, m.library) := by
    rintro m rfl
    rfl
  have hnone : (∀ m, replay.lookup address ≠ some m) →
      replay.lookup address = none ∧ replay.resolve address = none := fun h =>
    have hlookup := Option.eq_none_iff_forall_ne_some.mpr h
    ⟨hlookup, hresolve none hlookup⟩
  refine ⟨fun huncovered => hnone fun m hm => ?_, ?_⟩
  · rw [Replay.lookup, hspace] at hm
    obtain ⟨before, s, after, hsymbols, -, -, hcovers⟩ := lookup_eq_some_iff.mp hm
    exact huncovered s (by rw [hsymbols]; simp) hcovers
  · intro before s after hsymbols hcovers hlast
    refine ⟨fun hspared => ?_, fun ⟨later, hmem, hoverlaps⟩ => hnone fun m hm => ?_⟩
    · have hlookup : replay.lookup address = some (s.mapping mapName category) := by
        rw [Replay.lookup, hspace]
        exact lookup_eq_some_iff.mpr ⟨before, s, after, hsymbols, rfl, hspared, hcovers⟩
      refine ⟨hlookup, (hresolve _ hlookup).trans ?_⟩
      simp [Symbol.mapping, Mapping.relative]
    · rw [Replay.lookup, hspace] at hm
      exact (eq_of_lookup hsymbols hcovers hlast hm).2 later hmem hoverlaps

/-- The lines of a map in which the first addresses of `parse` and some in the middle are used
again. -/
private def reusedLines : List String :=
  ["1000 100 parse", "1080 10 compile", "", "zz 1 bad", "1000 20 emit row", "1004 0 nothing"]

private theorem symbols_reusedLines : symbols reusedLines =
    [⟨0x1000, 0x100, "parse"⟩, ⟨0x1080, 0x10, "compile"⟩, ⟨0x1000, 0x20, "emit row"⟩] := by
  decide +kernel

/-- In a range that is used again, the later symbol is found, and what it leaves of the earlier one
is gone. -/
theorem address_of_last_symbol_of_reused_range :
    ∃ q, (read "jit" none reusedLines).result = .ok q ∧
      let replay := ((Replay.ofQueues [.empty]).register q).advance 0
      replay.resolve 0x1005 = some (5, ⟨"jit", "jit", none, some "emit row"⟩) ∧
      replay.resolve 0x1085 = some (5, ⟨"jit", "jit", none, some "compile"⟩) ∧
      replay.resolve 0x1090 = none ∧ replay.resolve 0x2000 = none := by
  obtain ⟨q, hq⟩ : ∃ q, (read "jit" none reusedLines).result = .ok q := ⟨_, rfl⟩
  have hresolves := (address_of_last_symbol "jit" none reusedLines).2.2 q hq 0 (Int.le_refl 0)
  simp only [symbols_reusedLines] at hresolves
  refine ⟨q, hq, ?_, ?_, ?_, ?_⟩
  · exact (((hresolves 0x1005).2 [_, _] _ [] rfl ⟨by decide, by decide⟩ (by simp)).1 (by simp)).2
  · have hspared : ∀ later ∈ [(⟨0x1000, 0x20, "emit row"⟩ : Symbol)],
        ¬ later.Overlaps ⟨0x1080, 0x10, "compile"⟩ := by
      rintro later hlater ⟨address, hcovers, hcovers'⟩
      cases List.mem_singleton.mp hlater
      simp only [Symbol.Covers] at hcovers hcovers'
      omega
    have hlast : ∀ later ∈ [(⟨0x1000, 0x20, "emit row"⟩ : Symbol)], ¬ later.Covers 0x1085 := by
      simp [Symbol.Covers]
    exact (((hresolves 0x1085).2 [_] _ [_] rfl ⟨by decide, by decide⟩ hlast).1 hspared).2
  · have hoverlaps : ∃ later ∈ [⟨0x1080, 0x10, "compile"⟩, ⟨0x1000, 0x20, "emit row"⟩],
        Symbol.Overlaps later ⟨0x1000, 0x100, "parse"⟩ :=
      ⟨_, List.mem_cons_self, 0x1080, ⟨by decide, by decide⟩, ⟨by decide, by decide⟩⟩
    have hlast : ∀ later ∈
        [(⟨0x1080, 0x10, "compile"⟩ : Symbol), ⟨0x1000, 0x20, "emit row"⟩],
        ¬ later.Covers 0x1090 := by
      simp [Symbol.Covers]
    exact (((hresolves 0x1090).2 [] _ _ rfl ⟨by decide, by decide⟩ hlast).2 hoverlaps).2
  · exact ((hresolves 0x2000).1 (by simp [Symbol.Covers])).2

end Survival

end TraceProfile.SymbolMap
