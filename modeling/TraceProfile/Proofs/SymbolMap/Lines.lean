import TraceProfile.Proofs.Number.Grammar
import TraceProfile.Proofs.SymbolMap

/-!
# Lines of a symbol map that are no symbols

Lines that state nothing, or a symbol without addresses, leave no trace among the operations of a
map: the map is read as if they were not there, and those that are malformed are reported. Only a
negative size does more harm. The symbol is refused as a mapping, and this ends the reading of the
whole map.
-/

namespace TraceProfile.SymbolMap

/-- The line states a symbol with a negative size. -/
def StatesNegative (line : String) : Prop := ∃ s, States line s ∧ s.size < 0

/-- What a line says is a symbol with a negative size. -/
def Line.isNegative : Line → Bool
  | .symbol _ size _ => size < 0
  | _ => false

/-- The operation of a line, if it has one. -/
def operation? (mapName : String) (category : Option Int) (line : String) : Option MappingOp :=
  (symbol? line).map (Symbol.operation mapName category)

/-- The report on the line with a number, if the line is malformed. -/
def report? (mapName : String) (entry : String × Nat) : Option LogRecord :=
  match readLine (Text.strip entry.1) with
  | .malformed => some (.malformedSymbol mapName entry.2 (Text.strip entry.1))
  | _ => none

section Lines

variable {line : String} {s s' : Symbol}

/-- A line states one symbol at most. -/
theorem States.unique (h : States line s) (h' : States line s') : s = s' := by
  have hsame := (readLine_eq_symbol_iff.mpr h).symm.trans (readLine_eq_symbol_iff.mpr h')
  cases s
  cases s'
  cases hsame
  rfl

/-- A line is read as a symbol of negative size if and only if it states one. -/
theorem isNegative_readLine_iff :
    (readLine (Text.strip line)).isNegative = true ↔ StatesNegative line := by
  simp only [StatesNegative, ← readLine_eq_symbol_iff]
  cases readLine (Text.strip line) with
  | blank => simp [Line.isNegative]
  | malformed => simp [Line.isNegative]
  | symbol start size name =>
    constructor
    · exact fun h => ⟨⟨start, size, name⟩, rfl, of_decide_eq_true h⟩
    · rintro ⟨s, hs, hsize⟩
      cases hs
      exact decide_eq_true hsize

instance : DecidablePred StatesNegative := fun _ => decidable_of_iff _ isNegative_readLine_iff

/-- A line is malformed if it is not blank and states no symbol. -/
theorem readLine_eq_malformed_iff :
    readLine (Text.strip line) = .malformed ↔ Text.strip line ≠ "" ∧ ∀ s, ¬ States line s := by
  have hblank : readLine (Text.strip line) = .blank ↔ Text.strip line = "" := by
    rw [readLine, ← String.isEmpty_iff]
    split
    · simp_all
    · split
      · split <;> simp_all
      · simp_all
  rw [Ne, ← hblank]
  simp only [← readLine_eq_symbol_iff]
  cases readLine (Text.strip line) with
  | blank => simp
  | malformed => simp
  | symbol start size name =>
    simp only [reduceCtorEq, not_false_eq_true, true_and, false_iff, not_forall, not_not]
    exact ⟨⟨start, size, name⟩, rfl⟩

/-- Exactly the malformed lines are reported, each with its number. -/
theorem report?_eq_some_iff {mapName : String} {lineNumber : Nat} {record : LogRecord} :
    report? mapName (line, lineNumber) = some record ↔
      (Text.strip line ≠ "" ∧ ∀ s, ¬ States line s) ∧
        record = .malformedSymbol mapName lineNumber (Text.strip line) := by
  rw [← readLine_eq_malformed_iff, report?]
  cases readLine (Text.strip line) with
  | blank => simp
  | malformed => simp [eq_comm]
  | symbol start size name => simp

/-- A line states a symbol with addresses, one with a negative size, or nothing that counts. -/
theorem states_cases (line : String) :
    (∃ s, States line s ∧ 0 < s.size) ∨ StatesNegative line ∨
      ∀ s, States line s → s.size = 0 := by
  by_cases hstates : ∃ s, States line s
  · obtain ⟨s, hs⟩ := hstates
    rcases Int.lt_trichotomy s.size 0 with hneg | hzero | hpos
    · exact .inr (.inl ⟨s, hs, hneg⟩)
    · exact .inr (.inr fun s' hs' => hs.unique hs' ▸ hzero)
    · exact .inl ⟨s, hs, hpos⟩
  · exact .inr (.inr fun s hs => absurd ⟨s, hs⟩ hstates)

/-- A line has no symbol to map if it states none, or one without addresses. -/
theorem symbol?_eq_none_iff : symbol? line = none ↔ ∀ s, States line s → s.size ≤ 0 := by
  rw [Option.eq_none_iff_forall_ne_some]
  refine forall_congr' fun s => ?_
  rw [Ne, symbol?_eq_some_iff, not_and, Int.not_lt]

end Lines

section Steps

variable {mapName : String} {category : Option Int} {q : OpQueue} {lineNumber : Nat}
  {line : String} {rest : List String} {s : Symbol}

/-- The operation of a symbol with addresses is pushed. -/
theorem readFrom_cons_of_pos (h : States line s) (hsize : 0 < s.size) :
    readFrom mapName category q lineNumber (line :: rest) =
      match q.push (s.operation mapName category) with
      | .error f => ⟨.error f, []⟩
      | .ok q => readFrom mapName category q (lineNumber + 1) rest := by
  have hadd : operation mapName category s.start s.size s.name >>= q.push =
      q.push (s.operation mapName category) := by
    rw [operation, MappingOp.add, if_neg (by simp; omega)]
    rfl
  cases hpush : q.push (s.operation mapName category) <;>
    simp only [readFrom, readLine_eq_symbol_iff.mpr h, if_neg (Int.ne_of_gt hsize), hadd, hpush]

/-- A negative size ends the reading. -/
theorem readFrom_cons_of_neg (h : States line s) (hsize : s.size < 0) :
    readFrom mapName category q lineNumber (line :: rest) =
      ⟨.error (Refusal.emptyRange s.start (s.start + s.size)), []⟩ := by
  have hempty : operation mapName category s.start s.size s.name =
      .error (Refusal.emptyRange s.start (s.start + s.size)) := if_pos (by simp; omega)
  simp only [readFrom, readLine_eq_symbol_iff.mpr h, if_neg (Int.ne_of_lt hsize), hempty]
  rfl

/-- Any other line is passed over, with a report if it is malformed. -/
theorem readFrom_cons_of_empty (h : ∀ s, States line s → s.size = 0) :
    readFrom mapName category q lineNumber (line :: rest) =
      ⟨(readFrom mapName category q (lineNumber + 1) rest).result,
        (report? mapName (line, lineNumber)).toList ++
          (readFrom mapName category q (lineNumber + 1) rest).log⟩ := by
  simp only [readFrom, report?]
  cases hline : readLine (Text.strip line) with
  | blank => rfl
  | malformed => rfl
  | symbol start size name =>
    have hsize : size = 0 := h ⟨start, size, name⟩ (readLine_eq_symbol_iff.mp hline)
    simp only [if_pos hsize]
    rfl

end Steps

section Readings

variable {mapName : String} {category : Option Int} {q q' : OpQueue}
  {before rest lines : List String} {line : String}

/-- The numbers of the lines matter for the reports only. -/
theorem result_readFrom_congr (first second : Nat) :
    (readFrom mapName category q first lines).result =
      (readFrom mapName category q second lines).result := by
  induction lines generalizing q first second with
  | nil => rfl
  | cons line rest ih =>
    rcases states_cases line with ⟨s, hs, hsize⟩ | ⟨s, hs, hsize⟩ | hempty
    · rw [readFrom_cons_of_pos hs hsize, readFrom_cons_of_pos hs hsize]
      cases q.push (s.operation mapName category) with
      | error f => rfl
      | ok next => exact ih _ _
    · rw [readFrom_cons_of_neg hs hsize, readFrom_cons_of_neg hs hsize]
    · rw [readFrom_cons_of_empty hempty, readFrom_cons_of_empty hempty]
      exact ih _ _

/-- The lines of a map are read in two parts, unless the first part ends the reading. -/
theorem readFrom_append (lineNumber : Nat) :
    readFrom mapName category q lineNumber (before ++ rest) =
      match (readFrom mapName category q lineNumber before).result with
      | .error f => ⟨.error f, (readFrom mapName category q lineNumber before).log⟩
      | .ok next =>
        ⟨(readFrom mapName category next (lineNumber + before.length) rest).result,
          (readFrom mapName category q lineNumber before).log ++
            (readFrom mapName category next (lineNumber + before.length) rest).log⟩ := by
  induction before generalizing q lineNumber with
  | nil => rfl
  | cons line before ih =>
    have hplace : lineNumber + (before.length + 1) = lineNumber + 1 + before.length := by omega
    rw [List.cons_append, List.length_cons, hplace]
    rcases states_cases line with ⟨s, hs, hsize⟩ | ⟨s, hs, hsize⟩ | hempty
    · rw [readFrom_cons_of_pos hs hsize, readFrom_cons_of_pos hs hsize]
      cases q.push (s.operation mapName category) with
      | error f => rfl
      | ok next => exact ih _
    · rw [readFrom_cons_of_neg hs hsize, readFrom_cons_of_neg hs hsize]
    · rw [readFrom_cons_of_empty hempty, readFrom_cons_of_empty hempty, ih]
      cases (readFrom mapName category q (lineNumber + 1) before).result with
      | error f => rfl
      | ok next => simp only [List.append_assoc]

/-- When the reading comes to its end, the malformed lines have been reported. -/
theorem log_readFrom {lineNumber : Nat}
    (h : (readFrom mapName category q lineNumber lines).result = .ok q') :
    (readFrom mapName category q lineNumber lines).log =
      (lines.zipIdx lineNumber).filterMap (report? mapName) := by
  induction lines generalizing q lineNumber with
  | nil => rfl
  | cons line rest ih =>
    rw [List.zipIdx_cons, List.filterMap_cons]
    rcases states_cases line with ⟨s, hs, hsize⟩ | ⟨s, hs, hsize⟩ | hempty
    · have hnone : report? mapName (line, lineNumber) = none := by
        rw [report?, readLine_eq_symbol_iff.mpr hs]
      rw [readFrom_cons_of_pos hs hsize] at h ⊢
      rw [hnone]
      cases hpush : q.push (s.operation mapName category) with
      | error f =>
        rw [hpush] at h
        cases h
      | ok next =>
        rw [hpush] at h
        exact ih h
    · rw [readFrom_cons_of_neg hs hsize] at h
      cases h
    · rw [readFrom_cons_of_empty hempty] at h ⊢
      dsimp only at h ⊢
      rw [ih h]
      cases report? mapName (line, lineNumber) <;> rfl

/-- A line without a symbol, or with one of size zero, might as well not be there. -/
theorem result_read_of_empty (h : ∀ s, States line s → s.size = 0) :
    (read mapName category (before ++ line :: rest)).result =
      (read mapName category (before ++ rest)).result := by
  simp only [read, readFrom_append]
  cases (readFrom mapName category .empty 1 before).result with
  | error f => rfl
  | ok next =>
    simp only [readFrom_cons_of_empty h]
    exact result_readFrom_congr _ _

/-- The first negative size ends the reading, when the lines before it have been reported on. -/
theorem read_of_negative {s : Symbol} (hbefore : ∀ earlier ∈ before, ¬ StatesNegative earlier)
    (hs : States line s) (hsize : s.size < 0) :
    read mapName category (before ++ line :: rest) =
      ⟨.error (Refusal.emptyRange s.start (s.start + s.size)),
        (before.zipIdx 1).filterMap (report? mapName)⟩ := by
  have hfirst : (read mapName category before).result =
      .ok ⟨[], operations mapName category before⟩ := by
    refine read_eq_ok_iff.mpr ⟨fun earlier hmem s hs => ?_, rfl⟩
    exact Int.not_lt.mp fun hneg => hbefore earlier hmem ⟨s, hs, hneg⟩
  rw [read] at hfirst
  simp only [read, readFrom_append, hfirst, readFrom_cons_of_neg hs hsize, log_readFrom hfirst,
    List.append_nil]

end Readings

/-- What becomes of the lines of a map. Those that state a symbol with addresses have an operation,
and no other line has one. A map without a negative size is read: its queue holds these operations
in the order of the lines, at time zero, and the malformed lines are reported. The first line that
states a negative size ends the reading, whatever comes behind it. Any other line without an
operation makes no difference to the result. -/
theorem read_unless_negative (mapName : String) (category : Option Int) (lines : List String) :
    (∀ text n, Numeral.readHexadecimal text = .ok n ↔ ∃ negative values,
      Numeral.HasForm 16 Numeral.baseMarks text negative values ∧
        n = Binary64.signed negative (Numeral.ofDigits 16 values)) ∧
    (∀ line op, operation? mapName category line = some op ↔
      ∃ s, States line s ∧ 0 < s.size ∧
        op = ⟨0, .add ⟨s.start, s.start + s.size, 0,
          ⟨mapName, mapName, category, some s.name⟩⟩⟩) ∧
    (∀ lineNumber line record, report? mapName (line, lineNumber) = some record ↔
      (Text.strip line ≠ "" ∧ ∀ s, ¬ States line s) ∧
        record = .malformedSymbol mapName lineNumber (Text.strip line)) ∧
    ((∀ line ∈ lines, ¬ StatesNegative line) →
      read mapName category lines =
        ⟨.ok ⟨[], lines.filterMap (operation? mapName category)⟩,
          (lines.zipIdx 1).filterMap (report? mapName)⟩) ∧
    (∀ before line rest s, lines = before ++ line :: rest →
      (∀ earlier ∈ before, ¬ StatesNegative earlier) → States line s → s.size < 0 →
        read mapName category lines =
          ⟨.error (Refusal.emptyRange s.start (s.start + s.size)),
            (before.zipIdx 1).filterMap (report? mapName)⟩) ∧
    ∀ before line rest, lines = before ++ line :: rest → operation? mapName category line = none →
      ¬ StatesNegative line →
        (read mapName category lines).result = (read mapName category (before ++ rest)).result := by
  have hoperations : operations mapName category lines =
      lines.filterMap (operation? mapName category) := List.map_filterMap
  refine ⟨fun _ _ => Numeral.readHexadecimal_eq_ok_iff, fun line op => ?_,
    fun _ _ _ => report?_eq_some_iff, fun hsizes => ?_, ?_, ?_⟩
  · rw [operation?, Option.map_eq_some_iff]
    simp only [symbol?_eq_some_iff, and_assoc]
    exact exists_congr fun s => and_congr_right fun _ => and_congr_right fun _ => eq_comm
  · have hresult : (read mapName category lines).result =
        .ok ⟨[], operations mapName category lines⟩ := by
      refine read_eq_ok_iff.mpr ⟨fun line hline s hs => ?_, rfl⟩
      exact Int.not_lt.mp fun hneg => hsizes line hline ⟨s, hs, hneg⟩
    have hlog : (read mapName category lines).log =
        (lines.zipIdx 1).filterMap (report? mapName) := log_readFrom hresult
    rw [← hoperations, ← hresult, ← hlog]
  · rintro before line rest s rfl hbefore hs hsize
    exact read_of_negative hbefore hs hsize
  · rintro before line rest rfl hnone hsize
    refine result_read_of_empty fun s hs => ?_
    have hle := symbol?_eq_none_iff.mp (Option.map_eq_none_iff.mp hnone) s hs
    have hge := Int.not_lt.mp fun hneg => hsize ⟨s, hs, hneg⟩
    omega

/-- A map with numerals of several forms, and with lines that are no symbols. -/
def mixedLines : List String :=
  ["0x1000 1_0 parse args", "zz 1 bad", " ", "2000 0 nothing", "-10 +8 low page", "3000 20"]

/-- The result for this map, which has no symbol of negative size. -/
theorem read_unless_negative_of_mixed :
    (∀ line ∈ mixedLines, ¬ StatesNegative line) ∧
      (read "jit" none mixedLines).result = .ok ⟨[],
        [⟨0, .add ⟨0x1000, 0x1010, 0, ⟨"jit", "jit", none, some "parse args"⟩⟩⟩,
          ⟨0, .add ⟨-0x10, -0x8, 0, ⟨"jit", "jit", none, some "low page"⟩⟩⟩]⟩ ∧
      (read "jit" none mixedLines).log.map LogRecord.message =
        ["jit:2: skipping malformed line 'zz 1 bad'",
          "jit:6: skipping malformed line '3000 20'"] := by
  have hsizes : ∀ line ∈ mixedLines, ¬ StatesNegative line := by decide +kernel
  obtain ⟨-, -, -, hread, -⟩ := read_unless_negative "jit" none mixedLines
  rw [hread hsizes]
  exact ⟨hsizes, by decide +kernel, by decide +kernel⟩

/-- A negative size ends the reading, and the line after it is lost as well. -/
theorem read_stops_at_negative_size :
    (read "jit" none ["1000 -10 parse", "2000 10 emit"]).result =
      .error (Refusal.emptyRange 0x1000 0xff0) := by
  decide +kernel

end TraceProfile.SymbolMap
