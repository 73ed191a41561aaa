import Mathlib.Data.Nat.Find
import Mathlib.Logic.ExistsUnique
import TraceProfile.Proofs.Marker.Routing

/-!
# Pairing in a whole log

Line by line, a reader of span logs keeps records that wait. Over a whole log the same pairs can
be told from the positions of the lines: a closing line takes the first opening line of its key
since the last closing line of this key. Lines of other keys, and lines of none, change neither
the pairs nor what a line brings about.
-/

namespace TraceProfile

namespace SpanKey

variable (nesting : Nat) (key : SpanKey) (lines : List (Nat × String))

/-- The record that the line at a position holds for a key. -/
def recordAt? (i : Nat) : Option (Turn × JournalEntry) :=
  lines[i]?.bind fun l => key.record? nesting l.2

/-- The line at a position holds a record for the key with the given part. -/
def TurnAt (turn : Turn) (i : Nat) : Prop := ∃ e, key.recordAt? nesting lines i = some (turn, e)

/-- Line `i` opens a span that no line before line `k` closes. -/
def OpenAt (k i : Nat) : Prop :=
  i < k ∧ key.TurnAt nesting lines .opening i ∧
    ∀ m, i < m → m < k → ¬ key.TurnAt nesting lines .closing m

/-- Line `i` is the first opening line since the last closing line before line `k`. -/
def FirstOpen (k i : Nat) : Prop :=
  key.OpenAt nesting lines k i ∧ ∀ m, key.OpenAt nesting lines k m → i ≤ m

/-- The record of the first opening line since the last closing line before line `k`. -/
def FirstStart (k : Nat) (record : Json.Fields) : Prop :=
  ∃ i e, key.FirstOpen nesting lines k i ∧ key.recordAt? nesting lines i = some (.opening, e) ∧
    e.record = record

/-- The lines of a key alone. -/
def own : List (Nat × String) := lines.filter fun l => (key.record? nesting l.2).isSome

variable {nesting key lines}

/-- A span is open after one line more if this line does not close it, or opens it. -/
theorem openAt_succ_iff {k i : Nat} :
    key.OpenAt nesting lines (k + 1) i ↔
      (key.OpenAt nesting lines k i ∧ ¬ key.TurnAt nesting lines .closing k) ∨
        (i = k ∧ key.TurnAt nesting lines .opening k) := by
  constructor
  · rintro ⟨hlt, hopens, hcloses⟩
    by_cases hik : i = k
    · subst hik
      exact .inr ⟨rfl, hopens⟩
    · refine .inl ⟨⟨by omega, hopens, fun m him hmk => hcloses m him (by omega)⟩, ?_⟩
      exact hcloses k (by omega) (by omega)
  · rintro (⟨⟨hlt, hopens, hcloses⟩, hk⟩ | ⟨rfl, hopens⟩)
    · refine ⟨by omega, hopens, fun m him hmk => ?_⟩
      by_cases hm : m = k
      · subst hm
        exact hk
      · exact hcloses m him (by omega)
    · exact ⟨by omega, hopens, fun m him hmk => absurd him (by omega)⟩

/-- Only one line is the first. -/
theorem FirstOpen.unique {k i i' : Nat} (h : key.FirstOpen nesting lines k i)
    (h' : key.FirstOpen nesting lines k i') : i = i' :=
  Nat.le_antisymm (h.2 i' h'.1) (h'.2 i h.1)

/-- If any line is open, one is the first. -/
theorem OpenAt.exists_first {k i : Nat} (h : key.OpenAt nesting lines k i) :
    ∃ first, key.FirstOpen nesting lines k first := by
  classical
  have hopen : ∃ m, key.OpenAt nesting lines k m := ⟨i, h⟩
  exact ⟨Nat.find hopen, Nat.find_spec hopen, fun m hm => Nat.find_min' hopen hm⟩

/-- There is a first record where a line is open. -/
theorem firstStart_exists_iff {k : Nat} :
    (∃ record, key.FirstStart nesting lines k record) ↔ ∃ i, key.OpenAt nesting lines k i := by
  constructor
  · rintro ⟨record, i, e, hfirst, -, -⟩
    exact ⟨i, hfirst.1⟩
  · rintro ⟨i, hopen⟩
    obtain ⟨first, hfirst⟩ := hopen.exists_first
    obtain ⟨e, he⟩ := hfirst.1.2.1
    exact ⟨e.record, first, e, hfirst, he, rfl⟩

/-- Only one record is the first. -/
theorem FirstStart.unique {k : Nat} {record record' : Json.Fields}
    (h : key.FirstStart nesting lines k record) (h' : key.FirstStart nesting lines k record') :
    record = record' := by
  obtain ⟨i, e, hfirst, he, rfl⟩ := h
  obtain ⟨i', e', hfirst', he', rfl⟩ := h'
  cases hfirst.unique hfirst'
  cases he.symm.trans he'
  rfl

/-- A line without a record for the key changes nothing. -/
theorem firstStart_succ_of_none {k : Nat} (h : key.recordAt? nesting lines k = none)
    (record : Json.Fields) :
    key.FirstStart nesting lines (k + 1) record ↔ key.FirstStart nesting lines k record := by
  have hopen : ∀ i, key.OpenAt nesting lines (k + 1) i ↔ key.OpenAt nesting lines k i := by
    intro i
    rw [openAt_succ_iff]
    simp [TurnAt, h]
  simp only [FirstStart, FirstOpen, hopen]

/-- Nothing is open after a closing line. -/
theorem not_openAt_succ_of_closing {k : Nat} {e : JournalEntry}
    (h : key.recordAt? nesting lines k = some (.closing, e)) (i : Nat) :
    ¬ key.OpenAt nesting lines (k + 1) i := by
  rw [openAt_succ_iff]
  rintro (⟨-, hcloses⟩ | ⟨-, e', hopens⟩)
  · exact hcloses ⟨e, h⟩
  · cases h.symm.trans hopens

/-- An opening line is the first one if and only if there was none before it. -/
theorem firstStart_succ_of_opening {k : Nat} {e : JournalEntry}
    (h : key.recordAt? nesting lines k = some (.opening, e)) (record : Json.Fields) :
    key.FirstStart nesting lines (k + 1) record ↔
      key.FirstStart nesting lines k record ∨
        ((∀ i, ¬ key.OpenAt nesting lines k i) ∧ e.record = record) := by
  have hopen : ∀ i, key.OpenAt nesting lines (k + 1) i ↔ key.OpenAt nesting lines k i ∨ i = k := by
    intro i
    rw [openAt_succ_iff]
    simp [TurnAt, h]
  constructor
  · rintro ⟨i, e', ⟨hi, hleast⟩, he', rfl⟩
    rcases (hopen i).mp hi with hold | rfl
    · exact .inl ⟨i, e', ⟨hold, fun m hm => hleast m ((hopen m).mpr (.inl hm))⟩, he', rfl⟩
    · refine .inr ⟨fun m hm => ?_, ?_⟩
      · have := hleast m ((hopen m).mpr (.inl hm))
        have := hm.1
        omega
      · cases h.symm.trans he'
        rfl
  · rintro (⟨i, e', ⟨hi, hleast⟩, he', rfl⟩ | ⟨hnone, rfl⟩)
    · refine ⟨i, e', ⟨(hopen i).mpr (.inl hi), fun m hm => ?_⟩, he', rfl⟩
      rcases (hopen m).mp hm with hold | rfl
      · exact hleast m hold
      · exact Nat.le_of_lt hi.1
    · refine ⟨k, e, ⟨(hopen k).mpr (.inr rfl), fun m hm => ?_⟩, h, rfl⟩
      rcases (hopen m).mp hm with hold | rfl
      · exact absurd hold (hnone m)
      · exact Nat.le_refl m

/-- A line with a record is a line of the log. -/
theorem TurnAt.lt_length {turn : Turn} {i : Nat} (h : key.TurnAt nesting lines turn i) :
    i < lines.length := by
  obtain ⟨e, he⟩ := h
  obtain ⟨l, hl, -⟩ := Option.bind_eq_some_iff.mp he
  exact (List.getElem?_eq_some_iff.mp hl).1

/-- No line was open when the first open line came in. -/
theorem FirstOpen.not_openAt {k i : Nat} (h : key.FirstOpen nesting lines k i) (m : Nat) :
    ¬ key.OpenAt nesting lines i m := by
  rintro ⟨hmi, hopens, hcloses⟩
  obtain ⟨⟨hik, ⟨e, he⟩, hcloses'⟩, hleast⟩ := h
  have hopen : key.OpenAt nesting lines k m := by
    refine ⟨by omega, hopens, fun p hmp hpk => ?_⟩
    rcases Nat.lt_trichotomy p i with hpi | rfl | hip
    · exact hcloses p hmp hpi
    · rintro ⟨e', he'⟩
      cases he.symm.trans he'
    · exact hcloses' p hip hpk
  have := hleast m hopen
  omega

/-- A line that opens when no other one is open is the first one as long as it is open. -/
theorem OpenAt.firstOpen {k i : Nat} (h : key.OpenAt nesting lines k i)
    (hnone : ∀ m, ¬ key.OpenAt nesting lines i m) : key.FirstOpen nesting lines k i := by
  refine ⟨h, fun m hm => ?_⟩
  by_cases hmi : m < i
  · have hik := h.1
    exact absurd ⟨hmi, hm.2.1, fun p hmp hpi => hm.2.2 p hmp (by omega)⟩ (hnone m)
  · omega

/-- A line that opens when no other one is open is still the first open line at the end, and no
closing line took it, or exactly one closing line did. -/
theorem firstOpen_or_closed {i : Nat} (h : key.TurnAt nesting lines .opening i)
    (hnone : ∀ m, ¬ key.OpenAt nesting lines i m) :
    (key.FirstOpen nesting lines lines.length i ∧
        ∀ k, key.TurnAt nesting lines .closing k → ¬ key.FirstOpen nesting lines k i) ∨
      (¬ key.FirstOpen nesting lines lines.length i ∧
        ∃! k, key.TurnAt nesting lines .closing k ∧ key.FirstOpen nesting lines k i) := by
  classical
  by_cases hclosed : ∃ k, i < k ∧ key.TurnAt nesting lines .closing k
  · right
    obtain ⟨k, ⟨hik, hk⟩, hleast⟩ : ∃ k, (i < k ∧ key.TurnAt nesting lines .closing k) ∧
        ∀ m, (i < m ∧ key.TurnAt nesting lines .closing m) → k ≤ m :=
      ⟨Nat.find hclosed, Nat.find_spec hclosed, fun m hm => Nat.find_min' hclosed hm⟩
    have hopen : key.OpenAt nesting lines k i := by
      refine ⟨hik, h, fun m him hmk hm => ?_⟩
      have := hleast m ⟨him, hm⟩
      omega
    refine ⟨fun hlast => ?_, k, ⟨hk, hopen.firstOpen hnone⟩, ?_⟩
    · exact hlast.1.2.2 k hik hk.lt_length hk
    · rintro k' ⟨hk', hfirst⟩
      have hle := hleast k' ⟨hfirst.1.1, hk'⟩
      by_cases hlt : k < k'
      · exact absurd hk (hfirst.1.2.2 k hik hlt)
      · omega
  · left
    have hopen : key.OpenAt nesting lines lines.length i :=
      ⟨h.lt_length, h, fun m him _ hm => hclosed ⟨m, him, hm⟩⟩
    exact ⟨hopen.firstOpen hnone, fun k hk hfirst => hclosed ⟨k, hfirst.1.1, hk⟩⟩

end SpanKey

namespace Journal

/-- The state after numbered lines have come in, whatever each of them brought about. -/
def feed (nesting : Nat) (clock : Clock) (lines : List (Nat × String)) : Journal :=
  lines.foldl (fun j l => (line nesting clock j l.1 l.2).journal) empty

section Feed

variable (nesting : Nat) (clock : Clock) (lines : List (Nat × String))

/-- The ids of each tracker stay distinct. -/
theorem sound_feed (c : Convention) :
    ((feed nesting clock lines).tracker c).Sound := by
  have hsound : ∀ j : Journal, (∀ c, (j.tracker c).Sound) →
      ∀ c, ((lines.foldl (fun j l => (line nesting clock j l.1 l.2).journal) j).tracker
        c).Sound := by
    induction lines with
    | nil => exact fun j hj => hj
    | cons l rest ih => exact fun j hj => ih _ (sound_line hj nesting clock l.1 l.2)
  exact hsound empty (fun c => by cases c <;> exact List.nodup_nil) c

/-- What waits under a key follows from the lines step by step. -/
theorem waiting_feed (key : SpanKey) :
    (feed nesting clock lines).waiting key =
      lines.foldl (fun w l => key.next nesting l.2 w) none := by
  have hfold : ∀ j : Journal,
      (lines.foldl (fun j l => (line nesting clock j l.1 l.2).journal) j).waiting key =
        lines.foldl (fun w l => key.next nesting l.2 w) (j.waiting key) := by
    induction lines with
    | nil => exact fun j => rfl
    | cons l rest ih =>
      intro j
      rw [List.foldl_cons, ih, List.foldl_cons, waiting_line]
  rw [feed, hfold]
  cases key with
  | mk c id => cases c <;> rfl

/-- What waits under a key is what waits after the lines of this key alone. -/
theorem waiting_feed_own (key : SpanKey) :
    (feed nesting clock (key.own nesting lines)).waiting key =
      (feed nesting clock lines).waiting key := by
  rw [waiting_feed, waiting_feed, SpanKey.own, List.foldl_filter]
  congr 1
  funext w l
  split
  · rfl
  · rename_i hnone
    rw [SpanKey.next, Option.not_isSome_iff_eq_none.mp hnone]

/-- One line more has its own effect on what waits under a key. -/
theorem waiting_feed_take_succ (key : SpanKey) (k : Nat) :
    (feed nesting clock (lines.take (k + 1))).waiting key =
      match key.recordAt? nesting lines k with
      | none => (feed nesting clock (lines.take k)).waiting key
      | some (.opening, e) => some (((feed nesting clock (lines.take k)).waiting key).getD e.record)
      | some (.closing, _) => none := by
  rw [List.take_add_one, waiting_feed, List.foldl_append, ← waiting_feed nesting clock,
    SpanKey.recordAt?]
  cases lines[k]? with
  | none => rfl
  | some l => rfl

/-- After every prefix of a log, what waits under a key is the first opening record since the
last closing line. -/
theorem waiting_feed_take_iff (key : SpanKey) (k : Nat) (record : Json.Fields) :
    (feed nesting clock (lines.take k)).waiting key = some record ↔
      key.FirstStart nesting lines k record := by
  induction k generalizing record with
  | zero =>
    rw [List.take_zero, waiting_feed]
    constructor
    · intro h
      cases h
    · rintro ⟨i, e, ⟨⟨hlt, -⟩, -⟩, -⟩
      exact absurd hlt (Nat.not_lt_zero i)
  | succ k ih =>
    rw [waiting_feed_take_succ]
    split
    · rename_i hnone
      rw [ih, SpanKey.firstStart_succ_of_none hnone]
    · rename_i e hopening
      rw [SpanKey.firstStart_succ_of_opening hopening, ← ih]
      cases hwaiting : (feed nesting clock (lines.take k)).waiting key with
      | none =>
        have hnone : ∀ i, ¬ key.OpenAt nesting lines k i := by
          intro i hi
          obtain ⟨start, hstart⟩ := SpanKey.firstStart_exists_iff.mpr ⟨i, hi⟩
          rw [← ih, hwaiting] at hstart
          cases hstart
        simp [hnone]
      | some start =>
        obtain ⟨i, hi⟩ := SpanKey.firstStart_exists_iff.mp ⟨start, (ih start).mp hwaiting⟩
        have hsome : ¬ ∀ i, ¬ key.OpenAt nesting lines k i := fun hnone => hnone i hi
        simp [hsome]
    · rename_i e hclosing
      constructor
      · intro h
        cases h
      · rintro ⟨i, -, ⟨hi, -⟩, -⟩
        exact absurd hi (SpanKey.not_openAt_succ_of_closing hclosing i)

/-- After every prefix of a log, nothing waits under a key if no line of it is open. -/
theorem waiting_feed_take_eq_none_iff (key : SpanKey) (k : Nat) :
    (feed nesting clock (lines.take k)).waiting key = none ↔
      ∀ i, ¬ key.OpenAt nesting lines k i := by
  rw [← not_exists, ← SpanKey.firstStart_exists_iff, Option.eq_none_iff_forall_ne_some, not_exists]
  exact forall_congr' fun record =>
    not_congr (waiting_feed_take_iff nesting clock lines key k record)

end Feed

/-- A closing record gets the record that waits under its key. -/
theorem step_closing_eq_closed_iff {nesting : Nat} {j : Journal} {key : SpanKey} {s : String}
    {e : JournalEntry} (h : key.record? nesting s = some (.closing, e)) (start : Json.Fields) :
    ((j.tracker key.convention).step e.id e.record .closing).2 = .closed start ↔
      j.waiting key = some start := by
  unfold waiting Tracker.step
  rw [(SpanKey.record?_eq_some_iff.mp h).2.1]
  cases (j.tracker key.convention).pending.lookup key.id with
  | none => simp
  | some found => simp

/-- The pairs of a log in closed form. After every prefix, the trackers hold the first opening
record of each key since its last closing line. A closing line completes the span of this record,
and is reported if there is none. An opening record that was taken in is closed by exactly one
line or still waits. A line of a key brings about what it would after the lines of this key
alone, and a line of no key what it would in an empty log. -/
theorem pairs_by_key (nesting : Nat) (clock : Clock) (lines : List (Nat × String)) :
    (∀ (key : SpanKey) (k : Nat),
      let before := feed nesting clock (lines.take k)
      (before.tracker key.convention).Sound ∧
        ∀ record, before.waiting key = some record ↔ key.FirstStart nesting lines k record) ∧
    (∀ (key : SpanKey) (k lineNumber : Nat) (s : String) (e : JournalEntry),
      lines[k]? = some (lineNumber, s) → key.record? nesting s = some (.closing, e) →
      let before := feed nesting clock (lines.take k)
      let step := ((before.tracker key.convention).step e.id e.record .closing).2
      ((∃ start, step = .closed start) ↔ ∃ i, key.OpenAt nesting lines k i) ∧
      (∀ start, step = .closed start ↔ key.FirstStart nesting lines k start) ∧
      (∀ start, key.FirstStart nesting lines k start →
        line nesting clock before lineNumber s = (before.release key).settle lineNumber s
          (span clock key.convention.spanKind e.thread start e.record)) ∧
      ((∀ i, ¬ key.OpenAt nesting lines k i) →
        line nesting clock before lineNumber s =
          ⟨.ok none, before, [.spanOutOfTurn (key.convention.keyword .opening)
            (key.convention.keyword .closing) e.record]⟩)) ∧
    (∀ (key : SpanKey) (i : Nat), key.TurnAt nesting lines .opening i →
      let before := feed nesting clock (lines.take i)
      (before.waiting key = none →
        (key.FirstOpen nesting lines lines.length i ∧
            ∀ k, key.TurnAt nesting lines .closing k → ¬ key.FirstOpen nesting lines k i) ∨
          (¬ key.FirstOpen nesting lines lines.length i ∧
            ∃! k, key.TurnAt nesting lines .closing k ∧ key.FirstOpen nesting lines k i)) ∧
      (before.waiting key ≠ none → ∀ k, ¬ key.FirstOpen nesting lines k i)) ∧
    (∀ (key : SpanKey) (k lineNumber : Nat) (s : String),
      lines[k]? = some (lineNumber, s) → (key.record? nesting s).isSome →
      let before := feed nesting clock (lines.take k)
      let alone := feed nesting clock (key.own nesting (lines.take k))
      Alike before (line nesting clock before lineNumber s) alone
        (line nesting clock alone lineNumber s)) ∧
    (∀ (k lineNumber : Nat) (s : String),
      lines[k]? = some (lineNumber, s) → (∀ key : SpanKey, key.record? nesting s = none) →
      let before := feed nesting clock (lines.take k)
      Alike before (line nesting clock before lineNumber s) empty
          (line nesting clock empty lineNumber s) ∧
        ∀ c, (line nesting clock before lineNumber s).journal.tracker c = before.tracker c) := by
  refine ⟨fun key k =>
    ⟨sound_feed nesting clock _ _, waiting_feed_take_iff nesting clock lines key k⟩, ?_, ?_, ?_, ?_⟩
  · intro key k lineNumber s e _ hrecord before step
    have hclosed (start : Json.Fields) :
        step = .closed start ↔ key.FirstStart nesting lines k start := by
      rw [step_closing_eq_closed_iff hrecord, waiting_feed_take_iff]
    refine ⟨?_, hclosed, fun start hstart => ?_, fun hnone => ?_⟩
    · rw [← SpanKey.firstStart_exists_iff]
      exact exists_congr hclosed
    · exact line_closing hrecord
        ((waiting_feed_take_iff nesting clock lines key k start).mpr hstart) clock lineNumber
    · exact line_closing_of_none hrecord
        ((waiting_feed_take_eq_none_iff nesting clock lines key k).mpr hnone) clock lineNumber
  · intro key i hopening before
    rw [ne_eq, waiting_feed_take_eq_none_iff]
    exact ⟨SpanKey.firstOpen_or_closed hopening,
      fun hopen k hfirst => hopen hfirst.not_openAt⟩
  · intro key k lineNumber s _ hrecord before alone
    exact alike_line hrecord (waiting_feed_own nesting clock (lines.take k) key).symm clock
      lineNumber
  · intro k lineNumber s _ hforeign before
    have hstateless := stateless_line hforeign clock lineNumber
    exact ⟨hstateless.alike _ _, hstateless.tracker _⟩

/-- A log with two opening records before the closing one. -/
def doubleOpening : List (Nat × String) :=
  [(1, "7 \x7b\"timestamp\":5,\"fields\":\x7b\"message\":\"new\"\x7d\x7d"),
   (2, "7 \x7b\"timestamp\":6,\"fields\":\x7b\"message\":\"new\"\x7d\x7d"),
   (3, "7 \x7b\"timestamp\":9,\"fields\":\x7b\"message\":\"close\"\x7d\x7d")]

/-- A second opening record does not take the place of the first. -/
theorem pairs_by_key_of_double_opening :
    ∃ e, SpanKey.recordAt? 2 ⟨.lifetime, 7⟩ doubleOpening 0 = some (.opening, e) ∧
      (feed 2 .plain (doubleOpening.take 2)).waiting ⟨.lifetime, 7⟩ = some e.record := by
  have hturns : (SpanKey.recordAt? 2 ⟨.lifetime, 7⟩ doubleOpening 0).map (·.1) = some .opening ∧
      (SpanKey.recordAt? 2 ⟨.lifetime, 7⟩ doubleOpening 1).map (·.1) = some .opening := by
    decide +kernel
  obtain ⟨⟨turn, e⟩, he, rfl⟩ := Option.map_eq_some_iff.mp hturns.1
  refine ⟨e, he, (((pairs_by_key 2 .plain doubleOpening).1 ⟨.lifetime, 7⟩ 2).2 e.record).mpr ?_⟩
  refine ⟨0, e, ⟨⟨by omega, ⟨e, he⟩, fun m hm hm' hclosing => ?_⟩, fun m _ => Nat.zero_le m⟩,
    he, rfl⟩
  obtain rfl : m = 1 := by omega
  obtain ⟨e', he'⟩ := hclosing
  rw [he'] at hturns
  cases hturns.2

end Journal

end TraceProfile
