import Mathlib.Data.List.Induction
import TraceProfile.Proofs.Fault
import TraceProfile.Proofs.Marker.Routing
import TraceProfile.Proofs.Number.Conversion

/-!
# Lines that are lost

A line of a span log that cannot be made into a marker costs itself: it is dropped with one report,
and the reading goes on with the next line. Only what is beyond all bounds does more harm. An
infinite time or duration, an integer with too many digits, and an object nested too deeply end the
reading of the whole log.
-/

namespace TraceProfile

/-- A fault that costs a line, or an infinity in the place of an integer. -/
def Fault.IsBearable (f : Fault) : Prop :=
  Journal.costsLine f = true ∨ f = Failure.infiniteInteger

/-- A failure of a document that is too large: an integer in it has too many digits, or a list or
object in it stands inside too many others. -/
def Failure.IsTooLarge (f : Failure) : Prop :=
  (∃ digits, f = .integerLength digits) ∨ ∃ container, f = .nesting container

variable {nesting : Nat}

namespace JournalLine

/-- A text without its line end, unless that is blank. -/
def contentOf (s : String) : Option String :=
  if Text.isBlankText (Text.stripLineEnd s) then none else some (Text.stripLineEnd s)

/-- The text of a line without its end; none if the line is blank or is no text. -/
def content? : JournalLine → Option String
  | .text s => contentOf s
  | .bytes bs =>
    match Text.decodeBytes bs with
    | .ok s => contentOf s
    | .error _ => none

end JournalLine

namespace Journal

/-- The fields in which a closing record keeps its durations. -/
def measured (record : Json.Fields) : Json.Fields :=
  ((record.lookup "fields").bind Json.fields?).getD []

/-- The time of a record is an infinity. -/
def HasInfiniteTime (record : Json.Fields) : Prop :=
  ∃ negative, record.lookup "timestamp" = some (.real (.infinite negative))

/-- A duration of a record is an infinity. -/
def HasInfiniteDuration (record : Json.Fields) : Prop :=
  ∃ name ∈ ["time.busy", "time.idle"],
    Duration.ofField (measured record) name = .error Failure.infiniteInteger

/-- A fault costs a line if it is one of a wrong value. -/
theorem costsLine_iff {f : Fault} : costsLine f = true ↔ f.IsBadValue := by
  rw [costsLine, Bool.or_eq_true, beq_iff_eq, beq_iff_eq, Fault.IsBadValue]

/-- A time that is no integer costs its line, unless it is an infinity. -/
theorem costsLine_or_infinite_of_toInteger {value : Json} {f : Fault}
    (h : value.toInteger = .error f) :
    costsLine f ∨
      (f = Failure.infiniteInteger ∧ ∃ negative, value = .real (.infinite negative)) :=
  (Json.isBadValue_or_isInfinite h).imp_left costsLine_iff.mpr

/-- A record without a time costs its line, unless its time is an infinity. -/
theorem costsLine_or_infinite_of_tickOf {record : Json.Fields} {f : Fault}
    (h : tickOf record = .error f) :
    costsLine f ∨ (f = Failure.infiniteInteger ∧ HasInfiniteTime record) := by
  unfold tickOf at h
  split at h
  · cases h
  · rename_i value hvalue
    refine (costsLine_or_infinite_of_toInteger h).imp_right fun ⟨hf, negative, hinfinite⟩ => ?_
    exact ⟨hf, negative, hinfinite ▸ hvalue⟩

/-- A duration that cannot be read costs its line, unless it is an infinity. -/
theorem isBearable_of_duration {fields : Json.Fields} {name : String} {f : Fault}
    (h : Duration.ofField fields name = .error f) : f.IsBearable := by
  have hdecimal {text : String} (h : decimalOf text = .error f) : f.IsBearable := by
    unfold decimalOf at h
    split at h <;> cases h
    exact .inl rfl
  have hround {x : Binary64} (h : boundedInteger x.round = .error f) : f.IsBearable := by
    cases x <;> cases h
    · exact .inr rfl
    · exact .inl rfl
  have hread {s : String} (h : Duration.read s = .error f) : f.IsBearable := by
    unfold Duration.read at h
    dsimp only at h
    split at h
    · cases h
      exact .inl rfl
    · rcases bind_eq_error_iff.mp h with hnumber | ⟨x, -, hinteger⟩
      · exact hdecimal hnumber
      · exact hround hinteger
  unfold Duration.ofField at h
  split at h
  · cases h
  · rename_i s hs
    cases hduration : Duration.read s <;> rw [hduration] at h <;> cases h
    exact hread hduration
  · cases h
    exact .inl rfl

/-- An event that cannot be made costs its line, unless its time is an infinity. -/
theorem costsLine_or_infinite_of_event {clock : Clock} {record : Json.Fields} {f : Fault}
    (h : event clock record = .error f) :
    costsLine f ∨ (f = Failure.infiniteInteger ∧ HasInfiniteTime record) := by
  unfold event at h
  dsimp only at h
  split at h
  · cases h
    exact .inl rfl
  · rcases bind_eq_error_iff.mp h with htick | ⟨tick, -, hmarker⟩
    · exact costsLine_or_infinite_of_tickOf htick
    · cases hmarker

/-- A span that cannot be made costs its line, unless a time or duration is an infinity. -/
theorem costsLine_or_infinite_of_span {clock : Clock} {kind : SpanKind} {thread : Option Int}
    {opening closing : Json.Fields} {f : Fault}
    (h : span clock kind thread opening closing = .error f) :
    costsLine f ∨ (f = Failure.infiniteInteger ∧
      (HasInfiniteTime opening ∨ HasInfiniteTime closing ∨ HasInfiniteDuration closing)) := by
  unfold span at h
  rcases bind_eq_error_iff.mp h with hstart | ⟨start, -, h⟩
  · exact (costsLine_or_infinite_of_tickOf hstart).imp_right fun ⟨hf, ht⟩ => ⟨hf, .inl ht⟩
  rcases bind_eq_error_iff.mp h with hstop | ⟨stop, -, h⟩
  · exact (costsLine_or_infinite_of_tickOf hstop).imp_right fun ⟨hf, ht⟩ => ⟨hf, .inr (.inl ht)⟩
  dsimp only at h
  split at h
  · cases h
    exact .inl rfl
  · have hduration {name : String} (hname : name ∈ ["time.busy", "time.idle"])
        (h : Duration.ofField (measured closing) name = .error f) :
        costsLine f ∨ (f = Failure.infiniteInteger ∧
          (HasInfiniteTime opening ∨ HasInfiniteTime closing ∨ HasInfiniteDuration closing)) :=
      (isBearable_of_duration h).imp_right fun hf => ⟨hf, .inr (.inr ⟨name, hname, hf ▸ h⟩)⟩
    rcases bind_eq_error_iff.mp h with hbusy | ⟨busy, -, h⟩
    · exact hduration (by decide) hbusy
    rcases bind_eq_error_iff.mp h with hidle | ⟨idle, -, h⟩
    · exact hduration (by decide) hidle
    · cases h

/-- A line cannot be made into a marker, for the given reason. What waits for its closing record
decides on the line of a span. -/
inductive Flawed (nesting : Nat) (clock : Clock) (j : Journal) : JournalLine → DropReason → Prop
  /-- The bytes are no text. -/
  | undecodable {bs flaw} (hbytes : Text.decodeBytes bs = .error flaw) :
      Flawed nesting clock j (.bytes bs) (.invalidUtf8 flaw)
  /-- The text is not an id and an object. -/
  | unreadable {source s reason} (hcontent : source.content? = some s)
      (hread : JournalEntry.read nesting s = .error (.dropped reason)) :
      Flawed nesting clock j source reason
  /-- The record makes no event. -/
  | event {source s e f} (hcontent : source.content? = some s)
      (hread : JournalEntry.read nesting s = .ok e) (hid : e.id = 0)
      (hevent : event clock e.record = .error f) : Flawed nesting clock j source (.fault f)
  /-- The record closes a span, but the two records of the span do not make one. -/
  | span {source s key e start f} (hcontent : source.content? = some s)
      (hrecord : SpanKey.record? nesting key s = some (.closing, e))
      (hwaiting : j.waiting key = some start)
      (hspan : span clock key.convention.spanKind e.thread start e.record = .error f) :
      Flawed nesting clock j source (.fault f)

/-- A line ends the reading: its document is too large, or it is flawed by an infinity. -/
def Fatal (nesting : Nat) (clock : Clock) (j : Journal) (source : JournalLine) : Prop :=
  (∃ s f, source.content? = some s ∧ JournalEntry.read nesting s = .error (.fatal f)) ∨
    Flawed nesting clock j source (.fault Failure.infiniteInteger)

/-- What is due to a line: a flawed one is dropped, with one report that names the line and the
flaw, and no other line is. -/
structure Settles (nesting : Nat) (clock : Clock) (j : Journal) (lineNumber : Nat)
    (source : JournalLine) : Prop where
  /-- The line has its result, if only that it makes no marker. -/
  result : ∃ marker?, (logLine nesting clock j lineNumber source).result = .ok marker?
  /-- A flawed line is dropped. -/
  flawed : ∀ reason, Flawed nesting clock j source reason →
    (logLine nesting clock j lineNumber source).result = .ok none ∧
      (logLine nesting clock j lineNumber source).journal.dropped = j.dropped + 1 ∧
      ∃ shown, (logLine nesting clock j lineNumber source).log =
        [.droppedLine lineNumber reason shown]
  /-- Any other line is not dropped. -/
  flawless : (∀ reason, ¬ Flawed nesting clock j source reason) →
    (logLine nesting clock j lineNumber source).journal.dropped = j.dropped ∧
      ∀ n reason shown,
        .droppedLine n reason shown ∉ (logLine nesting clock j lineNumber source).log

section Lines

variable {clock : Clock} {j : Journal} {lineNumber : Nat} {source : JournalLine} {s : String}

/-- A line of text does what its content does. -/
theorem logLine_text (s : String) :
    logLine nesting clock j lineNumber (.text s) =
      match JournalLine.contentOf s with
      | none => ⟨.ok none, j, []⟩
      | some s => line nesting clock j lineNumber s := by
  rw [JournalLine.contentOf, logLine]
  dsimp only
  split <;> rfl

/-- A line of bytes does what its text does, or is dropped if it is no text. -/
theorem logLine_bytes (bs : List UInt8) :
    logLine nesting clock j lineNumber (.bytes bs) =
      match Text.decodeBytes bs with
      | .ok s => logLine nesting clock j lineNumber (.text s)
      | .error flaw => j.drop lineNumber (.invalidUtf8 flaw) (Text.quoteBytes bs) := by
  rw [logLine]
  rfl

/-- A line does what its content does. -/
theorem logLine_of_content? (h : source.content? = some s) :
    logLine nesting clock j lineNumber source = line nesting clock j lineNumber s := by
  cases source with
  | text s' =>
    rw [JournalLine.content?] at h
    rw [logLine_text, h]
  | bytes bs =>
    rw [JournalLine.content?] at h
    rw [logLine_bytes]
    split at h
    · rw [logLine_text, h]
    · cases h

/-- A line without content is blank, or its bytes are no text. -/
theorem logLine_of_content?_eq_none (h : source.content? = none) (nesting : Nat) (clock : Clock)
    (j : Journal) (lineNumber : Nat) :
    logLine nesting clock j lineNumber source = ⟨.ok none, j, []⟩ ∨
      ∃ bs flaw, source = .bytes bs ∧ Text.decodeBytes bs = .error flaw ∧
        logLine nesting clock j lineNumber source = j.drop lineNumber (.invalidUtf8 flaw)
          (Text.quoteBytes bs) := by
  cases source with
  | text s' =>
    rw [JournalLine.content?] at h
    rw [logLine_text, h]
    exact .inl rfl
  | bytes bs =>
    rw [JournalLine.content?] at h
    rw [logLine_bytes]
    split at h
    · rw [logLine_text, h]
      exact .inl rfl
    · rename_i flaw hbytes
      exact .inr ⟨bs, flaw, rfl, hbytes, rfl⟩

/-- A marker whose fault costs its line is lost with it. -/
theorem settle_of_costsLine {f : Fault} (h : costsLine f = true) :
    j.settle lineNumber s (.error f) = j.drop lineNumber (.fault f) s := by
  rw [settle, if_pos h]

/-- What a line with content does. -/
theorem line_cases (nesting : Nat) (clock : Clock) (j : Journal) (lineNumber : Nat) (s : String) :
    (∃ reason, JournalEntry.read nesting s = .error (.dropped reason) ∧
      line nesting clock j lineNumber s = j.drop lineNumber reason s) ∨
    (∃ f, JournalEntry.read nesting s = .error (.fatal f) ∧
      line nesting clock j lineNumber s = ⟨.error f, j, []⟩) ∨
    (∃ e, JournalEntry.read nesting s = .ok e ∧ e.id = 0 ∧
      line nesting clock j lineNumber s = j.settle lineNumber s (event clock e.record)) ∨
    (∃ key e start, SpanKey.record? nesting key s = some (.closing, e) ∧
      j.waiting key = some start ∧
      line nesting clock j lineNumber s = (j.release key).settle lineNumber s
        (span clock key.convention.spanKind e.thread start e.record)) ∨
    ∃ j' log, line nesting clock j lineNumber s = ⟨.ok none, j', log⟩ ∧ j'.dropped = j.dropped ∧
      ∀ n reason shown, .droppedLine n reason shown ∉ log := by
  have houtOfTurn (expected got : String) (record : Json.Fields) (n : Nat) (reason : DropReason)
      (shown : String) :
      .droppedLine n reason shown ∉ [LogRecord.spanOutOfTurn expected got record] := by simp
  cases hread : JournalEntry.read nesting s with
  | error defect =>
    cases defect with
    | dropped reason => exact .inl ⟨reason, rfl, by rw [line, hread]⟩
    | fatal f => exact .inr (.inl ⟨f, rfl, by rw [line, hread]⟩)
  | ok e =>
    refine .inr (.inr ?_)
    by_cases hid : e.id = 0
    · exact .inl ⟨e, rfl, hid, by simp only [line, hread, entry, if_pos hid]⟩
    · refine .inr ?_
      cases hrole : e.role? with
      | none =>
        exact .inr ⟨j, [], by simp only [line, hread, entry, if_neg hid, hrole], rfl, by simp⟩
      | some role =>
        obtain ⟨c, turn⟩ := role
        have hrecord : SpanKey.record? nesting ⟨c, e.id⟩ s = some (turn, e) :=
          SpanKey.record?_eq_some_iff.mpr ⟨hread, rfl, hrole⟩
        cases hwaiting : j.waiting ⟨c, e.id⟩ with
        | none =>
          cases turn with
          | opening =>
            exact .inr ⟨_, _, line_opening hrecord hwaiting clock lineNumber,
              dropped_setTracker _ _ _, by simp⟩
          | closing =>
            exact .inr ⟨_, _, line_closing_of_none hrecord hwaiting clock lineNumber, rfl,
              houtOfTurn _ _ _⟩
        | some start =>
          cases turn with
          | opening =>
            exact .inr ⟨_, _, line_opening_of_some hrecord hwaiting clock lineNumber, rfl,
              houtOfTurn _ _ _⟩
          | closing =>
            exact .inl ⟨_, e, start, hrecord, hwaiting,
              line_closing hrecord hwaiting clock lineNumber⟩

/-- A fault in making the marker of a line costs the line, unless it ends the reading. -/
theorem costsLine_of_not_fatal {f : Fault} (h : Flawed nesting clock j source (.fault f))
    (hbearable : costsLine f ∨ f = Failure.infiniteInteger)
    (hfatal : ¬ Fatal nesting clock j source) : costsLine f = true := by
  rcases hbearable with hcosts | rfl
  · exact hcosts
  · exact absurd (.inr h) hfatal

/-- A flawed line is dropped. -/
theorem logLine_of_flawed {reason : DropReason} (h : Flawed nesting clock j source reason)
    (hfatal : ¬ Fatal nesting clock j source) (lineNumber : Nat) :
    ∃ (before : Journal) (shown : String), before.dropped = j.dropped ∧
      logLine nesting clock j lineNumber source = before.drop lineNumber reason shown := by
  cases h with
  | undecodable hbytes => exact ⟨j, _, rfl, by rw [logLine_bytes, hbytes]⟩
  | @unreadable source s reason hcontent hread =>
    exact ⟨j, s, rfl, by rw [logLine_of_content? hcontent, line, hread]⟩
  | @event source s e f hcontent hread hid hevent =>
    have hcosts := costsLine_of_not_fatal (.event hcontent hread hid hevent)
      ((costsLine_or_infinite_of_event hevent).imp_right And.left) hfatal
    refine ⟨j, s, rfl, ?_⟩
    rw [logLine_of_content? hcontent, line, hread]
    dsimp only
    rw [entry, if_pos hid, hevent, settle_of_costsLine hcosts]
  | @span source s key e start f hcontent hrecord hwaiting hspan =>
    have hcosts := costsLine_of_not_fatal (.span hcontent hrecord hwaiting hspan)
      ((costsLine_or_infinite_of_span hspan).imp_right And.left) hfatal
    refine ⟨j.release key, s, dropped_setTracker _ _ _, ?_⟩
    rw [logLine_of_content? hcontent, line_closing hrecord hwaiting, hspan,
      settle_of_costsLine hcosts]

/-- A line without a flaw has its result and is not dropped. -/
theorem logLine_of_flawless (h : ∀ reason, ¬ Flawed nesting clock j source reason)
    (hfatal : ¬ Fatal nesting clock j source) (lineNumber : Nat) :
    ∃ marker? j' log, logLine nesting clock j lineNumber source = ⟨.ok marker?, j', log⟩ ∧
      j'.dropped = j.dropped ∧ ∀ n reason shown, .droppedLine n reason shown ∉ log := by
  cases hcontent : source.content? with
  | none =>
    rcases logLine_of_content?_eq_none hcontent nesting clock j lineNumber with
      hblank | ⟨bs, flaw, rfl, hbytes, -⟩
    · exact ⟨none, j, [], hblank, rfl, by simp⟩
    · exact absurd (.undecodable hbytes) (h _)
  | some s =>
    rw [logLine_of_content? hcontent]
    rcases line_cases nesting clock j lineNumber s with ⟨reason, hread, -⟩ | ⟨f, hread, -⟩ |
      ⟨e, hread, hid, hline⟩ | ⟨key, e, start, hrecord, hwaiting, hline⟩ |
      ⟨j', log, hline, hdropped, hlog⟩
    · exact absurd (.unreadable hcontent hread) (h _)
    · exact absurd (.inl ⟨s, f, hcontent, hread⟩) hfatal
    · cases hevent : event clock e.record with
      | error f => exact absurd (.event hcontent hread hid hevent) (h _)
      | ok m => exact ⟨some m, j, [], by rw [hline, hevent]; rfl, rfl, by simp⟩
    · cases hspan : span clock key.convention.spanKind e.thread start e.record with
      | error f => exact absurd (.span hcontent hrecord hwaiting hspan) (h _)
      | ok m =>
        exact ⟨some m, j.release key, [], by rw [hline, hspan]; rfl, dropped_setTracker _ _ _,
          by simp⟩
    · exact ⟨none, j', log, hline, hdropped, hlog⟩

/-- A line that does not end the reading gets what is due to it. -/
theorem settles_of_not_fatal (h : ¬ Fatal nesting clock j source) (lineNumber : Nat) :
    Settles nesting clock j lineNumber source := by
  have hflawed {reason : DropReason} (hflawed : Flawed nesting clock j source reason) :
      (logLine nesting clock j lineNumber source).result = .ok none ∧
        (logLine nesting clock j lineNumber source).journal.dropped = j.dropped + 1 ∧
        ∃ shown, (logLine nesting clock j lineNumber source).log =
          [.droppedLine lineNumber reason shown] := by
    obtain ⟨before, shown, hdropped, hline⟩ := logLine_of_flawed hflawed h lineNumber
    rw [hline, ← hdropped]
    exact ⟨rfl, rfl, shown, rfl⟩
  by_cases hany : ∃ reason, Flawed nesting clock j source reason
  · obtain ⟨reason, hreason⟩ := hany
    exact ⟨⟨none, (hflawed hreason).1⟩, fun _ => hflawed, fun hnone => absurd hreason (hnone _)⟩
  · have hnone := not_exists.mp hany
    obtain ⟨marker?, j', log, hline, hdropped, hlog⟩ := logLine_of_flawless hnone h lineNumber
    refine ⟨⟨marker?, ?_⟩, fun reason hreason => absurd hreason (hnone reason), fun _ => ?_⟩
    · rw [hline]
    · rw [hline]
      exact ⟨hdropped, hlog⟩

/-- Only a document that is too large keeps a line from being taken apart or dropped. -/
theorem isTooLarge_of_fatal {f : Failure} (h : JournalEntry.read nesting s = .error (.fatal f)) :
    f.IsTooLarge := by
  unfold JournalEntry.read at h
  split at h
  · cases h
  · split at h
    · cases h
    · split at h
      · cases h
      · split at h
        · cases h
        · cases h
          exact .inl ⟨_, rfl⟩
        · cases h
          exact .inr ⟨_, rfl⟩
        · split at h <;> cases h

/-- The reason for which a line is dropped before it is taken apart is no fault. -/
theorem ne_fault_of_dropped {reason : DropReason}
    (h : JournalEntry.read nesting s = .error (.dropped reason)) (f : Fault) :
    reason ≠ .fault f := by
  rintro rfl
  unfold JournalEntry.read at h
  split at h
  · cases h
  · split at h
    · cases h
    · split at h
      · cases h
      · split at h
        · cases h
        · cases h
        · cases h
        · split at h <;> cases h

/-- A fatal line ends the reading, by an infinity or by a document that is too large. -/
theorem logLine_of_fatal (h : Fatal nesting clock j source) (lineNumber : Nat) :
    ∃ f : Failure, (logLine nesting clock j lineNumber source).result = .error f ∧
      (f = .infiniteInteger ∨ f.IsTooLarge) := by
  rcases h with ⟨s, f, hcontent, hread⟩ | hflawed
  · refine ⟨f, ?_, .inr (isTooLarge_of_fatal hread)⟩
    rw [logLine_of_content? hcontent, line, hread]
  · refine ⟨.infiniteInteger, ?_, .inl rfl⟩
    have hsettle (before : Journal) (s : String) :
        (before.settle lineNumber s (.error Failure.infiniteInteger)).result =
          .error Failure.infiniteInteger := rfl
    cases hflawed with
    | unreadable hcontent hread => exact absurd rfl (ne_fault_of_dropped hread _)
    | @event source s e f hcontent hread hid hevent =>
      rw [logLine_of_content? hcontent, line, hread]
      dsimp only
      rw [entry, if_pos hid, hevent, hsettle]
    | @span source s key e start f hcontent hrecord hwaiting hspan =>
      rw [logLine_of_content? hcontent, line_closing hrecord hwaiting, hspan, hsettle]

end Lines

end Journal

/-- A line with nothing that could end the reading: its document is not too large, its time is no
infinity, and for a span record no duration is. -/
def JournalLine.Bounded (nesting : Nat) (source : JournalLine) : Prop :=
  ∀ s, source.content? = some s →
    (∀ f, JournalEntry.read nesting s ≠ .error (.fatal f)) ∧
      ∀ e, JournalEntry.read nesting s = .ok e →
        ¬ Journal.HasInfiniteTime e.record ∧
          (e.id ≠ 0 → ¬ Journal.HasInfiniteDuration e.record)

namespace Journal

/-- No record that waits has an infinite time. -/
def Bounded (j : Journal) : Prop :=
  ∀ key record, j.waiting key = some record → ¬ HasInfiniteTime record

section Bounded

variable {j : Journal} {source : JournalLine}

/-- A line with nothing that could end the reading is not fatal. -/
theorem not_fatal_of_bounded (hj : j.Bounded) (hsource : source.Bounded nesting) (clock : Clock) :
    ¬ Fatal nesting clock j source := by
  have hcosts : costsLine (Failure.infiniteInteger : Fault) ≠ true := by decide
  rintro (⟨s, f, hcontent, hread⟩ | hflawed)
  · exact (hsource s hcontent).1 f hread
  · cases hflawed with
    | unreadable hcontent hread => exact ne_fault_of_dropped hread _ rfl
    | event hcontent hread hid hevent =>
      rcases costsLine_or_infinite_of_event hevent with hbad | ⟨-, htime⟩
      · exact hcosts hbad
      · exact ((hsource _ hcontent).2 _ hread).1 htime
    | span hcontent hrecord hwaiting hspan =>
      obtain ⟨hread, -, hrole⟩ := SpanKey.record?_eq_some_iff.mp hrecord
      have hid := (JournalEntry.role?_eq_some_iff.mp hrole).1
      obtain ⟨htime, hduration⟩ := (hsource _ hcontent).2 _ hread
      rcases costsLine_or_infinite_of_span hspan with hbad | ⟨-, hstart | htime' | hduration'⟩
      · exact hcosts hbad
      · exact hj _ _ hwaiting hstart
      · exact htime htime'
      · exact hduration hid hduration'

/-- After such a line no record that waits has an infinite time. -/
theorem Bounded.logLine (hj : j.Bounded) (hsource : source.Bounded nesting) (clock : Clock)
    (lineNumber : Nat) : (logLine nesting clock j lineNumber source).journal.Bounded := by
  cases hcontent : source.content? with
  | none =>
    rcases logLine_of_content?_eq_none hcontent nesting clock j lineNumber with
      hline | ⟨_, _, -, -, hline⟩
    · rw [hline]
      exact hj
    · rw [hline]
      exact fun key record hrecord =>
        hj key record (by cases key with | mk c id => cases c <;> exact hrecord)
  | some s =>
    rw [logLine_of_content? hcontent]
    intro key record hwaiting
    rw [waiting_line, SpanKey.next] at hwaiting
    split at hwaiting
    · exact hj key record hwaiting
    · rename_i e hrecord
      cases hold : j.waiting key with
      | some start =>
        rw [hold] at hwaiting
        cases hwaiting
        exact hj key _ hold
      | none =>
        rw [hold] at hwaiting
        cases hwaiting
        exact ((hsource s hcontent).2 e (SpanKey.record?_eq_some_iff.mp hrecord).1).1
    · cases hwaiting

end Bounded

section Runs

variable {clock : Clock} {j : Journal} {lineNumber : Nat} {first markers : List Marker}
  {before rest lines : List JournalLine} {source : JournalLine}

/-- A reading that ends well has got a result from its first line and goes on from there. -/
theorem linesFrom_cons_eq_ok_iff :
    (linesFrom nesting clock j lineNumber (source :: rest)).result = .ok markers ↔
      ∃ own others, (logLine nesting clock j lineNumber source).result = .ok own ∧
        (linesFrom nesting clock (logLine nesting clock j lineNumber source).journal
          (lineNumber + 1) rest).result = .ok others ∧ markers = own.toList ++ others := by
  rw [linesFrom]
  cases hown : (logLine nesting clock j lineNumber source).result with
  | error f => simp
  | ok own =>
    cases hothers : (linesFrom nesting clock (logLine nesting clock j lineNumber source).journal
      (lineNumber + 1) rest).result with
    | error f => simp [hothers, Except.map]
    | ok others => simp [hothers, Except.map, eq_comm]

/-- A reading that gets a result from its first line goes on from there. -/
theorem journal_linesFrom_cons {own : Option Marker}
    (h : (logLine nesting clock j lineNumber source).result = .ok own) :
    (linesFrom nesting clock j lineNumber (source :: rest)).journal =
      (linesFrom nesting clock (logLine nesting clock j lineNumber source).journal (lineNumber + 1)
        rest).journal := by
  rw [linesFrom, h]

/-- A reading that ends well is made up of a first part, the line after it, and the rest. -/
theorem linesFrom_append_cons_eq_ok_iff :
    (linesFrom nesting clock j lineNumber (before ++ source :: rest)).result = .ok markers ↔
      ∃ first own others, (linesFrom nesting clock j lineNumber before).result = .ok first ∧
        let after := logLine nesting clock (linesFrom nesting clock j lineNumber before).journal
          (lineNumber + before.length) source
        after.result = .ok own ∧
          (linesFrom nesting clock after.journal (lineNumber + before.length + 1) rest).result =
            .ok others ∧
          markers = first ++ own.toList ++ others := by
  induction before generalizing j lineNumber markers with
  | nil =>
    rw [List.nil_append, linesFrom_cons_eq_ok_iff]
    simp [linesFrom]
  | cons head before ih =>
    rw [List.cons_append, linesFrom_cons_eq_ok_iff]
    constructor
    · rintro ⟨own', others', hown', hothers', rfl⟩
      obtain ⟨first, own, others, hfirst, hown, hothers, rfl⟩ := ih.mp hothers'
      refine ⟨own'.toList ++ first, own, others,
        linesFrom_cons_eq_ok_iff.mpr ⟨own', first, hown', hfirst, rfl⟩, ?_⟩
      rw [journal_linesFrom_cons hown', List.length_cons, ← Nat.add_assoc,
        Nat.add_right_comm lineNumber]
      exact ⟨hown, hothers, by simp⟩
    · rintro ⟨first, own, others, hfirst, hafter⟩
      obtain ⟨own', first', hown', hfirst', rfl⟩ := linesFrom_cons_eq_ok_iff.mp hfirst
      rw [journal_linesFrom_cons hown', List.length_cons, ← Nat.add_assoc,
        Nat.add_right_comm lineNumber] at hafter
      obtain ⟨hown, hothers, rfl⟩ := hafter
      exact ⟨own', first' ++ own.toList ++ others, hown',
        ih.mpr ⟨first', own, others, hfirst', hown, hothers, rfl⟩, by simp⟩

/-- A reading ends well if and only if no line is fatal in the state that it comes to. -/
theorem read_eq_ok_iff (nesting : Nat) (clock : Clock) (lines : List JournalLine) :
    (∃ markers, (read nesting clock lines).result = .ok markers) ↔
      ∀ before source rest, lines = before ++ source :: rest →
        ¬ Fatal nesting clock (read nesting clock before).journal source := by
  constructor
  · rintro ⟨markers, hread⟩ before source rest rfl hfatal
    obtain ⟨_, own, _, -, hown, -⟩ := linesFrom_append_cons_eq_ok_iff.mp hread
    obtain ⟨f, herror, -⟩ := logLine_of_fatal hfatal (1 + before.length)
    cases hown.symm.trans herror
  · intro hlines
    induction lines using List.reverseRecOn with
    | nil => exact ⟨[], rfl⟩
    | append_singleton before source ih =>
      obtain ⟨first, hfirst⟩ := ih fun before' source' rest hsplit =>
        hlines before' source' (rest ++ [source]) (by rw [hsplit]; simp)
      obtain ⟨own, hown⟩ :=
        (settles_of_not_fatal (hlines before source [] rfl) (1 + before.length)).result
      exact ⟨first ++ own.toList ++ [], linesFrom_append_cons_eq_ok_iff.mpr
        ⟨first, own, [], hfirst, hown, rfl, rfl⟩⟩

/-- Only an infinity or a document that is too large ends a reading. -/
theorem eq_of_linesFrom_eq_error {f : Fault}
    (h : (linesFrom nesting clock j lineNumber lines).result = .error f) :
    f = Failure.infiniteInteger ∨ ∃ failure : Failure, f = failure ∧ failure.IsTooLarge := by
  induction lines generalizing j lineNumber with
  | nil => cases h
  | cons source rest ih =>
    rw [linesFrom] at h
    cases hown : (logLine nesting clock j lineNumber source).result with
    | error f' =>
      rw [hown] at h
      cases h
      by_cases hfatal : Fatal nesting clock j source
      · obtain ⟨failure, herror, hfailure⟩ := logLine_of_fatal hfatal lineNumber
        cases hown.symm.trans herror
        rcases hfailure with rfl | hlarge
        · exact .inl rfl
        · exact .inr ⟨failure, rfl, hlarge⟩
      · obtain ⟨own, hok⟩ := (settles_of_not_fatal hfatal lineNumber).result
        cases hown.symm.trans hok
    | ok own =>
      rw [hown] at h
      cases hrest : (linesFrom nesting clock (logLine nesting clock j lineNumber source).journal
        (lineNumber + 1) rest).result with
      | error f' =>
        simp only [hrest, Except.map] at h
        cases h
        exact ih hrest
      | ok others =>
        simp only [hrest, Except.map] at h
        cases h

/-- After lines with nothing that could end the reading no record that waits has an infinite
time. -/
theorem Bounded.linesFrom (hj : j.Bounded) (h : ∀ source ∈ lines, source.Bounded nesting) :
    (linesFrom nesting clock j lineNumber lines).journal.Bounded := by
  induction lines generalizing j lineNumber with
  | nil => exact hj
  | cons source rest ih =>
    obtain ⟨hsource, hrest⟩ := List.forall_mem_cons.mp h
    have hfirst := hj.logLine hsource clock lineNumber
    rw [Journal.linesFrom]
    split
    · exact hfirst
    · exact ih hfirst hrest

end Runs

/-- Which logs are read to their end, and what becomes of their lines, for a reader that follows
documents so many levels deep. A log with nothing in it beyond all bounds is read to its end, and so
is any other one unless it comes to a line that is fatal; the fault is then an infinity, an integer
with too many digits, or an object nested too deeply. If the end is reached, every line has got what
is due to it: a flawed line is dropped with one report, no other one is, and the reading goes on
with the lines after it. -/
theorem read_survives (nesting : Nat) (clock : Clock) (lines : List JournalLine) :
    ((∀ source ∈ lines, source.Bounded nesting) →
      ∃ markers, (read nesting clock lines).result = .ok markers) ∧
    ((∃ markers, (read nesting clock lines).result = .ok markers) ↔
      ∀ before source rest, lines = before ++ source :: rest →
        ¬ Fatal nesting clock (read nesting clock before).journal source) ∧
    (∀ f, (read nesting clock lines).result = .error f →
      f = Failure.infiniteInteger ∨ (∃ digits, f = Failure.integerLength digits) ∨
        ∃ container, f = Failure.nesting container) ∧
    ∀ markers, (read nesting clock lines).result = .ok markers →
      ∀ before source rest, lines = before ++ source :: rest →
        let j := (read nesting clock before).journal
        let lineNumber := before.length + 1
        let after := logLine nesting clock j lineNumber source
        Settles nesting clock j lineNumber source ∧
          ∃ first own others, (read nesting clock before).result = .ok first ∧
            after.result = .ok own ∧
            (linesFrom nesting clock after.journal (lineNumber + 1) rest).result = .ok others ∧
            markers = first ++ own.toList ++ others := by
  refine ⟨fun hbounded => ?_, read_eq_ok_iff nesting clock lines, fun f hread => ?_, ?_⟩
  · rw [read_eq_ok_iff]
    rintro before source rest rfl
    have hempty : empty.Bounded := fun key record h => by
      cases key with | mk c id => cases c <;> cases h
    obtain ⟨hbefore, hrest⟩ := List.forall_mem_append.mp hbounded
    exact not_fatal_of_bounded (hempty.linesFrom hbefore) (hrest source List.mem_cons_self) clock
  · rcases eq_of_linesFrom_eq_error hread with hinfinite | ⟨failure, rfl, hlarge⟩
    · exact .inl hinfinite
    · exact .inr (hlarge.imp (fun ⟨digits, hf⟩ => ⟨digits, congrArg Fault.failure hf⟩)
        fun ⟨container, hf⟩ => ⟨container, congrArg Fault.failure hf⟩)
  · rintro markers hread before source rest rfl
    have hfatal := (read_eq_ok_iff nesting clock _).mp ⟨markers, hread⟩ before source rest rfl
    obtain ⟨first, own, others, hparts⟩ := linesFrom_append_cons_eq_ok_iff.mp hread
    rw [Nat.add_comm 1] at hparts
    exact ⟨settles_of_not_fatal hfatal _, first, own, others, hparts⟩

example :
    let lines : List JournalLine :=
      [.text "0 \x7b\"timestamp\":5,\"fields\":\x7b\"message\":\"start\"\x7d\x7d",
       .text "0 \x7b\"timestamp\":\"soon\",\"fields\":\x7b\"message\":\"tick\"\x7d\x7d",
       .text "0 \x7b\"timestamp\":9,\"fields\":\x7b\"message\":\"stop\"\x7d\x7d"]
    (read 2 .plain lines).journal.dropped = 1 ∧
      (read 2 .plain lines).result.map (·.map (·.message)) = .ok ["start", "stop"] := by
  decide +kernel

/-- An infinite time ends the reading, and the line after it is lost as well. -/
theorem read_stops_at_infinite_time :
    (read 2 .plain
      [.text "0 \x7b\"timestamp\":Infinity,\"fields\":\x7b\"message\":\"tick\"\x7d\x7d",
       .text "0 \x7b\"timestamp\":9,\"fields\":\x7b\"message\":\"stop\"\x7d\x7d"]).result =
      .error Failure.infiniteInteger := by
  decide +kernel

end Journal

end TraceProfile
