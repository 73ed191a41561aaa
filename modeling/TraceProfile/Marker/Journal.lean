import TraceProfile.Clock
import TraceProfile.Marker.Action
import TraceProfile.Marker.Duration
import TraceProfile.Marker.Entry

/-!
# Span logs

A span log is read line by line. An entry with id zero is an event, and a span record waits under
its id for the other one of its pair. A line that cannot be used is dropped with a report. Only a
time or duration without bound, an integer with too many digits, and an object nested too deeply
stop the reading.
-/

namespace TraceProfile

/-- A line of a span log. -/
inductive JournalLine where
  /-- A line that has been decoded. -/
  | text (s : String)
  /-- A line as it stands in a file. -/
  | bytes (bs : List UInt8)

/-- The state of a reader of span logs. -/
structure Journal where
  /-- Pending records of the convention for lifetimes. -/
  lifetimes : Tracker
  /-- Pending records of the convention for activity. -/
  activities : Tracker
  /-- The number of lines dropped. -/
  dropped : Nat

/-- What a step of a reader leaves behind: its result, the new state and the reports. -/
structure Journal.Outcome (α : Type) where
  /-- The result. -/
  result : Except Fault α
  /-- The state afterwards. -/
  journal : Journal
  /-- The reports. -/
  log : List LogRecord

namespace Journal

/-- The state before the first line. -/
def empty : Journal := ⟨.empty, .empty, 0⟩

/-- The tracker of a convention. -/
def tracker (j : Journal) : Convention → Tracker
  | .lifetime => j.lifetimes
  | .activity => j.activities

/-- The state with another tracker for a convention. -/
def setTracker (j : Journal) (c : Convention) (t : Tracker) : Journal :=
  match c with
  | .lifetime => { j with lifetimes := t }
  | .activity => { j with activities := t }

/-- A text field of a record; any other value is shown, and a missing one is empty. -/
def targetOf (record : Json.Fields) : String := ((record.lookup "target").map Json.asText).getD ""

/-- The tick of a record; a missing one is zero. -/
def tickOf (record : Json.Fields) : Except Fault Int :=
  match record.lookup "timestamp" with
  | none => .ok 0
  | some value => value.toInteger

/-- The event of a record. -/
def event (clock : Clock) (record : Json.Fields) : Except Fault Marker :=
  let fields := Json.textFields ((record.lookup "fields").getD .null)
  match fields.lookup "message" with
  | none => .error Refusal.silentEvent
  | some message => do
    let tick ← tickOf record
    pure ⟨clock.convert tick, message, targetOf record, Assoc.erase "message" fields, none⟩

/-- The further fields of a span: those of its closing record, and the thread for a stretch of
activity. -/
def spanFields (kind : SpanKind) (thread : Option Int) (fields : List (String × String)) :
    List (String × String) :=
  let rest := Assoc.erase "name" fields
  match kind, thread with
  | .running, some thread => Assoc.insert "tid" (toString thread) rest
  | _, _ => rest

/-- The span of an opening and a closing record. -/
def span (clock : Clock) (kind : SpanKind) (thread : Option Int) (opening closing : Json.Fields) :
    Except Fault Marker := do
  let start ← tickOf opening
  let stop ← tickOf closing
  if stop < start then throw (.refusal (.reversedSpan start stop))
  let described := Json.textFields ((closing.lookup "span").getD .null)
  let message := (described.lookup "name").getD ""
  let labels := ActionLabels.ofAction ((described.lookup "action").getD "-") message kind
  let measured := (((closing.lookup "fields").bind Json.fields?).getD [])
  let busy ← Duration.ofField measured "time.busy"
  let idle ← Duration.ofField measured "time.idle"
  let timings : Timings := ⟨busy.getD (stop - start), idle.getD 0⟩
  pure ⟨clock.convert start, message, targetOf closing, spanFields kind thread described,
    some ⟨kind, clock.convert stop, timings, labels.category, labels.profiler, labels.stats⟩⟩

/-- A fault that costs a line and no more. -/
def costsLine (f : Fault) : Bool := f.kind == .value || f.kind == .type

/-- A line is dropped. -/
def drop (j : Journal) (lineNumber : Nat) (reason : DropReason) (line : String) :
    Outcome (Option Marker) :=
  ⟨.ok none, { j with dropped := j.dropped + 1 }, [.droppedLine lineNumber reason line]⟩

/-- A marker that was asked for, or the loss of its line. -/
def settle (j : Journal) (lineNumber : Nat) (line : String) (result : Except Fault Marker) :
    Outcome (Option Marker) :=
  match result with
  | .ok m => ⟨.ok (some m), j, []⟩
  | .error f =>
    if costsLine f then j.drop lineNumber (.fault f) line else ⟨.error f, j, []⟩

/-- A span record takes its turn. -/
def spanRecord (clock : Clock) (j : Journal) (lineNumber : Nat) (line : String)
    (e : JournalEntry) (c : Convention) (turn : Turn) : Outcome (Option Marker) :=
  let (tracker, step) := (j.tracker c).step e.id e.record turn
  let j := j.setTracker c tracker
  match step with
  | .opened => ⟨.ok none, j, []⟩
  | .outOfTurn due =>
    ⟨.ok none, j, [.spanOutOfTurn (c.keyword due) (c.keyword turn) e.record]⟩
  | .closed start => j.settle lineNumber line (span clock c.spanKind e.thread start e.record)

/-- An entry comes in. A span record with a message of neither convention is passed over. -/
def entry (clock : Clock) (j : Journal) (lineNumber : Nat) (line : String) (e : JournalEntry) :
    Outcome (Option Marker) :=
  if e.id = 0 then j.settle lineNumber line (event clock e.record)
  else
    match e.role? with
    | none => ⟨.ok none, j, []⟩
    | some (c, turn) => spanRecord clock j lineNumber line e c turn

/-- A line comes in. -/
def line (nesting : Nat) (clock : Clock) (j : Journal) (lineNumber : Nat) (s : String) :
    Outcome (Option Marker) :=
  match JournalEntry.read nesting s with
  | .error (.dropped reason) => j.drop lineNumber reason s
  | .error (.fatal f) => ⟨.error f, j, []⟩
  | .ok e => entry clock j lineNumber s e

/-- A line of a log comes in: its bytes are decoded, its end is taken off, and a blank line is
passed over. -/
def logLine (nesting : Nat) (clock : Clock) (j : Journal) (lineNumber : Nat)
    (source : JournalLine) : Outcome (Option Marker) :=
  let read (s : String) : Outcome (Option Marker) :=
    let s := Text.stripLineEnd s
    if Text.isBlankText s then ⟨.ok none, j, []⟩ else line nesting clock j lineNumber s
  match source with
  | .text s => read s
  | .bytes bs =>
    match Text.decodeBytes bs with
    | .ok s => read s
    | .error flaw => j.drop lineNumber (.invalidUtf8 flaw) (Text.quoteBytes bs)

/-- The lines of a log from the given line number on come in. -/
def linesFrom (nesting : Nat) (clock : Clock) (j : Journal) (lineNumber : Nat) :
    List JournalLine → Outcome (List Marker)
  | [] => ⟨.ok [], j, []⟩
  | source :: rest =>
    let first := logLine nesting clock j lineNumber source
    match first.result with
    | .error f => ⟨.error f, first.journal, first.log⟩
    | .ok marker =>
      let others := linesFrom nesting clock first.journal (lineNumber + 1) rest
      ⟨others.result.map (marker.toList ++ ·), others.journal, first.log ++ others.log⟩

/-- The markers of a log, in the order in which their lines complete them. -/
def read (nesting : Nat) (clock : Clock) (lines : List JournalLine) : Outcome (List Marker) :=
  linesFrom nesting clock .empty 1 lines

/-- The markers of a log, in the order of their starts. -/
def markers (nesting : Nat) (clock : Clock) (lines : List JournalLine) : Outcome (List Marker) :=
  let outcome := read nesting clock lines
  { outcome with result := outcome.result.map Marker.inStartOrder }

/-- The lines of a file, each with the line feed that ends it. -/
def linesOfFile (bytes : List UInt8) : List JournalLine := (Text.cutAfter 0x0a bytes).map .bytes

end Journal

end TraceProfile
