import TraceProfile.Marker.Journal

/-!
# Routing of span records

A line of a span log concerns at most one pending record: that of its own convention and id. What
it brings about follows from this record alone, and it leaves the records of all other keys as
they are, however it ends.
-/

namespace TraceProfile

/-- What span records are paired by. -/
@[ext] structure SpanKey where
  /-- The convention. -/
  convention : Convention
  /-- The id. -/
  id : Int
  deriving DecidableEq

/-- The record that a line holds for a key, and its part: the id is the positive id of the key,
and the message is a keyword of its convention. -/
def SpanKey.record? (nesting : Nat) (key : SpanKey) (s : String) :
    Option (Turn × JournalEntry) :=
  match JournalEntry.read nesting s with
  | .error _ => none
  | .ok e =>
    if 0 < e.id ∧ e.id = key.id then
      (e.message?.bind key.convention.turn?).map fun turn => (turn, e)
    else none

variable {nesting : Nat}

namespace Convention

/-- The part of a record is the one whose keyword is its message. -/
theorem turn?_eq_some_iff {c : Convention} {message : String} {turn : Turn} :
    c.turn? message = some turn ↔ message = c.keyword turn := by
  have hdistinct : c.keyword .opening ≠ c.keyword .closing := by cases c <;> decide
  unfold turn?
  constructor
  · intro h
    split at h
    · cases h
      assumption
    · split at h
      · cases h
        assumption
      · cases h
  · rintro rfl
    cases turn with
    | opening => rw [if_pos rfl]
    | closing => rw [if_neg hdistinct.symm, if_pos rfl]

/-- No keyword has two conventions or two parts. -/
theorem keyword_inj {c d : Convention} {turn turn' : Turn}
    (h : c.keyword turn = d.keyword turn') : c = d ∧ turn = turn' := by
  cases c <;> cases d <;> cases turn <;> cases turn' <;>
    first | exact ⟨rfl, rfl⟩ | exact absurd h (by decide)

/-- The convention and the part of a message are those whose keyword it is. -/
theorem ofMessage?_eq_some_iff {c : Convention} {message : String} {turn : Turn} :
    ofMessage? message = some (c, turn) ↔ c.turn? message = some turn := by
  rw [turn?_eq_some_iff]
  unfold ofMessage?
  constructor
  · intro h
    split at h
    · rename_i first hfirst
      cases h
      exact turn?_eq_some_iff.mp hfirst
    · obtain ⟨second, hsecond, heq⟩ := Option.map_eq_some_iff.mp h
      cases heq
      exact turn?_eq_some_iff.mp hsecond
  · intro h
    have hturn : c.turn? message = some turn := turn?_eq_some_iff.mpr h
    cases c with
    | lifetime => rw [hturn]
    | activity =>
      split
      · rename_i first hfirst
        rw [turn?_eq_some_iff.mp hfirst] at h
        cases (keyword_inj h).1
      · rw [hturn, Option.map_some]

end Convention

namespace Tracker

/-- The ids with a pending record are distinct. -/
def Sound (t : Tracker) : Prop := (t.pending.map (·.1)).Nodup

/-- After a record has come in, its id has a pending record if the record is an opening one:
the first that waits. No other id is concerned. -/
theorem lookup_step (t : Tracker) (id other : Int) (record : Json.Fields) (turn : Turn) :
    (t.step id record turn).1.pending.lookup other =
      if other = id then
        (match turn with
        | .opening => some ((t.pending.lookup id).getD record)
        | .closing => none)
      else t.pending.lookup other := by
  unfold step
  split <;> rename_i hpending <;> split <;> rename_i hother <;>
    simp [Assoc.lookup_erase, Assoc.lookup_insert, hother, hpending]

/-- A record that comes in keeps the ids distinct. -/
theorem Sound.step {t : Tracker} (h : t.Sound) (id : Int) (record : Json.Fields) (turn : Turn) :
    (t.step id record turn).1.Sound := by
  unfold Tracker.step
  split
  · exact Assoc.nodup_keys_erase id h
  · exact h
  · exact Assoc.nodup_keys_insert id record h
  · exact h

end Tracker

namespace JournalEntry

/-- A line with a negative id gives no entry. -/
theorem id_nonneg {s : String} {e : JournalEntry} (h : read nesting s = .ok e) : 0 ≤ e.id := by
  unfold read at h
  split at h
  · cases h
  · split at h
    · cases h
    · split at h
      · cases h
      · rename_i hid
        split at h
        · cases h
        · cases h
        · cases h
        · split at h
          · cases h
          · cases h
            exact Int.not_lt.mp hid

/-- The convention and the part of an entry come from its message, if its id is not zero. -/
theorem role?_eq_some_iff {e : JournalEntry} {c : Convention} {turn : Turn} :
    e.role? = some (c, turn) ↔ e.id ≠ 0 ∧ e.message?.bind c.turn? = some turn := by
  unfold role?
  split
  · rename_i hid
    simp [hid]
  · rename_i hid
    simp only [ne_eq, hid, not_false_eq_true, true_and, Option.bind_eq_some_iff,
      Convention.ofMessage?_eq_some_iff]

end JournalEntry

namespace SpanKey

/-- A line holds the record of a key if it gives an entry with the id of the key and a part in its
convention. -/
theorem record?_eq_some_iff {key : SpanKey} {s : String} {turn : Turn} {e : JournalEntry} :
    key.record? nesting s = some (turn, e) ↔
      JournalEntry.read nesting s = .ok e ∧ e.id = key.id ∧
        e.role? = some (key.convention, turn) := by
  rw [JournalEntry.role?_eq_some_iff]
  unfold record?
  cases hread : JournalEntry.read nesting s with
  | error defect => simp
  | ok entry =>
    have hnonneg := JournalEntry.id_nonneg hread
    simp only [Except.ok.injEq]
    constructor
    · intro h
      split at h
      · rename_i hid
        obtain ⟨found, hfound, heq⟩ := Option.map_eq_some_iff.mp h
        cases heq
        exact ⟨rfl, hid.2, by omega, hfound⟩
      · cases h
    · rintro ⟨rfl, hid, hzero, hfound⟩
      rw [if_pos ⟨by omega, hid⟩, hfound, Option.map_some]

/-- A line belongs to one key at most. -/
theorem eq_of_record? {key key' : SpanKey} {s : String} {turn turn' : Turn}
    {e e' : JournalEntry} (h : key.record? nesting s = some (turn, e))
    (h' : key'.record? nesting s = some (turn', e')) : key = key' := by
  obtain ⟨hread, hid, hrole⟩ := record?_eq_some_iff.mp h
  obtain ⟨hread', hid', hrole'⟩ := record?_eq_some_iff.mp h'
  cases hread.symm.trans hread'
  have hsame : (key.convention, turn) = (key'.convention, turn') :=
    Option.some.inj (hrole.symm.trans hrole')
  exact SpanKey.ext (congrArg Prod.fst hsame) (hid.symm.trans hid')

/-- A line belongs to no key or holds a record for one. -/
theorem foreign_or_record? (nesting : Nat) (s : String) :
    (∀ key : SpanKey, key.record? nesting s = none) ∨
      ∃ (key : SpanKey) (turn : Turn) (e : JournalEntry),
        key.record? nesting s = some (turn, e) := by
  by_cases hforeign : ∀ key : SpanKey, key.record? nesting s = none
  · exact .inl hforeign
  · obtain ⟨key, hkey⟩ := Classical.not_forall.mp hforeign
    obtain ⟨⟨turn, e⟩, hrecord⟩ := Option.ne_none_iff_exists'.mp hkey
    exact .inr ⟨key, turn, e, hrecord⟩

/-- What waits under a key after a line has come in. -/
def next (nesting : Nat) (key : SpanKey) (s : String) (waiting : Option Json.Fields) :
    Option Json.Fields :=
  match key.record? nesting s with
  | none => waiting
  | some (.opening, e) => some (waiting.getD e.record)
  | some (.closing, _) => none

end SpanKey

namespace Journal

/-- The opening record that waits under a key. -/
def waiting (j : Journal) (key : SpanKey) : Option Json.Fields :=
  (j.tracker key.convention).pending.lookup key.id

/-- The state in which a record waits under a key. -/
def hold (j : Journal) (key : SpanKey) (record : Json.Fields) : Journal :=
  j.setTracker key.convention
    ⟨Assoc.insert key.id record (j.tracker key.convention).pending⟩

/-- The state without the record that waits under a key. -/
def release (j : Journal) (key : SpanKey) : Journal :=
  j.setTracker key.convention ⟨Assoc.erase key.id (j.tracker key.convention).pending⟩

/-- Two steps look the same from outside: they give the same result and the same reports, and
the number of dropped lines grows by the same amount. -/
structure Alike (j : Journal) (o : Outcome (Option Marker)) (j' : Journal)
    (o' : Outcome (Option Marker)) : Prop where
  /-- The results. -/
  result : o.result = o'.result
  /-- The reports. -/
  log : o.log = o'.log
  /-- The growth. -/
  dropped : o.journal.dropped + j'.dropped = o'.journal.dropped + j.dropped

/-- A step that no pending record has a part in: it drops its line or leaves the state as it
is. -/
def Stateless (step : Journal → Outcome (Option Marker)) : Prop :=
  (∃ lineNumber reason s, ∀ j, step j = j.drop lineNumber reason s) ∨
    ∃ result, ∀ j, step j = ⟨result, j, []⟩

/-- Another tracker for a convention is found there, and only there. -/
theorem tracker_setTracker (j : Journal) (c d : Convention) (t : Tracker) :
    (j.setTracker c t).tracker d = if d = c then t else j.tracker d := by
  cases c <;> cases d <;> rfl

/-- A tracker in its own place changes nothing. -/
theorem setTracker_tracker (j : Journal) (c : Convention) : j.setTracker c (j.tracker c) = j := by
  cases c <;> rfl

/-- No line is dropped where a tracker changes. -/
theorem dropped_setTracker (j : Journal) (c : Convention) (t : Tracker) :
    (j.setTracker c t).dropped = j.dropped := by
  cases c <;> rfl

/-- A step without a part for pending records keeps all trackers. -/
theorem Stateless.tracker {step : Journal → Outcome (Option Marker)} (h : Stateless step)
    (j : Journal) (c : Convention) : (step j).journal.tracker c = j.tracker c := by
  rcases h with ⟨lineNumber, reason, s, hstep⟩ | ⟨result, hstep⟩
  · rw [hstep]
    cases c <;> rfl
  · rw [hstep]

/-- Such a step looks the same in any state. -/
theorem Stateless.alike {step : Journal → Outcome (Option Marker)} (h : Stateless step)
    (j j' : Journal) : Alike j (step j) j' (step j') := by
  rcases h with ⟨lineNumber, reason, s, hstep⟩ | ⟨result, hstep⟩
  · rw [hstep, hstep]
    exact ⟨rfl, rfl, by simp only [drop]; omega⟩
  · rw [hstep, hstep]
    exact ⟨rfl, rfl, Nat.add_comm _ _⟩

/-- What becomes of a marker that was asked for does not depend on pending records. -/
theorem stateless_settle (lineNumber : Nat) (s : String) (result : Except Fault Marker) :
    Stateless (settle · lineNumber s result) := by
  cases result with
  | ok m => exact .inr ⟨.ok (some m), fun _ => rfl⟩
  | error f =>
    by_cases hcosts : costsLine f
    · exact .inl ⟨lineNumber, .fault f, s, fun _ => by simp only [settle, if_pos hcosts]⟩
    · exact .inr ⟨.error f, fun _ => by simp only [settle, if_neg hcosts]⟩

/-- A line with a record of a key does what this record does. -/
theorem line_of_record? {key : SpanKey} {s : String} {turn : Turn} {e : JournalEntry}
    (h : key.record? nesting s = some (turn, e)) (clock : Clock) (j : Journal) (lineNumber : Nat) :
    line nesting clock j lineNumber s = spanRecord clock j lineNumber s e key.convention turn := by
  obtain ⟨hread, -, hrole⟩ := SpanKey.record?_eq_some_iff.mp h
  have hid := (JournalEntry.role?_eq_some_iff.mp hrole).1
  simp only [line, hread, entry, if_neg hid, hrole]

section Turns

variable {key : SpanKey} {s : String} {e : JournalEntry} {j : Journal}

/-- A closing record completes the span of the record that waits under its key, which waits no
longer even if the span is refused. -/
theorem line_closing {start : Json.Fields} (h : key.record? nesting s = some (.closing, e))
    (hwaiting : j.waiting key = some start) (clock : Clock) (lineNumber : Nat) :
    line nesting clock j lineNumber s = (j.release key).settle lineNumber s
      (span clock key.convention.spanKind e.thread start e.record) := by
  have hid := (SpanKey.record?_eq_some_iff.mp h).2.1
  unfold waiting at hwaiting
  simp only [line_of_record? h, spanRecord, Tracker.step, hid, hwaiting, release]

/-- A closing record without a record to close is dropped. -/
theorem line_closing_of_none (h : key.record? nesting s = some (.closing, e))
    (hwaiting : j.waiting key = none) (clock : Clock) (lineNumber : Nat) :
    line nesting clock j lineNumber s =
      ⟨.ok none, j, [.spanOutOfTurn (key.convention.keyword .opening)
        (key.convention.keyword .closing) e.record]⟩ := by
  have hid := (SpanKey.record?_eq_some_iff.mp h).2.1
  unfold waiting at hwaiting
  simp only [line_of_record? h, spanRecord, Tracker.step, hid, hwaiting, setTracker_tracker]

/-- The first opening record of its key waits. -/
theorem line_opening (h : key.record? nesting s = some (.opening, e))
    (hwaiting : j.waiting key = none) (clock : Clock) (lineNumber : Nat) :
    line nesting clock j lineNumber s = ⟨.ok none, j.hold key e.record, []⟩ := by
  have hid := (SpanKey.record?_eq_some_iff.mp h).2.1
  unfold waiting at hwaiting
  simp only [line_of_record? h, spanRecord, Tracker.step, hid, hwaiting, hold]

/-- An opening record is dropped while another one waits under its key. -/
theorem line_opening_of_some {start : Json.Fields} (h : key.record? nesting s = some (.opening, e))
    (hwaiting : j.waiting key = some start) (clock : Clock) (lineNumber : Nat) :
    line nesting clock j lineNumber s =
      ⟨.ok none, j, [.spanOutOfTurn (key.convention.keyword .closing)
        (key.convention.keyword .opening) e.record]⟩ := by
  have hid := (SpanKey.record?_eq_some_iff.mp h).2.1
  unfold waiting at hwaiting
  simp only [line_of_record? h, spanRecord, Tracker.step, hid, hwaiting, setTracker_tracker]

end Turns

/-- The trackers after a line of a key: that of its convention has taken a step. -/
theorem tracker_line {key : SpanKey} {s : String} {turn : Turn} {e : JournalEntry}
    (h : key.record? nesting s = some (turn, e)) (clock : Clock) (j : Journal) (lineNumber : Nat)
    (c : Convention) :
    (line nesting clock j lineNumber s).journal.tracker c =
      if c = key.convention then ((j.tracker c).step key.id e.record turn).1
      else j.tracker c := by
  have hid := (SpanKey.record?_eq_some_iff.mp h).2.1
  rw [line_of_record? h, spanRecord, hid]
  have hset : ((j.setTracker key.convention
        ((j.tracker key.convention).step key.id e.record turn).1).tracker c) =
      if c = key.convention then ((j.tracker c).step key.id e.record turn).1
      else j.tracker c := by
    rw [tracker_setTracker]
    split
    · rename_i hc
      rw [hc]
    · rfl
  rw [← hset]
  dsimp only
  split
  · rfl
  · rfl
  · exact (stateless_settle lineNumber s _).tracker _ c

/-- A line that belongs to no key is none of the pending records' business. -/
theorem stateless_line {s : String} (h : ∀ key : SpanKey, key.record? nesting s = none)
    (clock : Clock) (lineNumber : Nat) : Stateless (line nesting clock · lineNumber s) := by
  unfold line
  split
  · rename_i reason hread
    exact .inl ⟨lineNumber, reason, s, fun _ => rfl⟩
  · rename_i f hread
    exact .inr ⟨.error f, fun _ => rfl⟩
  · rename_i e hread
    unfold entry
    split
    · exact stateless_settle lineNumber s _
    · split
      · exact .inr ⟨.ok none, fun _ => rfl⟩
      · rename_i c turn hrole
        have hrecord : SpanKey.record? nesting ⟨c, e.id⟩ s = some (turn, e) :=
          SpanKey.record?_eq_some_iff.mpr ⟨hread, rfl, hrole⟩
        rw [h] at hrecord
        cases hrecord

/-- What waits under a key after a line follows from what waited under this key. -/
theorem waiting_line (nesting : Nat) (clock : Clock) (j : Journal) (lineNumber : Nat) (s : String)
    (key : SpanKey) :
    (line nesting clock j lineNumber s).journal.waiting key =
      key.next nesting s (j.waiting key) := by
  rcases SpanKey.foreign_or_record? nesting s with hforeign | ⟨other, turn, e, hrecord⟩
  · have htracker := (stateless_line hforeign clock lineNumber).tracker j key.convention
    simp only [waiting, htracker, SpanKey.next, hforeign key]
  · unfold waiting
    rw [tracker_line hrecord]
    by_cases hkey : key = other
    · subst hkey
      rw [if_pos rfl, Tracker.lookup_step, if_pos rfl, SpanKey.next, hrecord]
      cases turn <;> rfl
    · have hnone : key.record? nesting s = none := by
        refine Option.eq_none_iff_forall_ne_some.mpr fun found hfound => ?_
        exact hkey (SpanKey.eq_of_record? hfound hrecord)
      rw [SpanKey.next, hnone]
      split
      · rename_i hconvention
        have hid : key.id ≠ other.id := fun hid => hkey (SpanKey.ext hconvention hid)
        rw [Tracker.lookup_step, if_neg hid]
      · rfl

/-- A line keeps the ids of each tracker distinct. -/
theorem sound_line {j : Journal} (hj : ∀ c, (j.tracker c).Sound) (nesting : Nat) (clock : Clock)
    (lineNumber : Nat) (s : String) (c : Convention) :
    ((line nesting clock j lineNumber s).journal.tracker c).Sound := by
  rcases SpanKey.foreign_or_record? nesting s with hforeign | ⟨other, turn, e, hrecord⟩
  · rw [(stateless_line hforeign clock lineNumber).tracker j c]
    exact hj c
  · rw [tracker_line hrecord]
    split
    · exact (hj c).step other.id e.record turn
    · exact hj c

/-- What a line of a key brings about follows from what waits under this key. -/
theorem alike_line {key : SpanKey} {s : String} {j j' : Journal}
    (hkey : (key.record? nesting s).isSome) (hwaiting : j.waiting key = j'.waiting key)
    (clock : Clock) (lineNumber : Nat) :
    Alike j (line nesting clock j lineNumber s) j' (line nesting clock j' lineNumber s) := by
  obtain ⟨⟨turn, e⟩, hrecord⟩ := Option.isSome_iff_exists.mp hkey
  have hout : ∀ log, Alike j ⟨.ok none, j, log⟩ j' ⟨.ok none, j', log⟩ :=
    fun log => ⟨rfl, rfl, Nat.add_comm _ _⟩
  cases hj : j.waiting key with
  | none =>
    have hj' := hwaiting.symm.trans hj
    cases turn with
    | opening =>
      rw [line_opening hrecord hj, line_opening hrecord hj']
      refine ⟨rfl, rfl, ?_⟩
      simp only [hold, dropped_setTracker]
      omega
    | closing =>
      rw [line_closing_of_none hrecord hj, line_closing_of_none hrecord hj']
      exact hout _
  | some start =>
    have hj' := hwaiting.symm.trans hj
    cases turn with
    | opening =>
      rw [line_opening_of_some hrecord hj, line_opening_of_some hrecord hj']
      exact hout _
    | closing =>
      rw [line_closing hrecord hj, line_closing hrecord hj']
      obtain ⟨hresult, hlog, hdropped⟩ := (stateless_settle lineNumber s
        (span clock key.convention.spanKind e.thread start e.record)).alike
        (j.release key) (j'.release key)
      refine ⟨hresult, hlog, ?_⟩
      simpa only [release, dropped_setTracker] using hdropped

end Journal

end TraceProfile
