import TraceProfile.Profile.Timing
import TraceProfile.Proofs.Marker.Losses
import TraceProfile.Proofs.StableOrder

/-!
# Lines that complete markers

The markers of a log are those that its lines complete, one after the other. An event is completed
by its own line, and a span by its closing line, which takes up the record that waits under its key.
A span cannot end before it starts: its ticks are compared when it is completed, and a clock that
does not run backwards keeps their order.
-/

namespace TraceProfile

namespace Journal

/-- The marker that the line at a position completes when the lines before it have come in. -/
def completed? (nesting : Nat) (clock : Clock) (lines : List JournalLine) (i : Nat) :
    Option Marker :=
  lines[i]?.bind fun source =>
    match (logLine nesting clock (read nesting clock (lines.take i)).journal (i + 1)
      source).result with
    | .ok marker? => marker?
    | .error _ => none

/-- The markers of a log, each with the position of the line that completes it. -/
def completions (nesting : Nat) (clock : Clock) (lines : List JournalLine) : List (Nat × Marker) :=
  (List.range lines.length).filterMap fun i =>
    (completed? nesting clock lines i).map fun m => (i, m)

/-- The line at a position holds a closing record, and under its key waits an opening record when
the lines before it have come in. -/
def ClosesAt (nesting : Nat) (clock : Clock) (lines : List JournalLine) (i : Nat)
    (opening closing : Json.Fields) : Prop :=
  ∃ source s key e, lines[i]? = some source ∧ source.content? = some s ∧
    SpanKey.record? nesting key s = some (.closing, e) ∧ e.record = closing ∧
    (read nesting clock (lines.take i)).journal.waiting key = some opening

/-- A closing record does not say how long its span was busy. -/
def LacksBusy (closing : Json.Fields) : Prop := (measured closing).lookup "time.busy" = none

/-- The times of a span are those of its two records, which are in order. Without a record of its
busy time it was busy all the time. -/
def Timed (clock : Clock) (opening closing : Json.Fields) (m : Marker) (s : Span) : Prop :=
  ∃ first last, tickOf opening = .ok first ∧ tickOf closing = .ok last ∧ first ≤ last ∧
    m.start = clock.convert first ∧ s.stop = clock.convert last ∧
    (LacksBusy closing → s.timings.busy = last - first)

/-- The markers that a log yields have been put in order: they ascend by their starts, equal starts
by the lines that complete them, and no span among them ends before it starts. -/
structure Arranged (nesting : Nat) (clock : Clock) (lines : List JournalLine)
    (yielded sorted : List Marker) : Prop where
  /-- The markers come as their lines complete them. -/
  completed : yielded = (completions nesting clock lines).map (·.2)
  /-- None is lost and none is added. -/
  perm : sorted.Perm yielded
  /-- Their starts ascend. -/
  ascending : Ascending Marker.start sorted
  /-- Of two markers with one start the line of the first comes first. -/
  stable : ∃ entries : List (Nat × Marker), entries.Perm (completions nesting clock lines) ∧
    sorted = entries.map (·.2) ∧
    entries.Pairwise fun a b => a.2.start < b.2.start ∨ a.2.start = b.2.start ∧ a.1 < b.1
  /-- Spans are in order and can be shown from their start to their end. -/
  ordered : ∀ m ∈ sorted, ∀ s ∈ m.span, m.start ≤ s.stop ∧
    ∃ timing, MarkerTiming.interval m.start s.stop = .ok timing
  /-- A span has the times of its records, and was not busy for less than no time if they do not say
  how long. -/
  timed : ∀ i m s, (i, m) ∈ completions nesting clock lines → m.span = some s →
    ∃ opening closing, ClosesAt nesting clock lines i opening closing ∧
      Timed clock opening closing m s ∧ (LacksBusy closing → 0 ≤ s.timings.busy)

section Lines

variable {nesting : Nat} {clock : Clock} {j : Journal} {lineNumber : Nat} {source : JournalLine}
  {m : Marker}

/-- An event has no span. -/
theorem span_of_event {record : Json.Fields} (h : event clock record = .ok m) : m.span = none := by
  unfold event at h
  dsimp only at h
  split at h
  · cases h
  · obtain ⟨tick, -, hmarker⟩ := bind_eq_ok_iff.mp h
    cases hmarker
    rfl

/-- A span that is made of two records has their times. -/
theorem timed_of_span {kind : SpanKind} {thread : Option Int} {opening closing : Json.Fields}
    (h : span clock kind thread opening closing = .ok m) :
    ∃ s, m.span = some s ∧ Timed clock opening closing m s := by
  unfold span at h
  obtain ⟨first, hfirst, h⟩ := bind_eq_ok_iff.mp h
  obtain ⟨last, hlast, h⟩ := bind_eq_ok_iff.mp h
  dsimp only at h
  split at h
  · cases h
  · rename_i hordered
    obtain ⟨busy, hbusy, h⟩ := bind_eq_ok_iff.mp h
    obtain ⟨idle, -, h⟩ := bind_eq_ok_iff.mp h
    cases h
    refine ⟨_, rfl, first, last, hfirst, hlast, Int.not_lt.mp hordered, rfl, rfl, fun hlacks => ?_⟩
    have hnone : Duration.ofField (measured closing) "time.busy" = .ok none := by
      rw [Duration.ofField, show (measured closing).lookup "time.busy" = none from hlacks]
    cases hnone.symm.trans hbusy
    rfl

/-- A line that completes a marker holds an event, or it closes a span. -/
theorem of_logLine_eq_some (h : (logLine nesting clock j lineNumber source).result = .ok (some m)) :
    m.span = none ∨ ∃ s key e opening, source.content? = some s ∧
      SpanKey.record? nesting key s = some (.closing, e) ∧ j.waiting key = some opening ∧
      span clock key.convention.spanKind e.thread opening e.record = .ok m := by
  have hsettle {j : Journal} {s : String} {result : Except Fault Marker}
      (h : (j.settle lineNumber s result).result = .ok (some m)) : result = .ok m := by
    cases result with
    | ok m' =>
      cases h
      rfl
    | error f =>
      rw [settle] at h
      split at h <;> cases h
  cases hcontent : source.content? with
  | none =>
    rcases logLine_of_content?_eq_none hcontent nesting clock j lineNumber with
      hline | ⟨_, _, -, -, hline⟩
    all_goals
      rw [hline] at h
      cases h
  | some s =>
    rw [logLine_of_content? hcontent] at h
    rcases line_cases nesting clock j lineNumber s with ⟨reason, -, hline⟩ | ⟨f, -, hline⟩ |
      ⟨e, -, -, hline⟩ | ⟨key, e, opening, hrecord, hwaiting, hline⟩ | ⟨j', log, hline, -⟩
    · rw [hline] at h
      cases h
    · rw [hline] at h
      cases h
    · rw [hline] at h
      exact .inl (span_of_event (hsettle h))
    · rw [hline] at h
      exact .inr ⟨s, key, e, opening, rfl, hrecord, hwaiting, hsettle h⟩
    · rw [hline] at h
      cases h

end Lines

section Runs

variable {nesting : Nat} {clock : Clock} {lines before : List JournalLine} {yielded : List Marker}
  {source : JournalLine} {m : Marker} {i : Nat}

/-- What a line completes does not depend on the lines after it. -/
theorem completed?_append (h : i < before.length) (rest : List JournalLine) :
    completed? nesting clock (before ++ rest) i = completed? nesting clock before i := by
  rw [completed?, completed?, List.getElem?_append_left h,
    List.take_append_of_le_length (Nat.le_of_lt h)]

/-- The markers come in the order of the lines that complete them. -/
theorem eq_filterMap_completed? (h : (read nesting clock lines).result = .ok yielded) :
    yielded = (List.range lines.length).filterMap (completed? nesting clock lines) := by
  induction lines using List.reverseRecOn generalizing yielded with
  | nil =>
    cases h
    rfl
  | append_singleton before source ih =>
    obtain ⟨first, own, others, hfirst, hown, hothers, rfl⟩ := linesFrom_append_cons_eq_ok_iff.mp h
    cases hothers
    have hbefore : (List.range before.length).filterMap
        (completed? nesting clock (before ++ [source])) =
          (List.range before.length).filterMap (completed? nesting clock before) :=
      List.filterMap_congr fun i hi => completed?_append (List.mem_range.mp hi) [source]
    have hlast : completed? nesting clock (before ++ [source]) before.length = own := by
      rw [Nat.add_comm 1] at hown
      simp only [completed?, List.getElem?_concat_length, Option.bind_some, List.take_left]
      rw [read, hown]
    rw [List.length_append, List.length_singleton, List.range_succ, List.filterMap_append, hbefore,
      ← ih hfirst, List.append_nil]
    cases own <;> simp [hlast]

/-- A span is completed by a line that closes it, and has the times of its two records. -/
theorem timed_of_completed? {s : Span} (h : completed? nesting clock lines i = some m)
    (hspan : m.span = some s) :
    ∃ opening closing, ClosesAt nesting clock lines i opening closing ∧
      Timed clock opening closing m s := by
  obtain ⟨source, hsource, hresult⟩ := Option.bind_eq_some_iff.mp h
  split at hresult
  · rename_i marker? hline
    cases hresult
    rcases of_logLine_eq_some hline with hevent | ⟨s', key, e, opening, hcontent, hrecord, hwaiting,
      hmade⟩
    · cases hspan.symm.trans hevent
    · obtain ⟨s'', hspan', htimed⟩ := timed_of_span hmade
      cases hspan.symm.trans hspan'
      exact ⟨opening, e.record, ⟨source, s', key, e, hsource, hcontent, hrecord, rfl, hwaiting⟩,
        htimed⟩
  · cases hresult

/-- The markers of a log are those that its lines complete. -/
theorem mem_completions_iff :
    (i, m) ∈ completions nesting clock lines ↔ completed? nesting clock lines i = some m := by
  simp only [completions, List.mem_filterMap, List.mem_range, Option.map_eq_some_iff,
    Prod.mk.injEq]
  constructor
  · rintro ⟨i, -, m, hm, rfl, rfl⟩
    exact hm
  · intro h
    obtain ⟨source, hsource, -⟩ := Option.bind_eq_some_iff.mp h
    exact ⟨i, (List.getElem?_eq_some_iff.mp hsource).1, m, h, rfl, rfl⟩

/-- The lines of the markers ascend. -/
theorem pairwise_completions (nesting : Nat) (clock : Clock) (lines : List JournalLine) :
    (completions nesting clock lines).Pairwise fun a b => a.1 < b.1 := by
  refine (List.pairwise_lt_range).filterMap _ fun i k hik a ha b hb => ?_
  obtain ⟨_, -, rfl⟩ := Option.map_eq_some_iff.mp ha
  obtain ⟨_, -, rfl⟩ := Option.map_eq_some_iff.mp hb
  exact hik

/-- A clock that does not run backwards keeps the order of the ticks of a span. -/
theorem Timed.ordered {opening closing : Json.Fields} {s : Span}
    (h : Timed clock opening closing m s) (hforward : 0 ≤ clock.factor) : m.start ≤ s.stop := by
  obtain ⟨first, last, -, -, hticks, hstart, hstop, -⟩ := h
  rw [hstart, hstop]
  exact Clock.convert_mono hforward hticks

/-- A span was not busy for less than no time if its records do not say how long. -/
theorem Timed.busy_nonneg {opening closing : Json.Fields} {s : Span}
    (h : Timed clock opening closing m s) (hlacks : LacksBusy closing) : 0 ≤ s.timings.busy := by
  obtain ⟨first, last, -, -, hticks, -, -, hbusy⟩ := h
  rw [hbusy hlacks]
  omega

/-- A log that is read to its end gives its markers in order. -/
theorem arranged_markers (hread : (read nesting clock lines).result = .ok yielded)
    (hforward : 0 ≤ clock.factor) :
    ∃ sorted, (markers nesting clock lines).result = .ok sorted ∧
      Arranged nesting clock lines yielded sorted := by
  have hyielded : yielded = (completions nesting clock lines).map (·.2) := by
    rw [completions, List.map_filterMap, eq_filterMap_completed? hread]
    simp [Function.comp_def]
  have hordered {i : Nat} {m : Marker} {s : Span} (hm : (i, m) ∈ completions nesting clock lines)
      (hs : m.span = some s) : m.start ≤ s.stop := by
    obtain ⟨opening, closing, -, htimed⟩ := timed_of_completed? (mem_completions_iff.mp hm) hs
    exact htimed.ordered hforward
  refine ⟨stableOrder Marker.start yielded, by rw [markers, hread]; rfl, ?_⟩
  exact
    { completed := hyielded
      perm := perm_stableOrder Marker.start yielded
      ascending := ascending_stableOrder Marker.start yielded
      stable := by
        refine ⟨stableOrder (fun entry => entry.2.start) (completions nesting clock lines),
          perm_stableOrder _ _, ?_, pairwise_stableOrder (pairwise_completions nesting clock lines)⟩
        rw [hyielded, map_stableOrder]
      ordered := by
        intro m hm s hs
        rw [(perm_stableOrder Marker.start yielded).mem_iff, hyielded] at hm
        obtain ⟨⟨i, m⟩, hentry, rfl⟩ := List.mem_map.mp hm
        have hle := hordered hentry hs
        exact ⟨hle, _, dif_neg (Int.not_lt.mpr hle)⟩
      timed := by
        intro i m s hm hs
        obtain ⟨opening, closing, hcloses, htimed⟩ :=
          timed_of_completed? (mem_completions_iff.mp hm) hs
        exact ⟨opening, closing, hcloses, htimed, htimed.busy_nonneg⟩ }

end Runs

end Journal

end TraceProfile
