import TraceProfile.Proofs.Json.Distinct
import TraceProfile.Proofs.Marker.Losses

/-!
# The field names of markers from a log

The further fields of a marker come from an object of its record, from which the message has been
taken out. So their names are distinct, and none of them is the name under which the message stands
in an export. Other names that an export uses are not kept free.
-/

namespace TraceProfile

namespace Marker

/-- The name under which the message of a marker is kept. -/
def messageKey (m : Marker) : String := if m.span.isSome then "name" else "message"

/-- The names of the further fields are distinct, and none is that of the message. -/
structure WellNamed (m : Marker) : Prop where
  /-- No name stands twice. -/
  distinct : (m.fields.map (·.1)).Nodup
  /-- The name of the message is left free. -/
  message : m.messageKey ∉ m.fields.map (·.1)

end Marker

/-- The names of text fields are distinct. -/
theorem Json.nodup_keys_textFields {value : Json} (h : value.Distinct) :
    (value.textFields.map (·.1)).Nodup := by
  have hkeys : value.textFields.map (·.1) = (value.fields?.getD []).map (·.1) := by
    rw [textFields, List.map_map]
    rfl
  rw [hkeys]
  cases h with
  | object hnames hvalues => exact hnames
  | _ => exact List.nodup_nil

/-- A field of a record is as sound as the record. -/
theorem Json.Distinct.lookup_getD {record : Json.Fields} (h : (Json.object record).Distinct)
    (name : String) : ((record.lookup name).getD .null).Distinct := by
  cases h with
  | object hnames hvalues =>
    cases hlookup : record.lookup name with
    | none => exact .null
    | some value =>
      obtain ⟨before, after, hsplit, -⟩ := List.lookup_eq_some_iff.mp hlookup
      exact hvalues (name, value) (hsplit ▸ List.mem_append_right _ List.mem_cons_self)

namespace JournalEntry

/-- The record of a line has no object with two fields of one name. -/
theorem distinct_of_read {nesting : Nat} {s : String} {e : JournalEntry}
    (h : read nesting s = .ok e) :
    (Json.object e.record).Distinct := by
  unfold read at h
  split at h
  · cases h
  · split at h
    · cases h
    · split at h
      · cases h
      · split at h
        · cases h
        · cases h
        · cases h
        · rename_i value hread
          split at h
          · cases h
          · rename_i record hrecord
            cases h
            have hvalue := Json.distinct_of_read hread
            cases value <;> cases hrecord
            exact hvalue

end JournalEntry

namespace Journal

variable {nesting : Nat} {clock : Clock} {j : Journal} {lineNumber : Nat} {m : Marker}

/-- An event has distinct field names, and none is that of the message. -/
theorem wellNamed_of_event {record : Json.Fields} (hrecord : (Json.object record).Distinct)
    (h : event clock record = .ok m) : m.WellNamed := by
  have hfields := Json.nodup_keys_textFields (hrecord.lookup_getD "fields")
  unfold event at h
  dsimp only at h
  split at h
  · cases h
  · obtain ⟨tick, -, hmarker⟩ := bind_eq_ok_iff.mp h
    cases hmarker
    exact ⟨Assoc.nodup_keys_erase "message" hfields, Assoc.not_mem_keys_erase "message" _⟩

/-- The number of the thread does not take the place of the message. -/
theorem spanFields_spec (kind : SpanKind) (thread : Option Int) {fields : List (String × String)}
    (h : (fields.map (·.1)).Nodup) :
    ((spanFields kind thread fields).map (·.1)).Nodup ∧
      "name" ∉ (spanFields kind thread fields).map (·.1) := by
  have hdistinct := Assoc.nodup_keys_erase "name" h
  have hname := Assoc.not_mem_keys_erase "name" fields
  unfold spanFields
  dsimp only
  split
  · refine ⟨Assoc.nodup_keys_insert "tid" _ hdistinct, fun hmem => ?_⟩
    rcases Assoc.mem_keys_insert.mp hmem with heq | hold
    · exact absurd heq (by decide)
    · exact hname hold
  · exact ⟨hdistinct, hname⟩

/-- So has a span. -/
theorem wellNamed_of_span {kind : SpanKind} {thread : Option Int} {opening closing : Json.Fields}
    (hclosing : (Json.object closing).Distinct)
    (h : span clock kind thread opening closing = .ok m) : m.WellNamed := by
  obtain ⟨hdistinct, hname⟩ :=
    spanFields_spec kind thread (Json.nodup_keys_textFields (hclosing.lookup_getD "span"))
  unfold span at h
  obtain ⟨start, -, h⟩ := bind_eq_ok_iff.mp h
  obtain ⟨stop, -, h⟩ := bind_eq_ok_iff.mp h
  dsimp only at h
  split at h
  · cases h
  · obtain ⟨busy, -, h⟩ := bind_eq_ok_iff.mp h
    obtain ⟨idle, -, h⟩ := bind_eq_ok_iff.mp h
    cases h
    exact ⟨hdistinct, hname⟩

/-- A marker that comes of a line is the one that was asked for. -/
theorem eq_ok_of_settle {s : String} {result : Except Fault Marker}
    (h : (j.settle lineNumber s result).result = .ok (some m)) : result = .ok m := by
  unfold settle at h
  split at h
  · cases h
    rfl
  · split at h <;> cases h

/-- A marker that a line completes has its fields from the record of this line. -/
theorem wellNamed_of_logLine {source : JournalLine}
    (h : (logLine nesting clock j lineNumber source).result = .ok (some m)) : m.WellNamed := by
  cases hcontent : source.content? with
  | none =>
    rcases logLine_of_content?_eq_none hcontent nesting clock j lineNumber with
      hline | ⟨_, _, -, -, hline⟩
    · rw [hline] at h
      cases h
    · rw [hline] at h
      cases h
  | some s =>
    rw [logLine_of_content? hcontent] at h
    rcases line_cases nesting clock j lineNumber s with ⟨reason, -, hline⟩ | ⟨f, -, hline⟩ |
      ⟨e, hread, -, hline⟩ | ⟨key, e, start, hrecord, -, hline⟩ | ⟨j', log, hline, -⟩
    · rw [hline] at h
      cases h
    · rw [hline] at h
      cases h
    · rw [hline] at h
      exact wellNamed_of_event (JournalEntry.distinct_of_read hread) (eq_ok_of_settle h)
    · rw [hline] at h
      have hread := (SpanKey.record?_eq_some_iff.mp hrecord).1
      exact wellNamed_of_span (JournalEntry.distinct_of_read hread) (eq_ok_of_settle h)
    · rw [hline] at h
      cases h

/-- The markers that the lines of a log complete have such names. -/
theorem wellNamed_of_linesFrom {lines : List JournalLine} {markers : List Marker}
    (h : (linesFrom nesting clock j lineNumber lines).result = .ok markers) :
    ∀ m ∈ markers, m.WellNamed := by
  induction lines generalizing j lineNumber markers with
  | nil =>
    cases h
    exact fun m hm => nomatch hm
  | cons source rest ih =>
    obtain ⟨own, others, hown, hothers, rfl⟩ := linesFrom_cons_eq_ok_iff.mp h
    intro m hm
    rcases List.mem_append.mp hm with hfirst | hrest
    · rw [Option.mem_toList.mp hfirst] at hown
      exact wellNamed_of_logLine hown
    · exact ih hothers m hrest

/-- All markers of a log have distinct field names, and none is that of the message. -/
theorem wellNamed_of_markers {lines : List JournalLine} {found : List Marker}
    (h : (markers nesting clock lines).result = .ok found) : ∀ m ∈ found, m.WellNamed := by
  cases hread : (read nesting clock lines).result with
  | error f =>
    rw [markers] at h
    simp only [hread, Except.map] at h
    cases h
  | ok unordered =>
    rw [markers] at h
    simp only [hread, Except.map, Except.ok.injEq] at h
    subst h
    exact fun m hm =>
      wellNamed_of_linesFrom hread m ((List.mergeSort_perm unordered _).mem_iff.mp hm)

end Journal

end TraceProfile
