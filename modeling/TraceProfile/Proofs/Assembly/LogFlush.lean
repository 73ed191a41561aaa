import TraceProfile.Proofs.Assembly.Filing
import TraceProfile.Proofs.Marker.Completion
import TraceProfile.Proofs.Profile.Intact

/-!
# Flushing the markers of a log

The markers of a log are ready to be flushed: they are in the order of their starts, and no span
among them ends before it starts, which is the one value that a flush would refuse. A flush of such
markers can only end at a thread or field that is not there, or at a time out of range.
-/

namespace TraceProfile

/-- A fault of a handle or field that is not there, or of a number out of range. -/
def Fault.IsOutOfReach (f : Fault) : Prop := f.kind = .index ∨ f.kind = .overflow

/-- Such a fault is not one of a wrong value. -/
theorem Fault.IsOutOfReach.kind_ne_value {f : Fault} (h : f.IsOutOfReach) : f.kind ≠ .value := by
  rcases h with h | h <;> rw [h] <;> decide

variable {p p' : Profile} {f : Fault}

namespace PayloadBody

/-- A list has no entry at a place beyond its end. -/
theorem isOutOfReach_of_entry {α : Type} {values : List α} {place : Nat}
    (h : entry values place = .error f) : f.IsOutOfReach := by
  unfold entry at h
  split at h <;> cases h
  exact .inl rfl

/-- A payload without a text at a place has nothing there. -/
theorem isOutOfReach_of_text {body : PayloadBody} {place : Nat}
    (h : body.text place = .error f) : f.IsOutOfReach := by
  unfold text at h
  split at h
  · split at h
    · cases h
    · exact isOutOfReach_of_entry (map_eq_error_iff.mp h)
  · split at h
    · cases h
    · split at h
      · cases h
        exact .inl rfl
      · exact isOutOfReach_of_entry (map_eq_error_iff.mp h)
  · cases h
    exact .inl rfl
  · exact isOutOfReach_of_entry (map_eq_error_iff.mp h)

/-- A payload without a number at a place has nothing there, or a time out of range. -/
theorem isOutOfReach_of_number {body : PayloadBody} {place : Nat}
    (h : body.number place = .error f) : f.IsOutOfReach := by
  have htime {ns : Int} (h : Duration.toMilliseconds ns = .error f) : f.IsOutOfReach := by
    rw [Duration.eq_decimalRange_of_toMilliseconds h]
    exact .inr rfl
  unfold number at h
  split at h
  · cases h
    exact .inl rfl
  · split at h
    · exact htime (map_eq_error_iff.mp h)
    · split at h
      · exact htime (map_eq_error_iff.mp h)
      · cases h
        exact .inl rfl
  · split at h <;> cases h
    exact .inl rfl
  · exact isOutOfReach_of_entry (map_eq_error_iff.mp h)

/-- A payload without a value for a field has nothing in its place, or a time out of range. -/
theorem isOutOfReach_of_value {body : PayloadBody} {format : FieldFormat} {place : Nat}
    (h : body.value format place = .error f) : f.IsOutOfReach := by
  unfold value at h
  split at h
  · exact isOutOfReach_of_text h
  · exact isOutOfReach_of_number h

/-- So has a payload without a value for one of several fields. -/
theorem isOutOfReach_of_valuesFrom {body : PayloadBody} {fields : List FieldSchema} {place : Nat}
    (h : body.valuesFrom place fields = .error f) : f.IsOutOfReach := by
  induction fields generalizing place with
  | nil => cases h
  | cons field rest ih =>
    rcases bind_eq_error_iff.mp h with hfirst | ⟨first, -, h⟩
    · exact isOutOfReach_of_value hfirst
    · rcases bind_eq_error_iff.mp h with hrest | ⟨others, -, h⟩
      · exact ih hrest
      · cases h

end PayloadBody

/-- A marker that cannot be added needs something that is out of reach. -/
theorem Edit.isOutOfReach_of_addMarker {thread : Nat} {timing : MarkerTiming} {payload : Payload}
    (h : (addMarker thread timing payload).runOn p = (.error f, p')) : f.IsOutOfReach := by
  cases hschema : p.schemas.get? payload.schema with
  | none =>
    rw [runOn_addMarker_of_missing_schema (List.getElem?_eq_none_iff.mp hschema)] at h
    cases h
    exact .inl rfl
  | some schema =>
    rw [runOn_addMarker_of_schema hschema] at h
    split at h
    · cases h
    · cases h
      exact .inl rfl
    · rename_i hvalues
      cases h
      exact PayloadBody.isOutOfReach_of_valuesFrom hvalues

namespace Marker

variable {m : Marker} {logging thread : Nat} {cache : HandleCache}

/-- A marker that does not end before it starts is stored, or something it needs is out of reach. -/
theorem isOutOfReach_of_store (hordered : ∀ span ∈ m.span, m.start ≤ span.stop)
    (hcache : cache.Sound p) (hlogging : p.categories.find? loggingCategory = some logging)
    (h : (m.store logging thread cache).runOn p = (.error f, p')) : f.IsOutOfReach := by
  obtain ⟨strings, categories, -, -, timing, payload, cache', -, -, hstore⟩ :=
    prepares hordered hcache hlogging
  rw [hstore, Edit.runOn_bind] at h
  split at h
  · cases h
  · rename_i hadd
    cases h
    exact Edit.isOutOfReach_of_addMarker hadd

/-- Markers that do not end before they start are stored, or something they need is out of reach. -/
theorem isOutOfReach_of_storeAll {markers : List (Nat × Marker)}
    (hordered : ∀ entry ∈ markers, ∀ span ∈ entry.2.span, entry.2.start ≤ span.stop)
    (hcache : cache.Sound p) (hlogging : p.categories.find? loggingCategory = some logging)
    (h : (storeAll logging cache markers).runOn p = (.error f, p')) : f.IsOutOfReach := by
  induction markers generalizing p cache with
  | nil => cases h
  | cons first rest ih =>
    rw [storeAll, List.foldlM_cons, Edit.runOn_bind] at h
    split at h
    · rename_i cache₁ p₁ hfirst
      obtain ⟨hcache₁, s, hgains, -⟩ := filed_of_store hcache hlogging hfirst
      exact ih (fun entry hentry => hordered entry (List.mem_cons_of_mem _ hentry)) hcache₁
        (hgains.categories.find? hlogging) h
    · rename_i hfirst
      cases h
      exact isOutOfReach_of_store (hordered first List.mem_cons_self) hcache hlogging hfirst

end Marker

/-- A flush of markers that do not end before they start is not ended by a value. -/
theorem isOutOfReach_of_flushMarkers {markers : List (Nat × Marker)}
    (hordered : ∀ entry ∈ markers, ∀ span ∈ entry.2.span, entry.2.start ≤ span.stop)
    (h : (flushMarkers markers).runOn p = (.error f, p')) : f.IsOutOfReach := by
  rw [runOn_flushMarkers, Edit.runOn_bind] at h
  split at h
  · cases h
  · rename_i hstore
    cases h
    exact Marker.isOutOfReach_of_storeAll hordered (HandleCache.sound_empty _)
      (Catalogue.find?_ensure (⟨loggingCategory, .green⟩ : Category) p.categories) hstore

namespace Journal

/-- The markers of a log that is read to its end, by a clock that does not run backwards, are put in
order: by their starts, and where these are equal by the lines that complete them. Every span among
them can be shown from its start to its end, and a flush of them, on whatever threads and into
whatever profile, is never ended by a value. -/
theorem markers_flush_safely (nesting : Nat) (clock : Clock) (lines : List JournalLine)
    (yielded : List Marker)
    (hread : (read nesting clock lines).result = .ok yielded) (hforward : 0 ≤ clock.factor) :
    ∃ sorted, (markers nesting clock lines).result = .ok sorted ∧
      Arranged nesting clock lines yielded sorted ∧
      ∀ entries : List (Nat × Marker), (∀ entry ∈ entries, entry.2 ∈ sorted) →
        ∀ p p' f, (flushMarkers entries).runOn p = (.error f, p') →
          f.IsOutOfReach ∧ f.kind ≠ .value := by
  obtain ⟨sorted, hsorted, harranged⟩ := arranged_markers hread hforward
  refine ⟨sorted, hsorted, harranged, fun entries hentries p p' f hflush => ?_⟩
  have hreach : f.IsOutOfReach := isOutOfReach_of_flushMarkers
    (fun entry hentry s hs => (harranged.ordered _ (hentries entry hentry) s hs).1) hflush
  exact ⟨hreach, hreach.kind_ne_value⟩

/-- A log with a span that starts at the time of an event inside it. -/
def nestedLog : List JournalLine :=
  [.text "7 \x7b\"timestamp\":5,\"fields\":\x7b\"message\":\"new\"\x7d\x7d",
   .text "0 \x7b\"timestamp\":5,\"fields\":\x7b\"message\":\"tick\"\x7d\x7d",
   .text "0 \x7b\"timestamp\":2,\"fields\":\x7b\"message\":\"start\"\x7d\x7d",
   .text ("7 \x7b\"timestamp\":9,\"fields\":\x7b\"message\":\"close\"\x7d," ++
     "\"span\":\x7b\"name\":\"load\"\x7d\x7d")]

/-- Its span. -/
def nestedSpan : Marker := ⟨40, "load", "", [], some ⟨.total, 80, ⟨4, 0⟩, "-", none, none⟩⟩

/-- The span comes after the event that starts with it, and its flush is not ended by a value. -/
theorem markers_flush_safely_of_nested :
    let tick : Marker := ⟨40, "tick", "", [], none⟩
    let start : Marker := ⟨10, "start", "", [], none⟩
    (read 2 ⟨1, 10⟩ nestedLog).result = .ok [tick, start, nestedSpan] ∧
      Arranged 2 ⟨1, 10⟩ nestedLog [tick, start, nestedSpan] [start, tick, nestedSpan] ∧
      ∀ p p' f, (flushMarkers [(3, nestedSpan)]).runOn p = (.error f, p') → f.kind ≠ .value := by
  intro tick start
  have hread : (read 2 ⟨1, 10⟩ nestedLog).result = .ok [tick, start, nestedSpan] := by
    decide +kernel
  obtain ⟨sorted, hsorted, harranged, hflush⟩ :=
    markers_flush_safely 2 ⟨1, 10⟩ nestedLog _ hread (by decide)
  have hrest : Ascending Marker.start [tick, nestedSpan] :=
    List.pairwise_pair.mpr (by decide)
  have hsort : stableOrder Marker.start [tick, start, nestedSpan] = [start, tick, nestedSpan] := by
    change stableOrder Marker.start ([tick] ++ start :: [nestedSpan]) = _
    rw [stableOrder_append_cons (by decide) (by decide), List.singleton_append,
      hrest.stableOrder_eq]
  have hmarkers : (markers 2 ⟨1, 10⟩ nestedLog).result = .ok [start, tick, nestedSpan] := by
    rw [markers, hread, ← hsort]
    rfl
  cases hsorted.symm.trans hmarkers
  refine ⟨hread, harranged, fun p p' f h => (hflush [(3, nestedSpan)] ?_ p p' f h).2⟩
  intro entry hentry
  rw [List.mem_singleton.mp hentry]
  decide

end Journal

end TraceProfile
