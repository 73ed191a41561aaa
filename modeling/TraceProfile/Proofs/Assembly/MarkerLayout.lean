import TraceProfile.Proofs.Assembly.Markers

/-!
# The layout of flushed markers

A profile keeps one schema per type name, and the values of a marker follow the fields of the
schema that its type name is found under. They agree as long as every type name stands for one
list of field names. Escaping sees to that, but for one case: without a name and with just the
empty name, the type name is the same.
-/

namespace TraceProfile

/-- A schema that is named like those of spans or of events is one of them. -/
def MarkerSchema.IsTrueToKind (schema : MarkerSchema) : Prop :=
  ∀ isSpan suffix, schema.typeName = kindPrefix isSpan ++ suffix →
    ∃ names, schema = ofKind isSpan names

/-- The schemas that markers are stored under are what their type names say. -/
theorem MarkerSchema.isTrueToKind_ofKind (isSpan : Bool) (names : List String) :
    (ofKind isSpan names).IsTrueToKind := by
  intro isSpan' suffix hname
  rw [typeName_ofKind] at hname
  rw [kindPrefix_append_inj hname]
  exact ⟨names, rfl⟩

/-- No schema in the profile only looks like one of spans or events. -/
def Profile.KindsRegistered (p : Profile) : Prop :=
  ∀ schema ∈ p.schemas.entries, schema.IsTrueToKind

namespace Marker

variable {p : Profile} {markers : List (Nat × Marker)}

/-- Type names tell schemas apart if no kind is in use both without further fields and with just
the one whose name is empty. -/
theorem namesTell_of_kindsRegistered (hkinds : p.KindsRegistered)
    (hempty : ∀ isSpan, ¬(InUse p markers (.ofKind isSpan []) ∧
      InUse p markers (.ofKind isSpan [""]))) : NamesTell p markers := by
  intro entry hentry schema huse hname
  have hown : InUse p markers entry.2.schema := .inr ⟨entry, hentry, rfl⟩
  obtain ⟨isSpan, names, rfl⟩ : ∃ isSpan names, schema = .ofKind isSpan names := by
    rcases huse with hold | ⟨other, -, rfl⟩
    · exact ⟨_, hkinds schema hold _ _ (hname.trans (MarkerSchema.typeName_ofKind _ _))⟩
    · exact ⟨_, _, rfl⟩
  obtain ⟨hkind, hnames | ⟨hnone, hone⟩ | ⟨hone, hnone⟩⟩ := MarkerSchema.typeName_eq_iff.mp hname
  · exact MarkerSchema.ofKind_inj.mpr ⟨hkind, hnames⟩
  · rw [schema, hone, ← hkind] at hown
    rw [hnone] at huse
    exact absurd ⟨huse, hown⟩ (hempty isSpan)
  · rw [schema, hnone, ← hkind] at hown
    rw [hone] at huse
    exact absurd ⟨hown, huse⟩ (hempty isSpan)

/-- The list of just the empty name comes from a marker that has a field with this name. -/
theorem InUse.exists_emptyName {isSpan : Bool} (h : InUse p markers (.ofKind isSpan [""])) :
    .ofKind isSpan [""] ∈ p.schemas.entries ∨
      ∃ entry ∈ markers, "" ∈ entry.2.fields.map (·.1) := by
  refine h.imp_right fun ⟨entry, hentry, heq⟩ => ⟨entry, hentry, ?_⟩
  have hnames : [""] = entry.2.fieldNames := (MarkerSchema.ofKind_inj.mp heq).2
  have hmem : "" ∈ entry.2.fieldNames := hnames ▸ List.mem_singleton_self _
  exact (Assoc.keys_sorted_perm entry.2.fields).mem_iff.mp hmem

/-- A marker has one value for each of the fixed fields of its kind. -/
theorem FixedValues.length_eq {m : Marker} {values : List FieldValue}
    (h : m.FixedValues p values) :
    values.length = (MarkerSchema.fixedKeys m.span.isSome).length := by
  obtain ⟨message, -, hvalues⟩ := h
  cases hspan : m.span with
  | none =>
    rw [hspan] at hvalues
    rw [hvalues]
    rfl
  | some span =>
    rw [hspan] at hvalues
    obtain ⟨idle, busy, -, -, hvalues⟩ := hvalues
    rw [hvalues]
    rfl

/-- The schema of a stored marker has the fixed fields of its kind and then its own further ones,
and there are as many values. -/
theorem StoredAs.layout {m : Marker} {s : StoredMarker} (h : m.StoredAs p s) :
    ∃ schema, p.schemas.get? s.schema = some schema ∧
      schema.fields.map (·.key) = MarkerSchema.fixedKeys m.span.isSome ++ m.fieldNames ∧
      s.values.length = schema.fields.length := by
  have hfields := MarkerSchema.keys_ofKind m.span.isSome m.fieldNames
  refine ⟨m.schema, h.schema, hfields, ?_⟩
  obtain ⟨fixed, extra, hvalues, hfixed, hextra⟩ := h.values
  have hlength := congrArg List.length hfields
  rw [List.length_map, List.length_append] at hlength
  rw [hvalues, List.length_append, List.length_map, hfixed.length_eq, hextra.length_eq,
    m.length_fieldValues]
  exact hlength.symm

/-- The stored markers are the given ones, laid out by kind and field names. -/
structure LaidOut (p : Profile) (markers : List (Nat × Marker))
    (stored : List (Nat × StoredMarker)) : Prop where
  /-- Each is stored on its thread, under a schema with the fixed fields of its kind and then its
  own further fields in ascending order, with a value for every field. -/
  each : List.Forall₂ (fun entry s => s.1 = entry.1 ∧ entry.2.StoredAs p s.2 ∧
    ∃ schema, p.schemas.get? s.2.schema = some schema ∧
      schema.fields.map (·.key) =
        MarkerSchema.fixedKeys entry.2.span.isSome ++ entry.2.fieldNames ∧
      s.2.values.length = schema.fields.length) markers stored
  /-- Two share a schema if and only if they are of one kind and have the same further fields. -/
  shared : ∀ entry s entry' s', (entry, s) ∈ markers.zip stored →
    (entry', s') ∈ markers.zip stored →
      (s.2.schema = s'.2.schema ↔ entry.2.span.isSome = entry'.2.span.isSome ∧
        ∀ key, key ∈ entry.2.fields.map (·.1) ↔ key ∈ entry'.2.fields.map (·.1))

/-- Two markers are stored under one schema if and only if they are of one kind and have the same
field names. -/
theorem StoredAs.schema_eq_iff {m m' : Marker} {s s' : StoredMarker} (h : m.StoredAs p s)
    (h' : m'.StoredAs p s') (hkeys : (m.fields.map (·.1)).Nodup)
    (hkeys' : (m'.fields.map (·.1)).Nodup) :
    s.schema = s'.schema ↔ m.span.isSome = m'.span.isSome ∧
      ∀ key, key ∈ m.fields.map (·.1) ↔ key ∈ m'.fields.map (·.1) := by
  rw [← Assoc.keys_sorted_eq_iff hkeys hkeys']
  change _ ↔ _ ∧ m.fieldNames = m'.fieldNames
  rw [← MarkerSchema.ofKind_inj]
  constructor
  · intro heq
    have hschema := h.schema
    rw [heq, h'.schema] at hschema
    exact (Option.some.inj hschema).symm
  · intro heq
    have hsame : m.schema = m'.schema := heq
    have hfound := h.found
    rw [hsame, h'.found] at hfound
    exact (Option.some.inj hfound).symm

end Marker

/-- Markers are flushed into a profile that has the schemas of spans and events only from earlier
flushes. All of them are stored, or those before the first whose times cannot be given in
milliseconds, and they are laid out by kind and field names; no other fault can end the flush, and
what was supposed of the schemas is true again. This needs that no kind is in use both without
further fields and with just the one whose name is empty. -/
theorem flushMarkers_layout {p : Profile} {markers : List (Nat × Marker)}
    (hkinds : p.KindsRegistered)
    (hthreads : ∀ entry ∈ markers, entry.1 < p.threads.length)
    (hordered : ∀ entry ∈ markers, ∀ span ∈ entry.2.span, entry.2.start ≤ span.stop)
    (hkeys : ∀ entry ∈ markers, (entry.2.fields.map (·.1)).Nodup)
    (hempty : ∀ isSpan, ¬(Marker.InUse p markers (.ofKind isSpan []) ∧
      Marker.InUse p markers (.ofKind isSpan [""]))) :
    ∃ result p' stored, (flushMarkers markers).runOn p = (result, p') ∧
      result = (if markers.all (·.2.isMeasurable) then .ok (.ofMarkers (markers.map (·.2)))
        else .error Failure.decimalRange) ∧
      p.Gains p' stored ∧
      Marker.LaidOut p' (markers.takeWhile (·.2.isMeasurable)) stored ∧ p'.KindsRegistered := by
  have htell : Marker.NamesTell p markers := Marker.namesTell_of_kindsRegistered hkinds hempty
  obtain ⟨result, p', stored, hrun, hresult, hgains, hstored, huse⟩ :=
    flushMarkers_spec hordered hthreads htell
  refine ⟨result, p', stored, hrun, hresult, hgains,
    ⟨hstored.imp fun entry s h => ⟨h.1, h.2, h.2.layout⟩, ?_⟩, ?_⟩
  · have hkept {entry s} (h : (entry, s) ∈ (markers.takeWhile (·.2.isMeasurable)).zip stored) :
        entry ∈ markers ∧ entry.2.StoredAs p' s.2 :=
      ⟨(List.takeWhile_prefix _).subset (List.of_mem_zip h).1, (List.forall₂_zip hstored h).2⟩
    intro entry s entry' s' h h'
    obtain ⟨hentry, hs⟩ := hkept h
    obtain ⟨hentry', hs'⟩ := hkept h'
    exact hs.schema_eq_iff hs' (hkeys entry hentry) (hkeys entry' hentry')
  · intro schema hmem
    rcases huse schema hmem with hold | ⟨entry, -, rfl⟩
    · exact hkinds schema hold
    · exact MarkerSchema.isTrueToKind_ofKind _ _

/-- A profile with a thread, and with a schema from an earlier flush. -/
def layoutProfile : Profile :=
  { Profile.create "tracer" 1 with
    schemas := ⟨[.event ["id"]]⟩
    processes := [⟨.number 1, "server", [0]⟩]
    threads := [⟨0, .number 1, "main", true, [], []⟩] }

/-- Two events with the same fields in different orders, one with a field that the profile knows,
and a span with the same. -/
def layoutMarkers : List (Nat × Marker) :=
  [(0, ⟨10, "start", "main", [("id", "1"), ("from", "a")], none⟩),
    (0, ⟨20, "stop", "main", [("from", "b"), ("id", "1")], none⟩),
    (0, ⟨30, "tick", "main", [("id", "2")], none⟩),
    (0, ⟨40, "work", "main", [("id", "3")],
      some ⟨.running, 50, ⟨7000, 3000⟩, "Other", none, none⟩⟩)]

/-- The layout of markers in a profile that has a schema of events already. -/
theorem flushMarkers_layout_of_known_schema :
    layoutProfile.KindsRegistered ∧
      (∀ isSpan, ¬(Marker.InUse layoutProfile layoutMarkers (.ofKind isSpan []) ∧
        Marker.InUse layoutProfile layoutMarkers (.ofKind isSpan [""]))) ∧
      ∃ p' stored,
        (flushMarkers layoutMarkers).runOn layoutProfile =
          (.ok (.ofMarkers (layoutMarkers.map (·.2))), p') ∧
        layoutProfile.Gains p' stored ∧ Marker.LaidOut p' layoutMarkers stored := by
  have hkinds : layoutProfile.KindsRegistered := by
    intro schema hschema
    rw [List.mem_singleton.mp hschema]
    exact MarkerSchema.isTrueToKind_ofKind false ["id"]
  have hempty : ∀ isSpan, ¬(Marker.InUse layoutProfile layoutMarkers (.ofKind isSpan []) ∧
      Marker.InUse layoutProfile layoutMarkers (.ofKind isSpan [""])) := by
    rintro isSpan ⟨-, hone⟩
    have hold : ∀ isSpan, .ofKind isSpan [""] ∉ layoutProfile.schemas.entries := by decide
    have hnew : ¬∃ entry ∈ layoutMarkers, "" ∈ entry.2.fields.map (·.1) := by decide
    exact hone.exists_emptyName.elim (hold isSpan) hnew
  have hmeasurable : layoutMarkers.all (·.2.isMeasurable) = true := by decide
  have hkept : layoutMarkers.takeWhile (·.2.isMeasurable) = layoutMarkers := by decide
  obtain ⟨result, p', stored, hrun, hresult, hgains, hlaid, -⟩ :=
    flushMarkers_layout hkinds (by decide) (by decide) (by decide) hempty
  rw [hresult, hmeasurable] at hrun
  rw [hkept] at hlaid
  exact ⟨hkinds, hempty, p', stored, hrun, hgains, hlaid⟩

/-- An event whose only further field has the empty name, and an event without further fields, ask
for one type name. The second event finds the schema of the first and has no value for its second
field, so the flush ends. -/
theorem flushMarkers_fails_of_empty_name :
    ((flushMarkers [(0, ⟨10, "start", "main", [("", "1")], none⟩),
      (0, ⟨20, "stop", "main", [], none⟩)]).runOn layoutProfile).1 =
      .error Failure.noEntry := by
  decide +kernel

/-- In the other order nothing fails, but the value of the further field is not stored. -/
example :
    ((flushMarkers [(0, ⟨10, "start", "main", [], none⟩),
      (0, ⟨20, "stop", "main", [("", "1")], none⟩)]).runOn layoutProfile).2.threads.map
        (·.markers.map (·.values.length)) = [[1, 1]] := by
  decide +kernel

end TraceProfile
