import TraceProfile.Proofs.Profile.FieldNames
import TraceProfile.Proofs.Profile.Storing

/-!
# The layout of stored markers

A payload is asked for the values of its schema field by field. The payload of an event or of a
span, asked for the fields of a schema with as many further fields as it has texts, gives its fixed
values and then the handles of these texts.
-/

namespace TraceProfile

namespace PayloadBody

/-- Text fields at the end of a schema get the texts that the payload has there. -/
theorem valuesFrom_textFields {body : PayloadBody} {place : Nat} {handles : List Nat}
    {names : List String} (hlength : handles.length = names.length)
    (hbody : ∀ i handle, handles[i]? = some handle →
      body.text (place + i) = .ok (.text handle)) :
    body.valuesFrom place (names.map MarkerSchema.textField) = .ok (handles.map .text) := by
  induction names generalizing place handles with
  | nil =>
    rw [List.eq_nil_of_length_eq_zero hlength]
    rfl
  | cons name names ih =>
    cases handles with
    | nil => cases hlength
    | cons handle handles =>
      have hfirst : body.value (MarkerSchema.textField name).format place = .ok (.text handle) :=
        hbody 0 handle rfl
      have hrest : body.valuesFrom (place + 1) (names.map MarkerSchema.textField) =
          .ok (handles.map .text) :=
        ih (Nat.succ.inj hlength) fun i handle' hi => by
          rw [Nat.add_assoc, Nat.add_comm 1 i]
          exact hbody (i + 1) handle' hi
      rw [List.map_cons, valuesFrom, hfirst, hrest]
      rfl

/-- The values of an event: its message and its further texts. -/
theorem valuesFrom_event (message : Nat) {extra : List Nat} {names : List String}
    (hlength : extra.length = names.length) :
    (event message extra).valuesFrom 0 (MarkerSchema.event names).fields =
      .ok (.text message :: extra.map .text) := by
  have hrest : (event message extra).valuesFrom 1 (names.map MarkerSchema.textField) =
      .ok (extra.map .text) :=
    valuesFrom_textFields hlength fun i handle hi => by
      rw [text, if_neg (by omega), Nat.add_sub_cancel_left, entry, hi]
      rfl
  rw [MarkerSchema.event, valuesFrom, hrest]
  rfl

/-- The values of a span: idle and busy time in milliseconds, its message and its further texts.
There are none if a time is beyond all decimals. -/
theorem valuesFrom_span (timings : Timings) (message : Nat) {extra : List Nat}
    {names : List String} (hlength : extra.length = names.length) :
    (span timings message extra).valuesFrom 0 (MarkerSchema.span names).fields = (do
      let idle ← Duration.toMilliseconds timings.idle
      let busy ← Duration.toMilliseconds timings.busy
      pure (.number (.real idle) :: .number (.real busy) :: .text message :: extra.map .text)) := by
  have hrest : (span timings message extra).valuesFrom 3 (names.map MarkerSchema.textField) =
      .ok (extra.map .text) :=
    valuesFrom_textFields hlength fun i handle hi => by
      rw [text, if_neg (by omega), if_neg (by simp [fixedSpanFields]), fixedSpanFields,
        Nat.add_sub_cancel_left, entry, hi]
      rfl
  have hmessage : (span timings message extra).valuesFrom 2
      (⟨"name", "name", .text, true⟩ :: names.map MarkerSchema.textField) =
      .ok (.text message :: extra.map .text) := by
    rw [valuesFrom, hrest]
    rfl
  rw [MarkerSchema.span, valuesFrom, valuesFrom, hmessage]
  cases hidle : Duration.toMilliseconds timings.idle with
  | error f => simp [value, number, hidle, bind, Except.bind, Except.map]
  | ok idle =>
    cases hbusy : Duration.toMilliseconds timings.busy with
    | error f => simp [value, number, hidle, hbusy, bind, Except.bind, Except.map]
    | ok busy =>
      simp [value, number, hidle, hbusy, bind, Except.bind, Except.map, pure, Except.pure]

end PayloadBody

/-- A duration without milliseconds is beyond all decimals. -/
theorem Duration.eq_decimalRange_of_toMilliseconds {ns : Int} {f : Fault}
    (h : Duration.toMilliseconds ns = .error f) : f = Failure.decimalRange := by
  unfold Duration.toMilliseconds decimalOfInteger at h
  split at h
  · cases h
  · cases h
    rfl

namespace Edit

variable {p : Profile}

/-- Texts are found under the handles that they get, in their order. -/
theorem internStrings_spec (texts : List String) (p : Profile) :
    ∃ handles strings, p.strings.Extends strings ∧
      (texts.mapM internString).runOn p = (.ok handles, { p with strings }) ∧
      List.Forall₂ (fun handle text => strings.get? handle = some text) handles texts := by
  induction texts generalizing p with
  | nil => exact ⟨[], p.strings, .refl _, rfl, .nil⟩
  | cons text texts ih =>
    obtain ⟨handle, strings, hextends, hrun, hget⟩ := internString_spec text p
    obtain ⟨handles, strings', hextends', hrun', hget'⟩ := ih { p with strings }
    refine ⟨handle :: handles, strings', hextends.trans hextends', ?_,
      .cons (hextends'.get? hget) hget'⟩
    rw [List.mapM_cons, runOn_bind_ok hrun, runOn_bind_ok hrun']
    rfl

/-- A marker of a schema that is there comes last in its thread, with the values that its payload
gives for the schema; if there are none, or there is no such thread, nothing is stored. -/
theorem runOn_addMarker_of_schema {payload : Payload} {schema : MarkerSchema}
    (hschema : p.schemas.get? payload.schema = some schema) (thread : Nat)
    (timing : MarkerTiming) :
    (addMarker thread timing payload).runOn p =
      match payload.body.valuesFrom 0 schema.fields, p.threads[thread]? with
      | .ok values, some t =>
        (.ok ⟨thread, t.markers.length⟩, { p with
          threads := p.threads.set thread { t with
            markers := t.markers ++
              [⟨timing, payload.name, payload.category, payload.schema, values, none⟩] } })
      | .ok _, none => (.error (.failure .noEntry), p)
      | .error f, _ => (.error f, p) := by
  have hfound : (getSchema payload.schema).runOn p = (.ok schema, p) := by
    rw [getSchema, runOn_get_bind, hschema]
    rfl
  rw [addMarker, runOn_bind_ok hfound]
  cases hvalues : payload.body.valuesFrom 0 schema.fields with
  | error f => rfl
  | ok values =>
    have hof : (ofExcept (.ok values) : Edit (List FieldValue)).runOn p = (.ok values, p) := rfl
    rw [runOn_bind_ok hof, runOn_get_bind]
    cases p.threads[thread]? <;> rfl

/-- A marker comes last in its thread, with the values that its payload gives for its schema; if
it gives none, nothing is stored. -/
theorem runOn_addMarker {thread : Nat} {t : Thread} {schema : MarkerSchema} {payload : Payload}
    (ht : p.threads[thread]? = some t) (hschema : p.schemas.get? payload.schema = some schema)
    (timing : MarkerTiming) :
    (addMarker thread timing payload).runOn p =
      match payload.body.valuesFrom 0 schema.fields with
      | .ok values =>
        (.ok ⟨thread, t.markers.length⟩, { p with
          threads := p.threads.set thread { t with
            markers := t.markers ++
              [⟨timing, payload.name, payload.category, payload.schema, values, none⟩] } })
      | .error f => (.error f, p) := by
  rw [runOn_addMarker_of_schema hschema, ht]
  cases payload.body.valuesFrom 0 schema.fields <;> rfl

end Edit

end TraceProfile
