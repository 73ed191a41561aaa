import TraceProfile.Proofs.Profile.Storing

/-!
# Edits that succeed and edits that fail

An edit that stores something in a process, a thread or a counter track succeeds if that is there
and fails if it is not. What has succeeded can therefore be taken apart into steps that have. An
edit that fails has at most stored texts; only a new thread has been stored before it turns out
that its process is not there.
-/

namespace TraceProfile

/-- Texts may have come in, and nothing else has changed. -/
structure Profile.Intact (p p' : Profile) : Prop where
  /-- The texts. -/
  strings : p.strings.Extends p'.strings
  /-- Everything else. -/
  others : p' = { p with strings := p'.strings }

/-- A profile is intact if nothing happens to it. -/
theorem Profile.Intact.refl (p : Profile) : p.Intact p := ⟨.refl _, rfl⟩

namespace Edit

variable {α β : Type} {p p' : Profile}

/-- A process that the profile has is changed, and nothing else is. -/
theorem runOn_changeProcess {process : Nat} {o : Process} (h : p.processes[process]? = some o)
    (change : Process → Process) :
    (changeProcess process change).runOn p =
      (.ok (), { p with processes := p.processes.set process (change o) }) := by
  rw [changeProcess, runOn_get_bind, h]
  rfl

/-- A thread comes last of all, and last in its process. -/
theorem runOn_addThread {process : Nat} {o : Process} (h : p.processes[process]? = some o)
    (tid : SystemId) (name : String) (isMain : Bool) :
    (addThread process tid name isMain).runOn p = (.ok p.threads.length, { p with
      processes := p.processes.set process { o with threads := o.threads ++ [p.threads.length] }
      threads := p.threads ++ [⟨process, tid, name, isMain, [], []⟩] }) := by
  let longer : Profile := { p with threads := p.threads ++ [⟨process, tid, name, isMain, [], []⟩] }
  have happend : (modifyGet (Profile.appendThread ⟨process, tid, name, isMain, [], []⟩) :
      Edit Nat).runOn p = (.ok p.threads.length, longer) := rfl
  have howner : longer.processes[process]? = some o := h
  rw [addThread, runOn_bind_ok happend, runOn_bind_ok (runOn_changeProcess howner _)]
  rfl

/-- A thread of a process that the profile does not have is stored all the same, and then the call
fails. -/
theorem runOn_addThread_of_missing {process : Nat} (h : p.processes.length ≤ process)
    (tid : SystemId) (name : String) (isMain : Bool) :
    (addThread process tid name isMain).runOn p = (.error (.failure .noEntry),
      { p with threads := p.threads ++ [⟨process, tid, name, isMain, [], []⟩] }) := by
  let longer : Profile := { p with threads := p.threads ++ [⟨process, tid, name, isMain, [], []⟩] }
  have happend : (modifyGet (Profile.appendThread ⟨process, tid, name, isMain, [], []⟩) :
      Edit Nat).runOn p = (.ok p.threads.length, longer) := rfl
  have howner : longer.processes[process]? = none := List.getElem?_eq_none h
  rw [addThread, runOn_bind_ok happend, runOn_bind, changeProcess, runOn_get_bind, howner]
  rfl

/-- A sample comes last in its counter track. -/
theorem runOn_addCounterSample {counter : Nat} {track : CounterTrack}
    (h : p.counters[counter]? = some track) (sample : CounterSample) :
    (addCounterSample counter sample).runOn p = (.ok (), { p with
      counters := p.counters.set counter { track with
        samples := track.samples ++ [(sample.time, sample.value, sample.count)] } }) := by
  rw [addCounterSample, runOn_get_bind, h]
  rfl

/-- A sample for a counter that the profile does not have is refused, and nothing changes. -/
theorem runOn_addCounterSample_of_missing {counter : Nat} (h : p.counters.length ≤ counter)
    (sample : CounterSample) :
    (addCounterSample counter sample).runOn p = (.error (.failure .noEntry), p) := by
  rw [addCounterSample, runOn_get_bind, List.getElem?_eq_none h]
  rfl

/-- If two edits succeed one after the other, each does. -/
theorem of_runOn_bind {edit : Edit α} {next : α → Edit β} {b : β} {p'' : Profile}
    (h : (edit >>= next).runOn p = (.ok b, p'')) :
    ∃ a p', edit.runOn p = (.ok a, p') ∧ (next a).runOn p' = (.ok b, p'') := by
  rw [runOn_bind] at h
  rcases hrun : edit.runOn p with ⟨f | a, p'⟩
  · rw [hrun] at h
    cases h
  · rw [hrun] at h
    exact ⟨a, p', rfl, h⟩

/-- An edit that is only a result succeeds as the result does and changes nothing. -/
theorem of_runOn_ofExcept {result : Except Fault α} {a : α}
    (h : (ofExcept result).runOn p = (.ok a, p')) : result = .ok a ∧ p' = p := by
  change (result, p) = (.ok a, p') at h
  cases h
  exact ⟨rfl, rfl⟩

/-- A sample for a thread that the profile does not have is refused, and what is stored stays
intact. -/
theorem runOn_addSample_of_missing {thread : Nat} (h : p.threads.length ≤ thread) (time : Int)
    (frames : List Frame) (delta weight : Int) :
    ∃ p', (addSample thread time frames delta weight).runOn p =
      (.error (.failure .noEntry), p') ∧ p.Intact p' := by
  obtain ⟨stored, hstored, -⟩ := internFrames_spec frames p
  have hstrings := Catalogue.extends_ensureAll (frames.flatMap Frame.texts) p.strings
  generalize p.strings.ensureAll (frames.flatMap Frame.texts) = strings at *
  have hthread : ({ p with strings } : Profile).threads[thread]? = none :=
    List.getElem?_eq_none h
  refine ⟨{ p with strings }, ?_, hstrings, rfl⟩
  rw [addSample, runOn_bind_ok hstored, changeThread, runOn_get_bind, hthread]
  rfl

/-- A sample is added to a thread that is there. -/
theorem exists_of_addSample {thread : Nat} {time : Int} {frames : List Frame} {delta weight : Int}
    (h : (addSample thread time frames delta weight).runOn p = (.ok (), p')) :
    ∃ t, p.threads[thread]? = some t := by
  rcases Nat.lt_or_ge thread p.threads.length with hlt | hge
  · exact ⟨_, List.getElem?_eq_getElem hlt⟩
  · obtain ⟨_, hrun, -⟩ := runOn_addSample_of_missing hge time frames delta weight
    cases hrun.symm.trans h

/-- A marker of another thread gets no stack, and nothing changes. -/
theorem runOn_setMarkerStack_of_foreign {thread : Nat} {marker : MarkerHandle}
    (h : marker.thread ≠ thread) (frames : List Frame) :
    (setMarkerStack thread marker frames).runOn p =
      (.error (.refusal (.foreignMarker marker.thread thread)), p) := by
  rw [setMarkerStack, if_pos h]
  rfl

/-- A marker that the thread does not have gets no stack, and what is stored stays intact. -/
theorem runOn_setMarkerStack_of_missing {thread : Nat} {marker : MarkerHandle}
    (howner : marker.thread = thread)
    (h : ∀ t, p.threads[thread]? = some t → t.markers.length ≤ marker.index)
    (frames : List Frame) :
    ∃ p', (setMarkerStack thread marker frames).runOn p = (.error (.failure .noEntry), p') ∧
      p.Intact p' := by
  obtain ⟨stored, hstored, -⟩ := internFrames_spec frames p
  have hstrings := Catalogue.extends_ensureAll (frames.flatMap Frame.texts) p.strings
  generalize p.strings.ensureAll (frames.flatMap Frame.texts) = strings at *
  refine ⟨{ p with strings }, ?_, hstrings, rfl⟩
  rw [setMarkerStack, if_neg (not_not_intro howner)]
  dsimp only
  rw [runOn_bind_ok hstored, runOn_get_bind]
  cases hthread : p.threads[thread]? with
  | none => rfl
  | some t =>
    dsimp only
    rw [List.getElem?_eq_none (h t hthread)]
    rfl

/-- A marker gets a stack only through its own thread, which must have it. -/
theorem exists_of_setMarkerStack {thread : Nat} {marker : MarkerHandle} {frames : List Frame}
    (h : (setMarkerStack thread marker frames).runOn p = (.ok (), p')) :
    ∃ t, p.threads[thread]? = some t ∧ marker.thread = thread ∧
      marker.index < t.markers.length := by
  by_cases howner : marker.thread = thread
  · by_contra hnone
    have hmissing : ∀ t, p.threads[thread]? = some t → t.markers.length ≤ marker.index :=
      fun t ht => Nat.le_of_not_lt fun hlt => hnone ⟨t, ht, howner, hlt⟩
    obtain ⟨_, hrun, -⟩ := runOn_setMarkerStack_of_missing howner hmissing frames
    cases hrun.symm.trans h
  · cases (runOn_setMarkerStack_of_foreign howner frames).symm.trans h

/-- A marker is added under a schema that is there, to a thread that is there, with the values that
its payload gives for the schema. -/
theorem of_runOn_addMarker {thread : Nat} {timing : MarkerTiming} {payload : Payload}
    {handle : MarkerHandle} (h : (addMarker thread timing payload).runOn p = (.ok handle, p')) :
    ∃ t schema values, p.threads[thread]? = some t ∧
      p.schemas.get? payload.schema = some schema ∧
      payload.body.valuesFrom 0 schema.fields = .ok values ∧
      p' = { p with
        threads := p.threads.set thread { t with
          markers := t.markers ++
            [⟨timing, payload.name, payload.category, payload.schema, values, none⟩] } } := by
  obtain ⟨schema, q, hschema, hrest⟩ := of_runOn_bind h
  rw [getSchema, runOn_get_bind] at hschema
  cases hfound : p.schemas.get? payload.schema with
  | none =>
    rw [hfound] at hschema
    cases hschema
  | some found =>
    rw [hfound] at hschema
    cases hschema
    obtain ⟨values, q', hvalues, hstore⟩ := of_runOn_bind hrest
    obtain ⟨hvalues, hsame⟩ := of_runOn_ofExcept hvalues
    rw [hsame, runOn_get_bind] at hstore
    cases hthread : p.threads[thread]? with
    | none =>
      rw [hthread] at hstore
      cases hstore
    | some t =>
      rw [hthread] at hstore
      cases hstore
      exact ⟨t, schema, values, rfl, rfl, hvalues, rfl⟩

end Edit

end TraceProfile
