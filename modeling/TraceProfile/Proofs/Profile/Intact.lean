import TraceProfile.Proofs.Profile.Layout
import TraceProfile.Proofs.Profile.Ledger
import TraceProfile.Proofs.Profile.Success

/-!
# Calls that end in a fault

A call ends in a fault if it names something that the profile does not have, brings a marker of
another thread, or has no value for a field of the schema. Edits look up all that they name before
they store anything but texts, so such a call leaves the rest of the profile as it was. A new thread
is the exception: it is stored before its process is looked up. Without the process it stays behind,
and the profile cannot be exported.
-/

namespace TraceProfile

namespace PayloadBody

variable {body : PayloadBody} {place : Nat} {fields : List FieldSchema}

/-- The payload has no value for one of the fields. -/
def Lacks (body : PayloadBody) (fields : List FieldSchema) : Prop :=
  ∃ i field fault, fields[i]? = some field ∧ body.value field.format i = .error fault

private theorem valuesFrom_eq_error_iff :
    (∃ fault, body.valuesFrom place fields = .error fault) ↔
      ∃ i field fault, fields[i]? = some field ∧
        body.value field.format (place + i) = .error fault := by
  induction fields generalizing place with
  | nil => simp [valuesFrom]
  | cons first rest ih =>
    have hplace : ∀ i, place + (i + 1) = place + 1 + i := by omega
    constructor
    · rintro ⟨fault, h⟩
      rcases bind_eq_error_iff.mp h with hfirst | ⟨_, -, h⟩
      · exact ⟨0, first, fault, rfl, hfirst⟩
      · rcases bind_eq_error_iff.mp h with hrest | ⟨_, -, hpure⟩
        · obtain ⟨i, field, fault, hfield, hvalue⟩ := ih.mp ⟨fault, hrest⟩
          exact ⟨i + 1, field, fault, hfield, by rwa [hplace]⟩
        · cases hpure
    · rintro ⟨i, field, fault, hfield, hvalue⟩
      cases hfirst : body.value first.format place with
      | error fault => exact ⟨fault, bind_eq_error_iff.mpr (.inl hfirst)⟩
      | ok value =>
        cases i with
        | zero =>
          cases hfield
          cases hfirst.symm.trans hvalue
        | succ i =>
          rw [hplace] at hvalue
          obtain ⟨fault, hrest⟩ := ih.mpr ⟨i, field, fault, hfield, hvalue⟩
          exact ⟨fault, bind_eq_error_iff.mpr
            (.inr ⟨value, hfirst, bind_eq_error_iff.mpr (.inl hrest)⟩)⟩

/-- The values for some fields cannot be had exactly if one of them cannot. -/
theorem lacks_iff : body.Lacks fields ↔ ∃ fault, body.valuesFrom 0 fields = .error fault := by
  simp only [valuesFrom_eq_error_iff, Lacks, Nat.zero_add]

end PayloadBody

namespace Profile

variable {p : Profile}

/-- A profile with a thread of no process cannot be exported. -/
theorem document_eq_error {t : Thread} (ht : t ∈ p.threads)
    (howner : p.processes.length ≤ t.process) : ∃ fault, p.document = .error fault := by
  cases hdocument : p.document with
  | error fault => exact ⟨fault, rfl⟩
  | ok document =>
    obtain ⟨threads, hthreads, -⟩ := bind_eq_ok_iff.mp hdocument
    obtain ⟨written, hwritten⟩ := exists_of_mapM_eq_ok hthreads ht
    obtain ⟨o, hentry, -⟩ := bind_eq_ok_iff.mp hwritten
    rw [PayloadBody.entry, List.getElem?_eq_none howner] at hentry
    cases hentry

end Profile

namespace Edit

variable {p : Profile}

/-- A marker whose schema the profile does not have is refused, and nothing changes. -/
theorem runOn_addMarker_of_missing_schema {payload : Payload}
    (h : p.schemas.size ≤ payload.schema) (thread : Nat) (timing : MarkerTiming) :
    (addMarker thread timing payload).runOn p = (.error (.failure .noEntry), p) := by
  have hschema : p.schemas.get? payload.schema = none := List.getElem?_eq_none h
  rw [addMarker, runOn_bind, getSchema, runOn_get_bind, hschema]
  rfl

/-- A marker is not stored without a thread for it, or without a value for each field. -/
theorem runOn_addMarker_of_missing {thread : Nat} {payload : Payload} {schema : MarkerSchema}
    (hschema : p.schemas.get? payload.schema = some schema)
    (h : p.threads.length ≤ thread ∨ payload.body.Lacks schema.fields) (timing : MarkerTiming) :
    ∃ fault, (addMarker thread timing payload).runOn p = (.error fault, p) := by
  rw [runOn_addMarker_of_schema hschema]
  cases hvalues : payload.body.valuesFrom 0 schema.fields with
  | error fault => exact ⟨fault, rfl⟩
  | ok values =>
    rcases h with hthread | hlacks
    · rw [List.getElem?_eq_none hthread]
      exact ⟨_, rfl⟩
    · obtain ⟨fault, hfault⟩ := PayloadBody.lacks_iff.mp hlacks
      cases hvalues.symm.trans hfault

end Edit

namespace ProfileCall

/-- A call names something that is not there, brings a marker of another thread, or lacks the value
of a field. -/
def Flawed (p : Profile) : ProfileCall → Prop
  | addThread process _ _ _ => p.processes.length ≤ process
  | addSample thread _ _ _ _ => p.threads.length ≤ thread
  | addMarker thread _ payload =>
    p.schemas.size ≤ payload.schema ∨ p.threads.length ≤ thread ∨
      ∃ schema, p.schemas.get? payload.schema = some schema ∧ payload.body.Lacks schema.fields
  | setMarkerStack thread marker _ =>
    marker.thread ≠ thread ∨ p.threads.length ≤ thread ∨
      ∃ t, p.threads[thread]? = some t ∧ t.markers.length ≤ marker.index
  | addCounterSample counter _ => p.counters.length ≤ counter
  | internString _ | addCategory _ _ | registerSchema _ | addProcess _ _ | addCounter .. => False

/-- The thread that a call stores before it looks up what it names. -/
def storedFirst : ProfileCall → Option Thread
  | addThread process tid name isMain => some ⟨process, tid, name, isMain, [], []⟩
  | _ => none

/-- What a call leaves behind that ends in a fault. -/
def LeavesBehind (p p' : Profile) (call : ProfileCall) : Prop :=
  match call.storedFirst with
  | none => p.Intact p'
  | some t => p' = { p with threads := p.threads ++ [t] }

variable {p : Profile}

/-- A flawed call ends in a fault and leaves behind a thread at most. -/
theorem fault_of_flawed {call : ProfileCall} (h : call.Flawed p) :
    ∃ fault p', call.edit.runOn p = (.error fault, p') ∧ call.LeavesBehind p p' := by
  cases call with
  | addThread process tid name isMain =>
    exact ⟨_, _, Edit.runOn_map _ (Edit.runOn_addThread_of_missing h tid name isMain), rfl⟩
  | addSample thread time frames delta weight =>
    obtain ⟨p', hrun, hintact⟩ := Edit.runOn_addSample_of_missing h time frames delta weight
    exact ⟨_, p', Edit.runOn_map _ hrun, hintact⟩
  | addMarker thread timing payload =>
    cases hschema : p.schemas.get? payload.schema with
    | none =>
      have hsize : p.schemas.size ≤ payload.schema := List.getElem?_eq_none_iff.mp hschema
      exact ⟨_, p, Edit.runOn_map _ (Edit.runOn_addMarker_of_missing_schema hsize thread timing),
        .refl p⟩
    | some schema =>
      have hreason : p.threads.length ≤ thread ∨ payload.body.Lacks schema.fields := by
        rcases h with hsize | hthread | ⟨schema', hschema', hlacks⟩
        · cases hschema.symm.trans (List.getElem?_eq_none hsize)
        · exact .inl hthread
        · cases hschema.symm.trans hschema'
          exact .inr hlacks
      obtain ⟨fault, hrun⟩ := Edit.runOn_addMarker_of_missing hschema hreason timing
      exact ⟨fault, p, Edit.runOn_map _ hrun, .refl p⟩
  | setMarkerStack thread marker frames =>
    by_cases howner : marker.thread = thread
    · have hmissing : ∀ t, p.threads[thread]? = some t → t.markers.length ≤ marker.index := by
        intro t ht
        rcases h with hforeign | hthread | ⟨t', ht', hmarker⟩
        · exact (hforeign howner).elim
        · cases ht.symm.trans (List.getElem?_eq_none hthread)
        · cases ht.symm.trans ht'
          exact hmarker
      obtain ⟨p', hrun, hintact⟩ := Edit.runOn_setMarkerStack_of_missing howner hmissing frames
      exact ⟨_, p', Edit.runOn_map _ hrun, hintact⟩
    · exact ⟨_, p, Edit.runOn_map _ (Edit.runOn_setMarkerStack_of_foreign howner frames), .refl p⟩
  | addCounterSample counter sample =>
    exact ⟨_, p, Edit.runOn_map _ (Edit.runOn_addCounterSample_of_missing h sample), .refl p⟩
  | internString | addCategory | registerSchema | addProcess | addCounter => exact h.elim

/-- A call without a flaw is answered. -/
theorem answered_of_not_flawed {call : ProfileCall} (h : ¬ call.Flawed p) :
    ∃ answer p', call.edit.runOn p = (.ok answer, p') := by
  have hentry : ∀ {α : Type} {l : List α} {i : Nat}, ¬ l.length ≤ i → ∃ a, l[i]? = some a :=
    fun hlength => ⟨_, List.getElem?_eq_getElem (Nat.lt_of_not_le hlength)⟩
  cases call with
  | addThread process tid name isMain =>
    obtain ⟨o, ho⟩ := hentry h
    exact ⟨_, _, Edit.runOn_map _ (Edit.runOn_addThread ho tid name isMain)⟩
  | addSample thread time frames delta weight =>
    obtain ⟨t, ht⟩ := hentry h
    obtain ⟨stored, strings, -, hrun, -⟩ := Edit.addSample_spec ht time frames delta weight
    exact ⟨_, _, Edit.runOn_map _ hrun⟩
  | addMarker thread timing payload =>
    obtain ⟨hsize, hlength, hlacks⟩ :
        ¬ p.schemas.size ≤ payload.schema ∧ ¬ p.threads.length ≤ thread ∧ _ := by
      simpa only [Flawed, not_or] using h
    obtain ⟨schema, hschema⟩ : ∃ schema, p.schemas.get? payload.schema = some schema :=
      hentry hsize
    obtain ⟨t, ht⟩ := hentry hlength
    have hrun := Edit.runOn_addMarker ht hschema timing
    cases hvalues : payload.body.valuesFrom 0 schema.fields with
    | error fault =>
      exact (hlacks ⟨schema, hschema, PayloadBody.lacks_iff.mpr ⟨fault, hvalues⟩⟩).elim
    | ok values =>
      rw [hvalues] at hrun
      exact ⟨_, _, Edit.runOn_map _ hrun⟩
  | setMarkerStack thread marker frames =>
    obtain ⟨howner, hlength, hmarkers⟩ :
        ¬ marker.thread ≠ thread ∧ ¬ p.threads.length ≤ thread ∧ _ := by
      simpa only [Flawed, not_or] using h
    obtain ⟨t, ht⟩ := hentry hlength
    obtain ⟨m, hm⟩ := hentry fun hindex => hmarkers ⟨t, ht, hindex⟩
    obtain ⟨stored, strings, -, hrun, -⟩ :=
      Edit.setMarkerStack_spec ht (not_not.mp howner) hm frames
    exact ⟨_, _, Edit.runOn_map _ hrun⟩
  | addCounterSample counter sample =>
    obtain ⟨track, htrack⟩ := hentry h
    exact ⟨_, _, Edit.runOn_map _ (Edit.runOn_addCounterSample htrack sample)⟩
  | internString | addCategory | registerSchema | addProcess | addCounter => exact ⟨_, _, rfl⟩

/-- A call ends in a fault exactly if it is flawed. Unless it stores a thread first, the profile is
intact then; and the thread stays behind, with nothing else changed, and prevents an export. -/
theorem intact_unless_storedFirst (p : Profile) (call : ProfileCall) :
    ((∃ fault, (call.edit.runOn p).1 = .error fault) ↔ call.Flawed p) ∧
      ∀ fault, (call.edit.runOn p).1 = .error fault →
        (call.storedFirst = none → p.Intact (call.edit.runOn p).2) ∧
        ∀ t, call.storedFirst = some t →
          (call.edit.runOn p).2 = { p with threads := p.threads ++ [t] } ∧
            ∃ fault, (call.edit.runOn p).2.document = .error fault := by
  have hflawed : ∀ fault, (call.edit.runOn p).1 = .error fault → call.Flawed p := by
    intro fault hfault
    by_contra hsound
    obtain ⟨answer, p', hrun⟩ := answered_of_not_flawed hsound
    rw [hrun] at hfault
    cases hfault
  refine ⟨⟨fun ⟨fault, hfault⟩ => hflawed fault hfault, fun h => ?_⟩, fun fault hfault => ?_⟩
  · obtain ⟨fault, p', hrun, -⟩ := fault_of_flawed h
    exact ⟨fault, congrArg Prod.fst hrun⟩
  · have h := hflawed fault hfault
    obtain ⟨_, p', hrun, hleft⟩ := fault_of_flawed h
    rw [hrun]
    refine ⟨fun hnone => ?_, fun t hfirst => ?_⟩
    · rwa [LeavesBehind, hnone] at hleft
    · rw [LeavesBehind, hfirst] at hleft
      refine ⟨hleft, Profile.document_eq_error (t := t) (by simp [hleft]) ?_⟩
      cases call with
      | addThread process tid name isMain =>
        cases hfirst
        rw [hleft]
        exact h
      | _ => cases hfirst

/-- A sample for a thread that does not exist leaves the text of its frame behind. -/
theorem intact_unless_storedFirst_of_sample :
    let p := Profile.create "tracer" 1
    let call : ProfileCall := .addSample 0 5 [⟨.user, 0, 4096, none, none, some "load"⟩] 0 1
    (call.edit.runOn p).1 = .error (.failure .noEntry) ∧ p.Intact (call.edit.runOn p).2 ∧
      (call.edit.runOn p).2.strings.entries = ["load"] :=
  ⟨rfl, ((intact_unless_storedFirst _ _).2 _ rfl).1 rfl, by decide +kernel⟩

/-- A thread of a process that does not exist is left behind: the profile, which could be exported
before the call, cannot be exported any more. -/
theorem ownerless_thread_left_behind :
    let p := Profile.create "tracer" 1
    let call : ProfileCall := .addThread 0 (.number 1) "" false
    (call.edit.runOn p).1 = .error (.failure .noEntry) ∧ ¬ p.Intact (call.edit.runOn p).2 ∧
      p.threads.length = 0 ∧ (call.edit.runOn p).2.threads.length = 1 ∧
      (∃ document, p.document = .ok document) ∧
      (call.edit.runOn p).2.document = .error (.failure .noEntry) := by
  refine ⟨rfl, fun hintact => ?_, rfl, rfl, ⟨_, rfl⟩, rfl⟩
  cases congrArg (·.threads.length) hintact.others

end ProfileCall

end TraceProfile
