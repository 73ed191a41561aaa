import TraceProfile.Proofs.Profile.Intact

/-!
# The tables of a profile

Texts, categories and schemas are entered in three tables by calls of their own, and texts by every
frame that is stored as well. Whichever requests a profile gets, and whether they are answered or
not, its tables are those that the entries of the requests make in their order, and its threads are
those that were asked for.
-/

namespace TraceProfile

/-- A request to a profile: a call, or a frame whose texts get handles on their own. -/
inductive ProfileRequest where
  /-- A call. -/
  | call (call : ProfileCall)
  /-- The texts of a frame get handles. -/
  | internFrame (frame : Frame)

/-- A thread as it was added, before any sample or marker. -/
def Thread.bare (t : Thread) : Thread := { t with samples := [], markers := [] }

namespace ProfileRequest

/-- The texts that a request gives handles. A stack that is refused has none. -/
def texts : ProfileRequest → List String
  | internFrame frame => frame.texts
  | call (.internString text) => [text]
  | call (.addSample _ _ frames _ _) => frames.flatMap Frame.texts
  | call (.setMarkerStack thread marker frames) =>
    if marker.thread = thread then frames.flatMap Frame.texts else []
  | _ => []

/-- The categories that a request gives handles. -/
def categories : ProfileRequest → List Category
  | call (.addCategory name color) => [⟨name, color⟩]
  | _ => []

/-- The schemas that a request gives handles. -/
def schemas : ProfileRequest → List MarkerSchema
  | call (.registerSchema schema) => [schema]
  | _ => []

/-- The threads that a request adds, also if there is no process for them. -/
def threads : ProfileRequest → List Thread
  | call c => c.storedFirst.toList
  | internFrame _ => []

/-- The profile after a request, whether it was answered or not. -/
def after (p : Profile) : ProfileRequest → Profile
  | call c => (c.edit.runOn p).2
  | internFrame frame => ((Edit.internFrame frame).runOn p).2

end ProfileRequest

/-- The profile after some requests. -/
def Profile.after (p : Profile) (requests : List ProfileRequest) : Profile :=
  requests.foldl ProfileRequest.after p

/-- What of a profile hands out numbers: the tables, and the threads in their order. -/
structure ProfileTables where
  /-- The texts. -/
  strings : Catalogue (id : String → String)
  /-- The categories. -/
  categories : Catalogue Category.name
  /-- The schemas. -/
  schemas : Catalogue MarkerSchema.typeName
  /-- The threads, as they were added. -/
  threads : List Thread

namespace ProfileTables

/-- The tables after a request. -/
def enter (t : ProfileTables) (request : ProfileRequest) : ProfileTables where
  strings := t.strings.ensureAll request.texts
  categories := t.categories.ensureAll request.categories
  schemas := t.schemas.ensureAll request.schemas
  threads := t.threads ++ request.threads

variable {request : ProfileRequest}

/-- A request may add no thread. -/
theorem enter_no_thread (hthreads : request.threads = []) (t : ProfileTables) :
    t.enter request = ⟨t.strings.ensureAll request.texts,
      t.categories.ensureAll request.categories, t.schemas.ensureAll request.schemas,
      t.threads⟩ := by
  rw [enter, hthreads, List.append_nil]

/-- A request may enter texts only. -/
theorem enter_texts (hcategories : request.categories = []) (hschemas : request.schemas = [])
    (hthreads : request.threads = []) (t : ProfileTables) :
    t.enter request = { t with strings := t.strings.ensureAll request.texts } := by
  rw [enter_no_thread hthreads, hcategories, hschemas]
  rfl

/-- A request that enters nothing leaves the tables as they are. -/
theorem enter_nothing (htexts : request.texts = []) (hcategories : request.categories = [])
    (hschemas : request.schemas = []) (hthreads : request.threads = []) (t : ProfileTables) :
    t.enter request = t := by
  rw [enter_texts hcategories hschemas hthreads, htexts]
  rfl

end ProfileTables

namespace Profile

/-- The tables of a profile. -/
def tables (p : Profile) : ProfileTables :=
  ⟨p.strings, p.categories, p.schemas, p.threads.map Thread.bare⟩

/-- A thread that gets samples or markers is still the one that was added. -/
theorem tables_set_thread {p : Profile} {thread : Nat} {t t' : Thread}
    (ht : p.threads[thread]? = some t) (hbare : t'.bare = t.bare) :
    tables { p with threads := p.threads.set thread t' } = p.tables := by
  obtain ⟨hlt, rfl⟩ := List.getElem?_eq_some_iff.mp ht
  have hsame : (p.threads.set thread t').map Thread.bare = p.threads.map Thread.bare := by
    rw [List.map_set, hbare, ← List.getElem_map Thread.bare (h := by simpa using hlt),
      List.set_getElem_self]
  rw [tables, hsame]
  rfl

end Profile

namespace Edit

/-- What is made of a result does not touch the profile. -/
theorem snd_runOn_map {α β : Type} (f : α → β) (edit : Edit α) (p : Profile) :
    ((f <$> edit).runOn p).2 = (edit.runOn p).2 := by
  have hrun : edit.runOn p = ((edit.runOn p).1, (edit.runOn p).2) := rfl
  rw [runOn_map f hrun]

/-- A change to what a thread holds leaves the tables alone. -/
theorem tables_changeThread {change : Thread → Thread} (hbare : ∀ t, (change t).bare = t.bare)
    (thread : Nat) (p : Profile) :
    ((changeThread thread change).runOn p).2.tables = p.tables := by
  cases ht : p.threads[thread]? with
  | none =>
    rw [changeThread, runOn_get_bind, ht]
    rfl
  | some t =>
    rw [runOn_changeThread ht]
    exact Profile.tables_set_thread ht (hbare t)

end Edit

namespace ProfileCall

/-- A thread takes its place among the threads, also if its process is missing. -/
theorem tables_addThread (process : Nat) (tid : SystemId) (name : String) (isMain : Bool)
    (p : Profile) :
    ((addThread process tid name isMain).edit.runOn p).2.tables =
      p.tables.enter (.call (.addThread process tid name isMain)) := by
  rcases Nat.lt_or_ge process p.processes.length with hlt | hge
  · have ho := List.getElem?_eq_getElem hlt
    rw [edit, Edit.runOn_map _ (Edit.runOn_addThread ho tid name isMain), Profile.tables,
      List.map_append]
    rfl
  · rw [edit, Edit.runOn_map _ (Edit.runOn_addThread_of_missing hge tid name isMain),
      Profile.tables, List.map_append]
    rfl

/-- A sample brings in the texts of its frames and nothing else. -/
theorem tables_addSample (thread : Nat) (time : Int) (frames : List Frame) (delta weight : Int)
    (p : Profile) :
    ((addSample thread time frames delta weight).edit.runOn p).2.tables =
      p.tables.enter (.call (.addSample thread time frames delta weight)) := by
  obtain ⟨stored, hstored, -⟩ := Edit.internFrames_spec frames p
  rw [edit, Edit.snd_runOn_map, Edit.addSample, Edit.runOn_bind_ok hstored]
  refine (Edit.tables_changeThread ?_ thread _).trans ?_
  · intro t
    rfl
  · rw [ProfileTables.enter_texts rfl rfl rfl]
    rfl

/-- A marker brings in nothing. -/
theorem tables_addMarker (thread : Nat) (timing : MarkerTiming) (payload : Payload) (p : Profile) :
    ((addMarker thread timing payload).edit.runOn p).2.tables =
      p.tables.enter (.call (.addMarker thread timing payload)) := by
  rw [ProfileTables.enter_nothing rfl rfl rfl rfl, edit, Edit.snd_runOn_map]
  cases hschema : p.schemas.get? payload.schema with
  | none =>
    have hsize : p.schemas.size ≤ payload.schema := List.getElem?_eq_none_iff.mp hschema
    rw [Edit.runOn_addMarker_of_missing_schema hsize]
  | some schema =>
    rw [Edit.runOn_addMarker_of_schema hschema]
    cases payload.body.valuesFrom 0 schema.fields with
    | error fault => rfl
    | ok values =>
      cases ht : p.threads[thread]? with
      | none => rfl
      | some t => exact Profile.tables_set_thread ht rfl

/-- A stack brings in the texts of its frames, if the marker is one of the thread. -/
theorem tables_setMarkerStack (thread : Nat) (marker : MarkerHandle) (frames : List Frame)
    (p : Profile) :
    ((setMarkerStack thread marker frames).edit.runOn p).2.tables =
      p.tables.enter (.call (.setMarkerStack thread marker frames)) := by
  rw [edit, Edit.snd_runOn_map]
  by_cases howner : marker.thread = thread
  · obtain ⟨stored, hstored, -⟩ := Edit.internFrames_spec frames p
    have hentered : p.tables.enter (.call (.setMarkerStack thread marker frames)) =
        Profile.tables
          { p with strings := p.strings.ensureAll (frames.flatMap Frame.texts) } := by
      rw [ProfileTables.enter_texts rfl rfl rfl, ProfileRequest.texts, if_pos howner]
      rfl
    rw [hentered, Edit.setMarkerStack, if_neg (not_not_intro howner)]
    dsimp only
    rw [Edit.runOn_bind_ok hstored, Edit.runOn_get_bind]
    dsimp only
    cases ht : p.threads[thread]? with
    | none => rfl
    | some t =>
      dsimp only
      cases t.markers[marker.index]? with
      | none => rfl
      | some m => exact Profile.tables_set_thread ht rfl
  · have htexts : (ProfileRequest.call (.setMarkerStack thread marker frames)).texts = [] :=
      if_neg howner
    rw [Edit.runOn_setMarkerStack_of_foreign howner,
      ProfileTables.enter_nothing htexts rfl rfl rfl]

/-- A sample of a counter brings in nothing. -/
theorem tables_addCounterSample (counter : Nat) (sample : CounterSample) (p : Profile) :
    ((addCounterSample counter sample).edit.runOn p).2.tables =
      p.tables.enter (.call (.addCounterSample counter sample)) := by
  rw [ProfileTables.enter_nothing rfl rfl rfl rfl]
  rcases Nat.lt_or_ge counter p.counters.length with hlt | hge
  · have htrack := List.getElem?_eq_getElem hlt
    rw [edit, Edit.runOn_map _ (Edit.runOn_addCounterSample htrack sample)]
    rfl
  · rw [edit, Edit.runOn_map _ (Edit.runOn_addCounterSample_of_missing hge sample)]

end ProfileCall

/-- Whether it is answered or not, a request enters in the tables what it gives handles. -/
theorem ProfileRequest.tables_after (p : Profile) (request : ProfileRequest) :
    (after p request).tables = p.tables.enter request := by
  cases request with
  | internFrame frame =>
    obtain ⟨stored, hstored, -⟩ := Edit.internFrame_spec frame p
    rw [after, hstored, ProfileTables.enter_texts rfl rfl rfl]
    rfl
  | call call =>
    cases call with
    | internString text =>
      rw [ProfileTables.enter_no_thread rfl]
      rfl
    | addCategory name color =>
      rw [ProfileTables.enter_no_thread rfl]
      rfl
    | registerSchema schema =>
      rw [ProfileTables.enter_no_thread rfl]
      rfl
    | addProcess pid name =>
      rw [ProfileTables.enter_nothing rfl rfl rfl rfl]
      rfl
    | addThread process tid name isMain =>
      exact ProfileCall.tables_addThread process tid name isMain p
    | addSample thread time frames delta weight =>
      exact ProfileCall.tables_addSample thread time frames delta weight p
    | addMarker thread timing payload => exact ProfileCall.tables_addMarker thread timing payload p
    | setMarkerStack thread marker frames =>
      exact ProfileCall.tables_setMarkerStack thread marker frames p
    | addCounter process name category description color =>
      rw [ProfileTables.enter_nothing rfl rfl rfl rfl]
      rfl
    | addCounterSample counter sample => exact ProfileCall.tables_addCounterSample counter sample p

namespace Profile

/-- Requests may be made in two parts. -/
theorem after_append (p : Profile) (first second : List ProfileRequest) :
    p.after (first ++ second) = (p.after first).after second := List.foldl_append

/-- After some requests, the tables are those that the requests make of them in their order. -/
theorem tables_after (p : Profile) (requests : List ProfileRequest) :
    (p.after requests).tables = requests.foldl ProfileTables.enter p.tables := by
  induction requests generalizing p with
  | nil => rfl
  | cons request rest ih =>
    have hrest := ih (ProfileRequest.after p request)
    rwa [ProfileRequest.tables_after] at hrest

/-- After some requests, the threads are those before and those that the requests have added. -/
theorem threads_after (p : Profile) (requests : List ProfileRequest) :
    (p.after requests).threads.map Thread.bare =
      p.threads.map Thread.bare ++ requests.flatMap ProfileRequest.threads := by
  have hthreads : ∀ t : ProfileTables, (requests.foldl ProfileTables.enter t).threads =
      t.threads ++ requests.flatMap ProfileRequest.threads := by
    induction requests with
    | nil => simp
    | cons request rest ih =>
      intro t
      rw [List.foldl_cons, ih, List.flatMap_cons, ProfileTables.enter, List.append_assoc]
  have htables := hthreads p.tables
  rwa [← tables_after] at htables

end Profile

end TraceProfile
