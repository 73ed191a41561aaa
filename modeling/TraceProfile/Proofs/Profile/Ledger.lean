import TraceProfile.Proofs.Profile.Storing

/-!
# What a client has recorded

A client of a profile only sees handles. Whoever keeps a ledger of the calls and their answers
knows what was recorded without looking into the profile: the texts behind the handles, and every
thread, sample, marker and counter in the order of the calls. The ledger tells which handles may be
passed to a call, and what an export has to show.
-/

namespace TraceProfile

/-- A call on a profile. -/
inductive ProfileCall where
  /-- A text gets a handle. -/
  | internString (text : String)
  /-- A category gets a handle. -/
  | addCategory (name : String) (color : CategoryColor)
  /-- A schema gets a handle. -/
  | registerSchema (schema : MarkerSchema)
  /-- A process is added. -/
  | addProcess (pid : SystemId) (name : String)
  /-- A thread is added to a process. -/
  | addThread (process : Nat) (tid : SystemId) (name : String) (isMain : Bool)
  /-- A sample is added to a thread. -/
  | addSample (thread : Nat) (time : Int) (frames : List Frame) (delta weight : Int)
  /-- A marker is added to a thread. -/
  | addMarker (thread : Nat) (timing : MarkerTiming) (payload : Payload)
  /-- A marker of a thread gets a stack. -/
  | setMarkerStack (thread : Nat) (marker : MarkerHandle) (frames : List Frame)
  /-- A counter track is added to a process. -/
  | addCounter (process : Nat) (name : String) (category : CounterCategory) (description : String)
      (color : Option GraphColor)
  /-- A sample is added to a counter track. -/
  | addCounterSample (counter : Nat) (sample : CounterSample)

/-- What a call answers. -/
inductive ProfileAnswer where
  /-- The handle of a text, a category, a schema, a process, a thread or a counter track. -/
  | handle (handle : Nat)
  /-- The handle of a marker. -/
  | marker (handle : MarkerHandle)
  /-- Nothing. -/
  | done

/-- A call is carried out. -/
def ProfileCall.edit : ProfileCall → Edit ProfileAnswer
  | internString text => .handle <$> Edit.internString text
  | addCategory name color => .handle <$> Edit.addCategory name color
  | registerSchema schema => .handle <$> Edit.registerSchema schema
  | addProcess pid name => .handle <$> modifyGet (Profile.addProcess pid name)
  | addThread process tid name isMain => .handle <$> Edit.addThread process tid name isMain
  | addSample thread time frames delta weight =>
    (fun _ => .done) <$> Edit.addSample thread time frames delta weight
  | addMarker thread timing payload => .marker <$> Edit.addMarker thread timing payload
  | setMarkerStack thread marker frames =>
    (fun _ => .done) <$> Edit.setMarkerStack thread marker frames
  | addCounter process name category description color =>
    .handle <$> Edit.addCounter process name category description color
  | addCounterSample counter sample => (fun _ => .done) <$> Edit.addCounterSample counter sample

/-- The value of a field as a reader of a profile sees it. -/
inductive ShownValue where
  /-- A text. -/
  | text (s : String)
  /-- A number. -/
  | number (amount : Amount)
  deriving DecidableEq, Repr

/-- A marker as a reader of a profile sees it. -/
structure ShownMarker where
  /-- The times. -/
  timing : MarkerTiming
  /-- The name. -/
  name : String
  /-- The handle of its category. -/
  category : Int
  /-- The type name of its schema. -/
  typeName : String
  /-- The fields of the schema with their values. -/
  fields : List (FieldSchema × ShownValue)
  /-- The stack, if one was attached. -/
  stack : Option (List ShownFrame)

/-- A thread as a reader of a profile sees it. -/
structure ShownThread where
  /-- The number that the system gave its process. -/
  pid : SystemId
  /-- The number that the system gave it. -/
  tid : SystemId
  /-- The name. -/
  name : String
  /-- It is the main thread of its process. -/
  isMain : Bool
  /-- The samples. -/
  samples : List ShownSample
  /-- The markers, under their handles. -/
  markers : List (MarkerHandle × ShownMarker)

/-- What calls have recorded, in their order, under the handles that they answered. -/
structure Ledger where
  /-- The texts. -/
  texts : List (Nat × String)
  /-- The handles of categories. -/
  categories : List Nat
  /-- The schemas; the first of a handle counts. -/
  schemas : List (Nat × MarkerSchema)
  /-- The processes: the numbers that the system gave them, and their names. -/
  processes : List (Nat × SystemId × String)
  /-- The threads. -/
  threads : List (Nat × ShownThread)
  /-- The counter tracks, each with the number that the system gave its process. -/
  counters : List (Nat × SystemId × CounterTrack)

/-- The entry of a key is changed. -/
def changeEntry {κ α : Type} [DecidableEq κ] (key : κ) (change : α → α)
    (entries : List (κ × α)) : List (κ × α) :=
  entries.map fun entry => if entry.1 = key then (entry.1, change entry.2) else entry

namespace Ledger

/-- Nothing is recorded; the category for everything without one is known. -/
def empty : Ledger := ⟨[], [Profile.otherCategory], [], [], [], []⟩

/-- What a reader is to see of a value that was passed for a field. -/
def shownValue? (l : Ledger) (format : FieldFormat) : FieldValue → Option ShownValue
  | .text handle =>
    if format = .text then (l.texts.lookup handle).map .text
    else some (.number (.whole handle))
  | .number amount => if format = .text then none else some (.number amount)

/-- What a reader is to see of the values that a payload has for fields. -/
def shownFields? (l : Ledger) (body : PayloadBody) (place : Nat) :
    List FieldSchema → Option (List (FieldSchema × ShownValue))
  | [] => some []
  | field :: rest => do
    let value ← (body.value field.format place).toOption
    let shown ← l.shownValue? field.format value
    let others ← l.shownFields? body (place + 1) rest
    pure ((field, shown) :: others)

/-- What a reader is to see of a marker. -/
def shownMarker? (l : Ledger) (timing : MarkerTiming) (payload : Payload) :
    Option ShownMarker := do
  let name ← l.texts.lookup payload.name
  let schema ← l.schemas.lookup payload.schema
  let fields ← l.shownFields? payload.body 0 schema.fields
  pure ⟨timing, name, payload.category, schema.typeName, fields, none⟩

/-- The number that the system gave a process. -/
def pid? (l : Ledger) (process : Nat) : Option SystemId := (l.processes.lookup process).map (·.1)

/-- The thread of a handle is changed. -/
def changeThread (l : Ledger) (thread : Nat) (change : ShownThread → ShownThread) : Ledger :=
  { l with threads := changeEntry thread change l.threads }

/-- A call and its answer are noted. Of a call that ended in a fault nothing is. -/
def note (l : Ledger) : ProfileCall → Except Fault ProfileAnswer → Ledger
  | .internString text, .ok (.handle handle) => { l with texts := l.texts ++ [(handle, text)] }
  | .addCategory _ _, .ok (.handle handle) => { l with categories := l.categories ++ [handle] }
  | .registerSchema schema, .ok (.handle handle) =>
    { l with schemas := l.schemas ++ [(handle, schema)] }
  | .addProcess pid name, .ok (.handle handle) =>
    { l with processes := l.processes ++ [(handle, pid, name)] }
  | .addThread process tid name isMain, .ok (.handle handle) =>
    match l.pid? process with
    | some pid => { l with threads := l.threads ++ [(handle, ⟨pid, tid, name, isMain, [], []⟩)] }
    | none => l
  | .addSample thread time frames delta weight, .ok .done =>
    l.changeThread thread fun t =>
      { t with samples := t.samples ++ [⟨time, frames.map Frame.shown, delta, weight⟩] }
  | .addMarker thread timing payload, .ok (.marker handle) =>
    match l.shownMarker? timing payload with
    | some m => l.changeThread thread fun t => { t with markers := t.markers ++ [(handle, m)] }
    | none => l
  | .setMarkerStack thread marker frames, .ok .done =>
    l.changeThread thread fun t => { t with
      markers := changeEntry marker
        (fun m => { m with stack := some (frames.map Frame.shown) }) t.markers }
  | .addCounter process name category description color, .ok (.handle handle) =>
    match l.pid? process with
    | some pid => { l with
        counters := l.counters ++
          [(handle, pid, ⟨process, name, category, description, color, []⟩)] }
    | none => l
  | .addCounterSample counter sample, .ok .done =>
    { l with
      counters := changeEntry counter (fun (pid, track) =>
        (pid, { track with
          samples := track.samples ++ [(sample.time, sample.value, sample.count)] })) l.counters }
  | _, _ => l

/-- A call that fails is not noted. -/
theorem note_error (l : Ledger) (call : ProfileCall) (fault : Fault) :
    l.note call (.error fault) = l := by
  cases call <;> rfl

/-- A category was answered, or is the one for everything without one. -/
def HasCategory (l : Ledger) (category : Int) : Prop :=
  ∃ handle ∈ l.categories, category = (handle : Int)

/-- Every handle in a payload was answered: those of its schema, its name and its category, and
those that it has for text fields. -/
structure Backs (l : Ledger) (payload : Payload) : Prop where
  /-- The name. -/
  name : payload.name ∈ l.texts.map (·.1)
  /-- The category. -/
  category : l.HasCategory payload.category
  /-- The schema. -/
  schema : payload.schema ∈ l.schemas.map (·.1)
  /-- The values for text fields. -/
  texts : ∀ schema, l.schemas.lookup payload.schema = some schema →
    ∀ place field, schema.fields[place]? = some field → field.format = .text →
      ∀ value, payload.body.value .text place = .ok value →
        ∃ handle ∈ l.texts.map (·.1), value = .text handle

end Ledger

/-- Every handle that is passed to a call was answered by an earlier one. -/
def ProfileCall.Admissible (l : Ledger) : ProfileCall → Prop
  | internString _ | addCategory _ _ | registerSchema _ | addProcess _ _ => True
  | addThread process _ _ _ | addCounter process _ _ _ _ => process ∈ l.processes.map (·.1)
  | addSample thread _ frames _ _ =>
    thread ∈ l.threads.map (·.1) ∧ ∀ frame ∈ frames, l.HasCategory frame.category
  | addMarker thread _ payload => thread ∈ l.threads.map (·.1) ∧ l.Backs payload
  | setMarkerStack thread marker frames =>
    thread ∈ l.threads.map (·.1) ∧ (∃ entry ∈ l.threads, marker ∈ entry.2.markers.map (·.1)) ∧
      ∀ frame ∈ frames, l.HasCategory frame.category
  | addCounterSample counter _ => counter ∈ l.counters.map (·.1)

/-- What a call needs to be answered, beside known handles: a marker needs a value for every field
of its schema, and a stack is only taken for a marker of the thread that is named with it. -/
def ProfileCall.Answerable (l : Ledger) : ProfileCall → Prop
  | addMarker _ _ payload =>
    ∃ schema values, l.schemas.lookup payload.schema = some schema ∧
      payload.body.valuesFrom 0 schema.fields = .ok values
  | setMarkerStack thread marker _ => marker.thread = thread
  | _ => True

/-- A profile and the ledger of the calls that have made it, from its creation on. -/
inductive Recorded (product : String) (interval : Int) : Profile → Ledger → Prop where
  /-- No call has been made. -/
  | start : Recorded product interval (.create product interval) .empty
  /-- One more call is made, with handles that were answered before. -/
  | call {p : Profile} {l : Ledger} (recorded : Recorded product interval p l)
      (call : ProfileCall) (admissible : call.Admissible l) :
      Recorded product interval (call.edit.runOn p).2 (l.note call (call.edit.runOn p).1)

end TraceProfile
