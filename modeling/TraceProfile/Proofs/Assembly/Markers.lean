import TraceProfile.Assembly.Markers
import TraceProfile.Proofs.Profile.Layout

/-!
# What flushed markers leave in a profile

A flush keeps handles of categories and schemas, which are those that the tables of the profile
would give. So every marker is stored under the schema that its type name is found under. If no two
schemas in use share a type name, this is the schema for the kind and the fields of the marker, and
its payload has a value for each of them. Only a time that cannot be given in milliseconds ends the
flush.
-/

namespace TraceProfile

/-- The markers of a thread among stored markers. -/
def StoredMarker.own (thread : Nat) (stored : List (Nat × StoredMarker)) : List StoredMarker :=
  stored.filterMap fun entry => if entry.1 = thread then some entry.2 else none

/-- What becomes of a profile when markers are stored: its tables grow, the markers come behind
those that their threads have, and nothing else changes. -/
structure Profile.Gains (p p' : Profile) (stored : List (Nat × StoredMarker)) : Prop where
  /-- Texts keep their handles. -/
  strings : p.strings.Extends p'.strings
  /-- Categories keep their handles. -/
  categories : p.categories.Extends p'.categories
  /-- Schemas keep their handles. -/
  schemas : p.schemas.Extends p'.schemas
  /-- Every thread gains its own markers. -/
  threads : p'.threads = p.threads.mapIdx fun i t =>
    { t with markers := t.markers ++ StoredMarker.own i stored }
  /-- Nothing else differs. -/
  rest : { p' with strings := p.strings, categories := p.categories, schemas := p.schemas,
                   threads := p.threads } = p

namespace Marker

/-- The schema that a marker is stored under. -/
def schema (m : Marker) : MarkerSchema := .ofKind m.span.isSome m.fieldNames

/-- A marker without a span is stored under a schema of events. -/
theorem schema_of_event {m : Marker} (h : m.span = none) : m.schema = .event m.fieldNames := by
  rw [schema, h]
  rfl

/-- A marker with a span is stored under a schema of spans. -/
theorem schema_of_span {m : Marker} {span : Span} (h : m.span = some span) :
    m.schema = .span m.fieldNames := by
  rw [schema, h]
  rfl

/-- The times of the marker, if it is a span, can be given in milliseconds. -/
def isMeasurable (m : Marker) : Bool :=
  m.span.all fun span => (Duration.toMilliseconds span.timings.idle).isOk &&
    (Duration.toMilliseconds span.timings.busy).isOk

/-- The name under which a marker is stored. -/
def shownName (m : Marker) : String :=
  match m.span with
  | none => m.target
  | some span => span.profilerLabel.getD span.kind.name

/-- The name of the category that a marker is stored with. -/
def categoryName (m : Marker) : String :=
  match m.span with
  | none => loggingCategory
  | some span => span.category

/-- The values are those of the fixed fields of a marker. -/
def FixedValues (m : Marker) (p : Profile) (values : List FieldValue) : Prop :=
  ∃ message, p.getString message = .ok m.message ∧
    match m.span with
    | none => values = [.text message]
    | some span => ∃ idle busy, Duration.toMilliseconds span.timings.idle = .ok idle ∧
        Duration.toMilliseconds span.timings.busy = .ok busy ∧
        values = [.number (.real idle), .number (.real busy), .text message]

/-- The stored marker is what a profile is to keep of a marker. -/
structure StoredAs (m : Marker) (p : Profile) (stored : StoredMarker) : Prop where
  /-- The schema is found by its type name. -/
  found : p.schemas.find? m.schema.typeName = some stored.schema
  /-- It is the schema for the kind and the field names of the marker. -/
  schema : p.schemas.get? stored.schema = some m.schema
  /-- The values are those of the fixed fields and the handles of the further ones. -/
  values : ∃ fixed extra, stored.values = fixed ++ extra.map .text ∧ m.FixedValues p fixed ∧
    List.Forall₂ (fun handle text => p.getString handle = .ok text) extra m.fieldValues
  /-- The name. -/
  name : p.getString stored.name = .ok m.shownName
  /-- The category. -/
  category : ∃ handle : Nat, stored.category = handle ∧
    p.categories.find? m.categoryName = some handle
  /-- The start. -/
  start : stored.timing.start = m.start
  /-- The end. -/
  stop : stored.timing.stop = m.span.map (·.stop)
  /-- There is no stack. -/
  stack : stored.stack = none

end Marker

variable {p p' p'' : Profile} {stored more : List (Nat × StoredMarker)}

namespace Profile.Gains

/-- With no markers, nothing need change. -/
theorem refl (p : Profile) : p.Gains p [] where
  strings := .refl _
  categories := .refl _
  schemas := .refl _
  threads := by
    refine List.ext_getElem? fun i => ?_
    rw [List.getElem?_mapIdx]
    cases p.threads[i]? <;> simp [StoredMarker.own]
  rest := rfl

/-- Markers may be stored in two parts. -/
theorem trans (h : p.Gains p' stored) (h' : p'.Gains p'' more) : p.Gains p'' (stored ++ more) where
  strings := h.strings.trans h'.strings
  categories := h.categories.trans h'.categories
  schemas := h.schemas.trans h'.schemas
  threads := by
    rw [h'.threads, h.threads, List.mapIdx_mapIdx]
    simp [StoredMarker.own, Function.comp_def]
  rest := by
    have hrest := congrArg (fun x : Profile => { x with
      strings := p.strings, categories := p.categories, schemas := p.schemas,
      threads := p.threads }) h'.rest
    exact hrest.trans h.rest

/-- The tables may grow for themselves. -/
theorem of_tables {strings categories schemas} (hstrings : p.strings.Extends strings)
    (hcategories : p.categories.Extends categories) (hschemas : p.schemas.Extends schemas) :
    p.Gains { p with strings, categories, schemas } [] :=
  ⟨hstrings, hcategories, hschemas, (refl p).threads, rfl⟩

/-- A marker is put behind those of a thread. -/
theorem of_set {thread : Nat} {t : Thread} {strings categories schemas} (m : StoredMarker)
    (ht : p.threads[thread]? = some t) (hstrings : p.strings.Extends strings)
    (hcategories : p.categories.Extends categories) (hschemas : p.schemas.Extends schemas) :
    p.Gains { p with
      strings, categories, schemas
      threads := p.threads.set thread { t with markers := t.markers ++ [m] } } [(thread, m)] where
  strings := hstrings
  categories := hcategories
  schemas := hschemas
  threads := by
    refine List.ext_getElem? fun i => ?_
    rw [List.getElem?_mapIdx, List.getElem?_set]
    by_cases hi : thread = i
    · subst hi
      rw [if_pos rfl, if_pos (List.getElem?_eq_some_iff.mp ht).1, ht]
      simp [StoredMarker.own]
    · simp [hi, StoredMarker.own]
  rest := rfl

end Profile.Gains

/-- A stored marker is the same in a profile that has gained more. -/
theorem Marker.StoredAs.mono {m : Marker} {s : StoredMarker} (h : m.StoredAs p s)
    (hgains : p.Gains p' more) : m.StoredAs p' s := by
  have hstring {handle : Nat} {text : String} (htext : p.getString handle = .ok text) :
      p'.getString handle = .ok text :=
    Profile.getString_eq_ok_iff.mpr (hgains.strings.get? (Profile.getString_eq_ok_iff.mp htext))
  obtain ⟨fixed, extra, hvalues, ⟨message, hmessage, hfixed⟩, hextra⟩ := h.values
  obtain ⟨handle, hhandle, hfound⟩ := h.category
  exact ⟨hgains.schemas.find? h.found, hgains.schemas.get? h.schema,
    ⟨fixed, extra, hvalues, ⟨message, hstring hmessage, hfixed⟩, hextra.imp fun _ _ => hstring⟩,
    hstring h.name, ⟨handle, hhandle, hgains.categories.find? hfound⟩, h.start, h.stop, h.stack⟩

namespace HandleCache

section Recalls

variable {α β κ : Type} [BEq β] [DecidableEq κ] {key : α → κ} {c c' : Catalogue key}
  {keyOf : β → κ} {table : List (β × Nat)}

/-- Every handle that is kept is the one under which the catalogue would find the key. -/
def Recalls (table : List (β × Nat)) (c : Catalogue key) (keyOf : β → κ) : Prop :=
  ∀ b handle, table.lookup b = some handle → c.find? (keyOf b) = some handle

/-- A table without keys keeps no handle. -/
theorem recalls_nil : Recalls [] c keyOf := fun _ _ h => nomatch h

/-- The handles stay good when the catalogue grows. -/
theorem Recalls.mono (h : Recalls table c keyOf) (hextends : c.Extends c') :
    Recalls table c' keyOf :=
  fun b handle hlookup => hextends.find? (h b handle hlookup)

/-- A handle that the catalogue finds may be kept. -/
theorem Recalls.insert [LawfulBEq β] (h : Recalls table c keyOf) {b : β} {handle : Nat}
    (hfound : c.find? (keyOf b) = some handle) :
    Recalls (Assoc.insert b handle table) c keyOf := by
  intro b' handle' hlookup
  rw [Assoc.lookup_insert] at hlookup
  split at hlookup
  · rename_i hsame
    cases hlookup
    rw [eq_of_beq hsame]
    exact hfound
  · exact h b' handle' hlookup

/-- With a good table, it makes no difference to the profile whether a handle is kept or asked for:
either way the catalogue is as if it had given the entry a handle. -/
theorem Recalls.fetch_spec [LawfulBEq β] (h : Recalls table c keyOf)
    (hold : Catalogue key → Profile) {b : β} (entry : α) (request : Edit Nat)
    (hkey : key entry = keyOf b)
    (hrequest : request.runOn (hold c) = (.ok (c.ensure entry).1, hold (c.ensure entry).2)) :
    ∃ table', (fetch table b request).runOn (hold c) =
        (.ok ((c.ensure entry).1, table'), hold (c.ensure entry).2) ∧
      Recalls table' (c.ensure entry).2 keyOf := by
  unfold fetch
  cases hlookup : table.lookup b with
  | some handle =>
    have hfound : c.find? (key entry) = some handle := hkey ▸ h b handle hlookup
    rw [Catalogue.ensure_of_find? hfound]
    exact ⟨table, rfl, h⟩
  | none =>
    have hfound : (c.ensure entry).2.find? (keyOf b) = some (c.ensure entry).1 :=
      hkey ▸ Catalogue.find?_ensure entry c
    refine ⟨_, ?_, (h.mono (Catalogue.extends_ensure entry c)).insert hfound⟩
    rw [Edit.runOn_bind_ok hrequest]
    rfl

end Recalls

/-- The handles in the cache are those that the tables of a profile would give. -/
structure Sound (cache : HandleCache) (p : Profile) : Prop where
  /-- Categories. -/
  categories : Recalls cache.categories p.categories id
  /-- Schemas of events. -/
  events : Recalls cache.events p.schemas fun names => (MarkerSchema.event names).typeName
  /-- Schemas of spans. -/
  spans : Recalls cache.spans p.schemas fun names => (MarkerSchema.span names).typeName

/-- An empty cache is good for every profile. -/
theorem sound_empty (p : Profile) : empty.Sound p :=
  ⟨recalls_nil, recalls_nil, recalls_nil⟩

variable {cache : HandleCache}

/-- A good cache stays good when categories and schemas are added. -/
theorem Sound.mono (h : cache.Sound p) (hcategories : p.categories.Extends p'.categories)
    (hschemas : p.schemas.Extends p'.schemas) : cache.Sound p' :=
  ⟨h.categories.mono hcategories, h.events.mono hschemas, h.spans.mono hschemas⟩

/-- A sound cache answers as the table of categories does. -/
theorem category_spec (h : cache.Sound p) (name : String) :
    ∃ cache', (cache.category name).runOn p =
        (.ok ((p.categories.ensure ⟨name, .green⟩).1, cache'),
          { p with categories := (p.categories.ensure ⟨name, .green⟩).2 }) ∧
      cache'.Sound { p with categories := (p.categories.ensure ⟨name, .green⟩).2 } := by
  obtain ⟨categories, hrun, hcategories⟩ := h.categories.fetch_spec
    (fun categories => { p with categories }) ⟨name, .green⟩ (Edit.addCategory name .green) rfl rfl
  refine ⟨{ cache with categories }, ?_, hcategories, h.events, h.spans⟩
  rw [category, Edit.runOn_bind_ok hrun]
  rfl

/-- A sound cache answers as the table of schemas does, for events and for spans. -/
theorem schema_spec (h : cache.Sound p) (isSpan : Bool) (names : List String) :
    ∃ cache', (cache.schema isSpan names).runOn p =
        (.ok ((p.schemas.ensure (.ofKind isSpan names)).1, cache'),
          { p with schemas := (p.schemas.ensure (.ofKind isSpan names)).2 }) ∧
      cache'.Sound { p with schemas := (p.schemas.ensure (.ofKind isSpan names)).2 } := by
  have hextends := Catalogue.extends_ensure (MarkerSchema.ofKind isSpan names) p.schemas
  cases isSpan with
  | false =>
    obtain ⟨events, hrun, hevents⟩ := h.events.fetch_spec (fun schemas => { p with schemas })
      (.event names) (Edit.registerSchema (.event names)) rfl rfl
    refine ⟨{ cache with events }, ?_, h.categories, hevents, h.spans.mono hextends⟩
    rw [schema, Edit.runOn_bind_ok hrun]
    rfl
  | true =>
    obtain ⟨spans, hrun, hspans⟩ := h.spans.fetch_spec (fun schemas => { p with schemas })
      (.span names) (Edit.registerSchema (.span names)) rfl rfl
    refine ⟨{ cache with spans }, ?_, h.categories, h.events.mono hextends, hspans⟩
    rw [schema, Edit.runOn_bind_ok hrun]
    rfl

end HandleCache

namespace Payload

/-- The payload of an event holds handles of its texts. -/
theorem ofEvent_spec (category : Int) (m : Marker) (schema : Nat) (values : List String)
    (p : Profile) :
    ∃ message target extra strings, p.strings.Extends strings ∧
      (ofEvent category m schema values).runOn p =
        (.ok ⟨schema, target, category, .event message extra⟩, { p with strings }) ∧
      strings.get? message = some m.message ∧ strings.get? target = some m.target ∧
      List.Forall₂ (fun handle text => strings.get? handle = some text) extra values := by
  obtain ⟨message, strings₁, hextends₁, hrun₁, hmessage⟩ := Edit.internString_spec m.message p
  obtain ⟨target, strings₂, hextends₂, hrun₂, htarget⟩ :=
    Edit.internString_spec m.target { p with strings := strings₁ }
  obtain ⟨extra, strings₃, hextends₃, hrun₃, hextra⟩ :=
    Edit.internStrings_spec values { p with strings := strings₂ }
  refine ⟨message, target, extra, strings₃, hextends₁.trans (hextends₂.trans hextends₃), ?_,
    hextends₃.get? (hextends₂.get? hmessage), hextends₃.get? htarget, hextra⟩
  rw [ofEvent, Edit.runOn_bind_ok hrun₁, Edit.runOn_bind_ok hrun₂, Edit.runOn_bind_ok hrun₃]
  rfl

/-- The payload of a span holds handles of its texts and of its category. -/
theorem ofSpan_spec {cache : HandleCache} (hcache : cache.Sound p) (m : Marker) (span : Span)
    (schema : Nat) (values : List String) :
    let categories := p.categories.ensure ⟨span.category, .green⟩
    ∃ label message extra strings cache', p.strings.Extends strings ∧
      (ofSpan cache m span schema values).runOn p =
        (.ok (⟨schema, label, (categories.1 : Nat), .span span.timings message extra⟩, cache'),
          { p with strings, categories := categories.2 }) ∧
      cache'.Sound { p with strings, categories := categories.2 } ∧
      strings.get? label = some (span.profilerLabel.getD span.kind.name) ∧
      strings.get? message = some m.message ∧
      List.Forall₂ (fun handle text => strings.get? handle = some text) extra values := by
  intro categories
  obtain ⟨label, strings₁, hextends₁, hrun₁, hlabel⟩ :=
    Edit.internString_spec (span.profilerLabel.getD span.kind.name) p
  have hcache₁ : cache.Sound { p with strings := strings₁ } := hcache.mono (.refl _) (.refl _)
  obtain ⟨cache', hrun₂, hcache'⟩ := HandleCache.category_spec hcache₁ span.category
  obtain ⟨message, strings₃, hextends₃, hrun₃, hmessage⟩ :=
    Edit.internString_spec m.message { p with strings := strings₁, categories := categories.2 }
  obtain ⟨extra, strings₄, hextends₄, hrun₄, hextra⟩ :=
    Edit.internStrings_spec values { p with strings := strings₃, categories := categories.2 }
  refine ⟨label, message, extra, strings₄, cache', hextends₁.trans (hextends₃.trans hextends₄), ?_,
    hcache'.mono (.refl _) (.refl _), hextends₄.get? (hextends₃.get? hlabel),
    hextends₄.get? hmessage, hextra⟩
  rw [ofSpan, Edit.runOn_bind_ok hrun₁, Edit.runOn_bind_ok hrun₂]
  dsimp only
  rw [Edit.runOn_bind_ok hrun₃, Edit.runOn_bind_ok hrun₄]
  rfl

end Payload

namespace Marker

/-- There is a value for every field name. -/
theorem length_fieldValues (m : Marker) : m.fieldValues.length = m.fieldNames.length := by
  rw [fieldValues, fieldNames, List.length_map, List.length_map]

/-- A payload holds the message and the further texts of a marker, and the times of a span. -/
def HeldBy (m : Marker) (p : Profile) (body : PayloadBody) : Prop :=
  ∃ message extra, p.getString message = .ok m.message ∧
    List.Forall₂ (fun handle text => p.getString handle = .ok text) extra m.fieldValues ∧
    body = match m.span with
      | none => .event message extra
      | some span => .span span.timings message extra

/-- The times and the payload of a marker, with handles into the profile. -/
structure Prepared (m : Marker) (p : Profile) (timing : MarkerTiming) (payload : Payload) :
    Prop where
  /-- The schema is found by its type name. -/
  schema : p.schemas.find? m.schema.typeName = some payload.schema
  /-- The name. -/
  name : p.getString payload.name = .ok m.shownName
  /-- The category. -/
  category : ∃ handle : Nat, payload.category = handle ∧
    p.categories.find? m.categoryName = some handle
  /-- The start. -/
  start : timing.start = m.start
  /-- The end. -/
  stop : timing.stop = m.span.map (·.stop)
  /-- What the payload holds. -/
  body : m.HeldBy p payload.body
  /-- The values that the payload gives for the schema of the marker. -/
  values : if m.isMeasurable then
      ∃ fixed extra, payload.body.valuesFrom 0 m.schema.fields = .ok (fixed ++ extra.map .text) ∧
        m.FixedValues p fixed ∧
        List.Forall₂ (fun handle text => p.getString handle = .ok text) extra m.fieldValues
    else payload.body.valuesFrom 0 m.schema.fields = .error Failure.decimalRange

/-- Storing a marker comes down to adding its payload, once the tables have grown. -/
def Prepares (m : Marker) (p : Profile) (logging thread : Nat) (cache : HandleCache) : Prop :=
  ∃ strings categories, p.strings.Extends strings ∧ p.categories.Extends categories ∧
    let before := { p with strings, categories, schemas := (p.schemas.ensure m.schema).2 }
    ∃ timing payload cache', m.Prepared before timing payload ∧ cache'.Sound before ∧
      (m.store logging thread cache).runOn p =
        (do
          let _ ← Edit.addMarker thread timing payload
          pure cache' : Edit HandleCache).runOn before

section Store

variable {m : Marker} {thread logging : Nat} {t : Thread} {cache : HandleCache}

/-- Storing an event comes down to adding its payload. -/
theorem prepares_event (hevent : m.span = none) (hcache : cache.Sound p)
    (hlogging : p.categories.find? loggingCategory = some logging) :
    m.Prepares p logging thread cache := by
  have hschema := schema_of_event hevent
  have hfound := Catalogue.find?_ensure m.schema p.schemas
  obtain ⟨cache', hrun₁, hcache'⟩ := HandleCache.schema_spec hcache false m.fieldNames
  have hkind : MarkerSchema.ofKind false m.fieldNames = m.schema := hschema.symm
  rw [hkind] at hrun₁ hcache'
  obtain ⟨message, name, extra, strings, hstrings, hrun₂, hmessage, hname, hextra⟩ :=
    Payload.ofEvent_spec logging m (p.schemas.ensure m.schema).1 m.fieldValues
      { p with schemas := (p.schemas.ensure m.schema).2 }
  have hvalues := PayloadBody.valuesFrom_event message (hextra.length_eq.trans m.length_fieldValues)
  rw [← hschema] at hvalues
  refine ⟨strings, p.categories, hstrings, .refl _, .instant m.start,
    ⟨(p.schemas.ensure m.schema).1, name, logging, .event message extra⟩, cache', ?_,
    hcache'.mono (.refl _) (.refl _), ?_⟩
  · have hmeasurable : m.isMeasurable = true := by
      rw [isMeasurable, hevent]
      rfl
    exact
      { schema := hfound
        name := by
          rw [shownName, hevent]
          exact Profile.getString_eq_ok_iff.mpr hname
        category := ⟨logging, rfl, by rw [categoryName, hevent]; exact hlogging⟩
        start := rfl
        stop := by rw [hevent]; rfl
        body := ⟨message, extra, Profile.getString_eq_ok_iff.mpr hmessage,
          hextra.imp fun _ _ => Profile.getString_eq_ok_iff.mpr, by rw [hevent]⟩
        values := by
          rw [if_pos hmeasurable]
          exact ⟨[.text message], extra, hvalues,
            ⟨message, Profile.getString_eq_ok_iff.mpr hmessage, by rw [hevent]⟩,
            hextra.imp fun _ _ => Profile.getString_eq_ok_iff.mpr⟩ }
  · rw [store, hevent]
    dsimp only
    rw [Edit.runOn_bind_ok hrun₁]
    dsimp only
    rw [Edit.runOn_bind_ok hrun₂]

/-- Storing a span that does not end before it starts comes down to adding its payload. -/
theorem prepares_span {span : Span} (hspan : m.span = some span)
    (hordered : m.start ≤ span.stop) (hcache : cache.Sound p) :
    m.Prepares p logging thread cache := by
  have hschema := schema_of_span hspan
  have hfound := Catalogue.find?_ensure m.schema p.schemas
  obtain ⟨cache₁, hrun₁, hcache₁⟩ := HandleCache.schema_spec hcache true m.fieldNames
  have hkind : MarkerSchema.ofKind true m.fieldNames = m.schema := hschema.symm
  rw [hkind] at hrun₁ hcache₁
  obtain ⟨name, message, extra, strings, cache', hstrings, hrun₂, hcache', hname, hmessage,
    hextra⟩ := Payload.ofSpan_spec hcache₁ m span (p.schemas.ensure m.schema).1 m.fieldValues
  have hvalues := PayloadBody.valuesFrom_span span.timings message
    (hextra.length_eq.trans m.length_fieldValues)
  rw [← hschema] at hvalues
  let timing : MarkerTiming := ⟨m.start, some span.stop, by
    rintro last ⟨⟩
    exact hordered⟩
  have htiming (q : Profile) :
      (Edit.ofExcept (MarkerTiming.interval m.start span.stop)).runOn q = (.ok timing, q) := by
    rw [MarkerTiming.interval, dif_neg (Int.not_lt.mpr hordered)]
    rfl
  let category : Category := ⟨span.category, .green⟩
  refine ⟨strings, _, hstrings, Catalogue.extends_ensure category _, timing,
    ⟨(p.schemas.ensure m.schema).1, name, ((p.categories.ensure category).1 : Nat),
      .span span.timings message extra⟩, cache', ?_, hcache'.mono (.refl _) (.refl _), ?_⟩
  · exact
      { schema := hfound
        name := by
          rw [shownName, hspan]
          exact Profile.getString_eq_ok_iff.mpr hname
        category := ⟨_, rfl, by
          rw [categoryName, hspan]
          exact Catalogue.find?_ensure category p.categories⟩
        start := rfl
        stop := by rw [hspan]; rfl
        body := ⟨message, extra, Profile.getString_eq_ok_iff.mpr hmessage,
          hextra.imp fun _ _ => Profile.getString_eq_ok_iff.mpr, by rw [hspan]⟩
        values := by
          rw [hvalues, isMeasurable, hspan, Option.all_some]
          cases hidle : Duration.toMilliseconds span.timings.idle with
          | error f =>
            rw [Duration.eq_decimalRange_of_toMilliseconds hidle]
            rfl
          | ok idle =>
            cases hbusy : Duration.toMilliseconds span.timings.busy with
            | error f =>
              rw [Duration.eq_decimalRange_of_toMilliseconds hbusy]
              rfl
            | ok busy =>
              refine ⟨[.number (.real idle), .number (.real busy), .text message], extra, rfl,
                ⟨message, Profile.getString_eq_ok_iff.mpr hmessage, ?_⟩,
                hextra.imp fun _ _ => Profile.getString_eq_ok_iff.mpr⟩
              rw [hspan]
              exact ⟨idle, busy, hidle, hbusy, rfl⟩ }
  · rw [store, hspan]
    dsimp only
    rw [Edit.runOn_bind_ok hrun₁]
    dsimp only
    rw [Edit.runOn_bind_ok hrun₂]
    dsimp only
    rw [Edit.runOn_bind_ok (htiming _)]

/-- Any marker that does not end before it starts comes down to its payload. -/
theorem prepares (hordered : ∀ span ∈ m.span, m.start ≤ span.stop) (hcache : cache.Sound p)
    (hlogging : p.categories.find? loggingCategory = some logging) :
    m.Prepares p logging thread cache := by
  cases hspan : m.span with
  | none => exact prepares_event hspan hcache hlogging
  | some span => exact prepares_span hspan (hordered span hspan) hcache

/-- A marker whose thread is there is stored if its times can be given in milliseconds. -/
theorem store_spec (hordered : ∀ span ∈ m.span, m.start ≤ span.stop) (hcache : cache.Sound p)
    (ht : p.threads[thread]? = some t)
    (hlogging : p.categories.find? loggingCategory = some logging)
    (htell : ∀ schema ∈ p.schemas.entries,
      schema.typeName = m.schema.typeName → schema = m.schema) :
    ∃ p', p'.schemas = (p.schemas.ensure m.schema).2 ∧
      if m.isMeasurable then
        ∃ cache' s, (m.store logging thread cache).runOn p = (.ok cache', p') ∧
          cache'.Sound p' ∧ m.StoredAs p' s ∧ p.Gains p' [(thread, s)]
      else
        (m.store logging thread cache).runOn p = (.error Failure.decimalRange, p') ∧
          p.Gains p' [] := by
  obtain ⟨strings, categories, hstrings, hcategories, timing, payload, cache', hprepared, hcache',
    hstore⟩ := prepares hordered hcache hlogging
  have hschemas := Catalogue.extends_ensure m.schema p.schemas
  have hget : (p.schemas.ensure m.schema).2.get? payload.schema = some m.schema := by
    rw [← Option.some.inj ((Catalogue.find?_ensure m.schema p.schemas).symm.trans hprepared.schema)]
    exact Catalogue.get?_ensure_of_unique htell
  generalize (p.schemas.ensure m.schema).2 = schemas at *
  let before : Profile := { p with strings, categories, schemas }
  have hthread : before.threads[thread]? = some t := ht
  have hschema : before.schemas.get? payload.schema = some m.schema := hget
  have hvalues := hprepared.values
  rw [hstore, Edit.runOn_bind, Edit.runOn_addMarker hthread hschema]
  cases hmeasurable : m.isMeasurable with
  | false =>
    rw [if_neg (by simp [hmeasurable])] at hvalues
    rw [hvalues]
    exact ⟨before, rfl, rfl, .of_tables hstrings hcategories hschemas⟩
  | true =>
    rw [if_pos hmeasurable] at hvalues
    obtain ⟨fixed, extra, hvalues, hfixed, hextra⟩ := hvalues
    rw [hvalues]
    let stored : StoredMarker :=
      ⟨timing, payload.name, payload.category, payload.schema, fixed ++ extra.map .text, none⟩
    refine ⟨{ before with
      threads := p.threads.set thread { t with markers := t.markers ++ [stored] } }, rfl, cache',
      stored, rfl, hcache'.mono (.refl _) (.refl _), ?_,
      .of_set _ ht hstrings hcategories hschemas⟩
    exact ⟨hprepared.schema, hget, ⟨fixed, extra, rfl, hfixed, hextra⟩, hprepared.name,
      hprepared.category, hprepared.start, hprepared.stop, rfl⟩

end Store

/-- The profile has the schema, or one of the markers is to be stored under it. -/
def InUse (p : Profile) (markers : List (Nat × Marker)) (schema : MarkerSchema) : Prop :=
  schema ∈ p.schemas.entries ∨ ∃ entry ∈ markers, schema = entry.2.schema

/-- No other schema in use has the type name of one that a marker is to be stored under. -/
def NamesTell (p : Profile) (markers : List (Nat × Marker)) : Prop :=
  ∀ entry ∈ markers, ∀ schema, InUse p markers schema →
    schema.typeName = entry.2.schema.typeName → schema = entry.2.schema

section Step

variable {first : Nat × Marker} {rest : List (Nat × Marker)}

/-- When the first marker has come with its schema, no schema is in use that was not before. -/
theorem InUse.of_step {schema : MarkerSchema} (h : InUse p' rest schema)
    (hschemas : p'.schemas = (p.schemas.ensure first.2.schema).2) :
    InUse p (first :: rest) schema := by
  rcases h with hold | ⟨entry, hentry, rfl⟩
  · rw [hschemas] at hold
    rcases Catalogue.mem_entries_ensure hold with hold | rfl
    · exact .inl hold
    · exact .inr ⟨first, List.mem_cons_self, rfl⟩
  · exact .inr ⟨entry, List.mem_cons_of_mem _ hentry, rfl⟩

/-- If no two schemas in use share a type name, this is so after the first marker, too. -/
theorem NamesTell.step (h : NamesTell p (first :: rest))
    (hschemas : p'.schemas = (p.schemas.ensure first.2.schema).2) : NamesTell p' rest :=
  fun entry hentry schema huse =>
    h entry (List.mem_cons_of_mem _ hentry) schema (huse.of_step hschemas)

end Step

/-- The markers are stored one after the other. -/
def storeAll (logging : Nat) (cache : HandleCache) (markers : List (Nat × Marker)) :
    Edit HandleCache :=
  markers.foldlM (fun cache entry => entry.2.store logging entry.1 cache) cache

/-- Markers are stored in their order, up to the first whose times cannot be given in
milliseconds. Only their own schemas come to the profile. -/
theorem storeAll_spec {logging : Nat} {cache : HandleCache} {markers : List (Nat × Marker)}
    (hordered : ∀ entry ∈ markers, ∀ span ∈ entry.2.span, entry.2.start ≤ span.stop)
    (hthreads : ∀ entry ∈ markers, entry.1 < p.threads.length) (hcache : cache.Sound p)
    (hlogging : p.categories.find? loggingCategory = some logging) (htell : NamesTell p markers) :
    ∃ p' stored, p.Gains p' stored ∧
      List.Forall₂ (fun entry s => s.1 = entry.1 ∧ entry.2.StoredAs p' s.2)
        (markers.takeWhile (·.2.isMeasurable)) stored ∧
      ∃ result : Except Fault HandleCache,
        (storeAll logging cache markers).runOn p = (result, p') ∧
        (if markers.all (·.2.isMeasurable) then ∃ cache', result = .ok cache'
        else result = .error Failure.decimalRange) ∧
        ∀ schema ∈ p'.schemas.entries, InUse p markers schema := by
  induction markers generalizing p cache with
  | nil =>
    exact ⟨p, [], .refl p, .nil, .ok cache, rfl, ⟨cache, rfl⟩, fun _ => .inl⟩
  | cons first rest ih =>
    have hthread := List.getElem?_eq_getElem (hthreads first List.mem_cons_self)
    obtain ⟨p₁, hschemas, hstore⟩ := store_spec (hordered first List.mem_cons_self) hcache hthread
      hlogging fun schema hold => htell first List.mem_cons_self schema (.inl hold)
    have hunfold : storeAll logging cache (first :: rest) =
        first.2.store logging first.1 cache >>= fun cache => storeAll logging cache rest :=
      List.foldlM_cons
    rw [hunfold, List.all_cons]
    cases hmeasurable : first.2.isMeasurable with
    | false =>
      rw [if_neg (by simp [hmeasurable])] at hstore
      obtain ⟨hrun, hgains⟩ := hstore
      rw [List.takeWhile_cons, hmeasurable, Edit.runOn_bind, hrun]
      refine ⟨p₁, [], hgains, .nil, _, rfl, rfl, fun schema hmem => ?_⟩
      exact InUse.of_step (.inl hmem) hschemas
    | true =>
      rw [if_pos hmeasurable] at hstore
      obtain ⟨cache₁, s, hrun, hcache₁, hs, hgains⟩ := hstore
      have hlength : p₁.threads.length = p.threads.length := by
        rw [hgains.threads, List.length_mapIdx]
      obtain ⟨p', stored, hgains', hstored, result, hrun', hresult, huse⟩ :=
        ih (fun entry h => hordered entry (List.mem_cons_of_mem _ h))
          (fun entry h => hlength ▸ hthreads entry (List.mem_cons_of_mem _ h)) hcache₁
          (hgains.categories.find? hlogging) (htell.step hschemas)
      rw [List.takeWhile_cons, hmeasurable, Edit.runOn_bind_ok hrun]
      exact ⟨p', (first.1, s) :: stored, hgains.trans hgains',
        .cons ⟨rfl, hs.mono hgains'⟩ hstored, result, hrun', hresult,
        fun schema hmem => (huse schema hmem).of_step hschemas⟩

end Marker

/-- The loop of a flush comes after the category of events. -/
theorem runOn_flushMarkers (markers : List (Nat × Marker)) (p : Profile) :
    let categories := p.categories.ensure ⟨loggingCategory, .green⟩
    (flushMarkers markers).runOn p =
      (do
        let _ ← Marker.storeAll categories.1 .empty markers
        pure (.ofMarkers (markers.map (·.2))) : Edit Statistics).runOn
        { p with categories := categories.2 } :=
  rfl

/-- Markers are flushed into a profile in which type names tell their schemas apart. All of them
are stored, or those before the first whose times cannot be given in milliseconds; this is the only
fault that can end the flush. -/
theorem flushMarkers_spec {markers : List (Nat × Marker)}
    (hordered : ∀ entry ∈ markers, ∀ span ∈ entry.2.span, entry.2.start ≤ span.stop)
    (hthreads : ∀ entry ∈ markers, entry.1 < p.threads.length)
    (htell : Marker.NamesTell p markers) :
    ∃ result p' stored, (flushMarkers markers).runOn p = (result, p') ∧
      result = (if markers.all (·.2.isMeasurable) then .ok (.ofMarkers (markers.map (·.2)))
        else .error Failure.decimalRange) ∧
      p.Gains p' stored ∧
      List.Forall₂ (fun entry s => s.1 = entry.1 ∧ entry.2.StoredAs p' s.2)
        (markers.takeWhile (·.2.isMeasurable)) stored ∧
      ∀ schema ∈ p'.schemas.entries, Marker.InUse p markers schema := by
  have hcategories :=
    Catalogue.extends_ensure (⟨loggingCategory, .green⟩ : Category) p.categories
  have hlogging := Catalogue.find?_ensure (⟨loggingCategory, .green⟩ : Category) p.categories
  have hflush := runOn_flushMarkers markers p
  dsimp only at hflush
  generalize p.categories.ensure ⟨loggingCategory, .green⟩ = ensured at *
  obtain ⟨logging, categories⟩ := ensured
  let before : Profile := { p with categories }
  obtain ⟨p', stored, hgains, hstored, result, hrun, hresult, huse⟩ :
      ∃ p' stored, before.Gains p' stored ∧ _ :=
    Marker.storeAll_spec hordered hthreads (HandleCache.sound_empty before) hlogging htell
  have hgains' : p.Gains p' stored :=
    (Profile.Gains.of_tables (.refl _) hcategories (.refl _)).trans hgains
  rw [Edit.runOn_bind, hrun] at hflush
  refine ⟨result.map fun _ => .ofMarkers (markers.map (·.2)), p', stored, ?_, ?_, hgains', hstored,
    huse⟩
  · rw [hflush]
    cases result <;> rfl
  · cases hall : markers.all (·.2.isMeasurable) with
    | true =>
      rw [hall] at hresult
      obtain ⟨cache, rfl⟩ := hresult
      rfl
    | false =>
      rw [hall] at hresult
      rw [hresult]
      rfl

end TraceProfile
