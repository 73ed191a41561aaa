import TraceProfile.Assembly.Counters
import TraceProfile.Proofs.Assembly.Markers
import TraceProfile.Proofs.Profile.Success

/-!
# Markers and counters that were stored

A flush of markers and counters that succeeds has stored each of them: a marker for a marker, a
marker for each sample of a custom counter, and a track for any other counter. A stored marker has
the schema that its type name is found under. No assumption on the schemas of the profile is made,
so that schema need not be the one for the kind and the fields of the marker; its values are those
that the payload gives for whatever fields it has.
-/

namespace TraceProfile

/-- The entries that belong to a thread. -/
def entriesOf {α : Type} (thread : Nat) (entries : List (Nat × α)) : List α :=
  entries.filterMap fun entry => if entry.1 = thread then some entry.2 else none

/-- The stored marker is filled by a payload, under the schema that a type name is found under. -/
structure StoredMarker.FilledBy (p : Profile) (typeName : String) (body : PayloadBody)
    (stored : StoredMarker) : Prop where
  /-- The schema is found by its type name. -/
  found : p.schemas.find? typeName = some stored.schema
  /-- The values are those of the payload for the fields of the schema. -/
  values : ∃ schema, p.schemas.get? stored.schema = some schema ∧
    body.valuesFrom 0 schema.fields = .ok stored.values
  /-- There is no stack. -/
  stack : stored.stack = none

/-- The stored marker stands for a marker. -/
structure Marker.FiledAs (m : Marker) (p : Profile) (stored : StoredMarker) : Prop where
  /-- The values are those of the marker. -/
  filled : ∃ body, m.HeldBy p body ∧ stored.FilledBy p m.schema.typeName body
  /-- The name. -/
  name : p.getString stored.name = .ok m.shownName
  /-- The category. -/
  category : ∃ handle : Nat, stored.category = handle ∧
    p.categories.find? m.categoryName = some handle
  /-- The start. -/
  start : stored.timing.start = m.start
  /-- The end. -/
  stop : stored.timing.stop = m.span.map (·.stop)

namespace Counter

/-- The stored marker stands for a sample of a counter. -/
structure PlottedAs (c : Counter) (sample : CounterSample) (p : Profile)
    (stored : StoredMarker) : Prop where
  /-- The value is that of the sample. -/
  filled : stored.FilledBy p (MarkerSchema.graph c.name c.color).typeName
    (.graphPoint sample.value)
  /-- The name. -/
  name : p.getString stored.name = .ok c.name
  /-- The category. -/
  category : stored.category = Profile.otherCategory
  /-- It is instant. -/
  timing : stored.timing = .instant sample.time

/-- The track of a counter. -/
def track (c : Counter) (process : Nat) : CounterTrack :=
  ⟨process, c.name, c.category, c.description, c.color,
    c.samples.map fun sample => (sample.time, sample.value, sample.count)⟩

/-- The samples that become markers: those of a custom counter. -/
def points (c : Counter) (thread : Nat) : List (Nat × Counter × CounterSample) :=
  if c.category = .custom then c.samples.map fun sample => (thread, c, sample) else []

/-- The counter as a track, unless it is a custom one. -/
def tracks (c : Counter) (process : Nat) : List CounterTrack :=
  if c.category = .custom then [] else [c.track process]

end Counter

variable {p p' p'' : Profile} {stored more : List (Nat × StoredMarker)}

/-- When markers are stored, the handles of all three tables stay good. -/
theorem Profile.Gains.tables (h : p.Gains p' stored) : p.Extends p' :=
  ⟨h.strings, h.categories, h.schemas⟩

/-- Storing markers leaves the counters of a profile as they are. -/
theorem Profile.Gains.counters (h : p.Gains p' stored) : p'.counters = p.counters :=
  (congrArg Profile.counters h.rest :)

/-- A stored marker holds the values of its payload in every later profile. -/
theorem StoredMarker.FilledBy.mono {typeName : String} {body : PayloadBody} {s : StoredMarker}
    (h : s.FilledBy p typeName body) (hextends : p.Extends p') :
    s.FilledBy p' typeName body := by
  obtain ⟨schema, hschema, hvalues⟩ := h.values
  exact ⟨hextends.schemas.find? h.found, ⟨schema, hextends.schemas.get? hschema, hvalues⟩, h.stack⟩

/-- A payload holds the texts of its marker in every later profile. -/
theorem Marker.HeldBy.mono {m : Marker} {body : PayloadBody} (h : m.HeldBy p body)
    (hextends : p.Extends p') : m.HeldBy p' body := by
  obtain ⟨message, extra, hmessage, hextra, hbody⟩ := h
  exact ⟨message, extra, hextends.getString hmessage,
    hextra.imp fun _ _ => hextends.getString, hbody⟩

/-- A marker stays as it was filed. -/
theorem Marker.FiledAs.mono {m : Marker} {s : StoredMarker} (h : m.FiledAs p s)
    (hextends : p.Extends p') : m.FiledAs p' s := by
  obtain ⟨body, hbody, hfilled⟩ := h.filled
  obtain ⟨handle, hhandle, hfound⟩ := h.category
  exact ⟨⟨body, hbody.mono hextends, hfilled.mono hextends⟩, hextends.getString h.name,
    ⟨handle, hhandle, hextends.categories.find? hfound⟩, h.start, h.stop⟩

/-- A point stays as it was plotted. -/
theorem Counter.PlottedAs.mono {c : Counter} {sample : CounterSample} {s : StoredMarker}
    (h : c.PlottedAs sample p s) (hextends : p.Extends p') : c.PlottedAs sample p' s :=
  ⟨h.filled.mono hextends, hextends.getString h.name, h.category, h.timing⟩

/-- Lists that correspond entry by entry also do so thread by thread. -/
theorem forall₂_entriesOf {α β : Type} {R : α → β → Prop} {l : List (Nat × α)}
    {l' : List (Nat × β)} (h : List.Forall₂ (fun a b => b.1 = a.1 ∧ R a.2 b.2) l l')
    (thread : Nat) : List.Forall₂ R (entriesOf thread l) (entriesOf thread l') := by
  induction h with
  | nil => exact .nil
  | @cons a b l l' hfirst _ ih =>
    obtain ⟨hsame, hrel⟩ := hfirst
    rw [entriesOf, entriesOf, List.filterMap_cons, List.filterMap_cons, hsame]
    by_cases hthread : a.1 = thread
    · rw [if_pos hthread, if_pos hthread]
      exact .cons hrel ih
    · rw [if_neg hthread, if_neg hthread]
      exact ih

/-- Whatever the counter tracks are, they take no part in what threads gain. -/
theorem Profile.Gains.withCounters (h : p.Gains p' stored) (counters : List CounterTrack) :
    { p with counters }.Gains { p' with counters } stored where
  strings := h.strings
  categories := h.categories
  schemas := h.schemas
  threads := h.threads
  rest := congrArg (fun q : Profile => { q with counters }) h.rest

/-- A marker that was added is filled by its payload. -/
theorem Edit.gains_of_addMarker {thread : Nat} {timing : MarkerTiming} {payload : Payload}
    {handle : MarkerHandle} {typeName : String}
    (hfound : p.schemas.find? typeName = some payload.schema)
    (h : (addMarker thread timing payload).runOn p = (.ok handle, p')) :
    ∃ s, p.Gains p' [(thread, s)] ∧ s.FilledBy p typeName payload.body ∧ s.timing = timing ∧
      s.name = payload.name ∧ s.category = payload.category := by
  obtain ⟨t, schema, values, ht, hschema, hvalues, rfl⟩ := of_runOn_addMarker h
  exact ⟨_, .of_set _ ht (.refl _) (.refl _) (.refl _), ⟨hfound, ⟨schema, hschema, hvalues⟩, rfl⟩,
    rfl, rfl, rfl⟩

namespace Marker

variable {m : Marker} {thread logging : Nat} {cache cache' : HandleCache}

/-- A span that is stored does not end before it starts. -/
theorem ordered_of_store (h : (m.store logging thread cache).runOn p = (.ok cache', p')) :
    ∀ span ∈ m.span, m.start ≤ span.stop := by
  intro span hspan
  rw [store, Option.mem_def.mp hspan] at h
  obtain ⟨_, _, _, h⟩ := Edit.of_runOn_bind h
  obtain ⟨_, _, _, h⟩ := Edit.of_runOn_bind h
  obtain ⟨timing, _, htiming, _⟩ := Edit.of_runOn_bind h
  obtain ⟨htiming, -⟩ := Edit.of_runOn_ofExcept htiming
  by_contra hreversed
  rw [MarkerTiming.interval, dif_pos (Int.not_le.mp hreversed)] at htiming
  cases htiming

/-- A marker that is stored comes last in its thread. -/
theorem filed_of_store (hcache : cache.Sound p)
    (hlogging : p.categories.find? loggingCategory = some logging)
    (h : (m.store logging thread cache).runOn p = (.ok cache', p')) :
    cache'.Sound p' ∧ ∃ s, p.Gains p' [(thread, s)] ∧ m.FiledAs p' s := by
  obtain ⟨strings, categories, hstrings, hcategories, timing, payload, prepared, hprepared,
    hsound, hstore⟩ := prepares (ordered_of_store h) hcache hlogging
  have hschemas := Catalogue.extends_ensure m.schema p.schemas
  generalize (p.schemas.ensure m.schema).2 = schemas at *
  let before : Profile := { p with strings, categories, schemas }
  have htables : p.Gains before [] := .of_tables hstrings hcategories hschemas
  rw [hstore] at h
  obtain ⟨handle, q, hadd, hlast⟩ := Edit.of_runOn_bind h
  cases hlast
  obtain ⟨s, hgains, hfilled, htiming, hname, hcategory⟩ :=
    Edit.gains_of_addMarker hprepared.schema hadd
  have hfiled : m.FiledAs before s :=
    { filled := ⟨payload.body, hprepared.body, hfilled⟩
      name := hname ▸ hprepared.name
      category := hcategory ▸ hprepared.category
      start := htiming ▸ hprepared.start
      stop := htiming ▸ hprepared.stop }
  exact ⟨hsound.mono hgains.categories hgains.schemas, s, htables.trans hgains,
    hfiled.mono hgains.tables⟩

/-- Markers that are stored come behind those of their threads, in their order. -/
theorem filed_of_storeAll {markers : List (Nat × Marker)} (hcache : cache.Sound p)
    (hlogging : p.categories.find? loggingCategory = some logging)
    (h : (storeAll logging cache markers).runOn p = (.ok cache', p')) :
    ∃ stored, p.Gains p' stored ∧
      List.Forall₂ (fun entry s => s.1 = entry.1 ∧ entry.2.FiledAs p' s.2) markers stored := by
  induction markers generalizing p cache with
  | nil =>
    cases h
    exact ⟨[], .refl _, .nil⟩
  | cons first rest ih =>
    rw [storeAll, List.foldlM_cons] at h
    obtain ⟨cache₁, p₁, hfirst, hrest⟩ := Edit.of_runOn_bind h
    obtain ⟨hcache₁, s, hgains, hfiled⟩ := filed_of_store hcache hlogging hfirst
    obtain ⟨stored, hgains', hstored⟩ := ih hcache₁ (hgains.categories.find? hlogging) hrest
    exact ⟨(first.1, s) :: stored, hgains.trans hgains',
      .cons ⟨rfl, hfiled.mono hgains'.tables⟩ hstored⟩

end Marker

/-- A flush of markers that succeeds has filed each of them. -/
theorem filed_of_flushMarkers {markers : List (Nat × Marker)} {statistics : Statistics}
    (h : (flushMarkers markers).runOn p = (.ok statistics, p')) :
    ∃ stored, p.Gains p' stored ∧
      List.Forall₂ (fun entry s => s.1 = entry.1 ∧ entry.2.FiledAs p' s.2) markers stored := by
  rw [runOn_flushMarkers] at h
  have hcategories :=
    Catalogue.extends_ensure (⟨loggingCategory, .green⟩ : Category) p.categories
  have hlogging := Catalogue.find?_ensure (⟨loggingCategory, .green⟩ : Category) p.categories
  generalize p.categories.ensure ⟨loggingCategory, .green⟩ = ensured at *
  obtain ⟨logging, categories⟩ := ensured
  let before : Profile := { p with categories }
  have htables : p.Gains before [] := .of_tables (.refl _) hcategories (.refl _)
  obtain ⟨cache, q, hstore, hlast⟩ := Edit.of_runOn_bind h
  cases hlast
  obtain ⟨stored, hgains, hstored⟩ :=
    Marker.filed_of_storeAll (HandleCache.sound_empty before) hlogging hstore
  exact ⟨stored, htables.trans hgains, hstored⟩

/-- Samples are added to a counter track one after the other. -/
theorem Edit.runOn_addCounterSamples {handle : Nat} {track : CounterTrack}
    (h : p.counters[handle]? = some track) (samples : List CounterSample) :
    (samples.forM (addCounterSample handle)).runOn p =
      (.ok (), { p with
        counters := p.counters.set handle { track with
          samples := track.samples ++
            samples.map fun sample => (sample.time, sample.value, sample.count) } }) := by
  have hlt : handle < p.counters.length := (List.getElem?_eq_some_iff.mp h).1
  induction samples generalizing p track with
  | nil =>
    rw [← (List.getElem?_eq_some_iff.mp h).2, List.map_nil, List.append_nil,
      List.set_getElem_self hlt]
    rfl
  | cons sample rest ih =>
    let longer : CounterTrack :=
      { track with samples := track.samples ++ [(sample.time, sample.value, sample.count)] }
    let after : Profile := { p with counters := p.counters.set handle longer }
    have hfirst : (addCounterSample handle sample).runOn p = (.ok (), after) :=
      runOn_addCounterSample h sample
    have hlonger : after.counters[handle]? = some longer := List.getElem?_set_self hlt
    rw [List.forM, runOn_bind_ok hfirst, ih hlonger (by simpa [after] using hlt)]
    simp [after, longer]

namespace Counter

variable {c : Counter} {thread process : Nat}

/-- A counter that is no custom one becomes a track. -/
theorem runOn_storeTrack (c : Counter) (process : Nat) (p : Profile) :
    (c.storeTrack process).runOn p =
      (.ok (), { p with counters := p.counters ++ [c.track process] }) := by
  let blank : CounterTrack := ⟨process, c.name, c.category, c.description, c.color, []⟩
  let before : Profile := { p with counters := p.counters ++ [blank] }
  have hadd : (Edit.addCounter process c.name c.category c.description c.color).runOn p =
      (.ok p.counters.length, before) := rfl
  have hblank : before.counters[p.counters.length]? = some blank := List.getElem?_concat_length
  rw [storeTrack, Edit.runOn_bind_ok hadd, Edit.runOn_addCounterSamples hblank]
  simp [before, blank, track]

/-- Points that are stored come last in their thread, in the order of the samples. -/
theorem plotted_of_forM {schema name : Nat} {samples : List CounterSample}
    (hschema : p.schemas.find? (MarkerSchema.graph c.name c.color).typeName = some schema)
    (hname : p.getString name = .ok c.name)
    (h : (samples.forM fun sample => do
      let _ ← Edit.addMarker thread (.instant sample.time)
        ⟨schema, name, Profile.otherCategory, .graphPoint sample.value⟩).runOn p = (.ok (), p')) :
    ∃ stored, p.Gains p' stored ∧
      List.Forall₂ (fun sample s => s.1 = thread ∧ c.PlottedAs sample p' s.2) samples stored := by
  induction samples generalizing p with
  | nil =>
    cases h
    exact ⟨[], .refl _, .nil⟩
  | cons sample rest ih =>
    rw [List.forM] at h
    obtain ⟨_, p₁, hfirst, hrest⟩ := Edit.of_runOn_bind h
    obtain ⟨_, _, hadd, hlast⟩ := Edit.of_runOn_bind hfirst
    cases hlast
    obtain ⟨s, hgains, hfilled, htiming, hname', hcategory⟩ :=
      Edit.gains_of_addMarker hschema hadd
    have hplotted : c.PlottedAs sample p s := ⟨hfilled, hname' ▸ hname, hcategory, htiming⟩
    obtain ⟨stored, hgains', hstored⟩ :=
      ih (hgains.schemas.find? hschema) (hgains.tables.getString hname) hrest
    exact ⟨(thread, s) :: stored, hgains.trans hgains',
      .cons ⟨rfl, hplotted.mono (hgains.trans hgains').tables⟩ hstored⟩

/-- A custom counter that is stored becomes a point for each sample. -/
theorem plotted_of_storeGraph (h : (c.storeGraph thread).runOn p = (.ok (), p')) :
    ∃ stored, p.Gains p' stored ∧
      List.Forall₂ (fun sample s => s.1 = thread ∧ c.PlottedAs sample p' s.2) c.samples stored := by
  let schema := MarkerSchema.graph c.name c.color
  let schemas := (p.schemas.ensure schema).2
  have hschemas : p.schemas.Extends schemas := Catalogue.extends_ensure schema p.schemas
  have hregister : (Edit.registerSchema schema).runOn p =
      (.ok (p.schemas.ensure schema).1, { p with schemas }) := rfl
  obtain ⟨name, strings, hstrings, hintern, hname⟩ :=
    Edit.internString_spec c.name { p with schemas }
  have htables : p.Gains { p with strings, schemas } [] :=
    .of_tables hstrings (.refl _) hschemas
  rw [storeGraph, Edit.runOn_bind_ok hregister, Edit.runOn_bind_ok hintern] at h
  obtain ⟨stored, hgains, hstored⟩ := plotted_of_forM
    (Catalogue.find?_ensure schema p.schemas) (Profile.getString_eq_ok_iff.mpr hname) h
  exact ⟨stored, htables.trans hgains, hstored⟩

/-- A counter that is stored becomes points or a track. -/
theorem plotted_of_store (h : (c.store process thread).runOn p = (.ok (), p')) :
    p'.counters = p.counters ++ c.tracks process ∧
      ∃ stored, p.Gains { p' with counters := p.counters } stored ∧
        List.Forall₂ (fun point s => s.1 = point.1 ∧ point.2.1.PlottedAs point.2.2 p' s.2)
          (c.points thread) stored := by
  unfold store at h
  unfold tracks points
  by_cases hcustom : c.category = .custom
  · rw [if_pos hcustom] at h
    obtain ⟨stored, hgains, hstored⟩ := plotted_of_storeGraph h
    rw [if_pos hcustom, if_pos hcustom, List.append_nil, ← hgains.counters]
    exact ⟨rfl, stored, hgains, List.forall₂_map_left_iff.mpr hstored⟩
  · rw [if_neg hcustom, runOn_storeTrack] at h
    cases h
    rw [if_neg hcustom, if_neg hcustom]
    exact ⟨rfl, [], .refl p, .nil⟩

end Counter

/-- A flush of counters that succeeds has plotted every sample of a custom counter, and the other
counters have become tracks. -/
theorem plotted_of_flushCounters {process : Nat} {counters : List (Nat × Counter)}
    (h : (flushCounters process counters).runOn p = (.ok (), p')) :
    p'.counters = p.counters ++ counters.flatMap (fun entry => entry.2.tracks process) ∧
      ∃ stored, p.Gains { p' with counters := p.counters } stored ∧
        List.Forall₂ (fun point s => s.1 = point.1 ∧ point.2.1.PlottedAs point.2.2 p' s.2)
          (counters.flatMap fun entry => entry.2.points entry.1) stored := by
  induction counters generalizing p with
  | nil =>
    cases h
    exact ⟨(List.append_nil _).symm, [], .refl _, .nil⟩
  | cons first rest ih =>
    rw [flushCounters, List.forM] at h
    obtain ⟨_, p₁, hfirst, hrest⟩ := Edit.of_runOn_bind h
    obtain ⟨htracks₁, stored₁, hgains₁, hstored₁⟩ := Counter.plotted_of_store hfirst
    obtain ⟨htracks, stored, hgains, hstored⟩ := ih hrest
    have htables : p₁.Extends p' := ⟨hgains.strings, hgains.categories, hgains.schemas⟩
    rw [List.flatMap_cons, List.flatMap_cons]
    refine ⟨?_, stored₁ ++ stored, hgains₁.trans (hgains.withCounters p.counters), ?_⟩
    · rw [htracks, htracks₁, List.append_assoc]
    · exact List.rel_append (hstored₁.imp fun _ _ hs => ⟨hs.1, hs.2.mono htables⟩) hstored

end TraceProfile
