import Mathlib.Data.List.TakeWhile
import TraceProfile.Proofs.Assembly.Filing
import TraceProfile.Proofs.Catalogue.Filling

/-!
# The graphs of custom counters

The samples of a custom counter become points under the schema of a graph, and the type name of that
schema is made of the counter's name alone. The first custom counter of a name therefore decides on
the color for all of them: a counter is drawn in its own color unless an earlier custom counter has
the same name and another color. Counters with different names never share a graph, however similar
the names are.
-/

namespace TraceProfile

namespace MarkerSchema

/-- Graphs have the same type name exactly if they have the same name. -/
theorem typeName_graph_inj {name name' : String} {color color' : Option GraphColor} :
    (graph name color).typeName = (graph name' color').typeName ↔ name = name' :=
  String.append_right_inj "CustomGraph-"

/-- The schema of a graph tells its name and its color. -/
theorem graph_inj {name name' : String} {color color' : Option GraphColor} :
    graph name color = graph name' color' ↔ name = name' ∧ color = color' := by
  constructor
  · intro h
    have hname : name = name' := typeName_graph_inj.mp (congrArg typeName h)
    have hgraphs : [(⟨"value", color⟩ : MarkerGraph)] = [⟨"value", color'⟩] := congrArg graphs h
    exact ⟨hname, by simpa using hgraphs⟩
  · rintro ⟨rfl, rfl⟩
    rfl

end MarkerSchema

/-- The schemas are those of graphs. -/
def Catalogue.OnlyGraphs (schemas : Catalogue MarkerSchema.typeName) : Prop :=
  ∀ schema ∈ schemas.entries, ∃ name color, schema = .graph name color

/-- The thread of a point is there. -/
def Profile.hasThread (p : Profile) (point : Nat × Counter × CounterSample) : Bool :=
  point.1 < p.threads.length

namespace Counter

/-- The stored marker is the point of a sample in a graph of some color, which has the name of the
counter. -/
structure DrawnAs (c : Counter) (sample : CounterSample) (color : Option GraphColor) (p : Profile)
    (stored : StoredMarker) : Prop where
  /-- The graph. -/
  schema : p.schemas.get? stored.schema = some (.graph c.name color)
  /-- The value is that of the sample, and the only one. -/
  values : stored.values = [.number sample.value]
  /-- The name. -/
  name : p.getString stored.name = .ok c.name
  /-- The category. -/
  category : stored.category = Profile.otherCategory
  /-- It is instant. -/
  timing : stored.timing = .instant sample.time
  /-- There is no stack. -/
  stack : stored.stack = none

/-- The schema that a counter asks for: that of its graph, if it is a custom one. -/
def graphs (c : Counter) : List MarkerSchema :=
  if c.category = .custom then [.graph c.name c.color] else []

/-- The first custom counter of a name. -/
def firstNamed? (counters : List (Nat × Counter)) (name : String) : Option Counter :=
  (counters.map (·.2)).find? fun c => c.category = .custom ∧ c.name = name

variable {c : Counter} {sample : CounterSample} {color : Option GraphColor} {p p' : Profile}
  {s : StoredMarker} {thread process : Nat} {counters : List (Nat × Counter)}

/-- A point stays as it was drawn. -/
theorem DrawnAs.mono (h : c.DrawnAs sample color p s) (hextends : p.Extends p') :
    c.DrawnAs sample color p' s :=
  { h with
    schema := hextends.schemas.get? h.schema
    name := hextends.getString h.name }

/-- The first graph of a name that counters ask for is that of the first custom counter with it. -/
theorem find?_graphs (counters : List (Nat × Counter)) (name : String) :
    (counters.flatMap (·.2.graphs)).find? (·.typeName = (MarkerSchema.graph name color).typeName) =
      (firstNamed? counters name).map fun c => .graph c.name c.color := by
  induction counters with
  | nil => rfl
  | cons first rest ih =>
    have hfirst : firstNamed? (first :: rest) name =
        if first.2.category = .custom ∧ first.2.name = name then some first.2
        else firstNamed? rest name := by
      rw [firstNamed?, List.map_cons]
      by_cases hmatch : first.2.category = .custom ∧ first.2.name = name
      · rw [List.find?_cons_of_pos (by simpa using hmatch), if_pos hmatch]
      · rw [List.find?_cons_of_neg (by simpa using hmatch), if_neg hmatch, firstNamed?]
    rw [List.flatMap_cons, List.find?_append, ih, hfirst, graphs]
    by_cases hcustom : first.2.category = .custom
    · rw [if_pos hcustom, List.find?_singleton]
      by_cases hname : first.2.name = name
      · simp [hcustom, hname, MarkerSchema.typeName_graph_inj]
      · simp [hname, MarkerSchema.typeName_graph_inj]
    · simp [hcustom]

/-- A table with only schemas of graphs stays one when a counter adds its own. -/
theorem onlyGraphs_ensureAll {schemas : Catalogue MarkerSchema.typeName}
    (h : schemas.OnlyGraphs) (c : Counter) : (schemas.ensureAll c.graphs).OnlyGraphs := by
  unfold graphs
  split
  · intro schema hschema
    rcases Catalogue.mem_entries_ensure hschema with hold | rfl
    · exact h schema hold
    · exact ⟨c.name, c.color, rfl⟩
  · exact h

/-- Where all schemas are those of graphs, that of a counter is found under its name. -/
theorem exists_graph {schemas : Catalogue MarkerSchema.typeName} (h : schemas.OnlyGraphs)
    (c : Counter) :
    ∃ color, (schemas.ensure (.graph c.name c.color)).2.get?
      (schemas.ensure (.graph c.name c.color)).1 = some (.graph c.name color) := by
  obtain ⟨kept, hkept, hkey⟩ := Catalogue.get?_ensure (.graph c.name c.color) schemas
  obtain ⟨name, color, rfl⟩ : ∃ name color, kept = .graph name color := by
    rcases Catalogue.mem_entries_ensure (List.mem_of_getElem? hkept) with hold | rfl
    · exact h kept hold
    · exact ⟨c.name, c.color, rfl⟩
  rw [MarkerSchema.typeName_graph_inj.mp hkey] at hkept
  exact ⟨color, hkept⟩

/-- The points of a counter come last in their thread. -/
theorem drawn_of_forM {schema name : Nat} (hthread : thread < p.threads.length)
    (hschema : p.schemas.get? schema = some (.graph c.name color))
    (hname : p.getString name = .ok c.name) (samples : List CounterSample) :
    ∃ p' stored, (samples.forM fun sample => do
        let _ ← Edit.addMarker thread (.instant sample.time)
          ⟨schema, name, Profile.otherCategory, .graphPoint sample.value⟩).runOn p = (.ok (), p') ∧
      p'.schemas = p.schemas ∧ p.Gains p' stored ∧
      List.Forall₂ (fun sample s => s.1 = thread ∧ c.DrawnAs sample color p' s.2)
        samples stored := by
  induction samples generalizing p with
  | nil => exact ⟨p, [], rfl, rfl, .refl p, .nil⟩
  | cons sample rest ih =>
    have ht := List.getElem?_eq_getElem hthread
    let s : StoredMarker := ⟨.instant sample.time, name, Profile.otherCategory, schema,
      [.number sample.value], none⟩
    let t : Thread := p.threads[thread]
    let p₁ : Profile :=
      { p with threads := p.threads.set thread { t with markers := t.markers ++ [s] } }
    have hadd : (Edit.addMarker thread (.instant sample.time)
        ⟨schema, name, Profile.otherCategory, .graphPoint sample.value⟩).runOn p =
        (.ok ⟨thread, t.markers.length⟩, p₁) := by
      rw [Edit.runOn_addMarker ht hschema]
      rfl
    have hgains : p.Gains p₁ [(thread, s)] := .of_set s ht (.refl _) (.refl _) (.refl _)
    have hdrawn : c.DrawnAs sample color p₁ s := ⟨hschema, rfl, hname, rfl, rfl, rfl⟩
    have hthread₁ : thread < p₁.threads.length := by simpa [p₁] using hthread
    obtain ⟨p', stored, hrun, hschemas, hgains', hstored⟩ := ih hthread₁ hschema hname
    refine ⟨p', (thread, s) :: stored, ?_, hschemas, hgains.trans hgains',
      .cons ⟨rfl, hdrawn.mono hgains'.tables⟩ hstored⟩
    rw [List.forM, Edit.runOn_bind, Edit.runOn_bind, hadd]
    exact hrun

/-- Without their thread, no points are stored, and the first one ends in a fault. -/
theorem runOn_forM_of_missing (hthread : p.threads.length ≤ thread) {schema : Nat}
    (hschema : p.schemas.get? schema = some (.graph c.name color)) (name : Nat)
    (samples : List CounterSample) :
    (samples.forM fun sample => do
        let _ ← Edit.addMarker thread (.instant sample.time)
          ⟨schema, name, Profile.otherCategory, .graphPoint sample.value⟩).runOn p =
      (if samples = [] then .ok () else .error (.failure .noEntry), p) := by
  cases samples with
  | nil => rfl
  | cons sample rest =>
    have hadd : (Edit.addMarker thread (.instant sample.time)
        ⟨schema, name, Profile.otherCategory, .graphPoint sample.value⟩).runOn p =
        (.error (.failure .noEntry), p) := by
      rw [Edit.runOn_addMarker_of_schema hschema, List.getElem?_eq_none hthread]
      rfl
    rw [List.forM, Edit.runOn_bind, Edit.runOn_bind, hadd]
    rfl

/-- All points of a counter belong to one thread. -/
theorem hasThread_of_mem_points {point : Nat × Counter × CounterSample}
    (h : point ∈ c.points thread) : p.hasThread point = decide (thread < p.threads.length) := by
  unfold points at h
  split at h
  · obtain ⟨sample, -, rfl⟩ := List.mem_map.mp h
    rfl
  · cases h

/-- On a thread of the profile, all points of a counter are stored. -/
theorem takeWhile_points (hthread : thread < p.threads.length) (c : Counter) :
    (c.points thread).takeWhile p.hasThread = c.points thread := by
  refine List.takeWhile_eq_self_iff.mpr fun point hpoint => ?_
  rw [hasThread_of_mem_points hpoint]
  exact decide_eq_true hthread

/-- On a thread that the profile does not have, no point of a counter is stored. -/
theorem takeWhile_points_of_missing (hthread : p.threads.length ≤ thread) (c : Counter) :
    (c.points thread).takeWhile p.hasThread = [] := by
  refine List.takeWhile_eq_nil_iff.mpr fun hlength => ?_
  rw [hasThread_of_mem_points (List.get_mem _ _)]
  simpa using hthread

/-- On a thread of the profile, no point of a counter is refused. -/
theorem all_points (hthread : thread < p.threads.length) (c : Counter) :
    (c.points thread).all p.hasThread = true := by
  refine List.all_eq_true.mpr fun point hpoint => ?_
  rw [hasThread_of_mem_points hpoint]
  exact decide_eq_true hthread

/-- On a thread that the profile does not have, the first point of a counter is refused. -/
theorem all_points_of_missing (hthread : p.threads.length ≤ thread) (c : Counter) :
    (c.points thread).all p.hasThread = decide (c.points thread = []) := by
  cases hpoints : c.points thread with
  | nil => rfl
  | cons first rest =>
    have hmem : first ∈ c.points thread := by simp [hpoints]
    have hfirst : p.hasThread first = false := by
      rw [hasThread_of_mem_points hmem]
      simpa using hthread
    simp [hfirst]

/-- A custom counter asks for the schema of its graph. If its thread is there its points come last
in it, and if not the first point ends in a fault. -/
theorem drawn_of_storeGraph (hgraphs : p.schemas.OnlyGraphs) (c : Counter) (thread : Nat) :
    ∃ p' stored color, (c.storeGraph thread).runOn p =
        (if thread < p.threads.length ∨ c.samples = [] then .ok ()
          else .error (.failure .noEntry), p') ∧
      p'.schemas = (p.schemas.ensure (.graph c.name c.color)).2 ∧ p.Gains p' stored ∧
      List.Forall₂ (fun sample s => s.1 = thread ∧ c.DrawnAs sample color p' s.2)
        (if thread < p.threads.length then c.samples else []) stored := by
  obtain ⟨color, hschema⟩ := exists_graph hgraphs c
  have hextends := Catalogue.extends_ensure (MarkerSchema.graph c.name c.color) p.schemas
  have hregister : (Edit.registerSchema (.graph c.name c.color)).runOn p =
      (.ok (p.schemas.ensure (.graph c.name c.color)).1,
        { p with schemas := (p.schemas.ensure (.graph c.name c.color)).2 }) := rfl
  generalize p.schemas.ensure (.graph c.name c.color) = ensured at *
  obtain ⟨schema, schemas⟩ := ensured
  obtain ⟨name, strings, hstrings, hintern, hname⟩ :=
    Edit.internString_spec c.name { p with schemas }
  let p₁ : Profile := { p with strings, schemas }
  have htables : p.Gains p₁ [] := .of_tables hstrings (.refl _) hextends
  rw [storeGraph, Edit.runOn_bind_ok hregister, Edit.runOn_bind_ok hintern]
  rcases Nat.lt_or_ge thread p.threads.length with hlt | hge
  · obtain ⟨p', stored, hrun, hschemas, hgains, hstored⟩ := drawn_of_forM (p := p₁) hlt hschema
      (Profile.getString_eq_ok_iff.mpr hname) c.samples
    rw [if_pos (.inl hlt), if_pos hlt]
    exact ⟨p', stored, color, hrun, hschemas, htables.trans hgains, hstored⟩
  · have hrun := runOn_forM_of_missing (p := p₁) hge hschema name c.samples
    rw [if_neg (Nat.not_lt.mpr hge)]
    refine ⟨p₁, [], color, ?_, rfl, htables, .nil⟩
    simpa only [Nat.not_lt.mpr hge, false_or] using hrun

/-- A counter asks for the schema of its graph if it is a custom one, and its points are stored up
to the first that has no thread. -/
theorem drawn_of_store (hgraphs : p.schemas.OnlyGraphs) (c : Counter) (process thread : Nat) :
    ∃ p' stored, (c.store process thread).runOn p =
        (if (c.points thread).all p.hasThread then .ok () else .error (.failure .noEntry), p') ∧
      p'.schemas = p.schemas.ensureAll c.graphs ∧
      p.Gains { p' with counters := p.counters } stored ∧
      List.Forall₂ (fun point s => s.1 = point.1 ∧
        ∃ color, point.2.1.DrawnAs point.2.2 color p' s.2)
        ((c.points thread).takeWhile p.hasThread) stored := by
  by_cases hcustom : c.category = .custom
  · obtain ⟨p', stored, color, hrun, hschemas, hgains, hstored⟩ :=
      drawn_of_storeGraph hgraphs c thread
    have hpoints : c.points thread = c.samples.map fun sample => (thread, c, sample) :=
      if_pos hcustom
    have hensured : p'.schemas = p.schemas.ensureAll c.graphs := by
      rw [hschemas, graphs, if_pos hcustom]
      rfl
    have hsame : p.Gains { p' with counters := p.counters } stored := by
      rw [← hgains.counters]
      exact hgains
    rw [store, if_pos hcustom]
    rcases Nat.lt_or_ge thread p.threads.length with hlt | hge
    · rw [if_pos (.inl hlt)] at hrun
      rw [if_pos hlt] at hstored
      rw [all_points hlt, takeWhile_points hlt, hpoints]
      refine ⟨p', stored, hrun, hensured, hsame, List.forall₂_map_left_iff.mpr ?_⟩
      exact hstored.imp fun _ _ h => ⟨h.1, color, h.2⟩
    · rw [if_neg (Nat.not_lt.mpr hge)] at hstored
      rw [all_points_of_missing hge, takeWhile_points_of_missing hge, hpoints]
      cases hstored
      refine ⟨p', [], ?_, hensured, hsame, .nil⟩
      simpa [Nat.not_lt.mpr hge] using hrun
  · have hpoints : c.points thread = [] := if_neg hcustom
    rw [store, if_neg hcustom, runOn_storeTrack, hpoints, graphs, if_neg hcustom]
    exact ⟨_, [], rfl, rfl, .refl p, .nil⟩

/-- A flush asks for the schemas of the graphs up to the counter that it ends at, and stores the
points up to the first that has no thread. -/
theorem drawn_of_flush (hgraphs : p.schemas.OnlyGraphs) (process : Nat)
    (counters : List (Nat × Counter)) :
    ∃ p' stored reached, (flushCounters process counters).runOn p =
        (if (counters.flatMap fun entry => entry.2.points entry.1).all p.hasThread then .ok ()
          else .error (.failure .noEntry), p') ∧
      reached <+: counters.flatMap (·.2.graphs) ∧ p'.schemas = p.schemas.ensureAll reached ∧
      p.Gains { p' with counters := p.counters } stored ∧
      List.Forall₂ (fun point s => s.1 = point.1 ∧
        ∃ color, point.2.1.DrawnAs point.2.2 color p' s.2)
        ((counters.flatMap fun entry => entry.2.points entry.1).takeWhile p.hasThread) stored := by
  induction counters generalizing p with
  | nil => exact ⟨p, [], [], rfl, List.prefix_refl _, rfl, .refl p, .nil⟩
  | cons first rest ih =>
    obtain ⟨p₁, stored₁, hrun₁, hschemas₁, hgains₁, hstored₁⟩ :=
      drawn_of_store hgraphs first.2 process first.1
    rw [flushCounters, List.forM, Edit.runOn_bind, hrun₁, List.flatMap_cons, List.flatMap_cons,
      List.all_append]
    cases hall : (first.2.points first.1).all p.hasThread with
    | true =>
      have hhas := List.all_eq_true.mp hall
      have hgraphs₁ : p₁.schemas.OnlyGraphs := by
        rw [hschemas₁]
        exact onlyGraphs_ensureAll hgraphs first.2
      have hlength : p₁.threads.length = p.threads.length := by
        rw [show p₁.threads = _ from hgains₁.threads, List.length_mapIdx]
      have hsame : p₁.hasThread = p.hasThread := by
        funext point
        rw [Profile.hasThread, Profile.hasThread, hlength]
      obtain ⟨p', stored, reached, hrun, hreached, hschemas, hgains, hstored⟩ := ih hgraphs₁
      have htables : p₁.Extends p' := ⟨hgains.strings, hgains.categories, hgains.schemas⟩
      rw [hsame] at hrun hstored
      refine ⟨p', stored₁ ++ stored, first.2.graphs ++ reached, hrun, ?_, ?_,
        hgains₁.trans (hgains.withCounters p.counters), ?_⟩
      · exact (List.prefix_append_right_inj _).mpr hreached
      · rw [hschemas, hschemas₁, Catalogue.ensureAll_append]
      · rw [List.takeWhile_append_of_pos hhas]
        rw [List.takeWhile_eq_self_iff.mpr hhas] at hstored₁
        refine List.rel_append (hstored₁.imp fun _ _ h => ⟨h.1, ?_⟩) hstored
        obtain ⟨color, hdrawn⟩ := h.2
        exact ⟨color, hdrawn.mono htables⟩
    | false =>
      -- The flush ends in the first counter, whose schema has been registered all the same.
      refine ⟨p₁, stored₁, first.2.graphs, rfl, List.prefix_append _ _, hschemas₁, hgains₁, ?_⟩
      have hshort : ¬((first.2.points first.1).takeWhile p.hasThread).length =
          (first.2.points first.1).length := by
        intro hlength
        have hself := (List.takeWhile_prefix p.hasThread).eq_of_length hlength
        have hhas := List.all_eq_true.mpr (List.takeWhile_eq_self_iff.mp hself)
        exact absurd hhas (by simp [hall])
      rw [List.takeWhile_append, if_neg hshort]
      exact hstored₁

/-- What a point is drawn in is the graph of the first custom counter of its name, if there were no
schemas before. -/
theorem DrawnAs.exists_first {reached : List MarkerSchema}
    (hreached : reached <+: counters.flatMap (·.2.graphs))
    (hschemas : p.schemas = Catalogue.empty.ensureAll reached)
    (h : c.DrawnAs sample color p s) :
    ∃ first, firstNamed? counters c.name = some first ∧ first.color = color := by
  have hmem : MarkerSchema.graph c.name color ∈
      ((.empty : Catalogue MarkerSchema.typeName).ensureAll reached).entries := by
    rw [← hschemas]
    exact List.mem_of_getElem? h.schema
  -- A graph that is registered is the first of its name among those that were asked for, and so it
  -- is among those of all counters, of which these are the first.
  have hfound : reached.find? (·.typeName = (MarkerSchema.graph c.name color).typeName) =
      some (.graph c.name color) := Catalogue.distinct_empty.find?_of_mem_ensureAll hmem
  obtain ⟨later, hlater⟩ := hreached
  have hall : (counters.flatMap (·.2.graphs)).find?
      (·.typeName = (MarkerSchema.graph c.name color).typeName) =
        some (.graph c.name color) := by
    rw [← hlater, List.find?_append, hfound, Option.some_or]
  rw [find?_graphs] at hall
  obtain ⟨first, hfirst, hgraph⟩ := Option.map_eq_some_iff.mp hall
  exact ⟨first, hfirst, (MarkerSchema.graph_inj.mp hgraph).2⟩

/-- Two points are in one graph exactly if their counters have one name. -/
theorem DrawnAs.schema_eq_iff {c' : Counter} {sample' : CounterSample}
    {color' : Option GraphColor} {s' : StoredMarker} {reached : List MarkerSchema}
    (hreached : reached <+: counters.flatMap (·.2.graphs))
    (hschemas : p.schemas = Catalogue.empty.ensureAll reached)
    (h : c.DrawnAs sample color p s) (h' : c'.DrawnAs sample' color' p s') :
    s.schema = s'.schema ↔ c.name = c'.name := by
  constructor
  · intro hsame
    have hgraph := h.schema.symm.trans (hsame ▸ h'.schema)
    exact (MarkerSchema.graph_inj.mp (Option.some.inj hgraph)).1
  · intro hname
    obtain ⟨first, hfirst, rfl⟩ := h.exists_first hreached hschemas
    obtain ⟨first', hfirst', rfl⟩ := h'.exists_first hreached hschemas
    rw [hname, hfirst'] at hfirst
    cases hfirst
    have hdistinct : p.schemas.Distinct := by
      rw [hschemas]
      exact Catalogue.distinct_empty.ensureAll reached
    have hfound := hdistinct.find?_eq h.schema
    have hfound' := hdistinct.find?_eq h'.schema
    rw [hname] at hfound
    exact Option.some.inj (hfound.symm.trans hfound')

end Counter

/-- Flushed into a profile without schemas, counters are stored up to the first sample of a custom
counter whose thread is not there. Each sample of a custom counter becomes a point in the graph of
the counter's name, whose color is that of the first custom counter with the name. This is the
counter's own color if the custom counters with its name have one color. Counters with different
names have different graphs. -/
theorem flushCounters_draws {p : Profile} (hfresh : p.schemas = .empty) (process : Nat)
    (counters : List (Nat × Counter)) :
    let points := counters.flatMap fun entry => entry.2.points entry.1
    ∃ p' stored, (flushCounters process counters).runOn p =
        (if points.all p.hasThread then .ok () else .error (.failure .noEntry), p') ∧
      p.Gains { p' with counters := p.counters } stored ∧
      List.Forall₂ (fun point s => s.1 = point.1 ∧
        (∃ first, Counter.firstNamed? counters point.2.1.name = some first ∧
          point.2.1.DrawnAs point.2.2 first.color p' s.2) ∧
        ((∀ entry ∈ counters, entry.2.category = .custom → entry.2.name = point.2.1.name →
            entry.2.color = point.2.1.color) →
          point.2.1.DrawnAs point.2.2 point.2.1.color p' s.2))
        (points.takeWhile p.hasThread) stored ∧
      ∀ point s point' s', (point, s) ∈ (points.takeWhile p.hasThread).zip stored →
        (point', s') ∈ (points.takeWhile p.hasThread).zip stored →
        (s.2.schema = s'.2.schema ↔ point.2.1.name = point'.2.1.name) := by
  intro points
  have hgraphs : p.schemas.OnlyGraphs := by
    rw [hfresh]
    exact fun _ hschema => nomatch hschema
  obtain ⟨p', stored, reached, hrun, hreached, hschemas, hgains, hstored⟩ :=
    Counter.drawn_of_flush hgraphs process counters
  rw [hfresh] at hschemas
  refine ⟨p', stored, hrun, hgains, hstored.imp fun point s h => ?_, ?_⟩
  · obtain ⟨hthread, color, hdrawn⟩ := h
    obtain ⟨first, hfirst, rfl⟩ := hdrawn.exists_first hreached hschemas
    refine ⟨hthread, ⟨first, hfirst, hdrawn⟩, fun hown => ?_⟩
    obtain ⟨entry, hentry, rfl⟩ := List.mem_map.mp (List.mem_of_find?_eq_some hfirst)
    have hmatch := List.find?_some hfirst
    obtain ⟨hcustom, hname⟩ := of_decide_eq_true hmatch
    rwa [hown entry hentry hcustom hname] at hdrawn
  · intro point s point' s' h h'
    obtain ⟨-, _, hdrawn⟩ := List.forall₂_zip hstored h
    obtain ⟨-, _, hdrawn'⟩ := List.forall₂_zip hstored h'
    exact hdrawn.schema_eq_iff hreached hschemas hdrawn'

/-- A profile with two threads, and without schemas. -/
def graphProfile : Profile :=
  { Profile.create "tracer" 1 with
    processes := [⟨.number 1, "server", [0, 1]⟩]
    threads := [⟨0, .number 1, "main", true, [], []⟩, ⟨0, .number 2, "draw", false, [], []⟩] }

/-- Custom counters with similar names, one of them on both threads, and a counter of memory. -/
def graphCounters : List (Nat × Counter) :=
  [(0, ⟨"fps", .custom, "", some .red, [⟨10, .whole 60, 1⟩, ⟨20, .whole 30, 1⟩]⟩),
    (0, ⟨"fps ", .custom, "", some .blue, [⟨10, .whole 59, 1⟩]⟩),
    (0, ⟨"fps", .memory, "", some .teal, [⟨15, .whole 8, 1⟩]⟩),
    (1, ⟨"fps", .custom, "", some .red, [⟨12, .whole 58, 1⟩]⟩)]

/-- Each of these counters is drawn in its own color, since those of one name agree on it. -/
theorem flushCounters_draws_similar_names :
    graphProfile.schemas = .empty ∧ ∃ p' stored,
      (flushCounters 0 graphCounters).runOn graphProfile = (.ok (), p') ∧
      graphProfile.Gains { p' with counters := [] } stored ∧
      List.Forall₂ (fun point s =>
          s.1 = point.1 ∧ point.2.1.DrawnAs point.2.2 point.2.1.color p' s.2)
        (graphCounters.flatMap fun entry => entry.2.points entry.1) stored := by
  have hfresh : graphProfile.schemas = .empty := rfl
  obtain ⟨p', stored, hrun, hgains, hstored, -⟩ := flushCounters_draws hfresh 0 graphCounters
  have hcolors : ∀ point ∈ graphCounters.flatMap fun entry => entry.2.points entry.1,
      ∀ entry ∈ graphCounters, entry.2.category = .custom → entry.2.name = point.2.1.name →
        entry.2.color = point.2.1.color := by decide
  have hall : (graphCounters.flatMap fun entry => entry.2.points entry.1).takeWhile
      graphProfile.hasThread = graphCounters.flatMap fun entry => entry.2.points entry.1 := by
    decide
  rw [hall] at hstored
  refine ⟨hfresh, p', stored, hrun, hgains, ?_⟩
  refine List.forall₂_iff_zip.mpr ⟨hstored.length_eq, fun {point s} hmem => ?_⟩
  obtain ⟨hthread, -, hown⟩ := List.forall₂_zip hstored hmem
  exact ⟨hthread, hown (hcolors point (List.of_mem_zip hmem).1)⟩

/-- Two custom counters have one name and different colors. Both are drawn in the graph of the
first, and there is none in the color of the second. -/
theorem flushCounters_draws_foreign_color :
    let counters : List (Nat × Counter) :=
      [(0, ⟨"fps", .custom, "", some .red, [⟨10, .whole 60, 1⟩]⟩),
        (0, ⟨"fps", .custom, "", some .blue, [⟨20, .whole 30, 1⟩]⟩)]
    let flushed := (flushCounters 0 counters).runOn graphProfile
    flushed.1 = .ok () ∧
      flushed.2.threads.map (·.markers.map (·.schema)) = [[0, 0], []] ∧
      flushed.2.schemas.entries = [.graph "fps" (some .red)] := by
  decide +kernel

end TraceProfile
