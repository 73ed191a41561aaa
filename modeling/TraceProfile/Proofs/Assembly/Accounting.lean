import TraceProfile.Assembly.Flush
import TraceProfile.Proofs.Assembly.Filing
import TraceProfile.Proofs.Assembly.Samples

/-!
# What a flush adds to a profile

A flush that succeeds has only added to the profile, and accounts for everything that the recording
holds: every sample, every marker and every counter is found in its place, and nothing else came.
No assumption is made on the recording or on the profile; that threads, markers and stacks are
there follows from the success of the flush.
-/

namespace TraceProfile

variable {p p' : Profile} {stack : RawSample → List ShownFrame} {samples : List RawSample}

/-- A sample is stored only where its thread and its marker are. -/
theorem RawSample.storable_of_store {s : RawSample} {frames : List Frame}
    (h : (s.store frames).runOn p = (.ok (), p')) : s.Storable p := by
  unfold RawSample.store at h
  cases hpayload : s.payload with
  | processor delta weight =>
    rw [hpayload] at h
    obtain ⟨t, ht⟩ := Edit.exists_of_addSample h
    exact ⟨t, ht, fun handle hhandle => nomatch hpayload.symm.trans hhandle⟩
  | marker handle =>
    rw [hpayload] at h
    obtain ⟨t, ht, howner, hindex⟩ := Edit.exists_of_setMarkerStack h
    refine ⟨t, ht, fun handle' hhandle => ?_⟩
    cases hpayload.symm.trans hhandle
    exact ⟨howner, hindex⟩

/-- Samples bring no thread and no marker, so what can be stored after them could be before. -/
theorem RawSample.Storable.of_received {s : RawSample} (hs : s.Storable p')
    (h : Profile.Received stack samples p p') : s.Storable p := by
  obtain ⟨t', ht', hmarker⟩ := hs
  have hlt : s.thread < p.threads.length := h.length ▸ (List.getElem?_eq_some_iff.mp ht').1
  have ht := List.getElem?_eq_getElem hlt
  obtain ⟨t'', ht'', hreceived⟩ := h.threads s.thread _ ht
  cases ht'.symm.trans ht''
  refine ⟨_, ht, fun handle hhandle => ?_⟩
  rw [← hreceived.length]
  exact hmarker handle hhandle

/-- What a thread has received can be read as well when more texts have come in. -/
theorem Thread.Received.mono {i : Nat} {t t' : Thread} (hstrings : p.strings.Extends p'.strings)
    (h : Thread.Received p stack samples i t t') : Thread.Received p' stack samples i t t' := by
  obtain ⟨added, hadded, hshown⟩ := h.appended
  refine ⟨⟨added, hadded, ?_⟩, h.length, fun k m hm => ?_, h.rest⟩
  · exact mapM_eq_ok_iff.mpr ((mapM_eq_ok_iff.mp hshown).imp fun _ _ =>
      Profile.showSample_mono hstrings)
  · obtain ⟨m', hm', hreceived⟩ := h.markers k m hm
    have hsame := hreceived.trans hstrings (.refl p' m')
    rw [List.append_nil] at hsame
    exact ⟨m', hm', hsame⟩

/-- A flush of samples that succeeds has resolved and stored each of them. -/
theorem FlushPlan.resolves_of_flushSamples (plan : FlushPlan) {start replay : Replay}
    (hascending : Ascending RawSample.tick samples)
    (hreplay : ∀ s ∈ samples, replay.advance s.tick = start.advance s.tick)
    (h : (plan.flushSamples replay p samples).result = .ok ()) :
    ∀ s ∈ samples, (∃ frames, plan.resolve (start.advance s.tick).space s = .ok frames) ∧
      s.Storable p := by
  induction samples generalizing replay p with
  | nil => exact fun _ hs => nomatch hs
  | cons s rest ih =>
    obtain ⟨hlater, hrest⟩ := List.pairwise_cons.mp hascending
    obtain ⟨hs, hothers⟩ := List.forall_mem_cons.mp hreplay
    rw [flushSamples] at h
    dsimp only at h
    rcases hrun : (Edit.ofExcept (plan.resolve (replay.advance s.tick).space s) >>=
      s.store).runOn p with ⟨f | _, p₁⟩
    · rw [hrun] at h
      cases h
    · rw [hrun] at h
      obtain ⟨frames, q, hresolve, hstore⟩ := Edit.of_runOn_bind hrun
      obtain ⟨hresolve, hsame⟩ := Edit.of_runOn_ofExcept hresolve
      rw [hsame] at hstore
      have hstorable := RawSample.storable_of_store hstore
      let stack : RawSample → List ShownFrame := fun _ => frames.map Frame.shown
      have hstack : frames.map Frame.shown = stack s := rfl
      obtain ⟨p₂, hstore', hreceived⟩ := RawSample.store_spec hstorable hstack
      rw [hstore] at hstore'
      cases hstore'
      have hreplay' : ∀ s' ∈ rest,
          (replay.advance s.tick).advance s'.tick = start.advance s'.tick := by
        intro s' hs'
        rw [hs, Replay.advance_advance, Int.max_eq_right (hlater s' hs')]
      refine List.forall_mem_cons.mpr ⟨⟨⟨frames, hs ▸ hresolve⟩, hstorable⟩, fun s' hs' => ?_⟩
      obtain ⟨hframes, hstorable'⟩ := ih hrest hreplay' h s' hs'
      exact ⟨hframes, hstorable'.of_received hreceived⟩

/-- Only the table of texts grows with samples. -/
theorem Profile.Received.tables (h : Profile.Received stack samples p p') : p.Extends p' := by
  have hcategories : p'.categories = p.categories := (congrArg Profile.categories h.rest :)
  have hschemas : p'.schemas = p.schemas := (congrArg Profile.schemas h.rest :)
  exact ⟨h.strings, hcategories ▸ .refl _, hschemas ▸ .refl _⟩

/-- Samples and stacks leave the counters of a profile as they are. -/
theorem Profile.Received.counters (h : Profile.Received stack samples p p') :
    p'.counters = p.counters :=
  (congrArg Profile.counters h.rest :)

/-- The marker of a handle. -/
def Profile.marker? (p : Profile) (handle : MarkerHandle) : Option StoredMarker :=
  p.threads[handle.thread]?.bind fun t => t.markers[handle.index]?

/-- Every handle of the one profile denotes the same in the other, but that a thread may have other
samples and markers, and a marker another stack. -/
structure Profile.HandlesKept (p p' : Profile) : Prop where
  /-- Texts. -/
  strings : ∀ handle text, p.getString handle = .ok text → p'.getString handle = .ok text
  /-- Categories. -/
  categories : ∀ handle category,
    p.categories.get? handle = some category → p'.categories.get? handle = some category
  /-- Schemas. -/
  schemas : ∀ handle schema,
    p.schemas.get? handle = some schema → p'.schemas.get? handle = some schema
  /-- Processes. -/
  processes : p'.processes = p.processes
  /-- Threads. -/
  threads : ∀ (handle : Nat) (t : Thread), p.threads[handle]? = some t → ∃ t' : Thread,
    p'.threads[handle]? = some t' ∧ { t' with samples := t.samples, markers := t.markers } = t
  /-- Markers. -/
  markers : ∀ handle m, p.marker? handle = some m → ∃ m' : StoredMarker,
    p'.marker? handle = some m' ∧ { m' with stack := m.stack } = m
  /-- Counter tracks. -/
  counters : ∀ (handle : Nat) track,
    p.counters[handle]? = some track → p'.counters[handle]? = some track

namespace Recording

/-- Every sample is resolved to the given stack, at the state that the replay has at its tick. -/
def Resolves (r : Recording) (plan : FlushPlan) (stack : RawSample → List ShownFrame) : Prop :=
  ∀ s ∈ r.samples, ∃ frames, plan.resolve (r.replay.advance s.tick).space s = .ok frames ∧
    frames.map Frame.shown = stack s

/-- What becomes of a thread. -/
structure ThreadAccounted (r : Recording) (stack : RawSample → List ShownFrame) (p : Profile)
    (thread : Nat) (t t' : Thread) : Prop where
  /-- Behind the samples that it had come its own, in the order of their ticks. -/
  samples : ∃ added, t'.samples = t.samples ++ added ∧
    added.mapM p.showSample =
      .ok ((stableOrder RawSample.tick r.samples).filterMap (RawSample.shownOn stack thread))
  /-- Behind the markers that it had come its own, and behind these the samples of its custom
  counters. A marker that it had is the same but for a stack. -/
  markers : ∃ kept filed plotted, t'.markers = kept ++ filed ++ plotted ∧
    kept.length = t.markers.length ∧
    (∀ k m, t.markers[k]? = some m → ∃ m', kept[k]? = some m' ∧
      StoredMarker.Received p stack
        ((stableOrder RawSample.tick r.samples).filter (RawSample.targets thread k)) m m') ∧
    List.Forall₂ (fun m s => Marker.FiledAs m p s) (entriesOf thread r.markers) filed ∧
    List.Forall₂ (fun point s => Counter.PlottedAs point.1 point.2 p s)
      (entriesOf thread (r.counters.flatMap fun entry => entry.2.points entry.1)) plotted
  /-- Only samples and markers differ. -/
  rest : { t' with samples := t.samples, markers := t.markers } = t

/-- What becomes of a profile: it has what it had, under the same handles, and what the recording
held. -/
structure Accounted (r : Recording) (stack : RawSample → List ShownFrame) (p p' : Profile) :
    Prop where
  /-- Texts, categories and schemas keep their handles. -/
  tables : p.Extends p'
  /-- The tracks of all counters but the custom ones come last. -/
  counters : p'.counters = p.counters ++ r.counters.flatMap fun entry => entry.2.tracks r.process
  /-- No thread comes or goes. -/
  length : p'.threads.length = p.threads.length
  /-- Every thread receives what is its own. -/
  threads : ∀ i t, p.threads[i]? = some t →
    ∃ t', p'.threads[i]? = some t' ∧ r.ThreadAccounted stack p' i t t'
  /-- Nothing else differs. -/
  rest : { p' with strings := p.strings, categories := p.categories, schemas := p.schemas,
                   threads := p.threads, counters := p.counters } = p

/-- Markers and counters are stored one after the other. -/
theorem phases_of_flushRest {r : Recording} {statistics : Statistics}
    (h : (r.flushRest p).1 = .ok statistics) :
    ∃ p₁, (flushMarkers r.markers).runOn p = (.ok statistics, p₁) ∧
      (flushCounters r.process r.counters).runOn p₁ = (.ok (), (r.flushRest p).2.1) := by
  unfold flushRest at h ⊢
  rcases hmarkers : (flushMarkers r.markers).runOn p with ⟨f | found, p₁⟩
  · rw [hmarkers] at h
    cases h
  · rw [hmarkers] at h
    dsimp only at h ⊢
    rcases hcounters : (flushCounters r.process r.counters).runOn p₁ with ⟨f | _, p₂⟩
    · rw [hcounters] at h
      cases h
    · rw [hcounters] at h
      cases h
      exact ⟨p₁, rfl, hcounters⟩

/-- A flush goes through its phases one after the other. -/
theorem phases_of_flush {r : Recording} {plan : FlushPlan} {statistics : Statistics}
    (h : (r.flush plan p).result = .ok statistics) :
    let first := plan.flushSamples r.replay p (RawSample.inTickOrder r.samples)
    first.result = .ok () ∧ ∃ p₁,
      (flushMarkers r.markers).runOn first.profile = (.ok statistics, p₁) ∧
      (flushCounters r.process r.counters).runOn p₁ = (.ok (), (r.flush plan p).profile) := by
  intro first
  unfold flush at h ⊢
  by_cases hflushed : r.flushed = true
  · rw [if_pos hflushed] at h
    cases h
  · rw [if_neg hflushed] at h ⊢
    unfold flushOnce at h ⊢
    dsimp only at h ⊢
    cases hfirst : first.result with
    | error f =>
      rw [hfirst] at h
      cases h
    | ok _ =>
      rw [hfirst] at h
      exact ⟨rfl, phases_of_flushRest h⟩

/-- What the phases do to a thread, put together. -/
theorem ThreadAccounted.of_received {r : Recording} {i : Nat} {t t₁ : Thread}
    {filed plotted : List (Nat × StoredMarker)}
    (h : Thread.Received p stack (stableOrder RawSample.tick r.samples) i t t₁)
    (hfiled : List.Forall₂ (fun entry s => s.1 = entry.1 ∧ entry.2.FiledAs p s.2)
      r.markers filed)
    (hplotted : List.Forall₂ (fun point s => s.1 = point.1 ∧ point.2.1.PlottedAs point.2.2 p s.2)
      (r.counters.flatMap fun entry => entry.2.points entry.1) plotted) :
    r.ThreadAccounted stack p i t
      { t₁ with markers := t₁.markers ++ StoredMarker.own i (filed ++ plotted) } where
  samples := h.appended
  markers := by
    refine ⟨t₁.markers, entriesOf i filed, entriesOf i plotted, ?_, h.length, h.markers,
      forall₂_entriesOf hfiled i, forall₂_entriesOf hplotted i⟩
    rw [List.append_assoc, StoredMarker.own, List.filterMap_append]
    rfl
  rest := h.rest

/-- What the phases do to a profile, put together. -/
theorem Accounted.of_phases {r : Recording} {p₁ p₂ : Profile}
    {filed plotted : List (Nat × StoredMarker)}
    (hreceived : Profile.Received stack (stableOrder RawSample.tick r.samples) p p₁)
    (hgains : p₁.Gains p₂ filed) (hgains' : p₂.Gains { p' with counters := p₂.counters } plotted)
    (hfiled : List.Forall₂ (fun entry s => s.1 = entry.1 ∧ entry.2.FiledAs p₂ s.2)
      r.markers filed)
    (hplotted : List.Forall₂ (fun point s => s.1 = point.1 ∧ point.2.1.PlottedAs point.2.2 p' s.2)
      (r.counters.flatMap fun entry => entry.2.points entry.1) plotted)
    (htracks : p'.counters =
      p₂.counters ++ r.counters.flatMap fun entry => entry.2.tracks r.process) :
    r.Accounted stack p p' := by
  have hextends : p₂.Extends p' := ⟨hgains'.strings, hgains'.categories, hgains'.schemas⟩
  have hlate : p₁.Extends p' := hgains.tables.trans hextends
  have hall : p₁.Gains { p' with counters := p₁.counters } (filed ++ plotted) :=
    (hgains.withCounters p₁.counters).trans (hgains'.withCounters p₁.counters)
  refine ⟨hreceived.tables.trans hlate, ?_, ?_, fun i t ht => ?_, ?_⟩
  · rw [htracks, hgains.counters, hreceived.counters]
  · rw [hall.threads, List.length_mapIdx, hreceived.length]
  · obtain ⟨t₁, ht₁, hthread⟩ := hreceived.threads i t ht
    have hfiled' := hfiled.imp fun _ _ h => And.intro h.1 (h.2.mono hextends)
    refine ⟨_, ?_, ThreadAccounted.of_received (hthread.mono hlate.strings) hfiled' hplotted⟩
    rw [hall.threads, List.getElem?_mapIdx, ht₁]
    rfl
  · have hrest := congrArg (fun q : Profile => { q with
      strings := p.strings, categories := p.categories, schemas := p.schemas,
      threads := p.threads, counters := p.counters }) hall.rest
    have hrest₁ := congrArg (fun q : Profile => { q with
      categories := p.categories, schemas := p.schemas, counters := p.counters }) hreceived.rest
    exact hrest.trans hrest₁

/-- What has been given a handle before a flush keeps it. -/
theorem Accounted.handlesKept {r : Recording} (h : r.Accounted stack p p') :
    p.HandlesKept p' where
  strings := fun handle text => h.tables.getString
  categories := fun handle category => h.tables.categories.get?
  schemas := fun handle schema => h.tables.schemas.get?
  processes := (congrArg Profile.processes h.rest :)
  threads := fun handle t ht => by
    obtain ⟨t', ht', haccounted⟩ := h.threads handle t ht
    exact ⟨t', ht', haccounted.rest⟩
  markers := fun handle m hm => by
    obtain ⟨t, ht, hm⟩ := Option.bind_eq_some_iff.mp hm
    obtain ⟨t', ht', haccounted⟩ := h.threads handle.thread t ht
    obtain ⟨kept, filed, plotted, hmarkers, -, hkept, -⟩ := haccounted.markers
    obtain ⟨m', hm', hreceived⟩ := hkept handle.index m hm
    refine ⟨m', Option.bind_eq_some_iff.mpr ⟨t', ht', ?_⟩, hreceived.rest⟩
    rw [hmarkers, List.append_assoc,
      List.getElem?_append_left (List.getElem?_eq_some_iff.mp hm').1]
    exact hm'
  counters := fun handle track htrack => by
    rw [h.counters, List.getElem?_append_left (List.getElem?_eq_some_iff.mp htrack).1]
    exact htrack

/-- A flush that succeeds only adds to the profile and accounts for everything: every sample was
resolved against the mappings of its own tick, everything recorded is found in its place, and what
had a handle has it still. -/
theorem flush_accounts (r : Recording) (plan : FlushPlan) (p : Profile)
    (statistics : Statistics) (h : (r.flush plan p).result = .ok statistics) :
    (∃ stack, r.Resolves plan stack ∧ r.Accounted stack p (r.flush plan p).profile) ∧
      p.HandlesKept (r.flush plan p).profile := by
  obtain ⟨hsamples, p₂, hmarkers, hcounters⟩ := phases_of_flush h
  generalize (r.flush plan p).profile = p' at *
  have hascending := ascending_stableOrder RawSample.tick r.samples
  have hfound := plan.resolves_of_flushSamples hascending (fun _ _ => rfl) hsamples
  choose! frames hframes using fun s hs => (hfound s hs).1
  obtain ⟨stack, hresolve⟩ : ∃ stack : RawSample → List ShownFrame,
      ∀ s ∈ stableOrder RawSample.tick r.samples, ∃ frames,
        plan.resolve (r.replay.advance s.tick).space s = .ok frames ∧
          frames.map Frame.shown = stack s :=
    ⟨fun s => (frames s).map Frame.shown, fun s hs => ⟨frames s, hframes s hs, rfl⟩⟩
  obtain ⟨-, hreceived⟩ := plan.flushSamples_spec hascending (fun _ _ => rfl) hresolve
    fun s hs => (hfound s hs).2
  obtain ⟨filed, hgains, hfiled⟩ := filed_of_flushMarkers hmarkers
  obtain ⟨htracks, plotted, hgains', hplotted⟩ := plotted_of_flushCounters hcounters
  have haccounted : r.Accounted stack p p' :=
    .of_phases hreceived hgains hgains' hfiled hplotted htracks
  have hmem : ∀ s ∈ r.samples, s ∈ stableOrder RawSample.tick r.samples := fun s =>
    (perm_stableOrder RawSample.tick r.samples).mem_iff.mpr
  exact ⟨⟨stack, fun s hs => hresolve s (hmem s hs), haccounted⟩, haccounted.handlesKept⟩

/-- A profile with a thread that has a marker. -/
def accountProfile : Profile :=
  { Profile.create "tracer" 1 with
    strings := ⟨["main"]⟩
    schemas := ⟨[.event []]⟩
    processes := [⟨.number 1, "server", [0]⟩]
    threads := [⟨0, .number 1, "main", true, [], [⟨.instant 5, 0, 0, 0, [.text 0], none⟩]⟩] }

/-- A recording of a sample, of a stack for the marker, of an event and a span, and of a custom
counter next to one that has a track. -/
def accountRecording : Recording where
  samples := [⟨0, 50, 5, none, .processor 3 1, some "gc"⟩,
    ⟨0, 30, 3, none, .marker ⟨0, 0⟩, some "gc"⟩]
  regular := ⟨[], []⟩
  generated := []
  symbols := none
  markers := [(0, ⟨10, "start", "main", [("id", "1")], none⟩),
    (0, ⟨40, "work", "main", [], some ⟨.running, 50, ⟨7000, 3000⟩, "Other", none, none⟩⟩)]
  counters := [(0, ⟨"load", .custom, "", none, [⟨10, .whole 1, 1⟩, ⟨20, .whole 2, 1⟩]⟩),
    (0, ⟨"heap", .memory, "", none, [⟨15, .whole 8, 1⟩]⟩)]
  process := 0
  flushed := false

/-- The result for a recording that has markers, a counter, and samples on two threads. -/
theorem flush_accounts_recording :
    let plan : FlushPlan := ⟨⟨0, 0⟩, .empty, none, false⟩
    let flush := accountRecording.flush plan accountProfile
    ∃ statistics stack, flush.result = .ok statistics ∧
      accountRecording.Resolves plan stack ∧
      accountRecording.Accounted stack accountProfile flush.profile ∧
      accountProfile.HandlesKept flush.profile := by
  intro plan flush
  have hordered : RawSample.inTickOrder accountRecording.samples =
      accountRecording.samples.reverse := by
    simp [accountRecording, RawSample.inTickOrder, List.mergeSort,
      List.MergeSort.Internal.splitInTwo]
  have hok : flush.result.isOk = true := by
    simp only [flush, Recording.flush, flushOnce, hordered]
    decide +kernel
  cases hresult : flush.result with
  | error f =>
    rw [hresult] at hok
    cases hok
  | ok statistics =>
    obtain ⟨⟨stack, hresolves, haccounted⟩, hkept⟩ :=
      flush_accounts accountRecording plan accountProfile statistics hresult
    exact ⟨statistics, stack, rfl, hresolves, haccounted, hkept⟩

end Recording

end TraceProfile
