import TraceProfile.Assembly.Samples
import TraceProfile.Proofs.Mapping.Merge
import TraceProfile.Proofs.Profile.Storing
import TraceProfile.Proofs.Stack.Interning

/-!
# What flushed samples leave in a profile

The replay, the mapping table and the texts of a profile are carried from one sample to the next.
What is stored of a sample nevertheless depends on this sample alone: its stack is resolved
against the mappings at its tick, as they follow from all operations up to then.
-/

namespace TraceProfile

namespace RawSample

/-- What a thread receives of a sample with the given stack: a sample of its own if this one
counts processor time on the thread. -/
def shownOn (stack : RawSample → List ShownFrame) (thread : Nat) (s : RawSample) :
    Option ShownSample :=
  match s.payload with
  | .processor delta weight =>
    if s.thread = thread then some ⟨s.time, stack s, delta, weight⟩ else none
  | .marker _ => none

/-- The sample is the stack of a marker of a thread. -/
def targets (thread index : Nat) (s : RawSample) : Bool :=
  match s.payload with
  | .processor _ _ => false
  | .marker handle => s.thread = thread && handle.index = index

/-- The thread of the sample is in the profile, and so is its marker if it has one. -/
def Storable (p : Profile) (s : RawSample) : Prop :=
  ∃ t, p.threads[s.thread]? = some t ∧
    ∀ handle, s.payload = .marker handle →
      handle.thread = s.thread ∧ handle.index < t.markers.length

end RawSample

/-- What becomes of a marker: it has the stack of the last sample for it, if there is any, and is
the same otherwise. -/
structure StoredMarker.Received (p : Profile) (stack : RawSample → List ShownFrame)
    (samples : List RawSample) (m m' : StoredMarker) : Prop where
  /-- Only the stack differs. -/
  rest : { m' with stack := m.stack } = m
  /-- Without a sample the stack is the same. -/
  kept : samples.getLast? = none → m'.stack = m.stack
  /-- The stack is read back as that of the last sample. -/
  replaced : ∀ s, samples.getLast? = some s →
    ∃ stored, m'.stack = some stored ∧ stored.mapM p.showFrame = .ok (stack s)

/-- What becomes of a thread: its samples come behind the ones that it has, and its markers get
their stacks. -/
structure Thread.Received (p : Profile) (stack : RawSample → List ShownFrame)
    (samples : List RawSample) (handle : Nat) (t t' : Thread) : Prop where
  /-- The samples. -/
  appended : ∃ added, t'.samples = t.samples ++ added ∧
    added.mapM p.showSample = .ok (samples.filterMap (RawSample.shownOn stack handle))
  /-- The number of markers. -/
  length : t'.markers.length = t.markers.length
  /-- The markers. -/
  markers : ∀ k m, t.markers[k]? = some m → ∃ m', t'.markers[k]? = some m' ∧
    StoredMarker.Received p stack (samples.filter (RawSample.targets handle k)) m m'
  /-- Only samples and markers differ. -/
  rest : { t' with samples := t.samples, markers := t.markers } = t

/-- What becomes of a profile when samples are stored. -/
structure Profile.Received (stack : RawSample → List ShownFrame) (samples : List RawSample)
    (p p' : Profile) : Prop where
  /-- Texts keep their handles. -/
  strings : p.strings.Extends p'.strings
  /-- No thread comes or goes. -/
  length : p'.threads.length = p.threads.length
  /-- Every thread receives what is its own. -/
  threads : ∀ i t, p.threads[i]? = some t →
    ∃ t', p'.threads[i]? = some t' ∧ Thread.Received p' stack samples i t t'
  /-- Only texts and threads differ. -/
  rest : { p' with strings := p.strings, threads := p.threads } = p

variable {stack : RawSample → List ShownFrame} {samples more : List RawSample}
  {p p' p'' : Profile}

/-- Without samples, a marker stays as it is. -/
theorem StoredMarker.Received.refl (p : Profile) (m : StoredMarker) :
    StoredMarker.Received p stack [] m m :=
  ⟨rfl, fun _ => rfl, fun _ hs => nomatch hs⟩

/-- What a marker receives from two lists of samples, it receives from both in a row. -/
theorem StoredMarker.Received.trans {m m' m'' : StoredMarker}
    (hstrings : p.strings.Extends p'.strings) (h : StoredMarker.Received p stack samples m m')
    (h' : StoredMarker.Received p' stack more m' m'') :
    StoredMarker.Received p' stack (samples ++ more) m m'' := by
  refine ⟨?_, fun hnone => ?_, fun s hs => ?_⟩
  · have hrest := congrArg (fun x : StoredMarker => { x with stack := m.stack }) h'.rest
    exact hrest.trans h.rest
  · rw [List.getLast?_append, Option.or_eq_none_iff] at hnone
    rw [h'.kept hnone.1, h.kept hnone.2]
  · rw [List.getLast?_append] at hs
    cases hlast : more.getLast? with
    | some last =>
      rw [hlast, Option.some_or] at hs
      exact h'.replaced s (hlast.trans hs)
    | none =>
      rw [hlast, Option.none_or] at hs
      obtain ⟨stored, hstored, hshown⟩ := h.replaced s hs
      exact ⟨stored, (h'.kept hlast).trans hstored, Profile.showFrames_mono hstrings hshown⟩

/-- What a thread receives from two lists of samples, it receives from both in a row. -/
theorem Thread.Received.trans {i : Nat} {t t' t'' : Thread}
    (hstrings : p.strings.Extends p'.strings) (h : Thread.Received p stack samples i t t')
    (h' : Thread.Received p' stack more i t' t'') :
    Thread.Received p' stack (samples ++ more) i t t'' := by
  obtain ⟨added, hadded, hshown⟩ := h.appended
  obtain ⟨added', hadded', hshown'⟩ := h'.appended
  refine ⟨⟨added ++ added', ?_, ?_⟩, h'.length.trans h.length, fun k m hm => ?_, ?_⟩
  · rw [hadded', hadded, List.append_assoc]
  · have hfirst := (mapM_eq_ok_iff.mp hshown).imp fun _ _ => Profile.showSample_mono hstrings
    rw [List.filterMap_append, mapM_eq_ok_iff]
    exact List.rel_append hfirst (mapM_eq_ok_iff.mp hshown')
  · obtain ⟨m', hm', hreceived⟩ := h.markers k m hm
    obtain ⟨m'', hm'', hreceived'⟩ := h'.markers k m' hm'
    rw [List.filter_append]
    exact ⟨m'', hm'', hreceived.trans hstrings hreceived'⟩
  · have hrest := congrArg
      (fun x : Thread => { x with samples := t.samples, markers := t.markers }) h'.rest
    exact hrest.trans h.rest

/-- Samples may be stored in two parts. -/
theorem Profile.Received.trans (h : Profile.Received stack samples p p')
    (h' : Profile.Received stack more p' p'') :
    Profile.Received stack (samples ++ more) p p'' := by
  refine ⟨h.strings.trans h'.strings, h'.length.trans h.length, fun i t ht => ?_, ?_⟩
  · obtain ⟨t', ht', hreceived⟩ := h.threads i t ht
    obtain ⟨t'', ht'', hreceived'⟩ := h'.threads i t' ht'
    exact ⟨t'', ht'', hreceived.trans h'.strings hreceived'⟩
  · have hrest := congrArg
      (fun x : Profile => { x with strings := p.strings, threads := p.threads }) h'.rest
    exact hrest.trans h.rest

/-- A thread receives nothing of a sample of another thread. -/
theorem Thread.Received.of_ne {i : Nat} {s : RawSample} (hne : s.thread ≠ i) (t : Thread) :
    Thread.Received p stack [s] i t t := by
  have hshown : [s].filterMap (RawSample.shownOn stack i) = [] := by
    rw [List.filterMap_cons_none, List.filterMap_nil]
    unfold RawSample.shownOn
    split
    · rw [if_neg hne]
    · rfl
  have htargets : ∀ k, [s].filter (RawSample.targets i k) = [] := by
    intro k
    refine List.filter_eq_nil_iff.mpr fun s' hs' => ?_
    rw [List.mem_singleton.mp hs', RawSample.targets]
    split
    · simp
    · simp [hne]
  refine ⟨⟨[], (List.append_nil _).symm, ?_⟩, rfl, fun k m hm => ⟨m, hm, ?_⟩, rfl⟩
  · rw [hshown]
    rfl
  · rw [htargets]
    exact .refl p m

/-- A sample that changes its own thread only. -/
private theorem received_of_set {s : RawSample} {t t' : Thread} {strings : Catalogue id}
    (ht : p.threads[s.thread]? = some t) (hextends : p.strings.Extends strings)
    (hthread : Thread.Received { p with strings, threads := p.threads.set s.thread t' } stack [s]
      s.thread t t') :
    Profile.Received stack [s] p { p with strings, threads := p.threads.set s.thread t' } := by
  refine ⟨hextends, List.length_set, fun i t₀ ht₀ => ?_, rfl⟩
  by_cases hi : s.thread = i
  · subst hi
    cases ht.symm.trans ht₀
    exact ⟨t', List.getElem?_set_self (List.getElem?_eq_some_iff.mp ht).1, hthread⟩
  · exact ⟨t₀, (List.getElem?_set_ne hi).trans ht₀, .of_ne hi t₀⟩

/-- A sample whose thread and marker are there is stored, with its stack. -/
theorem RawSample.store_spec {s : RawSample} (hs : s.Storable p) {frames : List Frame}
    (hframes : frames.map Frame.shown = stack s) :
    ∃ p', (s.store frames).runOn p = (.ok (), p') ∧ Profile.Received stack [s] p p' := by
  obtain ⟨t, ht, hmarker⟩ := hs
  unfold RawSample.store
  cases hpayload : s.payload with
  | processor delta weight =>
    obtain ⟨stored, strings, hextends, hrun, hshown⟩ :=
      Edit.addSample_spec ht s.time frames delta weight
    refine ⟨_, hrun, received_of_set ht hextends ?_⟩
    have htargets : ∀ k, [s].filter (RawSample.targets s.thread k) = [] := by
      intro k
      simp [RawSample.targets, hpayload]
    refine ⟨⟨[⟨s.time, stored, delta, weight⟩], rfl, ?_⟩, rfl, fun k m hm => ⟨m, hm, ?_⟩, rfl⟩
    · have hsample : RawSample.shownOn stack s.thread s =
          some ⟨s.time, stack s, delta, weight⟩ := by
        simp [RawSample.shownOn, hpayload]
      rw [List.filterMap_cons_some hsample, List.filterMap_nil, mapM_eq_ok_iff]
      refine .cons (Profile.showSample_eq_ok_iff.mpr ⟨stack s, ?_, rfl⟩) .nil
      rw [← hframes]
      exact Profile.showFrames_mono (.refl _) hshown
    · rw [htargets]
      exact .refl _ m
  | marker handle =>
    obtain ⟨howner, hindex⟩ := hmarker handle hpayload
    obtain ⟨m, hm⟩ : ∃ m, t.markers[handle.index]? = some m :=
      ⟨_, List.getElem?_eq_getElem hindex⟩
    obtain ⟨stored, strings, hextends, hrun, hshown⟩ :=
      Edit.setMarkerStack_spec ht howner hm frames
    refine ⟨_, hrun, received_of_set ht hextends ?_⟩
    refine ⟨⟨[], (List.append_nil _).symm, ?_⟩, List.length_set, fun k m₀ hm₀ => ?_, rfl⟩
    · have hsample : RawSample.shownOn stack s.thread s = none := by
        simp [RawSample.shownOn, hpayload]
      rw [List.filterMap_cons_none hsample, List.filterMap_nil]
      rfl
    · by_cases hk : handle.index = k
      · subst hk
        cases hm.symm.trans hm₀
        refine ⟨_, List.getElem?_set_self hindex, rfl, fun hnone => ?_, fun s' hs' => ?_⟩
        · simp [RawSample.targets, hpayload] at hnone
        · have hlast : s = s' := by simpa [RawSample.targets, hpayload] using hs'
          subst hlast
          rw [← hframes]
          exact ⟨stored, rfl, Profile.showFrames_mono (.refl _) hshown⟩
      · have htargets : [s].filter (RawSample.targets s.thread k) = [] := by
          simp [RawSample.targets, hpayload, hk]
        refine ⟨m₀, (List.getElem?_set_ne hk).trans hm₀, ?_⟩
        rw [htargets]
        exact .refl _ m₀

/-- A sample can still be stored after others. -/
theorem RawSample.Storable.mono {s : RawSample} (hs : s.Storable p)
    (h : Profile.Received stack samples p p') : s.Storable p' := by
  obtain ⟨t, ht, hmarker⟩ := hs
  obtain ⟨t', ht', hreceived⟩ := h.threads s.thread t ht
  refine ⟨t', ht', fun handle hhandle => ?_⟩
  rw [hreceived.length]
  exact hmarker handle hhandle

/-- Without samples, a profile stays as it is. -/
theorem Profile.Received.refl (p : Profile) : Profile.Received stack [] p p :=
  ⟨.refl _, rfl, fun _ t ht => ⟨t, ht, ⟨[], (List.append_nil _).symm, rfl⟩, rfl,
    fun _ m hm => ⟨m, hm, .refl p m⟩, rfl⟩, rfl⟩

/-- A flush of samples stores each of them. The replay may stand at any time from which it
reaches the ticks of the samples as the given start does. -/
theorem FlushPlan.flushSamples_spec (plan : FlushPlan) {start replay : Replay}
    (hascending : Ascending RawSample.tick samples)
    (hreplay : ∀ s ∈ samples, replay.advance s.tick = start.advance s.tick)
    (hresolve : ∀ s ∈ samples, ∃ frames,
      plan.resolve (start.advance s.tick).space s = .ok frames ∧
        frames.map Frame.shown = stack s)
    (hstorable : ∀ s ∈ samples, s.Storable p) :
    (plan.flushSamples replay p samples).result = .ok () ∧
      Profile.Received stack samples p (plan.flushSamples replay p samples).profile := by
  induction samples generalizing replay p with
  | nil => exact ⟨rfl, .refl p⟩
  | cons s rest ih =>
    obtain ⟨hlater, hrest⟩ := List.pairwise_cons.mp hascending
    obtain ⟨hs, hothers⟩ := List.forall_mem_cons.mp hreplay
    obtain ⟨⟨frames, hframes, hshown⟩, hresolve'⟩ := List.forall_mem_cons.mp hresolve
    have hfirst : s.Storable p := hstorable s List.mem_cons_self
    obtain ⟨p', hrun, hreceived⟩ := RawSample.store_spec hfirst hshown
    have hedit : (Edit.ofExcept (plan.resolve (replay.advance s.tick).space s) >>=
        s.store).runOn p = (.ok (), p') := by
      rw [hs, hframes]
      exact (Edit.runOn_bind_ok rfl).trans hrun
    have hreplay' : ∀ s' ∈ rest,
        (replay.advance s.tick).advance s'.tick = start.advance s'.tick := by
      intro s' hs'
      rw [hs, Replay.advance_advance, Int.max_eq_right (hlater s' hs')]
    obtain ⟨hresult, hreceived'⟩ := ih hrest hreplay' hresolve'
      fun s' hs' => (hstorable s' (List.mem_cons_of_mem s hs')).mono hreceived
    simp only [flushSamples, hedit]
    exact ⟨hresult, hreceived.trans hreceived'⟩

end TraceProfile
