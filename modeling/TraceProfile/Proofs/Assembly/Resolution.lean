import TraceProfile.Proofs.Assembly.Samples

/-!
# Resolution of samples

The frames that a profile shows for a sample, computed from this sample alone: from the stack
that was recorded for it, the mappings that hold at its tick, the categories and the depth limit.
A flush of all samples of a recording shows exactly these.
-/

namespace TraceProfile

/-- The mappings at a tick: what is left of the operations of all queues up to this tick, carried
out on an empty table by ascending time, equal times in the order of the queues and in the order
within a queue. -/
def MappingTable.upTo (queues : List OpQueue) (tick : Int) : MappingTable :=
  (AddressSpace.empty.applyAll
    ((stableOrder MappingOp.time (queues.flatMap OpQueue.history)).filter (·.time ≤ tick))).table

/-- A label is shown in the category of user frames, at no address. -/
def ShownFrame.ofLabel (category : Int) (text : String) : ShownFrame :=
  ⟨.label, category, 0, none, none, some text⟩

/-- What is shown for a raw frame under given mappings. A kernel frame keeps its category in any
library, a user frame takes that of its library if there is one. -/
def FrameCategories.shown (categories : FrameCategories) (table : MappingTable) :
    RawFrame → ShownFrame
  | .user address =>
    match table.lookup address with
    | none => ⟨.user, categories.user, address, none, none, some "unknown"⟩
    | some m => ⟨.user, m.library.category.getD categories.user, address, some m.library.name,
        some (address - m.start + m.offset), m.library.symbol⟩
  | .kernel address =>
    match table.lookup address with
    | none => ⟨.kernel, categories.kernel, address, none, none, some "unknown"⟩
    | some m => ⟨.kernel, categories.kernel, address, some m.library.name,
        some (address - m.start + m.offset), m.library.symbol⟩
  | .label text => .ofLabel categories.user text

/-- What is shown for a stack: the extra label comes before the leaf, and one label stands for
all that is beyond the depth limit. -/
def FlushPlan.shownStack (plan : FlushPlan) (table : MappingTable) (label : Option String)
    (raw : List RawFrame) : List ShownFrame :=
  let frames := (label.map (ShownFrame.ofLabel plan.categories.user)).toList ++
    raw.map (plan.categories.shown table)
  let depth := (plan.depth.getD 1024).toNat
  if depth < frames.length then
    frames.take (depth - 1) ++ [.ofLabel plan.categories.user "(stack truncated)"]
  else frames

/-- A converted frame shows what its address resolves to. -/
theorem FrameCategories.shown_frame (categories : FrameCategories) (table : MappingTable)
    (raw : RawFrame) :
    (categories.frame table.resolve raw).shown = categories.shown table raw := by
  cases raw with
  | user address =>
    rw [frame, userFrame, shown, MappingTable.resolve]
    cases table.lookup address with
    | none => rfl
    | some m => rfl
  | kernel address =>
    rw [frame, kernelFrame, shown, MappingTable.resolve]
    cases table.lookup address with
    | none => rfl
    | some m => rfl
  | label text => rfl

/-- A converted stack shows its label, if there is one, and then its frames in their order. -/
theorem FrameCategories.map_shown_stack (categories : FrameCategories) (table : MappingTable)
    (label : Option String) (raw : List RawFrame) :
    (categories.stack table.resolve label raw).map Frame.shown =
      (label.map (ShownFrame.ofLabel categories.user)).toList ++
        raw.map (categories.shown table) := by
  rw [stack, List.map_append, List.map_map]
  congr 1
  · cases label with
    | none => rfl
    | some text => rfl
  · exact List.map_congr_left fun frame _ => categories.shown_frame table frame

/-- A depth of at least one makes a limit, and without a depth the limit is 1024. -/
theorem DepthLimit.ofDepth_eq_ok {depth : Option Int} (h : ∀ d, depth = some d → 1 ≤ d) :
    ∃ limit, ofDepth depth = .ok limit ∧ limit.depth = (depth.getD 1024).toNat := by
  cases depth with
  | none => exact ⟨standard, rfl, rfl⟩
  | some d =>
    have hpos : 0 < d := h d rfl
    exact ⟨⟨d.toNat, Int.pos_iff_toNat_pos.mp hpos⟩, dif_pos hpos, rfl⟩

/-- A limited stack shows the frames up to the limit, the last of which says that it was cut. -/
theorem DepthLimit.map_shown_apply (limit : DepthLimit) (category : Int) (frames : List Frame) :
    (limit.apply category frames).map Frame.shown =
      if limit.depth < (frames.map Frame.shown).length then
        (frames.map Frame.shown).take (limit.depth - 1) ++
          [.ofLabel category "(stack truncated)"]
      else frames.map Frame.shown := by
  simp only [apply, truncates, decide_eq_true_eq, List.length_map]
  split
  · rw [List.map_append, List.map_take]
    rfl
  · rfl

/-- A stack that the store holds is resolved, into what is to be shown. -/
theorem FlushPlan.resolve_spec {plan : FlushPlan} {s : RawSample} {raw : List RawFrame}
    (hdepth : ∀ d, plan.depth = some d → 1 ≤ d) (hraw : plan.store.frames s.stack = .ok raw)
    (space : AddressSpace) :
    ∃ frames, plan.resolve space s = .ok frames ∧
      frames.map Frame.shown = plan.shownStack space.table s.label raw := by
  obtain ⟨limit, hlimit, hvalue⟩ := DepthLimit.ofDepth_eq_ok hdepth
  refine ⟨limit.apply plan.categories.user
    (plan.categories.stack space.table.resolve s.label raw), ?_, ?_⟩
  · rw [resolve, hraw, hlimit]
    rfl
  · rw [limit.map_shown_apply, plan.categories.map_shown_stack, hvalue]
    rfl

/-- Every sample of a recording is resolved as if it were the only one. The stack store has been
filled by interning stacks, and every id comes from there. Then a flush of the samples does not
fail; the processor samples of each thread come behind those that it had, by ascending tick and
equal ticks in the order of their recording; and each shows the stack that was recorded, resolved
against the mappings at its own tick. A marker shows the stack of its last sample. -/
theorem Recording.flushSamples_resolves (r : Recording) (plan : FlushPlan) (profile : Profile)
    (interned : List (List RawFrame)) (original : RawSample → List RawFrame)
    (hfresh : ∀ q ∈ r.queues, q.Fresh)
    (hdepth : ∀ d, plan.depth = some d → 1 ≤ d)
    (hstore : plan.store = StackStore.internAll .empty interned)
    (hstack : ∀ s ∈ r.samples, (s.stack = none ∧ original s = []) ∨
      StackStore.Given interned s.stack (original s))
    (hstorable : ∀ s ∈ r.samples, s.Storable profile) :
    let stack := fun s : RawSample =>
      plan.shownStack (MappingTable.upTo r.queues s.tick) s.label (original s)
    let ordered := stableOrder RawSample.tick r.samples
    let flush := plan.flushSamples r.replay profile (RawSample.inTickOrder r.samples)
    Ascending RawSample.tick ordered ∧
      (∀ tick, ordered.filter (·.tick = tick) = r.samples.filter (·.tick = tick)) ∧
      flush.result = .ok () ∧ flush.profile.threads.length = profile.threads.length ∧
      ∀ i t, profile.threads[i]? = some t →
        ∃ t' added, flush.profile.threads[i]? = some t' ∧ t'.samples = t.samples ++ added ∧
          added.mapM flush.profile.showSample =
            .ok (ordered.filterMap (RawSample.shownOn stack i)) ∧
          t'.markers.length = t.markers.length ∧
          ∀ k m, t.markers[k]? = some m → ∃ m', t'.markers[k]? = some m' ∧
            StoredMarker.Received flush.profile stack
              (ordered.filter (RawSample.targets i k)) m m' := by
  intro stack ordered flush
  have hmem : ∀ s ∈ ordered, s ∈ r.samples := fun s hs =>
    (perm_stableOrder RawSample.tick r.samples).mem_iff.mp hs
  have hresolve : ∀ s ∈ ordered, ∃ frames,
      plan.resolve (r.replay.advance s.tick).space s = .ok frames ∧
        frames.map Frame.shown = stack s := by
    intro s hs
    have hraw : plan.store.frames s.stack = .ok (original s) := by
      rcases hstack s (hmem s hs) with ⟨hnone, hempty⟩ | hgiven
      · rw [hnone, hempty]
        rfl
      · rw [hstore]
        exact hgiven.frames_eq
    have hspace : (r.replay.advance s.tick).space.table = MappingTable.upTo r.queues s.tick := by
      rw [Recording.replay, Replay.space_advance_ofQueues hfresh]
      rfl
    obtain ⟨frames, hframes, hshown⟩ :=
      FlushPlan.resolve_spec hdepth hraw (r.replay.advance s.tick).space
    rw [hspace] at hshown
    exact ⟨frames, hframes, hshown⟩
  obtain ⟨hresult, hreceived⟩ := plan.flushSamples_spec
    (ascending_stableOrder RawSample.tick r.samples) (fun _ _ => rfl) hresolve
    fun s hs => hstorable s (hmem s hs)
  refine ⟨ascending_stableOrder _ _, filter_key_stableOrder _ _, hresult, hreceived.length,
    fun i t ht => ?_⟩
  obtain ⟨t', ht', hthread⟩ := hreceived.threads i t ht
  obtain ⟨added, hadded, hshown⟩ := hthread.appended
  exact ⟨t', added, ht', hadded, hshown, hthread.length, hthread.markers⟩

/-- Two samples of one stack, the later one recorded first. A library is mapped between their
ticks, and the depth limit is met by the one without a label. -/
theorem Recording.flushSamples_resolves_around_mapping :
    let library : Library := ⟨"lib", "lib", none, none⟩
    let regular : OpQueue := ⟨[], [⟨4, .add ⟨96, 200, 16, library⟩⟩]⟩
    let samples : List RawSample := [⟨0, 50, 5, some 1, .processor 3 1, none⟩,
      ⟨0, 30, 3, some 1, .processor 2 1, some "gc"⟩]
    let r : Recording := ⟨samples, regular, [], none, [], [], 0, false⟩
    let interned : List (List RawFrame) := [[.user 100, .kernel 7]]
    let plan : FlushPlan := ⟨⟨1, 2⟩, StackStore.internAll .empty interned, some 2, false⟩
    let profile : Profile :=
      { Profile.create "p" 1 with threads := [⟨0, .blank, "main", true, [], []⟩] }
    let flush := plan.flushSamples r.replay profile (RawSample.inTickOrder r.samples)
    (∀ q ∈ r.queues, q.Fresh) ∧
      (∀ s ∈ r.samples, StackStore.Given interned s.stack [.user 100, .kernel 7]) ∧
      (∀ s ∈ r.samples, s.Storable profile) ∧ flush.result = .ok () ∧
      ∃ t added, flush.profile.threads[0]? = some t ∧ t.samples = added ∧
      added.mapM flush.profile.showSample = .ok
        [⟨30, [.ofLabel 1 "gc", .ofLabel 1 "(stack truncated)"], 2, 1⟩,
         ⟨50, [⟨.user, 1, 100, some "lib", some 20, none⟩,
           ⟨.kernel, 2, 7, none, none, some "unknown"⟩], 3, 1⟩] := by
  intro library regular samples r interned plan profile flush
  have hstack : ∀ s ∈ r.samples, StackStore.Given interned s.stack [.user 100, .kernel 7] := by
    intro s hs
    have hid : s.stack = some 1 := by
      rcases List.mem_pair.mp hs with rfl | rfl <;> rfl
    exact ⟨[], [], rfl, hid⟩
  have hstorable : ∀ s ∈ r.samples, s.Storable profile := by
    intro s hs
    rcases List.mem_pair.mp hs with rfl | rfl <;> exact ⟨_, rfl, fun _ h => nomatch h⟩
  have hfresh : ∀ q ∈ r.queues, q.Fresh := fun q hq => by
    rw [List.mem_singleton.mp hq]
    exact ⟨regular.waiting, rfl⟩
  obtain ⟨-, -, hresult, -, hthreads⟩ := Recording.flushSamples_resolves r plan profile interned
    (fun _ => [.user 100, .kernel 7]) hfresh (by decide) rfl (fun s hs => .inr (hstack s hs))
    hstorable
  obtain ⟨t, added, ht, hadded, hshown, -⟩ := hthreads 0 _ rfl
  have hops : stableOrder MappingOp.time (r.queues.flatMap OpQueue.history) = regular.waiting := by
    simp [r, regular, Recording.queues, OpQueue.history, stableOrder]
  have hordered : stableOrder RawSample.tick r.samples = samples.reverse := by
    simp [r, samples, stableOrder, List.mergeSort, List.MergeSort.Internal.splitInTwo]
  refine ⟨hfresh, hstack, hstorable, hresult, t, added, ht, hadded,
    hshown.trans (congrArg Except.ok ?_)⟩
  simp only [hordered, MappingTable.upTo, hops]
  decide +kernel

end TraceProfile
