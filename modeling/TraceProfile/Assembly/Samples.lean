import TraceProfile.Assembly.Recording

/-!
# Flushing samples

Samples go into a profile in the order of their ticks. Before a sample is resolved the mapping
operations up to its tick are carried out, so that each sees the mappings of its own time.
-/

namespace TraceProfile

/-- The frames of a sample in an address space. -/
def FlushPlan.resolve (plan : FlushPlan) (space : AddressSpace) (sample : RawSample) :
    Except Fault (List Frame) := do
  let raw ← StackStore.frames plan.store sample.stack
  let limit ← DepthLimit.ofDepth plan.depth
  let frames := plan.categories.stack space.table.resolve sample.label raw
  pure (limit.apply plan.categories.user frames)

/-- A sample with its frames is stored, in its thread or at its marker. -/
def RawSample.store (sample : RawSample) (frames : List Frame) : Edit Unit :=
  match sample.payload with
  | .processor delta weight => Edit.addSample sample.thread sample.time frames delta weight
  | .marker handle => Edit.setMarkerStack sample.thread handle frames

/-- What the flush of samples leaves behind. -/
structure SampleFlush where
  /-- The result. -/
  result : Except Fault Unit
  /-- The replay after the last sample that was looked at. -/
  replay : Replay
  /-- The profile. -/
  profile : Profile
  /-- What the mapping operations reported. -/
  log : List LogRecord

/-- Samples in the order of their ticks are flushed. -/
def FlushPlan.flushSamples (plan : FlushPlan) (replay : Replay) (profile : Profile) :
    List RawSample → SampleFlush
  | [] => ⟨.ok (), replay, profile, []⟩
  | sample :: rest =>
    let log := replay.report sample.tick
    let replay := replay.advance sample.tick
    let edit := Edit.ofExcept (plan.resolve replay.space sample) >>= sample.store
    match edit.runOn profile with
    | (.error f, profile) => ⟨.error f, replay, profile, log⟩
    | (.ok (), profile) =>
      let flush := plan.flushSamples replay profile rest
      { flush with log := log ++ flush.log }

end TraceProfile
