import TraceProfile.Assembly.Counters
import TraceProfile.Assembly.Markers
import TraceProfile.Assembly.Samples

/-!
# Flushing a recording

A flush puts samples, markers and counters of a recording into a profile, in this order, and
reports the statistics of its spans. A fault ends it; what was stored before stays. A recording
counts as flushed from the start of its first flush.
-/

namespace TraceProfile

/-- What a flush leaves behind. -/
structure Flush where
  /-- The statistics, or the fault that ended it. -/
  result : Except Fault Statistics
  /-- The recording, which holds no more samples. -/
  recording : Recording
  /-- The profile. -/
  profile : Profile
  /-- The replay after the last sample; none if nothing was replayed. -/
  replay : Option Replay
  /-- The lines printed. -/
  printed : List String
  /-- What the mapping operations reported. -/
  log : List LogRecord

namespace Recording

/-- The line that tells how many samples were resolved. -/
def resolvedLine (samples : Nat) (replay : Replay) : String :=
  s!"> resolved {samples} samples, {replay.space.table.size} mappings active at the end"

/-- The lines of the statistics, if there are any. -/
def statisticsLines (statistics : Statistics) : List String :=
  if statistics.isEmpty then [] else statistics.reportLines

/-- Markers and counters are flushed after the samples. -/
def flushRest (r : Recording) (profile : Profile) :
    Except Fault Statistics × Profile × List String :=
  match (flushMarkers r.markers).runOn profile with
  | (.error f, profile) => (.error f, profile, [])
  | (.ok statistics, profile) =>
    match (flushCounters r.process r.counters).runOn profile with
    | (.error f, profile) => (.error f, profile, statisticsLines statistics)
    | (.ok (), profile) => (.ok statistics, profile, statisticsLines statistics)

/-- A recording that has not been flushed is flushed. -/
def flushOnce (r : Recording) (plan : FlushPlan) (profile : Profile) : Flush :=
  let drained := { r with samples := [], flushed := true }
  let samples := RawSample.inTickOrder r.samples
  let first := plan.flushSamples r.replay profile samples
  match first.result with
  | .error f => ⟨.error f, drained, first.profile, some first.replay, [], first.log⟩
  | .ok () =>
    let verbose := if plan.verbose then [resolvedLine samples.length first.replay] else []
    let (result, profile, printed) := r.flushRest first.profile
    ⟨result, drained, profile, some first.replay, verbose ++ printed, first.log⟩

/-- A recording is flushed, unless it has been flushed before. -/
def flush (r : Recording) (plan : FlushPlan) (profile : Profile) : Flush :=
  if r.flushed then ⟨.error (Refusal.alreadyFlushed : Fault), r, profile, none, [], []⟩
  else r.flushOnce plan profile

end Recording

end TraceProfile
