import TraceProfile.Mapping.Replay
import TraceProfile.Proofs.Mapping.Announcement

/-!
# Merging queues

A schedule hands operations out one by one from its announcements. All together they are the
pending operations in the stable order of their times, cut off at the time asked for. Several
calls hand out what one call with the latest of their times does, so a replay depends on nothing
else.
-/

namespace TraceProfile

namespace Schedule

/-- If no operation is due, none is handed out. -/
theorem due_of_none {s : Schedule} {time : Int} (h : s.pop? time = none) :
    s.due time = ([], s) := by
  rw [due]
  split
  · rfl
  · rename_i hsome
    rw [h] at hsome
    cases hsome

/-- If an operation is due, it is handed out before the others. -/
theorem due_of_some {s s' : Schedule} {time : Int} {op : MappingOp}
    (h : s.pop? time = some (op, s')) :
    s.due time = (op :: (s'.due time).1, (s'.due time).2) := by
  rw [due]
  split
  · rename_i hnone
    rw [h] at hnone
    cases hnone
  · rename_i hsome
    rw [h] at hsome
    cases hsome
    rfl

/-- What is due at a time is due at any later time. -/
theorem pop?_mono {s : Schedule} {time later : Int} (hle : time ≤ later)
    {next : MappingOp × Schedule} (h : s.pop? time = some next) : s.pop? later = some next := by
  unfold pop? at h ⊢
  cases hannounced : s.announced with
  | nil =>
    rw [hannounced] at h
    cases h
  | cons a announced =>
    simp only [hannounced] at h ⊢
    split at h
    · rw [if_pos (by omega), h]
    · cases h

/-- Two calls one after the other hand out what a single call with the later time does, and leave
the same schedule behind. -/
theorem due_max (s : Schedule) (time time' : Int) :
    s.due (max time time') =
      ((s.due time).1 ++ ((s.due time).2.due time').1, ((s.due time).2.due time').2) := by
  induction s using due.induct time with
  | case1 s h =>
    rw [due_of_none h, List.nil_append]
    by_cases hle : time ≤ time'
    · rw [Int.max_eq_right hle]
    · have hnone : s.pop? time' = none := by
        cases hpop : s.pop? time' with
        | none => rfl
        | some next => rw [pop?_mono (by omega) hpop] at h; cases h
      rw [Int.max_eq_left (by omega), due_of_none h, due_of_none hnone]
  | case2 s op s' h _ _ _ ih =>
    rw [due_of_some h, due_of_some (pop?_mono (Int.le_max_left time time') h), ih, List.cons_append]

/-- What is handed out is what is pending, in the stable order of the times, up to the time
asked for. -/
theorem due_fst_eq {s : Schedule} (hs : s.Coherent) (time : Int) :
    (s.due time).1 = (stableOrder MappingOp.time s.pending).filter (·.time ≤ time) := by
  induction s using due.induct time with
  | case1 s h =>
    rw [due_of_none h, filter_stableOrder]
    have hlater : s.pending.filter (·.time ≤ time) = [] := by
      refine List.filter_eq_nil_iff.mpr fun op hop => ?_
      obtain ⟨place, -, hplace⟩ := List.mem_flatMap.mp hop
      have := lt_time_of_pop?_eq_none hs h hplace
      simp only [decide_eq_true_eq]
      omega
    rw [hlater, stableOrder_nil]
  | case2 s op s' h _ _ _ ih =>
    obtain ⟨before, after, hpending, hpending', hbefore, hafter⟩ := pending_pop? hs h
    obtain ⟨place, announced, taken, rest, -, hdue, -, -⟩ := pop?_eq_some hs h
    rw [due_of_some h, ih (coherent_pop? hs h), hpending, hpending',
      stableOrder_append_cons hbefore hafter, List.filter_cons_of_pos (by simpa using hdue)]

/-- Handing out what is due keeps a schedule coherent. -/
theorem coherent_due {s : Schedule} (hs : s.Coherent) (time : Int) :
    (s.due time).2.Coherent := by
  induction s using due.induct time with
  | case1 s h => rwa [due_of_none h]
  | case2 s op s' h _ _ _ ih =>
    rw [due_of_some h]
    exact ih (coherent_pop? hs h)

/-- A schedule stays complete when all operations up to a time are handed out. -/
theorem complete_due {s : Schedule} (hs : s.Coherent) (hcomplete : s.Complete) (time : Int) :
    (s.due time).2.Complete := by
  induction s using due.induct time with
  | case1 s h => rwa [due_of_none h]
  | case2 s op s' h _ _ _ ih =>
    rw [due_of_some h]
    exact ih (coherent_pop? hs h) (complete_pop? hs hcomplete h)

/-- No queue comes or goes when the operations up to a time are handed out. -/
theorem length_queues_due {s : Schedule} (hs : s.Coherent) (time : Int) :
    (s.due time).2.queues.length = s.queues.length := by
  induction s using due.induct time with
  | case1 s h => rw [due_of_none h]
  | case2 s op s' h _ _ _ ih =>
    rw [due_of_some h, ih (coherent_pop? hs h), length_queues_pop? hs h]

/-- What stays pending in a queue is what is due later. -/
theorem pendingAt_due {s : Schedule} (hs : s.Coherent) (time : Int) (p : Nat) :
    (s.due time).2.pendingAt p = (s.pendingAt p).filter (time < ·.time) := by
  induction s using due.induct time with
  | case1 s h =>
    rw [due_of_none h]
    symm
    exact List.filter_eq_self.mpr fun op hop => by
      simpa using lt_time_of_pop?_eq_none hs h hop
  | case2 s op s' h _ _ _ ih =>
    obtain ⟨place, -, hplace, hothers, -⟩ := pendingAt_pop? hs h
    obtain ⟨_, announced, taken, rest, -, hdue, -, -⟩ := pop?_eq_some hs h
    rw [due_of_some h, ih (coherent_pop? hs h)]
    by_cases hp : p = place
    · subst hp
      rw [hplace, List.filter_cons_of_neg (by simpa using hdue)]
    · rw [hothers p hp]

/-- The waiting operations of a place are those of the queue at this place. -/
theorem waiting_getElem (s : Schedule) {p : Nat} (hp : p < s.queues.length) :
    s.queues[p].waiting = s.waitingAt p := by
  simp [waitingAt, hp]

/-- What stays waiting in the queues of a complete schedule is what is due later. -/
theorem map_waiting_due {s : Schedule} (hs : s.Coherent) (hcomplete : s.Complete) (time : Int) :
    (s.due time).2.queues.map OpQueue.waiting =
      s.queues.map fun q => q.waiting.filter (time < ·.time) := by
  have hlength := length_queues_due hs time
  refine List.ext_getElem (by simpa using hlength) fun p hp hp' => ?_
  rw [List.length_map] at hp hp'
  rw [List.getElem_map, List.getElem_map, waiting_getElem _ hp, waiting_getElem _ hp',
    ← complete_due hs hcomplete time p, ← hcomplete p, pendingAt_due hs]

end Schedule

namespace Replay

/-- What a replay carries out while it is advanced to one time after the other. -/
def carriedOut (r : Replay) : List Int → List MappingOp
  | [] => []
  | time :: times => (r.schedule.due time).1 ++ (r.advance time).carriedOut times

/-- To advance twice is to advance once to the later time. -/
theorem advance_advance (r : Replay) (time time' : Int) :
    (r.advance time).advance time' = r.advance (max time time') := by
  simp only [advance, Schedule.due_max r.schedule time time', AddressSpace.applyAll_append]

/-- A run of calls leaves behind what a single call with the latest time does. -/
theorem foldl_advance (r : Replay) (time : Int) (times : List Int) :
    (time :: times).foldl advance r = r.advance (times.foldl max time) := by
  induction times generalizing time with
  | nil => rfl
  | cons next times ih =>
    rw [List.foldl_cons, List.foldl_cons, advance_advance, ← List.foldl_cons, ih]
    rfl

/-- A run of calls carries out what a single call with the latest time does. -/
theorem carriedOut_cons (r : Replay) (time : Int) (times : List Int) :
    r.carriedOut (time :: times) = (r.schedule.due (times.foldl max time)).1 := by
  induction times generalizing r time with
  | nil => simp [carriedOut]
  | cons next times ih =>
    have hmax : times.foldl max (max time next) = max time (times.foldl max next) :=
      List.foldl_assoc
    rw [carriedOut, ih, List.foldl_cons, hmax, Schedule.due_max]
    rfl

/-- The latest of some times is the one that a run of calls depends on. -/
theorem run_eq_of_max? {times : List Int} {last : Int} (hlast : times.max? = some last)
    (r : Replay) :
    r.carriedOut times = (r.schedule.due last).1 ∧ times.foldl advance r = r.advance last := by
  cases times with
  | nil => cases hlast
  | cons time times =>
    rw [List.max?_cons', Option.some.injEq] at hlast
    subst hlast
    exact ⟨r.carriedOut_cons time times, r.foldl_advance time times⟩

/-- Fresh queues announce all they hold, and what is pending is their concatenation. -/
theorem coherent_ofQueues {queues : List OpQueue} (hfresh : ∀ q ∈ queues, q.Fresh) :
    (ofQueues queues).schedule.Coherent ∧ (ofQueues queues).schedule.Complete ∧
      (ofQueues queues).schedule.pending = queues.flatMap OpQueue.history := by
  obtain ⟨hcoherent, hcomplete⟩ :=
    Schedule.coherent_ofQueues fun q hq => (hfresh q hq).spec.2
  refine ⟨hcoherent, hcomplete, ?_⟩
  rw [ofQueues, hcomplete.pending_eq, Schedule.queues_ofQueues]
  refine List.flatMap_congr fun q hq => ?_
  rw [(hfresh q hq).spec.1]
  simp [OpQueue.history]

/-- A replay of fresh queues has carried out, up to any time, the concatenation of the queues in
the stable order of the times. -/
theorem space_advance_ofQueues {queues : List OpQueue} (hfresh : ∀ q ∈ queues, q.Fresh)
    (time : Int) :
    ((ofQueues queues).advance time).space = AddressSpace.empty.applyAll
      ((stableOrder MappingOp.time (queues.flatMap OpQueue.history)).filter (·.time ≤ time)) := by
  obtain ⟨hcoherent, -, hpending⟩ := coherent_ofQueues hfresh
  rw [← hpending, ← Schedule.due_fst_eq hcoherent]
  rfl

/-- Merging is a stable sort. For fresh queues, registered before the first call, and any calls
whatever the order of their times: what is carried out over the whole run is the concatenation
of the queues in the stable order of the times, up to the latest time asked for. The table, the
count of unmatched removals and what stays in the queues follow from that time alone. -/
theorem run_is_stable_order (queues : List OpQueue) (hfresh : ∀ q ∈ queues, q.Fresh)
    (times : List Int) (last : Int) (hlast : times.max? = some last) :
    let ops := (stableOrder MappingOp.time (queues.flatMap OpQueue.history)).filter
      (·.time ≤ last)
    let final := times.foldl advance (ofQueues queues)
    (ofQueues queues).carriedOut times = ops ∧
      final.space = AddressSpace.empty.applyAll ops ∧
      final.schedule.queues.map OpQueue.waiting =
        queues.map (fun q => q.history.filter (last < ·.time)) ∧
      final.schedule.queues.map OpQueue.size =
        queues.map (fun q => (q.history.filter (last < ·.time)).length) ∧
      ∀ times' : List Int, times'.max? = some last →
        times'.foldl advance (ofQueues queues) = final := by
  intro ops final
  obtain ⟨hcoherent, hcomplete, hpending⟩ := coherent_ofQueues hfresh
  obtain ⟨hops, hfinal⟩ := run_eq_of_max? hlast (ofQueues queues)
  have hwaiting : final.schedule.queues.map OpQueue.waiting =
      queues.map (fun q => q.history.filter (last < ·.time)) := by
    change (times.foldl advance (ofQueues queues)).schedule.queues.map OpQueue.waiting = _
    rw [hfinal, advance, Schedule.map_waiting_due hcoherent hcomplete, ofQueues,
      Schedule.queues_ofQueues]
    refine List.map_congr_left fun q hq => ?_
    rw [(hfresh q hq).spec.1]
    simp [OpQueue.history]
  refine ⟨?_, ?_, hwaiting, ?_, fun times' htimes' => ?_⟩
  · rw [hops, Schedule.due_fst_eq hcoherent, hpending]
  · change (times.foldl advance (ofQueues queues)).space = _
    rw [hfinal, space_advance_ofQueues hfresh]
  · have hsizes := congrArg (List.map List.length) hwaiting
    rw [List.map_map, List.map_map] at hsizes
    exact hsizes
  · rw [(run_eq_of_max? htimes' _).2, ← hfinal]

/-- Two queues with equal times within and across them, an empty one between them, and calls that
repeat a time and go back to an earlier one. Of the three mappings that come in at one time the one
of the later queue evicts the others, and the removal before them finds nothing. -/
theorem run_is_stable_order_with_ties :
    let library : Library := ⟨"a", "a", none, none⟩
    let regular : OpQueue :=
      ⟨[], [⟨3, .add ⟨0, 10, 0, library⟩⟩, ⟨3, .add ⟨20, 30, 0, library⟩⟩, ⟨5, .remove 5⟩]⟩
    let generated : OpQueue :=
      ⟨[], [⟨1, .remove 0⟩, ⟨3, .add ⟨5, 25, 3, library⟩⟩, ⟨9, .remove 20⟩]⟩
    let queues := [regular, .empty, generated]
    let final := [3, 1, 3].foldl advance (ofQueues queues)
    (∀ q ∈ queues, q.Fresh) ∧ [3, 1, 3].max? = some (3 : Int) ∧
      (ofQueues queues).carriedOut [3, 1, 3] =
        [⟨1, .remove 0⟩, ⟨3, .add ⟨0, 10, 0, library⟩⟩, ⟨3, .add ⟨20, 30, 0, library⟩⟩,
          ⟨3, .add ⟨5, 25, 3, library⟩⟩] ∧
      final.space.table.entries = [⟨5, 25, 3, library⟩] ∧ final.space.unmatched = 1 ∧
      final.schedule.queues.map OpQueue.size = [1, 0, 1] ∧
      [2, 3].foldl advance (ofQueues queues) = final := by
  intro library regular generated queues final
  have hfresh : ∀ q ∈ queues, q.Fresh := by
    simp only [queues, List.forall_mem_cons]
    exact ⟨⟨regular.waiting, rfl⟩, ⟨[], rfl⟩, ⟨generated.waiting, rfl⟩, by simp⟩
  obtain ⟨hops, hspace, -, hsizes, hsame⟩ := run_is_stable_order queues hfresh [3, 1, 3] 3 rfl
  have horder : (stableOrder MappingOp.time (queues.flatMap OpQueue.history)).filter (·.time ≤ 3) =
      [⟨1, .remove 0⟩, ⟨3, .add ⟨0, 10, 0, library⟩⟩, ⟨3, .add ⟨20, 30, 0, library⟩⟩,
        ⟨3, .add ⟨5, 25, 3, library⟩⟩] := by
    simp [queues, regular, generated, OpQueue.history, OpQueue.empty, stableOrder, List.mergeSort,
      List.MergeSort.Internal.splitInTwo]
  rw [horder] at hops hspace
  refine ⟨hfresh, rfl, hops, ?_, ?_, ?_, hsame [2, 3] rfl⟩
  · change (List.foldl advance (ofQueues queues) [3, 1, 3]).space.table.entries = _
    rw [hspace]
    decide +kernel
  · change (List.foldl advance (ofQueues queues) [3, 1, 3]).space.unmatched = _
    rw [hspace]
    decide +kernel
  · change (List.foldl advance (ofQueues queues) [3, 1, 3]).schedule.queues.map OpQueue.size = _
    rw [hsizes]
    rfl

end Replay

end TraceProfile
