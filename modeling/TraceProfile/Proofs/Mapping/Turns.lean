import TraceProfile.Proofs.Mapping.Merge

/-!
# Turns of queues

An advance hands out, of every queue with an announcement, the longest prefix that is due. The
operations come in turns: by their times, and at equal times by the places of the queues. Queues
without an announcement give nothing.
-/

namespace TraceProfile

namespace Schedule

/-- The operations that have been taken out of the queue at a place, the oldest first. -/
def takenAt (s : Schedule) (place : Nat) : List MappingOp :=
  (s.queues[place]?.map (·.taken.reverse)).getD []

/-- What an advance to a time is to hand out, each operation with the place of its queue: of every
queue with an announcement the longest prefix that is due, all in the order of their times, and at
equal times in the order of the places. -/
def turns (s : Schedule) (time : Int) : List (Nat × MappingOp) :=
  stableOrder (·.2.time) ((List.range s.queues.length).flatMap fun place =>
    ((s.pendingAt place).takeWhile (·.time ≤ time)).map (place, ·))

/-- The pending operations of a queue are in ascending order of their times. -/
theorem ascending_pendingAt {s : Schedule} (hs : s.Coherent) (place : Nat) :
    Ascending MappingOp.time (s.pendingAt place) := by
  unfold pendingAt waitingAt
  split
  · cases hq : s.queues[place]? with
    | none => exact .nil
    | some q => exact (List.pairwise_append.mp (hs.ordered q (List.mem_of_getElem? hq))).2.1
  · exact .nil

/-- What is due is handed out in the turns of the queues. -/
theorem due_fst_eq_turns {s : Schedule} (hs : s.Coherent) (time : Int) :
    (s.due time).1 = (s.turns time).map (·.2) := by
  rw [due_fst_eq hs, filter_stableOrder, turns, @map_stableOrder _ MappingOp.time]
  congr 1
  rw [pending, List.filter_flatMap, List.map_flatMap]
  refine List.flatMap_congr fun place _ => ?_
  rw [List.map_map, (ascending_pendingAt hs place).takeWhile_eq_filter]
  exact (List.map_id _).symm

/-- The turns go by time and then by the place of the queue. -/
theorem pairwise_turns (s : Schedule) (time : Int) :
    (s.turns time).Pairwise fun a b =>
      a.2.time < b.2.time ∨ a.2.time = b.2.time ∧ a.1 ≤ b.1 := by
  refine pairwise_stableOrder ?_
  rw [List.pairwise_flatMap]
  refine ⟨fun place _ => ?_, ?_⟩
  · exact List.pairwise_map.mpr (List.pairwise_of_forall fun _ _ => Nat.le_refl _)
  · refine List.pairwise_lt_range.imp fun hlt a ha b hb => ?_
    obtain ⟨_, _, rfl⟩ := List.mem_map.mp ha
    obtain ⟨_, _, rfl⟩ := List.mem_map.mp hb
    exact Nat.le_of_lt hlt

/-- Nothing waits at a place without a queue. -/
theorem waitingAt_of_length_le {s : Schedule} {place : Nat} (h : s.queues.length ≤ place) :
    s.waitingAt place = [] := by
  rw [waitingAt, List.getElem?_eq_none h]
  rfl

/-- A share of a list that is put together from shares. -/
private theorem filter_shares {β : Type} (shares : Nat → List β) (n place : Nat) :
    (((List.range n).flatMap fun i => (shares i).map (i, ·)).filter (·.1 = place)).map (·.2) =
      if place < n then shares place else [] := by
  induction n with
  | zero => rfl
  | succ n ih =>
    rw [List.range_succ, List.flatMap_append, List.filter_append, List.map_append, ih]
    by_cases hn : n = place
    · subst hn
      simp [List.filter_map, Function.comp_def]
    · have hiff : place < n + 1 ↔ place < n := by omega
      simp [List.filter_map, Function.comp_def, hn, hiff]

/-- The turns of a queue are what is pending in it up to the time. -/
theorem filter_turns {s : Schedule} (hs : s.Coherent) (time : Int) (place : Nat) :
    ((s.turns time).filter (·.1 = place)).map (·.2) =
      (s.pendingAt place).takeWhile (·.time ≤ time) := by
  rw [turns, filter_stableOrder, @map_stableOrder _ MappingOp.time, filter_shares]
  split
  · refine Ascending.stableOrder_eq ?_
    exact (ascending_pendingAt hs place).sublist (List.takeWhile_sublist _)
  · rename_i hplace
    rw [pendingAt, waitingAt_of_length_le (Nat.not_lt.mp hplace), ite_self, stableOrder_nil]
    rfl

/-- An announcement leaves the taken operations alone. -/
@[simp] theorem takenAt_announce (s : Schedule) (place p : Nat) :
    (s.announce place).takenAt p = s.takenAt p := by
  rw [takenAt, queues_announce, takenAt]

/-- The operation that is handed out comes behind those that were taken from its queue before. The
other queues stay as they were, and so do their announcements. -/
theorem takenAt_pop? {s s' : Schedule} (hs : s.Coherent) {time : Int} {op : MappingOp}
    (h : s.pop? time = some (op, s')) :
    ∃ place, s.pendingAt place = op :: s'.pendingAt place ∧
      s'.takenAt place = s.takenAt place ++ [op] ∧ s.waitingAt place = op :: s'.waitingAt place ∧
      (s'.announces place ↔ s'.waitingAt place ≠ []) ∧
      ∀ p ≠ place, s'.pendingAt p = s.pendingAt p ∧ s'.takenAt p = s.takenAt p ∧
        s'.waitingAt p = s.waitingAt p ∧ s'.announces p = s.announces p := by
  obtain ⟨place, announced, taken, rest, hannounced, -, hqueue, rfl⟩ := pop?_eq_some hs h
  obtain ⟨hlt, hget⟩ := List.getElem?_eq_some_iff.mp hqueue
  have hothers := announced_tail hs hannounced
  have hnone : announces ⟨s.queues.set place ⟨op :: taken, rest⟩, announced⟩ place = false := by
    rw [announces, List.any_eq_false]
    intro a ha
    simpa using hothers a ha
  have hannounces : s.announces place = true := by simp [announces, hannounced]
  refine ⟨place, ?_, ?_, ?_, ?_, fun p hp => ⟨?_, ?_, ?_, ?_⟩⟩
  · rw [pendingAt_announce, if_pos rfl, pendingAt, if_pos hannounces]
    simp [waitingAt, hlt, hget]
  · simp [takenAt, hlt, hget]
  · simp [waitingAt, hlt, hget]
  · rw [announces_announce, hnone, waitingAt_announce]
    simp
  · rw [pendingAt_announce, if_neg hp, pendingAt_set hannounced hp]
  · rw [takenAt_announce, takenAt, List.getElem?_set_ne hp.symm, takenAt]
  · rw [waitingAt_announce, waitingAt_set hp]
  · rw [Bool.eq_iff_iff, announces_announce, or_iff_left fun hand => hp hand.1]
    simp [announces, hannounced, hp.symm]

/-- When nothing is handed out, nothing that is pending is due. -/
theorem takeWhile_of_pop?_eq_none {s : Schedule} (hs : s.Coherent) {time : Int}
    (h : s.pop? time = none) (p : Nat) : (s.pendingAt p).takeWhile (·.time ≤ time) = [] := by
  rw [(ascending_pendingAt hs p).takeWhile_eq_filter]
  refine List.filter_eq_nil_iff.mpr fun op hop => ?_
  have := lt_time_of_pop?_eq_none hs h hop
  simp only [decide_eq_true_eq]
  omega

/-- An advance takes from every queue what is due of the operations that were pending, and the
others stay in it. -/
theorem takenAt_due {s : Schedule} (hs : s.Coherent) (time : Int) (p : Nat) :
    (s.due time).2.takenAt p =
        s.takenAt p ++ (s.pendingAt p).takeWhile (·.time ≤ time) ∧
      s.waitingAt p =
        (s.pendingAt p).takeWhile (·.time ≤ time) ++ (s.due time).2.waitingAt p := by
  induction s using due.induct time with
  | case1 s h =>
    have hlater := takeWhile_of_pop?_eq_none hs h p
    rw [due_of_none h, hlater]
    exact ⟨(List.append_nil _).symm, rfl⟩
  | case2 s op s' h _ _ _ ih =>
    obtain ⟨place, hpending, htaken, hwaiting, -, hothers⟩ := takenAt_pop? hs h
    obtain ⟨-, -, -, -, -, hdue, -, -⟩ := pop?_eq_some hs h
    obtain ⟨ihtaken, ihwaiting⟩ := ih (coherent_pop? hs h)
    rw [due_of_some h]
    by_cases hp : p = place
    · subst hp
      rw [hpending, List.takeWhile_cons_of_pos (by simpa using hdue)]
      refine ⟨?_, ?_⟩
      · rw [ihtaken, htaken, List.append_assoc]
        rfl
      · rw [hwaiting, ihwaiting]
        rfl
    · obtain ⟨hpending', htaken', hwaiting', -⟩ := hothers p hp
      rw [← hpending', ← htaken', ← hwaiting']
      exact ⟨ihtaken, ihwaiting⟩

/-- After an advance a queue has an announcement if and only if something waits in it, or, if
nothing was taken from it, if it had one before. -/
theorem announces_due {s : Schedule} (hs : s.Coherent) (time : Int) (p : Nat) :
    (s.due time).2.announces p ↔
      if (s.pendingAt p).takeWhile (·.time ≤ time) = [] then (s.announces p : Prop)
      else (s.due time).2.waitingAt p ≠ [] := by
  induction s using due.induct time with
  | case1 s h =>
    have hlater := takeWhile_of_pop?_eq_none hs h p
    rw [due_of_none h, if_pos hlater]
  | case2 s op s' h _ _ _ ih =>
    have hs' := coherent_pop? hs h
    obtain ⟨place, hpending, -, -, hannounces, hothers⟩ := takenAt_pop? hs h
    obtain ⟨-, -, -, -, -, hdue, -, -⟩ := pop?_eq_some hs h
    have ih := ih hs'
    rw [due_of_some h]
    by_cases hp : p = place
    · subst hp
      rw [hpending, List.takeWhile_cons_of_pos (by simpa using hdue), if_neg (List.cons_ne_nil _ _),
        ih]
      split
      · rename_i hnone
        have hwaiting := (takenAt_due hs' time p).2
        rw [hnone, List.nil_append] at hwaiting
        rw [hannounces, hwaiting]
      · rfl
    · obtain ⟨hpending', -, -, hannounces'⟩ := hothers p hp
      rw [← hpending', ← hannounces']
      exact ih

/-- An announcement states the time of an operation that is pending. -/
theorem exists_pending_of_announced {s : Schedule} (hs : s.Coherent) {a : Announcement}
    (ha : a ∈ s.announced) : ∃ op ∈ s.pendingAt a.2, op.time = a.1 := by
  obtain ⟨taken, op, rest, hqueue, hop⟩ := queue_of_announced hs ha
  refine ⟨op, ?_, hop⟩
  rw [pendingAt, if_pos (announces_iff.mpr ⟨a.1, ha⟩), waitingAt, hqueue]
  exact List.mem_cons_self

/-- After an advance nothing that is announced is due: the hand-out ends for want of announcements,
and for no other reason. -/
theorem lt_of_mem_announced_due {s : Schedule} (hs : s.Coherent) (time : Int) {a : Announcement}
    (ha : a ∈ (s.due time).2.announced) : time < a.1 := by
  obtain ⟨op, hmem, hop⟩ := exists_pending_of_announced (coherent_due hs time) ha
  rw [pendingAt_due hs] at hmem
  have hlater := (List.mem_filter.mp hmem).2
  rw [← hop]
  simpa using hlater

/-- Every operation that is handed out is one less to wait. -/
theorem length_due (s : Schedule) (time : Int) :
    (s.due time).1.length + (s.due time).2.waitingCount = s.waitingCount := by
  induction s using due.induct time with
  | case1 s h => rw [due_of_none h, List.length_nil, Nat.zero_add]
  | case2 s op s' h _ _ _ ih =>
    rw [due_of_some h, waitingCount_of_pop? h, ← ih]
    exact Nat.add_right_comm _ 1 _

/-- What an advance hands out: the turns of the queues up to its time, and nothing else. -/
structure HandsOut (s : Schedule) (time : Int) : Prop where
  /-- The operations. -/
  ops : (s.due time).1 = (s.turns time).map (·.2)
  /-- They go by time, and at equal times by the place of the queue. -/
  order : (s.turns time).Pairwise fun a b =>
    a.2.time < b.2.time ∨ a.2.time = b.2.time ∧ a.1 ≤ b.1
  /-- A queue with an announcement gives the longest prefix that is due, any other nothing. -/
  share : ∀ place, ((s.turns time).filter (·.1 = place)).map (·.2) =
    if s.announces place then (s.waitingAt place).takeWhile (·.time ≤ time) else []
  /-- The others keep waiting in their queues. -/
  rest : ∀ place, s.waitingAt place =
    ((s.turns time).filter (·.1 = place)).map (·.2) ++ (s.due time).2.waitingAt place
  /-- An announcement that is due can be answered. -/
  answered : (∃ a ∈ s.announced, a.1 ≤ time) → (s.pop? time).isSome
  /-- At the end no announcement is due. -/
  done : ∀ a ∈ (s.due time).2.announced, time < a.1
  /-- There are as many rounds as operations that wait no more. -/
  rounds : (s.due time).1.length + (s.due time).2.waitingCount = s.waitingCount

/-- A coherent schedule hands out the turns up to a time. -/
theorem handsOut {s : Schedule} (hs : s.Coherent) (time : Int) : s.HandsOut time where
  ops := due_fst_eq_turns hs time
  order := pairwise_turns s time
  share place := by
    rw [filter_turns hs, pendingAt]
    split <;> rfl
  rest place := by
    rw [filter_turns hs]
    exact (takenAt_due hs time place).2
  answered := by
    rintro ⟨a, ha, hdue⟩
    cases hpop : s.pop? time with
    | some next => rfl
    | none =>
      obtain ⟨op, hmem, hop⟩ := exists_pending_of_announced hs ha
      have := lt_time_of_pop?_eq_none hs hpop hmem
      omega
  done _ ha := lt_of_mem_announced_due hs time ha
  rounds := length_due s time

end Schedule

end TraceProfile
