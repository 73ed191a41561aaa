import Mathlib.Data.List.Basic
import TraceProfile.Mapping.Schedule
import TraceProfile.Proofs.StableOrder

/-!
# Announced operations

A schedule holds the same facts three times: in its queues, in how far these have been read, and
in its announcements. It is coherent when they agree, and then handing out an operation takes
the first of the least ones from what is pending and leaves all the others in their places.
-/

namespace TraceProfile

/-- An announcement comes due strictly before another: earlier, or at the same time from a queue
that was registered before. -/
def Announcement.Precedes (a b : Announcement) : Prop := a.1 < b.1 ∨ a.1 = b.1 ∧ a.2 < b.2

namespace OpQueue

/-- A queue as it is built from a list of operations, with none of them taken out. -/
def Fresh (q : OpQueue) : Prop := ∃ ops, ofList ops = .ok q

/-- A queue that accepts an operation puts it behind those that wait. -/
theorem push_eq_ok {q q' : OpQueue} {op : MappingOp} (h : q.push op = .ok q') :
    q' = { q with waiting := q.waiting ++ [op] } ∧
      ∀ previous, q.latest? = some previous → previous.time ≤ op.time := by
  unfold push at h
  split at h
  · rename_i previous hlatest
    split at h
    · cases h
    · cases h
      refine ⟨rfl, fun other hother => ?_⟩
      obtain rfl := Option.some.inj (hlatest.symm.trans hother)
      omega
  · rename_i hlatest
    cases h
    refine ⟨rfl, fun other hother => ?_⟩
    rw [hlatest] at hother
    cases hother

/-- The operation pushed last ends the history of a queue. -/
theorem getLast?_history (q : OpQueue) : q.history.getLast? = q.latest? := by
  rw [history, latest?, List.getLast?_append, List.getLast?_reverse]

/-- The times of a queue keep ascending when it accepts an operation. -/
theorem ascending_history_push {q q' : OpQueue} {op : MappingOp}
    (hq : Ascending MappingOp.time q.history) (h : q.push op = .ok q') :
    Ascending MappingOp.time q'.history := by
  rw [history_of_push h]
  refine hq.concat fun previous hprevious => ?_
  rw [getLast?_history] at hprevious
  exact (push_eq_ok h).2 previous hprevious

private theorem foldlM_push_eq_ok {ops : List MappingOp} {q q' : OpQueue}
    (hq : Ascending MappingOp.time q.history) (h : ops.foldlM push q = .ok q') :
    q' = { q with waiting := q.waiting ++ ops } ∧ Ascending MappingOp.time q'.history := by
  induction ops generalizing q with
  | nil =>
    cases h
    exact ⟨by simp, hq⟩
  | cons op ops ih =>
    rw [List.foldlM_cons] at h
    cases hpush : q.push op with
    | error f =>
      rw [hpush] at h
      cases h
    | ok next =>
      rw [hpush] at h
      obtain ⟨heq, hascending⟩ := ih (ascending_history_push hq hpush) h
      refine ⟨?_, hascending⟩
      rw [heq, (push_eq_ok hpush).1]
      simp

private theorem foldlM_push_of_ascending {ops : List MappingOp} {q : OpQueue}
    (h : Ascending MappingOp.time (q.history ++ ops)) :
    ops.foldlM push q = .ok { q with waiting := q.waiting ++ ops } := by
  induction ops generalizing q with
  | nil =>
    rw [List.append_nil]
    rfl
  | cons op ops ih =>
    have hpush : q.push op = .ok { q with waiting := q.waiting ++ [op] } := by
      unfold push
      split
      · rename_i previous hlatest
        rw [← getLast?_history] at hlatest
        have hle := (List.pairwise_append.mp h).2.2 previous (List.mem_of_getLast? hlatest) op
          List.mem_cons_self
        rw [if_neg (by omega)]
      · rfl
    rw [← List.singleton_append, ← List.append_assoc, ← history_of_push hpush] at h
    rw [List.foldlM_cons, hpush]
    change ops.foldlM push _ = _
    rw [ih h, List.append_assoc, List.singleton_append]

/-- A queue is built from operations whose times ascend, and from no others. -/
theorem ofList_eq_ok_iff {ops : List MappingOp} {q : OpQueue} :
    ofList ops = .ok q ↔ Ascending MappingOp.time ops ∧ q = ⟨[], ops⟩ := by
  constructor
  · intro h
    obtain ⟨rfl, hascending⟩ := foldlM_push_eq_ok (q := empty) List.Pairwise.nil h
    exact ⟨hascending, rfl⟩
  · rintro ⟨hascending, rfl⟩
    exact foldlM_push_of_ascending (q := empty) hascending

/-- A fresh queue has its whole history before it, and the times of the history ascend. -/
theorem Fresh.spec {q : OpQueue} (h : q.Fresh) :
    q = ⟨[], q.history⟩ ∧ Ascending MappingOp.time q.history := by
  obtain ⟨ops, hops⟩ := h
  obtain ⟨hascending, rfl⟩ := ofList_eq_ok_iff.mp hops
  exact ⟨rfl, hascending⟩

end OpQueue

namespace Schedule

/-- The time of the next operation of the queue at a place. -/
def nextAt (s : Schedule) (place : Nat) : Option Int := s.queues[place]?.bind OpQueue.nextTime?

/-- The queue at a place has an announcement. -/
def announces (s : Schedule) (place : Nat) : Bool := s.announced.any (·.2 == place)

/-- The operations that wait in the queue at a place. -/
def waitingAt (s : Schedule) (place : Nat) : List MappingOp :=
  (s.queues[place]?.map OpQueue.waiting).getD []

/-- The operations of the queue at a place that will be handed out in their turn: those that
wait, if the first of them is announced. -/
def pendingAt (s : Schedule) (place : Nat) : List MappingOp :=
  if s.announces place then s.waitingAt place else []

/-- All operations that will be handed out, queue by queue. -/
def pending (s : Schedule) : List MappingOp :=
  (List.range s.queues.length).flatMap s.pendingAt

/-- The announcements stand in the order in which they come due, each states the time of the
next operation of its queue, and the operations of every queue are in the order of their times. -/
structure Coherent (s : Schedule) : Prop where
  /-- An announcement precedes those behind it. -/
  sorted : s.announced.Pairwise Announcement.Precedes
  /-- An announcement is up to date. -/
  current : ∀ a ∈ s.announced, s.nextAt a.2 = some a.1
  /-- Times ascend in every queue. -/
  ordered : ∀ q ∈ s.queues, Ascending MappingOp.time q.history

/-- Every queue with an operation that waits is announced. -/
def Complete (s : Schedule) : Prop := ∀ place, s.pendingAt place = s.waitingAt place

/-- A queue is announced if an announcement has its place. -/
theorem announces_iff {s : Schedule} {place : Nat} :
    s.announces place ↔ ∃ time, (time, place) ∈ s.announced := by
  simp [announces]

/-- An announcement that is put in its place is there with all the others. -/
theorem mem_insertAnnouncement {a b : Announcement} {l : List Announcement} :
    b ∈ insertAnnouncement a l ↔ b = a ∨ b ∈ l := by
  induction l with
  | nil => simp [insertAnnouncement]
  | cons c l ih =>
    unfold insertAnnouncement
    split
    · simp
    · simp only [List.mem_cons, ih]
      exact or_left_comm

/-- The order of announcements is kept by one from a queue that has none yet. -/
theorem pairwise_insertAnnouncement {a : Announcement} {l : List Announcement}
    (hl : l.Pairwise Announcement.Precedes) (hnew : ∀ b ∈ l, b.2 ≠ a.2) :
    (insertAnnouncement a l).Pairwise Announcement.Precedes := by
  induction l with
  | nil => exact List.pairwise_singleton _ _
  | cons b l ih =>
    obtain ⟨hb, hl'⟩ := List.pairwise_cons.mp hl
    have hplace : b.2 ≠ a.2 := hnew b (by simp)
    unfold insertAnnouncement
    split <;> rename_i hbefore <;>
      simp only [Announcement.before, Bool.or_eq_true, Bool.and_eq_true, decide_eq_true_eq,
        beq_iff_eq] at hbefore
    · refine List.pairwise_cons.mpr ⟨fun c hc => ?_, hl⟩
      have hab : a.Precedes b := by
        unfold Announcement.Precedes
        omega
      rcases List.mem_cons.mp hc with rfl | hc
      · exact hab
      · have hbc := hb c hc
        unfold Announcement.Precedes at hab hbc ⊢
        omega
    · refine List.pairwise_cons.mpr ⟨fun c hc => ?_, ih hl' fun c hc => hnew c (by simp [hc])⟩
      rcases mem_insertAnnouncement.mp hc with rfl | hc
      · unfold Announcement.Precedes
        omega
      · exact hb c hc

/-- To announce the next operation of a queue without an announcement keeps a schedule
coherent. -/
theorem coherent_announce {s : Schedule} (hs : s.Coherent) {place : Nat}
    (hplace : s.announces place = false) : (s.announce place).Coherent := by
  have hnew : ∀ b ∈ s.announced, b.2 ≠ place := by
    simpa [announces] using hplace
  unfold announce
  split
  · exact hs
  · rename_i time hnext
    refine ⟨pairwise_insertAnnouncement hs.sorted hnew, fun a ha => ?_, hs.ordered⟩
    rcases mem_insertAnnouncement.mp ha with rfl | ha
    · exact hnext
    · exact hs.current a ha

/-- An announcement stands for a queue with an operation that waits. -/
theorem queue_of_announced {s : Schedule} (hs : s.Coherent) {a : Announcement}
    (ha : a ∈ s.announced) :
    ∃ taken op rest, s.queues[a.2]? = some ⟨taken, op :: rest⟩ ∧ op.time = a.1 := by
  obtain ⟨⟨taken, waiting⟩, hq, hnext⟩ := Option.bind_eq_some_iff.mp (hs.current a ha)
  cases waiting with
  | nil => cases hnext
  | cons op rest => exact ⟨taken, op, rest, hq, Option.some.inj hnext⟩

/-- A schedule without queues is coherent. -/
theorem coherent_empty : empty.Coherent := ⟨.nil, by simp [empty], by simp [empty]⟩

/-- A queue whose times ascend can be registered. -/
theorem coherent_register {s : Schedule} (hs : s.Coherent) {q : OpQueue}
    (hq : Ascending MappingOp.time q.history) : (s.register q).Coherent := by
  have hlt : ∀ a ∈ s.announced, a.2 < s.queues.length := fun a ha => by
    obtain ⟨taken, op, rest, hqueue, -⟩ := queue_of_announced hs ha
    exact (List.getElem?_eq_some_iff.mp hqueue).1
  apply coherent_announce
  · refine ⟨hs.sorted, fun a ha => ?_, fun other hother => ?_⟩
    · rw [nextAt, List.getElem?_append_left (hlt a ha)]
      exact hs.current a ha
    · rcases List.mem_append.mp hother with hother | hother
      · exact hs.ordered other hother
      · rwa [List.mem_singleton.mp hother]
  · rw [announces, List.any_eq_false]
    intro a ha
    have := hlt a ha
    simp only [beq_iff_eq]
    omega

/-- The first announcement is the only one of its queue. -/
theorem announced_tail {s : Schedule} (hs : s.Coherent) {a : Announcement}
    {rest : List Announcement} (ha : s.announced = a :: rest) : ∀ b ∈ rest, b.2 ≠ a.2 := by
  intro b hb hplace
  have hcurrent := hs.current b (by simp [ha, hb])
  rw [hplace, hs.current a (by simp [ha])] at hcurrent
  have hsorted := hs.sorted
  rw [ha] at hsorted
  have hprecedes := (List.pairwise_cons.mp hsorted).1 b hb
  have := Option.some.inj hcurrent
  unfold Announcement.Precedes at hprecedes
  omega

/-- What happens when an operation is handed out: it is the one announced first, it is taken out
of its queue, and the next one of that queue is announced. -/
theorem pop?_eq_some {s s' : Schedule} (hs : s.Coherent) {time : Int} {op : MappingOp}
    (h : s.pop? time = some (op, s')) :
    ∃ place announced taken rest, s.announced = (op.time, place) :: announced ∧
      op.time ≤ time ∧ s.queues[place]? = some ⟨taken, op :: rest⟩ ∧
      s' = announce ⟨s.queues.set place ⟨op :: taken, rest⟩, announced⟩ place := by
  unfold pop? at h
  split at h
  · cases h
  · rename_i due place announced hannounced
    split at h
    · obtain ⟨taken, next, rest, hqueue, hdue⟩ :=
        queue_of_announced hs (a := (due, place)) (by simp [hannounced])
      simp only at hqueue hdue
      simp only [hqueue, Option.bind_some, OpQueue.pop?, Option.some.injEq, Prod.mk.injEq] at h
      obtain ⟨rfl, rfl⟩ := h
      exact ⟨place, announced, taken, rest, by rw [hannounced, hdue], by omega, hqueue, rfl⟩
    · cases h

/-- Handing out an operation keeps a schedule coherent. -/
theorem coherent_pop? {s s' : Schedule} (hs : s.Coherent) {time : Int} {op : MappingOp}
    (h : s.pop? time = some (op, s')) : s'.Coherent := by
  obtain ⟨place, announced, taken, rest, hannounced, -, hqueue, rfl⟩ := pop?_eq_some hs h
  have hothers := announced_tail hs hannounced
  apply coherent_announce
  · refine ⟨?_, fun a ha => ?_, fun q hq => ?_⟩
    · exact (List.pairwise_cons.mp (hannounced ▸ hs.sorted)).2
    · have hcurrent := hs.current a (by simp [hannounced, ha])
      rwa [nextAt, List.getElem?_set_ne (hothers a ha).symm]
    · rcases List.mem_or_eq_of_mem_set hq with hq | rfl
      · exact hs.ordered q hq
      · have hordered := hs.ordered _ (List.mem_of_getElem? hqueue)
        simpa [OpQueue.history] using hordered
  · rw [announces, List.any_eq_false]
    intro a ha
    simpa using hothers a ha

/-- An announcement leaves the waiting operations alone. -/
@[simp] theorem waitingAt_announce (s : Schedule) (place p : Nat) :
    (s.announce place).waitingAt p = s.waitingAt p := by
  rw [waitingAt, queues_announce, waitingAt]

/-- A queue has no next operation if and only if none is waiting. -/
theorem nextAt_eq_none_iff {s : Schedule} {place : Nat} :
    s.nextAt place = none ↔ s.waitingAt place = [] := by
  unfold nextAt waitingAt
  cases s.queues[place]? <;> simp [OpQueue.nextTime?]

/-- After an announcement, a queue is announced if it was before, or if it is the announced one and
an operation waits in it. -/
theorem announces_announce {s : Schedule} {place p : Nat} :
    (s.announce place).announces p ↔
      s.announces p ∨ p = place ∧ s.waitingAt place ≠ [] := by
  unfold announce
  split <;> rename_i hnext
  · simp [nextAt_eq_none_iff.mp hnext]
  · have hwaits : s.waitingAt place ≠ [] := by
      rw [ne_eq, ← nextAt_eq_none_iff, nextAt, hnext]
      simp
    simp only [announces, List.any_eq_true, mem_insertAnnouncement, beq_iff_eq, hwaits, ne_eq,
      not_false_eq_true, and_true]
    constructor
    · rintro ⟨a, rfl | ha, hp⟩
      · exact .inr hp.symm
      · exact .inl ⟨a, ha, hp⟩
    · rintro (⟨a, ha, hp⟩ | hp)
      · exact ⟨a, .inr ha, hp⟩
      · exact ⟨_, .inl rfl, hp.symm⟩

/-- Once the next operation of a queue is announced, all that wait in it are pending, and the
other queues stay as they were. -/
theorem pendingAt_announce (s : Schedule) (place p : Nat) :
    (s.announce place).pendingAt p =
      if p = place then s.waitingAt place else s.pendingAt p := by
  rw [pendingAt, waitingAt_announce]
  by_cases hp : p = place
  · subst hp
    rw [if_pos rfl]
    by_cases hwaits : s.waitingAt p = []
    · rw [hwaits, ite_self]
    · rw [if_pos (announces_announce.mpr (.inr ⟨rfl, hwaits⟩))]
  · have hsame : (s.announce place).announces p ↔ s.announces p := by
      rw [announces_announce, or_iff_left (fun h => hp h.1)]
    simp only [if_neg hp, hsame, pendingAt]

/-- No pending operation is due before the announcement of its queue says. -/
theorem announced_of_mem_pendingAt {s : Schedule} (hs : s.Coherent) {place : Nat}
    {op : MappingOp} (hop : op ∈ s.pendingAt place) :
    ∃ due, (due, place) ∈ s.announced ∧ due ≤ op.time := by
  unfold pendingAt at hop
  split at hop
  · rename_i hannounces
    obtain ⟨due, hdue⟩ := announces_iff.mp hannounces
    obtain ⟨taken, first, rest, hqueue, hfirst⟩ := queue_of_announced hs hdue
    have hwaiting : Ascending MappingOp.time (first :: rest) :=
      (List.pairwise_append.mp (hs.ordered _ (List.mem_of_getElem? hqueue))).2.1
    refine ⟨due, hdue, ?_⟩
    rw [waitingAt, hqueue, Option.map_some, Option.getD_some] at hop
    rcases List.mem_cons.mp hop with rfl | hop
    · exact Int.le_of_eq hfirst.symm
    · have := (List.pairwise_cons.mp hwaiting).1 op hop
      omega
  · cases hop

/-- The operation announced first is not due after any that is pending, and is due before those
of queues that were registered before its own. -/
theorem first_announced_le {s : Schedule} (hs : s.Coherent) {due : Int} {place p : Nat}
    {announced : List Announcement} (hannounced : s.announced = (due, place) :: announced)
    {op : MappingOp} (hop : op ∈ s.pendingAt p) :
    due ≤ op.time ∧ (p < place → due < op.time) := by
  obtain ⟨other, hother, hle⟩ := announced_of_mem_pendingAt hs hop
  have hsorted := hs.sorted
  rw [hannounced] at hother hsorted
  rcases List.mem_cons.mp hother with heq | hother
  · obtain ⟨rfl, rfl⟩ := Prod.mk.inj heq
    exact ⟨hle, fun h => by omega⟩
  · have hprecedes := (List.pairwise_cons.mp hsorted).1 _ hother
    unfold Announcement.Precedes at hprecedes
    simp only at hprecedes
    omega

/-- A change to one queue leaves the waiting operations of the others alone. -/
theorem waitingAt_set {s : Schedule} {place p : Nat} (hp : p ≠ place) (q : OpQueue)
    (announced : List Announcement) :
    waitingAt ⟨s.queues.set place q, announced⟩ p = s.waitingAt p := by
  rw [waitingAt, List.getElem?_set_ne hp.symm, waitingAt]

/-- A queue is not touched by what happens to the one that is announced first. -/
theorem pendingAt_set {s : Schedule} {due : Int} {place p : Nat} {announced : List Announcement}
    (hannounced : s.announced = (due, place) :: announced) (hp : p ≠ place) (q : OpQueue) :
    pendingAt ⟨s.queues.set place q, announced⟩ p = s.pendingAt p := by
  have hannounces : announces ⟨s.queues.set place q, announced⟩ p = s.announces p := by
    simp only [announces, hannounced, List.any_cons, beq_false_of_ne hp.symm, Bool.false_or]
  rw [pendingAt, waitingAt_set hp, hannounces, pendingAt]

/-- The operation that is handed out is the first that is pending in its queue, and is taken
from there only. -/
theorem pendingAt_pop? {s s' : Schedule} (hs : s.Coherent) {time : Int} {op : MappingOp}
    (h : s.pop? time = some (op, s')) :
    ∃ place < s.queues.length, s.pendingAt place = op :: s'.pendingAt place ∧
      (∀ p ≠ place, s'.pendingAt p = s.pendingAt p) ∧
      ∀ p, ∀ b ∈ s.pendingAt p, op.time ≤ b.time ∧ (p < place → op.time < b.time) := by
  obtain ⟨place, announced, taken, rest, hannounced, -, hqueue, rfl⟩ := pop?_eq_some hs h
  obtain ⟨hlt, hget⟩ := List.getElem?_eq_some_iff.mp hqueue
  refine ⟨place, hlt, ?_, fun p hp => ?_, fun p b hb => first_announced_le hs hannounced hb⟩
  · have hannounces : s.announces place = true := by simp [announces, hannounced]
    rw [pendingAt_announce, if_pos rfl, pendingAt, if_pos hannounces]
    simp [waitingAt, hlt, hget]
  · rw [pendingAt_announce, if_neg hp, pendingAt_set hannounced hp]

/-- When nothing is handed out, all that is pending is due later. -/
theorem lt_time_of_pop?_eq_none {s : Schedule} (hs : s.Coherent) {time : Int}
    (h : s.pop? time = none) {place : Nat} {op : MappingOp} (hop : op ∈ s.pendingAt place) :
    time < op.time := by
  cases hannounced : s.announced with
  | nil =>
    obtain ⟨due, hdue, -⟩ := announced_of_mem_pendingAt hs hop
    rw [hannounced] at hdue
    cases hdue
  | cons a announced =>
    obtain ⟨taken, first, rest, hqueue, -⟩ := queue_of_announced hs (a := a) (by simp [hannounced])
    have hle := (first_announced_le hs hannounced hop).1
    by_contra hdue
    simp only [pop?, hannounced, hqueue, Option.bind_some, OpQueue.pop?,
      if_pos (show a.1 ≤ time by omega)] at h
    cases h

/-- No queue comes or goes when an operation is handed out. -/
theorem length_queues_pop? {s s' : Schedule} (hs : s.Coherent) {time : Int} {op : MappingOp}
    (h : s.pop? time = some (op, s')) : s'.queues.length = s.queues.length := by
  obtain ⟨place, announced, taken, rest, -, -, -, rfl⟩ := pop?_eq_some hs h
  simp

/-- Handing out an operation takes it from among those that are pending: in front of it stand
only later ones, and behind it none that is earlier. -/
theorem pending_pop? {s s' : Schedule} (hs : s.Coherent) {time : Int} {op : MappingOp}
    (h : s.pop? time = some (op, s')) :
    ∃ before after, s.pending = before ++ op :: after ∧ s'.pending = before ++ after ∧
      (∀ b ∈ before, op.time < b.time) ∧ ∀ b ∈ after, op.time ≤ b.time := by
  obtain ⟨place, hlt, hplace, hothers, hfirst⟩ := pendingAt_pop? hs h
  obtain ⟨low, high, hrange⟩ := List.append_of_mem (List.mem_range.mpr hlt)
  have hsorted := List.pairwise_lt_range (n := s.queues.length)
  rw [hrange] at hsorted
  obtain ⟨-, hbehind, hbetween⟩ := List.pairwise_append.mp hsorted
  have hlow : ∀ p ∈ low, p < place := fun p hp => hbetween p hp place (by simp)
  have hhigh : ∀ p ∈ high, place < p := (List.pairwise_cons.mp hbehind).1
  have hlowsame : low.flatMap s'.pendingAt = low.flatMap s.pendingAt :=
    List.flatMap_congr fun p hp => hothers p (by have := hlow p hp; omega)
  have hhighsame : high.flatMap s'.pendingAt = high.flatMap s.pendingAt :=
    List.flatMap_congr fun p hp => hothers p (by have := hhigh p hp; omega)
  refine ⟨low.flatMap s.pendingAt, s'.pendingAt place ++ high.flatMap s.pendingAt, ?_, ?_, ?_, ?_⟩
  · simp [pending, hrange, hplace]
  · simp [pending, length_queues_pop? hs h, hrange, hlowsame, hhighsame]
  · intro b hb
    obtain ⟨p, hp, hbp⟩ := List.mem_flatMap.mp hb
    exact (hfirst p b hbp).2 (hlow p hp)
  · intro b hb
    rcases List.mem_append.mp hb with hb | hb
    · exact (hfirst place b (by simp [hplace, hb])).1
    · obtain ⟨p, hp, hbp⟩ := List.mem_flatMap.mp hb
      exact (hfirst p b hbp).1

/-- When no other queue lacks an announcement, to announce the next operation of the last one
makes a schedule complete. -/
theorem complete_announce {s : Schedule} {place : Nat}
    (h : ∀ p ≠ place, s.pendingAt p = s.waitingAt p) : (s.announce place).Complete := by
  intro p
  rw [pendingAt_announce, waitingAt_announce]
  by_cases hp : p = place
  · rw [if_pos hp, hp]
  · rw [if_neg hp, h p hp]

/-- A schedule without queues is complete. -/
theorem complete_empty : empty.Complete := fun _ => rfl

/-- A schedule stays complete when a queue is registered. -/
theorem complete_register {s : Schedule} (hs : s.Complete) (q : OpQueue) :
    (s.register q).Complete := by
  refine complete_announce fun p hp => ?_
  by_cases hlt : p < s.queues.length
  · have hsame : waitingAt ⟨s.queues ++ [q], s.announced⟩ p = s.waitingAt p := by
      rw [waitingAt, List.getElem?_append_left hlt, waitingAt]
    rw [pendingAt, hsame]
    exact hs p
  · have hnone : waitingAt ⟨s.queues ++ [q], s.announced⟩ p = [] := by
      rw [waitingAt, List.getElem?_eq_none (by simp; omega)]
      rfl
    rw [pendingAt, hnone, ite_self]

/-- A schedule stays complete when an operation is handed out. -/
theorem complete_pop? {s s' : Schedule} (hs : s.Coherent) (hcomplete : s.Complete) {time : Int}
    {op : MappingOp} (h : s.pop? time = some (op, s')) : s'.Complete := by
  obtain ⟨place, announced, taken, rest, hannounced, -, -, rfl⟩ := pop?_eq_some hs h
  refine complete_announce fun p hp => ?_
  rw [pendingAt_set hannounced hp, waitingAt_set hp, hcomplete p]

/-- A registered queue comes behind the others. -/
@[simp] theorem queues_register (s : Schedule) (q : OpQueue) :
    (s.register q).queues = s.queues ++ [q] := by
  simp [register]

private theorem queues_foldl_register (queues : List OpQueue) (s : Schedule) :
    (queues.foldl register s).queues = s.queues ++ queues := by
  induction queues generalizing s with
  | nil => simp
  | cons q queues ih => rw [List.foldl_cons, ih, queues_register, List.append_assoc]; rfl

/-- Registration keeps the queues in their order. -/
theorem queues_ofQueues (queues : List OpQueue) : (ofQueues queues).queues = queues := by
  rw [ofQueues, queues_foldl_register]
  rfl

private theorem coherent_foldl_register {queues : List OpQueue}
    (hqueues : ∀ q ∈ queues, Ascending MappingOp.time q.history) {s : Schedule}
    (hs : s.Coherent) (hcomplete : s.Complete) :
    (queues.foldl register s).Coherent ∧ (queues.foldl register s).Complete := by
  induction queues generalizing s with
  | nil => exact ⟨hs, hcomplete⟩
  | cons q queues ih =>
    exact ih (fun other hother => hqueues other (by simp [hother]))
      (coherent_register hs (hqueues q (by simp))) (complete_register hcomplete q)

/-- A schedule of queues whose times ascend is coherent, and all of them are announced. -/
theorem coherent_ofQueues {queues : List OpQueue}
    (hqueues : ∀ q ∈ queues, Ascending MappingOp.time q.history) :
    (ofQueues queues).Coherent ∧ (ofQueues queues).Complete :=
  coherent_foldl_register hqueues coherent_empty complete_empty

/-- When all queues are announced, all that wait in them are pending. -/
theorem Complete.pending_eq {s : Schedule} (hs : s.Complete) :
    s.pending = s.queues.flatMap OpQueue.waiting := by
  rw [pending, List.flatMap_def, List.flatMap_def]
  congr 1
  refine List.ext_getElem (by simp) fun place hplace _ => ?_
  have hlt : place < s.queues.length := by simpa using hplace
  simp [hs place, waitingAt, hlt]

end Schedule

end TraceProfile
