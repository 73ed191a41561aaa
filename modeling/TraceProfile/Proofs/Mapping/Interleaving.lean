import Mathlib.Data.List.Induction
import TraceProfile.Proofs.Mapping.Turns

/-!
# Interleaved calls of a replay

Operations may be pushed into a queue at any time, before and after its registration, and queues
may be registered between two advances. Whatever the order of the calls, the announcements agree
with the queues, and an advance hands out exactly what is announced and due.
-/

namespace TraceProfile

namespace OpQueue

/-- A fresh queue stays so when it accepts an operation. -/
theorem Fresh.push {q q' : OpQueue} {op : MappingOp} (h : q.Fresh) (hpush : q.push op = .ok q') :
    q'.Fresh := by
  obtain ⟨ops, hops⟩ := h
  refine ⟨ops ++ [op], ?_⟩
  rw [ofList, List.foldlM_append]
  have hfirst : ops.foldlM OpQueue.push empty = .ok q := hops
  rw [hfirst]
  change [op].foldlM OpQueue.push q = _
  rw [List.foldlM_cons, hpush]
  rfl

/-- The operation is not older than the one pushed last. -/
def accepts (q : OpQueue) (op : MappingOp) : Bool :=
  q.history.getLast?.all fun previous => previous.time ≤ op.time

/-- A queue accepts an operation unless it is older than the one pushed last, and puts it behind
those that wait. -/
theorem push_of_accepts {q : OpQueue} {op : MappingOp} (h : q.accepts op = true) :
    q.push op = .ok ⟨q.taken, q.waiting ++ [op]⟩ := by
  rw [accepts, getLast?_history] at h
  unfold push
  split
  · rename_i previous hlatest
    rw [hlatest, Option.all_some, decide_eq_true_eq] at h
    rw [if_neg (Int.not_lt.mpr h)]
  · rfl

/-- A queue refuses an operation that is older than the last one. -/
theorem push_of_not_accepts {q : OpQueue} {op : MappingOp} (h : q.accepts op = false) :
    ∃ previous, q.push op = .error (Refusal.olderOperation op.time previous) := by
  rw [accepts, getLast?_history] at h
  unfold push
  split
  · rename_i previous hlatest
    rw [hlatest, Option.all_some, decide_eq_false_iff_not] at h
    exact ⟨previous.time, if_pos (Int.not_le.mp h)⟩
  · rename_i hnone
    rw [hnone] at h
    cases h

end OpQueue

namespace Schedule

variable {s s' : Schedule} {place p : Nat} {op : MappingOp}

/-- A schedule that accepts an operation puts it behind those that wait in its queue. -/
theorem push_eq_ok (h : s.push place op = .ok s') :
    ∃ q, s.queues[place]? = some q ∧ q.push op = .ok ⟨q.taken, q.waiting ++ [op]⟩ ∧
      s' = { s with queues := s.queues.set place ⟨q.taken, q.waiting ++ [op]⟩ } := by
  unfold push at h
  split at h
  · cases h
  · rename_i q hq
    cases hpush : q.push op with
    | error fault => rw [hpush] at h; cases h
    | ok q' =>
      obtain ⟨rfl, -⟩ := OpQueue.push_eq_ok hpush
      rw [hpush] at h
      cases h
      exact ⟨q, hq, hpush, rfl⟩

/-- To push an operation keeps a schedule coherent: what is announced stays at the front. -/
theorem coherent_push (hs : s.Coherent) (h : s.push place op = .ok s') : s'.Coherent := by
  obtain ⟨q, hq, hpush, rfl⟩ := push_eq_ok h
  refine ⟨hs.sorted, fun a ha => ?_, fun other hother => ?_⟩
  · obtain ⟨taken, first, rest, hqueue, hfirst⟩ := queue_of_announced hs ha
    by_cases hplace : place = a.2
    · subst hplace
      cases hq.symm.trans hqueue
      rw [nextAt, List.getElem?_set_self (List.getElem?_eq_some_iff.mp hq).1]
      exact congrArg some hfirst
    · rw [nextAt, List.getElem?_set_ne hplace]
      exact hs.current a ha
  · rcases List.mem_or_eq_of_mem_set hother with hother | rfl
    · exact hs.ordered other hother
    · exact OpQueue.ascending_history_push (hs.ordered q (List.mem_of_getElem? hq)) hpush

/-- To push an operation takes nothing out. -/
theorem takenAt_push (h : s.push place op = .ok s') : s'.takenAt p = s.takenAt p := by
  obtain ⟨q, hq, -, rfl⟩ := push_eq_ok h
  by_cases hp : place = p
  · subst hp
    rw [takenAt, takenAt, List.getElem?_set_self (List.getElem?_eq_some_iff.mp hq).1, hq]
    rfl
  · rw [takenAt, List.getElem?_set_ne hp, takenAt]

/-- In a coherent schedule, nothing is announced for a place without a queue. -/
theorem announces_of_length_le (hs : s.Coherent) (h : s.queues.length ≤ place) :
    s.announces place = false := by
  rw [announces, List.any_eq_false]
  intro a ha
  obtain ⟨taken, first, rest, hqueue, -⟩ := queue_of_announced hs ha
  have := (List.getElem?_eq_some_iff.mp hqueue).1
  simp only [beq_iff_eq]
  omega

/-- A queue that is registered has an announcement if and only if something waits in it, and the
others keep theirs. -/
theorem announces_register (hs : s.Coherent) (q : OpQueue) :
    (s.register q).announces p ↔
      if p = s.queues.length then (s.register q).waitingAt p ≠ [] else (s.announces p : Prop) := by
  rw [register, announces_announce, waitingAt_announce]
  have hsame : announces ⟨s.queues ++ [q], s.announced⟩ p = s.announces p := rfl
  split
  · rename_i hp
    rw [hsame, announces_of_length_le hs (Nat.le_of_eq hp.symm), hp]
    simp
  · rename_i hp
    rw [hsame, or_iff_left fun hand => hp hand.1]

/-- Nothing has been taken out of a fresh queue when it is registered. -/
theorem takenAt_register {q : OpQueue} (hq : q.Fresh) (s : Schedule) :
    (s.register q).takenAt p = s.takenAt p := by
  rw [takenAt, queues_register, takenAt]
  by_cases hp : p < s.queues.length
  · rw [List.getElem?_append_left hp]
  · rw [List.getElem?_eq_none (Nat.not_lt.mp hp),
      List.getElem?_append_right (Nat.not_lt.mp hp)]
    cases p - s.queues.length with
    | zero =>
      rw [hq.spec.1]
      rfl
    | succ n => rfl

end Schedule

/-- A call of someone who feeds a replay. A queue is named by its place, among those that are not
registered or among those that are. -/
inductive ReplayCall where
  /-- An operation is pushed into a queue that is not registered. -/
  | pushAside (place : Nat) (op : MappingOp)
  /-- An operation is pushed into a queue that is registered. -/
  | push (place : Nat) (op : MappingOp)
  /-- A queue is registered. -/
  | register (place : Nat)
  /-- The replay is advanced. -/
  | advance (time : Int)

/-- A replay, and the queues that are not registered with it. -/
structure Feed where
  /-- The queues that are not registered. -/
  aside : List OpQueue
  /-- The replay. -/
  replay : Replay

namespace Feed

/-- The given queues before the first of them is registered. -/
def start (sources : List OpQueue) : Feed := ⟨sources, .ofQueues []⟩

/-- What a call leads to, or the fault that it ends in. -/
def attempt (f : Feed) : ReplayCall → Except Fault Feed
  | .pushAside place op =>
    match f.aside[place]? with
    | none => .error Failure.noEntry
    | some q => (q.push op).map fun q => { f with aside := f.aside.set place q }
  | .push place op => (f.replay.push place op).map fun replay => { f with replay }
  | .register place =>
    match f.aside[place]? with
    | none => .error Failure.noEntry
    | some q => .ok ⟨f.aside.eraseIdx place, f.replay.register q⟩
  | .advance time => .ok { f with replay := f.replay.advance time }

/-- The feed after a call, which may have ended in a fault. -/
def after (f : Feed) (call : ReplayCall) : Feed :=
  match f.attempt call with
  | .ok next => next
  | .error _ => f

/-- The feed after some calls. -/
def run (f : Feed) (calls : List ReplayCall) : Feed := calls.foldl after f

/-- What a call is to hand out, each operation with the place of its queue. -/
def turns (f : Feed) : ReplayCall → List (Nat × MappingOp)
  | .advance time => f.replay.schedule.turns time
  | _ => []

/-- What some calls are to hand out. -/
def allTurns (f : Feed) : List ReplayCall → List (Nat × MappingOp)
  | [] => []
  | call :: calls => f.turns call ++ (f.after call).allTurns calls

/-- The call registers the queue at a place, or takes an operation out of it. -/
def Visits (f : Feed) (call : ReplayCall) (place : Nat) : Prop :=
  place < (f.after call).replay.schedule.queues.length ∧
    (f.replay.schedule.queues.length ≤ place ∨
      (f.after call).replay.schedule.takenAt place ≠ f.replay.schedule.takenAt place)

/-- Nothing waited in the queue at a place after the last of the calls that visited it. -/
def LeftEmpty (f : Feed) (calls : List ReplayCall) (place : Nat) : Prop :=
  ∃ before call later, calls = before ++ call :: later ∧ (f.run before).Visits call place ∧
    (f.run (before ++ [call])).replay.schedule.waitingAt place = [] ∧
    ∀ early next late, later = early ++ next :: late →
      ¬(f.run (before ++ call :: early)).Visits next place

/-- What a call does to a replay, and what it hands out. -/
inductive Moves (r : Replay) : Replay → List (Nat × MappingOp) → Prop
  /-- The call is about a queue that is not registered, or ends in a fault. -/
  | stays : Moves r r []
  /-- A registered queue accepts an operation. -/
  | pushes {place : Nat} {op : MappingOp} {schedule : Schedule}
      (h : r.schedule.push place op = .ok schedule) : Moves r { r with schedule } []
  /-- A queue is registered. -/
  | registers {q : OpQueue} (hq : q.Fresh) : Moves r (r.register q) []
  /-- The replay is advanced. -/
  | advances (time : Int) : Moves r (r.advance time) (r.schedule.turns time)

/-- The queues that are not registered have not been read, and the schedule is coherent. -/
structure Sound (f : Feed) : Prop where
  /-- The queues that are not registered. -/
  aside : ∀ q ∈ f.aside, q.Fresh
  /-- The schedule. -/
  coherent : f.replay.schedule.Coherent

variable {f : Feed} {call : ReplayCall}

/-- What a call does to a replay are the turns of the call. -/
theorem moves_after (hf : f.Sound) (call : ReplayCall) :
    Moves f.replay (f.after call).replay (f.turns call) := by
  unfold after attempt
  cases call with
  | pushAside place op =>
    dsimp only
    cases f.aside[place]? with
    | none => exact .stays
    | some q =>
      dsimp only
      cases q.push op <;> exact .stays
  | push place op =>
    dsimp only [Replay.push]
    cases hpush : f.replay.schedule.push place op with
    | error fault => exact .stays
    | ok schedule => exact .pushes hpush
  | register place =>
    dsimp only
    cases hq : f.aside[place]? with
    | none => exact .stays
    | some q => exact .registers (hf.aside q (List.mem_of_getElem? hq))
  | advance time => exact .advances time

/-- Nothing is taken from the queues that are not registered yet. -/
theorem fresh_after (hf : f.Sound) (call : ReplayCall) : ∀ q ∈ (f.after call).aside, q.Fresh := by
  unfold after attempt
  cases call with
  | pushAside place op =>
    dsimp only
    cases hq : f.aside[place]? with
    | none => exact hf.aside
    | some q =>
      dsimp only
      cases hpush : q.push op with
      | error fault => exact hf.aside
      | ok q' =>
        intro other hother
        rcases List.mem_or_eq_of_mem_set hother with hother | rfl
        · exact hf.aside other hother
        · exact (hf.aside q (List.mem_of_getElem? hq)).push hpush
  | push place op =>
    dsimp only
    cases f.replay.push place op <;> exact hf.aside
  | register place =>
    dsimp only
    cases f.aside[place]? with
    | none => exact hf.aside
    | some q => exact fun other hother => hf.aside other (List.mem_of_mem_eraseIdx hother)
  | advance time => exact hf.aside

section Moves

variable {r r' : Replay} {turns : List (Nat × MappingOp)}

/-- Turns keep the schedule coherent. -/
theorem Moves.coherent (h : Moves r r' turns) (hr : r.schedule.Coherent) :
    r'.schedule.Coherent := by
  cases h with
  | stays => exact hr
  | pushes hpush => exact Schedule.coherent_push hr hpush
  | registers hq => exact Schedule.coherent_register hr hq.spec.2
  | advances time => exact Schedule.coherent_due hr time

/-- What is handed out comes behind all that has been taken out of its queue before. -/
theorem Moves.takenAt_eq (h : Moves r r' turns) (hr : r.schedule.Coherent) (p : Nat) :
    r'.schedule.takenAt p =
      r.schedule.takenAt p ++ (turns.filter (·.1 = p)).map (·.2) := by
  cases h with
  | stays => exact (List.append_nil _).symm
  | pushes hpush => exact (Schedule.takenAt_push hpush).trans (List.append_nil _).symm
  | registers hq => exact (Schedule.takenAt_register hq _).trans (List.append_nil _).symm
  | advances time =>
    rw [Schedule.filter_turns hr]
    exact (Schedule.takenAt_due hr time p).1

/-- What is handed out is carried out. -/
theorem Moves.space_eq (h : Moves r r' turns) (hr : r.schedule.Coherent) :
    r'.space = r.space.applyAll (turns.map (·.2)) := by
  cases h with
  | stays | pushes | registers => rfl
  | advances time =>
    rw [← Schedule.due_fst_eq_turns hr]
    rfl

/-- Turns remove no queue. -/
theorem Moves.length_le (h : Moves r r' turns) (hr : r.schedule.Coherent) :
    r.schedule.queues.length ≤ r'.schedule.queues.length := by
  cases h with
  | stays => exact Nat.le_refl _
  | pushes hpush =>
    obtain ⟨q, -, -, rfl⟩ := Schedule.push_eq_ok hpush
    exact Nat.le_of_eq List.length_set.symm
  | @registers q =>
    rw [Replay.register, Schedule.queues_register, List.length_append]
    exact Nat.le_add_right _ _
  | advances time => exact Nat.le_of_eq (Schedule.length_queues_due hr time).symm

/-- Once a queue has been registered, or something has been taken out of it, it has an announcement
if and only if something waits in it. Otherwise its announcement stays as it was. -/
theorem Moves.announces_iff (h : Moves r r' turns) (hr : r.schedule.Coherent) {p : Nat}
    (hp : p < r'.schedule.queues.length) :
    r'.schedule.announces p ↔
      if r.schedule.queues.length ≤ p ∨ r'.schedule.takenAt p ≠ r.schedule.takenAt p then
        r'.schedule.waitingAt p ≠ []
      else (r.schedule.announces p : Prop) := by
  have htaken := h.takenAt_eq hr p
  cases h with
  | stays =>
    rw [if_neg (by simpa using hp)]
  | pushes hpush =>
    obtain ⟨q, -, -, rfl⟩ := Schedule.push_eq_ok hpush
    have hlt : p < r.schedule.queues.length := by simpa using hp
    rw [if_neg (by simpa [htaken] using hlt)]
    rfl
  | @registers q hq =>
    rw [Replay.register, Schedule.announces_register hr]
    rw [Replay.register, Schedule.queues_register, List.length_append] at hp
    by_cases hlast : p = r.schedule.queues.length
    · rw [if_pos hlast, if_pos (.inl (Nat.le_of_eq hlast.symm))]
    · have hlt : ¬r.schedule.queues.length ≤ p := by
        simp only [List.length_singleton] at hp
        omega
      rw [if_neg hlast, if_neg (by simpa [Schedule.takenAt_register hq] using hlt)]
  | advances time =>
    rw [Replay.advance, Schedule.length_queues_due hr] at hp
    rw [Schedule.filter_turns hr] at htaken
    have hiff : r.schedule.queues.length ≤ p ∨
        (r.advance time).schedule.takenAt p ≠ r.schedule.takenAt p ↔
        (r.schedule.pendingAt p).takeWhile (·.time ≤ time) ≠ [] := by
      rw [htaken, or_iff_right (Nat.not_le.mpr hp), ne_eq, List.append_right_eq_self]
    rw [if_congr hiff rfl rfl, ite_not]
    exact Schedule.announces_due hr time p

end Moves

/-- A call keeps the feed sound. -/
theorem Sound.after (hf : f.Sound) (call : ReplayCall) : (f.after call).Sound :=
  ⟨fresh_after hf call, (moves_after hf call).coherent hf.coherent⟩

/-- A feed whose queues are fresh is sound before the first call. -/
theorem sound_start {sources : List OpQueue} (h : ∀ q ∈ sources, q.Fresh) : (start sources).Sound :=
  ⟨h, Schedule.coherent_empty⟩

/-- The last call is made after all others. -/
theorem run_concat (f : Feed) (calls : List ReplayCall) (call : ReplayCall) :
    f.run (calls ++ [call]) = (f.run calls).after call := by
  rw [run, List.foldl_append]
  rfl

/-- A feed stays sound over all its calls. -/
theorem Sound.run (hf : f.Sound) (calls : List ReplayCall) : (f.run calls).Sound := by
  induction calls generalizing f with
  | nil => exact hf
  | cons call calls ih => exact ih (hf.after call)

/-- Over a run, what is handed out comes behind all that has been taken out of its queue before,
and is carried out in this order. -/
theorem run_turns (hf : f.Sound) (calls : List ReplayCall) :
    (f.run calls).replay.space = f.replay.space.applyAll ((f.allTurns calls).map (·.2)) ∧
      ∀ p, (f.run calls).replay.schedule.takenAt p =
        f.replay.schedule.takenAt p ++ ((f.allTurns calls).filter (·.1 = p)).map (·.2) := by
  induction calls generalizing f with
  | nil => exact ⟨rfl, fun p => (List.append_nil _).symm⟩
  | cons call calls ih =>
    have hmoves := moves_after hf call
    obtain ⟨hspace, htaken⟩ := ih (hf.after call)
    have hrun : f.run (call :: calls) = (f.after call).run calls := rfl
    refine ⟨?_, fun p => ?_⟩
    · rw [hrun, hspace, hmoves.space_eq hf.coherent, allTurns, List.map_append,
        AddressSpace.applyAll_append]
    · rw [hrun, htaken, hmoves.takenAt_eq hf.coherent, allTurns, List.filter_append,
        List.map_append, List.append_assoc]

/-- Whether a queue was left empty is settled by the last call, if this call visited it. -/
theorem leftEmpty_concat (f : Feed) (calls : List ReplayCall) (call : ReplayCall) (p : Nat) :
    f.LeftEmpty (calls ++ [call]) p ↔
      (f.run calls).Visits call p ∧ ((f.run calls).after call).replay.schedule.waitingAt p = [] ∨
        ¬(f.run calls).Visits call p ∧ f.LeftEmpty calls p := by
  constructor
  · rintro ⟨before, visit, later, hsplit, hvisit, hempty, hlast⟩
    rcases List.eq_nil_or_concat later with rfl | ⟨later, last, rfl⟩
    · obtain ⟨rfl, hcall⟩ := List.append_inj' hsplit rfl
      cases hcall
      rw [run_concat] at hempty
      exact .inl ⟨hvisit, hempty⟩
    · rw [List.concat_eq_append, ← List.cons_append, ← List.append_assoc] at hsplit
      obtain ⟨rfl, hcall⟩ := List.append_inj' hsplit rfl
      cases hcall
      refine .inr ⟨hlast later call [] (List.concat_eq_append ..), before, visit, later, rfl,
        hvisit, hempty, fun early next late hlater => ?_⟩
      exact hlast early next (late ++ [call]) (by simp [hlater])
  · rintro (⟨hvisit, hempty⟩ | ⟨hnone, before, visit, later, rfl, hvisit, hempty, hlast⟩)
    · refine ⟨calls, call, [], rfl, hvisit, ?_, fun early next late h => ?_⟩
      · rw [run_concat]
        exact hempty
      · cases early <;> cases h
    · refine ⟨before, visit, later ++ [call], by simp, hvisit, hempty,
        fun early next late hlater => ?_⟩
      rcases List.eq_nil_or_concat late with rfl | ⟨late, last, rfl⟩
      · obtain ⟨rfl, hcall⟩ := List.append_inj' hlater rfl
        cases hcall
        exact hnone
      · rw [List.concat_eq_append, ← List.cons_append, ← List.append_assoc] at hlater
        exact hlast early next late (List.append_inj' hlater rfl).1

/-- A registered queue has no announcement if and only if it was left empty. -/
theorem announces_run (sources : List OpQueue) (h : ∀ q ∈ sources, q.Fresh)
    (calls : List ReplayCall) {p : Nat}
    (hp : p < ((start sources).run calls).replay.schedule.queues.length) :
    ((start sources).run calls).replay.schedule.announces p = false ↔
      (start sources).LeftEmpty calls p := by
  induction calls using List.reverseRecOn with
  | nil => cases hp
  | append_singleton calls call ih =>
    have hf := (sound_start h).run calls
    rw [leftEmpty_concat, run_concat]
    rw [run_concat] at hp
    have hiff := (moves_after hf call).announces_iff hf.coherent hp
    have hvisits : ((start sources).run calls).Visits call p ↔
        ((start sources).run calls).replay.schedule.queues.length ≤ p ∨
          (((start sources).run calls).after call).replay.schedule.takenAt p ≠
            ((start sources).run calls).replay.schedule.takenAt p :=
      and_iff_right hp
    rw [← Bool.not_eq_true, hiff]
    by_cases hvisit : ((start sources).run calls).Visits call p
    · rw [if_pos (hvisits.mp hvisit)]
      simp [hvisit]
    · have hold : p < ((start sources).run calls).replay.schedule.queues.length := by
        rw [hvisits, not_or] at hvisit
        exact Nat.not_le.mp hvisit.1
      rw [if_neg (mt hvisits.mpr hvisit), Bool.not_eq_true, ih hold]
      simp [hvisit]

/-- An operation for a queue that is not registered is put there if the queue accepts it, and
changes nothing otherwise. -/
theorem after_pushAside {place : Nat} {q : OpQueue} (hq : f.aside[place]? = some q)
    (op : MappingOp) :
    f.after (.pushAside place op) =
      if q.accepts op then { f with aside := f.aside.set place ⟨q.taken, q.waiting ++ [op]⟩ }
      else f := by
  rw [after, attempt, hq]
  dsimp only
  cases haccepts : q.accepts op with
  | true => rw [OpQueue.push_of_accepts haccepts]; rfl
  | false =>
    obtain ⟨previous, hpush⟩ := OpQueue.push_of_not_accepts haccepts
    rw [hpush]
    rfl

/-- An operation for a registered queue is put there if the queue accepts it, and changes nothing
otherwise. -/
theorem after_push {place : Nat} {q : OpQueue} (hq : f.replay.schedule.queues[place]? = some q)
    (op : MappingOp) :
    f.after (.push place op) =
      if q.accepts op then
        { f with replay.schedule.queues :=
            f.replay.schedule.queues.set place ⟨q.taken, q.waiting ++ [op]⟩ }
      else f := by
  rw [after, attempt, Replay.push, Schedule.push, hq]
  dsimp only
  cases haccepts : q.accepts op with
  | true => rw [OpQueue.push_of_accepts haccepts]; rfl
  | false =>
    obtain ⟨previous, hpush⟩ := OpQueue.push_of_not_accepts haccepts
    rw [hpush]
    rfl

/-- In a coherent schedule a queue has at most one announcement. -/
theorem nodup_announced {s : Schedule} (hs : s.Coherent) : (s.announced.map (·.2)).Nodup := by
  rw [List.Nodup, List.pairwise_map]
  refine hs.sorted.imp_of_mem fun {a b} ha hb hprecedes hplace => ?_
  have hcurrent := hs.current a ha
  rw [hplace, hs.current b hb, Option.some.injEq] at hcurrent
  unfold Announcement.Precedes at hprecedes
  omega

/-- The state of a feed after some calls. -/
structure Agrees (sources : List OpQueue) (calls : List ReplayCall) (f : Feed) : Prop where
  /-- The times of all queues ascend, whether they are registered or not. -/
  ascending : ∀ q ∈ f.aside ++ f.replay.schedule.queues, Ascending MappingOp.time q.history
  /-- A push into a queue that is not registered puts the operation behind the others, or changes
  nothing if it is older than the last of them. -/
  pushAside : ∀ place q op, f.aside[place]? = some q → f.after (.pushAside place op) =
    if q.accepts op then { f with aside := f.aside.set place ⟨q.taken, q.waiting ++ [op]⟩ } else f
  /-- So does a push into a registered queue; it announces nothing. -/
  push : ∀ place q op, f.replay.schedule.queues[place]? = some q → f.after (.push place op) =
    if q.accepts op then
      { f with replay.schedule.queues :=
          f.replay.schedule.queues.set place ⟨q.taken, q.waiting ++ [op]⟩ }
    else f
  /-- A queue has at most one announcement. -/
  single : (f.replay.schedule.announced.map (·.2)).Nodup
  /-- An announcement states the time of the next operation of its queue. -/
  current : ∀ a ∈ f.replay.schedule.announced, f.replay.schedule.nextAt a.2 = some a.1
  /-- A registered queue has none if and only if it was left empty. -/
  silent : ∀ place < f.replay.schedule.queues.length,
    (f.replay.schedule.announces place = false ↔ (start sources).LeftEmpty calls place)
  /-- An advance hands out the turns of the queues. -/
  handsOut : ∀ time, f.replay.schedule.HandsOut time
  /-- All turns have been carried out. -/
  space : f.replay.space = AddressSpace.empty.applyAll (((start sources).allTurns calls).map (·.2))
  /-- The turns of a queue are what has been taken out of it, which is a prefix of its history. -/
  prefixes : ∀ place q, f.replay.schedule.queues[place]? = some q →
    (((start sources).allTurns calls).filter (·.1 = place)).map (·.2) = q.taken.reverse ∧
      q.taken.reverse <+: q.history

/-- Pushes into any queues, registrations and advances may come in any order: the queues, their
announcements and what has been carried out agree after every call. -/
theorem run_agrees {sources : List OpQueue} (hfresh : ∀ q ∈ sources, q.Fresh)
    (calls : List ReplayCall) : Agrees sources calls ((start sources).run calls) := by
  have hstart := sound_start hfresh
  have hf := hstart.run calls
  obtain ⟨hspace, htaken⟩ := run_turns hstart calls
  exact
    { ascending := fun q hq => (List.mem_append.mp hq).elim
        (fun haside => (hf.aside q haside).spec.2) (hf.coherent.ordered q)
      pushAside := fun _ _ op hq => after_pushAside hq op
      push := fun _ _ op hq => after_push hq op
      single := nodup_announced hf.coherent
      current := hf.coherent.current
      silent := fun _ hplace => announces_run sources hfresh calls hplace
      handsOut := Schedule.handsOut hf.coherent
      space := hspace
      prefixes := fun place q hq => by
        have hplace := htaken place
        rw [Schedule.takenAt, hq] at hplace
        exact ⟨hplace.symm, List.prefix_append _ _⟩ }

/-- A queue is drained and then filled again, another is registered while it is empty, and a push
comes too late. -/
def refilled : List ReplayCall :=
  [.push 0 ⟨1, .remove 1⟩, .register 0, .register 0, .push 1 ⟨2, .remove 2⟩,
    .push 0 ⟨0, .remove 3⟩, .advance 2, .push 0 ⟨4, .remove 4⟩, .advance 9]

/-- Neither queue has another turn: one ran empty before it was filled again, and the other was
empty when it was registered. -/
theorem run_agrees_of_refilled :
    let sources : List OpQueue := [⟨[], [⟨1, .remove 5⟩]⟩, .empty]
    let f := (start sources).run refilled
    (∀ q ∈ sources, q.Fresh) ∧ f.replay.schedule.queues.length = 2 ∧
      (start sources).LeftEmpty refilled 0 ∧ (start sources).LeftEmpty refilled 1 ∧
      (start sources).allTurns refilled = [(0, ⟨1, .remove 5⟩)] ∧
      f.replay.schedule.queues[0]? = some ⟨[⟨1, .remove 5⟩], [⟨4, .remove 4⟩]⟩ ∧
      f.replay.space = AddressSpace.empty.apply ⟨1, .remove 5⟩ := by
  intro sources f
  have hfresh : ∀ q ∈ sources, q.Fresh := by
    simp only [sources, List.forall_mem_cons]
    exact ⟨⟨[⟨1, .remove 5⟩], rfl⟩, ⟨[], rfl⟩, by simp⟩
  have hqueues : f.replay.schedule.queues =
      [⟨[⟨1, .remove 5⟩], [⟨4, .remove 4⟩]⟩, ⟨[], [⟨2, .remove 2⟩]⟩] := by decide +kernel
  have hannounced : f.replay.schedule.announced = [] := by decide +kernel
  have hturns : (start sources).allTurns refilled = [(0, ⟨1, .remove 5⟩)] := by decide +kernel
  have hagrees := run_agrees hfresh refilled
  have hlength : f.replay.schedule.queues.length = 2 := by rw [hqueues]; rfl
  have hsilent : ∀ place, f.replay.schedule.announces place = false := by
    intro place
    rw [Schedule.announces, hannounced]
    rfl
  have hleft (place : Nat) (hplace : place < f.replay.schedule.queues.length) :
      (start sources).LeftEmpty refilled place :=
    (hagrees.silent place hplace).mp (hsilent place)
  refine ⟨hfresh, hlength, hleft 0 (by omega), hleft 1 (by omega), hturns, by rw [hqueues]; rfl, ?_⟩
  rw [hagrees.space, hturns]
  rfl

end Feed

end TraceProfile
