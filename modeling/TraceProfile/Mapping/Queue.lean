import TraceProfile.Mapping.Basic

/-!
# Operation queues

The operations of one source, in the order of their times. A queue refuses an operation older
than the one before it, also when that one has been taken out already.
-/

namespace TraceProfile

/-- Operations that wait, and those that were taken out. -/
structure OpQueue where
  /-- The operations taken out, the latest first. -/
  taken : List MappingOp
  /-- The operations that wait, the oldest first. -/
  waiting : List MappingOp
  deriving DecidableEq, Repr

namespace OpQueue

/-- The queue without operations. -/
def empty : OpQueue := ⟨[], []⟩

/-- All operations ever pushed, in order. -/
def history (q : OpQueue) : List MappingOp := q.taken.reverse ++ q.waiting

/-- The operation pushed last. -/
def latest? (q : OpQueue) : Option MappingOp := q.waiting.getLast?.or q.taken.head?

/-- The queue with one more operation. -/
def push (q : OpQueue) (op : MappingOp) : Except Fault OpQueue :=
  match q.latest? with
  | some previous =>
    if op.time < previous.time then .error (Refusal.olderOperation op.time previous.time)
    else .ok { q with waiting := q.waiting ++ [op] }
  | none => .ok { q with waiting := q.waiting ++ [op] }

/-- The queue of a list of operations. -/
def ofList (ops : List MappingOp) : Except Fault OpQueue := ops.foldlM push empty

/-- The time of the next operation. -/
def nextTime? (q : OpQueue) : Option Int := q.waiting.head?.map (·.time)

/-- The next operation, and the queue after it has been taken out. -/
def pop? (q : OpQueue) : Option (MappingOp × OpQueue) :=
  match q.waiting with
  | [] => none
  | op :: rest => some (op, ⟨op :: q.taken, rest⟩)

/-- The number of operations that wait. -/
def size (q : OpQueue) : Nat := q.waiting.length

/-- An accepted operation comes behind all others of the history. -/
theorem history_of_push {q q' : OpQueue} {op : MappingOp} (h : q.push op = .ok q') :
    q'.history = q.history ++ [op] := by
  unfold push at h
  split at h
  · split at h
    · simp at h
    · simp only [Except.ok.injEq] at h
      simp [← h, history]
  · simp only [Except.ok.injEq] at h
    simp [← h, history]

/-- Taking an operation leaves the history as it is and removes the head of those that wait. -/
theorem history_of_pop? {q q' : OpQueue} {op : MappingOp} (h : q.pop? = some (op, q')) :
    q'.history = q.history ∧ q.waiting = op :: q'.waiting := by
  unfold pop? at h
  split at h
  · simp at h
  · simp only [Option.some.injEq, Prod.mk.injEq] at h
    obtain ⟨rfl, rfl⟩ := h
    simp_all [history]

/-- Each operation that is taken makes the queue shorter by one. -/
theorem size_of_pop? {q q' : OpQueue} {op : MappingOp} (h : q.pop? = some (op, q')) :
    q.size = q'.size + 1 := by
  simp [size, (history_of_pop? h).2]

end OpQueue

end TraceProfile
