import TraceProfile.Mapping.Queue

/-!
# Schedules

A schedule merges the queues of several sources. It announces the next operation of every queue,
and hands out the announced operations by time; at equal times the queue registered first comes
first. A queue that has nothing waiting when it is registered, or when its last operation is
handed out, is announced no more.
-/

namespace TraceProfile

/-- The time of an announced operation and the place of its queue. -/
abbrev Announcement := Int × Nat

/-- An announcement comes before another: by time, then by the place of the queue. -/
def Announcement.before (a b : Announcement) : Bool := a.1 < b.1 || (a.1 == b.1 && a.2 ≤ b.2)

/-- Queues in the order of their registration, and what they announce. -/
structure Schedule where
  /-- The queues. -/
  queues : List OpQueue
  /-- The announcements, in the order in which they come due. -/
  announced : List Announcement
  deriving DecidableEq, Repr

namespace Schedule

/-- The schedule without queues. -/
def empty : Schedule := ⟨[], []⟩

/-- The announcements with one more in its place. -/
def insertAnnouncement (a : Announcement) : List Announcement → List Announcement
  | [] => [a]
  | b :: rest => if a.before b then a :: b :: rest else b :: insertAnnouncement a rest

/-- The next operation of the queue at a place is announced, if there is one. -/
def announce (s : Schedule) (place : Nat) : Schedule :=
  match s.queues[place]?.bind OpQueue.nextTime? with
  | none => s
  | some time => { s with announced := insertAnnouncement (time, place) s.announced }

/-- The schedule with one more queue. -/
def register (s : Schedule) (q : OpQueue) : Schedule :=
  { s with queues := s.queues ++ [q] }.announce s.queues.length

/-- The schedule of a list of queues. -/
def ofQueues (queues : List OpQueue) : Schedule := queues.foldl register empty

/-- The schedule with one more operation at the end of the queue at a place. The operation is
not announced before those that wait in front of it. -/
def push (s : Schedule) (place : Nat) (op : MappingOp) : Except Fault Schedule :=
  match s.queues[place]? with
  | none => .error Failure.noEntry
  | some q => (q.push op).map fun q => { s with queues := s.queues.set place q }

/-- The number of operations that wait in some queues. -/
def waitingIn : List OpQueue → Nat
  | [] => 0
  | q :: rest => q.size + waitingIn rest

/-- The number of operations that wait in any queue. -/
def waitingCount (s : Schedule) : Nat := waitingIn s.queues

/-- The first announced operation, if it is due at the given time, and the schedule after it. -/
def pop? (s : Schedule) (time : Int) : Option (MappingOp × Schedule) :=
  match s.announced with
  | [] => none
  | (due, place) :: rest =>
    if due ≤ time then
      match s.queues[place]?.bind OpQueue.pop? with
      | none => none
      | some (op, q) => some (op, announce ⟨s.queues.set place q, rest⟩ place)
    else none

/-- An announcement leaves the queues alone. -/
@[simp] theorem queues_announce (s : Schedule) (place : Nat) :
    (s.announce place).queues = s.queues := by
  unfold announce
  split <;> rfl

/-- Another queue in the place of one counts for it. -/
theorem waitingIn_set {queues : List OpQueue} {place : Nat} {q : OpQueue}
    (h : queues[place]? = some q) (q' : OpQueue) :
    waitingIn (queues.set place q') + q.size = waitingIn queues + q'.size := by
  induction queues generalizing place with
  | nil => simp at h
  | cons head rest ih =>
    cases place with
    | zero =>
      simp only [List.getElem?_cons_zero, Option.some.injEq] at h
      simp only [h, List.set_cons_zero, waitingIn]
      omega
    | succ place =>
      have := ih (by simpa using h)
      simp only [List.set_cons_succ, waitingIn]
      omega

/-- An operation that is handed out waits no more. -/
theorem waitingCount_of_pop? {s s' : Schedule} {time : Int} {op : MappingOp}
    (h : s.pop? time = some (op, s')) : s.waitingCount = s'.waitingCount + 1 := by
  unfold pop? at h
  split at h
  · simp at h
  · split at h
    · split at h
      · simp at h
      · rename_i next found
        obtain ⟨q, there, popped⟩ := Option.bind_eq_some_iff.1 found
        simp only [Option.some.injEq, Prod.mk.injEq] at h
        obtain ⟨rfl, rfl⟩ := h
        have size := OpQueue.size_of_pop? popped
        have count := waitingIn_set there next
        simp only [waitingCount, queues_announce]
        omega
    · simp at h

/-- All operations due at the given time, in order, and the schedule after them. -/
def due (s : Schedule) (time : Int) : List MappingOp × Schedule :=
  match _h : s.pop? time with
  | none => ([], s)
  | some (op, s') =>
    let (ops, final) := s'.due time
    (op :: ops, final)
termination_by s.waitingCount
decreasing_by
  have := waitingCount_of_pop? ‹_›
  omega

end Schedule

end TraceProfile
