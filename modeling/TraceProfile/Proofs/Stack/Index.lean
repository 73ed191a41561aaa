import TraceProfile.Proofs.Catalogue.Index
import TraceProfile.Proofs.Stack.Sharing

/-!
# Stacks with an index

A stack store with an index need not search its nodes. It interns a stack in a loop that starts at
the root: each frame is looked up together with the node of its parent, and if there is no such key,
a node and a key are added. The index stays in step with the nodes, whatever stacks come, so that
they get the ids and leave the nodes that they do without an index.
-/

namespace TraceProfile

/-- Nodes, and an index that maps a frame with the node of its parent to an id. -/
abbrev IndexedStackStore := IndexedCatalogue (id : StackNode → StackNode)

namespace IndexedStackStore

variable {s : IndexedStackStore}

/-- One turn of the loop: the id of a frame on top of the node that was found last. -/
def push (found : Option Nat × IndexedStackStore) (frame : RawFrame) :
    Option Nat × IndexedStackStore :=
  let (node, s) := found.2.ensure ⟨frame, found.1⟩
  (some node, s)

/-- A stack is stored in a loop from the root up. -/
def intern (s : IndexedStackStore) (frames : List RawFrame) : Option Nat × IndexedStackStore :=
  frames.reverse.foldl push (none, s)

/-- The store after a list of stacks has been interned. -/
def internAll (s : IndexedStackStore) (interned : List (List RawFrame)) : IndexedStackStore :=
  interned.foldl (fun s frames => (s.intern frames).2) s

/-- The last turn of the loop is for the frame on top. -/
theorem intern_cons (s : IndexedStackStore) (frame : RawFrame) (rest : List RawFrame) :
    s.intern (frame :: rest) = push (s.intern rest) frame := by
  rw [intern, List.reverse_cons, List.foldl_append]
  rfl

/-- A stack gets the same id with an index in step and without one, and the index stays in step. -/
theorem intern_spec (h : s.InStep) (frames : List RawFrame) :
    (s.intern frames).2.InStep ∧
      StackStore.intern s.plain frames = ((s.intern frames).1, (s.intern frames).2.plain) := by
  induction frames with
  | nil => exact ⟨h, rfl⟩
  | cons frame rest ih =>
    obtain ⟨hstep, hrest⟩ := ih
    let node : StackNode := ⟨frame, (s.intern rest).1⟩
    obtain ⟨hid, hplain⟩ := hstep.ensure_eq node
    rw [intern_cons]
    refine ⟨hstep.ensure node, ?_⟩
    rw [StackStore.intern, hrest]
    exact Prod.ext (congrArg some hid.symm) hplain.symm

/-- Interning one stack after the other leaves the same nodes with an index and without one. -/
theorem internAll_spec (h : s.InStep) (interned : List (List RawFrame)) :
    (s.internAll interned).InStep ∧
      (s.internAll interned).plain = StackStore.internAll s.plain interned := by
  induction interned generalizing s with
  | nil => exact ⟨h, rfl⟩
  | cons frames rest ih =>
    obtain ⟨hstep, hplain⟩ := intern_spec h frames
    obtain ⟨hstep', hplain'⟩ := ih hstep
    refine ⟨hstep', hplain'.trans ?_⟩
    rw [StackStore.internAll, StackStore.internAll, List.foldl_cons, hplain]

/-- Whatever stacks go into an empty store with an index, its nodes are those of the store without
one, and each stack gets the id that it gets there. At any time, the index maps a frame and a parent
to an id if and only if the node of the id has this frame and this parent. -/
theorem internAll_empty (interned : List (List RawFrame)) :
    (∀ n, (internAll .empty (interned.take n)).plain = StackStore.after interned n) ∧
    (∀ i : Fin interned.length,
      ((internAll .empty (interned.take i)).intern (interned.get i)).1 =
        StackStore.idOf interned i) ∧
    ∀ n frame parent node,
      (internAll .empty (interned.take n)).index.lookup ⟨frame, parent⟩ = some node ↔
        (StackStore.after interned n).get? node = some ⟨frame, parent⟩ := by
  have hspec (n : Nat) := internAll_spec IndexedCatalogue.inStep_empty (interned.take n)
  refine ⟨fun n => (hspec n).2, fun i => ?_, fun n frame parent node => ?_⟩
  · obtain ⟨hstep, hplain⟩ := hspec i
    have hid := congrArg Prod.fst (intern_spec hstep (interned.get i)).2
    rw [hplain] at hid
    exact hid.symm
  · obtain ⟨hstep, hplain⟩ := hspec n
    rw [hstep, hplain]
    exact ⟨fun ⟨_, hnode, hkey⟩ => hkey ▸ hnode, fun hnode => ⟨_, hnode, rfl⟩⟩

end IndexedStackStore

end TraceProfile
