import TraceProfile.Catalogue
import TraceProfile.Frame

/-!
# The stack store

All stacks of a process share one tree of frames. A node stands for the stack that leads from
its frame to the root, and equal stacks have the same node.
-/

namespace TraceProfile

/-- A frame on top of the stack of another node. -/
structure StackNode where
  /-- The frame. -/
  frame : RawFrame
  /-- The node of the frames towards the root; none for the root frame. -/
  parent : Option Nat
  deriving DecidableEq, Repr

/-- The nodes in the order of their creation. The place of a node is its id. -/
abbrev StackStore := Catalogue (id : StackNode → StackNode)

namespace StackStore

/-- A stack is stored from the root up. The empty stack has no id. -/
def intern (s : StackStore) : List RawFrame → Option Nat × StackStore
  | [] => (none, s)
  | frame :: rest =>
    let (parent, s) := s.intern rest
    let (id, s) := s.ensure ⟨frame, parent⟩
    (some id, s)

/-- The stack of a node. Parents are older than their children, so the walk to the root ends. -/
def framesFrom (s : StackStore) (node : Nat) : Except Fault (List RawFrame) :=
  match s.get? node with
  | none => .error Failure.noEntry
  | some ⟨frame, none⟩ => .ok [frame]
  | some ⟨frame, some parent⟩ =>
    if _older : parent < node then (framesFrom s parent).map (frame :: ·)
    else .error Failure.noEntry
termination_by node

/-- The stack of an id. -/
def frames (s : StackStore) : Option Nat → Except Fault (List RawFrame)
  | none => .ok []
  | some node => framesFrom s node

end StackStore

end TraceProfile
