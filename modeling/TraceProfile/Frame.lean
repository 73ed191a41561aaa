import TraceProfile.Fault
import TraceProfile.Library

/-!
# Frames

A raw frame is an address in user or kernel space, or a label. A resolved frame adds what the
address was found to be. Stacks are lists of frames that start at the leaf.
-/

namespace TraceProfile

/-- Where a frame runs, or that it is a label. -/
inductive FrameKind where
  | user | kernel | label
  deriving DecidableEq, Repr

/-- The name of a frame kind. -/
def FrameKind.name : FrameKind → String
  | user => "user"
  | kernel => "kernel"
  | label => "label"

/-- All frame kinds. -/
def FrameKind.all : List FrameKind := [user, kernel, label]

/-- The frame kind of a name. -/
def FrameKind.ofName? (name : String) : Option FrameKind :=
  all.find? (·.name == name)

/-- A frame as it was recorded. -/
inductive RawFrame where
  /-- An address in user space. -/
  | user (address : Int)
  /-- An address in kernel space. -/
  | kernel (address : Int)
  /-- A frame that stands for no code. -/
  | label (text : String)
  deriving DecidableEq, Repr

/-- A raw frame as a message shows it. -/
def RawFrame.describe : RawFrame → String
  | user address => s!"StackFrame(user, {Text.hexNumeral address})"
  | kernel address => s!"StackFrame(kernel, {Text.hexNumeral address})"
  | label text => s!"StackFrame(label={Text.quote text})"

/-- A resolved frame. -/
structure Frame where
  /-- Where it runs. -/
  kind : FrameKind
  /-- The handle of its category. -/
  category : Int
  /-- Its address; zero for a label. -/
  address : Int
  /-- The library that holds the address. -/
  library : Option Library
  /-- The address relative to the library. -/
  offset : Option Int
  /-- The text shown for it. -/
  label : Option String
  deriving DecidableEq, Repr

/-- A frame that stands for no code. -/
def Frame.ofLabel (category : Int) (label : String) : Frame :=
  ⟨.label, category, 0, none, none, some label⟩

/-- The address of the frame lies in a library. -/
def Frame.isResolved (frame : Frame) : Bool := frame.library.isSome

/-- A resolved frame as a message shows it; a frame in a library needs its offset. -/
def Frame.describe (frame : Frame) : Except Fault String :=
  match frame.library, frame.offset with
  | some library, some offset => .ok s!"FrameInfo({library.name}+{Text.hexNumeral offset})"
  | some _, none => .error Failure.notWhole
  | none, _ =>
    let label := (frame.label.map Text.quote).getD "None"
    .ok s!"FrameInfo({frame.kind.name}, {Text.hexNumeral frame.address}, {label})"

end TraceProfile
