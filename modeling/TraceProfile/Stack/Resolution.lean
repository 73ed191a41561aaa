import TraceProfile.Frame

/-!
# Resolving stacks

Every raw frame becomes a frame: its address is looked up, and its category follows from where
it runs, or from its library. A stack deeper than a limit keeps its leaf side, and one label
stands for the rest.
-/

namespace TraceProfile

/-- The label of an address that lies in no library. -/
def unknownLabel : String := "unknown"

/-- The label that stands for the frames beyond the depth limit. -/
def truncationLabel : String := "(stack truncated)"

/-- What is known of an address: its place in a library. -/
abbrev Resolver := Int → Option (Int × Library)

/-- The categories of frames. -/
structure FrameCategories where
  /-- The category of user frames and labels. -/
  user : Int
  /-- The category of kernel frames. -/
  kernel : Int
  deriving DecidableEq, Repr

namespace FrameCategories

/-- A user frame. Its library may have a category of its own. -/
def userFrame (categories : FrameCategories) (resolver : Resolver) (address : Int) : Frame :=
  match resolver address with
  | none => ⟨.user, categories.user, address, none, none, some unknownLabel⟩
  | some (offset, library) =>
    ⟨.user, library.category.getD categories.user, address, some library, some offset,
      library.symbol⟩

/-- A kernel frame. -/
def kernelFrame (categories : FrameCategories) (resolver : Resolver) (address : Int) : Frame :=
  match resolver address with
  | none => ⟨.kernel, categories.kernel, address, none, none, some unknownLabel⟩
  | some (offset, library) =>
    ⟨.kernel, categories.kernel, address, some library, some offset, library.symbol⟩

/-- The frame that a raw frame is found to be. -/
def frame (categories : FrameCategories) (resolver : Resolver) : RawFrame → Frame
  | .user address => categories.userFrame resolver address
  | .kernel address => categories.kernelFrame resolver address
  | .label text => .ofLabel categories.user text

/-- The frames of a stack, with a label in front of the leaf if one is given. -/
def stack (categories : FrameCategories) (resolver : Resolver) (label : Option String)
    (raw : List RawFrame) : List Frame :=
  (label.map (Frame.ofLabel categories.user)).toList ++ raw.map (categories.frame resolver)

end FrameCategories

/-- The greatest number of frames of a stack. -/
structure DepthLimit where
  /-- The number of frames. -/
  depth : Nat
  /-- The label for the rest needs a place. -/
  positive : 1 ≤ depth

namespace DepthLimit

/-- The usual limit. -/
def standard : DepthLimit := ⟨1024, by decide⟩

/-- The limit with the given depth, the usual one if none is given. -/
def ofDepth : Option Int → Except Fault DepthLimit
  | none => .ok standard
  | some depth =>
    if h : 0 < depth then .ok ⟨depth.toNat, Int.pos_iff_toNat_pos.1 h⟩
    else .error (Refusal.depthBelowOne depth)

/-- A stack is deeper than the limit. -/
def truncates (limit : DepthLimit) (frames : List Frame) : Bool := limit.depth < frames.length

/-- A stack within the limit; the label for the rest has the given category. -/
def apply (limit : DepthLimit) (category : Int) (frames : List Frame) : List Frame :=
  if limit.truncates frames then
    frames.take (limit.depth - 1) ++ [.ofLabel category truncationLabel]
  else frames

end DepthLimit

end TraceProfile
