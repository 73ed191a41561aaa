import TraceProfile.Proofs.Catalogue
import TraceProfile.Stack.Store

/-!
# Interned stacks

The id of an interned stack leads back to its frames, and does so in every later state of the
store: nodes never move, and a node is younger than its parent, so that the walk to the root
ends.
-/

namespace TraceProfile.StackStore

variable {s s' : StackStore}

/-- Every node is younger than its parent. -/
def ParentsOlder (s : StackStore) : Prop :=
  ∀ node frame parent, s.get? node = some ⟨frame, some parent⟩ → parent < node

/-- The frames are those on the walk from the node of an id to the root. -/
def Holds (s : StackStore) : Option Nat → List RawFrame → Prop
  | none, [] => True
  | some node, frame :: rest => ∃ parent, s.get? node = some ⟨frame, parent⟩ ∧ s.Holds parent rest
  | _, _ => False

/-- The store after a list of stacks has been interned. -/
def internAll (s : StackStore) (interned : List (List RawFrame)) : StackStore :=
  interned.foldl (fun s frames => (s.intern frames).2) s

/-- The id is what the frames were given when their turn came among the stacks, which went into a
store that was empty. -/
def Given (interned : List (List RawFrame)) (id : Option Nat) (frames : List RawFrame) : Prop :=
  ∃ before after, interned = before ++ frames :: after ∧
    id = ((internAll .empty before).intern frames).1

/-- A held stack is held under the same id in an extended store. -/
theorem Holds.mono {id : Option Nat} {frames : List RawFrame} (hextends : s.Extends s')
    (h : s.Holds id frames) : s'.Holds id frames := by
  induction frames generalizing id with
  | nil =>
    cases id with
    | none => trivial
    | some node => exact h.elim
  | cons frame rest ih =>
    cases id with
    | none => exact h.elim
    | some node =>
      obtain ⟨parent, hnode, hrest⟩ := h
      exact ⟨parent, hextends.get? hnode, ih hrest⟩

/-- A held stack is what the walk from its id collects. -/
theorem Holds.frames_eq {id : Option Nat} {frames : List RawFrame} (hs : s.ParentsOlder)
    (h : s.Holds id frames) : s.frames id = .ok frames := by
  induction frames generalizing id with
  | nil =>
    cases id with
    | none => rfl
    | some node => exact h.elim
  | cons frame rest ih =>
    cases id with
    | none => exact h.elim
    | some node =>
      obtain ⟨parent, hnode, hrest⟩ := h
      have hwalk := ih hrest
      rw [StackStore.frames, framesFrom, hnode]
      cases parent with
      | none =>
        cases hwalk
        rfl
      | some parent =>
        rw [StackStore.frames] at hwalk
        simp only [dif_pos (hs node frame parent hnode), hwalk]
        rfl

/-- A node that holds a stack is in the store. -/
theorem Holds.lt_size {node : Nat} {frames : List RawFrame} (h : s.Holds (some node) frames) :
    node < s.size := by
  cases frames with
  | nil => exact h.elim
  | cons frame rest =>
    obtain ⟨parent, hnode, -⟩ := h
    exact (List.getElem?_eq_some_iff.mp hnode).1

/-- A node whose parent is in the store may join it. -/
theorem ParentsOlder.ensure (hs : s.ParentsOlder) {frame : RawFrame} {parent : Option Nat}
    (hparent : ∀ node, parent = some node → node < s.size) :
    ParentsOlder (s.ensure ⟨frame, parent⟩).2 := by
  intro node frame' parent' hnode
  unfold Catalogue.ensure at hnode
  split at hnode
  · exact hs node frame' parent' hnode
  · by_cases hlt : node < s.entries.length
    · rw [Catalogue.get?, List.getElem?_append_left hlt] at hnode
      exact hs node frame' parent' hnode
    · rw [Catalogue.get?, List.getElem?_append_right (by omega)] at hnode
      obtain ⟨hzero, hentry⟩ := List.getElem?_eq_some_iff.mp hnode
      rw [List.getElem_singleton] at hentry
      cases hentry
      have := hparent parent' rfl
      unfold Catalogue.size at this
      omega

/-- Interning keeps what is in the store and adds the frames under the id that it returns. -/
theorem intern_spec (hs : s.ParentsOlder) (frames : List RawFrame) :
    s.Extends (s.intern frames).2 ∧ (s.intern frames).2.ParentsOlder ∧
      (s.intern frames).2.Holds (s.intern frames).1 frames := by
  induction frames with
  | nil => exact ⟨.refl s, hs, trivial⟩
  | cons frame rest ih =>
    obtain ⟨hextends, holder, hrest⟩ := ih
    have hensure := Catalogue.extends_ensure (⟨frame, (s.intern rest).1⟩ : StackNode)
      (s.intern rest).2
    refine ⟨hextends.trans hensure, holder.ensure fun node hnode => ?_, (s.intern rest).1,
      Catalogue.get?_ensure_id _ _, hrest.mono hensure⟩
    rw [hnode] at hrest
    exact hrest.lt_size

/-- Interning stacks extends the store and keeps parents older than their children. -/
theorem internAll_spec (hs : s.ParentsOlder) (interned : List (List RawFrame)) :
    s.Extends (s.internAll interned) ∧ (s.internAll interned).ParentsOlder := by
  induction interned generalizing s with
  | nil => exact ⟨.refl s, hs⟩
  | cons frames rest ih =>
    obtain ⟨hextends, holder, -⟩ := intern_spec hs frames
    obtain ⟨hextends', holder'⟩ := ih holder
    exact ⟨hextends.trans hextends', holder'⟩

/-- In the empty store there is no node with a parent. -/
theorem parentsOlder_empty : ParentsOlder .empty :=
  fun _ _ _ hnode => by cases hnode

/-- A stack is held under the id that it was given, whatever was interned since. -/
theorem Given.holds {interned : List (List RawFrame)} {id : Option Nat} {frames : List RawFrame}
    (h : Given interned id frames) : (internAll .empty interned).Holds id frames := by
  obtain ⟨before, after, rfl, rfl⟩ := h
  obtain ⟨-, hbefore⟩ := internAll_spec parentsOlder_empty before
  obtain ⟨-, holder, hholds⟩ := intern_spec hbefore frames
  obtain ⟨hextends, -⟩ := internAll_spec holder after
  have hstore : internAll .empty (before ++ frames :: after) =
      ((internAll .empty before).intern frames).2.internAll after := by
    rw [internAll, List.foldl_append, List.foldl_cons]
    rfl
  rw [hstore]
  exact hholds.mono hextends

/-- An id leads back to the frames that it was given for, whatever was interned since. -/
theorem Given.frames_eq {interned : List (List RawFrame)} {id : Option Nat}
    {frames : List RawFrame} (h : Given interned id frames) :
    (internAll .empty interned).frames id = .ok frames :=
  h.holds.frames_eq (internAll_spec parentsOlder_empty interned).2

end TraceProfile.StackStore
