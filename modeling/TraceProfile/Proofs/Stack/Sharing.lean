import Mathlib.Data.Finset.Card
import TraceProfile.Proofs.Stack.Interning

/-!
# Sharing in the stack store

Stacks share the nodes of the frames that they have in common towards the root. A store that
started empty has exactly one node for every segment that leads from a frame of an interned stack
to the root, so that equal stacks, and no others, have the same id.
-/

namespace TraceProfile.StackStore

variable {s s' : StackStore}

/-- The segments of stacks that lead from some frame to the root. -/
def segments (interned : List (List RawFrame)) : Finset (List RawFrame) :=
  (interned.flatMap List.tails).toFinset.erase []

/-- The store after the first stacks of a list, as many as the given number, have been interned. -/
def after (interned : List (List RawFrame)) (n : Nat) : StackStore :=
  internAll .empty (interned.take n)

/-- The id that the stack at a place of a list gets when its turn comes. -/
def idOf (interned : List (List RawFrame)) (i : Fin interned.length) : Option Nat :=
  ((after interned i).intern interned[i]).1

/-- A segment is a part of a stack up to the root, and is not empty. -/
theorem mem_segments_iff {interned : List (List RawFrame)} {segment : List RawFrame} :
    segment ∈ segments interned ↔ segment ≠ [] ∧ ∃ frames ∈ interned, segment <:+ frames := by
  simp [segments, List.mem_tails]

/-- A node has one stack. -/
theorem Holds.eq_frames {id : Option Nat} {frames frames' : List RawFrame} (h : s.Holds id frames)
    (h' : s.Holds id frames') : frames = frames' := by
  induction frames generalizing id frames' with
  | nil =>
    cases id with
    | none =>
      cases frames' with
      | nil => rfl
      | cons frame rest => exact h'.elim
    | some node => exact h.elim
  | cons frame rest ih =>
    cases id with
    | none => exact h.elim
    | some node =>
      cases frames' with
      | nil => exact h'.elim
      | cons frame' rest' =>
        obtain ⟨parent, hnode, hrest⟩ := h
        obtain ⟨parent', hnode', hrest'⟩ := h'
        cases hnode.symm.trans hnode'
        rw [ih hrest hrest']

/-- The root-side segments of a held stack are held. -/
theorem Holds.suffix {id : Option Nat} {frames segment : List RawFrame} (h : s.Holds id frames)
    (hsegment : segment <:+ frames) : ∃ id', s.Holds id' segment := by
  induction frames generalizing id with
  | nil =>
    rw [List.suffix_nil.mp hsegment]
    exact ⟨id, h⟩
  | cons frame rest ih =>
    rcases List.suffix_cons_iff.mp hsegment with rfl | hsuffix
    · exact ⟨id, h⟩
    · cases id with
      | none => exact h.elim
      | some node =>
        obtain ⟨parent, -, hrest⟩ := h
        exact ih hrest hsuffix

/-- A stack of an old node was held already before the store grew. -/
theorem Holds.of_extends (hextends : s.Extends s') (hs' : s'.ParentsOlder) {node : Nat}
    {frames : List RawFrame} (h : s'.Holds (some node) frames) (hnode : node < s.size) :
    s.Holds (some node) frames := by
  induction frames generalizing node with
  | nil => exact h.elim
  | cons frame rest ih =>
    obtain ⟨parent, hentry, hrest⟩ := h
    have hold : s.get? node = some ⟨frame, parent⟩ := by
      have hsome : s.get? node = some s.entries[node] := List.getElem?_eq_getElem hnode
      exact hsome.trans ((hextends.get? hsome).symm.trans hentry)
    refine ⟨parent, hold, ?_⟩
    cases parent with
    | none => cases rest with
      | nil => trivial
      | cons next rest => exact hrest.elim
    | some parent => exact ih hrest ((hs' node frame parent hentry).trans hnode)

/-- Parents are older, so every node stands for a stack. -/
theorem ParentsOlder.exists_holds (hs : s.ParentsOlder) {node : Nat} (hnode : node < s.size) :
    ∃ frames, s.Holds (some node) frames := by
  induction node using Nat.strong_induction_on with
  | _ node ih =>
    have hentry : s.get? node = some s.entries[node] := List.getElem?_eq_getElem hnode
    rcases hparent : s.entries[node] with ⟨frame, _ | parent⟩
    · exact ⟨[frame], none, hentry.trans (congrArg some hparent), trivial⟩
    · rw [hparent] at hentry
      have holder := hs node frame parent hentry
      obtain ⟨rest, hrest⟩ := ih parent holder (holder.trans hnode)
      exact ⟨frame :: rest, some parent, hentry, hrest⟩

/-- In a store without equal nodes, interning a stack that is held adds nothing. -/
theorem intern_of_holds (hs : s.Distinct) {id : Option Nat} {frames : List RawFrame}
    (h : s.Holds id frames) : s.intern frames = (id, s) := by
  induction frames generalizing id with
  | nil =>
    cases id with
    | none => rfl
    | some node => exact h.elim
  | cons frame rest ih =>
    cases id with
    | none => exact h.elim
    | some node =>
      obtain ⟨parent, hnode, hrest⟩ := h
      have hfound : s.find? (⟨frame, parent⟩ : StackNode) = some node := hs.find?_eq hnode
      rw [intern, ih hrest]
      dsimp only
      rw [Catalogue.ensure_of_find? hfound]

/-- In a store without equal nodes, a stack has one node. -/
theorem Holds.eq_id (hs : s.Distinct) {id id' : Option Nat} {frames : List RawFrame}
    (h : s.Holds id frames) (h' : s.Holds id' frames) : id = id' :=
  congrArg Prod.fst ((intern_of_holds hs h).symm.trans (intern_of_holds hs h'))

/-- Interning a stack stores no node twice. -/
theorem distinct_intern (hs : s.Distinct) (frames : List RawFrame) :
    (s.intern frames).2.Distinct := by
  induction frames with
  | nil => exact hs
  | cons frame rest ih => exact ih.ensure _

/-- Nor does interning several stacks. -/
theorem distinct_internAll (hs : s.Distinct) (interned : List (List RawFrame)) :
    (s.internAll interned).Distinct := by
  induction interned generalizing s with
  | nil => exact hs
  | cons frames rest ih => exact ih (distinct_intern hs frames)

/-- Interning a stack adds the segments of this stack and no others. -/
theorem exists_holds_intern_iff (hs : s.ParentsOlder) {frames segment : List RawFrame} :
    (∃ id, (s.intern frames).2.Holds id segment) ↔
      (∃ id, s.Holds id segment) ∨ segment <:+ frames := by
  constructor
  · rintro ⟨id, hid⟩
    induction frames generalizing id with
    | nil => exact .inl ⟨id, hid⟩
    | cons frame rest ih =>
      obtain ⟨-, holder, hrest⟩ := intern_spec hs rest
      obtain ⟨-, holder', hframes⟩ := intern_spec hs (frame :: rest)
      have hensure := Catalogue.extends_ensure (⟨frame, (s.intern rest).1⟩ : StackNode)
        (s.intern rest).2
      cases id with
      | none =>
        cases segment with
        | nil => exact .inr List.nil_suffix
        | cons first others => exact hid.elim
      | some node =>
        by_cases hnode : node < (s.intern rest).2.size
        · rcases ih (some node) (hid.of_extends hensure holder' hnode) with hold | hsuffix
          · exact .inl hold
          · exact .inr (List.suffix_cons_iff.mpr (.inr hsuffix))
        · -- the node is the new one, which stands for the whole stack
          cases segment with
          | nil => exact hid.elim
          | cons first others =>
            obtain ⟨parent, hentry, hothers⟩ := hid
            cases Catalogue.eq_of_get?_ensure hentry (Nat.le_of_not_lt hnode)
            rw [hothers.eq_frames (hrest.mono hensure)]
            exact .inr List.suffix_rfl
  · obtain ⟨hextends, -, hframes⟩ := intern_spec hs frames
    rintro (⟨id, hid⟩ | hsuffix)
    · exact ⟨id, hid.mono hextends⟩
    · exact hframes.suffix hsuffix

/-- Interning stacks adds their segments and no others. -/
theorem exists_holds_internAll_iff (hs : s.ParentsOlder) {interned : List (List RawFrame)}
    {segment : List RawFrame} :
    (∃ id, (s.internAll interned).Holds id segment) ↔
      (∃ id, s.Holds id segment) ∨ ∃ frames ∈ interned, segment <:+ frames := by
  induction interned generalizing s with
  | nil => simp [internAll]
  | cons frames rest ih =>
    obtain ⟨-, holder, -⟩ := intern_spec hs frames
    have hrest := ih holder
    rw [exists_holds_intern_iff hs] at hrest
    rw [internAll, List.foldl_cons, ← internAll, hrest]
    simp only [List.mem_cons, exists_eq_or_imp, or_assoc]

/-- Nodes and the segments that they stand for correspond one to one. -/
theorem size_eq_card (hs : s.ParentsOlder) (hdistinct : s.Distinct)
    {held : Finset (List RawFrame)}
    (hheld : ∀ segment, segment ∈ held ↔ segment ≠ [] ∧ ∃ id, s.Holds id segment) :
    s.size = held.card := by
  have hstack {node : Nat} {frames : List RawFrame} (h : s.Holds (some node) frames) :
      (s.frames (some node)).toOption.getD [] = frames := by
    rw [h.frames_eq hs]
    rfl
  have hnonempty {node : Nat} {frames : List RawFrame} (h : s.Holds (some node) frames) :
      frames ≠ [] := by
    rintro rfl
    exact h.elim
  rw [← Finset.card_range s.size]
  refine Finset.card_bij (fun node _ => (s.frames (some node)).toOption.getD []) ?_ ?_ ?_
  · intro node hnode
    obtain ⟨frames, hframes⟩ := hs.exists_holds (Finset.mem_range.mp hnode)
    rw [hstack hframes]
    exact (hheld frames).mpr ⟨hnonempty hframes, some node, hframes⟩
  · intro node hnode node' hnode' heq
    obtain ⟨frames, hframes⟩ := hs.exists_holds (Finset.mem_range.mp hnode)
    obtain ⟨frames', hframes'⟩ := hs.exists_holds (Finset.mem_range.mp hnode')
    rw [hstack hframes, hstack hframes'] at heq
    rw [heq] at hframes
    exact Option.some.inj (hframes.eq_id hdistinct hframes')
  · intro segment hsegment
    obtain ⟨hne, id, hid⟩ := (hheld segment).mp hsegment
    cases id with
    | none =>
      cases segment with
      | nil => exact absurd rfl hne
      | cons frame rest => exact hid.elim
    | some node => exact ⟨node, Finset.mem_range.mpr hid.lt_size, hstack hid⟩

/-- The empty store holds the empty stack only. -/
theorem holds_empty_iff {segment : List RawFrame} :
    (∃ id, Holds .empty id segment) ↔ segment = [] := by
  constructor
  · rintro ⟨id, hid⟩
    cases id with
    | none =>
      cases segment with
      | nil => rfl
      | cons frame rest => exact hid.elim
    | some node => exact absurd hid.lt_size (Nat.not_lt_zero node)
  · rintro rfl
    exact ⟨none, trivial⟩

/-- A stack is held under its id from its turn on. -/
theorem holds_idOf {interned : List (List RawFrame)} (i : Fin interned.length) {n : Nat}
    (hin : i < n) : (after interned n).Holds (idOf interned i) interned[i] := by
  have hi : i < (interned.take n).length := by
    rw [List.length_take]
    exact Nat.lt_min.mpr ⟨hin, i.isLt⟩
  refine Given.holds ⟨interned.take i, (interned.take n).drop (i + 1), ?_, rfl⟩
  have hsplit := List.take_append_drop i (interned.take n)
  rw [List.drop_eq_getElem_cons hi, List.getElem_take, List.take_take,
    Nat.min_eq_left (Nat.le_of_lt hin)] at hsplit
  exact hsplit.symm

/-- Interning stacks one after the other loses nothing and stores nothing twice. An id leads back
to its stack from its turn on, when interning the stack again changes nothing; ids are equal if
and only if the stacks are, and only the empty stack has none. There is one node for each
segment that leads from a frame to the root. Parents are older than their children, so that the
walk from any node ends. -/
theorem intern_round_trip (interned : List (List RawFrame)) :
    (∀ (i : Fin interned.length) (n : Nat), i < n →
      (after interned n).frames (idOf interned i) = .ok interned[i] ∧
        (after interned n).intern interned[i] = (idOf interned i, after interned n)) ∧
    (∀ i j : Fin interned.length,
      idOf interned i = idOf interned j ↔ interned[i] = interned[j]) ∧
    (∀ i : Fin interned.length, idOf interned i = none ↔ interned[i] = []) ∧
    (∀ n, (after interned n).size = (segments (interned.take n)).card) ∧
    ∀ n, (after interned n).ParentsOlder ∧
      ∀ id, (∀ node ∈ id, node < (after interned n).size) →
        ∃ frames, (after interned n).frames id = .ok frames := by
  have holder (n : Nat) : (after interned n).ParentsOlder :=
    (internAll_spec parentsOlder_empty _).2
  have hdistinct (n : Nat) : (after interned n).Distinct :=
    distinct_internAll Catalogue.distinct_empty _
  have hlast (i : Fin interned.length) :
      (after interned interned.length).Holds (idOf interned i) interned[i] :=
    holds_idOf i i.isLt
  have hempty : (after interned interned.length).Holds none [] := trivial
  refine ⟨fun i n hin => ?_, fun i j => ?_, fun i => ?_, fun n => ?_, fun n => ⟨holder n, ?_⟩⟩
  · have hheld := holds_idOf i hin
    exact ⟨hheld.frames_eq (holder n), intern_of_holds (hdistinct n) hheld⟩
  · constructor
    · intro hid
      have hj := hlast j
      rw [← hid] at hj
      exact (hlast i).eq_frames hj
    · intro hframes
      have hj := hlast j
      rw [← hframes] at hj
      exact (hlast i).eq_id (hdistinct _) hj
  · constructor
    · intro hid
      have hi := hlast i
      rw [hid] at hi
      exact hi.eq_frames hempty
    · intro hframes
      have hi := hlast i
      rw [hframes] at hi
      exact hi.eq_id (hdistinct _) hempty
  · refine size_eq_card (holder n) (hdistinct n) fun segment => ?_
    rw [mem_segments_iff, after, exists_holds_internAll_iff parentsOlder_empty, holds_empty_iff]
    exact and_congr_right fun hne => (or_iff_right hne).symm
  · intro id hid
    cases id with
    | none => exact ⟨[], rfl⟩
    | some node =>
      obtain ⟨frames, hframes⟩ := (holder n).exists_holds (hid node rfl)
      exact ⟨frames, hframes.frames_eq (holder n)⟩

/-- Three stacks, of which the last two share a segment with the first. -/
def sharingStacks : List (List RawFrame) :=
  [[.user 2, .user 1], [.kernel 3, .user 1], [.user 1]]

/-- The round trip for stacks that share a segment, with one node for each segment. -/
theorem intern_round_trip_of_shared_segment :
    (after sharingStacks 3).frames (idOf sharingStacks ⟨1, by decide⟩) =
        .ok [.kernel 3, .user 1] ∧
      (after sharingStacks 3).size = (segments sharingStacks).card :=
  ⟨((intern_round_trip sharingStacks).1 ⟨1, by decide⟩ 3 (by decide)).1,
    (intern_round_trip sharingStacks).2.2.2.1 3⟩

/-- Five segments of three stacks have three nodes, since two of the segments come again. -/
example : (segments sharingStacks).card = 3 := by decide

end TraceProfile.StackStore
