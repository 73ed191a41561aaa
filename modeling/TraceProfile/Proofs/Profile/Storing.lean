import TraceProfile.Profile.Document
import TraceProfile.Profile.Edit
import TraceProfile.Proofs.Catalogue.Filling
import TraceProfile.Proofs.Fault

/-!
# Stored stacks and their texts

A stack is stored with handles in the place of its texts. Edits leave every text at its handle,
so a stack that is read back, at once or after later edits, is the one that was stored.
-/

namespace TraceProfile

/-- A frame as a reader of a profile sees it, with texts in the place of their handles. -/
structure ShownFrame where
  /-- Where it runs. -/
  kind : FrameKind
  /-- The handle of its category. -/
  category : Int
  /-- Its address. -/
  address : Int
  /-- The name of its library. -/
  library : Option String
  /-- The address relative to the library. -/
  offset : Option Int
  /-- Its label. -/
  label : Option String
  deriving DecidableEq, Repr

/-- A sample as a reader of a profile sees it. -/
structure ShownSample where
  /-- The time. -/
  time : Int
  /-- The stack, leaf first. -/
  frames : List ShownFrame
  /-- The processor time since the sample before. -/
  delta : Int
  /-- The weight. -/
  weight : Int
  deriving DecidableEq, Repr

/-- What a reader is to see of a frame. -/
def Frame.shown (frame : Frame) : ShownFrame :=
  ⟨frame.kind, frame.category, frame.address, frame.library.map (·.name), frame.offset, frame.label⟩

/-- The texts of a frame: the name of its library, and its label. -/
def Frame.texts (frame : Frame) : List String :=
  frame.library.toList.map (·.name) ++ frame.label.toList

namespace Profile

/-- A stored frame is read back. -/
def showFrame (p : Profile) (frame : StoredFrame) : Except Fault ShownFrame := do
  let library ← p.getOptional frame.library
  let label ← p.getOptional frame.label
  pure ⟨frame.kind, frame.category, frame.address, library, frame.offset, label⟩

/-- A stored sample is read back. -/
def showSample (p : Profile) (sample : StoredSample) : Except Fault ShownSample := do
  let frames ← sample.frames.mapM p.showFrame
  pure ⟨sample.time, frames, sample.delta, sample.weight⟩

variable {p p' p'' : Profile}

/-- A handle denotes a text if and only if the table of texts has it there. -/
theorem getString_eq_ok_iff {handle : Nat} {text : String} :
    p.getString handle = .ok text ↔ p.strings.get? handle = some text := by
  rw [getString, PayloadBody.entry, Catalogue.get?]
  cases p.strings.entries[handle]? with
  | none => simp
  | some found => simp

/-- The tables of the one profile begin with those of the other, so a handle denotes the same in
both. -/
structure Extends (p p' : Profile) : Prop where
  /-- Texts. -/
  strings : p.strings.Extends p'.strings
  /-- Categories. -/
  categories : p.categories.Extends p'.categories
  /-- Schemas. -/
  schemas : p.schemas.Extends p'.schemas

/-- A profile may be extended more than once. -/
theorem Extends.trans (h : p.Extends p') (h' : p'.Extends p'') : p.Extends p'' :=
  ⟨h.strings.trans h'.strings, h.categories.trans h'.categories, h.schemas.trans h'.schemas⟩

/-- A handle denotes the same text in an extended profile. -/
theorem Extends.getString (h : p.Extends p') {handle : Nat} {text : String}
    (htext : p.getString handle = .ok text) : p'.getString handle = .ok text :=
  getString_eq_ok_iff.mpr (h.strings.get? (getString_eq_ok_iff.mp htext))

/-- So does a handle that there may be none of. -/
theorem getOptional_mono (h : p.strings.Extends p'.strings) {handle : Option Nat}
    {text : Option String} (htext : p.getOptional handle = .ok text) :
    p'.getOptional handle = .ok text := by
  cases handle with
  | none => exact htext
  | some handle =>
    cases hstring : p.getString handle with
    | error fault =>
      rw [getOptional, hstring] at htext
      cases htext
    | ok found =>
      rw [getOptional, hstring] at htext
      rw [getOptional, getString_eq_ok_iff.mpr (h.get? (getString_eq_ok_iff.mp hstring))]
      exact htext

/-- A frame is read back if and only if its texts are. -/
theorem showFrame_eq_ok_iff {frame : StoredFrame} {shown : ShownFrame} :
    p.showFrame frame = .ok shown ↔
      ∃ library label, p.getOptional frame.library = .ok library ∧
        p.getOptional frame.label = .ok label ∧
        shown = ⟨frame.kind, frame.category, frame.address, library, frame.offset, label⟩ := by
  simp only [showFrame, bind_eq_ok_iff, pure, Except.pure, Except.ok.injEq, @eq_comm _ _ shown,
    exists_and_left]

/-- A frame that can be read is read alike when more texts have come in. -/
theorem showFrame_mono (h : p.strings.Extends p'.strings) {frame : StoredFrame}
    {shown : ShownFrame} (hshown : p.showFrame frame = .ok shown) :
    p'.showFrame frame = .ok shown := by
  obtain ⟨library, label, hlibrary, hlabel, rfl⟩ := showFrame_eq_ok_iff.mp hshown
  exact showFrame_eq_ok_iff.mpr
    ⟨library, label, getOptional_mono h hlibrary, getOptional_mono h hlabel, rfl⟩

/-- Frames are read back alike when there are more texts. -/
theorem showFrames_mono (h : p.strings.Extends p'.strings) {frames : List StoredFrame}
    {shown : List ShownFrame} (hshown : frames.mapM p.showFrame = .ok shown) :
    frames.mapM p'.showFrame = .ok shown :=
  mapM_eq_ok_iff.mpr ((mapM_eq_ok_iff.mp hshown).imp fun _ _ => showFrame_mono h)

/-- A sample is read back if and only if its frames are. -/
theorem showSample_eq_ok_iff {sample : StoredSample} {shown : ShownSample} :
    p.showSample sample = .ok shown ↔
      ∃ frames, sample.frames.mapM p.showFrame = .ok frames ∧
        shown = ⟨sample.time, frames, sample.delta, sample.weight⟩ := by
  simp only [showSample, bind_eq_ok_iff, pure, Except.pure, Except.ok.injEq, @eq_comm _ _ shown]

/-- A sample is read back alike when there are more texts. -/
theorem showSample_mono (h : p.strings.Extends p'.strings) {sample : StoredSample}
    {shown : ShownSample} (hshown : p.showSample sample = .ok shown) :
    p'.showSample sample = .ok shown := by
  obtain ⟨frames, hframes, rfl⟩ := showSample_eq_ok_iff.mp hshown
  exact showSample_eq_ok_iff.mpr ⟨frames, showFrames_mono h hframes, rfl⟩

end Profile

namespace Edit

variable {α β : Type} {p p' : Profile}

/-- An edit goes on from where the one before it ended, unless that ended in a fault. -/
theorem runOn_bind (edit : Edit α) (next : α → Edit β) (p : Profile) :
    (edit >>= next).runOn p =
      match edit.runOn p with
      | (.ok a, p') => (next a).runOn p'
      | (.error f, p') => (.error f, p') := by
  rw [runOn, ExceptT.run_bind, StateT.run_bind]
  rcases h : (ExceptT.run edit).run p with ⟨f | a, p'⟩
  · rw [runOn, h]
    rfl
  · rw [runOn, h]
    rfl

/-- After an edit that succeeds, the next one runs on what it leaves. -/
theorem runOn_bind_ok {edit : Edit α} {next : α → Edit β} {a : α}
    (h : edit.runOn p = (.ok a, p')) : (edit >>= next).runOn p = (next a).runOn p' := by
  rw [runOn_bind, h]

/-- An edit may look at the profile. -/
theorem runOn_get_bind (next : Profile → Edit β) : (get >>= next).runOn p = (next p).runOn p :=
  runOn_bind_ok rfl

/-- A mapped result leaves the profile as the edit does. -/
theorem runOn_map {edit : Edit α} {result : Except Fault α} (f : α → β)
    (h : edit.runOn p = (result, p')) : (f <$> edit).runOn p = (result.map f, p') := by
  change (edit >>= fun a => pure (f a)).runOn p = _
  rw [runOn_bind, h]
  cases result <;> rfl

/-- A text is found under the handle that it gets. -/
theorem internString_spec (text : String) (p : Profile) :
    ∃ handle strings, p.strings.Extends strings ∧
      (internString text).runOn p = (.ok handle, { p with strings }) ∧
      strings.get? handle = some text :=
  ⟨(p.strings.ensure text).1, (p.strings.ensure text).2, Catalogue.extends_ensure text p.strings,
    rfl, Catalogue.get?_ensure_id text p.strings⟩

/-- An optional text is found under the handle that it gets. -/
theorem internOptional_spec (text : Option String) (p : Profile) :
    ∃ handle, (internOptional text).runOn p =
        (.ok handle, { p with strings := p.strings.ensureAll text.toList }) ∧
      Profile.getOptional { p with strings := p.strings.ensureAll text.toList } handle =
        .ok text := by
  cases text with
  | none => exact ⟨none, rfl, rfl⟩
  | some text =>
    have hget := Catalogue.get?_ensure_id text p.strings
    refine ⟨some (p.strings.ensure text).1, rfl, ?_⟩
    have hstring : Profile.getString { p with strings := (p.strings.ensure text).2 }
        (p.strings.ensure text).1 = .ok text := Profile.getString_eq_ok_iff.mpr hget
    rw [Profile.getOptional, Option.toList_some, Catalogue.ensureAll_cons,
      Catalogue.ensureAll_nil, hstring]
    rfl

/-- A frame whose texts got handles is read back as it was. -/
theorem internFrame_spec (frame : Frame) (p : Profile) :
    ∃ stored, (internFrame frame).runOn p =
        (.ok stored, { p with strings := p.strings.ensureAll frame.texts }) ∧
      Profile.showFrame { p with strings := p.strings.ensureAll frame.texts } stored =
        .ok frame.shown := by
  have htexts : frame.texts = (frame.library.map (·.name)).toList ++ frame.label.toList := by
    rw [Frame.texts, Option.toList_map]
  rw [htexts, Catalogue.ensureAll_append]
  obtain ⟨library, hlibrary, hshown⟩ := internOptional_spec (frame.library.map (·.name)) p
  generalize p.strings.ensureAll (frame.library.map (·.name)).toList = strings at *
  obtain ⟨label, hlabel, hshown'⟩ := internOptional_spec frame.label { p with strings }
  have hextends := Catalogue.extends_ensureAll frame.label.toList strings
  refine ⟨⟨frame.kind, frame.category, frame.address, library, frame.offset, label⟩, ?_, ?_⟩
  · rw [internFrame, runOn_bind_ok hlibrary, runOn_bind_ok hlabel]
    rfl
  · exact Profile.showFrame_eq_ok_iff.mpr
      ⟨_, _, Profile.getOptional_mono hextends hshown, hshown', rfl⟩

/-- A stack whose texts got handles is read back as it was. -/
theorem internFrames_spec (frames : List Frame) (p : Profile) :
    ∃ stored, (frames.mapM internFrame).runOn p =
        (.ok stored, { p with strings := p.strings.ensureAll (frames.flatMap Frame.texts) }) ∧
      stored.mapM (Profile.showFrame
        { p with strings := p.strings.ensureAll (frames.flatMap Frame.texts) }) =
          .ok (frames.map Frame.shown) := by
  induction frames generalizing p with
  | nil => exact ⟨[], rfl, rfl⟩
  | cons frame rest ih =>
    rw [List.flatMap_cons, Catalogue.ensureAll_append]
    obtain ⟨first, hfirst, hshown⟩ := internFrame_spec frame p
    generalize p.strings.ensureAll frame.texts = strings at *
    obtain ⟨others, hothers, hshown'⟩ := ih { p with strings }
    have hextends := Catalogue.extends_ensureAll (rest.flatMap Frame.texts) strings
    refine ⟨first :: others, ?_, ?_⟩
    · rw [List.mapM_cons, runOn_bind_ok hfirst, runOn_bind_ok hothers]
      rfl
    · rw [mapM_eq_ok_iff, List.map_cons]
      exact .cons (Profile.showFrame_mono hextends hshown) (mapM_eq_ok_iff.mp hshown')

/-- A thread that the profile has is changed, and nothing else is. -/
theorem runOn_changeThread {thread : Nat} {t : Thread} (h : p.threads[thread]? = some t)
    (change : Thread → Thread) :
    (changeThread thread change).runOn p =
      (.ok (), { p with threads := p.threads.set thread (change t) }) := by
  rw [changeThread, runOn_get_bind, h]
  rfl

/-- A sample comes last in its thread, and its stack is read back as it was. -/
theorem addSample_spec {thread : Nat} {t : Thread} (h : p.threads[thread]? = some t) (time : Int)
    (frames : List Frame) (delta weight : Int) :
    ∃ stored strings, p.strings.Extends strings ∧
      (addSample thread time frames delta weight).runOn p =
        (.ok (), { p with
          strings
          threads := p.threads.set thread
            { t with samples := t.samples ++ [⟨time, stored, delta, weight⟩] } }) ∧
      stored.mapM (Profile.showFrame { p with strings }) = .ok (frames.map Frame.shown) := by
  obtain ⟨stored, hstored, hshown⟩ := internFrames_spec frames p
  have hextends := Catalogue.extends_ensureAll (frames.flatMap Frame.texts) p.strings
  generalize p.strings.ensureAll (frames.flatMap Frame.texts) = strings at *
  refine ⟨stored, strings, hextends, ?_, hshown⟩
  have hthread : ({ p with strings } : Profile).threads[thread]? = some t := h
  rw [addSample, runOn_bind_ok hstored, runOn_changeThread hthread]

/-- A marker of a thread gets a stack, which is read back as it was. -/
theorem setMarkerStack_spec {thread : Nat} {t : Thread} {marker : MarkerHandle} {m : StoredMarker}
    (h : p.threads[thread]? = some t) (howner : marker.thread = thread)
    (hmarker : t.markers[marker.index]? = some m) (frames : List Frame) :
    ∃ stored strings, p.strings.Extends strings ∧
      (setMarkerStack thread marker frames).runOn p =
        (.ok (), { p with
          strings
          threads := p.threads.set thread
            { t with markers := t.markers.set marker.index { m with stack := some stored } } }) ∧
      stored.mapM (Profile.showFrame { p with strings }) = .ok (frames.map Frame.shown) := by
  obtain ⟨stored, hstored, hshown⟩ := internFrames_spec frames p
  have hextends := Catalogue.extends_ensureAll (frames.flatMap Frame.texts) p.strings
  generalize p.strings.ensureAll (frames.flatMap Frame.texts) = strings at *
  refine ⟨stored, strings, hextends, ?_, hshown⟩
  have hthread : ({ p with strings } : Profile).threads[thread]? = some t := h
  rw [setMarkerStack, if_neg (not_not_intro howner)]
  dsimp only
  rw [runOn_bind_ok hstored, runOn_get_bind, hthread]
  dsimp only
  rw [hmarker]
  rfl

end Edit

end TraceProfile
