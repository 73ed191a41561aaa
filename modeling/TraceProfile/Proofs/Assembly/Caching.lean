import TraceProfile.Proofs.Assembly.Markers
import TraceProfile.Proofs.Profile.Tables

/-!
# Flushing markers without kept handles

A flush keeps handles of categories and schemas from one marker to the next. Here is one that keeps
none of them and asks the profile afresh at every marker. The two run side by side: as long as what
is kept is what the profile would give, each step does the same to the profile and ends in the same
way. So both flushes leave the same profile with the same result, whatever the profile held before
and wherever they end.
-/

namespace TraceProfile

namespace Edit

variable {α β γ δ : Type} {p : Profile}

/-- Two edits run alike: they leave one profile, and both end in one fault or both succeed, with
results that are related there. -/
def Alike (p : Profile) (R : Profile → α → β → Prop) (edit : Edit α) (other : Edit β) : Prop :=
  ∃ p', (∃ f, edit.runOn p = (.error f, p') ∧ other.runOn p = (.error f, p')) ∨
    ∃ a b, edit.runOn p = (.ok a, p') ∧ other.runOn p = (.ok b, p') ∧ R p' a b

/-- An edit runs alike with itself. -/
theorem Alike.refl (edit : Edit α) (p : Profile) :
    Alike p (fun p' a b => a = b ∧ (edit.runOn p).2 = p') edit edit := by
  rcases hrun : edit.runOn p with ⟨f | a, p'⟩
  · exact ⟨p', .inl ⟨f, hrun, hrun⟩⟩
  · exact ⟨p', .inr ⟨a, a, hrun, hrun, rfl, rfl⟩⟩

/-- Edits that run alike may be followed by edits that do so for related results. -/
theorem Alike.bind {R : Profile → α → β → Prop} {S : Profile → γ → δ → Prop} {edit : Edit α}
    {other : Edit β} {next : α → Edit γ} {next' : β → Edit δ} (h : Alike p R edit other)
    (hnext : ∀ p' a b, R p' a b → Alike p' S (next a) (next' b)) :
    Alike p S (edit >>= next) (other >>= next') := by
  obtain ⟨p', ⟨f, hedit, hother⟩ | ⟨a, b, hedit, hother, hab⟩⟩ := h
  · refine ⟨p', .inl ⟨f, ?_, ?_⟩⟩
    · rw [runOn_bind, hedit]
    · rw [runOn_bind, hother]
  · rw [Alike, runOn_bind_ok hedit, runOn_bind_ok hother]
    exact hnext p' a b hab

/-- Categories and schemas are left as they are, whether the edit succeeds or not. -/
def KeepsNames (edit : Edit α) : Prop :=
  ∀ p, (edit.runOn p).2.categories = p.categories ∧ (edit.runOn p).2.schemas = p.schemas

/-- Storing a text leaves categories and schemas alone. -/
theorem keepsNames_internString (text : String) : (internString text).KeepsNames :=
  fun _ => ⟨rfl, rfl⟩

/-- So does storing several texts. -/
theorem keepsNames_internStrings (texts : List String) :
    (texts.mapM internString).KeepsNames := by
  intro p
  obtain ⟨handles, strings, -, hrun, -⟩ := internStrings_spec texts p
  rw [hrun]
  exact ⟨rfl, rfl⟩

/-- A result that does not depend on the profile leaves categories and schemas alone. -/
theorem keepsNames_ofExcept (result : Except Fault α) : (ofExcept result).KeepsNames :=
  fun _ => ⟨rfl, rfl⟩

/-- Adding a marker leaves categories and schemas alone, also if there is no such thread or the
payload does not fit. -/
theorem keepsNames_addMarker (thread : Nat) (timing : MarkerTiming) (payload : Payload) :
    (addMarker thread timing payload).KeepsNames := by
  intro p
  have htables := ProfileCall.tables_addMarker thread timing payload p
  rw [ProfileTables.enter_nothing rfl rfl rfl rfl, ProfileCall.edit, snd_runOn_map] at htables
  exact ⟨congrArg ProfileTables.categories htables, congrArg ProfileTables.schemas htables⟩

end Edit

/-- Making the payload of an event leaves categories and schemas alone. -/
theorem Payload.keepsNames_ofEvent (category : Int) (m : Marker) (schema : Nat)
    (values : List String) : (ofEvent category m schema values).KeepsNames := by
  intro p
  obtain ⟨message, target, extra, strings, -, hrun, -⟩ := ofEvent_spec category m schema values p
  rw [hrun]
  exact ⟨rfl, rfl⟩

/-- The payload of a span, with the profile asked for its category. -/
def Payload.ofSpanAfresh (m : Marker) (span : Span) (schema : Nat) (values : List String) :
    Edit Payload := do
  let label ← Edit.internString (span.profilerLabel.getD span.kind.name)
  let category ← Edit.addCategory span.category .green
  let message ← Edit.internString m.message
  let extra ← values.mapM Edit.internString
  pure ⟨schema, label, category, .span span.timings message extra⟩

namespace Marker

/-- A marker is stored on a thread, with the profile asked for its schema and its category. -/
def storeAfresh (m : Marker) (thread : Nat) : Edit Unit :=
  match m.span with
  | none => do
    let schema ← Edit.registerSchema (.event m.fieldNames)
    let logging ← Edit.addCategory loggingCategory .green
    let payload ← Payload.ofEvent logging m schema m.fieldValues
    let _ ← Edit.addMarker thread (.instant m.start) payload
  | some span => do
    let schema ← Edit.registerSchema (.span m.fieldNames)
    let payload ← Payload.ofSpanAfresh m span schema m.fieldValues
    let timing ← Edit.ofExcept (MarkerTiming.interval m.start span.stop)
    let _ ← Edit.addMarker thread timing payload

/-- The markers are counted and stored one after the other, and nothing but the statistics is kept
from one to the next. -/
def storeAllAfresh (statistics : Statistics) (markers : List (Nat × Marker)) : Edit Statistics :=
  markers.foldlM (fun statistics entry => do
    entry.2.storeAfresh entry.1
    pure (statistics.count entry.2)) statistics

end Marker

/-- Markers are stored one after the other, and no handle is kept. -/
def flushMarkersAfresh (markers : List (Nat × Marker)) : Edit Statistics := do
  let _ ← Edit.addCategory loggingCategory .green
  Marker.storeAllAfresh .empty markers

namespace HandleCache

variable {α γ δ : Type} {cache : HandleCache} {logging : Nat} {p : Profile}

/-- The handles that a flush keeps, that of the category of events among them, are those that the
profile would give. -/
structure Current (cache : HandleCache) (logging : Nat) (p : Profile) : Prop where
  /-- The category of events. -/
  logging : p.categories.find? loggingCategory = some logging
  /-- The handles in the cache. -/
  sound : cache.Sound p

/-- Asking the profile once more for the category of events gives the kept handle and changes
nothing. -/
theorem Current.runOn_logging (h : cache.Current logging p) :
    (Edit.addCategory loggingCategory .green).runOn p = (.ok logging, p) := by
  let category : Category := ⟨loggingCategory, .green⟩
  have hensure : p.categories.ensure category = (logging, p.categories) :=
    Catalogue.ensure_of_find? h.logging
  have hrun : (Edit.addCategory loggingCategory .green).runOn p =
      (.ok (p.categories.ensure category).1,
        { p with categories := (p.categories.ensure category).2 }) := rfl
  rw [hrun, hensure]

/-- The kept handles stay good over an edit that leaves categories and schemas alone. -/
theorem Current.of_keepsNames (h : cache.Current logging p) {edit : Edit γ}
    (hkeeps : edit.KeepsNames) : cache.Current logging (edit.runOn p).2 := by
  obtain ⟨hcategories, hschemas⟩ := hkeeps p
  refine ⟨hcategories ▸ h.logging, h.sound.mono ?_ ?_⟩
  · rw [hcategories]
    exact .refl _
  · rw [hschemas]
    exact .refl _

/-- What does not touch categories and schemas may be done on both sides. -/
theorem Current.bind_same (h : cache.Current logging p) {edit : Edit α} (hkeeps : edit.KeepsNames)
    {R : Profile → γ → δ → Prop} {next : α → Edit γ} {next' : α → Edit δ}
    (hnext : ∀ p' a, cache.Current logging p' → Edit.Alike p' R (next a) (next' a)) :
    Edit.Alike p R (edit >>= next) (edit >>= next') := by
  refine (Edit.Alike.refl edit p).bind ?_
  rintro _ a _ ⟨rfl, rfl⟩
  exact hnext _ a (h.of_keepsNames hkeeps)

/-- What was found with a cache is what the profile was asked for, and the cache is still good. -/
def Answers (logging : Nat) (p : Profile) (found : α × HandleCache) (asked : α) : Prop :=
  found.1 = asked ∧ found.2.Current logging p

/-- The category that the cache gives is the one that the profile would be asked for. -/
theorem category_alike (h : cache.Current logging p) (name : String) :
    Edit.Alike p (Answers logging) (cache.category name) (Edit.addCategory name .green) := by
  obtain ⟨cache', hrun, hsound⟩ := category_spec h.sound name
  have hlogging := (Catalogue.extends_ensure ⟨name, .green⟩ p.categories).find? h.logging
  exact ⟨_, .inr ⟨_, _, hrun, rfl, rfl, hlogging, hsound⟩⟩

/-- The schema that the cache gives is the one that the profile would be asked for. -/
theorem schema_alike (h : cache.Current logging p) (isSpan : Bool) (names : List String) :
    Edit.Alike p (Answers logging) (cache.schema isSpan names)
      (Edit.registerSchema (.ofKind isSpan names)) := by
  obtain ⟨cache', hrun, hsound⟩ := schema_spec h.sound isSpan names
  exact ⟨_, .inr ⟨_, _, hrun, rfl, rfl, h.logging, hsound⟩⟩

/-- The payload of a span is the same, with a cache and without. -/
theorem ofSpan_alike (h : cache.Current logging p) (m : Marker) (span : Span) (schema : Nat)
    (values : List String) :
    Edit.Alike p (Answers logging) (Payload.ofSpan cache m span schema values)
      (Payload.ofSpanAfresh m span schema values) := by
  refine h.bind_same (Edit.keepsNames_internString _) fun p₁ label h₁ => ?_
  refine (category_alike h₁ span.category).bind ?_
  rintro p₂ ⟨_, cache'⟩ category ⟨rfl, h₂⟩
  refine h₂.bind_same (Edit.keepsNames_internString _) fun p₃ message h₃ => ?_
  refine h₃.bind_same (Edit.keepsNames_internStrings _) fun p₄ extra h₄ => ?_
  exact ⟨p₄, .inr ⟨_, _, rfl, rfl, rfl, h₄⟩⟩

end HandleCache

namespace Marker

variable {cache : HandleCache} {logging : Nat} {p : Profile}

/-- One marker is stored in the same way, with a cache and without, and the cache stays good. -/
theorem store_alike (m : Marker) (thread : Nat) (h : cache.Current logging p) :
    Edit.Alike p (fun p' cache' _ => cache'.Current logging p') (m.store logging thread cache)
      (m.storeAfresh thread) := by
  unfold store storeAfresh
  cases m.span with
  | none =>
    refine (HandleCache.schema_alike h false m.fieldNames).bind ?_
    rintro p₁ ⟨_, cache'⟩ schema ⟨rfl, h₁⟩
    -- The profile has the category of events, so that asking for it changes nothing.
    rw [Edit.Alike, Edit.runOn_bind_ok h₁.runOn_logging]
    refine h₁.bind_same (Payload.keepsNames_ofEvent _ _ _ _) fun p₂ payload h₂ => ?_
    refine h₂.bind_same (Edit.keepsNames_addMarker _ _ _) fun p₃ _ h₃ => ?_
    exact ⟨p₃, .inr ⟨cache', (), rfl, rfl, h₃⟩⟩
  | some span =>
    refine (HandleCache.schema_alike h true m.fieldNames).bind ?_
    rintro p₁ ⟨_, cache₁⟩ schema ⟨rfl, h₁⟩
    refine (HandleCache.ofSpan_alike h₁ m span _ m.fieldValues).bind ?_
    rintro p₂ ⟨_, cache₂⟩ payload ⟨rfl, h₂⟩
    refine h₂.bind_same (Edit.keepsNames_ofExcept _) fun p₃ timing h₃ => ?_
    refine h₃.bind_same (Edit.keepsNames_addMarker _ _ _) fun p₄ _ h₄ => ?_
    exact ⟨p₄, .inr ⟨cache₂, (), rfl, rfl, h₄⟩⟩

/-- All markers are stored in the same way, with a cache and without. -/
theorem storeAll_alike (markers : List (Nat × Marker)) (statistics : Statistics)
    (h : cache.Current logging p) :
    Edit.Alike p
      (fun _ _ counted => counted = (markers.map (·.2)).foldl Statistics.count statistics)
      (storeAll logging cache markers) (storeAllAfresh statistics markers) := by
  induction markers generalizing p cache statistics with
  | nil => exact ⟨p, .inr ⟨cache, statistics, rfl, rfl, rfl⟩⟩
  | cons first rest ih =>
    have hkept : storeAll logging cache (first :: rest) =
        first.2.store logging first.1 cache >>= fun cache => storeAll logging cache rest :=
      List.foldlM_cons
    have hafresh : storeAllAfresh statistics (first :: rest) =
        first.2.storeAfresh first.1 >>= fun _ =>
          storeAllAfresh (statistics.count first.2) rest := by
      rw [storeAllAfresh, List.foldlM_cons, bind_assoc]
      rfl
    rw [hkept, hafresh]
    exact (store_alike first.2 first.1 h).bind fun p' cache' _ h' =>
      ih (statistics.count first.2) h'

end Marker

/-- A flush that keeps handles and one that asks the profile for every category and every schema
anew leave the same profile and have the same result: the same statistics, or the same fault at the
same marker. Nothing is supposed of the profile or of the markers. -/
theorem flushMarkers_eq_afresh (markers : List (Nat × Marker)) (p : Profile) :
    (flushMarkers markers).runOn p = (flushMarkersAfresh markers).runOn p := by
  let categories := p.categories.ensure ⟨loggingCategory, .green⟩
  let before : Profile := { p with categories := categories.2 }
  have hafresh : (flushMarkersAfresh markers).runOn p =
      (Marker.storeAllAfresh .empty markers).runOn before := rfl
  have hcurrent : HandleCache.empty.Current categories.1 before :=
    ⟨Catalogue.find?_ensure _ _, HandleCache.sound_empty before⟩
  rw [runOn_flushMarkers, hafresh, Edit.runOn_bind]
  obtain ⟨p', ⟨f, hkept, hasked⟩ | ⟨cache, counted, hkept, hasked, rfl⟩⟩ :=
    Marker.storeAll_alike markers .empty hcurrent
  · rw [hkept, hasked]
  · rw [hkept, hasked]
    rfl

/-- Two kinds of events that ask for one type name clash without any cache, too: the second one
has no value for the field of the first, and the flush ends. -/
example :
    let p := { Profile.create "tracer" 1 with threads := [⟨0, .number 1, "main", true, [], []⟩] }
    ((flushMarkersAfresh [(0, ⟨10, "start", "main", [("", "1")], none⟩),
      (0, ⟨20, "stop", "main", [], none⟩)]).runOn p).1 = .error Failure.noEntry := by
  decide +kernel

end TraceProfile
