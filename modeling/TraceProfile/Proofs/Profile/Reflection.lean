import Mathlib.Data.Option.Basic
import TraceProfile.Proofs.Profile.Layout
import TraceProfile.Proofs.Profile.Ledger
import TraceProfile.Proofs.Profile.Success

/-!
# A profile and its ledger

A profile reflects the ledger of its calls: every handle in it denotes something, and read back
with texts in the place of handles it is what the ledger holds. Every call preserves this, whether
it succeeds or not, if the handles that are passed to it were answered before. Such a call fails
only if its marker lacks a value for a field of its schema, or is one of another thread.
-/

namespace TraceProfile

section Matches

variable {α β κ : Type} {key : Nat → κ} {R R' : κ → α → β → Prop} {stored : List α}
  {entries : List (κ × β)}

/-- For everything stored there is an entry at the same place, under the key of this place. -/
def Matches (key : Nat → κ) (R : κ → α → β → Prop) (stored : List α)
    (entries : List (κ × β)) : Prop :=
  entries.length = stored.length ∧
    ∀ i a, stored[i]? = some a → ∃ b, entries[i]? = some (key i, b) ∧ R (key i) a b

namespace Matches

/-- Nothing stored is matched by no entries. -/
theorem nil : Matches key R [] [] := ⟨rfl, fun _ _ h => nomatch h⟩

/-- What is stored may be matched in a weaker way. -/
theorem imp (h : Matches key R stored entries) (hR : ∀ k a b, R k a b → R' k a b) :
    Matches key R' stored entries :=
  ⟨h.1, fun i a ha => (h.2 i a ha).imp fun b hb => ⟨hb.1, hR _ a b hb.2⟩⟩

/-- One more comes last, under the next key. -/
theorem concat (h : Matches key R stored entries) {a : α} {b : β}
    (hR : R (key stored.length) a b) :
    Matches key R (stored ++ [a]) (entries ++ [(key stored.length, b)]) := by
  refine ⟨by simp [h.1], fun i a' ha' => ?_⟩
  rcases Nat.lt_trichotomy i stored.length with hlt | rfl | hgt
  · rw [List.getElem?_append_left hlt] at ha'
    obtain ⟨b', hb', hR'⟩ := h.2 i a' ha'
    exact ⟨b', by rw [List.getElem?_append_left (h.1 ▸ hlt), hb'], hR'⟩
  · rw [List.getElem?_concat_length] at ha'
    cases ha'
    exact ⟨b, by rw [← h.1, List.getElem?_concat_length, h.1], hR⟩
  · rw [List.getElem?_eq_none (by simp; omega)] at ha'
    cases ha'

/-- What is stored at a place changes, and its entry need not. -/
theorem set_stored (h : Matches key R stored entries) {i : Nat} {a a' : α}
    (ha : stored[i]? = some a) (hR : ∀ b, R (key i) a b → R (key i) a' b) :
    Matches key R (stored.set i a') entries := by
  refine ⟨by rw [h.1, List.length_set], fun j c hc => ?_⟩
  by_cases hj : i = j
  · subst hj
    rw [List.getElem?_set_self (List.getElem?_eq_some_iff.mp ha).1] at hc
    cases hc
    obtain ⟨b, hb, hold⟩ := h.2 i a ha
    exact ⟨b, hb, hR b hold⟩
  · rw [List.getElem?_set_ne hj] at hc
    exact h.2 j c hc

/-- What is stored at a place changes together with the entry of its key. -/
theorem set [DecidableEq κ] (hkey : Function.Injective key) (h : Matches key R stored entries)
    {i : Nat} {a a' : α} {change : β → β} (ha : stored[i]? = some a)
    (hR : ∀ b, R (key i) a b → R (key i) a' (change b)) :
    Matches key R (stored.set i a') (changeEntry (key i) change entries) := by
  refine ⟨by rw [changeEntry, List.length_map, List.length_set, h.1], fun j c hc => ?_⟩
  rw [changeEntry, List.getElem?_map]
  by_cases hj : i = j
  · subst hj
    rw [List.getElem?_set_self (List.getElem?_eq_some_iff.mp ha).1] at hc
    cases hc
    obtain ⟨b, hb, hold⟩ := h.2 i a ha
    exact ⟨change b, by rw [hb, Option.map_some, if_pos rfl], hR b hold⟩
  · rw [List.getElem?_set_ne hj] at hc
    obtain ⟨b, hb, hold⟩ := h.2 j c hc
    exact ⟨b, by rw [hb, Option.map_some, if_neg fun hsame => hj (hkey hsame.symm)], hold⟩

/-- An entry belongs to what is stored at its place. -/
theorem exists_of_mem (h : Matches key R stored entries) {k : κ} {b : β}
    (hmem : (k, b) ∈ entries) : ∃ i a, k = key i ∧ stored[i]? = some a ∧ R k a b := by
  obtain ⟨i, hi⟩ := List.mem_iff_getElem?.mp hmem
  have hlt : i < stored.length := h.1 ▸ (List.getElem?_eq_some_iff.mp hi).1
  obtain ⟨b', hb', hR⟩ := h.2 i _ (List.getElem?_eq_getElem hlt)
  cases hi.symm.trans hb'
  exact ⟨i, _, rfl, List.getElem?_eq_getElem hlt, hR⟩

/-- A key of an entry is that of a place where something is stored. -/
theorem exists_of_mem_keys (h : Matches key R stored entries) {k : κ}
    (hmem : k ∈ entries.map (·.1)) : ∃ i a, k = key i ∧ stored[i]? = some a := by
  obtain ⟨⟨_, b⟩, hentry, rfl⟩ := List.mem_map.mp hmem
  obtain ⟨i, a, hk, ha, -⟩ := h.exists_of_mem hentry
  exact ⟨i, a, hk, ha⟩

/-- Stored things and their entries are related one by one. -/
theorem forall₂ (h : Matches key R stored entries) :
    List.Forall₂ (fun a entry => R entry.1 a entry.2) stored entries := by
  refine List.forall₂_iff_get.mpr ⟨h.1.symm, fun i hi hi' => ?_⟩
  obtain ⟨b, hb, hR⟩ := h.2 i _ (List.getElem?_eq_getElem hi)
  have hget : entries[i] = (key i, b) := (List.getElem?_eq_some_iff.mp hb).2
  change R entries[i].1 stored[i] entries[i].2
  rw [hget]
  exact hR

end Matches

end Matches

/-- What is found under a key is an entry of it. -/
theorem mem_of_lookup {κ β : Type} [BEq κ] [LawfulBEq κ] {entries : List (κ × β)} {k : κ} {b : β}
    (h : entries.lookup k = some b) : (k, b) ∈ entries := by
  obtain ⟨before, after, heq, -⟩ := List.lookup_eq_some_iff.mp h
  rw [heq]
  exact List.mem_append_right _ List.mem_cons_self

/-- A key that has an entry is found. -/
theorem exists_lookup {κ β : Type} [BEq κ] [LawfulBEq κ] {entries : List (κ × β)} {k : κ}
    (h : k ∈ entries.map (·.1)) : ∃ b, entries.lookup k = some b := by
  obtain ⟨entry, hentry, rfl⟩ := List.mem_map.mp h
  exact Option.isSome_iff_exists.mp (List.lookup_isSome_iff.mpr ⟨entry, hentry, beq_self_eq_true _⟩)

/-- On one thread, markers at different places have different handles. -/
theorem MarkerHandle.mk_injective (thread : Nat) : Function.Injective (MarkerHandle.mk thread) :=
  fun _ _ hsame => (MarkerHandle.mk.inj hsame).2

/-- A stored value is read back. -/
def Profile.showValue (p : Profile) (format : FieldFormat) : FieldValue → Except Fault ShownValue
  | .text handle =>
    if format = .text then (p.getString handle).map .text else .ok (.number (.whole handle))
  | .number amount => if format = .text then .error Failure.notWhole else .ok (.number amount)

/-- The categories that a reader sees with a marker. -/
def ShownMarker.categories (m : ShownMarker) : List Int :=
  m.category :: (m.stack.getD []).map (·.category)

/-- A stored marker is read back, and its categories are known. -/
structure StoredMarker.Reflects (p : Profile) (l : Ledger) (s : StoredMarker) (m : ShownMarker) :
    Prop where
  /-- The times. -/
  timing : m.timing = s.timing
  /-- The name. -/
  name : p.getString s.name = .ok m.name
  /-- The category. -/
  category : m.category = s.category
  /-- The fields of its schema with their values. -/
  fields : ∃ schema, p.schemas.get? s.schema = some schema ∧ m.typeName = schema.typeName ∧
    List.Forall₂ (fun entry shown => shown.1 = entry.1 ∧
      p.showValue entry.1.format entry.2 = .ok shown.2) (schema.fields.zip s.values) m.fields
  /-- The stack. -/
  stack : Option.Rel (fun frames shown => frames.mapM p.showFrame = .ok shown) s.stack m.stack
  /-- Its categories are known. -/
  known : ∀ category ∈ m.categories, l.HasCategory category

/-- A stored thread is read back, and its categories are known. -/
structure Thread.Reflects (p : Profile) (l : Ledger) (handle : Nat) (t : Thread)
    (shown : ShownThread) : Prop where
  /-- Its process is known. -/
  owner : ∃ name, (t.process, shown.pid, name) ∈ l.processes
  /-- Its number. -/
  tid : shown.tid = t.tid
  /-- Its name. -/
  name : shown.name = t.name
  /-- It is the main thread of its process. -/
  isMain : shown.isMain = t.isMain
  /-- The samples. -/
  samples : t.samples.mapM p.showSample = .ok shown.samples
  /-- Their categories are known. -/
  known : ∀ sample ∈ shown.samples, ∀ frame ∈ sample.frames, l.HasCategory frame.category
  /-- The markers. -/
  markers : Matches (MarkerHandle.mk handle) (fun _ => StoredMarker.Reflects p l) t.markers
    shown.markers

/-- A profile, read back, is what the ledger holds. -/
structure Profile.Reflects (p : Profile) (l : Ledger) : Prop where
  /-- Texts are found under their handles. -/
  texts : ∀ handle text, (handle, text) ∈ l.texts → p.strings.get? handle = some text
  /-- Handles of categories denote some. -/
  categories : ∀ handle ∈ l.categories, handle < p.categories.size
  /-- Handles of schemas denote what was registered first. -/
  schemas : ∀ handle, l.schemas.lookup handle = p.schemas.get? handle
  /-- The processes. -/
  processes : Matches id (fun _ process entry => entry = (process.pid, process.name)) p.processes
    l.processes
  /-- The threads. -/
  threads : Matches id (Thread.Reflects p l) p.threads l.threads
  /-- The counter tracks. -/
  counters : Matches id (fun _ track entry => entry.2 = track ∧
    ∃ name, (track.process, entry.1, name) ∈ l.processes) p.counters l.counters

/-- A ledger has all categories and processes of an earlier one. -/
structure Ledger.Keeps (l l' : Ledger) : Prop where
  /-- Categories. -/
  categories : l.categories ⊆ l'.categories
  /-- Processes. -/
  processes : l.processes ⊆ l'.processes

variable {p p' : Profile} {l l' : Ledger}

/-- A ledger has its own categories and processes. -/
theorem Ledger.Keeps.refl (l : Ledger) : l.Keeps l := ⟨List.Subset.refl _, List.Subset.refl _⟩

/-- A category of a ledger is one of every later ledger. -/
theorem Ledger.HasCategory.mono {category : Int} (h : l.HasCategory category) (hl : l.Keeps l') :
    l'.HasCategory category := by
  obtain ⟨handle, hmem, hsame⟩ := h
  exact ⟨handle, hl.categories hmem, hsame⟩

/-- A value is read back alike when the tables have grown. -/
theorem Profile.showValue_mono {format : FieldFormat} {value : FieldValue} {shown : ShownValue}
    (hp : p.Extends p') (h : p.showValue format value = .ok shown) :
    p'.showValue format value = .ok shown := by
  cases value with
  | number amount => exact h
  | text handle =>
    rw [showValue] at h ⊢
    by_cases hformat : format = .text
    · rw [if_pos hformat] at h ⊢
      cases htext : p.getString handle with
      | error f =>
        rw [htext] at h
        cases h
      | ok text =>
        rw [htext] at h
        rw [hp.getString htext]
        exact h
    · rw [if_neg hformat] at h ⊢
      exact h

/-- A marker is read back alike in every later profile. -/
theorem StoredMarker.Reflects.mono {s : StoredMarker} {m : ShownMarker} (hp : p.Extends p')
    (hl : l.Keeps l') (h : StoredMarker.Reflects p l s m) : StoredMarker.Reflects p' l' s m where
  timing := h.timing
  name := hp.getString h.name
  category := h.category
  fields := by
    obtain ⟨schema, hschema, hname, hfields⟩ := h.fields
    exact ⟨schema, hp.schemas.get? hschema, hname,
      hfields.imp fun _ _ hf => ⟨hf.1, Profile.showValue_mono hp hf.2⟩⟩
  stack := by
    have hstack := h.stack
    generalize s.stack = frames, m.stack = shown at hstack
    cases hstack with
    | some hframes => exact .some (Profile.showFrames_mono hp.strings hframes)
    | none => exact .none
  known := fun category hc => (h.known category hc).mono hl

/-- A thread that is left alone is read back alike in every later profile. -/
theorem Thread.Reflects.mono (hp : p.Extends p') (hl : l.Keeps l') (handle : Nat) (t : Thread)
    (shown : ShownThread) (h : Thread.Reflects p l handle t shown) :
    Thread.Reflects p' l' handle t shown where
  owner := h.owner.imp fun _ hmem => hl.processes hmem
  tid := h.tid
  name := h.name
  isMain := h.isMain
  samples := mapM_eq_ok_iff.mpr
    ((mapM_eq_ok_iff.mp h.samples).imp fun _ _ => Profile.showSample_mono hp.strings)
  known := fun sample hs frame hf => (h.known sample hs frame hf).mono hl
  markers := h.markers.imp fun _ _ _ => StoredMarker.Reflects.mono hp hl

/-- Threads are read back alike whatever else is in the profile and in the ledger. -/
theorem Thread.Reflects.elsewhere {key : Nat → Nat} {stored : List Thread}
    {entries : List (Nat × ShownThread)} (h : Matches key (Thread.Reflects p l) stored entries)
    (processes : List Process) (threads : List Thread) (counters : List CounterTrack)
    (shown : List (Nat × ShownThread)) (tracks : List (Nat × SystemId × CounterTrack)) :
    Matches key (Thread.Reflects { p with processes, threads, counters }
      { l with threads := shown, counters := tracks }) stored entries :=
  h.imp (Thread.Reflects.mono ⟨.refl _, .refl _, .refl _⟩
    ⟨List.Subset.refl _, List.Subset.refl _⟩)

namespace Profile

/-- A new profile reflects the empty ledger. -/
theorem reflects_create (product : String) (interval : Int) :
    (create product interval).Reflects .empty where
  texts := fun _ _ h => nomatch h
  categories := fun handle hmem => by
    rw [List.mem_singleton.mp hmem]
    exact Nat.one_pos
  schemas := fun _ => rfl
  processes := .nil
  threads := .nil
  counters := .nil

namespace Reflects

/-- A text that is known under a handle is what the handle denotes. -/
theorem getString (h : p.Reflects l) {handle : Nat} {text : String}
    (hlookup : l.texts.lookup handle = some text) : p.getString handle = .ok text :=
  getString_eq_ok_iff.mpr (h.texts handle text (mem_of_lookup hlookup))

/-- A thread that is known is there, and is read back. -/
theorem thread (h : p.Reflects l) {handle : Nat} (hmem : handle ∈ l.threads.map (·.1)) :
    ∃ t, p.threads[handle]? = some t := by
  obtain ⟨i, t, rfl, ht⟩ := h.threads.exists_of_mem_keys hmem
  exact ⟨t, ht⟩

/-- A process that is known is there, under the system id that the ledger has for it. -/
theorem process (h : p.Reflects l) {handle : Nat} (hmem : handle ∈ l.processes.map (·.1)) :
    ∃ o name, p.processes[handle]? = some o ∧ l.pid? handle = some o.pid ∧
      (handle, o.pid, name) ∈ l.processes := by
  obtain ⟨⟨pid, name⟩, hlookup⟩ := exists_lookup hmem
  have hentry := mem_of_lookup hlookup
  obtain ⟨i, o, rfl, ho, hsame⟩ := h.processes.exists_of_mem hentry
  cases hsame
  exact ⟨o, o.name, ho, by rw [Ledger.pid?, hlookup]; rfl, hentry⟩

/-- A thread changes, and its entry with it. -/
theorem changeThread (h : p.Reflects l) {handle : Nat} {t t' : Thread}
    {change : ShownThread → ShownThread} {strings : Catalogue id}
    (ht : p.threads[handle]? = some t) (hstrings : p.strings.Extends strings)
    (hchange : ∀ shown, Thread.Reflects { p with strings } l handle t shown →
      Thread.Reflects { p with strings } l handle t' (change shown)) :
    ({ p with strings, threads := p.threads.set handle t' } : Profile).Reflects
      (l.changeThread handle change) where
  texts := fun handle text hmem => hstrings.get? (h.texts handle text hmem)
  categories := h.categories
  schemas := h.schemas
  processes := h.processes
  threads := by
    have hgrown : Matches id (Thread.Reflects { p with strings } l) p.threads l.threads :=
      h.threads.imp (Thread.Reflects.mono ⟨hstrings, .refl _, .refl _⟩ (.refl l))
    exact Thread.Reflects.elsewhere (hgrown.set Function.injective_id ht hchange) _ _ _ _ _
  counters := h.counters

/-- The tables of a profile may grow, as long as the ledger follows. -/
theorem of_tables (h : p.Reflects l) {strings : Catalogue id}
    {categories : Catalogue Category.name} {schemas : Catalogue MarkerSchema.typeName}
    {texts : List (Nat × String)} {handles : List Nat} {registered : List (Nat × MarkerSchema)}
    (hp : p.Extends { p with strings, categories, schemas })
    (htexts : ∀ handle text, (handle, text) ∈ texts → strings.get? handle = some text)
    (hhandles : ∀ handle ∈ handles, handle < categories.size)
    (hkept : l.categories ⊆ handles)
    (hschemas : ∀ handle, registered.lookup handle = schemas.get? handle) :
    ({ p with strings, categories, schemas } : Profile).Reflects
      { l with texts, categories := handles, schemas := registered } where
  texts := htexts
  categories := hhandles
  schemas := hschemas
  processes := h.processes
  threads := h.threads.imp (Thread.Reflects.mono hp ⟨hkept, List.Subset.refl _⟩)
  counters := h.counters

/-- A value is read back as what the ledger shows of it, if it is the handle of a text where a
text is asked for. -/
theorem shownValue (h : p.Reflects l) {format : FieldFormat} {value : FieldValue}
    (htext : format = .text → ∃ handle ∈ l.texts.map (·.1), value = .text handle) :
    ∃ shown, l.shownValue? format value = some shown ∧ p.showValue format value = .ok shown := by
  by_cases hformat : format = .text
  · obtain ⟨handle, hmem, rfl⟩ := htext hformat
    obtain ⟨text, hlookup⟩ := exists_lookup hmem
    refine ⟨.text text, ?_, ?_⟩
    · rw [Ledger.shownValue?, if_pos hformat, hlookup, Option.map_some]
    · rw [showValue, if_pos hformat, h.getString hlookup]
      rfl
  · cases value with
    | text handle => exact ⟨.number (.whole handle), if_neg hformat, if_neg hformat⟩
    | number amount => exact ⟨.number amount, if_neg hformat, if_neg hformat⟩

/-- The values of a payload are read back as what the ledger shows of them. -/
theorem shownFields (h : p.Reflects l) {body : PayloadBody} {place : Nat}
    {fields : List FieldSchema} {values : List FieldValue}
    (hvalues : body.valuesFrom place fields = .ok values)
    (htexts : ∀ i field, fields[i]? = some field → field.format = .text →
      ∀ value, body.value .text (place + i) = .ok value →
        ∃ handle ∈ l.texts.map (·.1), value = .text handle) :
    ∃ shown, l.shownFields? body place fields = some shown ∧
      List.Forall₂ (fun entry shown => shown.1 = entry.1 ∧
        p.showValue entry.1.format entry.2 = .ok shown.2) (fields.zip values) shown := by
  induction fields generalizing place values with
  | nil => exact ⟨[], rfl, .nil⟩
  | cons field fields ih =>
    obtain ⟨value, hvalue, hstep⟩ := bind_eq_ok_iff.mp hvalues
    obtain ⟨others, hothers, hsame⟩ := bind_eq_ok_iff.mp hstep
    cases hsame
    obtain ⟨shown, hshown, hread⟩ := h.shownValue fun hformat =>
      htexts 0 field rfl hformat value (hformat ▸ hvalue)
    obtain ⟨rest, hrest, hreadRest⟩ := ih hothers fun i other hi hformat => by
      rw [Nat.add_assoc, Nat.add_comm 1 i]
      exact htexts (i + 1) other hi hformat
    refine ⟨(field, shown) :: rest, ?_, .cons ⟨rfl, hread⟩ hreadRest⟩
    rw [Ledger.shownFields?, hvalue, hrest]
    change (l.shownValue? field.format value).bind _ = _
    rw [hshown]
    rfl

/-- A marker that is stored with the values of its payload is read back as what the ledger shows of
it. -/
theorem shownMarker (h : p.Reflects l) {payload : Payload} {schema : MarkerSchema}
    {values : List FieldValue} (hbacks : l.Backs payload)
    (hschema : l.schemas.lookup payload.schema = some schema)
    (hvalues : payload.body.valuesFrom 0 schema.fields = .ok values) (timing : MarkerTiming) :
    ∃ m, l.shownMarker? timing payload = some m ∧ StoredMarker.Reflects p l
      ⟨timing, payload.name, payload.category, payload.schema, values, none⟩ m := by
  obtain ⟨name, hname⟩ := exists_lookup hbacks.name
  obtain ⟨fields, hfields, hread⟩ := h.shownFields hvalues fun i field hi hformat => by
    rw [Nat.zero_add]
    exact hbacks.texts schema hschema i field hi hformat
  refine ⟨⟨timing, name, payload.category, schema.typeName, fields, none⟩, ?_, ?_⟩
  · simp only [Ledger.shownMarker?, hname, hschema, hfields, Option.pure_def, Option.bind_eq_bind,
      Option.bind_some]
  · exact
      { timing := rfl
        name := h.getString hname
        category := rfl
        fields := ⟨schema, (h.schemas _).symm.trans hschema, rfl, hread⟩
        stack := .none
        known := fun category hcategory => by
          rw [List.mem_singleton.mp hcategory]
          exact hbacks.category }

end Reflects

end Profile

/-- A call is answered if it has what it needs, and the profile reflects the ledger afterwards. -/
structure ProfileCall.SoundOn (call : ProfileCall) (p : Profile) (l : Ledger) : Prop where
  /-- The answer. -/
  answered : (∃ answer, (call.edit.runOn p).1 = .ok answer) ↔ call.Answerable l
  /-- The profile afterwards. -/
  reflects : (call.edit.runOn p).2.Reflects (l.note call (call.edit.runOn p).1)

/-- A call is sound on every profile that reflects a ledger with the handles that are passed. -/
def ProfileCall.Sound (call : ProfileCall) : Prop :=
  ∀ {p : Profile} {l : Ledger}, p.Reflects l → call.Admissible l → call.SoundOn p l

namespace ProfileCall

/-- A call is sound where it is answered, if it has what it needs and the profile reflects the
ledger with the answer. -/
theorem SoundOn.of_ok {call : ProfileCall} {answer : ProfileAnswer}
    (hedit : call.edit.runOn p = (.ok answer, p')) (hneeds : call.Answerable l)
    (h : p'.Reflects (l.note call (.ok answer))) : call.SoundOn p l where
  answered := ⟨fun _ => hneeds, fun _ => ⟨answer, congrArg Prod.fst hedit⟩⟩
  reflects := by
    rw [hedit]
    exact h

/-- A call that is refused leaves everything as it was. -/
theorem SoundOn.of_error {call : ProfileCall} {fault : Fault}
    (hedit : call.edit.runOn p = (.error fault, p)) (hneeds : ¬ call.Answerable l)
    (h : p.Reflects l) : call.SoundOn p l where
  answered := by
    refine ⟨fun ⟨answer, hanswer⟩ => ?_, fun hn => (hneeds hn).elim⟩
    rw [hedit] at hanswer
    cases hanswer
  reflects := by
    rw [hedit, Ledger.note_error]
    exact h

/-- Storing a text is sound. -/
theorem sound_internString (text : String) : (internString text).Sound := by
  intro p l h _
  have hstrings := Catalogue.extends_ensure text p.strings
  refine .of_ok rfl trivial (h.of_tables ⟨hstrings, .refl _, .refl _⟩ (fun handle text' hmem => ?_)
    h.categories (List.Subset.refl _) h.schemas)
  rcases List.mem_append.mp hmem with hold | hnew
  · exact hstrings.get? (h.texts handle text' hold)
  · cases List.mem_singleton.mp hnew
    exact Catalogue.get?_ensure_id text p.strings

/-- Adding a category is sound. -/
theorem sound_addCategory (name : String) (color : CategoryColor) :
    (addCategory name color).Sound := by
  intro p l h _
  have hcategories := Catalogue.extends_ensure (⟨name, color⟩ : Category) p.categories
  refine .of_ok rfl trivial (h.of_tables ⟨.refl _, hcategories, .refl _⟩ h.texts
    (fun handle hmem => ?_) (List.subset_append_left _ _) h.schemas)
  rcases List.mem_append.mp hmem with hold | hnew
  · exact Nat.lt_of_lt_of_le (h.categories handle hold) hcategories.length_le
  · obtain ⟨kept, hkept, -⟩ := Catalogue.get?_ensure (⟨name, color⟩ : Category) p.categories
    rw [List.mem_singleton.mp hnew]
    exact (List.getElem?_eq_some_iff.mp hkept).1

/-- Registering a schema is sound. -/
theorem sound_registerSchema (schema : MarkerSchema) : (registerSchema schema).Sound := by
  intro p l h _
  have hlookup : ∀ handle, (l.schemas ++ [((p.schemas.ensure schema).1, schema)]).lookup handle =
      (p.schemas.ensure schema).2.get? handle := by
    intro handle
    rw [List.lookup_append, h.schemas, Catalogue.get?_ensure_eq_or]
    by_cases hsame : handle = (p.schemas.ensure schema).1
    · rw [if_pos hsame, hsame, List.lookup_cons_self]
    · rw [if_neg hsame, List.lookup_eq_none_iff.mpr (by simpa using hsame)]
  exact .of_ok rfl trivial (h.of_tables ⟨.refl _, .refl _,
    Catalogue.extends_ensure schema p.schemas⟩ h.texts h.categories (List.Subset.refl _) hlookup)

/-- Adding a process is sound. -/
theorem sound_addProcess (pid : SystemId) (name : String) : (addProcess pid name).Sound := by
  intro p l h _
  have hkeeps : l.Keeps { l with processes := l.processes ++ [(p.processes.length, pid, name)] } :=
    ⟨List.Subset.refl _, List.subset_append_left _ _⟩
  exact .of_ok rfl trivial
    { texts := h.texts
      categories := h.categories
      schemas := h.schemas
      processes := h.processes.concat rfl
      threads := h.threads.imp (Thread.Reflects.mono ⟨.refl _, .refl _, .refl _⟩ hkeeps)
      counters := h.counters.imp fun _ _ _ hc =>
        ⟨hc.1, hc.2.imp fun _ hmem => hkeeps.processes hmem⟩ }

/-- Adding a thread to a known process is sound. -/
theorem sound_addThread (process : Nat) (tid : SystemId) (name : String) (isMain : Bool) :
    (addThread process tid name isMain).Sound := by
  intro p l h hprocess
  obtain ⟨o, ownerName, ho, hpid, hentry⟩ := h.process hprocess
  let t : Thread := ⟨process, tid, name, isMain, [], []⟩
  let handle := p.threads.length
  let owner : Process := { o with threads := o.threads ++ [handle] }
  let after : Profile := { p with
    processes := p.processes.set process owner, threads := p.threads ++ [t] }
  have hedit : (addThread process tid name isMain).edit.runOn p = (.ok (.handle handle), after) :=
    Edit.runOn_map _ (Edit.runOn_addThread ho tid name isMain)
  have hshown : Thread.Reflects p l handle t ⟨o.pid, tid, name, isMain, [], []⟩ :=
    ⟨⟨ownerName, hentry⟩, rfl, rfl, rfl, rfl, fun _ hs => (List.not_mem_nil hs).elim, .nil⟩
  refine .of_ok hedit trivial ?_
  rw [Ledger.note, hpid]
  exact
    { texts := h.texts
      categories := h.categories
      schemas := h.schemas
      processes := h.processes.set_stored ho fun _ hsame => hsame
      threads := Thread.Reflects.elsewhere (h.threads.concat hshown) _ _ _ _ _
      counters := h.counters }

/-- Adding a sample to a known thread is sound. -/
theorem sound_addSample (thread : Nat) (time : Int) (frames : List Frame)
    (delta weight : Int) : (addSample thread time frames delta weight).Sound := by
  intro p l h hadmissible
  obtain ⟨hthread, hframes⟩ := hadmissible
  obtain ⟨t, ht⟩ := h.thread hthread
  obtain ⟨stored, strings, hstrings, hrun, hshown⟩ :=
    Edit.addSample_spec ht time frames delta weight
  have hedit : (addSample thread time frames delta weight).edit.runOn p = (.ok .done, _) :=
    Edit.runOn_map _ hrun
  have hsample : Profile.showSample { p with strings } ⟨time, stored, delta, weight⟩ =
      .ok ⟨time, frames.map Frame.shown, delta, weight⟩ :=
    Profile.showSample_eq_ok_iff.mpr ⟨_, hshown, rfl⟩
  refine .of_ok hedit trivial (h.changeThread ht hstrings fun shown hold =>
    { hold with samples := ?_, known := ?_ })
  · exact mapM_eq_ok_iff.mpr
      (List.rel_append (mapM_eq_ok_iff.mp hold.samples) (.cons hsample .nil))
  · intro sample hs frame hf
    rcases List.mem_append.mp hs with hs | hs
    · exact hold.known sample hs frame hf
    · rw [List.mem_singleton.mp hs] at hf
      obtain ⟨original, horiginal, rfl⟩ := List.mem_map.mp hf
      exact hframes original horiginal

/-- Adding a marker to a known thread is sound; it is refused if a field of the schema has no value.
-/
theorem sound_addMarker (thread : Nat) (timing : MarkerTiming) (payload : Payload) :
    (addMarker thread timing payload).Sound := by
  intro p l h hadmissible
  obtain ⟨hthread, hbacks⟩ := hadmissible
  obtain ⟨t, ht⟩ := h.thread hthread
  obtain ⟨schema, hschema⟩ := exists_lookup hbacks.schema
  have hrun := Edit.runOn_addMarker ht ((h.schemas _).symm.trans hschema) timing
  cases hvalues : payload.body.valuesFrom 0 schema.fields with
  | error fault =>
    rw [hvalues] at hrun
    have hedit : (addMarker thread timing payload).edit.runOn p = (.error fault, p) :=
      Edit.runOn_map _ hrun
    refine .of_error hedit ?_ h
    rintro ⟨schema', values, hschema', hvalues'⟩
    cases hschema.symm.trans hschema'
    cases hvalues.symm.trans hvalues'
  | ok values =>
    rw [hvalues] at hrun
    have hedit : (addMarker thread timing payload).edit.runOn p =
        (.ok (.marker ⟨thread, t.markers.length⟩), _) := Edit.runOn_map _ hrun
    obtain ⟨m, hm, hstored⟩ := h.shownMarker hbacks hschema hvalues timing
    refine .of_ok hedit ⟨schema, values, hschema, hvalues⟩ ?_
    rw [Ledger.note, hm]
    refine h.changeThread ht (.refl _) fun shown hold => { hold with markers := ?_ }
    exact hold.markers.concat hstored

/-- Giving a known marker a stack is sound; it is refused for a marker of another thread. -/
theorem sound_setMarkerStack (thread : Nat) (marker : MarkerHandle) (frames : List Frame) :
    (setMarkerStack thread marker frames).Sound := by
  intro p l h hadmissible
  obtain ⟨-, ⟨⟨_, shown⟩, hentry, hmarker⟩, hframes⟩ := hadmissible
  by_cases howner : marker.thread = thread
  · -- The marker is one of the thread that its handle names.
    obtain ⟨i, t, rfl, ht, hold⟩ := h.threads.exists_of_mem hentry
    obtain ⟨k, m, rfl, hm⟩ := hold.markers.exists_of_mem_keys hmarker
    cases howner
    obtain ⟨stored, strings, hstrings, hrun, hshown⟩ :=
      Edit.setMarkerStack_spec ht (rfl : (MarkerHandle.mk _ k).thread = _) hm frames
    have hedit : (setMarkerStack _ ⟨_, k⟩ frames).edit.runOn p = (.ok .done, _) :=
      Edit.runOn_map _ hrun
    refine .of_ok hedit rfl (h.changeThread ht hstrings fun shown hthread =>
      { hthread with markers := ?_ })
    dsimp only
    refine hthread.markers.set (MarkerHandle.mk_injective _) hm ?_
    intro shown hold
    refine { hold with stack := .some hshown, known := fun category hcategory => ?_ }
    rcases List.mem_cons.mp hcategory with rfl | hcategory
    · exact hold.known _ List.mem_cons_self
    · obtain ⟨shownFrame, hshownFrame, rfl⟩ := List.mem_map.mp hcategory
      obtain ⟨frame, hframe, rfl⟩ := List.mem_map.mp hshownFrame
      exact hframes frame hframe
  · have hedit : (setMarkerStack thread marker frames).edit.runOn p = (.error _, p) :=
      Edit.runOn_map _ (Edit.runOn_setMarkerStack_of_foreign howner frames)
    exact .of_error hedit howner h

/-- Adding a counter to a known process is sound. -/
theorem sound_addCounter (process : Nat) (name : String) (category : CounterCategory)
    (description : String) (color : Option GraphColor) :
    (addCounter process name category description color).Sound := by
  intro p l h hprocess
  obtain ⟨o, ownerName, ho, hpid, hentry⟩ := h.process hprocess
  let track : CounterTrack := ⟨process, name, category, description, color, []⟩
  have hedit : (addCounter process name category description color).edit.runOn p =
      (.ok (.handle p.counters.length), { p with counters := p.counters ++ [track] }) := rfl
  refine .of_ok hedit trivial ?_
  rw [Ledger.note, hpid]
  exact
    { texts := h.texts
      categories := h.categories
      schemas := h.schemas
      processes := h.processes
      threads := Thread.Reflects.elsewhere h.threads _ _ _ _ _
      counters := h.counters.concat ⟨rfl, ownerName, hentry⟩ }

/-- Adding a sample to a known counter is sound. -/
theorem sound_addCounterSample (counter : Nat) (sample : CounterSample) :
    (addCounterSample counter sample).Sound := by
  intro p l h hcounter
  obtain ⟨_, track, rfl, htrack⟩ := h.counters.exists_of_mem_keys hcounter
  have hedit : (addCounterSample counter sample).edit.runOn p = (.ok .done, _) :=
    Edit.runOn_map _ (Edit.runOn_addCounterSample htrack sample)
  refine .of_ok hedit trivial ?_
  rw [Ledger.note]
  refine
    { texts := h.texts
      categories := h.categories
      schemas := h.schemas
      processes := h.processes
      threads := Thread.Reflects.elsewhere h.threads _ _ _ _ _
      counters := ?_ }
  dsimp only
  refine h.counters.set Function.injective_id htrack ?_
  rintro ⟨pid, _⟩ ⟨rfl, howner⟩
  exact ⟨rfl, howner⟩

/-- Every call is sound. -/
theorem sound (call : ProfileCall) : call.Sound := by
  cases call with
  | internString text => exact sound_internString text
  | addCategory name color => exact sound_addCategory name color
  | registerSchema schema => exact sound_registerSchema schema
  | addProcess pid name => exact sound_addProcess pid name
  | addThread process tid name isMain => exact sound_addThread process tid name isMain
  | addSample thread time frames delta weight =>
    exact sound_addSample thread time frames delta weight
  | addMarker thread timing payload => exact sound_addMarker thread timing payload
  | setMarkerStack thread marker frames => exact sound_setMarkerStack thread marker frames
  | addCounter process name category description color =>
    exact sound_addCounter process name category description color
  | addCounterSample counter sample => exact sound_addCounterSample counter sample

end ProfileCall

/-- At every point of a recording the profile reflects the ledger. -/
theorem Recorded.reflects {product : String} {interval : Int}
    (recorded : Recorded product interval p l) : p.Reflects l := by
  induction recorded with
  | start => exact Profile.reflects_create product interval
  | call _ call admissible ih => exact (call.sound ih admissible).reflects

end TraceProfile
