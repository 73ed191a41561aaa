import TraceProfile.Proofs.Catalogue.Index
import TraceProfile.Proofs.Profile.Tables

/-!
# Handles for good

The handles of texts, categories and schemas follow from the history of the requests. Equal keys
have equal handles and different keys different ones, a handle denotes the same entry for good, and
an index that is kept beside a table stays in step with it. Threads are numbered in the order of
their calls, those included that ended in a fault.
-/

namespace TraceProfile

/-- One of the three tables of a profile, with the call that gives one entry a handle. -/
structure ProfileTable {α κ : Type} [DecidableEq κ] (key : α → κ) where
  /-- The table. -/
  catalogue : ProfileTables → Catalogue key
  /-- The entries that are in it from the start. -/
  initial : List α
  /-- The entries that a request gives handles in it. -/
  given : ProfileRequest → List α
  /-- The call that gives an entry a handle. -/
  call : α → ProfileCall
  /-- A new profile has the entries from the start. -/
  catalogue_create : ∀ product interval,
    catalogue (Profile.create product interval).tables = Catalogue.empty.ensureAll initial
  /-- A request gives its own entries handles. -/
  catalogue_enter : ∀ t request,
    catalogue (t.enter request) = (catalogue t).ensureAll (given request)
  /-- The call for an entry is answered with the entry's handle. -/
  answer_call : ∀ p entry,
    ((call entry).edit.runOn p).1 = .ok (.handle ((catalogue p.tables).ensure entry).1)
  /-- The call for an entry gives no other entry a handle. -/
  given_call : ∀ entry, given (.call (call entry)) = [entry]

namespace ProfileTable

/-- The texts. -/
def strings : ProfileTable (id : String → String) where
  catalogue := ProfileTables.strings
  initial := []
  given := ProfileRequest.texts
  call := .internString
  catalogue_create _ _ := rfl
  catalogue_enter _ _ := rfl
  answer_call _ _ := rfl
  given_call _ := rfl

/-- The categories. The one for everything without a category comes first. -/
def categories : ProfileTable Category.name where
  catalogue := ProfileTables.categories
  initial := [⟨"Other", .grey⟩]
  given := ProfileRequest.categories
  call category := .addCategory category.name category.color
  catalogue_create _ _ := rfl
  catalogue_enter _ _ := rfl
  answer_call _ _ := rfl
  given_call _ := rfl

/-- The schemas. -/
def schemas : ProfileTable MarkerSchema.typeName where
  catalogue := ProfileTables.schemas
  initial := []
  given := ProfileRequest.schemas
  call := .registerSchema
  catalogue_create _ _ := rfl
  catalogue_enter _ _ := rfl
  answer_call _ _ := rfl
  given_call _ := rfl

variable {α κ : Type} [DecidableEq κ] {key : α → κ}

/-- The table of a profile. -/
def of (table : ProfileTable key) (p : Profile) : Catalogue key := table.catalogue p.tables

/-- All entries that a table is given by some requests, those from the start first. -/
def history (table : ProfileTable key) (requests : List ProfileRequest) : List α :=
  table.initial ++ requests.flatMap table.given

/-- The answer to the call that gives an entry a handle. -/
def answer (table : ProfileTable key) (p : Profile) (entry : α) : Except Fault ProfileAnswer :=
  ((table.call entry).edit.runOn p).1

/-- A table after some requests to a new profile. In it are the first entries of their keys, one
per key, and an index that is kept with it through all requests maps a key to a handle if and only
if the entry of the handle has the key. Two handles that were answered at any time are equal if and
only if the keys are, and they still denote what they did. -/
structure Faithful (table : ProfileTable key) (start : Profile)
    (requests : List ProfileRequest) : Prop where
  /-- No key has two entries. -/
  distinct : (table.of (start.after requests)).Distinct
  /-- An index that is filled with the table leads to the handles of the keys. -/
  index : let indexed := IndexedCatalogue.ensureAll (table.history requests) .empty
    indexed.plain = table.of (start.after requests) ∧
      (∀ k, indexed.index.lookup k = (table.of (start.after requests)).find? k) ∧
      ∀ k handle, indexed.index.lookup k = some handle ↔
        ∃ entry, (table.of (start.after requests)).get? handle = some entry ∧ key entry = k
  /-- The first entry of a key stays. -/
  first : ∀ handle entry, (table.of (start.after requests)).get? handle = some entry →
    (table.history requests).find? (key · = key entry) = some entry
  /-- Every call for an entry is answered with the handle of its key. -/
  answered : ∀ before entry, before ++ [.call (table.call entry)] <+: requests →
    ∃ handle, table.answer (start.after before) entry = .ok (.handle handle) ∧
      (table.of (start.after requests)).find? (key entry) = some handle
  /-- Two calls get the same handle exactly if their keys are equal. -/
  same_iff : ∀ before entry before' entry' handle handle',
    before ++ [.call (table.call entry)] <+: requests →
    before' ++ [.call (table.call entry')] <+: requests →
    table.answer (start.after before) entry = .ok (.handle handle) →
    table.answer (start.after before') entry' = .ok (.handle handle') →
    (handle = handle' ↔ key entry = key entry')
  /-- What a handle has denoted before, it denotes still. -/
  stable : ∀ before, before <+: requests → ∀ handle entry,
    (table.of (start.after before)).get? handle = some entry →
    (table.of (start.after requests)).get? handle = some entry

variable (table : ProfileTable key) (product : String) (interval : Int)

/-- After some requests, a table is what its entries make of it in their order. -/
theorem of_after (p : Profile) (requests : List ProfileRequest) :
    table.of (p.after requests) = (table.of p).ensureAll (requests.flatMap table.given) := by
  have hrun : ∀ t : ProfileTables, table.catalogue (requests.foldl ProfileTables.enter t) =
      (table.catalogue t).ensureAll (requests.flatMap table.given) := by
    induction requests with
    | nil =>
      intro t
      rfl
    | cons request rest ih =>
      intro t
      rw [List.foldl_cons, ih, table.catalogue_enter, List.flatMap_cons,
        Catalogue.ensureAll_append]
  rw [of, Profile.tables_after, hrun, of]

/-- After some requests to a new profile, a table holds what its history makes of an empty one. -/
theorem of_after_create (requests : List ProfileRequest) :
    table.of ((Profile.create product interval).after requests) =
      Catalogue.empty.ensureAll (table.history requests) := by
  rw [of_after, of, table.catalogue_create, history, Catalogue.ensureAll_append]

/-- Later requests only extend a table. -/
theorem extends_of_prefix {before requests : List ProfileRequest} (h : before <+: requests)
    (p : Profile) : (table.of (p.after before)).Extends (table.of (p.after requests)) := by
  obtain ⟨later, rfl⟩ := h
  rw [Profile.after_append, table.of_after (p.after before)]
  exact Catalogue.extends_ensureAll _ _

/-- The handle that a call has answered is that of its key from then on. -/
theorem find?_of_answer {p : Profile} {before requests : List ProfileRequest} {entry : α}
    (h : before ++ [.call (table.call entry)] <+: requests) {handle : Nat}
    (hanswer : table.answer (p.after before) entry = .ok (.handle handle)) :
    (table.of (p.after requests)).find? (key entry) = some handle := by
  rw [answer, table.answer_call] at hanswer
  cases hanswer
  have hnext : table.of (p.after (before ++ [.call (table.call entry)])) =
      ((table.of (p.after before)).ensure entry).2 := by
    rw [Profile.after_append, table.of_after (p.after before), List.flatMap_singleton,
      table.given_call]
    rfl
  refine (table.extends_of_prefix h p).find? ?_
  rw [hnext]
  exact Catalogue.find?_ensure entry (table.of (p.after before))

/-- Each table of a profile is faithful after any requests. -/
theorem faithful (requests : List ProfileRequest) :
    table.Faithful (.create product interval) requests := by
  have htable := table.of_after_create product interval requests
  have hdistinct : (table.of ((Profile.create product interval).after requests)).Distinct := by
    rw [htable]
    exact Catalogue.distinct_empty.ensureAll _
  have hstep : (IndexedCatalogue.ensureAll (table.history requests)
      (.empty : IndexedCatalogue key)).InStep :=
    IndexedCatalogue.inStep_empty.ensureAll _
  have hplain : (IndexedCatalogue.ensureAll (table.history requests)
      (.empty : IndexedCatalogue key)).plain =
      table.of ((Profile.create product interval).after requests) := by
    rw [IndexedCatalogue.inStep_empty.plain_ensureAll, htable]
    rfl
  refine ⟨hdistinct, ⟨hplain, fun k => ?_, fun k handle => ?_⟩, fun handle entry hentry => ?_,
    fun before entry hbefore => ?_, ?_, fun before hbefore handle entry hentry => ?_⟩
  · rw [← hplain]
    exact hstep.lookup_eq k
  · rw [← hplain]
    exact hstep k handle
  · rw [htable] at hentry
    have hmem := List.mem_of_getElem? hentry
    exact Catalogue.distinct_empty.find?_of_mem_ensureAll hmem
  · refine ⟨_, table.answer_call _ entry, ?_⟩
    exact table.find?_of_answer hbefore (table.answer_call _ entry)
  · intro before entry before' entry' handle handle' hbefore hbefore' hanswer hanswer'
    have hfound := table.find?_of_answer hbefore hanswer
    have hfound' := table.find?_of_answer hbefore' hanswer'
    constructor
    · rintro rfl
      obtain ⟨kept, hkept, hkey⟩ := Catalogue.get?_of_find? hfound
      obtain ⟨kept', hkept', hkey'⟩ := Catalogue.get?_of_find? hfound'
      cases hkept.symm.trans hkept'
      exact hkey.symm.trans hkey'
    · intro hkey
      rw [hkey] at hfound
      exact Option.some.inj (hfound.symm.trans hfound')
  · exact (table.extends_of_prefix hbefore _).get? hentry

end ProfileTable

namespace Profile

variable (product : String) (interval : Int) {before requests : List ProfileRequest}

/-- The thread of an answered call is at its handle from then on, and the handle is the number of
threads that were asked for before it. -/
theorem thread_of_answer {process : Nat} {tid : SystemId} {name : String} {isMain : Bool}
    {handle : Nat} (h : before ++ [.call (.addThread process tid name isMain)] <+: requests)
    (hanswer : ((ProfileCall.addThread process tid name isMain).edit.runOn
      ((create product interval).after before)).1 = .ok (.handle handle)) :
    handle = (before.flatMap ProfileRequest.threads).length ∧
      ((create product interval).after requests).threads[handle]?.map Thread.bare =
        some ⟨process, tid, name, isMain, [], []⟩ := by
  have hbefore := threads_after (create product interval) before
  have hthreads := threads_after (create product interval) requests
  obtain ⟨later, rfl⟩ := h
  generalize (create product interval).after before = q at *
  -- An answer is the length of the list at the time of the call, which counts all earlier calls.
  have hhandle : handle = q.threads.length := by
    rcases Nat.lt_or_ge process q.processes.length with hlt | hge
    · have ho := List.getElem?_eq_getElem hlt
      rw [ProfileCall.edit, Edit.runOn_map _ (Edit.runOn_addThread ho tid name isMain)] at hanswer
      cases hanswer
      rfl
    · rw [ProfileCall.edit,
        Edit.runOn_map _ (Edit.runOn_addThread_of_missing hge tid name isMain)] at hanswer
      cases hanswer
  have hlength : handle = (before.flatMap ProfileRequest.threads).length := by
    have := congrArg List.length hbefore
    simpa [hhandle, create] using this
  refine ⟨hlength, ?_⟩
  rw [← List.getElem?_map, hthreads, hlength]
  simp [create, ProfileRequest.threads, ProfileCall.storedFirst]

/-- A frame that is stored on its own is read back as it was from then on. -/
theorem showFrame_of_internFrame {frame : Frame}
    (h : before ++ [.internFrame frame] <+: requests) (p : Profile) :
    ∃ stored, ((Edit.internFrame frame).runOn (p.after before)).1 = .ok stored ∧
      (p.after requests).showFrame stored = .ok frame.shown := by
  obtain ⟨stored, hrun, hshown⟩ := Edit.internFrame_spec frame (p.after before)
  refine ⟨stored, congrArg Prod.fst hrun, ?_⟩
  have hextends := ProfileTable.strings.extends_of_prefix h p
  rw [after_append, ProfileTable.strings.of_after (p.after before), List.flatMap_singleton]
    at hextends
  exact showFrame_mono hextends hshown

/-- After any requests to a new profile, answered or not, its three tables are faithful: of texts,
of categories, and of schemas. The category for everything without one is the first, the handle of a
text denotes that text, a stored frame is read back with its texts, and the handle of a thread is
its place among the threads, of which there is one for each that was asked for. -/
theorem tables_are_faithful (requests : List ProfileRequest) :
    let start := create product interval
    ProfileTable.strings.Faithful start requests ∧
    ProfileTable.categories.Faithful start requests ∧
    ProfileTable.schemas.Faithful start requests ∧
    (start.after requests).categories.get? otherCategory = some ⟨"Other", .grey⟩ ∧
    (∀ before text, before ++ [.call (.internString text)] <+: requests →
      ∃ handle, ((ProfileCall.internString text).edit.runOn (start.after before)).1 =
          .ok (.handle handle) ∧ (start.after requests).getString handle = .ok text) ∧
    (∀ before frame, before ++ [.internFrame frame] <+: requests →
      ∃ stored, ((Edit.internFrame frame).runOn (start.after before)).1 = .ok stored ∧
        (start.after requests).showFrame stored = .ok frame.shown) ∧
    (start.after requests).threads.length =
      (requests.flatMap ProfileRequest.threads).length ∧
    ∀ before process tid name isMain handle,
      before ++ [.call (.addThread process tid name isMain)] <+: requests →
      ((ProfileCall.addThread process tid name isMain).edit.runOn (start.after before)).1 =
        .ok (.handle handle) →
      handle = (before.flatMap ProfileRequest.threads).length ∧
        (start.after requests).threads[handle]?.map Thread.bare =
          some ⟨process, tid, name, isMain, [], []⟩ := by
  intro start
  have hstrings := ProfileTable.strings.faithful product interval requests
  have hcategories := ProfileTable.categories.faithful product interval requests
  have hschemas := ProfileTable.schemas.faithful product interval requests
  have hother : (start.after requests).categories.get? otherCategory = some ⟨"Other", .grey⟩ :=
    hcategories.stable [] List.nil_prefix otherCategory ⟨"Other", .grey⟩ rfl
  have htexts : ∀ before text, before ++ [.call (.internString text)] <+: requests →
      ∃ handle, ((ProfileCall.internString text).edit.runOn (start.after before)).1 =
          .ok (.handle handle) ∧ (start.after requests).getString handle = .ok text := by
    intro before text hbefore
    obtain ⟨handle, hanswer, hfound⟩ := hstrings.answered before text hbefore
    obtain ⟨kept, hkept, hkey⟩ := Catalogue.get?_of_find? hfound
    have htext : kept = text := hkey
    exact ⟨handle, hanswer, getString_eq_ok_iff.mpr (htext ▸ hkept)⟩
  have hcount : (start.after requests).threads.length =
      (requests.flatMap ProfileRequest.threads).length := by
    have hlength := congrArg List.length (threads_after start requests)
    simpa [start, create] using hlength
  refine ⟨hstrings, hcategories, hschemas, hother, htexts, ?_, hcount, ?_⟩
  · intro before frame hbefore
    exact showFrame_of_internFrame hbefore start
  · intro before process tid name isMain handle hbefore hanswer
    exact thread_of_answer product interval hbefore hanswer

/-- A thread without a process takes the first place, and the next thread has the second handle. -/
example : ((ProfileCall.addThread 0 (.number 2) "main" true).edit.runOn
    ((create "tracer" 1).after [.call (.addThread 0 (.number 1) "idle" false),
      .call (.addProcess (.number 7) "app")])).1 = .ok (.handle 1) := rfl

end Profile

end TraceProfile
