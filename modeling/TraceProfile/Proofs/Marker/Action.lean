import TraceProfile.Marker.Action
import TraceProfile.Proofs.Text.Cutting
import TraceProfile.Proofs.Text.Pattern

/-!
# The grammar of actions

An action names an atom and a collection if it is an atom, a slash, a type, a dash and an id, apart
from a line feed at its end. There is one way at most to take an action apart like that, and a
search for the pattern finds it, although runs of the pattern may at first take too much. Labels
come from these parts only; any other action is the category as it stands and has no labels.
-/

namespace TraceProfile

namespace Action

/-- An atom, a slash, a type, a dash and an id. -/
def pattern : List Text.PatternPiece :=
  [.run (· ≠ '/'), .char '/', .run fun c => c ≠ '/' && c ≠ '-', .char '-', .run (· ≠ '\n')]

/-- The parts of an action that the runs of the pattern take. -/
def parts (a : Action) : List (List Char) := [a.atom, a.type, a.id]

/-- A text is an atom, a slash, a type, a dash and an id, with or without a line feed behind. -/
structure WrittenAs (a : Action) (cs : List Char) : Prop where
  /-- The parts with their separators. -/
  spelled : ∃ ending, (ending = [] ∨ ending = ['\n']) ∧
    cs = a.atom ++ '/' :: (a.type ++ '-' :: (a.id ++ ending))
  /-- The atom is not empty and has no slash. -/
  atom : a.atom ≠ [] ∧ '/' ∉ a.atom
  /-- The type is not empty and has no slash and no dash. -/
  type : a.type ≠ [] ∧ '/' ∉ a.type ∧ '-' ∉ a.type
  /-- The id is not empty and has no line feed. -/
  id : a.id ≠ [] ∧ '\n' ∉ a.id

variable {a b : Action} {cs : List Char}

/-- A line feed is dropped at most. -/
theorem eq_dropLineFeed_append (cs : List Char) :
    ∃ ending, (ending = [] ∨ ending = ['\n']) ∧ cs = dropLineFeed cs ++ ending := by
  unfold dropLineFeed
  by_cases hlast : cs.getLast? = some '\n'
  · rw [if_pos hlast]
    obtain ⟨front, rfl⟩ := List.getLast?_eq_some_iff.mp hlast
    exact ⟨['\n'], .inr rfl, by rw [List.dropLast_concat]⟩
  · rw [if_neg hlast]
    exact ⟨[], .inl rfl, (List.append_nil cs).symm⟩

/-- Text without line feeds is what is left of it with a line feed behind. -/
theorem dropLineFeed_append {ending : List Char} (hcs : '\n' ∉ cs)
    (hending : ending = [] ∨ ending = ['\n']) : dropLineFeed (cs ++ ending) = cs := by
  rcases hending with rfl | rfl
  · have hlast : cs.getLast? ≠ some '\n' := fun h => hcs (List.mem_of_getLast? h)
    rw [List.append_nil, dropLineFeed, if_neg hlast]
  · rw [dropLineFeed, if_pos List.getLast?_concat, List.dropLast_concat]

/-- An action is read exactly if it is written like that. -/
theorem read?_eq_some_iff {s : String} : read? s = some a ↔ a.WrittenAs s.toList := by
  constructor
  · intro h
    obtain ⟨⟨atom, rest⟩, hatom, h⟩ := Option.bind_eq_some_iff.mp h
    obtain ⟨⟨type, last⟩, htype, h⟩ := Option.bind_eq_some_iff.mp h
    obtain ⟨hspelled, hslash⟩ := Text.cutList?_eq_some_iff.mp hatom
    obtain ⟨hrest, hdash⟩ := Text.cutList?_eq_some_iff.mp htype
    dsimp only at h
    split at h
    · cases h
    · rename_i hflaw
      cases h
      obtain ⟨ending, hending, hlast⟩ := eq_dropLineFeed_append last
      simp only [List.isEmpty_iff, List.contains_iff_mem, not_or] at hflaw
      obtain ⟨hatom, htype, hslash', hid, hfeed⟩ := hflaw
      exact ⟨⟨ending, hending, by rw [hspelled, hrest, ← hlast]⟩, ⟨hatom, hslash⟩,
        ⟨htype, hslash', hdash⟩, ⟨hid, hfeed⟩⟩
  · rintro ⟨⟨ending, hending, hspelled⟩, ⟨hatom, hslash⟩, ⟨htype, hslash', hdash⟩, ⟨hid, hfeed⟩⟩
    have hrest : dropLineFeed (a.id ++ ending) = a.id := dropLineFeed_append hfeed hending
    rw [read?, hspelled, Text.cutList?_append hslash]
    refine Option.bind_eq_some_iff.mpr ⟨_, rfl, ?_⟩
    dsimp only
    rw [Text.cutList?_append hdash]
    refine Option.bind_eq_some_iff.mpr ⟨_, rfl, ?_⟩
    dsimp only
    rw [hrest, if_neg]
    simp [hatom, htype, hslash', hid, hfeed]

/-- An action is taken apart in one way at most. -/
theorem WrittenAs.unique (ha : a.WrittenAs cs) (hb : b.WrittenAs cs) : a = b := by
  rw [← String.toList_ofList (l := cs)] at ha hb
  exact Option.some.inj ((read?_eq_some_iff.mpr ha).symm.trans (read?_eq_some_iff.mpr hb))

/-- The runs of the pattern take the parts of an action that is written like that. -/
theorem fits_pattern_iff {runs : List (List Char)} :
    Text.Fits pattern cs runs ↔ ∃ a : Action, a.WrittenAs cs ∧ runs = a.parts := by
  have hout {c : Char} {part : List Char} : (∀ d ∈ part, decide (d ≠ c) = true) ↔ c ∉ part := by
    simp only [decide_eq_true_eq, List.forall_mem_ne']
  have hplain {part : List Char} : (∀ d ∈ part, (decide (d ≠ '/') && decide (d ≠ '-')) = true) ↔
      '/' ∉ part ∧ '-' ∉ part := by
    simp only [Bool.and_eq_true, forall_and, hout]
  rw [pattern, Text.fits_run_iff]
  constructor
  · rintro ⟨atom, _, _, rfl, rfl, hatom, hslash, hfits⟩
    obtain ⟨_, rfl, hcollection⟩ := Text.fits_char_iff.mp hfits
    obtain ⟨type, _, _, rfl, rfl, htype, hclass, hfits⟩ := Text.fits_run_iff.mp hcollection
    obtain ⟨_, rfl, hlast⟩ := Text.fits_char_iff.mp hfits
    obtain ⟨id, ending, _, rfl, rfl, hid, hfeed, hend⟩ := Text.fits_run_iff.mp hlast
    obtain ⟨hending, rfl⟩ := Text.fits_nil_iff.mp hend
    exact ⟨⟨atom, type, id⟩, ⟨⟨ending, hending, rfl⟩, ⟨hatom, hout.mp hslash⟩,
      ⟨htype, hplain.mp hclass⟩, ⟨hid, hout.mp hfeed⟩⟩, rfl⟩
  · rintro ⟨a, ⟨⟨ending, hending, rfl⟩, ⟨hatom, hslash⟩, ⟨htype, hclass⟩, ⟨hid, hfeed⟩⟩, rfl⟩
    have hlast : Text.Fits [] ending [] := Text.fits_nil_iff.mpr ⟨hending, rfl⟩
    exact ⟨_, _, _, rfl, rfl, hatom, hout.mpr hslash,
      .char (.run htype (hplain.mpr hclass) (.char (.run hid (hout.mpr hfeed) hlast)))⟩

/-- A search for the pattern finds the parts of an action exactly if the action is read. -/
theorem search_pattern (s : String) :
    Text.search pattern s.toList = (read? s).map parts := by
  cases hread : read? s with
  | none =>
    refine Option.eq_none_iff_forall_ne_some.mpr fun runs hruns => ?_
    obtain ⟨a, ha, -⟩ := fits_pattern_iff.mp (Text.fits_of_search hruns)
    cases hread.symm.trans (read?_eq_some_iff.mpr ha)
  | some a =>
    have ha : a.WrittenAs s.toList := read?_eq_some_iff.mp hread
    obtain ⟨runs, hruns⟩ := (fits_pattern_iff.mpr ⟨a, ha, rfl⟩).exists_search
    obtain ⟨b, hb, rfl⟩ := fits_pattern_iff.mp (Text.fits_of_search hruns)
    rw [hruns, ha.unique hb, Option.map_some]

/-- How an action is filed that can be read. -/
theorem labels_spec (a : Action) (message : String) (kind : SpanKind) :
    (a.labels message kind).profiler = some (String.ofList
        (a.type ++ '-' :: (a.id.take 8 ++ ' ' :: kind.name.toList))) ∧
      (a.labels message kind).stats = some (String.ofList
        (a.type ++ "::".toList ++ message.toList ++ '-' :: a.id.take 8)) := by
  have hself (s : String) : toString s = s := rfl
  constructor
  · refine congrArg some (String.toList_inj.mp ?_)
    simp [hself, shownId, shownIdLength]
  · refine congrArg some (String.toList_inj.mp ?_)
    simp [hself, shownId, shownIdLength]

end Action

namespace ActionLabels

variable {action : String}

/-- An action that can be read is filed by its parts. -/
theorem ofAction_of_writtenAs {a : Action} (ha : a.WrittenAs action.toList) (message : String)
    (kind : SpanKind) : ofAction action message kind = a.labels message kind := by
  rw [ofAction, Action.read?_eq_some_iff.mpr ha]

/-- Any other action is the category. -/
theorem ofAction_of_not_writtenAs (h : ¬ ∃ a : Action, a.WrittenAs action.toList)
    (message : String) (kind : SpanKind) :
    ofAction action message kind = ⟨action, none, none⟩ := by
  have hread : Action.read? action = none :=
    Option.eq_none_iff_forall_ne_some.mpr fun a ha => h ⟨a, Action.read?_eq_some_iff.mp ha⟩
  rw [ofAction, hread]

/-- A span gets labels exactly if its action is an atom without slash, a slash, a type without slash
and dash, a dash and an id without line feed, none of them empty, and perhaps a line feed. There is
at most one way to see an action like that, and a search for the pattern that gives back what runs
have taken too much finds it. The category is then what the atom says before its first dash, and
the labels show the type and the first eight characters of the id. Otherwise the category is the
action as it stands. -/
theorem ofAction_follows_grammar (action message : String) (kind : SpanKind) :
    let labels := ofAction action message kind
    (labels.profiler.isSome ↔ ∃ a : Action, a.WrittenAs action.toList) ∧
    (labels.stats.isSome ↔ ∃ a : Action, a.WrittenAs action.toList) ∧
    (∀ a b : Action, a.WrittenAs action.toList → b.WrittenAs action.toList → a = b) ∧
    (∀ runs, Text.search Action.pattern action.toList = some runs ↔
      ∃ a : Action, a.WrittenAs action.toList ∧ runs = a.parts) ∧
    (∀ a : Action, a.WrittenAs action.toList →
      '-' ∉ labels.category.toList ∧
      (a.atom = labels.category.toList ∨
        ∃ rest, a.atom = labels.category.toList ++ '-' :: rest) ∧
      labels.profiler = some (String.ofList
        (a.type ++ '-' :: (a.id.take 8 ++ ' ' :: kind.name.toList))) ∧
      labels.stats = some (String.ofList
        (a.type ++ "::".toList ++ message.toList ++ '-' :: a.id.take 8))) ∧
    ((¬ ∃ a : Action, a.WrittenAs action.toList) → labels = ⟨action, none, none⟩) := by
  intro labels
  have hgrammar {label : ActionLabels → Option String}
      (hsome : ∀ a : Action, (label (a.labels message kind)).isSome)
      (hnone : label ⟨action, none, none⟩ = none) :
      (label labels).isSome ↔ ∃ a : Action, a.WrittenAs action.toList := by
    constructor
    · intro hlabel
      by_contra hnot
      rw [show labels = _ from ofAction_of_not_writtenAs hnot message kind, hnone] at hlabel
      cases hlabel
    · rintro ⟨a, ha⟩
      rw [show labels = _ from ofAction_of_writtenAs ha message kind]
      exact hsome a
  refine ⟨hgrammar (fun _ => rfl) rfl, hgrammar (fun _ => rfl) rfl,
    fun a b => Action.WrittenAs.unique, fun runs => ?_, fun a ha => ?_,
    fun hnot => ofAction_of_not_writtenAs hnot message kind⟩
  · rw [Action.search_pattern, Option.map_eq_some_iff]
    exact exists_congr fun a => and_congr Action.read?_eq_some_iff eq_comm
  · obtain ⟨hdash, hatom⟩ := Text.takeWhile_ne_spec '-' a.atom
    have hlabels : labels = a.labels message kind := ofAction_of_writtenAs ha message kind
    have hcategory : labels.category.toList = a.atom.takeWhile (· ≠ '-') := by
      rw [hlabels, Action.labels, Action.category, String.toList_ofList]
    rw [hcategory, hlabels]
    exact ⟨hdash, hatom, Action.labels_spec a message kind⟩

/-- Dashes in the atom, slashes and dashes in the id, and a line feed at the end; a second line
feed, or a slash where the type should be, and there are no labels. -/
example :
    ofAction "cpu-0/work-42/1-abcdef\n" "load" .total =
        ⟨"cpu", some "work-42/1-abc Total", some "work::load-42/1-abc"⟩ ∧
      ofAction "cpu/work-42\n\n" "load" .total = ⟨"cpu/work-42\n\n", none, none⟩ ∧
      ofAction "cpu/a/work-42" "load" .total = ⟨"cpu/a/work-42", none, none⟩ := by
  decide +kernel

end ActionLabels

end TraceProfile
