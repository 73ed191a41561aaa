import Mathlib.Data.List.Basic
import TraceProfile.Profile.Schema

/-!
# Field names in type names

The type name of a schema holds the names of its further fields, escaped and joined with commas.
They can be read back from left to right, so that two lists of names share a type name only if
they are equal, with one exception: the list without a name and the list of just the empty name
both leave nothing to read.
-/

namespace TraceProfile.MarkerSchema

/-- The field names in a type name, the first one apart: a backslash takes the character after it
as it stands, and any other comma ends a name. -/
def readNames : List Char → List Char × List (List Char)
  | [] => ([], [])
  | '\\' :: c :: rest => (c :: (readNames rest).1, (readNames rest).2)
  | c :: rest =>
    if c = ',' then ([], (readNames rest).1 :: (readNames rest).2)
    else (c :: (readNames rest).1, (readNames rest).2)

/-- Names inside a type name. -/
def joinNames (names : List (List Char)) : List Char := [','].intercalate (names.map escapeName)

/-- The suffix is made of the characters of the names. -/
theorem nameSuffix_eq (names : List String) :
    nameSuffix names = String.ofList (joinNames (names.map String.toList)) := by
  rw [nameSuffix, joinNames, List.map_map]
  rfl

/-- One escaped character is read as itself. -/
theorem readNames_escapeNameChar (c : Char) (rest : List Char) :
    readNames (escapeNameChar c ++ rest) = (c :: (readNames rest).1, (readNames rest).2) := by
  unfold escapeNameChar
  split
  · rw [List.cons_append, List.singleton_append, readNames]
  · rename_i hplain
    obtain ⟨hbackslash, hcomma⟩ := not_or.mp hplain
    rw [List.singleton_append, readNames.eq_3 c rest (fun _ _ h => absurd h hbackslash),
      if_neg hcomma]

/-- An escaped name is read as itself, in front of what follows. -/
theorem readNames_escapeName (name rest : List Char) :
    readNames (escapeName name ++ rest) = (name ++ (readNames rest).1, (readNames rest).2) := by
  induction name with
  | nil => rfl
  | cons c name ih =>
    rw [escapeName, List.flatMap_cons, List.append_assoc, readNames_escapeNameChar, ← escapeName,
      ih, List.cons_append]

/-- Joined names are read back; there must be one. -/
theorem readNames_joinNames (name : List Char) (names : List (List Char)) :
    readNames (joinNames (name :: names)) = (name, names) := by
  induction names generalizing name with
  | nil =>
    have hread := readNames_escapeName name []
    rw [List.append_nil, readNames, List.append_nil] at hread
    rw [joinNames, List.map_singleton, List.intercalate_singleton]
    exact hread
  | cons next names ih =>
    have hcomma : readNames (',' :: joinNames (next :: names)) = ([], next :: names) := by
      rw [readNames.eq_3 _ _ (fun _ _ h => absurd h (by decide)), if_pos rfl, ih]
    rw [joinNames, List.map_cons, List.map_cons, List.intercalate_cons_cons, List.append_assoc,
      List.singleton_append, ← List.map_cons, ← joinNames, readNames_escapeName, hcomma,
      List.append_nil]

/-- Lists of names are told apart by what is joined, except for the list without a name and the
list of just the empty name. -/
theorem joinNames_eq_iff {xs ys : List (List Char)} :
    joinNames xs = joinNames ys ↔ xs = ys ∨ (xs = [] ∧ ys = [[]]) ∨ (xs = [[]] ∧ ys = []) := by
  have hnone {name : List Char} {names : List (List Char)}
      (h : joinNames [] = joinNames (name :: names)) : name :: names = [[]] := by
    have hread := readNames_joinNames name names
    rw [← h] at hread
    cases hread
    rfl
  constructor
  · intro h
    cases xs with
    | nil =>
      cases ys with
      | nil => exact .inl rfl
      | cons y ys => exact .inr (.inl ⟨rfl, hnone h⟩)
    | cons x xs =>
      cases ys with
      | nil => exact .inr (.inr ⟨hnone h.symm, rfl⟩)
      | cons y ys =>
        have hread := readNames_joinNames x xs
        rw [h, readNames_joinNames] at hread
        cases hread
        exact .inl rfl
  · rintro (rfl | ⟨rfl, rfl⟩ | ⟨rfl, rfl⟩)
    · rfl
    · rfl
    · rfl

/-- Two lists of names have the same suffix only if they are equal or are those without a name and
with an empty one. -/
theorem nameSuffix_eq_iff {xs ys : List String} :
    nameSuffix xs = nameSuffix ys ↔ xs = ys ∨ (xs = [] ∧ ys = [""]) ∨ (xs = [""] ∧ ys = []) := by
  have hinjective : Function.Injective (List.map String.toList) :=
    List.map_injective_iff.mpr fun _ _ => String.toList_inj.mp
  have hempty (names : List String) : names.map String.toList = [[]] ↔ names = [""] :=
    hinjective.eq_iff' rfl
  rw [nameSuffix_eq, nameSuffix_eq, String.ofList_inj, joinNames_eq_iff, hinjective.eq_iff, hempty,
    hempty, List.map_eq_nil_iff, List.map_eq_nil_iff]

/-- The characters, with a backslash before every occurrence of the given one. -/
def marked (target : Char) (cs : List Char) : List Char :=
  cs.flatMap fun c => if c = target then ['\\', c] else [c]

/-- A name is escaped in two passes, of which the one for backslashes comes first: it must not meet
the backslashes that the one for commas brings in. -/
theorem escapeName_eq_marked (name : List Char) :
    escapeName name = marked ',' (marked '\\' name) := by
  have hchar (c : Char) :
      escapeNameChar c = marked ',' (if c = '\\' then ['\\', c] else [c]) := by
    by_cases hbackslash : c = '\\'
    · rw [hbackslash]
      rfl
    · rw [if_neg hbackslash, escapeNameChar, marked, List.flatMap_singleton]
      by_cases hcomma : c = ','
      · rw [if_pos hcomma, if_pos (.inr hcomma)]
      · rw [if_neg hcomma, if_neg (not_or.mpr ⟨hbackslash, hcomma⟩)]
  rw [escapeName, marked, marked, List.flatMap_assoc]
  exact congrArg name.flatMap (funext hchar)

/-- The field names that are read from the end of a type name. -/
def namesIn (suffix : String) : List String :=
  ((readNames suffix.toList).1 :: (readNames suffix.toList).2).map String.ofList

/-- Field names are read back. Where there are none, one empty name is read. -/
theorem namesIn_nameSuffix (names : List String) :
    namesIn (nameSuffix names) = if names = [] then [""] else names := by
  cases names with
  | nil => rfl
  | cons name names =>
    have hread : readNames (nameSuffix (name :: names)).toList =
        (name.toList, names.map String.toList) := by
      rw [nameSuffix_eq, String.toList_ofList, List.map_cons, readNames_joinNames]
    have htext : String.ofList ∘ String.toList = id := funext fun _ => String.ofList_toList
    rw [if_neg (List.cons_ne_nil _ _), namesIn, hread]
    change ((name :: names).map String.toList).map String.ofList = name :: names
    rw [List.map_map, htext, List.map_id]

/-- The end of a type name holds the field names, each with a backslash before its backslashes and
then before its commas, and with commas between them. A reader that goes from left to right, takes
the character after a backslash as it stands and ends a name at any other comma gets them back,
except that it reads one empty name where there is none. So two lists of names give the same text
only if they are equal, or if one has no name and the other just the empty one. -/
theorem nameSuffix_reads_back :
    (∀ names : List String, nameSuffix names = String.ofList
      ([','].intercalate (names.map fun name => marked ',' (marked '\\' name.toList)))) ∧
    (∀ names, namesIn (nameSuffix names) = if names = [] then [""] else names) ∧
    ∀ xs ys, nameSuffix xs = nameSuffix ys ↔
      xs = ys ∨ (xs = [] ∧ ys = [""]) ∨ (xs = [""] ∧ ys = []) := by
  refine ⟨fun names => ?_, namesIn_nameSuffix, fun xs ys => nameSuffix_eq_iff⟩
  simp only [nameSuffix, escapeName_eq_marked]

/-- A backslash at the end of a name does not take the comma behind it. -/
example : nameSuffix ["a\\", "b"] = "a\\\\,b" ∧ nameSuffix ["a\\,b"] = "a\\\\\\,b" ∧
    namesIn "a\\\\,b" = ["a\\", "b"] := by
  decide

/-- The schema of spans, or of events, with the given further fields. -/
def ofKind (isSpan : Bool) (names : List String) : MarkerSchema :=
  if isSpan then span names else event names

/-- How the type names of a kind start. -/
def kindPrefix (isSpan : Bool) : String := if isSpan then "Span-" else "Event-"

/-- The keys of the fields that all markers of a kind have. -/
def fixedKeys (isSpan : Bool) : List String :=
  if isSpan then ["time_idle", "time_busy", "name"] else ["message"]

/-- A type name has the prefix of its kind and the suffix of its names. -/
theorem typeName_ofKind (isSpan : Bool) (names : List String) :
    (ofKind isSpan names).typeName = kindPrefix isSpan ++ nameSuffix names := by
  cases isSpan <;> rfl

/-- The keys of a schema are the fixed ones of its kind and then the names. -/
theorem keys_ofKind (isSpan : Bool) (names : List String) :
    (ofKind isSpan names).fields.map (·.key) = fixedKeys isSpan ++ names := by
  have hkeys : names.map ((·.key) ∘ textField) = names := List.map_id names
  cases isSpan <;> simp [ofKind, event, span, fixedKeys, hkeys]

/-- A schema tells its kind and its names. -/
theorem ofKind_inj {isSpan isSpan' : Bool} {xs ys : List String} :
    ofKind isSpan xs = ofKind isSpan' ys ↔ isSpan = isSpan' ∧ xs = ys := by
  constructor
  · intro h
    have hkeys := congrArg (fun schema : MarkerSchema => schema.fields.map (·.key)) h
    simp only [keys_ofKind] at hkeys
    cases isSpan <;> cases isSpan' <;> simp_all [fixedKeys]
  · rintro ⟨rfl, rfl⟩
    rfl

/-- The start of a type name tells the kind. -/
theorem kindPrefix_append_inj {isSpan isSpan' : Bool} {s s' : String}
    (h : kindPrefix isSpan ++ s = kindPrefix isSpan' ++ s') : isSpan = isSpan' := by
  have hfirst := congrArg (fun name : String => name.toList.head?) h
  cases isSpan <;> cases isSpan' <;> simp [kindPrefix] at hfirst ⊢

/-- A type name tells the kind and the field names, unless the only name is the empty one. -/
theorem typeName_eq_iff {isSpan isSpan' : Bool} {xs ys : List String} :
    (ofKind isSpan xs).typeName = (ofKind isSpan' ys).typeName ↔
      isSpan = isSpan' ∧ (xs = ys ∨ (xs = [] ∧ ys = [""]) ∨ (xs = [""] ∧ ys = [])) := by
  rw [typeName_ofKind, typeName_ofKind]
  constructor
  · intro h
    obtain rfl := kindPrefix_append_inj h
    exact ⟨rfl, nameSuffix_eq_iff.mp ((String.append_right_inj _).mp h)⟩
  · rintro ⟨rfl, h⟩
    rw [nameSuffix_eq_iff.mpr h]

end TraceProfile.MarkerSchema
