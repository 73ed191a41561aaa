import Mathlib.Data.List.TakeWhile
import TraceProfile.Text.Split

/-!
# Patterns

A pattern is a row of pieces: characters that stand as they are, and runs of characters of a class.
The text has to fit the pattern from its first character to its last, but for a line feed at its
end. A search lets every run take as many characters as it can and gives back one after the other
until the pieces behind it fit. What a search finds fits the pattern, and if there is anything that
fits, then a search does not fail.
-/

namespace TraceProfile.Text

/-- A piece of a pattern. -/
inductive PatternPiece where
  /-- This character. -/
  | char (c : Char)
  /-- Characters of a class, at least one of them. -/
  | run (inClass : Char → Bool)

/-- A text fits some pieces, the runs of which take the given parts of it. -/
inductive Fits : List PatternPiece → List Char → List (List Char) → Prop where
  /-- Nothing is left. -/
  | stop : Fits [] [] []
  /-- A line feed at the end does not count. -/
  | lineFeed : Fits [] ['\n'] []
  /-- The character is the one of the piece. -/
  | char {c : Char} {pieces : List PatternPiece} {cs : List Char} {parts : List (List Char)}
      (rest : Fits pieces cs parts) : Fits (.char c :: pieces) (c :: cs) parts
  /-- A run takes characters of its class. -/
  | run {inClass : Char → Bool} {pieces : List PatternPiece} {part cs : List Char}
      {parts : List (List Char)} (nonempty : part ≠ []) (within : ∀ c ∈ part, inClass c = true)
      (rest : Fits pieces cs parts) : Fits (.run inClass :: pieces) (part ++ cs) (part :: parts)

/-- The parts that the runs take in the first way to fit the pieces. The longest part of a run is
tried first. -/
def search : List PatternPiece → List Char → Option (List (List Char))
  | [], cs => if cs = [] ∨ cs = ['\n'] then some [] else none
  | .char _ :: _, [] => none
  | .char c :: pieces, first :: cs => if first = c then search pieces cs else none
  | .run inClass :: pieces, cs =>
    (List.range (cs.takeWhile inClass).length).reverse.findSome? fun n =>
      (search pieces (cs.drop (n + 1))).map (cs.take (n + 1) :: ·)

variable {pieces : List PatternPiece} {cs : List Char} {parts : List (List Char)}

/-- A pattern without pieces fits the end of the text, before which a line break may stand. -/
theorem fits_nil_iff : Fits [] cs parts ↔ (cs = [] ∨ cs = ['\n']) ∧ parts = [] := by
  constructor
  · rintro (_ | _)
    · exact ⟨.inl rfl, rfl⟩
    · exact ⟨.inr rfl, rfl⟩
  · rintro ⟨rfl | rfl, rfl⟩
    · exact .stop
    · exact .lineFeed

/-- A character fits itself, and the other pieces fit the rest. -/
theorem fits_char_iff {c : Char} :
    Fits (.char c :: pieces) cs parts ↔ ∃ rest, cs = c :: rest ∧ Fits pieces rest parts := by
  constructor
  · rintro ⟨⟩
    exact ⟨_, rfl, ‹_›⟩
  · rintro ⟨rest, rfl, h⟩
    exact .char h

/-- A run of a class fits one or more characters of the class, and the other pieces fit the rest. -/
theorem fits_run_iff {inClass : Char → Bool} :
    Fits (.run inClass :: pieces) cs parts ↔
      ∃ part rest others, cs = part ++ rest ∧ parts = part :: others ∧ part ≠ [] ∧
        (∀ c ∈ part, inClass c = true) ∧ Fits pieces rest others := by
  constructor
  · rintro ⟨⟩
    exact ⟨_, _, _, rfl, rfl, ‹_›, ‹_›, ‹_›⟩
  · rintro ⟨part, rest, others, rfl, rfl, hne, hwithin, h⟩
    exact .run hne hwithin h

/-- A run can take any number of the characters that it could take at most. -/
theorem mem_class_of_mem_take {inClass : Char → Bool} {n : Nat}
    (hn : n ≤ (cs.takeWhile inClass).length) : ∀ c ∈ cs.take n, inClass c = true := by
  intro c hc
  have htake : cs.take n = (cs.takeWhile inClass).take n := by
    rw [← List.take_append_of_le_length hn, List.takeWhile_append_dropWhile]
  rw [htake] at hc
  exact List.mem_takeWhile_imp (List.mem_of_mem_take hc)

/-- What a search finds fits the pattern. -/
theorem fits_of_search (h : search pieces cs = some parts) : Fits pieces cs parts := by
  induction pieces generalizing cs parts with
  | nil =>
    rw [search] at h
    split at h
    · rename_i hend
      cases h
      rcases hend with rfl | rfl
      · exact .stop
      · exact .lineFeed
    · cases h
  | cons piece pieces ih =>
    cases piece with
    | char c =>
      cases cs with
      | nil => cases h
      | cons first cs =>
        rw [search] at h
        split at h
        · rename_i hfirst
          rw [hfirst]
          exact .char (ih h)
        · cases h
    | run inClass =>
      obtain ⟨n, hmem, hfound⟩ := List.exists_of_findSome?_eq_some h
      obtain ⟨parts', hrest, rfl⟩ := Option.map_eq_some_iff.mp hfound
      have hn : n < (cs.takeWhile inClass).length := List.mem_range.mp (List.mem_reverse.mp hmem)
      have hlength : n < cs.length :=
        Nat.lt_of_lt_of_le hn (List.takeWhile_sublist _).length_le
      have hne : cs.take (n + 1) ≠ [] := by
        rw [← List.length_pos_iff, List.length_take]
        omega
      have hfits := Fits.run hne (mem_class_of_mem_take hn) (ih hrest)
      rwa [List.take_append_drop] at hfits

/-- If parts of a text fit the pattern, then a search finds some that do. -/
theorem Fits.exists_search (h : Fits pieces cs parts) : ∃ found, search pieces cs = some found := by
  induction h with
  | stop => exact ⟨[], rfl⟩
  | lineFeed => exact ⟨[], rfl⟩
  | char _ ih =>
    obtain ⟨found, hfound⟩ := ih
    exact ⟨found, by rw [search, if_pos rfl, hfound]⟩
  | @run inClass pieces part cs parts hne hwithin _ ih =>
    obtain ⟨found, hfound⟩ := ih
    -- The search comes to the length of the part, if it has not stopped at a longer one before.
    have hpos : 0 < part.length := List.length_pos_iff.mpr hne
    have hlength : part.length ≤ ((part ++ cs).takeWhile inClass).length := by
      rw [List.takeWhile_append_of_pos hwithin, List.length_append]
      omega
    rw [search, ← Option.isSome_iff_exists, List.findSome?_isSome_iff]
    refine ⟨part.length - 1, List.mem_reverse.mpr (List.mem_range.mpr (by omega)), ?_⟩
    rw [Nat.sub_add_cancel hpos, List.drop_left, hfound]
    rfl

end TraceProfile.Text
