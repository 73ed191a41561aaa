import TraceProfile.Text.Blank

/-!
# Cutting text

Text is stripped at its ends, cut at separators and cut into lines. The operations on lists
of characters carry the rules; those on strings only wrap them.
-/

namespace TraceProfile.Text

/-- Drop the characters in the class from the end of a list. -/
def trimEnd (inClass : Char → Bool) (cs : List Char) : List Char :=
  (cs.reverse.dropWhile inClass).reverse

/-- Drop the characters in the class from both ends of a list. -/
def trim (inClass : Char → Bool) (cs : List Char) : List Char :=
  trimEnd inClass (cs.dropWhile inClass)

/-- Text without the blanks at its ends. -/
def strip (s : String) : String := String.ofList (trim isBlank s.toList)

/-- Text without the carriage returns and line feeds at its end. -/
def stripLineEnd (s : String) : String :=
  String.ofList (trimEnd (fun c => c == '\r' || c == '\n') s.toList)

/-- The parts before and after the first separator, if there is one. -/
def cutList? (separator : Char) : List Char → Option (List Char × List Char)
  | [] => none
  | c :: rest =>
    if c = separator then some ([], rest)
    else (cutList? separator rest).map fun (before, after) => (c :: before, after)

/-- The parts of a text before and after the first separator, if there is one. -/
def cut? (separator : Char) (s : String) : Option (String × String) :=
  (cutList? separator s.toList).map fun (before, after) =>
    (String.ofList before, String.ofList after)

/-- The part of a text before the first separator, all of it if there is none. -/
def before (separator : Char) (s : String) : String :=
  String.ofList (s.toList.takeWhile (· ≠ separator))

/-- The parts between the first separators, at most as many as the bound allows; the last part
keeps the separators that are left. -/
def splitList (separator : Char) : Nat → List Char → List (List Char)
  | 0, cs => [cs]
  | bound + 1, cs =>
    match cutList? separator cs with
    | none => [cs]
    | some (first, rest) => first :: splitList separator bound rest

/-- The parts of a text between its first separators, with at most the given number of cuts. -/
def splitAtMost (separator : Char) (cuts : Nat) (s : String) : List String :=
  (splitList separator cuts s.toList).map String.ofList

/-- The characters that end a line of text. -/
def isLineBreak (c : Char) : Bool :=
  c == '\n' || c == '\r' || c == '\x0b' || c == '\x0c' || c == '\x1c' || c == '\x1d' ||
    c == '\x1e' || c == '\u0085' || c == '\u2028' || c == '\u2029'

/-- The lines of a text without their breaks. A carriage return before a line feed belongs to
the same break, and a break at the end starts no further line. -/
def linesOfList : List Char → List (List Char)
  | [] => []
  | '\r' :: '\n' :: rest => [] :: linesOfList rest
  | c :: rest =>
    if isLineBreak c then [] :: linesOfList rest
    else
      match linesOfList rest with
      | [] => [[c]]
      | line :: lines => (c :: line) :: lines

/-- The lines of a text without their breaks. -/
def lines (s : String) : List String := (linesOfList s.toList).map String.ofList

/-- The same characters with every carriage return, alone or before a line feed, turned into
one line feed. -/
def unifyLineEnds : List Char → List Char
  | [] => []
  | '\r' :: '\n' :: rest => '\n' :: unifyLineEnds rest
  | '\r' :: rest => '\n' :: unifyLineEnds rest
  | c :: rest => c :: unifyLineEnds rest

/-- A text file's characters cut at its line feeds, after all line ends have been unified. -/
def fileLines (s : String) : List String :=
  ((unifyLineEnds s.toList).splitOn '\n').map String.ofList

/-- The lines that have ended for certain, after all line ends have been unified: a carriage
return at the end may belong to a line feed that is still to come. -/
def endedLines (cs : List Char) : List String :=
  let cs := if cs.getLast? = some '\r' then cs.dropLast else cs
  ((unifyLineEnds cs).splitOn '\n').dropLast.map String.ofList

/-- A list cut after every separator. -/
def cutAfter {α : Type} [DecidableEq α] (separator : α) : List α → List (List α)
  | [] => []
  | a :: rest =>
    if a = separator then [a] :: cutAfter separator rest
    else
      match cutAfter separator rest with
      | [] => [[a]]
      | piece :: pieces => (a :: piece) :: pieces

/-- Text padded with spaces on the right up to the given number of characters. -/
def padRight (width : Nat) (s : String) : String :=
  String.ofList (s.toList ++ List.replicate (width - s.length) ' ')

/-- A cut loses nothing but the separator. -/
theorem eq_append_of_cutList? {separator : Char} {cs before after : List Char}
    (h : cutList? separator cs = some (before, after)) :
    cs = before ++ separator :: after ∧ separator ∉ before := by
  induction cs generalizing before with
  | nil => simp [cutList?] at h
  | cons c rest ih =>
    rw [cutList?] at h
    split at h
    · simp_all
    · obtain ⟨⟨first, last⟩, found, same⟩ := Option.map_eq_some_iff.1 h
      simp only [Prod.mk.injEq] at same
      obtain ⟨rfl, rfl⟩ := same
      have := ih found
      simp_all [eq_comm]

end TraceProfile.Text
