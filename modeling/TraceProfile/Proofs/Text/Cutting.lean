import Mathlib.Data.List.TakeWhile
import TraceProfile.Text.Split

/-!
# Cutting text that was put together

Parts without separators that are joined by separators are cut into these parts again. The lines
of a text are those that were put between line breaks; which breaks were used can be told from the
empty lines only, so it does not matter where blank lines are dropped.
-/

namespace TraceProfile.Text

variable {inClass : Char → Bool} {cs : List Char}

/-- Nothing is dropped from the end of a text without characters of the class. -/
theorem trimEnd_eq_self (h : ∀ c ∈ cs, inClass c = false) : trimEnd inClass cs = cs := by
  rw [trimEnd]
  cases hreverse : cs.reverse with
  | nil => rw [List.reverse_eq_nil_iff.mp hreverse]; rfl
  | cons c rest =>
    have hc : inClass c = false :=
      h c (List.mem_reverse.mp (hreverse ▸ List.mem_cons_self))
    rw [List.dropWhile_cons_of_neg (by simp [hc]), ← hreverse, List.reverse_reverse]

/-- Nothing is dropped from either end of such a text. -/
theorem trim_eq_self (h : ∀ c ∈ cs, inClass c = false) : trim inClass cs = cs := by
  have hfront : cs.dropWhile inClass = cs := by
    cases cs with
    | nil => rfl
    | cons c rest => exact List.dropWhile_cons_of_neg (by simp [h c List.mem_cons_self])
  rw [trim, hfront, trimEnd_eq_self h]

/-- What is dropped from the end is in the class. -/
theorem eq_trimEnd_append (inClass : Char → Bool) (cs : List Char) :
    ∃ dropped, cs = trimEnd inClass cs ++ dropped ∧ ∀ c ∈ dropped, inClass c = true := by
  refine ⟨(cs.reverse.takeWhile inClass).reverse, ?_, fun c hc => ?_⟩
  · rw [trimEnd, ← List.reverse_append, List.takeWhile_append_dropWhile, List.reverse_reverse]
  · exact List.mem_takeWhile_imp (List.mem_reverse.mp hc)

section Separators

variable {separator : Char} {first rest : List Char}

/-- A text is cut at the separator behind a part that has none. -/
theorem cutList?_append (h : separator ∉ first) :
    cutList? separator (first ++ separator :: rest) = some (first, rest) := by
  induction first with
  | nil => rw [List.nil_append, cutList?, if_pos rfl]
  | cons c first ih =>
    obtain ⟨hc, hfirst⟩ := not_or.mp (fun hmem => h (List.mem_cons.mpr hmem))
    rw [List.cons_append, cutList?, if_neg (Ne.symm hc), ih hfirst]
    rfl

/-- A cut at the first separator is the only one that leaves no separator in front. -/
theorem cutList?_eq_some_iff :
    cutList? separator cs = some (first, rest) ↔
      cs = first ++ separator :: rest ∧ separator ∉ first :=
  ⟨eq_append_of_cutList?, fun ⟨hcs, hfirst⟩ => hcs ▸ cutList?_append hfirst⟩

/-- What comes before the first separator has none in it, and is followed by one or by nothing. -/
theorem takeWhile_ne_spec (separator : Char) (cs : List Char) :
    separator ∉ cs.takeWhile (· ≠ separator) ∧
      (cs = cs.takeWhile (· ≠ separator) ∨
        ∃ rest, cs = cs.takeWhile (· ≠ separator) ++ separator :: rest) := by
  have hparts := List.takeWhile_append_dropWhile (p := fun c => decide (c ≠ separator)) (l := cs)
  refine ⟨fun hmem => by simpa using List.mem_takeWhile_imp hmem, ?_⟩
  cases hrest : cs.dropWhile (· ≠ separator) with
  | nil =>
    rw [hrest, List.append_nil] at hparts
    exact .inl hparts.symm
  | cons c rest =>
    have hc : c = separator := by
      have hhead := List.head?_dropWhile_not (fun c => decide (c ≠ separator)) cs
      rw [hrest] at hhead
      simpa using hhead
    rw [hrest, hc] at hparts
    exact .inr ⟨rest, hparts.symm⟩

/-- There is more than one part if there is a separator, and then the first part ends there. -/
theorem splitList_eq_cons_cons_iff {bound : Nat} {second : List Char} {others : List (List Char)} :
    splitList separator (bound + 1) cs = first :: second :: others ↔
      ∃ rest, cs = first ++ separator :: rest ∧ separator ∉ first ∧
        splitList separator bound rest = second :: others := by
  rw [splitList]
  cases hcut : cutList? separator cs with
  | none =>
    refine iff_of_false (by simp) ?_
    rintro ⟨rest, hcs, hfirst, -⟩
    rw [hcs, cutList?_append hfirst] at hcut
    cases hcut
  | some parts =>
    obtain ⟨before, after⟩ := parts
    obtain ⟨rfl, hbefore⟩ := cutList?_eq_some_iff.mp hcut
    rw [List.cons.injEq]
    constructor
    · rintro ⟨rfl, hsplit⟩
      exact ⟨after, rfl, hbefore, hsplit⟩
    · rintro ⟨rest, hcs, hfirst, hsplit⟩
      rw [hcs, cutList?_append hfirst] at hcut
      cases hcut
      exact ⟨rfl, hsplit⟩

/-- The first part ends at the first separator. -/
theorem splitList_append (h : separator ∉ first) (bound : Nat) :
    splitList separator (bound + 1) (first ++ separator :: rest) =
      first :: splitList separator bound rest := by
  rw [splitList, cutList?_append h]

/-- There is one part more than there are separators, as far as the bound allows. -/
theorem length_splitList (bound : Nat) (cs : List Char) :
    (splitList separator bound cs).length = min bound (cs.count separator) + 1 := by
  induction bound generalizing cs with
  | zero => simp [splitList]
  | succ bound ih =>
    by_cases hmem : separator ∈ cs
    · obtain ⟨first, rest, rfl, hfirst⟩ := List.eq_append_cons_of_mem hmem
      rw [splitList_append hfirst, List.length_cons, ih, List.count_append,
        List.count_eq_zero_of_not_mem hfirst, List.count_cons_self]
      omega
    · have hnone : cutList? separator cs = none := by
        refine Option.eq_none_iff_forall_ne_some.mpr fun ⟨first, rest⟩ hcut => hmem ?_
        simp [(eq_append_of_cutList? hcut).1]
      rw [splitList, hnone, List.count_eq_zero_of_not_mem hmem]
      rfl

/-- As many parts as there can be are those that are joined by separators and have none in
themselves, but for the last one. -/
theorem splitList_eq_iff {parts : List (List Char)} {bound : Nat}
    (hlength : parts.length = bound + 1) :
    splitList separator bound cs = parts ↔
      cs = [separator].intercalate parts ∧ ∀ part ∈ parts.dropLast, separator ∉ part := by
  induction bound generalizing cs parts with
  | zero =>
    obtain ⟨part, rfl⟩ := List.length_eq_one_iff.mp hlength
    simp [splitList]
  | succ bound ih =>
    obtain ⟨first, second, others, rfl⟩ :
        ∃ first second others, parts = first :: second :: others :=
      match parts, hlength with
      | first :: second :: others, _ => ⟨first, second, others, rfl⟩
    have hrest : (second :: others).length = bound + 1 := by simpa using hlength
    rw [splitList_eq_cons_cons_iff]
    simp only [ih hrest]
    rw [List.dropLast_cons_of_ne_nil (List.cons_ne_nil _ _), List.forall_mem_cons]
    constructor
    · rintro ⟨rest, rfl, hfirst, rfl, hothers⟩
      exact ⟨by simp [List.intercalate], hfirst, hothers⟩
    · rintro ⟨rfl, hfirst, hothers⟩
      exact ⟨_, by simp [List.intercalate], hfirst, rfl, hothers⟩

/-- A text is cut into as many parts as there can be if it is these parts, joined by separators, and
none but the last one has a separator in itself. -/
theorem splitAtMost_eq_iff {s : String} {parts : List String} {cuts : Nat}
    (hlength : parts.length = cuts + 1) :
    splitAtMost separator cuts s = parts ↔
      s.toList = [separator].intercalate (parts.map String.toList) ∧
        ∀ part ∈ parts.dropLast, separator ∉ part.toList := by
  have hlists : splitAtMost separator cuts s = parts ↔
      splitList separator cuts s.toList = parts.map String.toList := by
    rw [splitAtMost,
      ← List.map_inj_right (f := String.toList) fun _ _ h => String.toList_inj.mp h, List.map_map]
    simp [Function.comp_def]
  rw [hlists, splitList_eq_iff (by rw [List.length_map, hlength]), ← List.map_dropLast,
    List.forall_mem_map]

/-- A text is cut in three at its first two separators. -/
theorem splitAtMost_two_eq_iff {s first second third : String} (mark : String)
    (hmark : mark.toList = [separator]) :
    splitAtMost separator 2 s = [first, second, third] ↔
      s = first ++ mark ++ second ++ mark ++ third ∧ separator ∉ first.toList ∧
        separator ∉ second.toList := by
  rw [splitAtMost_eq_iff rfl, ← String.toList_inj]
  simp [List.intercalate, hmark]

end Separators

/-- What ends a line: a carriage return with a line feed, or one character alone. -/
inductive LineEnd where
  /-- A carriage return and a line feed. -/
  | returnFeed
  /-- One of the characters that end a line. -/
  | single (c : Char) (breaks : isLineBreak c = true)

/-- The characters at the end of a line. -/
def LineEnd.chars : LineEnd → List Char
  | returnFeed => ['\r', '\n']
  | single c _ => [c]

/-- The text has no line break in it. -/
def IsLine (cs : List Char) : Prop := ∀ c ∈ cs, isLineBreak c = false

instance (cs : List Char) : Decidable (IsLine cs) :=
  decidable_of_iff (cs.all (!isLineBreak ·) = true) (by simp [IsLine])

/-- A line has no end to be taken off. -/
theorem IsLine.stripLineEnd_eq_self {s : String} (h : IsLine s.toList) : stripLineEnd s = s := by
  rw [stripLineEnd, trimEnd_eq_self fun c hc => ?_, String.ofList_toList]
  have hreturn : c ≠ '\r' := by
    rintro rfl
    cases h _ hc
  have hfeed : c ≠ '\n' := by
    rintro rfl
    cases h _ hc
  simp [hreturn, hfeed]

/-- Further lines of a text, each after the end of the one before it. -/
def joinLines : List (LineEnd × List Char) → List Char
  | [] => []
  | (ending, line) :: rest => ending.chars ++ line ++ joinLines rest

/-- The lines of a text that are not blank. -/
def visibleLines (cs : List Char) : List (List Char) :=
  (linesOfList cs).filter fun line => !line.all isBlank

/-- Text that comes behind a line: none, or text that starts with a break. -/
def EndsLine (cs : List Char) : Prop := ∀ c ∈ cs.head?, isLineBreak c = true

/-- Further lines start with a break. -/
theorem endsLine_joinLines (lines : List (LineEnd × List Char)) : EndsLine (joinLines lines) := by
  cases lines with
  | nil => exact fun _ h => nomatch h
  | cons first rest =>
    obtain ⟨ending, line⟩ := first
    intro c hc
    cases ending with
    | returnFeed =>
      cases hc
      rfl
    | single b hb =>
      cases hc
      exact hb

/-- A break starts a line without characters, whatever comes behind it. -/
theorem linesOfList_of_break {c : Char} (hc : isLineBreak c = true) (rest : List Char) :
    ∃ more, linesOfList (c :: rest) = [] :: more ∧
      (more = linesOfList rest ∨ linesOfList rest = [] :: more) := by
  rw [linesOfList.eq_def]
  split
  · rename_i heq
    cases heq
  · rename_i rest' heq
    cases heq
    refine ⟨linesOfList rest', rfl, .inr ?_⟩
    rw [linesOfList.eq_def]
    rfl
  · rename_i heq
    cases heq
    rw [if_pos hc]
    exact ⟨_, rfl, .inl rfl⟩

/-- A break only ends a line; one that is empty is not visible. -/
theorem visibleLines_break {c : Char} (hc : isLineBreak c = true) (rest : List Char) :
    visibleLines (c :: rest) = visibleLines rest := by
  obtain ⟨more, hmore, rfl | hrest⟩ := linesOfList_of_break hc rest
  · rw [visibleLines, hmore]
    rfl
  · rw [visibleLines, visibleLines, hmore, hrest]

/-- The end of a line makes no line of its own visible. -/
theorem visibleLines_ending (ending : LineEnd) (rest : List Char) :
    visibleLines (ending.chars ++ rest) = visibleLines rest := by
  cases ending with
  | returnFeed =>
    change visibleLines ('\r' :: '\n' :: rest) = _
    rw [visibleLines_break rfl, visibleLines_break rfl]
  | single c hc => exact visibleLines_break hc rest

/-- Where a line has ended, only what comes after the break matters. -/
theorem visibleLines_eq_tail {rest : List Char} (h : EndsLine rest) :
    visibleLines rest = (linesOfList rest).tail.filter fun line => !line.all isBlank := by
  cases rest with
  | nil => rfl
  | cons c rest =>
    obtain ⟨more, hmore, -⟩ := linesOfList_of_break (h c rfl) rest
    rw [visibleLines, hmore]
    rfl

/-- A character that breaks no line comes to the front of the line that follows. -/
theorem linesOfList_cons {c : Char} (hc : isLineBreak c = false) (rest : List Char) :
    linesOfList (c :: rest) =
      match linesOfList rest with
      | [] => [[c]]
      | line :: lines => (c :: line) :: lines := by
  rw [linesOfList.eq_def]
  split
  · rename_i heq
    cases heq
  · rename_i heq
    cases heq
    cases hc
  · rename_i heq
    cases heq
    exact if_neg (by simp [hc])

/-- A line is cut off where it ends. -/
theorem linesOfList_append {line rest : List Char} (hline : IsLine line) (hrest : EndsLine rest)
    (hne : line ≠ []) : linesOfList (line ++ rest) = line :: (linesOfList rest).tail := by
  induction line with
  | nil => exact absurd rfl hne
  | cons c line ih =>
    obtain ⟨hc, hline'⟩ := List.forall_mem_cons.mp hline
    rw [List.cons_append, linesOfList_cons hc]
    cases line with
    | cons d line => rw [ih hline' (List.cons_ne_nil d line)]
    | nil =>
      cases rest with
      | nil => rfl
      | cons b rest =>
        obtain ⟨more, hmore, -⟩ := linesOfList_of_break (hrest b rfl) rest
        rw [List.nil_append, hmore]
        rfl

/-- The visible lines of a text are those that were put into it. -/
theorem visibleLines_joinLines {lines : List (LineEnd × List Char)}
    (hlines : ∀ entry ∈ lines, IsLine entry.2) :
    visibleLines (joinLines lines) =
      (lines.map (·.2)).filter fun line => !line.all isBlank := by
  induction lines with
  | nil => rfl
  | cons first rest ih =>
    obtain ⟨ending, line⟩ := first
    obtain ⟨hline, hrest⟩ := List.forall_mem_cons.mp hlines
    rw [joinLines, List.append_assoc, visibleLines_ending, List.map_cons, List.filter_cons,
      ← ih hrest]
    by_cases hne : line = []
    · rw [hne]
      rfl
    · have hends := endsLine_joinLines rest
      rw [visibleLines, linesOfList_append hline hends hne, List.filter_cons,
        ← visibleLines_eq_tail hends]

end TraceProfile.Text
