import TraceProfile.Json.Number

/-!
# Reading JSON

A document is one value with blanks around it. Three words for numbers without digits are
accepted beside the numerals. A reader returns what follows the value, which is shorter than
what it was given. It has room for so many lists and objects inside each other, and gives up where
one more of them starts.
-/

namespace TraceProfile.Json

/-- What follows a value is shorter than the text that starts with it. -/
abbrev Shorter (cs : List Char) := { rest : List Char // rest.length < cs.length }

/-- What follows a word is shorter than the text that starts with it. -/
theorem length_lt_word_append (c : Char) (word rest : List Char) :
    rest.length < ((c :: word) ++ rest).length := by
  simp only [List.length_append, List.length_cons]
  omega

/-- A value that is a word or a number, and what follows it. -/
def readPlain : (cs : List Char) → Except Flaw (Json × Shorter cs)
  | 'n' :: 'u' :: 'l' :: 'l' :: rest =>
    .ok (null, ⟨rest, length_lt_word_append 'n' ['u', 'l', 'l'] rest⟩)
  | 't' :: 'r' :: 'u' :: 'e' :: rest =>
    .ok (bool true, ⟨rest, length_lt_word_append 't' ['r', 'u', 'e'] rest⟩)
  | 'f' :: 'a' :: 'l' :: 's' :: 'e' :: rest =>
    .ok (bool false, ⟨rest, length_lt_word_append 'f' ['a', 'l', 's', 'e'] rest⟩)
  | 'N' :: 'a' :: 'N' :: rest =>
    .ok (real .nan, ⟨rest, length_lt_word_append 'N' ['a', 'N'] rest⟩)
  | 'I' :: 'n' :: 'f' :: 'i' :: 'n' :: 'i' :: 't' :: 'y' :: rest =>
    .ok (real (.infinite false),
      ⟨rest, length_lt_word_append 'I' ['n', 'f', 'i', 'n', 'i', 't', 'y'] rest⟩)
  | '-' :: 'I' :: 'n' :: 'f' :: 'i' :: 'n' :: 'i' :: 't' :: 'y' :: rest =>
    .ok (real (.infinite true),
      ⟨rest, length_lt_word_append '-' ['I', 'n', 'f', 'i', 'n', 'i', 't', 'y'] rest⟩)
  | '-' :: cs =>
    match h : readNumber true cs with
    | .ok (value, rest) => .ok (value, ⟨rest, Nat.lt_succ_of_lt (length_of_readNumber h)⟩)
    | .error flaw => .error flaw
  | cs =>
    match h : readNumber false cs with
    | .ok (value, rest) => .ok (value, ⟨rest, length_of_readNumber h⟩)
    | .error flaw => .error flaw

mutual

/-- A value, and what follows it. The room is the number of levels that it may have. -/
def readValue (room : Nat) (cs : List Char) : Except Flaw (Json × Shorter cs) :=
  match cs with
  | '\x22' :: rest =>
    match h : readText rest with
    | .ok (s, left) =>
      .ok (text s, ⟨left, by have := length_of_readText h; simp; omega⟩)
    | .error flaw => .error flaw
  | '[' :: rest =>
    match room with
    | 0 => .error (.tooDeep "array")
    | room + 1 =>
      match h : skipBlank rest with
      | ']' :: left =>
        .ok (list [], ⟨left, by
          have := length_skipBlank_le rest; simp [h] at this; simp; omega⟩)
      | _ =>
        match readItems room (skipBlank rest) with
        | .ok (items, left) =>
          .ok (list items, ⟨left.1, by
            have := length_skipBlank_le rest; have := left.2; simp; omega⟩)
        | .error flaw => .error flaw
  | '\x7b' :: rest =>
    match room with
    | 0 => .error (.tooDeep "object")
    | room + 1 =>
      match h : skipBlank rest with
      | '\x7d' :: left =>
        .ok (object [], ⟨left, by
          have := length_skipBlank_le rest; simp [h] at this; simp; omega⟩)
      | _ =>
        match readFields room (skipBlank rest) with
        | .ok (fields, left) =>
          .ok (object (Assoc.ofList fields), ⟨left.1, by
            have := length_skipBlank_le rest; have := left.2; simp; omega⟩)
        | .error flaw => .error flaw
  | cs => readPlain cs
termination_by 2 * cs.length
decreasing_by
  all_goals
    have := length_skipBlank_le rest
    simp only [List.length_cons]
    omega

/-- The items of a list up to its closing bracket, and what follows the bracket. -/
def readItems (room : Nat) (cs : List Char) : Except Flaw (List Json × Shorter cs) :=
  match readValue room cs with
  | .error flaw => .error flaw
  | .ok (item, rest) =>
    match h : skipBlank rest.1 with
    | ']' :: left =>
      .ok ([item], ⟨left, by
        have := length_skipBlank_le rest.1; simp [h] at this; have := rest.2; omega⟩)
    | ',' :: more =>
      match readItems room (skipBlank more) with
      | .ok (items, left) =>
        .ok (item :: items, ⟨left.1, by
          have := length_skipBlank_le rest.1; simp [h] at this
          have := length_skipBlank_le more; have := rest.2; have := left.2; omega⟩)
      | .error flaw => .error flaw
    | _ => .error .malformed
termination_by 2 * cs.length + 1
decreasing_by
  · omega
  · have := length_skipBlank_le rest.1
    simp only [h, List.length_cons] at this
    have := length_skipBlank_le more
    have := rest.2
    omega

/-- The fields of an object up to its closing brace, and what follows the brace. -/
def readFields (room : Nat) (cs : List Char) : Except Flaw (Fields × Shorter cs) :=
  match cs with
  | '\x22' :: afterQuote =>
    match hname : readText afterQuote with
    | .error flaw => .error flaw
    | .ok (name, afterName) =>
      match hcolon : skipBlank afterName with
      | ':' :: afterColon =>
        match readValue room (skipBlank afterColon) with
        | .error flaw => .error flaw
        | .ok (value, rest) =>
          match h : skipBlank rest.1 with
          | '\x7d' :: left =>
            .ok ([(name, value)], ⟨left, by
              have := length_of_readText hname
              have := length_skipBlank_le afterName; simp [hcolon] at this
              have := length_skipBlank_le afterColon
              have := length_skipBlank_le rest.1; simp [h] at this
              have := rest.2; simp; omega⟩)
          | ',' :: more =>
            match readFields room (skipBlank more) with
            | .ok (fields, left) =>
              .ok ((name, value) :: fields, ⟨left.1, by
                have := length_of_readText hname
                have := length_skipBlank_le afterName; simp [hcolon] at this
                have := length_skipBlank_le afterColon
                have := length_skipBlank_le rest.1; simp [h] at this
                have := length_skipBlank_le more
                have := rest.2; have := left.2; simp; omega⟩)
            | .error flaw => .error flaw
          | _ => .error .malformed
      | _ => .error .malformed
  | _ => .error .malformed
termination_by 2 * cs.length + 1
decreasing_by
  · have := length_of_readText hname
    have := length_skipBlank_le afterName
    simp only [hcolon, List.length_cons] at this
    have := length_skipBlank_le afterColon
    simp only [List.length_cons]
    omega
  · have := length_of_readText hname
    have := length_skipBlank_le afterName
    simp only [hcolon, List.length_cons] at this
    have := length_skipBlank_le afterColon
    have := length_skipBlank_le rest.1
    simp only [h, List.length_cons] at this
    have := length_skipBlank_le more
    have := rest.2
    simp only [List.length_cons]
    omega

end

/-- The value of a document, whose lists and objects may be nested so many levels deep. -/
def read (nesting : Nat) (document : String) : Except Flaw Json :=
  match readValue nesting (skipBlank document.toList) with
  | .ok (value, rest) => if (skipBlank rest.1).isEmpty then .ok value else .error .malformed
  | .error flaw => .error flaw

end TraceProfile.Json
