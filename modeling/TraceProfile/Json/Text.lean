import TraceProfile.Json.Basic
import TraceProfile.Number.Numeral

/-!
# Texts in JSON

A text stands between double quotes. A backslash starts an escape: a letter, or the code of a
UTF-16 unit, two of which may form one character. A reader returns what follows the text, which
is shorter than what it was given.
-/

namespace TraceProfile.Json

/-- Why a document cannot be read. -/
inductive Flaw where
  /-- It does not follow the grammar. -/
  | malformed
  /-- An integer has too many digits; how many. -/
  | tooLong (digits : Nat)
  /-- A list or an object stands inside too many others; what it is called. -/
  | tooDeep (container : String)
  deriving DecidableEq, Repr

/-- The characters that may stand between tokens. -/
def isSeparator (c : Char) : Bool := c == ' ' || c == '\t' || c == '\n' || c == '\r'

/-- What follows the blanks. -/
def skipBlank (cs : List Char) : List Char := cs.dropWhile isSeparator

/-- No blank is added. -/
theorem length_skipBlank_le (cs : List Char) : (skipBlank cs).length ≤ cs.length :=
  (List.dropWhile_suffix _).length_le

/-- The UTF-16 unit written with four hexadecimal digits. -/
def unitOf? (digits : List Char) : Option Nat :=
  (digits.mapM (Numeral.digitValue? 16)).map (Numeral.ofDigits 16)

/-- The character of an escape with one letter. -/
def escape? (c : Char) : Option Char :=
  if c = Text.doubleQuote ∨ c = '\\' ∨ c = '/' then some c
  else if c = 'b' then some '\x08'
  else if c = 'f' then some '\x0c'
  else if c = 'n' then some '\n'
  else if c = 'r' then some '\r'
  else if c = 't' then some '\t'
  else none

/-- The character that two units encode together, if they are a surrogate pair. -/
def pairOf? (high low : Nat) : Option Char :=
  if 0xd800 ≤ high ∧ high ≤ 0xdbff ∧ 0xdc00 ≤ low ∧ low ≤ 0xdfff then
    some (Char.ofNat (0x10000 + (high - 0xd800) * 0x400 + (low - 0xdc00)))
  else none

/-- The character of a unit on its own. Half of a pair is no character, and the replacement
character stands for it. -/
def charOfUnit (unit : Nat) : Char :=
  if 0xd800 ≤ unit ∧ unit ≤ 0xdfff then '\ufffd' else Char.ofNat unit

/-- What a text is written with: characters, and UTF-16 units given by their code. -/
inductive Piece where
  /-- A character, written as it is or by a letter. -/
  | char (c : Char)
  /-- A unit given by its code. -/
  | unit (code : Nat)

/-- The characters of a sequence of pieces: neighbouring units may form one character. -/
def joinPieces : List Piece → List Char
  | [] => []
  | .unit high :: .unit low :: rest =>
    match pairOf? high low with
    | some joined => joined :: joinPieces rest
    | none => charOfUnit high :: joinPieces (.unit low :: rest)
  | .unit code :: rest => charOfUnit code :: joinPieces rest
  | .char c :: rest => c :: joinPieces rest

/-- The pieces of a text up to its closing quote, and what follows the quote. -/
def readPieces : List Char → Except Flaw (List Piece × List Char)
  | [] => .error .malformed
  | '\\' :: 'u' :: a :: b :: c :: d :: rest =>
    match unitOf? [a, b, c, d] with
    | some code => (readPieces rest).map fun (pieces, left) => (.unit code :: pieces, left)
    | none => .error .malformed
  | '\\' :: c :: rest =>
    match escape? c with
    | some escaped =>
      (readPieces rest).map fun (pieces, left) => (.char escaped :: pieces, left)
    | none => .error .malformed
  | c :: rest =>
    if c = Text.doubleQuote then .ok ([], rest)
    else if c = '\\' ∨ c.toNat < 0x20 then .error .malformed
    else (readPieces rest).map fun (pieces, left) => (.char c :: pieces, left)

/-- A text up to its closing quote, and what follows the quote. -/
def readText (cs : List Char) : Except Flaw (String × List Char) :=
  (readPieces cs).map fun (pieces, left) => (String.ofList (joinPieces pieces), left)

private theorem map_ok {α β : Type} {f : α → β} {r : Except Flaw α} {y : β}
    (h : r.map f = .ok y) : ∃ x, r = .ok x ∧ f x = y := by
  cases r with
  | error e => simp [Except.map] at h
  | ok x => exact ⟨x, rfl, by simpa [Except.map] using h⟩

private theorem length_of_readPieces {cs rest : List Char} {pieces : List Piece}
    (h : readPieces cs = .ok (pieces, rest)) : rest.length < cs.length := by
  fun_induction readPieces cs generalizing pieces rest with
  | case1 => simp at h
  | case2 a b c d left code _ ih =>
    obtain ⟨⟨ps, r⟩, found, same⟩ := map_ok h
    have := ih found
    simp_all
    omega
  | case3 => simp at h
  | case4 c left _ escaped _ ih =>
    obtain ⟨⟨ps, r⟩, found, same⟩ := map_ok h
    have := ih found
    simp_all
    omega
  | case5 => simp at h
  | case6 => simp_all
  | case7 => simp at h
  | case8 =>
    rename_i ih
    obtain ⟨⟨ps, r⟩, found, same⟩ := map_ok h
    have := ih found
    simp_all
    omega

/-- What follows a text is shorter than what the reader was given. -/
theorem length_of_readText {cs rest : List Char} {s : String}
    (h : readText cs = .ok (s, rest)) : rest.length < cs.length := by
  obtain ⟨⟨pieces, left⟩, found, same⟩ := map_ok h
  have := length_of_readPieces found
  simp_all

end TraceProfile.Json
