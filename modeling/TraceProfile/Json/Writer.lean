import TraceProfile.Json.Basic
import TraceProfile.Number.Numeral

/-!
# Writing JSON

Documents are written in ASCII on one line, with a space after every comma and colon. Characters
outside ASCII are written as their UTF-16 units. A value with an integer that has no text is not
written at all.
-/

namespace TraceProfile.Json

/-- The escape of one UTF-16 unit. -/
def escapedUnit (unit : Nat) : List Char := '\\' :: 'u' :: Text.hexDigits 4 unit

/-- One character inside a written text. -/
def writeChar (c : Char) : List Char :=
  if c = Text.doubleQuote ∨ c = '\\' then ['\\', c]
  else if c = '\n' then ['\\', 'n']
  else if c = '\r' then ['\\', 'r']
  else if c = '\t' then ['\\', 't']
  else if c = '\x0c' then ['\\', 'f']
  else if c = '\x08' then ['\\', 'b']
  else if 0x20 ≤ c.toNat ∧ c.toNat ≤ 0x7e then [c]
  else if c.toNat ≤ 0xffff then escapedUnit c.toNat
  else
    let beyond := c.toNat - 0x10000
    escapedUnit (0xd800 + beyond / 0x400) ++ escapedUnit (0xdc00 + beyond % 0x400)

/-- A text as it is written. -/
def writeText (s : String) : String :=
  String.ofList (Text.doubleQuote :: s.toList.flatMap writeChar ++ [Text.doubleQuote])

/-- A decimal as it is written; the three numbers without digits have names. -/
def writeReal : Binary64 → String
  | .nan => "NaN"
  | .infinite negative => if negative then "-Infinity" else "Infinity"
  | x => x.text

mutual

/-- A value as it is written. -/
def write : Json → String
  | null => "null"
  | bool b => if b then "true" else "false"
  | int n => toString n
  | real x => writeReal x
  | text s => writeText s
  | list items => "[" ++ ", ".intercalate (writeAll items) ++ "]"
  | object fields => "\x7b" ++ ", ".intercalate (writeFields fields) ++ "\x7d"

/-- Each of the values as it is written. -/
def writeAll : List Json → List String
  | [] => []
  | item :: rest => write item :: writeAll rest

/-- Each of the fields as it is written. -/
def writeFields : Fields → List String
  | [] => []
  | (name, value) :: rest => (writeText name ++ ": " ++ write value) :: writeFields rest

end

mutual

/-- All integers of a value have a text. -/
def isWritable : Json → Bool
  | int n => Numeral.hasText n
  | list items => areWritable items
  | object fields => areWritableFields fields
  | _ => true

/-- All integers of some values have a text. -/
def areWritable : List Json → Bool
  | [] => true
  | item :: rest => isWritable item && areWritable rest

/-- All integers of some fields have a text. -/
def areWritableFields : Fields → Bool
  | [] => true
  | (_, value) :: rest => isWritable value && areWritableFields rest

end

/-- A value as it is written, if that is possible. -/
def written? (value : Json) : Option String :=
  if value.isWritable then some value.write else none

/-- The fields of an object as texts: a text stands for itself, any other value for its written
form. A value that is no object has no fields. -/
def textFields (value : Json) : List (String × String) :=
  (value.fields?.getD []).map fun (name, field) => (name, field.text?.getD field.write)

end TraceProfile.Json
