import TraceProfile.Assoc
import TraceProfile.Number.Shortest
import TraceProfile.Text.Quoted

/-!
# JSON values

The values of JSON documents: integers are exact and kept apart from decimals, and the fields of
an object keep their order. `describe` is the form in which a message shows a value.
-/

namespace TraceProfile

/-- A JSON value. -/
inductive Json where
  /-- The empty value. -/
  | null
  /-- A truth value. -/
  | bool (b : Bool)
  /-- A number without fraction and exponent. -/
  | int (n : Int)
  /-- Any other number. -/
  | real (x : Binary64)
  /-- A text. -/
  | text (s : String)
  /-- A list of values. -/
  | list (items : List Json)
  /-- An object: fields with distinct names. -/
  | object (fields : List (String × Json))
  deriving Inhabited

namespace Json

/-- The fields of an object. -/
abbrev Fields := List (String × Json)

/-- The fields of an object, none for any other value. -/
def fields? : Json → Option Fields
  | object fields => some fields
  | _ => none

/-- The text of a text value. -/
def text? : Json → Option String
  | text s => some s
  | _ => none

/-- A value that says nothing: the empty value, falsehood, a zero, or an empty text, list or
object. -/
def isVacant : Json → Bool
  | null => true
  | bool b => !b
  | int n => n == 0
  | real x => x.isZero
  | text s => s.isEmpty
  | list items => items.isEmpty
  | object fields => fields.isEmpty

mutual

/-- A value as a message shows it. -/
def describe : Json → String
  | null => "None"
  | bool b => if b then "True" else "False"
  | int n => toString n
  | real x => x.text
  | text s => Text.quote s
  | list items => "[" ++ ", ".intercalate (describeAll items) ++ "]"
  | object fields => "\x7b" ++ ", ".intercalate (describeFields fields) ++ "\x7d"

/-- Each of the values as a message shows it. -/
def describeAll : List Json → List String
  | [] => []
  | item :: rest => describe item :: describeAll rest

/-- Each of the fields as a message shows it. -/
def describeFields : Fields → List String
  | [] => []
  | (name, value) :: rest => (Text.quote name ++ ": " ++ describe value) :: describeFields rest

end

/-- A value put into running text: a text stands for itself. -/
def asText : Json → String
  | text s => s
  | value => describe value

end Json

end TraceProfile
