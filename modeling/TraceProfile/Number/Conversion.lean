import TraceProfile.Fault
import TraceProfile.Json.Basic
import TraceProfile.Number.Numeral

/-!
# Conversions

Integers and decimals are taken from texts, from JSON values and from each other. A conversion
that cannot be carried out ends in a failure.
-/

namespace TraceProfile

/-- The integer that a text denotes. -/
def integerOf (text : String) : Except Fault Int :=
  match Numeral.readInteger text with
  | .ok n => .ok n
  | .error .malformed => .error (Failure.integerText text)
  | .error (.tooLong digits) => .error (Failure.integerLength digits)

/-- The decimal that a text denotes. -/
def decimalOf (text : String) : Except Fault Binary64 :=
  match Numeral.readDecimal text with
  | .ok x => .ok x
  | .error _ => .error (Failure.decimalText text)

/-- The failure of taking an integer from a number without one. -/
def Binary64.Unbounded.failure : Binary64.Unbounded → Failure
  | infinity => .infiniteInteger
  | undefined => .undefinedInteger

/-- An outcome that lacks an integer only because its number is unbounded. -/
def boundedInteger (result : Except Binary64.Unbounded Int) : Except Fault Int :=
  result.mapError fun unbounded => unbounded.failure

/-- The decimal nearest to an integer. -/
def decimalOfInteger (n : Int) : Except Fault Binary64 :=
  match Binary64.ofInt? n with
  | some x => .ok x
  | none => .error Failure.decimalRange

namespace Json

/-- The name of a value's type in a message. -/
def typeName : Json → String
  | null => "NoneType"
  | bool _ => "bool"
  | int _ => "int"
  | real _ => "float"
  | text _ => "str"
  | list _ => "list"
  | object _ => "dict"

/-- The integer that a value denotes: a number without its fraction, a truth value as one or
zero, or the integer of a text. -/
def toInteger : Json → Except Fault Int
  | int n => .ok n
  | bool b => .ok (if b then 1 else 0)
  | real x => boundedInteger x.truncate
  | text s => integerOf s
  | value => .error (Failure.notNumeric value.typeName)

/-- The decimal that a value denotes. -/
def toDecimal : Json → Except Fault Binary64
  | int n => decimalOfInteger n
  | bool b => decimalOfInteger (if b then 1 else 0)
  | real x => .ok x
  | text s => decimalOf s
  | value => .error (Failure.notNumeric value.typeName)

end Json

end TraceProfile
