import TraceProfile.Number.Conversion

/-!
# Durations

A recorded duration is a decimal with a unit and is read into nanoseconds. A reported duration
is written as seconds, milliseconds and microseconds; what is below a microsecond is left out,
rounding down, and so are seconds and milliseconds that are zero.
-/

namespace TraceProfile.Duration

/-- The nanoseconds of a unit. -/
def unitOf? (unit : String) : Option Nat :=
  if unit = "s" then some 1000000000
  else if unit = "ms" then some 1000000
  else if unit = "us" then some 1000
  else if unit = "ns" then some 1
  else none

/-- The micro sign and the Greek letter are both read as the letter u. -/
def plainMicro (c : Char) : Char := if c = '\u00b5' ∨ c = '\u03bc' then 'u' else c

/-- A character that may end the number of a duration. -/
def endsNumber (c : Char) : Bool := Text.isDigitSign c || c == '.'

/-- The number of a duration, which reaches up to the last digit or point, and its unit. -/
def parts (cs : List Char) : List Char × List Char :=
  let reversed := cs.reverse
  ((reversed.dropWhile (!endsNumber ·)).reverse, (reversed.takeWhile (!endsNumber ·)).reverse)

/-- The nanoseconds of a duration, rounded to the nearest integer, a half to the even one. -/
def read (s : String) : Except Fault Int :=
  let cs := (Text.trim Text.isBlank s.toList).map plainMicro
  let (number, unit) := parts cs
  let unit := String.ofList unit
  match unitOf? unit with
  | none => .error (Refusal.unknownUnit unit (String.ofList cs))
  | some scale =>
    (decimalOf (String.ofList number)).bind fun x => boundedInteger (x.scale scale).round

/-- The nanoseconds of a field, if the field is there; it must be a text. -/
def ofField (fields : Json.Fields) (name : String) : Except Fault (Option Int) :=
  match fields.lookup name with
  | none => .ok none
  | some (.text s) => (read s).map some
  | some value => .error (Refusal.durationNotText name value.describe)

/-- The whole seconds of a duration, rounded down. -/
def seconds (ns : Int) : Int := ns / 1000000000

/-- The milliseconds beyond the seconds. -/
def milliseconds (ns : Int) : Int := ns % 1000000000 / 1000000

/-- The microseconds beyond the milliseconds. -/
def microseconds (ns : Int) : Int := ns % 1000000 / 1000

/-- A duration as it is reported. -/
def format (ns : Int) : String :=
  (if seconds ns = 0 then "" else s!"{seconds ns}s ") ++
    (if milliseconds ns = 0 then "" else s!"{milliseconds ns}ms ") ++ s!"{microseconds ns}us"

/-- The three parts make up the duration to the microsecond. -/
theorem parts_sum (ns : Int) :
    seconds ns * 1000000000 + milliseconds ns * 1000000 + microseconds ns * 1000 =
      ns / 1000 * 1000 := by
  unfold seconds milliseconds microseconds
  omega

end TraceProfile.Duration
