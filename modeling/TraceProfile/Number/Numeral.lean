import TraceProfile.Number.Shortest
import TraceProfile.Text.Digit
import TraceProfile.Text.Split

/-!
# Numerals

Integers and decimals are read from text that may have blanks around them and digits of any
script. A sign comes first, and single underscores may stand between digits. Integers in base
ten have at most 4300 digits; in base sixteen a `0x` may precede them.
-/

namespace TraceProfile.Numeral

/-- Why text is no numeral. -/
inductive Flaw where
  /-- The text does not follow the grammar. -/
  | malformed
  /-- An integer has too many digits; how many. -/
  | tooLong (digits : Nat)
  deriving DecidableEq, Repr

/-- The most digits of an integer in base ten. -/
def digitLimit : Nat := 4300

/-- An integer has a text in base ten unless it has more digits than that. -/
def hasText (n : Int) : Bool := n.natAbs < Nat.pow 10 digitLimit

/-- A character of a numeral with its script removed: blanks become spaces, decimal digits
ASCII digits, and all other characters outside ASCII a question mark, which no numeral has. -/
def plainChar (c : Char) : Char :=
  if c.toNat < 127 then c
  else if Text.isBlank c then ' '
  else
    match Text.decimalValue? c with
    | some v => Char.ofNat (0x30 + v)
    | none => '?'

/-- The characters of a numeral without script and surrounding blanks. -/
def plain (s : String) : List Char :=
  Text.trim Text.isAsciiBlank (s.toList.map plainChar)

/-- A sign, read as whether it is a minus, and what follows it. -/
def takeSign : List Char → Bool × List Char
  | '-' :: rest => (true, rest)
  | '+' :: rest => (false, rest)
  | cs => (false, cs)

/-- The value of a digit below the base. -/
def digitValue? (base : Nat) (c : Char) : Option Nat :=
  let value :=
    if '0' ≤ c ∧ c ≤ '9' then some (c.toNat - 0x30)
    else if 'a' ≤ c ∧ c ≤ 'z' then some (c.toNat - 0x61 + 10)
    else if 'A' ≤ c ∧ c ≤ 'Z' then some (c.toNat - 0x41 + 10)
    else none
  value.filter (· < base)

/-- The values of digits with single underscores between them, up to the first character that is
neither, and what is left. -/
def takeDigits? (base : Nat) : List Char → Option (List Nat × List Char)
  | [] => none
  | c :: rest =>
    match digitValue? base c with
    | none => none
    | some v =>
      match rest with
      | '_' :: rest' => (takeDigits? base rest').map fun (vs, left) => (v :: vs, left)
      | next :: rest' =>
        if (digitValue? base next).isSome then
          (takeDigits? base (next :: rest')).map fun (vs, left) => (v :: vs, left)
        else some ([v], rest)
      | [] => some ([v], [])

/-- The number that digit values denote. -/
def ofDigits (base : Nat) (values : List Nat) : Nat :=
  values.foldl (fun n v => n * base + v) 0

/-- What follows the mark of base sixteen, if the numeral has one. -/
def dropBaseMark (cs : List Char) : List Char :=
  match cs with
  | '0' :: 'x' :: '_' :: rest => rest
  | '0' :: 'X' :: '_' :: rest => rest
  | '0' :: 'x' :: rest => rest
  | '0' :: 'X' :: rest => rest
  | _ => cs

/-- An integer in base ten. -/
def readInteger (s : String) : Except Flaw Int :=
  let (negative, cs) := takeSign (plain s)
  match takeDigits? 10 cs with
  | none => .error .malformed
  | some (values, left) =>
    if digitLimit < values.length then .error (.tooLong values.length)
    else if left.isEmpty then .ok (Binary64.signed negative (ofDigits 10 values))
    else .error .malformed

/-- An integer in base sixteen. -/
def readHexadecimal (s : String) : Except Flaw Int :=
  let (negative, cs) := takeSign (plain s)
  match takeDigits? 16 (dropBaseMark cs) with
  | some (values, []) => .ok (Binary64.signed negative (ofDigits 16 values))
  | _ => .error .malformed

/-- Digits before a point or an exponent: possibly none. -/
def takeWhole (cs : List Char) : List Nat × List Char := (takeDigits? 10 cs).getD ([], cs)

/-- The digits after a point, if there is one. -/
def takeFraction : List Char → List Nat × List Char
  | '.' :: rest => takeWhole rest
  | cs => ([], cs)

/-- The exponent after its letter; text without one has exponent zero. -/
def takeExponent : List Char → Int × List Char
  | c :: rest =>
    if c = 'e' ∨ c = 'E' then
      let (negative, cs) := takeSign rest
      match takeDigits? 10 cs with
      | some (values, left) => (Binary64.signed negative (ofDigits 10 values), left)
      | none => (0, c :: rest)
    else (0, c :: rest)
  | [] => (0, [])

/-- The words for numbers that have no digits. -/
def namedNumber? (negative : Bool) (cs : List Char) : Option Binary64 :=
  match String.ofList (cs.map Char.toLower) with
  | "inf" => some (.infinite negative)
  | "infinity" => some (.infinite negative)
  | "nan" => some .nan
  | _ => none

/-- A decimal with a fraction and an exponent, both optional, or a named number. -/
def readDecimal (s : String) : Except Flaw Binary64 :=
  let (negative, cs) := takeSign (plain s)
  match namedNumber? negative cs with
  | some x => .ok x
  | none =>
    let (whole, afterWhole) := takeWhole cs
    let (fraction, afterFraction) := takeFraction afterWhole
    let (exponent, left) := takeExponent afterFraction
    if (whole.isEmpty && fraction.isEmpty) || !left.isEmpty then .error .malformed
    else
      .ok (Binary64.ofDecimal negative (ofDigits 10 (whole ++ fraction))
        (exponent - fraction.length))

end TraceProfile.Numeral
