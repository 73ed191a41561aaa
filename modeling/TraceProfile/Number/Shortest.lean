import TraceProfile.Number.Binary64

/-!
# Shortest decimals

A floating-point number is written with the fewest decimal digits that read back to it, and
with the nearest decimal of that length. A length is tried by looking at the two neighbours of
the number on the grid of decimals with so many digits.
-/

namespace TraceProfile.Binary64

/-- The decimals that read back to a finite number, in quarters of the last significant bit:
the number itself and the bounds of its interval. The bounds count when the significand is
even. -/
structure ReadBack where
  /-- The number. -/
  value : Nat
  /-- The lower bound; it is nearer where the numbers below lie closer. -/
  low : Nat
  /-- The upper bound. -/
  high : Nat
  /-- The bounds belong to the interval. -/
  closed : Bool

/-- The interval of a finite number other than zero. -/
def readBack (significand : Nat) (exponent : Int) : ReadBack where
  value := 4 * significand
  low := 4 * significand - if significand = fullSignificand ∧ leastExponent < exponent then 1 else 2
  high := 4 * significand + 2
  closed := significand % 2 = 0

/-- A quarter step of two powers put on a grid of tens: `up` quarters make `down` steps. -/
structure Grid where
  /-- The factor of numbers counted in quarters. -/
  up : Nat
  /-- The factor of numbers counted in grid steps. -/
  down : Nat

/-- The grid whose step is ten to the given power, for quarters of two to the exponent. -/
def grid (exponent power : Int) : Grid where
  up := powerUp (exponent - 2) * Nat.pow 10 (-power).toNat
  down := powerDown (exponent - 2) * Nat.pow 10 power.toNat

/-- A grid point reads back to the number. -/
def ReadBack.contains (r : ReadBack) (g : Grid) (point : Nat) : Bool :=
  let position := point * g.down
  if r.closed then r.low * g.up ≤ position && position ≤ r.high * g.up
  else r.low * g.up < position && position < r.high * g.up

/-- The neighbour on the grid that reads back to the number, the nearer one if both do; a tie
goes to the even neighbour. -/
def ReadBack.onGrid? (r : ReadBack) (g : Grid) : Option Nat :=
  let below := r.value * g.up / g.down
  let above := below + 1
  match r.contains g below, r.contains g above with
  | true, true =>
    let fromBelow := r.value * g.up - below * g.down
    let fromAbove := above * g.down - r.value * g.up
    if fromBelow < fromAbove then some below
    else if fromAbove < fromBelow then some above
    else if below % 2 = 0 then some below
    else some above
  | true, false => some below
  | false, true => some above
  | false, false => none

/-- The power of ten of the leading digit of a finite number other than zero. -/
def leadingPower (significand : Nat) (exponent : Int) : Int :=
  (decimalLength (significand * powerUp exponent * Nat.pow 10 340 / powerDown exponent) : Int) - 341

/-- The fewest digits that read back to a finite number other than zero, as a natural number
with a power of ten. -/
def shortest (significand : Nat) (exponent : Int) : Nat × Int :=
  let lead := leadingPower significand exponent
  let interval := readBack significand exponent
  let attempt (places : Nat) : Option (Nat × Int) :=
    let power := lead - places
    (interval.onGrid? (grid exponent power)).map fun digits => (digits, power)
  ((List.range 17).findSome? attempt).getD (significand, exponent)

/-- Digits without the zeros at their end, and how many those were. -/
def dropTrailingZeros (digits : List Char) : List Char × Nat :=
  let kept := (digits.reverse.dropWhile (· == '0')).reverse
  (kept, digits.length - kept.length)

/-- Digits with a point after the given number of them, filled up with zeros. -/
def positional (digits : List Char) (point : Int) : List Char :=
  if point ≤ 0 then '0' :: '.' :: List.replicate (-point).toNat '0' ++ digits
  else
    let whole := digits.take point.toNat
    let fraction := digits.drop point.toNat
    whole ++ List.replicate (point.toNat - whole.length) '0' ++
      '.' :: (if fraction.isEmpty then ['0'] else fraction)

/-- Digits with a point after the first one and the power of ten of that one, in at least two
places. -/
def scientific (digits : List Char) (power : Int) : List Char :=
  let fraction := digits.drop 1
  digits.take 1 ++ (if fraction.isEmpty then [] else '.' :: fraction) ++
    'e' :: (if power < 0 then '-' else '+') :: (Nat.toDigits 10 power.natAbs).leftpad 2 '0'

/-- Digits in positional form when the leading one counts for at least `10 ^ -4` and less than
`10 ^ 16`, else in scientific form. -/
def decimalText (digits : Nat) (power : Int) : List Char :=
  let (kept, dropped) := dropTrailingZeros (Nat.toDigits 10 digits)
  let lead := power + dropped + kept.length - 1
  if -4 ≤ lead ∧ lead < 16 then positional kept (lead + 1) else scientific kept lead

/-- The decimal text of a number. -/
def text : Binary64 → String
  | nan => "nan"
  | infinite negative => if negative then "-inf" else "inf"
  | finite negative significand exponent =>
    let magnitude :=
      if significand = 0 then ['0', '.', '0']
      else
        let (digits, power) := shortest significand exponent
        decimalText digits power
    String.ofList (if negative then '-' :: magnitude else magnitude)

end TraceProfile.Binary64
