/-!
# Binary floating-point numbers

A number has 53 significant bits and a power of two; beyond the largest one lie the two
infinities. Every operation works on the exact value and rounds once, to the nearest number,
a tie going to the even significand.
-/

namespace TraceProfile

/-- A floating-point number. A finite one stands for its significand times two to its exponent;
the significand has 53 bits, or fewer if the exponent is the least. -/
inductive Binary64 where
  /-- A finite number; zero has two signs. -/
  | finite (negative : Bool) (significand : Nat) (exponent : Int)
  /-- A magnitude beyond all finite ones. -/
  | infinite (negative : Bool)
  /-- No number. -/
  | nan
  deriving DecidableEq, Repr, Inhabited

/-- A quotient rounded to the nearest natural number, a half to the even one. -/
def roundQuotient (num den : Nat) : Nat :=
  let quotient := num / den
  let remainder := num % den
  if 2 * remainder < den then quotient
  else if den < 2 * remainder then quotient + 1
  else if quotient % 2 = 0 then quotient
  else quotient + 1

namespace Binary64

/-- The least exponent of a finite number. -/
def leastExponent : Int := -1074

/-- The greatest exponent of a finite number. -/
def greatestExponent : Int := 971

/-- The least significand of 53 bits. -/
def fullSignificand : Nat := Nat.pow 2 52

/-- Two to the exponent if it is positive, else one. -/
def powerUp (exponent : Int) : Nat := Nat.pow 2 exponent.toNat

/-- Two to the negated exponent if the exponent is negative, else one. -/
def powerDown (exponent : Int) : Nat := Nat.pow 2 (-exponent).toNat

/-- The exponent with which a positive quotient gets 53 significant bits, or the least one. -/
def exponentOf (num den : Nat) : Int :=
  let guess : Int := (num.log2 : Int) - den.log2 - 52
  let exponent :=
    if num * powerDown guess < fullSignificand * (den * powerUp guess) then guess - 1 else guess
  max exponent leastExponent

/-- The number with a significand that rounding may have carried to a 54th bit, or infinity when
the exponent is too great. -/
def pack (negative : Bool) (significand : Nat) (exponent : Int) : Binary64 :=
  let (significand, exponent) :=
    if significand = 2 * fullSignificand then (fullSignificand, exponent + 1)
    else (significand, exponent)
  if greatestExponent < exponent then infinite negative else finite negative significand exponent

/-- The number nearest to a quotient with a positive denominator. -/
def ofQuotient (negative : Bool) (num den : Nat) : Binary64 :=
  if num = 0 then finite negative 0 leastExponent
  else
    let exponent := exponentOf num den
    pack negative (roundQuotient (num * powerDown exponent) (den * powerUp exponent)) exponent

/-- Zero. -/
def zero : Binary64 := finite false 0 leastExponent

/-- The number nearest to an integer, unless that lies beyond all finite numbers. -/
def ofInt? (n : Int) : Option Binary64 :=
  match ofQuotient (n < 0) n.natAbs 1 with
  | .infinite _ => none
  | x => some x

/-- The number of decimal digits of a natural number. -/
def decimalLength (n : Nat) : Nat := (Nat.toDigits 10 n).length

/-- The number nearest to a decimal: digits read as a natural number, times a power of ten.
Magnitudes far outside the range are settled without computing the power. -/
def ofDecimal (negative : Bool) (digits : Nat) (exponent : Int) : Binary64 :=
  if digits = 0 then finite negative 0 leastExponent
  else if 400 < decimalLength digits + exponent then infinite negative
  else if decimalLength digits + exponent < -400 then finite negative 0 leastExponent
  else ofQuotient negative (digits * Nat.pow 10 exponent.toNat) (Nat.pow 10 (-exponent).toNat)

/-- The product with a positive natural number. -/
def scale (x : Binary64) (k : Nat) : Binary64 :=
  match x with
  | finite negative significand exponent =>
    ofQuotient negative (significand * k * powerUp exponent) (powerDown exponent)
  | infinite negative => infinite negative
  | nan => nan

/-- The quotient by a positive natural number. -/
def divide (x : Binary64) (k : Nat) : Binary64 :=
  match x with
  | finite negative significand exponent =>
    ofQuotient negative (significand * powerUp exponent) (k * powerDown exponent)
  | infinite negative => infinite negative
  | nan => nan

/-- A magnitude with its sign. -/
def signed (negative : Bool) (magnitude : Nat) : Int :=
  if negative then -(magnitude : Int) else magnitude

/-- Numbers that no integer is near to. -/
inductive Unbounded where
  /-- An infinity. -/
  | infinity
  /-- Not a number. -/
  | undefined
  deriving DecidableEq, Repr

/-- The integer nearest to a number, a half to the even one. -/
def round : Binary64 → Except Unbounded Int
  | finite negative significand exponent =>
    .ok (signed negative (roundQuotient (significand * powerUp exponent) (powerDown exponent)))
  | infinite _ => .error .infinity
  | nan => .error .undefined

/-- A number without its fraction. -/
def truncate : Binary64 → Except Unbounded Int
  | finite negative significand exponent =>
    .ok (signed negative (significand * powerUp exponent / powerDown exponent))
  | infinite _ => .error .infinity
  | nan => .error .undefined

/-- Only zero has no magnitude. -/
def isZero : Binary64 → Bool
  | finite _ significand _ => significand == 0
  | _ => false

end Binary64

end TraceProfile
