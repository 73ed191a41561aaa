import TraceProfile.Json.Text

/-!
# Numbers in JSON

A number has a whole part, and may have a fraction and an exponent. A number without these two is
an exact integer; any other is rounded once. A reader returns what follows the number.
-/

namespace TraceProfile.Json

/-- A decimal digit of ASCII. -/
def isDigit (c : Char) : Bool := '0' ≤ c && c ≤ '9'

/-- The digits at the front, and what follows them. -/
def takeDigits (cs : List Char) : List Char × List Char :=
  (cs.takeWhile isDigit, cs.dropWhile isDigit)

/-- The digits before the point: one zero, or digits that start with none. -/
def takeWhole? : List Char → Option (List Char × List Char)
  | '0' :: rest => some (['0'], rest)
  | c :: rest => if isDigit c then some (takeDigits (c :: rest)) else none
  | [] => none

/-- The digits after a point; without any, the point does not belong to the number. -/
def takeFraction? : List Char → Option (List Char × List Char)
  | '.' :: c :: rest => if isDigit c then some (takeDigits (c :: rest)) else none
  | _ => none

/-- The digits of an exponent after its letter and sign; without any, the letter does not belong
to the number. -/
def takeExponent? : List Char → Option ((Bool × List Char) × List Char)
  | letter :: rest =>
    if letter = 'e' ∨ letter = 'E' then
      let (negative, cs) := Numeral.takeSign rest
      match takeDigits cs with
      | ([], _) => none
      | (digits, left) => some ((negative, digits), left)
    else none
  | [] => none

/-- The number that ASCII digits denote. -/
def ofDigits (digits : List Char) : Nat :=
  Numeral.ofDigits 10 (digits.map fun c => c.toNat - 0x30)

/-- A number after its sign, and what follows it. -/
def readNumber (negative : Bool) (cs : List Char) : Except Flaw (Json × List Char) :=
  match takeWhole? cs with
  | none => .error .malformed
  | some (whole, afterWhole) =>
    let (fraction, afterFraction) := (takeFraction? afterWhole).getD ([], afterWhole)
    match takeExponent? afterFraction with
    | some ((down, digits), left) =>
      let exponent := Binary64.signed down (ofDigits digits)
      .ok (real (.ofDecimal negative (ofDigits (whole ++ fraction))
        (exponent - fraction.length)), left)
    | none =>
      if !fraction.isEmpty then
        .ok (real (.ofDecimal negative (ofDigits (whole ++ fraction)) (-fraction.length)),
          afterFraction)
      else if Numeral.digitLimit < whole.length then .error (.tooLong whole.length)
      else .ok (int (Binary64.signed negative (ofDigits whole)), afterFraction)

private theorem length_takeDigits (cs : List Char) :
    (takeDigits cs).2.length ≤ cs.length := by
  exact (List.dropWhile_suffix _).length_le

private theorem length_takeDigits_cons {c : Char} (rest : List Char) (h : isDigit c = true) :
    (takeDigits (c :: rest)).2.length ≤ rest.length := by
  simp only [takeDigits, List.dropWhile_cons, h, if_true]
  exact (List.dropWhile_suffix _).length_le

private theorem length_takeWhole {cs whole left : List Char}
    (h : takeWhole? cs = some (whole, left)) : left.length < cs.length := by
  unfold takeWhole? at h
  split at h
  · simp_all
  · split at h
    · rename_i c rest _ digit
      have shorter := length_takeDigits_cons rest digit
      rw [Option.some.inj h] at shorter
      simpa [Nat.lt_succ_iff] using shorter
    · simp at h
  · simp at h

private theorem length_takeFraction (cs : List Char) :
    ((takeFraction? cs).getD ([], cs)).2.length ≤ cs.length := by
  unfold takeFraction?
  split
  · split
    · have := length_takeDigits_cons (by assumption) (by assumption)
      simp
      omega
    · simp
  · simp

private theorem length_takeSign (cs : List Char) :
    (Numeral.takeSign cs).2.length ≤ cs.length := by
  unfold Numeral.takeSign
  split <;> simp

private theorem length_takeExponent {cs left : List Char} {e : Bool × List Char}
    (h : takeExponent? cs = some (e, left)) : left.length ≤ cs.length := by
  unfold takeExponent? at h
  split at h
  · split at h
    · rename_i rest _
      have signed := length_takeSign rest
      have digits := length_takeDigits (Numeral.takeSign rest).2
      grind
    · simp at h
  · simp at h

/-- A number that is read takes up at least one character. -/
theorem length_of_readNumber {negative : Bool} {cs rest : List Char} {value : Json}
    (h : readNumber negative cs = .ok (value, rest)) : rest.length < cs.length := by
  unfold readNumber at h
  split at h
  · simp at h
  · rename_i whole afterWhole found
    have first := length_takeWhole found
    have second := length_takeFraction afterWhole
    simp only at h
    split at h
    · rename_i third
      have := length_takeExponent third
      simp_all
      omega
    · split at h
      · simp_all
        omega
      · split at h
        · simp at h
        · simp_all
          omega

end TraceProfile.Json
