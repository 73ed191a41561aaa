import Mathlib.Algebra.Group.Nat.Defs
import TraceProfile.Number.Conversion

/-!
# Integers as floating-point numbers

An integer of at most 53 bits is a floating-point number: nothing is rounded, whether it is
converted as an integer or read as a decimal.
-/

namespace TraceProfile.Binary64

/-- The number is an integer, exactly. -/
def IsInteger (x : Binary64) (n : Int) : Prop :=
  ∃ significand exponent, x = finite (n < 0) significand exponent ∧
    significand * powerUp exponent = n.natAbs * powerDown exponent

/-- The bound up to which all integers are floating-point numbers. -/
def integerBound : Nat := 2 ^ 53

/-- Nothing is rounded in a division by one. -/
theorem roundQuotient_one (n : Nat) : roundQuotient n 1 = n := by
  simp [roundQuotient, Nat.mod_one]

/-- The least significand of 53 bits stands for the power of two with the exponent of the number. -/
theorem fullSignificand_mul_powerUp (log : Nat) :
    fullSignificand * powerUp ((log : Int) - 52) = 2 ^ log * powerDown ((log : Int) - 52) := by
  simp only [fullSignificand, powerUp, powerDown, Nat.pow_eq, ← Nat.pow_add]
  exact congrArg (2 ^ ·) (by omega)

section Integer

variable {n : Nat} (hne : n ≠ 0)
include hne

/-- The first guess of an exponent is right for an integer. -/
theorem exponentOf_one : exponentOf n 1 = (n.log2 : Int) - 52 := by
  have hone : Nat.log2 1 = 0 := rfl
  have hlow : 2 ^ n.log2 * powerDown ((n.log2 : Int) - 52) ≤ n * powerDown ((n.log2 : Int) - 52) :=
    Nat.mul_le_mul_right _ (Nat.log2_self_le hne)
  simp only [exponentOf, hone, Int.ofNat_zero, Int.sub_zero, Nat.one_mul,
    fullSignificand_mul_powerUp, if_neg (Nat.not_lt.mpr hlow)]
  rw [leastExponent]
  omega

/-- An integer is rounded at the exponent that its highest bit calls for. -/
theorem ofQuotient_one (negative : Bool) :
    ofQuotient negative n 1 = pack negative
      (roundQuotient (n * powerDown ((n.log2 : Int) - 52)) (powerUp ((n.log2 : Int) - 52)))
      ((n.log2 : Int) - 52) := by
  rw [ofQuotient, if_neg hne]
  dsimp only
  rw [exponentOf_one hne, Nat.one_mul]

end Integer

section Small

variable {n : Nat} (hne : n ≠ 0) (hsmall : n < integerBound)
include hne hsmall

private theorem log2_le : n.log2 ≤ 52 :=
  Nat.le_of_lt_succ ((Nat.log2_lt hne).mpr hsmall)

private theorem powerDown_log2 : powerDown ((n.log2 : Int) - 52) = 2 ^ (52 - n.log2) := by
  have hlog := log2_le hne hsmall
  rw [powerDown, show (-((n.log2 : Int) - 52)).toNat = 52 - n.log2 by omega, Nat.pow_eq]

private theorem powerUp_log2 : powerUp ((n.log2 : Int) - 52) = 1 := by
  have hlog := log2_le hne hsmall
  rw [powerUp, show ((n.log2 : Int) - 52).toNat = 0 by omega, Nat.pow_eq, Nat.pow_zero]

/-- Shifted by what is missing, the integer has 53 bits. -/
private theorem shifted_lt : n * 2 ^ (52 - n.log2) < 2 * fullSignificand := by
  have hfull : 2 * fullSignificand = 2 ^ (n.log2 + 1) * 2 ^ (52 - n.log2) := by
    rw [← Nat.pow_add, Nat.add_right_comm, Nat.add_sub_cancel' (log2_le hne hsmall)]
    rfl
  rw [hfull]
  exact Nat.mul_lt_mul_of_pos_right Nat.lt_log2_self (Nat.two_pow_pos _)

/-- Nothing is rounded off. -/
private theorem ofQuotient_of_small (negative : Bool) :
    ofQuotient negative n 1 = finite negative (n * 2 ^ (52 - n.log2)) ((n.log2 : Int) - 52) := by
  have hlog := log2_le hne hsmall
  rw [ofQuotient_one hne, powerDown_log2 hne hsmall, powerUp_log2 hne hsmall, roundQuotient_one,
    pack, if_neg (Nat.ne_of_lt (shifted_lt hne hsmall))]
  dsimp only
  rw [if_neg (by rw [greatestExponent]; omega)]

end Small

/-- An integer of at most 53 bits is the number nearest to itself. -/
theorem isInteger_ofQuotient {n : Int} (h : n.natAbs ≤ integerBound) :
    (ofQuotient (n < 0) n.natAbs 1).IsInteger n := by
  rcases Decidable.em (n.natAbs = 0) with hzero | hne
  · exact ⟨0, leastExponent, by rw [hzero]; rfl, by rw [hzero, Nat.zero_mul, Nat.zero_mul]⟩
  rcases Nat.lt_or_eq_of_le h with hsmall | hbound
  · refine ⟨_, _, ofQuotient_of_small hne hsmall _, ?_⟩
    rw [powerDown_log2 hne hsmall, powerUp_log2 hne hsmall, Nat.mul_one]
  · -- The bound itself needs one bit more, and its last one is zero.
    refine ⟨fullSignificand, 1, ?_, by rw [hbound]; rfl⟩
    rw [hbound]
    cases decide (n < 0) <;> decide +kernel

/-- Such an integer is converted to itself. -/
theorem decimalOfInteger_eq {n : Int} (h : n.natAbs ≤ integerBound) :
    decimalOfInteger n = .ok (ofQuotient (n < 0) n.natAbs 1) := by
  obtain ⟨significand, exponent, hvalue, -⟩ := isInteger_ofQuotient h
  rw [decimalOfInteger, ofInt?, hvalue]

/-- Its digits are read as itself. -/
theorem ofDecimal_eq {n : Int} (h : n.natAbs ≤ integerBound) :
    ofDecimal (n < 0) n.natAbs 0 = ofQuotient (n < 0) n.natAbs 1 := by
  rcases Decidable.em (n.natAbs = 0) with hzero | hne
  · rw [hzero]
    rfl
  have hlength : decimalLength n.natAbs ≤ 16 := by
    rw [decimalLength, Nat.length_toDigits_le_iff (by decide) (by decide)]
    exact Nat.lt_of_le_of_lt h (by decide)
  rw [ofDecimal, if_neg hne, if_neg (by omega), if_neg (by omega)]
  simp

end TraceProfile.Binary64
